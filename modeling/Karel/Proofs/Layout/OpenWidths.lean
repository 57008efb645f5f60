import Mathlib.Data.Finset.Card
import Mathlib.Data.List.Infix
import Karel.Proofs.Layout.Levels

/-!
# Open widths

Which widths are open below some lines can be told from the widths of those lines alone: zero, and
the least width from each of the lines on to the last one. The levels that the scanner keeps are
these widths without zero, in descending order.

## Main definitions

- `openWidths` — the widths that are open below lines of given widths
- `Margin.IsStackOf` — levels that are the open widths in descending order

## Main results

- `mem_openWidths_concat` — what one more line does to the open widths
- `Margin.IsStackOf.levelsAfter` — levels keep being the open widths
-/

namespace Karel

/-- The widths that are open below lines of the given widths: zero, and the least width from each
    line on to the last one. -/
def openWidths (widths : List Nat) : Finset Nat :=
  insert 0 (widths.tails.filterMap List.min?).toFinset

variable {widths levels : List Nat} {width : Nat}

/-- A positive width is open if it is the least one of the last few. -/
theorem mem_openWidths {level : Nat} :
    level ∈ openWidths widths ↔
      level = 0 ∨ ∃ last, last <:+ widths ∧ level ∈ last ∧ ∀ other ∈ last, level ≤ other := by
  simp only [openWidths, Finset.mem_insert, List.mem_toFinset, List.mem_filterMap, List.mem_tails,
    List.min?_eq_some_iff]

theorem zero_mem_openWidths (widths : List Nat) : 0 ∈ openWidths widths :=
  mem_openWidths.mpr (.inl rfl)

/-- One more line leaves those widths open that are not larger than its own, and its own. -/
theorem mem_openWidths_concat {level : Nat} :
    level ∈ openWidths (widths ++ [width]) ↔
      level = width ∨ level ∈ openWidths widths ∧ level ≤ width := by
  constructor
  · intro h
    rcases mem_openWidths.mp h with rfl | ⟨last, hlast, hmem, hleast⟩
    · exact .inr ⟨zero_mem_openWidths widths, Nat.zero_le width⟩
    · rcases List.suffix_concat_iff.mp hlast with rfl | ⟨front, rfl, hfront⟩
      · cases hmem
      · have hle : level ≤ width := hleast width (by simp)
        rcases List.mem_append.mp hmem with hmem | hmem
        · refine .inr ⟨mem_openWidths.mpr (.inr ⟨front, hfront, hmem, ?_⟩), hle⟩
          exact fun other hother => hleast other (List.mem_append_left _ hother)
        · exact .inl (List.mem_singleton.mp hmem)
  · rintro (rfl | ⟨hopen, hle⟩)
    · exact mem_openWidths.mpr (.inr ⟨[level], ⟨widths, rfl⟩, by simp, by simp⟩)
    · rcases mem_openWidths.mp hopen with rfl | ⟨last, ⟨front, rfl⟩, hmem, hleast⟩
      · exact zero_mem_openWidths _
      · refine mem_openWidths.mpr (.inr ⟨last ++ [width], ⟨front, by simp⟩, by simp [hmem], ?_⟩)
        intro other hother
        rcases List.mem_append.mp hother with hother | hother
        · exact hleast other hother
        · exact (List.mem_singleton.mp hother) ▸ hle

namespace Margin

/-- The levels that a line closes are those wider than it, as the widest ones come first. -/
theorem closed_eq_filter (h : levels.Pairwise (· > ·)) :
    closed levels width = levels.filter (width < ·) := by
  induction levels with
  | nil => rfl
  | cons level levels ih =>
    obtain ⟨hlevel, hlevels⟩ := List.pairwise_cons.mp h
    by_cases hwide : width < level
    · rw [closed, List.takeWhile_cons_of_pos (by simpa using hwide),
        List.filter_cons_of_pos (by simpa using hwide), ← ih hlevels, closed]
    · rw [closed, List.takeWhile_cons_of_neg (by simpa using hwide),
        List.filter_cons_of_neg (by simpa using hwide), eq_comm, List.filter_eq_nil_iff]
      intro other hother
      have hless := hlevel other hother
      simp only [decide_eq_true_eq]
      omega

theorem kept_eq_filter (h : levels.Pairwise (· > ·)) :
    kept levels width = levels.filter (· ≤ width) := by
  induction levels with
  | nil => rfl
  | cons level levels ih =>
    obtain ⟨hlevel, hlevels⟩ := List.pairwise_cons.mp h
    by_cases hwide : width < level
    · rw [kept, List.dropWhile_cons_of_pos (by simpa using hwide),
        List.filter_cons_of_neg (by simpa using hwide), ← ih hlevels, kept]
    · rw [kept, List.dropWhile_cons_of_neg (by simpa using hwide), eq_comm, List.filter_eq_self]
      intro other hother
      rcases List.mem_cons.mp hother with rfl | hother
      · simpa using hwide
      · have hless := hlevel other hother
        simp only [decide_eq_true_eq]
        omega

/-- Levels that are the positive open widths below lines of the given widths, in descending
    order. -/
structure IsStackOf (levels widths : List Nat) : Prop where
  descending : levels.Pairwise (· > ·)
  mem_iff : ∀ level, level ∈ levels ↔ 0 < level ∧ level ∈ openWidths widths

namespace IsStackOf

variable (h : IsStackOf levels widths)

include h

/-- A line closes as many levels as there are open widths larger than its own. -/
theorem length_closed (width : Nat) :
    (closed levels width).length = ((openWidths widths).filter (width < ·)).card := by
  have hset : (openWidths widths).filter (width < ·) = (closed levels width).toFinset := by
    ext level
    rw [closed_eq_filter h.descending, List.mem_toFinset, List.mem_filter, Finset.mem_filter,
      h.mem_iff]
    simp only [decide_eq_true_eq]
    constructor
    · rintro ⟨hopen, hwide⟩
      exact ⟨⟨Nat.zero_lt_of_lt hwide, hopen⟩, hwide⟩
    · rintro ⟨⟨-, hopen⟩, hwide⟩
      exact ⟨hopen, hwide⟩
  have hnodup : (closed levels width).Nodup :=
    (h.descending.sublist (List.takeWhile_sublist _)).imp fun hless => (Nat.ne_of_lt hless).symm
  rw [hset, List.toFinset_card_of_nodup hnodup]

/-- A line opens a level if its width is not open. -/
theorem opens_iff (width : Nat) : opens levels width = true ↔ width ∉ openWidths widths := by
  have hkept : kept levels width = levels.filter (· ≤ width) := kept_eq_filter h.descending
  constructor
  · intro hopens hopen
    rw [opens, decide_eq_true_eq] at hopens
    have hmem : width ∈ kept levels width := by
      rw [hkept, List.mem_filter, h.mem_iff]
      exact ⟨⟨Nat.zero_lt_of_lt hopens, hopen⟩, by simp⟩
    have hdescending : (kept levels width).Pairwise (· > ·) :=
      h.descending.sublist (List.dropWhile_sublist _)
    cases hcons : kept levels width with
    | nil => rw [hcons] at hmem; cases hmem
    | cons head tail =>
      rw [hcons] at hopens hmem hdescending
      rcases List.mem_cons.mp hmem with rfl | hmem
      · exact Nat.lt_irrefl _ hopens
      · exact Nat.lt_asymm hopens ((List.pairwise_cons.mp hdescending).1 width hmem)
  · intro hnot
    by_contra hopens
    have hhead := headD_levelsAfter levels width
    rw [Margin.levelsAfter, if_neg hopens] at hhead
    cases hcons : kept levels width with
    | nil =>
      rw [hcons] at hhead
      exact hnot (hhead ▸ zero_mem_openWidths widths)
    | cons head tail =>
      have hmem : head ∈ kept levels width := by simp [hcons]
      rw [hcons] at hhead
      obtain rfl : head = width := hhead
      rw [hkept, List.mem_filter, h.mem_iff] at hmem
      exact hnot hmem.1.2

theorem length_eq : levels.length = (openWidths widths).card - 1 := by
  have hset : (openWidths widths).erase 0 = levels.toFinset := by
    ext level
    rw [Finset.mem_erase, List.mem_toFinset, h.mem_iff, Nat.pos_iff_ne_zero]
  have hnodup : levels.Nodup := h.descending.imp fun hless => (Nat.ne_of_lt hless).symm
  rw [← List.toFinset_card_of_nodup hnodup, ← hset,
    Finset.card_erase_of_mem (zero_mem_openWidths widths)]

/-- The levels below one more line are the widths that are open then. -/
theorem levelsAfter (width : Nat) :
    IsStackOf (Margin.levelsAfter levels width) (widths ++ [width]) := by
  have hkept : ∀ level, level ∈ kept levels width ↔
      (0 < level ∧ level ∈ openWidths widths) ∧ level ≤ width := by
    intro level
    rw [kept_eq_filter h.descending, List.mem_filter, h.mem_iff, decide_eq_true_eq]
  have hdescending : (kept levels width).Pairwise (· > ·) :=
    h.descending.sublist (List.dropWhile_sublist _)
  by_cases hopens : opens levels width = true
  · have hnew := (h.opens_iff width).mp hopens
    rw [Margin.levelsAfter, if_pos hopens]
    rw [opens, decide_eq_true_eq] at hopens
    constructor
    · refine List.pairwise_cons.mpr ⟨fun level hlevel => ?_, hdescending⟩
      obtain ⟨⟨-, hopen⟩, hle⟩ := (hkept level).mp hlevel
      exact Nat.lt_of_le_of_ne hle fun heq => hnew (heq ▸ hopen)
    · intro level
      rw [List.mem_cons, hkept, mem_openWidths_concat, and_assoc]
      constructor
      · rintro (rfl | ⟨hpos, hold⟩)
        · exact ⟨Nat.zero_lt_of_lt hopens, .inl rfl⟩
        · exact ⟨hpos, .inr hold⟩
      · rintro ⟨hpos, rfl | hold⟩
        · exact .inl rfl
        · exact .inr ⟨hpos, hold⟩
  · have hold : width ∈ openWidths widths := by
      by_contra hnew
      exact hopens ((h.opens_iff width).mpr hnew)
    rw [Margin.levelsAfter, if_neg hopens]
    refine ⟨hdescending, fun level => ?_⟩
    rw [hkept, mem_openWidths_concat, and_assoc]
    constructor
    · rintro ⟨hpos, hrest⟩
      exact ⟨hpos, .inr hrest⟩
    · rintro ⟨hpos, rfl | hrest⟩
      · exact ⟨hpos, hold, Nat.le_refl level⟩
      · exact ⟨hpos, hrest⟩

end IsStackOf

theorem isStackOf_nil : IsStackOf [] [] := by
  refine ⟨List.Pairwise.nil, fun level => ?_⟩
  rw [mem_openWidths]
  constructor
  · intro hmem
    cases hmem
  · rintro ⟨hpos, rfl | ⟨last, hlast, hmem, -⟩⟩
    · cases hpos
    · rw [List.suffix_nil.mp hlast] at hmem
      cases hmem

end Margin

end Karel
