import Karel.Outline
import Karel.Proofs.Tree.Binding

/-!
# Headings of a printed tree

A printed tree can be read back line by line: it shows where each line ends, how deep the line
stands, and what its heading is. All of this rests on names being free of spaces and line ends.

## Main definitions

- `Heading.IsPlain` — a heading without spaces and line ends in what it names or counts

## Main results

- `Heading.eq_of_text_eq` — a heading is known from its words
- `Block.outline_eq_of_treeText_eq` — the headings of a tree are known from its printed form
-/

namespace Karel

variable {α : Type}

/-- Two lists that break a property for the first time at a known element are equal in front of
    it, and from it on. -/
theorem append_cons_inj_of_not {p : α → Bool} {front behind rest more : List α} {stop other : α}
    (hfront : ∀ item ∈ front, p item = true) (hbehind : ∀ item ∈ behind, p item = true)
    (hstop : p stop = false) (hother : p other = false)
    (h : front ++ stop :: rest = behind ++ other :: more) :
    front = behind ∧ stop :: rest = other :: more := by
  have hsame : front = behind := by
    have htake := congrArg (List.takeWhile p) h
    rw [RawLine.takeWhile_append_cons_of_not hstop,
      RawLine.takeWhile_append_cons_of_not hother] at htake
    rwa [List.takeWhile_eq_self_iff.mpr hfront, List.takeWhile_eq_self_iff.mpr hbehind] at htake
  subst hsame
  exact ⟨rfl, List.append_cancel_left h⟩

theorem append_cons_inj_of_notMem [DecidableEq α] {front behind rest more : List α} {mark : α}
    (hfront : mark ∉ front) (hbehind : mark ∉ behind)
    (h : front ++ mark :: rest = behind ++ mark :: more) : front = behind ∧ rest = more := by
  have hdiffer {items : List α} (hitems : mark ∉ items) :
      ∀ item ∈ items, decide (item ≠ mark) = true := by
    intro item hmem
    rw [decide_eq_true_eq]
    rintro rfl
    exact hitems hmem
  have hmark : decide (mark ≠ mark) = false := decide_eq_false fun h => h rfl
  obtain ⟨hsame, hrest⟩ :=
    append_cons_inj_of_not (hdiffer hfront) (hdiffer hbehind) hmark hmark h
  exact ⟨hsame, (List.cons.inj hrest).2⟩

theorem eq_of_repr_eq {count other : Nat} (h : count.repr = other.repr) : count = other := by
  have hvalue := congrArg (fun text => decimalValue text.toList) h
  exact (decimalValue_repr count).symm.trans (hvalue.trans (decimalValue_repr other))

theorem notMem_toList_repr {char : Char} (hchar : char.isDigit = false) (count : Nat) :
    char ∉ count.repr.toList := by
  intro hmem
  rw [Nat.toList_repr] at hmem
  have hdigit := Nat.isDigit_of_mem_toDigits (by decide) (by decide) hmem
  rw [hchar] at hdigit
  cases hdigit

-- ════════════════════════════════════════════════════════════════════════
-- Words
-- ════════════════════════════════════════════════════════════════════════

namespace Heading

/-- The leading word of a heading. -/
def word : Heading → String
  | command .. => "command"
  | call .. => "call"
  | doTimes .. => "do"
  | ifElse .. => "if"
  | elif .. => "elif"
  | otherwise => "else"
  | whileDo .. => "while"
  | define .. => "define"

/-- What a heading names, or counts. -/
def subject : Heading → String
  | command name _ | call name _ | ifElse name _ | elif name _ | whileDo name _
  | define name _ => name
  | doTimes count _ => toString count
  | otherwise => ""

/-- The line that a heading tells. -/
def line? : Heading → Option Nat
  | command _ line | call _ line | doTimes _ line | ifElse _ line | elif _ line | whileDo _ line
  | define _ line => some line
  | otherwise => none

/-- No spaces and line ends in what a heading names or counts. -/
def IsPlain (heading : Heading) : Prop :=
  ' ' ∉ heading.subject.toList ∧ '\n' ∉ heading.subject.toList

variable {first second heading : Heading} {line : Nat}

theorem eq_of_parts (hword : first.word = second.word) (hsubject : first.subject = second.subject)
    (hline : first.line? = second.line?) : first = second := by
  cases first with
  | doTimes count line =>
    cases second with
    | doTimes other line =>
      obtain rfl := Option.some.inj hline
      rw [eq_of_repr_eq hsubject]
    | _ => simp [word] at hword
  | _ => cases second <;> simp_all [word, subject, line?]

theorem text_of_line? (h : heading.line? = some line) :
    heading.text =
      heading.word ++ " " ++ heading.subject ++ " (line " ++ (line + 1).repr ++ ")" := by
  cases heading with
  | otherwise => cases h
  | _ =>
    obtain rfl := Option.some.inj h
    rfl

theorem eq_otherwise_of_line? (h : heading.line? = none) : heading = otherwise := by
  cases heading with
  | otherwise => rfl
  | _ => cases h

theorem toList_text_of_line? (h : heading.line? = some line) :
    heading.text.toList = heading.word.toList ++ ' ' :: (heading.subject.toList ++ ' ' ::
      ("(line ".toList ++ ((line + 1).repr.toList ++ [')']))) := by
  rw [text_of_line? h]
  simp

theorem notMem_toList_word (heading : Heading) :
    ' ' ∉ heading.word.toList ∧ '\n' ∉ heading.word.toList := by
  fun_cases word heading <;> decide

/-- A heading that tells a line has a space in it, and the other one has none. -/
theorem text_ne_text_otherwise (h : heading.line? = some line) :
    heading.text ≠ otherwise.text := by
  intro heq
  apply otherwise.notMem_toList_word.1
  show ' ' ∈ otherwise.text.toList
  rw [← heq, toList_text_of_line? h]
  exact List.mem_append_right _ List.mem_cons_self

/-- A heading begins with no space. -/
theorem exists_toList_text (heading : Heading) :
    ∃ char chars, heading.text.toList = char :: chars ∧ char ≠ ' ' := by
  have hword : ∃ char chars, heading.word.toList = char :: chars := by
    fun_cases word heading <;> exact ⟨_, _, rfl⟩
  obtain ⟨char, chars, hword⟩ := hword
  have hchar : char ≠ ' ' := by
    rintro rfl
    apply heading.notMem_toList_word.1
    rw [hword]
    exact List.mem_cons_self
  cases hline : heading.line? with
  | none =>
    obtain rfl := eq_otherwise_of_line? hline
    exact ⟨char, chars, hword, hchar⟩
  | some line => exact ⟨char, _, by rw [toList_text_of_line? hline, hword, List.cons_append], hchar⟩

/-- A heading is known from its words. -/
theorem eq_of_text_eq (hfirst : first.IsPlain) (hsecond : second.IsPlain)
    (h : first.text = second.text) : first = second := by
  cases hline : first.line? with
  | none =>
    obtain rfl := eq_otherwise_of_line? hline
    cases hother : second.line? with
    | none => exact (eq_otherwise_of_line? hother).symm
    | some other => exact absurd h.symm (text_ne_text_otherwise hother)
  | some line =>
    cases hother : second.line? with
    | none =>
      obtain rfl := eq_otherwise_of_line? hother
      exact absurd h (text_ne_text_otherwise hline)
    | some other =>
      have hchars := congrArg String.toList h
      rw [toList_text_of_line? hline, toList_text_of_line? hother] at hchars
      obtain ⟨hword, hchars⟩ := append_cons_inj_of_notMem first.notMem_toList_word.1
        second.notMem_toList_word.1 hchars
      obtain ⟨hsubject, hchars⟩ := append_cons_inj_of_notMem hfirst.1 hsecond.1 hchars
      have hdigits := List.append_cancel_right (List.append_cancel_left hchars)
      have hnumber := eq_of_repr_eq (String.toList_inj.mp hdigits)
      refine eq_of_parts (String.toList_inj.mp hword) (String.toList_inj.mp hsubject) ?_
      rw [hline, hother, Nat.succ.inj hnumber]

end Heading

-- ════════════════════════════════════════════════════════════════════════
-- Lines
-- ════════════════════════════════════════════════════════════════════════

/-- The characters of a line of a printed tree, without the end of the line. -/
def outlineChars (entry : Nat × Heading) : List Char :=
  List.replicate (2 * entry.1) ' ' ++ entry.2.text.toList

variable {first second : Nat × Heading} {entries others : List (Nat × Heading)}

theorem toList_outlineLine (entry : Nat × Heading) :
    (outlineLine entry).toList = outlineChars entry ++ ['\n'] := by
  simp [outlineLine, outlineChars]

theorem notMem_outlineChars {entry : Nat × Heading} (h : entry.2.IsPlain) :
    '\n' ∉ outlineChars entry := by
  have hpadding : '\n' ∉ List.replicate (2 * entry.1) ' ' := by
    rw [List.mem_replicate]
    rintro ⟨-, hchar⟩
    cases hchar
  rw [outlineChars, List.mem_append, not_or]
  refine ⟨hpadding, ?_⟩
  cases hline : entry.2.line? with
  | none =>
    rw [Heading.eq_otherwise_of_line? hline]
    exact Heading.otherwise.notMem_toList_word.2
  | some line =>
    have hdigits : '\n' ∉ (line + 1).repr.toList := notMem_toList_repr rfl (line + 1)
    rw [Heading.toList_text_of_line? hline]
    simpa [entry.2.notMem_toList_word.2, h.2] using hdigits

/-- A line of a printed tree tells its depth and its heading. -/
theorem eq_of_outlineChars_eq (hfirst : first.2.IsPlain) (hsecond : second.2.IsPlain)
    (h : outlineChars first = outlineChars second) : first = second := by
  have hspaces (count : Nat) : ∀ char ∈ List.replicate count ' ', decide (char = ' ') = true := by
    intro char hmem
    rw [List.eq_of_mem_replicate hmem]
    rfl
  obtain ⟨char, chars, htext, hchar⟩ := first.2.exists_toList_text
  obtain ⟨other, others, hothers, hother⟩ := second.2.exists_toList_text
  rw [outlineChars, outlineChars, htext, hothers] at h
  obtain ⟨hpadding, hchars⟩ := append_cons_inj_of_not (hspaces _) (hspaces _)
    (decide_eq_false hchar) (decide_eq_false hother) h
  have hdepth := congrArg List.length hpadding
  rw [List.length_replicate, List.length_replicate] at hdepth
  rw [← htext, ← hothers] at hchars
  have hheading := Heading.eq_of_text_eq hfirst hsecond (String.toList_inj.mp hchars)
  exact Prod.ext (by omega) hheading

/-- The headings of a tree are known from its lines. -/
theorem eq_of_flatMap_outlineLine_eq (hentries : ∀ entry ∈ entries, entry.2.IsPlain)
    (hothers : ∀ entry ∈ others, entry.2.IsPlain)
    (h : entries.flatMap (fun entry => (outlineLine entry).toList) =
      others.flatMap (fun entry => (outlineLine entry).toList)) : entries = others := by
  induction entries generalizing others with
  | nil =>
    cases others with
    | nil => rfl
    | cons other others =>
      rw [List.flatMap_nil, List.flatMap_cons, toList_outlineLine, List.append_assoc] at h
      exact absurd h.symm (List.append_ne_nil_of_right_ne_nil _ (List.cons_ne_nil _ _))
  | cons entry entries ih =>
    cases others with
    | nil =>
      rw [List.flatMap_nil, List.flatMap_cons, toList_outlineLine, List.append_assoc] at h
      exact absurd h (List.append_ne_nil_of_right_ne_nil _ (List.cons_ne_nil _ _))
    | cons other others =>
      obtain ⟨hentry, hentries⟩ := List.forall_mem_cons.mp hentries
      obtain ⟨hother, hothers⟩ := List.forall_mem_cons.mp hothers
      rw [List.flatMap_cons, List.flatMap_cons, toList_outlineLine, toList_outlineLine,
        List.append_assoc, List.append_assoc] at h
      obtain ⟨hline, hlines⟩ := append_cons_inj_of_notMem (notMem_outlineChars hentry)
        (notMem_outlineChars hother) h
      rw [eq_of_outlineChars_eq hentry hother hline, ih hentries hothers hlines]

-- ════════════════════════════════════════════════════════════════════════
-- Trees
-- ════════════════════════════════════════════════════════════════════════

theorem IsIdentifier.notMem_toList {name : String} {char : Char} (h : IsIdentifier name)
    (hchar : (char.isAlphanum || char = '_') = false) : char ∉ name.toList := by
  obtain ⟨⟨first, rest, hname, hfirst, hrest⟩, -⟩ := h
  rw [Bool.or_eq_false_iff, decide_eq_false_iff_not] at hchar
  intro hmem
  rw [hname] at hmem
  have hword : char.isAlphanum = true ∨ char = '_' := by
    rcases List.mem_cons.mp hmem with rfl | hmem
    · exact hfirst.imp_left fun halpha => by rw [Char.isAlphanum, halpha, Bool.true_or]
    · exact hrest char hmem
  rcases hword with hword | hword
  · rw [hchar.1] at hword
    cases hword
  · exact hchar.2 hword

/-- A heading about an identifier is plain. -/
theorem Heading.isPlain_of_isIdentifier {heading : Heading} (h : IsIdentifier heading.subject) :
    heading.IsPlain :=
  ⟨h.notMem_toList rfl, h.notMem_toList rfl⟩

theorem Heading.isPlain_doTimes (count line : Nat) : (doTimes count line).IsPlain :=
  ⟨notMem_toList_repr rfl count, notMem_toList_repr rfl count⟩

theorem Heading.isPlain_otherwise : otherwise.IsPlain := by
  constructor <;> exact List.not_mem_nil

mutual

theorem Statement.isPlain_of_mem_outline {depth : Nat} : (statement : Statement) →
    (∀ name ∈ statement.names, IsIdentifier name) →
      ∀ entry ∈ statement.outline depth, entry.2.IsPlain
  | .command _ _, h | .call _ _, h =>
    List.forall_mem_singleton.mpr
      (Heading.isPlain_of_isIdentifier (List.forall_mem_singleton.mp h))
  | .doTimes _ count body line, h =>
    List.forall_mem_cons.mpr
      ⟨Heading.isPlain_doTimes count line, Block.isPlain_of_mem_outline body h⟩
  | .ifElse _ body arms _, h => by
    rw [Statement.names, List.forall_mem_cons, List.forall_mem_append] at h
    rw [Statement.outline, List.forall_mem_cons, List.forall_mem_append]
    exact ⟨Heading.isPlain_of_isIdentifier h.1, Block.isPlain_of_mem_outline body h.2.1,
      arms.isPlain_of_mem_outline h.2.2⟩
  | .whileDo _ body _, h | .define _ body _, h => by
    rw [Statement.names, List.forall_mem_cons] at h
    rw [Statement.outline, List.forall_mem_cons]
    exact ⟨Heading.isPlain_of_isIdentifier h.1, Block.isPlain_of_mem_outline body h.2⟩

theorem Arms.isPlain_of_mem_outline {depth : Nat} : (arms : Arms) →
    (∀ name ∈ arms.names, IsIdentifier name) → ∀ entry ∈ arms.outline depth, entry.2.IsPlain
  | .done, _ => List.forall_mem_nil _
  | .otherwise body, h =>
    List.forall_mem_cons.mpr ⟨Heading.isPlain_otherwise, Block.isPlain_of_mem_outline body h⟩
  | .elif _ _ body next, h => by
    rw [Arms.names, List.forall_mem_cons, List.forall_mem_append] at h
    rw [Arms.outline, List.forall_mem_cons, List.forall_mem_append]
    exact ⟨Heading.isPlain_of_isIdentifier h.1, Block.isPlain_of_mem_outline body h.2.1,
      next.isPlain_of_mem_outline h.2.2⟩

/-- The headings of a tree are plain if its names are identifiers. -/
theorem Block.isPlain_of_mem_outline {depth : Nat} : (block : List Statement) →
    (∀ name ∈ Block.names block, IsIdentifier name) →
      ∀ entry ∈ Block.outline depth block, entry.2.IsPlain
  | [], _ => List.forall_mem_nil _
  | statement :: rest, h => by
    rw [Block.names, List.forall_mem_append] at h
    rw [Block.outline, List.forall_mem_append]
    exact ⟨statement.isPlain_of_mem_outline h.1, Block.isPlain_of_mem_outline rest h.2⟩

end

/-- The headings of a tree and their depths are known from its printed form. -/
theorem Block.outline_eq_of_treeText_eq {first second : Block}
    (hfirst : ∀ name ∈ Block.names first, IsIdentifier name)
    (hsecond : ∀ name ∈ Block.names second, IsIdentifier name)
    (h : Block.treeText first = Block.treeText second) :
    Block.outline 0 first = Block.outline 0 second := by
  apply eq_of_flatMap_outlineLine_eq (Block.isPlain_of_mem_outline first hfirst)
    (Block.isPlain_of_mem_outline second hsecond)
  have hchars := congrArg String.toList h
  rwa [Block.treeText, Block.treeText, String.toList_join, String.toList_join, List.flatMap_map,
    List.flatMap_map] at hchars

end Karel
