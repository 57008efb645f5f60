import Karel.Proofs.Layout.RawLine
import Karel.Proofs.Layout.Restart

/-!
# From a line to the next

Behind the text of a line there is a `newline` if further lines follow, and else only what closes
the open blocks. The lines that follow say nothing before the first one with code, and that line
begins with an `indent` only if it is wider than the innermost open block.

## Main definitions

- `Line.isCode` — a line with code
- `tokensBehind` — the tokens behind the text of a line
- `logicalLineBelow?` — the next line of a source text that has code

## Main results

- `exists_line_of_last_visible` — what is behind the last visible token of a line
- `line_headD_scanLines`, `kind_headD_scanLines` — the first token of some lines
-/

namespace Karel

/-- A line with code. -/
def Line.isCode : Line → Bool
  | code _ _ => true
  | blank | comment => false

/-- The first line below a given one that has code. -/
def logicalLineBelow? (source : String) (line : Nat) : Option Nat :=
  (((byteLines source).drop (line + 1)).findIdx? RawLine.isLogical).map (line + 1 + ·)

/-- The tokens behind the text of a line, with the margin below it. -/
def tokensBehind (margin : Margin) (index : Nat) : List Line → List Token
  | [] => margin.closing index
  | line :: lines => ⟨.newline, index⟩ :: scanLines margin (index + 1) (line :: lines)

variable {margin : Margin} {index last : Nat} {lines : List Line} {token : Token}
  {front rest : List Token}

theorem isCode_toLine (line : List UInt8) :
    (RawLine.toLine line).isCode = RawLine.isLogical line := by
  cases hlogical : RawLine.isLogical line with
  | true =>
    obtain ⟨pieces, hline, -⟩ := RawLine.toLine_of_isLogical hlogical
    rw [hline]
    rfl
  | false =>
    cases hblank : RawLine.isBlank line with
    | true => rw [RawLine.toLine_of_isBlank hblank]; rfl
    | false => rw [RawLine.toLine_of_not hlogical hblank]; rfl

theorem logicalLineBelow?_eq (source : String) (line : Nat) :
    logicalLineBelow? source line =
      (((sourceLines source).drop (line + 1)).findIdx? Line.isCode).map (line + 1 + ·) := by
  have hcode : Line.isCode ∘ RawLine.toLine = RawLine.isLogical := funext isCode_toLine
  rw [logicalLineBelow?, sourceLines_eq_map, ← List.map_drop, List.findIdx?_map, hcode]

-- ════════════════════════════════════════════════════════════════════════
-- Behind the text of a line
-- ════════════════════════════════════════════════════════════════════════

/-- Where two lists make up an item with what is around it, one of them has the item. -/
theorem append_eq_append_cons {α : Type} {first second front rest : List α} {item : α}
    (h : first ++ second = front ++ item :: rest) :
    (∃ more, first = front ++ item :: more ∧ rest = more ++ second) ∨
      ∃ middle, second = middle ++ item :: rest := by
  rcases List.append_eq_append_iff.mp h with ⟨middle, -, hsecond⟩ | ⟨behind, hfirst, hrest⟩
  · exact .inr ⟨middle, hsecond⟩
  · cases behind with
    | nil => exact .inr ⟨[], by simpa using hrest.symm⟩
    | cons head more =>
      obtain ⟨rfl, rfl⟩ := List.cons.inj hrest
      exact .inl ⟨more, hfirst, rfl⟩

/-- Behind the last visible token of a line there is only its `newline`. -/
theorem Margin.exists_code_of_last_visible {terminated : Bool} {contents : Line}
    (h : margin.tokens index terminated contents = front ++ token :: rest)
    (hvisible : token.kind.isVisible = true)
    (hlast : ∀ other ∈ rest, other.kind.isVisible = false) :
    ∃ width pieces, contents = .code width pieces ∧
      rest = if terminated then [⟨.newline, index⟩] else [] := by
  cases contents with
  | blank | comment =>
    have hnil := (List.append_eq_nil_iff.mp h.symm).2
    cases hnil
  | code width pieces =>
    refine ⟨width, pieces, rfl, ?_⟩
    rw [tokens_code_eq_layoutTokens_append] at h
    rcases append_eq_append_cons h with ⟨more, hlayout, -⟩ | ⟨middle, h⟩
    · -- the token is none of the layout in front of the text
      have hhidden : token.kind.isVisible = false :=
        isVisible_of_mem_layoutTokens (by rw [hlayout]; simp)
      rw [hvisible] at hhidden
      cases hhidden
    · rcases append_eq_append_cons h with ⟨more, htext, rfl⟩ | ⟨middle, h⟩
      · -- what is left of the text is visible, so there is nothing left
        rcases more with _ | ⟨other, more⟩
        · rfl
        · have hmem : other ∈ textTokens index pieces := by simp [htext]
          have hshown := (isVisible_of_mem_textTokens hmem).1
          rw [hlast other (by simp)] at hshown
          cases hshown
      · -- nor is it the `newline` behind the text
        have hmem : token ∈ if terminated then [(⟨.newline, index⟩ : Token)] else [] := by
          rw [h]
          simp
        rw [List.mem_ite_nil_right, List.mem_singleton] at hmem
        rw [hmem.2] at hvisible
        cases hvisible

/-- The last visible token of a line tells where its line is, and what is behind the token is what
    is behind the text of the line. -/
theorem exists_line_of_last_visible (h : scanLines margin index lines = front ++ token :: rest)
    (hvisible : token.kind.isVisible = true)
    (hlast : ∀ other ∈ rest, other.kind.isVisible = true → other.line ≠ token.line) :
    ∃ above width pieces below, lines = above ++ .code width pieces :: below ∧
      token.line = index + above.length ∧
      rest = tokensBehind ((margin.below above).after (.code width pieces)) token.line below := by
  -- up to its end a line has no token of another line
  have hhidden {margin : Margin} {index : Nat} {terminated : Bool} {contents : Line}
      {front more behind : List Token}
      (htokens : margin.tokens index terminated contents = front ++ token :: more)
      (hrest : rest = more ++ behind) : ∀ other ∈ more, other.kind.isVisible = false := by
    intro other hmem
    have hline : token.line = index := Margin.line_of_mem_tokens (by rw [htokens]; simp)
    have hother : other.line = index := Margin.line_of_mem_tokens (by rw [htokens]; simp [hmem])
    rw [← Bool.not_eq_true]
    intro hshown
    exact hlast other (by rw [hrest]; simp [hmem]) hshown (hother.trans hline.symm)
  fun_induction scanLines margin index lines generalizing front with
  | case1 =>
    have hnil := (List.append_eq_nil_iff.mp h.symm).2
    cases hnil
  | case2 margin index contents =>
    rcases append_eq_append_cons h with ⟨more, htokens, hrest⟩ | ⟨middle, hclosing⟩
    · obtain ⟨width, pieces, rfl, rfl⟩ :=
        Margin.exists_code_of_last_visible htokens hvisible (hhidden htokens hrest)
      have hline : token.line = index := Margin.line_of_mem_tokens (by rw [htokens]; simp)
      exact ⟨[], width, pieces, [], rfl, hline, by rw [hrest, hline]; rfl⟩
    · have hmem : token ∈ (margin.after contents).closing index := by
        rw [hclosing]
        simp
      obtain ⟨level, -, rfl⟩ := List.mem_map.mp hmem
      cases hvisible
  | case3 margin index contents next more ih =>
    rcases append_eq_append_cons h with ⟨behind, htokens, hrest⟩ | ⟨middle, hbelow⟩
    · obtain ⟨width, pieces, rfl, rfl⟩ :=
        Margin.exists_code_of_last_visible htokens hvisible (hhidden htokens hrest)
      have hline : token.line = index := Margin.line_of_mem_tokens (by rw [htokens]; simp)
      exact ⟨[], width, pieces, next :: more, rfl, hline, by rw [hrest, hline]; rfl⟩
    · obtain ⟨above, width, pieces, below, hlines, hline, hrest⟩ := ih hbelow
      refine ⟨contents :: above, width, pieces, below, by rw [hlines, List.cons_append], ?_, hrest⟩
      rw [hline, List.length_cons]
      omega

-- ════════════════════════════════════════════════════════════════════════
-- The first token of some lines
-- ════════════════════════════════════════════════════════════════════════

theorem line_of_mem_closing (h : token ∈ margin.closing index) : token.line = index := by
  obtain ⟨level, -, rfl⟩ := List.mem_map.mp h
  rfl

/-- A line without code is passed over in search of one with code. -/
theorem findIdx?_isCode_cons {contents : Line} (lines : List Line) (h : contents.isCode = false) :
    (contents :: lines).findIdx? Line.isCode = (lines.findIdx? Line.isCode).map (· + 1) := by
  rw [List.findIdx?_cons, h]
  rfl

/-- A line with code that a further line follows has a token, if only its `newline`. -/
theorem Margin.tokens_code_ne_nil (margin : Margin) (index width : Nat) (pieces : List Lexeme) :
    margin.tokens index true (.code width pieces) ≠ [] := by
  rw [tokens_code]
  simp

/-- The first token of some lines stands on the first one with code, or else on the last one. -/
theorem line_headD_scanLines (hne : lines ≠ []) (hlast : last = index + (lines.length - 1)) :
    ((scanLines margin index lines).headD (Token.endOfInput last)).line =
      index + (lines.findIdx? Line.isCode).getD (lines.length - 1) := by
  fun_induction scanLines margin index lines with
  | case1 => exact absurd rfl hne
  | case2 margin index contents =>
    have hoffset : ([contents].findIdx? Line.isCode).getD 0 = 0 := by
      cases contents <;> rfl
    rw [hlast, List.length_singleton, Nat.sub_self, hoffset]
    cases htokens : margin.tokens index false contents ++ (margin.after contents).closing index with
    | nil => rfl
    | cons token behind =>
      have hmem : token ∈ margin.tokens index false contents ++
          (margin.after contents).closing index := htokens ▸ List.mem_cons_self
      rcases List.mem_append.mp hmem with hmem | hmem
      · exact Margin.line_of_mem_tokens hmem
      · exact line_of_mem_closing hmem
  | case3 margin index contents next more ih =>
    cases contents with
    | code width pieces =>
      cases htokens : margin.tokens index true (.code width pieces) with
      | nil => exact absurd htokens (margin.tokens_code_ne_nil index width pieces)
      | cons token behind => exact Margin.line_of_mem_tokens (htokens ▸ List.mem_cons_self)
    | blank | comment =>
      have hlast : last = index + 1 + ((next :: more).length - 1) := by
        rw [hlast]
        simp only [List.length_cons]
        omega
      have hbelow := ih (List.cons_ne_nil next more) hlast
      refine hbelow.trans ?_
      rw [findIdx?_isCode_cons (next :: more) rfl]
      cases (next :: more).findIdx? Line.isCode with
      | none =>
        simp only [Option.map_none, Option.getD_none, List.length_cons]
        omega
      | some offset =>
        simp only [Option.map_some, Option.getD_some]
        omega

/-- Lines without code only close the blocks that are still open. -/
theorem scanLines_eq_closing (hne : lines ≠ []) (h : ∀ line ∈ lines, line.isCode = false) :
    ∃ place, scanLines margin index lines = margin.closing place := by
  fun_induction scanLines margin index lines with
  | case1 => exact absurd rfl hne
  | case2 margin index contents =>
    have hcode := h contents List.mem_cons_self
    cases contents with
    | code width pieces => cases hcode
    | blank | comment => exact ⟨index, rfl⟩
  | case3 margin index contents next more ih =>
    have hcode := h contents List.mem_cons_self
    cases contents with
    | code width pieces => cases hcode
    | blank | comment =>
      exact ih (List.cons_ne_nil next more) fun line hmem => h line (List.mem_cons_of_mem _ hmem)

/-- Behind lines without code there is no `indent`. -/
theorem kind_headD_scanLines (hne : lines ≠ []) (h : lines.findIdx? Line.isCode = none) :
    ((scanLines margin index lines).headD (Token.endOfInput last)).kind ≠ .indent := by
  obtain ⟨place, hclosing⟩ := scanLines_eq_closing hne (List.findIdx?_eq_none_iff.mp h)
  rw [hclosing, Margin.closing]
  cases margin.levels with
  | nil => simp [Token.endOfInput]
  | cons level levels => simp

end Karel
