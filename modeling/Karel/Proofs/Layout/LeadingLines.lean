import Karel.Proofs.Layout.Cuts

/-!
# Where lines begin

The visible tokens of a line follow each other directly, and between those of two lines there is a
`newline`, or the line is the last one. So the token list alone tells where a line begins, and
the lines begin in order, whatever blank lines, comments and skipped glyphs stand between them.

## Main definitions

- `leadingLines` — the lines that begin in some tokens
- `BeginInOrder` — the lines that begin are those with visible tokens, in order

## Main results

- `BeginInOrder.scanLines` — the tokens of some lines begin in order
-/

namespace Karel

/-- The lines on which visible tokens begin: those of the visible tokens that stand directly behind
    no visible token. -/
def leadingLines : Bool → List Token → List Nat
  | _, [] => []
  | inside, token :: tokens =>
    if token.kind.isVisible then
      if inside then leadingLines true tokens else token.line :: leadingLines true tokens
    else leadingLines false tokens

variable {tokens more : List Token} {line : Nat}

/-- What is not visible ends what is, so it does not matter what stands before it. -/
theorem leadingLines_of_not_isVisible {token : Token} (h : token.kind.isVisible = false)
    (inside : Bool) : leadingLines inside (token :: tokens) = leadingLines false tokens := by
  rw [leadingLines, if_neg (by simp [h])]

theorem leadingLines_true_append (h : ∀ token ∈ tokens, token.kind.isVisible = true) :
    leadingLines true (tokens ++ more) = leadingLines true more := by
  induction tokens with
  | nil => rfl
  | cons token tokens ih =>
    have htoken := h token List.mem_cons_self
    rw [List.cons_append, leadingLines, if_pos htoken, if_pos rfl]
    exact ih fun other hother => h other (List.mem_cons_of_mem token hother)

/-- The text of a line begins once, if there is any and its end can be seen. -/
theorem leadingLines_textTokens (index : Nat) (pieces : List Lexeme)
    (hmore : leadingLines true more = leadingLines false more) :
    leadingLines false (textTokens index pieces ++ more) =
      (if textTokens index pieces = [] then [] else [index]) ++ leadingLines false more := by
  cases htext : textTokens index pieces with
  | nil => rfl
  | cons token tokens =>
    have hvisible : ∀ other ∈ token :: tokens, other.kind.isVisible = true ∧ other.line = index :=
      fun other hother => isVisible_of_mem_textTokens (htext ▸ hother)
    obtain ⟨htoken, hline⟩ := hvisible token List.mem_cons_self
    rw [List.cons_append, leadingLines, if_pos htoken, if_neg Bool.false_ne_true, hline,
      leadingLines_true_append fun other hother =>
        (hvisible other (List.mem_cons_of_mem token hother)).1, hmore, if_neg (by simp)]
    rfl

theorem leadingLines_eq_nil (h : ∀ token ∈ tokens, token.kind.isVisible = false) (inside : Bool) :
    leadingLines inside tokens = [] := by
  induction tokens generalizing inside with
  | nil => rfl
  | cons token tokens ih =>
    rw [leadingLines_of_not_isVisible (h token List.mem_cons_self)]
    exact ih (fun other hother => h other (List.mem_cons_of_mem token hother)) false

theorem exists_of_mem_leadingLines {inside : Bool} (h : line ∈ leadingLines inside tokens) :
    ∃ token ∈ tokens, token.kind.isVisible = true ∧ token.line = line := by
  induction tokens generalizing inside with
  | nil => cases h
  | cons token tokens ih =>
    have hrest {inside : Bool} (h : line ∈ leadingLines inside tokens) :
        ∃ other ∈ token :: tokens, other.kind.isVisible = true ∧ other.line = line := by
      obtain ⟨other, hmem, hother⟩ := ih h
      exact ⟨other, List.mem_cons_of_mem token hmem, hother⟩
    rw [leadingLines] at h
    split at h
    · next hvisible =>
      split at h
      · exact hrest h
      · rcases List.mem_cons.mp h with rfl | h
        · exact ⟨token, List.mem_cons_self, hvisible, rfl⟩
        · exact hrest h
    · exact hrest h

theorem leadingLines_layout_append {layout : List Token}
    (h : ∀ token ∈ layout, token.kind.isVisible = false) :
    leadingLines false (layout ++ more) = leadingLines false more := by
  induction layout with
  | nil => rfl
  | cons token layout ih =>
    rw [List.cons_append, leadingLines_of_not_isVisible (h token List.mem_cons_self)]
    exact ih fun other hother => h other (List.mem_cons_of_mem token hother)

/-- Lines begin in order, and each line with a visible token does. -/
structure BeginInOrder (tokens : List Token) : Prop where
  pairwise : (leadingLines false tokens).Pairwise (· < ·)
  mem : ∀ token ∈ tokens, token.kind.isVisible = true → token.line ∈ leadingLines false tokens

namespace BeginInOrder

theorem layout_append {layout : List Token} (h : BeginInOrder tokens)
    (hlayout : ∀ token ∈ layout, token.kind.isVisible = false) :
    BeginInOrder (layout ++ tokens) := by
  have heq : leadingLines false (layout ++ tokens) = leadingLines false tokens :=
    leadingLines_layout_append hlayout
  constructor
  · rw [heq]
    exact h.pairwise
  · intro token hmem hvisible
    rw [heq]
    rcases List.mem_append.mp hmem with hmem | hmem
    · rw [hlayout token hmem] at hvisible
      cases hvisible
    · exact h.mem token hmem hvisible

theorem textTokens_append (h : BeginInOrder more) (index : Nat) (pieces : List Lexeme)
    (hended : leadingLines true more = leadingLines false more)
    (hlater : ∀ token ∈ more, token.kind.isVisible = true → index < token.line) :
    BeginInOrder (textTokens index pieces ++ more) := by
  have heq := leadingLines_textTokens index pieces hended
  constructor
  · rw [heq]
    refine List.pairwise_append.mpr ⟨by split <;> simp, h.pairwise, ?_⟩
    intro first hfirst line hline
    obtain ⟨token, hmem, hvisible, rfl⟩ := exists_of_mem_leadingLines hline
    have hlate := hlater token hmem hvisible
    split at hfirst
    · cases hfirst
    · rwa [List.mem_singleton.mp hfirst]
  · intro token hmem hvisible
    rw [heq, List.mem_append]
    rcases List.mem_append.mp hmem with hmem | hmem
    · rw [if_neg (List.ne_nil_of_mem hmem), (isVisible_of_mem_textTokens hmem).2]
      exact .inl (List.mem_singleton_self index)
    · exact .inr (h.mem token hmem hvisible)

theorem tokens_append (h : BeginInOrder more) (margin : Margin) (index : Nat) (terminated : Bool)
    (contents : Line)
    (hended : terminated = true ∨ leadingLines true more = leadingLines false more)
    (hlater : ∀ token ∈ more, token.kind.isVisible = true → index < token.line) :
    BeginInOrder (margin.tokens index terminated contents ++ more) := by
  cases contents with
  | blank | comment => exact h
  | code width pieces =>
    rw [Margin.tokens_code_eq_layoutTokens_append, List.append_assoc, List.append_assoc]
    refine layout_append ?_ fun token => Margin.isVisible_of_mem_layoutTokens
    cases terminated with
    | false =>
      exact h.textTokens_append index pieces (hended.resolve_left Bool.false_ne_true) hlater
    | true =>
      have hnewline : BeginInOrder ([⟨.newline, index⟩] ++ more) := h.layout_append (by simp; rfl)
      refine hnewline.textTokens_append index pieces rfl ?_
      intro token hmem hvisible
      rcases List.mem_cons.mp hmem with rfl | hmem
      · cases hvisible
      · exact hlater token hmem hvisible

theorem of_layout (h : ∀ token ∈ tokens, token.kind.isVisible = false) : BeginInOrder tokens := by
  constructor
  · rw [leadingLines_eq_nil h]
    exact List.Pairwise.nil
  · intro token hmem hvisible
    rw [h token hmem] at hvisible
    cases hvisible

/-- The lines of a text begin in order. -/
theorem scanLines (margin : Margin) (index : Nat) (lines : List Line) (last : Nat) :
    BeginInOrder (Karel.scanLines margin index lines ++ [Token.endOfInput last]) := by
  fun_induction Karel.scanLines margin index lines with
  | case1 =>
    refine of_layout fun token hmem => ?_
    rw [List.mem_singleton.mp hmem]
    rfl
  | case2 margin index contents =>
    have hlayout : ∀ token ∈ (margin.after contents).closing index ++ [Token.endOfInput last],
        token.kind.isVisible = false := by
      intro token hmem
      rcases List.mem_append.mp hmem with hmem | hmem
      · obtain ⟨level, -, rfl⟩ := List.mem_map.mp hmem
        rfl
      · rw [List.mem_singleton.mp hmem]
        rfl
    rw [List.append_assoc]
    refine (of_layout hlayout).tokens_append margin index false contents (.inr ?_) ?_
    · rw [leadingLines_eq_nil hlayout, leadingLines_eq_nil hlayout]
    · intro token hmem hvisible
      rw [hlayout token hmem] at hvisible
      cases hvisible
  | case3 margin index contents next below ih =>
    rw [List.append_assoc]
    refine ih.tokens_append margin index true contents (.inl rfl) ?_
    intro token hmem hvisible
    rcases List.mem_append.mp hmem with hmem | hmem
    · exact (line_of_mem_scanLines hmem).1
    · rw [List.mem_singleton.mp hmem] at hvisible
      cases hvisible

end BeginInOrder

end Karel
