import Karel.Proofs.SourceText.Indentation
import Karel.TokenStream

/-!
# Cutting a text between lines

A text may be cut behind any of its lines but the last one. What the lines above the cut contribute
does not depend on the lines below it, and of the lines above only the margin matters to the lines
below.

## Main definitions

- `Margin.below` — the margin below some lines
- `endedTokens` — the tokens of some lines above a cut

## Main results

- `scanLines_append` — the tokens of lines that are cut in two
- `toList_of_sourceLines_append` — the same of a whole source text
- `le_line_of_mem_behind` — tokens below the cut stand on lines below the cut
-/

namespace Karel

/-- The margin below some lines. -/
def Margin.below (margin : Margin) (lines : List Line) : Margin :=
  lines.foldl Margin.after margin

/-- The tokens of lines that a further line follows. -/
def endedTokens (margin : Margin) (index : Nat) : List Line → List Token
  | [] => []
  | line :: lines =>
    margin.tokens index true line ++ endedTokens (margin.after line) (index + 1) lines

variable {margin : Margin} {index : Nat} {lines more : List Line} {token : Token}

/-- Lines are scanned up to any place, and then from there. -/
theorem scanLines_append (hmore : more ≠ []) :
    scanLines margin index (lines ++ more) =
      endedTokens margin index lines ++
        scanLines (margin.below lines) (index + lines.length) more := by
  induction lines generalizing margin index with
  | nil => rfl
  | cons line lines ih =>
    have hne : lines ++ more ≠ [] := by simp [hmore]
    rw [List.cons_append, scanLines_cons margin index line hne, ih, endedTokens,
      List.append_assoc, List.length_cons, Nat.add_assoc, Nat.add_comm 1]
    rfl

theorem kind_ne_eof_of_mem_endedTokens
    (h : token ∈ endedTokens margin index lines) : token.kind ≠ .eof := by
  induction lines generalizing margin index with
  | nil => cases h
  | cons line lines ih =>
    rcases List.mem_append.mp h with h | h
    · exact Margin.kind_ne_eof_of_mem_tokens h
    · exact ih h

/-- The tokens of lines above a cut end in a `newline`. -/
theorem kind_getLast?_endedTokens {last : Token}
    (h : last ∈ (endedTokens margin index lines).getLast?) : last.kind = .newline := by
  induction lines generalizing margin index with
  | nil => cases h
  | cons line lines ih =>
    rw [endedTokens, List.getLast?_append, Option.mem_def, Option.or_eq_some_iff] at h
    rcases h with h | ⟨-, h⟩
    · exact ih h
    · cases line with
      | blank | comment => cases h
      | code width pieces =>
        rw [Margin.tokens_code, if_pos rfl, List.getLast?_concat] at h
        rw [← Option.some.inj h]

theorem Margin.line_of_mem_tokens {terminated : Bool} {line : Line}
    (h : token ∈ margin.tokens index terminated line) : token.line = index := by
  obtain ⟨kind, -, rfl⟩ := List.mem_map.mp h
  rfl

theorem line_of_mem_scanLines (h : token ∈ scanLines margin index lines) :
    index ≤ token.line ∧ token.line < index + lines.length := by
  fun_induction scanLines margin index lines with
  | case1 => cases h
  | case2 margin index line =>
    rcases List.mem_append.mp h with h | h
    · have hline := Margin.line_of_mem_tokens h
      simp [hline]
    · obtain ⟨_, _, rfl⟩ := List.mem_map.mp h
      simp
  | case3 margin index line next more ih =>
    rcases List.mem_append.mp h with h | h
    · have hline := Margin.line_of_mem_tokens h
      simp [hline]
    · have hrest := ih h
      simp only [List.length_cons] at hrest ⊢
      omega

/-- The tokens of a source text whose lines are cut in two. -/
theorem toList_of_sourceLines_append {source : String} {above : List Line}
    (hlines : sourceLines source = above ++ more) (hmore : more ≠ []) :
    (TokenStream.ofSource source).toList =
      endedTokens Margin.initial 0 above ++
        (scanLines (Margin.initial.below above) above.length more ++
          [Token.endOfInput (above.length + (more.length - 1))]) := by
  have hlength := List.length_pos_iff.mpr hmore
  have hend : endLine source = above.length + (more.length - 1) := by
    rw [endLine, hlines, List.length_append]
    omega
  have hscan : scan source = endedTokens Margin.initial 0 above ++
      scanLines (Margin.initial.below above) above.length more := by
    rw [scan, hlines, scanLines_append hmore, Nat.zero_add]
  rw [TokenStream.toList, TokenStream.ofSource, hscan, hend, List.append_assoc]

/-- Behind the cut, tokens stand on the lines behind the cut. -/
theorem le_line_of_mem_behind {last : Nat} (hlast : index ≤ last)
    (h : token ∈ scanLines margin index lines ++ [Token.endOfInput last]) : index ≤ token.line := by
  rcases List.mem_append.mp h with h | h
  · exact (line_of_mem_scanLines h).1
  · rw [List.mem_singleton.mp h]
    exact hlast

end Karel
