import Karel.Proofs.Layout.RawLine
import Karel.Proofs.Layout.Restart

/-!
# Putting a line in

A line without code that is put in between two lines of a text has no tokens. It moves the lines
below it, and it may change the margin that those see, but it changes nothing above it.

## Main definitions

- `lineBehind` — where a line is found when another one is put in

## Main results

- `toList_of_sourceLines_insert` — the tokens of a text with a line without code put in
- `exists_sourceLines_of_insertIdx` — the lines of a text with some bytes put in as a line
-/

namespace Karel

variable {margin : Margin} {index : Nat} {lines above below : List Line} {line : Line}
  {token : Token} {source other : String}

theorem line_lt_of_mem_endedTokens (h : token ∈ endedTokens margin index lines) :
    token.line < index + lines.length := by
  induction lines generalizing margin index with
  | nil => cases h
  | cons line lines ih =>
    rw [List.length_cons]
    rcases List.mem_append.mp h with h | h
    · have hline := Margin.line_of_mem_tokens h
      omega
    · have hrest := ih h
      omega

/-- The line on which a line is found when a further one is put in before the line `index`. -/
def lineBehind (index line : Nat) : Nat :=
  if line < index then line else line + 1

theorem lineBehind_of_lt {line : Nat} (h : line < index) : lineBehind index line = line :=
  if_pos h

theorem lineBehind_of_le {line : Nat} (h : index ≤ line) : lineBehind index line = line + 1 :=
  if_neg (Nat.not_lt.mpr h)

theorem Margin.tokens_eq_nil (hline : ∀ width pieces, line ≠ .code width pieces)
    (terminated : Bool) : margin.tokens index terminated line = [] := by
  cases line with
  | blank | comment => rfl
  | code width pieces => exact absurd rfl (hline width pieces)

/-- A line without code that is put in moves the tokens of the lines below it, which are those that
    the margin below it asks for. -/
theorem toList_of_sourceLines_insert (hline : ∀ width pieces, line ≠ .code width pieces)
    (hbelow : below ≠ []) (hother : sourceLines other = above ++ line :: below) :
    (TokenStream.ofSource other).toList =
      (endedTokens Margin.initial 0 above ++
        (scanLines ((Margin.initial.below above).after line) above.length below ++
          [Token.endOfInput (above.length + (below.length - 1))])).map
        (Token.mapLine (lineBehind above.length)) := by
  have hscan : scanLines (Margin.initial.below above) above.length (line :: below) =
      (scanLines ((Margin.initial.below above).after line) above.length below).map
        (Token.mapLine (· + 1)) := by
    rw [scanLines_cons _ _ _ hbelow, ← scanLines_add, Margin.tokens_eq_nil hline]
    rfl
  have habove : (endedTokens Margin.initial 0 above).map
      (Token.mapLine (lineBehind above.length)) = endedTokens Margin.initial 0 above := by
    refine (List.map_congr_left fun token hmem => ?_).trans (List.map_id _)
    have hlt := line_lt_of_mem_endedTokens hmem
    rw [Token.mapLine, lineBehind_of_lt (by omega)]
    rfl
  have hmoved : (scanLines ((Margin.initial.below above).after line) above.length below).map
      (Token.mapLine (lineBehind above.length)) =
        (scanLines ((Margin.initial.below above).after line) above.length below).map
          (Token.mapLine (· + 1)) := by
    refine List.map_congr_left fun token hmem => ?_
    rw [Token.mapLine, Token.mapLine, lineBehind_of_le (line_of_mem_scanLines hmem).1]
  have hlength := List.length_pos_iff.mpr hbelow
  have hlast : (Token.endOfInput (above.length + (below.length - 1))).mapLine
      (lineBehind above.length) = Token.endOfInput (above.length + below.length) := by
    rw [Token.mapLine, Token.endOfInput, lineBehind_of_le (Nat.le_add_right _ _)]
    simp only [Token.endOfInput, Token.mk.injEq, true_and]
    omega
  rw [toList_of_sourceLines_append hother (List.cons_ne_nil _ _), hscan, List.map_append,
    List.map_append, habove, hmoved, List.map_singleton, hlast]
  rfl

/-- Bytes that are put in as a line between two lines of a text. -/
theorem exists_sourceLines_of_insertIdx {bytes : List UInt8}
    (hindex : index < (byteLines source).length)
    (hother : byteLines other = (byteLines source).insertIdx index bytes) :
    ∃ above below, above.length = index ∧ below ≠ [] ∧ sourceLines source = above ++ below ∧
      sourceLines other = above ++ RawLine.toLine bytes :: below := by
  obtain ⟨above, below, hsource, rfl, hinsert⟩ :=
    List.exists_of_modifyTailIdx (List.cons bytes) (Nat.le_of_lt hindex)
  refine ⟨above.map RawLine.toLine, below.map RawLine.toLine, List.length_map _, ?_, ?_, ?_⟩
  · intro hnil
    rw [List.map_eq_nil_iff] at hnil
    simp [hsource, hnil] at hindex
  · rw [sourceLines_eq_map, hsource, List.map_append]
  · rw [sourceLines_eq_map, hother, List.insertIdx, hinsert, List.map_append, List.map_cons]

end Karel
