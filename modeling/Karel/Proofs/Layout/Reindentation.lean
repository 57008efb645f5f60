import Mathlib.Data.List.Forall2
import Mathlib.Order.Monotone.Basic
import Karel.Parse
import Karel.Proofs.Layout.Levels
import Karel.Proofs.Layout.RawLine

/-!
# Other widths of indentation

The scanner compares the width of a line with the widths of the open blocks, and does nothing else
with it. So the lines of a text may be indented by other widths, with spaces or tabs, as long as
the new widths are in the same order as the old ones and no indentation stays none.

## Main definitions

- `RawLine.Reindented` — a line with another indentation
- `Line.Respaced` — lines that differ in their widths only
- `Margin.respace` — a margin with the new widths

## Main results

- `scanLines_respace` — lines of other widths have the same tokens
- `toList_of_reindented` — the same of a source text
-/

namespace Karel

/-- A space or a tab. -/
def RawLine.isIndent (byte : UInt8) : Bool :=
  byte = 32 ∨ byte = 9

/-- A line whose leading spaces and tabs are exchanged for others, as many as `spread` has for
    their number. -/
inductive RawLine.Reindented (spread : Nat → Nat) : List UInt8 → List UInt8 → Prop where
  | intro {indent exchanged rest : List UInt8} (blank : indent.all isIndent = true)
      (stop : ∀ byte ∈ rest.head?, isIndent byte = false)
      (otherBlank : exchanged.all isIndent = true)
      (length : exchanged.length = spread indent.length) :
    Reindented spread (indent ++ rest) (exchanged ++ rest)

/-- Lines of the same sort with the same tokens, the one as wide as `spread` has for the width of
    the other. -/
inductive Line.Respaced (spread : Nat → Nat) : Line → Line → Prop where
  | blank : Respaced spread .blank .blank
  | comment : Respaced spread .comment .comment
  | code (width : Nat) {pieces others : List Lexeme}
      (same : pieces.filterMap Lexeme.kind? = others.filterMap Lexeme.kind?) :
    Respaced spread (.code width pieces) (.code (spread width) others)

variable {spread : Nat → Nat} {line other : Line} {lines others : List Line}
  {bytes exchanged : List UInt8}

-- ════════════════════════════════════════════════════════════════════════
-- Lines
-- ════════════════════════════════════════════════════════════════════════

theorem RawLine.map_ofByte_of_all_isIndent (h : bytes.all isIndent = true) :
    bytes.map Glyph.ofByte = List.replicate bytes.length .blank := by
  rw [List.eq_replicate_iff]
  refine ⟨List.length_map _, fun glyph hmem => ?_⟩
  obtain ⟨byte, hbyte, rfl⟩ := List.mem_map.mp hmem
  have hindent := List.all_eq_true.mp h byte hbyte
  exact Glyph.ofByte_eq_blank_iff.mpr (of_decide_eq_true hindent)

/-- A line that does not begin with a blank is not indented. -/
theorem RawLine.width_eq_zero_of_head? {rest : List UInt8}
    (h : ∀ byte ∈ rest.head?, isIndent byte = false) {width : Nat} {pieces : List Lexeme}
    (hline : toLine rest = .code width pieces) : width = 0 := by
  rw [← Line.width_ofGlyphs hline]
  cases rest with
  | nil => rfl
  | cons byte rest =>
    have hbyte : Glyph.ofByte byte ≠ .blank := by
      rw [ne_eq, Glyph.ofByte_eq_blank_iff]
      exact of_decide_eq_false (h byte rfl)
    rw [List.map_cons, List.takeWhile_cons_of_neg (by simpa using hbyte)]
    rfl

/-- Two indentations of a line that is not indented yet. -/
theorem Line.respaced_indent (hflat : ∀ width pieces, line = .code width pieces → width = 0)
    (width : Nat) : Respaced spread (line.indent width) (line.indent (spread width)) := by
  cases line with
  | blank => exact .blank
  | comment => exact .comment
  | code inner pieces =>
    obtain rfl := hflat inner pieces rfl
    refine .code width ?_
    rw [filterMap_kind?_indent, filterMap_kind?_indent]

theorem RawLine.Reindented.respaced (h : Reindented spread bytes exchanged) :
    Line.Respaced spread (toLine bytes) (toLine exchanged) := by
  obtain ⟨hblank, hstop, hother, hlength⟩ := h
  rw [toLine, toLine, List.map_append, List.map_append, map_ofByte_of_all_isIndent hblank,
    map_ofByte_of_all_isIndent hother, hlength, Line.ofGlyphs_replicate_append,
    Line.ofGlyphs_replicate_append]
  exact Line.respaced_indent (fun width pieces => width_eq_zero_of_head? hstop) _

-- ════════════════════════════════════════════════════════════════════════
-- Margins
-- ════════════════════════════════════════════════════════════════════════

namespace Margin

/-- A margin with other widths of its levels. -/
def respace (spread : Nat → Nat) (margin : Margin) : Margin :=
  { margin with levels := margin.levels.map spread }

variable (hspread : StrictMono spread)

include hspread

theorem closed_map (levels : List Nat) (width : Nat) :
    closed (levels.map spread) (spread width) = (closed levels width).map spread := by
  rw [closed, closed, List.takeWhile_map]
  congr 2
  funext level
  simp [hspread.lt_iff_lt]

theorem kept_map (levels : List Nat) (width : Nat) :
    kept (levels.map spread) (spread width) = (kept levels width).map spread := by
  rw [kept, kept, List.dropWhile_map]
  congr 2
  funext level
  simp [hspread.lt_iff_lt]

variable (hzero : spread 0 = 0)

include hzero

/-- The outermost level, which is not listed, has the width zero before and after. -/
theorem opens_map (levels : List Nat) (width : Nat) :
    opens (levels.map spread) (spread width) = opens levels width := by
  have hhead : ((kept levels width).map spread).headD 0 = spread ((kept levels width).headD 0) := by
    cases kept levels width with
    | nil => exact hzero.symm
    | cons level levels => rfl
  rw [opens, opens, kept_map hspread, hhead]
  exact decide_eq_decide.mpr hspread.lt_iff_lt

theorem levelsAfter_map (levels : List Nat) (width : Nat) :
    levelsAfter (levels.map spread) (spread width) = (levelsAfter levels width).map spread := by
  rw [levelsAfter, levelsAfter, opens_map hspread hzero, kept_map hspread]
  split <;> rfl

theorem tokens_respace (h : Line.Respaced spread line other) (margin : Margin) (index : Nat)
    (terminated : Bool) :
    (margin.respace spread).tokens index terminated other =
      margin.tokens index terminated line := by
  cases h with
  | blank | comment => rfl
  | code width same =>
    rw [tokens_code, tokens_code, textTokens, textTokens, same, respace, closed_map hspread,
      opens_map hspread hzero, List.length_map]

theorem after_respace (h : Line.Respaced spread line other) (margin : Margin) :
    (margin.respace spread).after other = (margin.after line).respace spread := by
  cases h with
  | blank | comment => rfl
  | code width same =>
    rw [after, after, respace, levelsAfter_map hspread hzero]
    rfl

end Margin

theorem Margin.closing_respace (margin : Margin) (index : Nat) :
    (margin.respace spread).closing index = margin.closing index := by
  rw [closing, closing, respace, List.map_map]
  rfl

/-- Lines of other widths have the same tokens below a margin with those widths. -/
theorem scanLines_respace (hspread : StrictMono spread) (hzero : spread 0 = 0)
    (h : List.Forall₂ (Line.Respaced spread) lines others) (margin : Margin) (index : Nat) :
    scanLines (margin.respace spread) index others = scanLines margin index lines := by
  induction h generalizing margin index with
  | nil => rfl
  | cons hline hlines ih =>
    have htokens := Margin.tokens_respace hspread hzero hline margin index
    have hafter := Margin.after_respace hspread hzero hline margin
    cases hlines with
    | nil => rw [scanLines, scanLines, htokens, hafter, Margin.closing_respace]
    | cons hnext hmore => rw [scanLines, scanLines, htokens, hafter, ih]

-- ════════════════════════════════════════════════════════════════════════
-- A source text
-- ════════════════════════════════════════════════════════════════════════

variable {source text : String}

/-- A text whose lines only differ in their widths has the same tokens. -/
theorem ofSource_of_respaced {differs : List UInt8 → List UInt8 → Prop}
    (hspread : StrictMono spread) (hzero : spread 0 = 0)
    (hdiffers : ∀ line other, differs line other →
      Line.Respaced spread (RawLine.toLine line) (RawLine.toLine other))
    (h : List.Forall₂ differs (byteLines source) (byteLines text)) :
    TokenStream.ofSource text = TokenStream.ofSource source := by
  have hlines : List.Forall₂ (Line.Respaced spread) (sourceLines source) (sourceLines text) := by
    rw [sourceLines_eq_map, sourceLines_eq_map, List.forall₂_map_left_iff,
      List.forall₂_map_right_iff]
    exact h.imp hdiffers
  have hscan : scan text = scan source := scanLines_respace hspread hzero hlines Margin.initial 0
  have hend : endLine text = endLine source := by rw [endLine, endLine, hlines.length_eq]
  rw [TokenStream.ofSource, TokenStream.ofSource, hscan, hend]

theorem ofSource_of_reindented (hspread : StrictMono spread) (hzero : spread 0 = 0)
    (h : List.Forall₂ (RawLine.Reindented spread) (byteLines source) (byteLines text)) :
    TokenStream.ofSource text = TokenStream.ofSource source :=
  ofSource_of_respaced hspread hzero (fun _ _ => RawLine.Reindented.respaced) h

/-- Only the order of the widths of the indentation matters. With other widths in the same order,
    in spaces and tabs, a text has the same tokens on the same lines, and the same program or the
    same error. -/
theorem toList_of_reindented (hspread : StrictMono spread) (hzero : spread 0 = 0)
    (h : List.Forall₂ (RawLine.Reindented spread) (byteLines source) (byteLines text)) :
    (TokenStream.ofSource text).toList = (TokenStream.ofSource source).toList ∧
    ∀ capabilities, parseProgram capabilities text = parseProgram capabilities source := by
  have hstream := ofSource_of_reindented hspread hzero h
  refine ⟨by rw [hstream], fun capabilities => ?_⟩
  have hscan : scan text = scan source := congrArg TokenStream.tokens hstream
  have hend : endLine text = endLine source := congrArg TokenStream.endLine hstream
  rw [parseProgram, parseProgram, replyTo, replyTo, hscan, hend]

/-- With half as many columns more, in spaces and tabs, a line that is dedented to no open width is
    still one, and a line of white is still blank. -/
theorem toList_of_reindented_inconsistent_dedent :
    (TokenStream.ofSource "do 2:\n\t     move\n\t\t\t\r\n   jump").toList =
      [⟨.keyword .«do», 0⟩, ⟨.number "2", 0⟩, ⟨.colon, 0⟩, ⟨.newline, 0⟩, ⟨.indent, 1⟩,
        ⟨.identifier "move", 1⟩, ⟨.newline, 1⟩, ⟨.dedent, 3⟩, ⟨.indent, 3⟩, ⟨.newline, 3⟩,
        ⟨.identifier "jump", 3⟩, ⟨.dedent, 3⟩, ⟨.eof, 3⟩] ∧
    parseProgram Capabilities.standard "do 2:\n\t     move\n\t\t\t\r\n   jump" =
      .error { fault := .unexpectedIndent, found := ⟨.indent, 3⟩ } := by
  have hspread : StrictMono fun width : Nat => width + width / 2 := by
    intro width wider hlt
    show width + width / 2 < wider + wider / 2
    omega
  have hsource : byteLines "do 2:\n    move\n  \r\n  jump" =
      [[] ++ [100, 111, 32, 50, 58], [32, 32, 32, 32] ++ [109, 111, 118, 101],
        [32, 32] ++ [13], [32, 32] ++ [106, 117, 109, 112]] := by decide
  have htext : byteLines "do 2:\n\t     move\n\t\t\t\r\n   jump" =
      [[] ++ [100, 111, 32, 50, 58], [9, 32, 32, 32, 32, 32] ++ [109, 111, 118, 101],
        [9, 9, 9] ++ [13], [32, 32, 32] ++ [106, 117, 109, 112]] := by decide
  have hlines : List.Forall₂ (RawLine.Reindented fun width => width + width / 2)
      (byteLines "do 2:\n    move\n  \r\n  jump")
      (byteLines "do 2:\n\t     move\n\t\t\t\r\n   jump") := by
    have hstop {first : UInt8} (hfirst : RawLine.isIndent first = false) (rest : List UInt8) :
        ∀ byte ∈ (first :: rest).head?, RawLine.isIndent byte = false := by
      rintro byte ⟨⟩
      exact hfirst
    rw [hsource, htext]
    exact .cons (.intro rfl (hstop rfl _) rfl rfl) (.cons (.intro rfl (hstop rfl _) rfl rfl)
      (.cons (.intro rfl (hstop rfl _) rfl rfl) (.cons (.intro rfl (hstop rfl _) rfl rfl) .nil)))
  obtain ⟨htokens, hparse⟩ := toList_of_reindented hspread rfl hlines
  rw [htokens, hparse]
  exact ⟨by decide, rfl⟩

end Karel
