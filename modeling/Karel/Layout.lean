import Karel.Lexeme

/-!
# Layout

The scanner turns a source text into tokens line by line. Lines without code only count, lines
with code are compared by the width of their indentation with the open blocks, and the difference
becomes `indent` and `dedent` tokens.

## Main definitions

- `Line` — a line of a program: blank, a lone comment, or code at some width
- `Margin` — the open indentation widths, and whether blank lines are pending
- `Margin.tokens`, `Margin.after` — what a line contributes, and the margin below it
- `scan` — the tokens of a source text, without the end of the input
- `endLine` — the line on which the input ends

## Design notes

A line with code that is dedented to a width that no open block has opens a block at that width.
It is left to the grammar to reject an `indent` that no header announced.
-/

namespace Karel

/-- A line of a program, as far as layout is concerned. -/
inductive Line where
  /-- Nothing to see. -/
  | blank
  /-- Nothing before the comment. -/
  | comment
  /-- Code indented by `width` columns. -/
  | code (width : Nat) (pieces : List Lexeme)
  deriving DecidableEq, Repr

/-- The line that a sequence of glyphs makes. A comment runs from the first `hash` to the end. -/
def Line.ofGlyphs (glyphs : List Glyph) : Line :=
  let text := glyphs.takeWhile (· ≠ .hash)
  if text.all Glyph.isWhite then
    if .hash ∈ glyphs then .comment else .blank
  else .code (text.takeWhile (· = .blank)).length (lexemes text)

/-- What stands between the last line with code and the present one. -/
inductive Spacing where
  /-- There was no line with code yet. -/
  | leading
  /-- No blank line since. -/
  | packed
  /-- At least one blank line since. -/
  | spaced
  deriving DecidableEq, Repr

/-- What the lines so far mean for the next one: the widths of the open blocks, innermost first,
    and the spacing. The outermost width, zero, is always open and is not listed. -/
structure Margin where
  levels : List Nat
  spacing : Spacing
  deriving DecidableEq, Repr

namespace Margin

/-- The margin of the first line. -/
def initial : Margin where
  levels := []
  spacing := .leading

/-- The open widths that a line of the given width leaves open. -/
def kept (levels : List Nat) (width : Nat) : List Nat :=
  levels.dropWhile (width < ·)

/-- The open widths that a line of the given width closes. -/
def closed (levels : List Nat) (width : Nat) : List Nat :=
  levels.takeWhile (width < ·)

/-- A line opens a block if it is wider than every block that it leaves open. -/
def opens (levels : List Nat) (width : Nat) : Bool :=
  (kept levels width).headD 0 < width

/-- The open widths below a line of the given width. -/
def levelsAfter (levels : List Nat) (width : Nat) : List Nat :=
  if opens levels width then width :: kept levels width else kept levels width

/-- The margin below a line. -/
def after (margin : Margin) : Line → Margin
  | .blank =>
    { margin with spacing := if margin.spacing = .leading then .leading else .spaced }
  | .comment => margin
  | .code width _ => { levels := levelsAfter margin.levels width, spacing := .packed }

/-- The kinds of the tokens that a line contributes. Blank lines above it count as one `newline`,
    and a line that a further line follows ends in one. -/
def kinds (margin : Margin) (terminated : Bool) : Line → List TokenKind
  | .blank | .comment => []
  | .code width pieces =>
    -- a dedent to a width between two open ones closes blocks and opens one
    (closed margin.levels width).map (fun _ => .dedent)
      ++ (if opens margin.levels width then [.indent] else [])
      ++ (if margin.spacing = .spaced then [.newline] else [])
      ++ pieces.filterMap Lexeme.kind?
      ++ (if terminated then [.newline] else [])

/-- The tokens that a line contributes, all of which stand on it. -/
def tokens (margin : Margin) (index : Nat) (terminated : Bool) (line : Line) : List Token :=
  (margin.kinds terminated line).map fun kind => { kind, line := index }

/-- The tokens that close the blocks still open at the end of the input. -/
def closing (margin : Margin) (index : Nat) : List Token :=
  margin.levels.map fun _ => { kind := .dedent, line := index }

end Margin

/-- The tokens of the lines from a given one to the last, with the blocks closed at its end. -/
def scanLines (margin : Margin) (index : Nat) : List Line → List Token
  | [] => []
  | [line] => margin.tokens index false line ++ (margin.after line).closing index
  | line :: next :: more =>
    margin.tokens index true line ++ scanLines (margin.after line) (index + 1) (next :: more)

/-- The lines of a source text. -/
def sourceLines (source : String) : List Line :=
  (splitLines (glyphs source)).map Line.ofGlyphs

/-- A source text has at least one line. -/
theorem sourceLines_ne_nil (source : String) : sourceLines source ≠ [] := by
  simpa [sourceLines] using splitLines_ne_nil (glyphs source)

/-- The tokens of a source text, up to the end of the input. -/
def scan (source : String) : List Token :=
  scanLines Margin.initial 0 (sourceLines source)

example : scan "do 2:\n  move\n\nturn" =
    [⟨.keyword .«do», 0⟩, ⟨.number "2", 0⟩, ⟨.colon, 0⟩, ⟨.newline, 0⟩, ⟨.indent, 1⟩,
      ⟨.identifier "move", 1⟩, ⟨.newline, 1⟩, ⟨.dedent, 3⟩, ⟨.newline, 3⟩,
      ⟨.identifier "turn", 3⟩] := by decide

/-- The 0-based line on which a source text ends. -/
def endLine (source : String) : Nat :=
  (sourceLines source).length - 1

end Karel
