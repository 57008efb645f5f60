import Karel.Capabilities
import Karel.Proofs.Layout.Words
import Karel.TokenStream

/-!
# Names of capabilities

A robot may offer a command or a condition under any name that a program can write, and under no
other. The one check looks at a text by itself and the other is the scanner, which sees a source
text with lines, indentation and comments, but they accept the same texts.

## Main definitions

- `ScansAsName` — a text that is one identifier as a source text, and nothing else

## Main results

- `Capabilities.exists_ofNames_eq_ok_iff` — the lists of names that make capabilities
- `Capabilities.ofNames_names` — capabilities are made of their own names
- `scansAsName_iff_isName` — the names are the texts that are scanned as one identifier
- `capabilities_name_what_programs_write` — the checks of a descriptor and of the scanner agree
-/

namespace Karel

-- ════════════════════════════════════════════════════════════════════════
-- Lists of names
-- ════════════════════════════════════════════════════════════════════════

/-- A strictly ascending list is its own set of names. -/
theorem nameSet_eq_self {names : List String} (h : names.Pairwise (· < ·)) :
    nameSet names = names := by
  induction names with
  | nil => rfl
  | cons head tail ih =>
    obtain ⟨hhead, htail⟩ := List.pairwise_cons.mp h
    have hset : nameSet (head :: tail) = insertName head (nameSet tail) := rfl
    rw [hset, ih htail]
    cases tail with
    | nil => rfl
    | cons next more => rw [insertName, if_pos (hhead next List.mem_cons_self)]

namespace Capabilities

variable {commands conditions : List String} {capabilities : Capabilities}

theorem invalidName?_eq_none_iff {names : List String} :
    invalidName? names = none ↔ ∀ name ∈ names, isName name = true := by
  simp [invalidName?]

theorem sharedName?_eq_none_iff :
    sharedName? commands conditions = none ↔ ∀ name ∈ commands, name ∉ conditions := by
  simp [sharedName?]

/-- Lists of names make capabilities if they hold names only, and none in common. -/
theorem exists_ofNames_eq_ok_iff :
    (∃ capabilities, ofNames commands conditions = .ok capabilities) ↔
      (∀ name ∈ commands, isName name = true) ∧ (∀ name ∈ conditions, isName name = true) ∧
        ∀ name ∈ commands, name ∉ conditions := by
  rw [← invalidName?_eq_none_iff, ← invalidName?_eq_none_iff, ← sharedName?_eq_none_iff]
  unfold ofNames
  split
  · next hcommands => simp [hcommands]
  · next hcommands =>
    split
    · next hconditions => simp [hconditions]
    · next hconditions =>
      split
      · next hshared => simp [hshared]
      · next hshared => simp [hcommands, hconditions, hshared]

/-- What is made of lists of names has their sets of names. -/
theorem names_of_ofNames_eq_ok (h : ofNames commands conditions = .ok capabilities) :
    capabilities.commands = nameSet commands ∧ capabilities.conditions = nameSet conditions := by
  unfold ofNames at h
  split at h
  · cases h
  · split at h
    · cases h
    · split at h
      · cases h
      · obtain rfl := Except.ok.inj h
        exact ⟨rfl, rfl⟩

/-- Capabilities are made of their own names. -/
theorem ofNames_names (capabilities : Capabilities) :
    ofNames capabilities.commands capabilities.conditions = .ok capabilities := by
  obtain ⟨made, hmade⟩ := exists_ofNames_eq_ok_iff.mpr ⟨capabilities.isName_of_mem_commands,
    capabilities.isName_of_mem_conditions, capabilities.not_mem_conditions⟩
  obtain ⟨hcommands, hconditions⟩ := names_of_ofNames_eq_ok hmade
  rw [nameSet_eq_self capabilities.commands_ascending] at hcommands
  rw [nameSet_eq_self capabilities.conditions_ascending] at hconditions
  rw [hmade, eq_of_names hcommands hconditions]

/-- A single command is acceptable if it is a name, and so is a single condition. -/
theorem exists_ofNames_singleton_iff (name : String) :
    ((∃ capabilities, ofNames [name] [] = .ok capabilities) ↔ isName name = true) ∧
      ((∃ capabilities, ofNames [] [name] = .ok capabilities) ↔ isName name = true) := by
  simp [exists_ofNames_eq_ok_iff]

end Capabilities

-- ════════════════════════════════════════════════════════════════════════
-- One identifier as a source text
-- ════════════════════════════════════════════════════════════════════════

theorem splitLines_eq_singleton {gs : List Glyph} (h : .newline ∉ gs) : splitLines gs = [gs] := by
  induction gs with
  | nil => rfl
  | cons glyph gs ih =>
    rw [List.mem_cons, not_or] at h
    rw [splitLines_cons, if_neg (Ne.symm h.1), ih h.2]
    rfl

/-- A header by itself is a source text of one line. -/
theorem IsHeader.sourceLines_eq {text : String} {kinds : List TokenKind} (h : IsHeader text kinds) :
    sourceLines text = [entryLine (0, text)] := by
  have hglyphs : glyphs text = entryGlyphs (0, text) := map_ofByte_utf8EncodeChar h.ascii
  have honeLine : .newline ∉ entryGlyphs (0, text) := h.oneLine
  rw [sourceLines, hglyphs, splitLines_eq_singleton honeLine]
  rfl

/-- A header by itself is scanned as its tokens, all of them on the first line. -/
theorem IsHeader.toList_ofSource {text : String} {kinds : List TokenKind}
    (h : IsHeader text kinds) :
    (TokenStream.ofSource text).toList =
      (kinds.map fun kind => { kind, line := 0 }) ++ [Token.endOfInput 0] := by
  obtain ⟨pieces, hline, htext⟩ := h.entryLine_eq 0
  have hscan : scan text = textTokens 0 pieces := by
    rw [scan, h.sourceLines_eq, hline, scanLines, Margin.tokens_code]
    simp [Margin.initial, Margin.closed, Margin.opens, Margin.kept, Margin.after,
      Margin.levelsAfter, Margin.closing]
  have hend : endLine text = 0 := by
    rw [endLine, h.sourceLines_eq]
    rfl
  rw [TokenStream.toList, TokenStream.ofSource, hscan, hend, htext]

/-- A text that is one identifier as a source text, and nothing else. -/
def ScansAsName (text : String) : Prop :=
  (TokenStream.ofSource text).toList.map Token.kind = [.identifier text, .eof]

/-- The names are the texts that are scanned as one identifier. -/
theorem scansAsName_iff_isName {text : String} : ScansAsName text ↔ isName text = true := by
  constructor
  · intro h
    have hmem : .identifier text ∈ (TokenStream.ofSource text).toList.map Token.kind := by
      rw [h]
      exact List.mem_cons_self
    obtain ⟨⟨kind, line⟩, htoken, rfl⟩ := List.mem_map.mp hmem
    rcases List.mem_append.mp htoken with hscan | hend
    · exact isName_of_mem_scan hscan
    · cases List.mem_singleton.mp hend
  · intro h
    rw [ScansAsName, (isHeader_name h).toList_ofSource]
    rfl

/-- A text is accepted as the name of a command just if it is scanned as one identifier and nothing
    else, and as the name of a condition likewise. So a program can write each name of a robot, and a
    robot can have each identifier of a program as a name. -/
theorem capabilities_name_what_programs_write :
    (∀ name : String,
      ((∃ capabilities, Capabilities.ofNames [name] [] = .ok capabilities) ↔ ScansAsName name) ∧
      ((∃ capabilities, Capabilities.ofNames [] [name] = .ok capabilities) ↔
        ScansAsName name)) ∧
    (∀ (capabilities : Capabilities) (name : String),
      name ∈ capabilities.commands ∨ name ∈ capabilities.conditions → ScansAsName name) ∧
    ∀ (source name : String) (line : Nat), ⟨.identifier name, line⟩ ∈ scan source →
      (∃ capabilities, Capabilities.ofNames [name] [] = .ok capabilities) ∧
        ∃ capabilities, Capabilities.ofNames [] [name] = .ok capabilities := by
  simp only [scansAsName_iff_isName]
  refine ⟨Capabilities.exists_ofNames_singleton_iff, ?_, ?_⟩
  · rintro capabilities name (hmem | hmem)
    · exact capabilities.isName_of_mem_commands name hmem
    · exact capabilities.isName_of_mem_conditions name hmem
  · intro source name line hmem
    have hname := isName_of_mem_scan hmem
    obtain ⟨hcommand, hcondition⟩ := Capabilities.exists_ofNames_singleton_iff name
    exact ⟨hcommand.mpr hname, hcondition.mpr hname⟩

/-- A condition of the standard robot is scanned as one identifier, and a word of a program that
    begins like a reserved one may be the name of a command. A reserved word may not. -/
theorem capabilities_name_next_to_a_beeper :
    ScansAsName "next_to_a_beeper" ∧
      (∃ capabilities, Capabilities.ofNames ["do2"] [] = .ok capabilities) ∧
      ¬ ∃ capabilities, Capabilities.ofNames ["do"] [] = .ok capabilities := by
  obtain ⟨hiff, hnames, hwritten⟩ := capabilities_name_what_programs_write
  refine ⟨hnames Capabilities.standard "next_to_a_beeper" (.inr ?_),
    (hwritten "do2:" "do2" 0 ?_).1, fun h => ?_⟩
  · rw [Capabilities.standard, mem_nameSet]
    decide
  · decide
  · have hscans := (hiff "do").1.mp h
    revert hscans
    rw [ScansAsName]
    decide

end Karel
