import Karel.Descriptor
import Karel.Proofs.Capabilities.Names
import Karel.Proofs.Json.Strings

/-!
# Written descriptors

A descriptor that was written is read as the lists of names that it was made of, in each of the
forms that it may have. So the text of a descriptor is accepted or refused as its lists are, with
the same capabilities or the same error, and capabilities are read back from their own text.

## Main definitions

- `Json.Describes` — the forms of a descriptor of two lists

## Main results

- `DescriptorNames.read_of_describes` — the names of a written descriptor
- `Capabilities.ofJsonText_of_describes` — a written descriptor and the lists in it
-/

namespace Karel

/-- The JSON values that describe a robot with the given commands and conditions: an object with the
    two lists in either order, in which an empty list may be left out, and an array of the two. -/
inductive Json.Describes : List String → List String → Json → Prop where
  | object (commands conditions : List String) : Describes commands conditions
    (.object [("commands", .ofNames commands), ("conditions", .ofNames conditions)])
  | swapped (commands conditions : List String) : Describes commands conditions
    (.object [("conditions", .ofNames conditions), ("commands", .ofNames commands)])
  | noConditions (commands : List String) : Describes commands []
    (.object [("commands", .ofNames commands)])
  | noCommands (conditions : List String) : Describes [] conditions
    (.object [("conditions", .ofNames conditions)])
  | neither : Describes [] [] (.object [])
  | array (commands conditions : List String) : Describes commands conditions
    (.array [.ofNames commands, .ofNames conditions])

variable {commands conditions : List String} {json : Json}

namespace DescriptorNames

variable {names found : DescriptorNames} {key next : String} {text rest : List Char} {bound : Nat}

-- ════════════════════════════════════════════════════════════════════════
-- Fields
-- ════════════════════════════════════════════════════════════════════════

/-- The list of commands is taken in, unless there is one. -/
theorem readField_commands (names : DescriptorNames) (h : names.commands? = none)
    (list : List String) (rest : List Char) :
    names.readField "commands" (':' :: ((Json.ofNames list).compactChars ++ rest)) =
      .ok ({ names with commands? := some list }, rest) := by
  have hcolon (value : List Char) : readColon (':' :: value) = .ok value := rfl
  rw [readField, if_pos rfl, h, hcolon]
  simp only [Except.bind, Json.readStrings_ofNames_append]
  rfl

/-- The list of conditions is taken in, unless there is one. -/
theorem readField_conditions (names : DescriptorNames) (h : names.conditions? = none)
    (list : List String) (rest : List Char) :
    names.readField "conditions" (':' :: ((Json.ofNames list).compactChars ++ rest)) =
      .ok ({ names with conditions? := some list }, rest) := by
  have hcolon (value : List Char) : readColon (':' :: value) = .ok value := rfl
  rw [readField, if_neg (by decide), if_pos rfl, h, hcolon]
  simp only [Except.bind, Json.readStrings_ofNames_append]
  rfl

theorem readKey_quote_append (key : String) (rest : List Char) :
    readKey (Json.quote key ++ rest) = .ok (key, rest) := by
  rw [← Json.readString_quote_append, Json.quote_append]
  rfl

/-- A field before a brace is the last one. -/
theorem readFields_last (h : names.readField key text = .ok (found, '\x7d' :: rest)) :
    readFields (bound + 1) names (Json.quote key ++ text) = .ok (found, rest) := by
  have hbrace : Json.skipSpace ('\x7d' :: rest) = '\x7d' :: rest := Json.skipSpace_cons rfl
  rw [readFields, readKey_quote_append]
  simp only [Except.bind, h, hbrace]

/-- Behind a field and a comma the next one is read. -/
theorem readFields_next (h : names.readField key text =
    .ok (found, ',' :: (Json.quote next ++ rest))) :
    readFields (bound + 1) names (Json.quote key ++ text) =
      readFields bound found (Json.quote next ++ rest) := by
  have hcomma (more : List Char) : Json.skipSpace (',' :: more) = ',' :: more :=
    Json.skipSpace_cons rfl
  have hnext : nextField (Json.quote next ++ rest) = .ok (Json.quote next ++ rest) := by
    rw [Json.quote_append]
    rfl
  rw [readFields, readKey_quote_append]
  simp only [Except.bind, h, hcomma, hnext]

/-- Where a key opens an object, its fields are read, and the bound allows for two of them. -/
theorem exists_read_eq (key : String) (text : List Char) :
    ∃ bound, read ('\x7b' :: (Json.quote key ++ text)) =
      readFields (bound + 2) empty (Json.quote key ++ text) := by
  rw [Json.quote_append]
  exact ⟨_, rfl⟩

theorem read_one_field (h : empty.readField key text = .ok (found, '\x7d' :: rest)) :
    read ('\x7b' :: (Json.quote key ++ text)) = .ok (found, rest) := by
  obtain ⟨bound, hread⟩ := exists_read_eq key text
  rw [hread, readFields_last h]

theorem read_two_fields {more : List Char}
    (hfirst : empty.readField key text = .ok (found, ',' :: (Json.quote next ++ more)))
    (hsecond : found.readField next more = .ok (names, '\x7d' :: rest)) :
    read ('\x7b' :: (Json.quote key ++ text)) = .ok (names, rest) := by
  obtain ⟨bound, hread⟩ := exists_read_eq key text
  rw [hread, readFields_next hfirst, readFields_last hsecond]

-- ════════════════════════════════════════════════════════════════════════
-- Descriptors
-- ════════════════════════════════════════════════════════════════════════

/-- Behind a list and a comma in an array the other list is read. -/
theorem readArray_two {more : List Char}
    (hfirst : Json.readStrings ('[' :: text) = .ok (commands, ',' :: '[' :: more))
    (hsecond : Json.readStrings ('[' :: more) = .ok (conditions, ']' :: rest)) :
    readArray ('[' :: text) = .ok (⟨some commands, some conditions⟩, rest) := by
  have hopen (more : List Char) : Json.skipSpace ('[' :: more) = '[' :: more :=
    Json.skipSpace_cons rfl
  have hcomma (more : List Char) : Json.skipSpace (',' :: more) = ',' :: more :=
    Json.skipSpace_cons rfl
  have hnext : Json.nextItem ('[' :: more) = .ok ('[' :: more) := rfl
  have hclose (names : DescriptorNames) : names.closeArray (']' :: rest) = .ok (names, rest) := rfl
  simp [readArray, hopen, hfirst, hcomma, hnext, hsecond, hclose, Except.bind]

/-- An array of two lists is read as the commands and the conditions. -/
theorem read_array (commands conditions : List String) (rest : List Char) :
    read ((Json.array [.ofNames commands, .ofNames conditions]).compactChars ++ rest) =
      .ok (⟨some commands, some conditions⟩, rest) := by
  have hopen (list : List String) (more : List Char) :
      ∃ tail, (Json.ofNames list).compactChars ++ more = '[' :: tail := ⟨_, rfl⟩
  obtain ⟨second, hsecond⟩ := hopen conditions (']' :: rest)
  obtain ⟨first, hfirst⟩ := hopen commands (',' :: '[' :: second)
  have hchars : (Json.array [.ofNames commands, .ofNames conditions]).compactChars ++ rest =
      '[' :: '[' :: first := by
    rw [← hfirst, ← hsecond]
    simp [Json.compactChars, Json.compactItems]
  have hread : read ('[' :: '[' :: first) = readArray ('[' :: first) := rfl
  have hcommands : Json.readStrings ('[' :: first) = .ok (commands, ',' :: '[' :: second) := by
    rw [← hfirst, Json.readStrings_ofNames_append]
  have hconditions : Json.readStrings ('[' :: second) = .ok (conditions, ']' :: rest) := by
    rw [← hsecond, Json.readStrings_ofNames_append]
  rw [hchars, hread, readArray_two hcommands hconditions]

/-- The names of a written descriptor are those of its lists. -/
theorem read_of_describes (h : Json.Describes commands conditions json) (rest : List Char) :
    ∃ names, read (json.compactChars ++ rest) = .ok (names, rest) ∧
      names.commands?.getD [] = commands ∧ names.conditions?.getD [] = conditions := by
  cases h with
  | object =>
    refine ⟨⟨some commands, some conditions⟩, ?_, rfl, rfl⟩
    have hread := read_two_fields (readField_commands empty rfl commands _)
      (readField_conditions _ rfl conditions ('\x7d' :: rest))
    simpa [Json.compactChars, Json.compactFields] using hread
  | swapped =>
    refine ⟨⟨some commands, some conditions⟩, ?_, rfl, rfl⟩
    have hread := read_two_fields (readField_conditions empty rfl conditions _)
      (readField_commands _ rfl commands ('\x7d' :: rest))
    simpa [Json.compactChars, Json.compactFields] using hread
  | noConditions =>
    refine ⟨{ empty with commands? := some commands }, ?_, rfl, rfl⟩
    have hread := read_one_field
      (readField_commands empty rfl commands ('\x7d' :: rest))
    simpa [Json.compactChars, Json.compactFields] using hread
  | noCommands =>
    refine ⟨{ empty with conditions? := some conditions }, ?_, rfl, rfl⟩
    have hread := read_one_field
      (readField_conditions empty rfl conditions ('\x7d' :: rest))
    simpa [Json.compactChars, Json.compactFields] using hread
  | neither => exact ⟨empty, rfl, rfl, rfl⟩
  | array => exact ⟨_, read_array commands conditions rest, rfl, rfl⟩

end DescriptorNames

/-- The text of a descriptor makes the capabilities that its lists make, or is refused for the same
    name. -/
theorem Capabilities.ofJsonText_of_describes (h : json.Describes commands conditions) :
    Capabilities.ofJsonText json.compact =
      (Capabilities.ofNames commands conditions).mapError (.refused · true) := by
  obtain ⟨names, hread, rfl, rfl⟩ := DescriptorNames.read_of_describes h []
  rw [List.append_nil] at hread
  have hspace : Json.skipSpace [] = [] := rfl
  rw [Capabilities.ofJsonText, Json.compact, String.toList_ofList, hread]
  simp only [hspace]
  split
  · next error hrefused =>
    rw [hrefused]
    rfl
  · next capabilities hmade =>
    rw [hmade]
    rfl

/-- A written descriptor is accepted or refused as its lists of names are, in each of its forms, with
    the same capabilities or the same error. In particular capabilities are read back from their own
    text. -/
theorem written_descriptor_is_its_lists :
    (∀ commands conditions json, Json.Describes commands conditions json →
      Capabilities.ofJsonText json.compact =
        (Capabilities.ofNames commands conditions).mapError (.refused · true)) ∧
    ∀ capabilities : Capabilities,
      Capabilities.ofJsonText capabilities.toJson.compact = .ok capabilities := by
  refine ⟨fun commands conditions json h => Capabilities.ofJsonText_of_describes h, ?_⟩
  intro capabilities
  have hdescribes : capabilities.toJson.Describes capabilities.commands capabilities.conditions :=
    .object _ _
  rw [Capabilities.ofJsonText_of_describes hdescribes, Capabilities.ofNames_names]
  rfl

/-- A condition with a line end in it is escaped in a descriptor, and refused as it would be by
    itself. -/
theorem written_descriptor_with_line_end :
    Json.Describes ["jump"] ["on\nground"]
      (.object [("conditions", .ofNames ["on\nground"]), ("commands", .ofNames ["jump"])]) ∧
    Json.compact
      (.object [("conditions", .ofNames ["on\nground"]), ("commands", .ofNames ["jump"])]) =
        "\x7b\"conditions\":[\"on\\nground\"],\"commands\":[\"jump\"]\x7d" ∧
    Capabilities.ofJsonText
        "\x7b\"conditions\":[\"on\\nground\"],\"commands\":[\"jump\"]\x7d" =
      .error (.refused (.invalidName "on\nground") true) := by
  obtain ⟨hdescribed, -⟩ := written_descriptor_is_its_lists
  have hform : Json.Describes ["jump"] ["on\nground"]
      (.object [("conditions", .ofNames ["on\nground"]), ("commands", .ofNames ["jump"])]) :=
    .swapped _ _
  have htext : Json.compact
      (.object [("conditions", .ofNames ["on\nground"]), ("commands", .ofNames ["jump"])]) =
        "\x7b\"conditions\":[\"on\\nground\"],\"commands\":[\"jump\"]\x7d" := by decide
  have hread := hdescribed _ _ _ hform
  rw [htext] at hread
  exact ⟨hform, htext, hread⟩

end Karel
