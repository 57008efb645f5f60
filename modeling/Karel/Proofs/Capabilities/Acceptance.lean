import Mathlib.Data.List.Sort
import Mathlib.Data.String.Basic
import Karel.Proofs.Capabilities.Names

/-!
# Accepted and refused names

Which lists of names make capabilities, what those capabilities offer, and which report there is on
lists that make none. The names stand for sets: order and repetition only tell which of two texts
that are no names is found first.

## Main definitions

- `utf8Bytes` — the bytes of a text
- `Capabilities.Enumerates` — the names of a list, each once, by their bytes
- `Capabilities.IsFirstOther` — the first text of a list that is no identifier
- `Capabilities.Refused` — the report on lists that make no capabilities

## Main results

- `lt_iff_utf8Bytes_lt` — the order of characters is that of bytes
- `Capabilities.ofNames_eq_error_iff` — which report there is
- `Capabilities.ofNames_accepts_disjoint_identifiers` — which lists are accepted, and what they make
-/

namespace Karel

-- ════════════════════════════════════════════════════════════════════════
-- The order of bytes
-- ════════════════════════════════════════════════════════════════════════

/-- The bytes of a text in UTF-8. -/
def utf8Bytes (text : String) : List UInt8 :=
  text.toList.flatMap String.utf8EncodeChar

/-- A smaller character has smaller bytes, whatever follows both. -/
theorem utf8EncodeChar_append_lt {first second : Char} (h : first < second)
    (more other : List UInt8) :
    String.utf8EncodeChar first ++ more < String.utf8EncodeChar second ++ other := by
  have hlt : first.val.toNat < second.val.toNat := h
  have hbound : second.val.toNat < 1114112 := by
    rcases second.valid with hvalid | hvalid <;> omega
  simp only [String.utf8EncodeChar]
  generalize first.val.toNat = low at hlt
  generalize second.val.toNat = high at hlt hbound
  -- a longer form begins with a larger byte, and forms of one length are read digit by digit
  split_ifs
  all_goals
    simp (disch := omega) only [List.cons_append, List.nil_append, List.cons_lt_cons_iff,
      UInt8.lt_iff_toNat_lt, ← UInt8.toNat_inj, UInt8.toNat_ofNat', Nat.mod_eq_of_lt]
    omega

theorem flatMap_utf8EncodeChar_lt {first second : List Char} (h : first < second) :
    first.flatMap String.utf8EncodeChar < second.flatMap String.utf8EncodeChar := by
  induction first generalizing second with
  | nil =>
    cases second with
    | nil => exact absurd h (List.not_lt_nil [])
    | cons char second =>
      obtain ⟨byte, bytes, hchar⟩ :=
        List.exists_cons_of_ne_nil (String.utf8EncodeChar_ne_nil (c := char))
      rw [List.flatMap_cons, hchar]
      exact List.nil_lt_cons byte _
  | cons char first ih =>
    cases second with
    | nil => exact absurd h (List.not_lt_nil _)
    | cons other second =>
      rw [List.flatMap_cons, List.flatMap_cons]
      rcases List.cons_lt_cons_iff.mp h with hlt | ⟨rfl, hrest⟩
      · exact utf8EncodeChar_append_lt hlt _ _
      · exact List.append_left_lt (ih hrest)

/-- Texts are ordered by their characters, which is the order of their bytes. -/
theorem lt_iff_utf8Bytes_lt {first second : String} :
    first < second ↔ utf8Bytes first < utf8Bytes second := by
  have hlt {first second : String} (h : first < second) : utf8Bytes first < utf8Bytes second :=
    flatMap_utf8EncodeChar_lt (String.lt_iff_toList_lt.mp h)
  constructor
  · exact hlt
  · intro h
    rcases lt_trichotomy first second with hfirst | rfl | hsecond
    · exact hfirst
    · exact absurd h (List.lt_irrefl _)
    · exact absurd (List.lt_trans h (hlt hsecond)) (List.lt_irrefl _)

namespace Capabilities

variable {commands conditions names others : List String} {name : String}
  {capabilities : Capabilities} {error : CapabilityError}

-- ════════════════════════════════════════════════════════════════════════
-- What names are found
-- ════════════════════════════════════════════════════════════════════════

/-- The first text of a list that is no identifier. -/
def IsFirstOther (names : List String) (name : String) : Prop :=
  ∃ front behind, names = front ++ name :: behind ∧ (∀ other ∈ front, IsIdentifier other) ∧
    ¬ IsIdentifier name

theorem invalidName?_eq_some_iff : invalidName? names = some name ↔ IsFirstOther names name := by
  simp only [invalidName?, List.find?_eq_some_iff_append, Bool.not_not, Bool.not_eq_true',
    IsFirstOther, ← isName_iff_isIdentifier, Bool.not_eq_true]
  constructor
  · rintro ⟨hname, front, behind, rfl, hfront⟩
    exact ⟨front, behind, rfl, hfront, hname⟩
  · rintro ⟨front, behind, rfl, hfront, hname⟩
    exact ⟨hname, front, behind, rfl, hfront⟩

theorem isIdentifier_of_invalidName? (h : invalidName? names = none) :
    ∀ name ∈ names, IsIdentifier name := by
  intro name hmem
  exact isName_iff_isIdentifier.mp (invalidName?_eq_none_iff.mp h name hmem)

/-- The shared name that is found is the smallest one. -/
theorem sharedName?_eq_some_iff :
    sharedName? commands conditions = some name ↔
      name ∈ commands ∧ name ∈ conditions ∧
        ∀ other ∈ commands, other ∈ conditions → ¬ other < name := by
  rw [sharedName?, List.find?_eq_some_iff_append, List.contains_iff_mem]
  have hascending := pairwise_nameSet commands
  constructor
  · rintro ⟨hcondition, front, behind, hset, hfront⟩
    have hcommand : name ∈ nameSet commands := by
      rw [hset]
      exact List.mem_append_right front List.mem_cons_self
    refine ⟨mem_nameSet.mp hcommand, hcondition, ?_⟩
    intro other hother hshared hlt
    rw [← mem_nameSet, hset] at hother
    rw [hset] at hascending
    rcases List.mem_append.mp hother with hbefore | hbehind
    · simpa [hshared] using hfront other hbefore
    · rcases List.mem_cons.mp hbehind with rfl | hbehind
      · exact lt_irrefl _ hlt
      · have hcons := (List.pairwise_append.mp hascending).2.1
        exact lt_asymm hlt ((List.pairwise_cons.mp hcons).1 other hbehind)
  · rintro ⟨hcommand, hcondition, hleast⟩
    obtain ⟨front, behind, hset⟩ := List.append_of_mem (mem_nameSet.mpr hcommand)
    refine ⟨hcondition, front, behind, hset, ?_⟩
    intro other hbefore
    have hother : other ∈ nameSet commands := by
      rw [hset]
      exact List.mem_append_left _ hbefore
    rw [hset] at hascending
    have hlt : other < name :=
      (List.pairwise_append.mp hascending).2.2 other hbefore name List.mem_cons_self
    by_cases hshared : other ∈ conditions
    · exact absurd hlt (hleast other (mem_nameSet.mp hother) hshared)
    · simpa using hshared

-- ════════════════════════════════════════════════════════════════════════
-- Refusal
-- ════════════════════════════════════════════════════════════════════════

/-- The report on lists of names that make no capabilities: on the first command that is no
    identifier, or else on the first such condition, or else on the name that both lists share and
    that has the smallest bytes. -/
inductive Refused (commands conditions : List String) : CapabilityError → Prop where
  | command {name : String} (first : IsFirstOther commands name) :
    Refused commands conditions (.invalidName name)
  | condition {name : String} (identifiers : ∀ command ∈ commands, IsIdentifier command)
      (first : IsFirstOther conditions name) :
    Refused commands conditions (.invalidName name)
  | shared {name : String} (identifiers : ∀ command ∈ commands, IsIdentifier command)
      (tests : ∀ condition ∈ conditions, IsIdentifier condition)
      (isCommand : name ∈ commands) (isCondition : name ∈ conditions)
      (least : ∀ other ∈ commands, other ∈ conditions → ¬ utf8Bytes other < utf8Bytes name) :
    Refused commands conditions (.conflict name)

theorem ofNames_of_invalid_command (h : invalidName? commands = some name) :
    ofNames commands conditions = .error (.invalidName name) := by
  unfold ofNames
  split
  · next found hfound => rw [Option.some.inj (hfound.symm.trans h)]
  · next hnone => exact absurd (hnone.symm.trans h) (by simp)

theorem ofNames_of_invalid_condition (hcommands : invalidName? commands = none)
    (h : invalidName? conditions = some name) :
    ofNames commands conditions = .error (.invalidName name) := by
  unfold ofNames
  split
  · next hfound => exact absurd (hcommands.symm.trans hfound) (by simp)
  · split
    · next found hfound => rw [Option.some.inj (hfound.symm.trans h)]
    · next hnone => exact absurd (hnone.symm.trans h) (by simp)

theorem ofNames_of_shared (hcommands : invalidName? commands = none)
    (hconditions : invalidName? conditions = none)
    (h : sharedName? commands conditions = some name) :
    ofNames commands conditions = .error (.conflict name) := by
  unfold ofNames
  split
  · next hfound => exact absurd (hcommands.symm.trans hfound) (by simp)
  · split
    · next hfound => exact absurd (hconditions.symm.trans hfound) (by simp)
    · split
      · next found hfound => rw [Option.some.inj (hfound.symm.trans h)]
      · next hnone => exact absurd (hnone.symm.trans h) (by simp)

/-- Lists of names are refused with the report that there is on them, and with no other. -/
theorem ofNames_eq_error_iff :
    ofNames commands conditions = .error error ↔ Refused commands conditions error := by
  have hinvalid {names : List String} (h : ∀ name ∈ names, IsIdentifier name) :
      invalidName? names = none :=
    invalidName?_eq_none_iff.mpr fun name hmem => isName_iff_isIdentifier.mpr (h name hmem)
  constructor
  · intro h
    unfold ofNames at h
    split at h
    · next name hcommands =>
      obtain rfl := Except.error.inj h
      exact .command (invalidName?_eq_some_iff.mp hcommands)
    · next hcommands =>
      have hidentifiers := isIdentifier_of_invalidName? hcommands
      split at h
      · next name hconditions =>
        obtain rfl := Except.error.inj h
        exact .condition hidentifiers (invalidName?_eq_some_iff.mp hconditions)
      · next hconditions =>
        split at h
        · next name hshared =>
          obtain rfl := Except.error.inj h
          obtain ⟨hcommand, hcondition, hleast⟩ := sharedName?_eq_some_iff.mp hshared
          refine .shared hidentifiers (isIdentifier_of_invalidName? hconditions) hcommand
            hcondition ?_
          intro other hother hboth hlt
          exact hleast other hother hboth (lt_iff_utf8Bytes_lt.mpr hlt)
        · cases h
  · intro h
    cases h with
    | command first => exact ofNames_of_invalid_command (invalidName?_eq_some_iff.mpr first)
    | condition identifiers first =>
      exact ofNames_of_invalid_condition (hinvalid identifiers) (invalidName?_eq_some_iff.mpr first)
    | shared identifiers tests isCommand isCondition least =>
      refine ofNames_of_shared (hinvalid identifiers) (hinvalid tests) ?_
      refine sharedName?_eq_some_iff.mpr ⟨isCommand, isCondition, ?_⟩
      intro other hother hboth hlt
      exact least other hother hboth (lt_iff_utf8Bytes_lt.mp hlt)

-- ════════════════════════════════════════════════════════════════════════
-- Acceptance
-- ════════════════════════════════════════════════════════════════════════

/-- The names of a list, each of them once, in the order of their bytes. -/
def Enumerates (names others : List String) : Prop :=
  (names.map utf8Bytes).Pairwise (· < ·) ∧ ∀ name, name ∈ names ↔ name ∈ others

/-- A set of names enumerates them. -/
theorem enumerates_nameSet (names : List String) : Enumerates (nameSet names) names := by
  refine ⟨List.pairwise_map.mpr ?_, fun name => mem_nameSet⟩
  apply (pairwise_nameSet names).imp
  intro first second hlt
  exact lt_iff_utf8Bytes_lt.mp hlt

/-- Lists with the same names, in whatever order and however often, are the same set of names. -/
theorem nameSet_eq_of_mem_iff (h : ∀ name, name ∈ names ↔ name ∈ others) :
    nameSet names = nameSet others := by
  apply (pairwise_nameSet names).eq_of_mem_iff (pairwise_nameSet others)
  intro name
  rw [mem_nameSet, mem_nameSet]
  exact h name

theorem exists_ofNames_iff_isIdentifier :
    (∃ capabilities, ofNames commands conditions = .ok capabilities) ↔
      (∀ name ∈ commands, IsIdentifier name) ∧ (∀ name ∈ conditions, IsIdentifier name) ∧
        ∀ name ∈ commands, name ∉ conditions := by
  simp only [exists_ofNames_eq_ok_iff, isName_iff_isIdentifier]

/-- Capabilities do not depend on the order of the names that they are made of, nor on how often
    each is listed. -/
theorem ofNames_of_same_names {commands' conditions' : List String}
    (hcommands : ∀ name, name ∈ commands' ↔ name ∈ commands)
    (hconditions : ∀ name, name ∈ conditions' ↔ name ∈ conditions)
    (h : ofNames commands conditions = .ok capabilities) :
    ofNames commands' conditions' = .ok capabilities := by
  obtain ⟨made, hmade⟩ : ∃ made, ofNames commands' conditions' = .ok made := by
    rw [exists_ofNames_iff_isIdentifier]
    simp only [hcommands, hconditions]
    exact exists_ofNames_iff_isIdentifier.mp ⟨capabilities, h⟩
  obtain ⟨hmadeCommands, hmadeConditions⟩ := names_of_ofNames_eq_ok hmade
  obtain ⟨hcapCommands, hcapConditions⟩ := names_of_ofNames_eq_ok h
  rw [hmade]
  apply congrArg Except.ok
  apply eq_of_names
  · rw [hmadeCommands, hcapCommands, nameSet_eq_of_mem_iff hcommands]
  · rw [hmadeConditions, hcapConditions, nameSet_eq_of_mem_iff hconditions]

/-- Lists of names make capabilities if they hold identifiers only, and none in common. The
    capabilities then have just the names of the lists, each once and by its bytes, and they depend
    on nothing else. Otherwise the first command is reported that is no identifier, or else the first
    such condition, or else the shared name with the smallest bytes, whatever the order. -/
theorem ofNames_accepts_disjoint_identifiers (commands conditions : List String) :
    ((∃ capabilities, ofNames commands conditions = .ok capabilities) ↔
      (∀ name ∈ commands, IsIdentifier name) ∧ (∀ name ∈ conditions, IsIdentifier name) ∧
        ∀ name ∈ commands, name ∉ conditions) ∧
    (∀ capabilities, ofNames commands conditions = .ok capabilities →
      (∀ name, (capabilities.isCommand name = true ↔ name ∈ commands) ∧
        (capabilities.isCondition name = true ↔ name ∈ conditions)) ∧
      Enumerates capabilities.commands commands ∧
      Enumerates capabilities.conditions conditions) ∧
    (∀ error, ofNames commands conditions = .error error ↔ Refused commands conditions error) ∧
    ∀ commands' conditions', (∀ name, name ∈ commands' ↔ name ∈ commands) →
      (∀ name, name ∈ conditions' ↔ name ∈ conditions) →
      (∀ capabilities, ofNames commands conditions = .ok capabilities →
        ofNames commands' conditions' = .ok capabilities) ∧
      ∀ name, ofNames commands conditions = .error (.conflict name) →
        ofNames commands' conditions' = .error (.conflict name) := by
  refine ⟨exists_ofNames_iff_isIdentifier, ?_, fun error => ofNames_eq_error_iff, ?_⟩
  · intro capabilities h
    obtain ⟨hcommands, hconditions⟩ := names_of_ofNames_eq_ok h
    refine ⟨fun name => ⟨?_, ?_⟩, ?_, ?_⟩
    · rw [isCommand, List.contains_iff_mem, hcommands, mem_nameSet]
    · rw [isCondition, List.contains_iff_mem, hconditions, mem_nameSet]
    · rw [hcommands]
      exact enumerates_nameSet commands
    · rw [hconditions]
      exact enumerates_nameSet conditions
  · intro commands' conditions' hcommands hconditions
    refine ⟨fun capabilities => ofNames_of_same_names hcommands hconditions, ?_⟩
    intro name h
    cases ofNames_eq_error_iff.mp h with
    | shared identifiers tests isCommand isCondition least =>
      simp only [← hcommands, ← hconditions] at identifiers tests isCommand isCondition least
      exact ofNames_eq_error_iff.mpr (.shared identifiers tests isCommand isCondition least)

/-- A repeated name counts once. Of two shared names the one with the smaller bytes is reported in
    either order, and a reserved word before any shared name. -/
theorem ofNames_accepts_repeated_commands :
    (∃ capabilities, ofNames ["turn", "Step", "turn"] ["wet_2"] = .ok capabilities ∧
      Enumerates capabilities.commands ["turn", "Step", "turn"] ∧
      ofNames ["Step", "turn"] ["wet_2", "wet_2"] = .ok capabilities) ∧
    ofNames ["b", "_a"] ["_a", "c", "b"] = .error (.conflict "_a") ∧
    ofNames ["_a", "b", "b"] ["b", "_a", "c"] = .error (.conflict "_a") ∧
    Refused ["b"] ["b", "while", "2x"] (.invalidName "while") := by
  obtain ⟨haccepted, hnames, -, hsame⟩ :=
    ofNames_accepts_disjoint_identifiers ["turn", "Step", "turn"] ["wet_2"]
  obtain ⟨-, -, -, hconflict⟩ := ofNames_accepts_disjoint_identifiers ["b", "_a"] ["_a", "c", "b"]
  obtain ⟨-, -, hrefused, -⟩ := ofNames_accepts_disjoint_identifiers ["b"] ["b", "while", "2x"]
  have hshared : ofNames ["b", "_a"] ["_a", "c", "b"] = .error (.conflict "_a") := rfl
  refine ⟨?_, hshared, ?_, (hrefused _).mp rfl⟩
  · obtain ⟨capabilities, hcapabilities⟩ := haccepted.mpr (by
      simp only [← isName_iff_isIdentifier]
      decide)
    refine ⟨capabilities, hcapabilities, (hnames capabilities hcapabilities).2.1, ?_⟩
    exact (hsame _ _ (by grind) (by grind)).1 capabilities hcapabilities
  · exact (hconflict _ _ (by grind) (by grind)).2 "_a" hshared

end Capabilities

end Karel
