import Karel.Proofs.Json.Strings

/-!
# One value for each text

A JSON value is known from its text without spaces, and so is where the text of the value ends.
A number ends where its digits do, and all other values end by themselves.

## Main definitions

- `Json.Kind` — the kinds of values, which their first characters tell apart
- `Json.EndsNumber` — a text that goes on with no number

## Main results

- `Json.eq_of_compactChars_append_eq` — a value is known from a text that begins with it
- `Json.eq_of_compact_eq` — a value is known from its text
-/

namespace Karel.Json

variable {rest more : List Char}

-- ════════════════════════════════════════════════════════════════════════
-- Kinds of values
-- ════════════════════════════════════════════════════════════════════════

/-- The kinds of values. -/
inductive Kind where
  | null
  | number
  | string
  | array
  | object

/-- The kind of a value. -/
def kind : Json → Kind
  | .null => .null
  | .number _ => .number
  | .string _ => .string
  | .array _ => .array
  | .object _ => .object

/-- The kind of the values that begin with a character. -/
def Kind.ofChar (char : Char) : Kind :=
  if char = 'n' then .null
  else if char = '"' then .string
  else if char = '[' then .array
  else if char = '\x7b' then .object
  else .number

theorem isDigit_of_mem_digits {char : Char} {value : Nat} (h : char ∈ digits value) :
    char.isDigit = true :=
  Nat.isDigit_of_mem_toDigits (by decide) (by decide) h

theorem Kind.ofChar_of_isDigit {char : Char} (h : char.isDigit = true) :
    ofChar char = .number ∧ char ≠ ']' := by
  have hne {other : Char} (hother : other.isDigit = false) : char ≠ other := by
    rintro rfl
    exact Bool.false_ne_true (hother.symm.trans h)
  refine ⟨?_, hne rfl⟩
  rw [ofChar, if_neg (hne rfl), if_neg (hne rfl), if_neg (hne rfl), if_neg (hne rfl)]

/-- The first character of a value tells its kind, and closes no array. -/
theorem exists_compactChars_eq (json : Json) :
    ∃ char tail, json.compactChars = char :: tail ∧ Kind.ofChar char = json.kind ∧
      char ≠ ']' := by
  cases json with
  | null => exact ⟨'n', _, rfl, rfl, by decide⟩
  | number value =>
    obtain ⟨char, tail, hdigits⟩ := List.exists_cons_of_ne_nil (Nat.toDigits_ne_nil (n := value))
    have hdigit : char.isDigit = true := isDigit_of_mem_digits (hdigits ▸ List.mem_cons_self)
    obtain ⟨hkind, hne⟩ := Kind.ofChar_of_isDigit hdigit
    exact ⟨char, tail, hdigits, hkind, hne⟩
  | string text => exact ⟨'"', _, rfl, rfl, by decide⟩
  | array items => exact ⟨'[', _, rfl, rfl, by decide⟩
  | object fields => exact ⟨'\x7b', _, rfl, rfl, by decide⟩

/-- Values at the beginning of one text are of one kind. -/
theorem kind_eq_of_append_eq {first second : Json}
    (h : first.compactChars ++ rest = second.compactChars ++ more) : first.kind = second.kind := by
  obtain ⟨char, tail, hfirst, hkind, -⟩ := exists_compactChars_eq first
  obtain ⟨char', tail', hsecond, hkind', -⟩ := exists_compactChars_eq second
  rw [hfirst, hsecond] at h
  rw [← hkind, ← hkind', (List.cons.inj h).1]

-- ════════════════════════════════════════════════════════════════════════
-- Numbers
-- ════════════════════════════════════════════════════════════════════════

/-- A text with which no number goes on. -/
def EndsNumber (text : List Char) : Prop :=
  ∀ char ∈ text.head?, char.isDigit = false

theorem takeWhile_digits_append (h : EndsNumber rest) (value : Nat) :
    (digits value ++ rest).takeWhile Char.isDigit = digits value := by
  have hrest : rest.takeWhile Char.isDigit = [] := by
    cases rest with
    | nil => rfl
    | cons char rest => exact List.takeWhile_cons_of_neg (by simp [h char rfl])
  rw [List.takeWhile_append_of_pos fun char hmem => isDigit_of_mem_digits hmem, hrest,
    List.append_nil]

/-- A number and what stands behind it are known if it is clear where the number ends. -/
theorem digits_append_inj {first second : Nat} (hrest : EndsNumber rest) (hmore : EndsNumber more)
    (h : digits first ++ rest = digits second ++ more) : first = second ∧ rest = more := by
  have hdigits : digits first = digits second := by
    rw [← takeWhile_digits_append hrest, h, takeWhile_digits_append hmore]
  have hvalue (value : Nat) : Nat.ofDigitChars 10 (digits value) 0 = value :=
    Nat.ofDigitChars_ten_toDigits
  constructor
  · rw [← hvalue first, hdigits, hvalue]
  · rw [hdigits] at h
    exact List.append_cancel_left h

-- ════════════════════════════════════════════════════════════════════════
-- Lists of items and of fields
-- ════════════════════════════════════════════════════════════════════════

/-- What stands behind an item of an array: the further items, and the rest of the text. -/
def behindItem (rest : List Char) : List Json → List Char
  | [] => ']' :: rest
  | item :: items => ',' :: (compactItems (item :: items) ++ ']' :: rest)

/-- What stands behind a field of an object. -/
def behindField (rest : List Char) : List (String × Json) → List Char
  | [] => '\x7d' :: rest
  | field :: fields => ',' :: (compactFields (field :: fields) ++ '\x7d' :: rest)

theorem compactItems_cons_append (item : Json) (items : List Json) :
    compactItems (item :: items) ++ ']' :: rest = item.compactChars ++ behindItem rest items := by
  cases items with
  | nil => rfl
  | cons next items => rw [compactItems_cons, List.append_assoc]; rfl

theorem compactFields_cons_append (key : String) (value : Json) (fields : List (String × Json)) :
    compactFields ((key, value) :: fields) ++ '\x7d' :: rest =
      quote key ++ ':' :: (value.compactChars ++ behindField rest fields) := by
  cases fields with
  | nil => simp [compactFields, behindField]
  | cons next fields => simp [compactFields, behindField]

theorem endsNumber_behindItem (items : List Json) : EndsNumber (behindItem rest items) := by
  intro char hmem
  cases items <;> cases hmem <;> rfl

theorem endsNumber_behindField (fields : List (String × Json)) :
    EndsNumber (behindField rest fields) := by
  intro char hmem
  cases fields <;> cases hmem <;> rfl

-- ════════════════════════════════════════════════════════════════════════
-- Values
-- ════════════════════════════════════════════════════════════════════════

mutual

/-- A value and what stands behind it are known from a text that begins with the value, if what
    stands behind it goes on with no number. -/
theorem eq_of_compactChars_append_eq {rest more : List Char} (hrest : EndsNumber rest)
    (hmore : EndsNumber more) : (first second : Json) →
    first.compactChars ++ rest = second.compactChars ++ more → first = second ∧ rest = more
  | .null, second, h => by
    have hkind := kind_eq_of_append_eq h
    cases second with
    | null => exact ⟨rfl, List.append_cancel_left h⟩
    | _ => cases hkind
  | .number value, second, h => by
    have hkind := kind_eq_of_append_eq h
    cases second with
    | number other =>
      obtain ⟨rfl, hbehind⟩ := digits_append_inj hrest hmore h
      exact ⟨rfl, hbehind⟩
    | _ => cases hkind
  | .string text, second, h => by
    have hkind := kind_eq_of_append_eq h
    cases second with
    | string other =>
      obtain ⟨rfl, hbehind⟩ := quote_append_inj h
      exact ⟨rfl, hbehind⟩
    | _ => cases hkind
  | .array items, second, h => by
    have hkind := kind_eq_of_append_eq h
    cases second with
    | array others =>
      simp only [compactChars, List.cons_append, List.append_assoc, List.nil_append,
        List.cons.injEq, true_and] at h
      obtain ⟨rfl, hbehind⟩ := eq_of_compactItems_append_eq items others h
      exact ⟨rfl, hbehind⟩
    | _ => cases hkind
  | .object fields, second, h => by
    have hkind := kind_eq_of_append_eq h
    cases second with
    | object others =>
      simp only [compactChars, List.cons_append, List.append_assoc, List.nil_append,
        List.cons.injEq, true_and] at h
      obtain ⟨rfl, hbehind⟩ := eq_of_compactFields_append_eq fields others h
      exact ⟨rfl, hbehind⟩
    | _ => cases hkind

theorem eq_of_compactItems_append_eq {rest more : List Char} : (items others : List Json) →
    compactItems items ++ ']' :: rest = compactItems others ++ ']' :: more →
    items = others ∧ rest = more
  | [], [], h => ⟨rfl, (List.cons.inj h).2⟩
  | [], other :: others, h => by
    obtain ⟨char, tail, hchars, -, hne⟩ := exists_compactChars_eq other
    rw [compactItems_cons_append, hchars] at h
    exact absurd (List.cons.inj h).1.symm hne
  | item :: items, [], h => by
    obtain ⟨char, tail, hchars, -, hne⟩ := exists_compactChars_eq item
    rw [compactItems_cons_append, hchars] at h
    exact absurd (List.cons.inj h).1 hne
  | item :: items, other :: others, h => by
    rw [compactItems_cons_append, compactItems_cons_append] at h
    obtain ⟨rfl, hbehind⟩ := eq_of_compactChars_append_eq (endsNumber_behindItem items)
      (endsNumber_behindItem others) item other h
    cases items with
    | nil =>
      cases others with
      | nil => exact ⟨rfl, (List.cons.inj hbehind).2⟩
      | cons next others => cases hbehind
    | cons next items =>
      cases others with
      | nil => cases hbehind
      | cons next' others =>
        obtain ⟨hitems, hrest⟩ := eq_of_compactItems_append_eq (next :: items) (next' :: others)
          (List.cons.inj hbehind).2
        rw [hitems]
        exact ⟨rfl, hrest⟩

theorem eq_of_compactFields_append_eq {rest more : List Char} :
    (fields others : List (String × Json)) →
    compactFields fields ++ '\x7d' :: rest = compactFields others ++ '\x7d' :: more →
    fields = others ∧ rest = more
  | [], [], h => ⟨rfl, (List.cons.inj h).2⟩
  | [], (key, value) :: others, h => by
    rw [compactFields_cons_append, quote_append] at h
    cases h
  | (key, value) :: fields, [], h => by
    rw [compactFields_cons_append, quote_append] at h
    cases h
  | (key, value) :: fields, (key', value') :: others, h => by
    rw [compactFields_cons_append, compactFields_cons_append] at h
    obtain ⟨rfl, hcolon⟩ := quote_append_inj h
    obtain ⟨rfl, hbehind⟩ := eq_of_compactChars_append_eq (endsNumber_behindField fields)
      (endsNumber_behindField others) value value' (List.cons.inj hcolon).2
    cases fields with
    | nil =>
      cases others with
      | nil => exact ⟨rfl, (List.cons.inj hbehind).2⟩
      | cons next others => cases hbehind
    | cons next fields =>
      cases others with
      | nil => cases hbehind
      | cons next' others =>
        obtain ⟨hfields, hrest⟩ := eq_of_compactFields_append_eq (next :: fields)
          (next' :: others) (List.cons.inj hbehind).2
        rw [hfields]
        exact ⟨rfl, hrest⟩

end

/-- A value is known from its text. -/
theorem eq_of_compact_eq {first second : Json} (h : first.compact = second.compact) :
    first = second := by
  have hchars : first.compactChars = second.compactChars := String.ofList_injective h
  have hends : EndsNumber [] := fun char hmem => by cases hmem
  exact (eq_of_compactChars_append_eq hends hends first second (by rw [hchars])).1

end Karel.Json
