import Karel.Json.Encoding
import Karel.Json.Reader

/-!
# Strings that are read back

A text that is written as a JSON string is read back as it was, whatever characters it has and
whatever stands behind it. So are lists of texts.

## Main results

- `Json.readStringTail_escape_append` — a character, escaped or not
- `Json.readString_quote_append` — a text
- `Json.quote_append_inj` — a text is known from its string, and so is what follows
- `Json.readStrings_ofNames_append` — a list of texts
-/

namespace Karel.Json

variable {char : Char} {text rest : List Char}

-- ════════════════════════════════════════════════════════════════════════
-- Characters
-- ════════════════════════════════════════════════════════════════════════

theorem hexValue?_hexDigit : ∀ value < 16, hexValue? (hexDigit value) = some value := by
  decide

/-- A control character is the code unit that its two digits denote. -/
theorem codeUnit?_hexDigit {code : Nat} (h : code < 32) :
    codeUnit? '0' '0' (hexDigit (code / 16)) (hexDigit (code % 16)) = some code := by
  have hzero : hexValue? '0' = some 0 := rfl
  have hhigh : hexValue? (hexDigit (code / 16)) = some (code / 16) :=
    hexValue?_hexDigit _ (by omega)
  have hlow : hexValue? (hexDigit (code % 16)) = some (code % 16) :=
    hexValue?_hexDigit _ (Nat.mod_lt _ (by decide))
  simp only [codeUnit?, hzero, hhigh, hlow, Option.bind_eq_bind, Option.bind_some]
  congr 1
  omega

theorem readStringTail_control (h : char.toNat < 32) :
    readStringTail ('\\' :: 'u' :: '0' :: '0' :: hexDigit (char.toNat / 16) ::
      hexDigit (char.toNat % 16) :: text) = consRead char (readStringTail text) := by
  have hhigh : isHighSurrogate char.toNat = false := by
    simp only [isHighSurrogate, Bool.and_eq_false_iff, decide_eq_false_iff_not]
    omega
  have hlow : isLowSurrogate char.toNat = false := by
    simp only [isLowSurrogate, Bool.and_eq_false_iff, decide_eq_false_iff_not]
    omega
  rw [readStringTail, codeUnit?_hexDigit h]
  simp only [hhigh, hlow, Bool.false_eq_true, if_false, Char.ofNat_toNat]

/-- A character that needs no escape stands for itself. -/
theorem readStringTail_plain (hquote : char ≠ '"') (hback : char ≠ '\\')
    (hcontrol : ¬ char.toNat < 32) :
    readStringTail (char :: text) = consRead char (readStringTail text) := by
  rw [readStringTail]
  · rw [if_neg hcontrol]
  · exact hquote
  · intro a b c d rest heq
    exact absurd heq hback
  · intro other rest heq
    exact absurd heq hback

/-- A written character is read back, with what follows it. -/
theorem readStringTail_escape_append (char : Char) (text : List Char) :
    readStringTail (escape char ++ text) = consRead char (readStringTail text) := by
  have hcode {code : Nat} (h : char.toNat = code) : char = Char.ofNat code := by
    rw [← h, Char.ofNat_toNat]
  by_cases hquote : char = '"'
  · rw [hquote]
    rfl
  by_cases hback : char = '\\'
  · rw [hback]
    rfl
  by_cases hbackspace : char.toNat = 8
  · rw [hcode hbackspace]
    rfl
  by_cases hformFeed : char.toNat = 12
  · rw [hcode hformFeed]
    rfl
  by_cases hlineFeed : char = '\n'
  · rw [hlineFeed]
    rfl
  by_cases hreturn : char = '\r'
  · rw [hreturn]
    rfl
  by_cases htab : char = '\t'
  · rw [htab]
    rfl
  rw [escape, if_neg hquote, if_neg hback, if_neg hbackspace, if_neg hformFeed, if_neg hlineFeed,
    if_neg hreturn, if_neg htab]
  by_cases hcontrol : char.toNat < 32
  · rw [if_pos hcontrol]
    exact readStringTail_control hcontrol
  · rw [if_neg hcontrol]
    exact readStringTail_plain hquote hback hcontrol

-- ════════════════════════════════════════════════════════════════════════
-- Texts
-- ════════════════════════════════════════════════════════════════════════

theorem readStringTail_flatMap_escape (text rest : List Char) :
    readStringTail (text.flatMap escape ++ '"' :: rest) = .ok (text, rest) := by
  induction text with
  | nil => rfl
  | cons char text ih =>
    rw [List.flatMap_cons, List.append_assoc, readStringTail_escape_append, ih]
    rfl

theorem quote_append (text : String) (rest : List Char) :
    quote text ++ rest = '"' :: (text.toList.flatMap escape ++ '"' :: rest) := by
  simp [quote]

/-- A written text is read back. -/
theorem readString_quote_append (text : String) (rest : List Char) :
    readString (quote text ++ rest) = .ok (text, rest) := by
  rw [quote_append, readString, readStringTail_flatMap_escape]
  simp [Except.map]

/-- A text and what stands behind it are known from the string of the text. -/
theorem quote_append_inj {first second : String} {rest more : List Char}
    (h : quote first ++ rest = quote second ++ more) : first = second ∧ rest = more := by
  have hread := congrArg readString h
  rw [readString_quote_append, readString_quote_append] at hread
  exact Prod.mk.inj (Except.ok.inj hread)

-- ════════════════════════════════════════════════════════════════════════
-- Lists of texts
-- ════════════════════════════════════════════════════════════════════════

theorem skipSpace_cons (h : isSpace char = false) : skipSpace (char :: text) = char :: text :=
  List.dropWhile_cons_of_neg (by simp [h])

theorem compactItems_cons (item next : Json) (more : List Json) :
    compactItems (item :: next :: more) = item.compactChars ++ ',' :: compactItems (next :: more) :=
  rfl

/-- The texts of a list that is not empty begin with a quote. -/
theorem exists_compactItems_eq (name : String) (names : List String) :
    ∃ tail, compactItems ((name :: names).map string) = '"' :: tail := by
  cases names with
  | nil => exact ⟨_, rfl⟩
  | cons next names => exact ⟨_, rfl⟩

/-- A list takes at least as many characters as it has texts. -/
theorem length_le_length_compactItems (names : List String) :
    names.length ≤ (compactItems (names.map string)).length := by
  induction names with
  | nil => exact Nat.zero_le _
  | cons name names ih =>
    cases names with
    | nil => simp [compactItems, compactChars, quote]
    | cons next names =>
      rw [List.map_cons, List.map_cons, compactItems_cons, ← List.map_cons]
      simp only [List.length_append, List.length_cons] at ih ⊢
      omega

/-- The texts of a list that is not empty are read back. -/
theorem readStringItems_compactItems_append (name : String) (names : List String) {bound : Nat}
    (hbound : names.length < bound) (rest : List Char) :
    readStringItems bound (compactItems ((name :: names).map string) ++ ']' :: rest) =
      .ok (name :: names, rest) := by
  induction names generalizing name bound with
  | nil =>
    obtain ⟨bound, rfl⟩ := Nat.exists_eq_succ_of_ne_zero (Nat.ne_zero_of_lt hbound)
    have hitem : compactItems ([name].map string) = quote name := rfl
    rw [hitem, readStringItems, readString_quote_append]
    rfl
  | cons next names ih =>
    obtain ⟨bound, rfl⟩ := Nat.exists_eq_succ_of_ne_zero (Nat.ne_zero_of_lt hbound)
    have hitems : compactItems ((name :: next :: names).map string) ++ ']' :: rest =
        quote name ++ ',' :: (compactItems ((next :: names).map string) ++ ']' :: rest) := by
      rw [List.map_cons, List.map_cons, compactItems_cons, List.append_assoc]
      rfl
    have hcomma (more : List Char) : skipSpace (',' :: more) = ',' :: more := skipSpace_cons rfl
    have hnext : nextItem (compactItems ((next :: names).map string) ++ ']' :: rest) =
        .ok (compactItems ((next :: names).map string) ++ ']' :: rest) := by
      obtain ⟨tail, htail⟩ := exists_compactItems_eq next names
      rw [htail]
      rfl
    rw [hitems, readStringItems, readString_quote_append]
    simp only [hcomma, hnext, Except.bind]
    rw [ih next (Nat.lt_of_succ_lt_succ hbound)]
    rfl

/-- A list of texts is read back. -/
theorem readStrings_ofNames_append (names : List String) (rest : List Char) :
    readStrings ((ofNames names).compactChars ++ rest) = .ok (names, rest) := by
  cases names with
  | nil => rfl
  | cons name names =>
    have hchars : (ofNames (name :: names)).compactChars ++ rest =
        '[' :: (compactItems ((name :: names).map string) ++ ']' :: rest) := by
      simp [ofNames, compactChars]
    obtain ⟨tail, htail⟩ := exists_compactItems_eq name names
    have hread : readStrings ('[' :: '"' :: (tail ++ ']' :: rest)) =
        readStringItems (('"' :: (tail ++ ']' :: rest)).length + 1)
          ('"' :: (tail ++ ']' :: rest)) := rfl
    have hlength := length_le_length_compactItems (name :: names)
    have hbound : names.length < ('"' :: (tail ++ ']' :: rest)).length + 1 := by
      rw [htail] at hlength
      simp only [List.length_cons, List.length_append] at hlength ⊢
      omega
    have hitems := readStringItems_compactItems_append name names hbound rest
    rw [htail] at hitems
    rw [hchars, htail]
    exact hread.trans hitems

end Karel.Json
