import Mathlib.Tactic.SplitIfs
import Karel.Proofs.SourceText.LineTexts

/-!
# Slices of a line

The scanner goes through a line byte by byte, and cuts words, numbers and colons out of it by the
positions of their bytes. It never looks at whole characters. Still it only cuts between them, since
all bytes of a character outside ASCII are passed over in the same way.

## Main definitions

- `charBytes` — the bytes of some characters
- `IsBoundary` — a position between two characters, or at an end
- `Slice`, `slicesFrom` — what the scanner cuts out of some bytes, from a position on
- `Slice.IsText` — a slice that holds the text of a token

## Main results

- `isBoundary_iff` — the positions behind some of the characters
- `forall₂_isText_slicesFrom` — the slices behind some of the characters
-/

namespace Karel

/-- The bytes of some characters in UTF-8. -/
def charBytes (chars : List Char) : List UInt8 :=
  chars.flatMap String.utf8EncodeChar

/-- A position in the bytes of a text that is between two characters or at an end. -/
def IsBoundary (chars : List Char) (index : Nat) : Prop :=
  String.Pos.Raw.IsValid (String.ofList chars) ⟨index⟩

namespace Shape

/-- The shape of the texts that begin with a byte. -/
def ofByte? (byte : UInt8) : Option Shape :=
  match Glyph.ofByte byte with
  | .letter _ => some word
  | .digit _ => some number
  | .colon => some colon
  | _ => none

/-- The bytes that a text of a shape goes on with. -/
def continuesByte (shape : Shape) (byte : UInt8) : Bool :=
  match shape, Glyph.ofByte byte with
  | word, .letter _ | word, .digit _ | number, .digit _ => true
  | _, _ => false

/-- The position behind the bytes that go on with a text, which are passed over one by one. -/
def runEnd (shape : Shape) (bytes : List UInt8) (index : Nat) : Nat :=
  if h : index < bytes.length then
    if shape.continuesByte bytes[index] then shape.runEnd bytes (index + 1) else index
  else index
termination_by bytes.length - index

theorem le_runEnd (shape : Shape) (bytes : List UInt8) (index : Nat) :
    index ≤ shape.runEnd bytes index := by
  fun_induction runEnd shape bytes index with
  | case1 index _ _ ih => exact Nat.le_of_succ_le ih
  | case2 | case3 => exact Nat.le_refl _

end Shape

/-- A part of a line that becomes a token, by the positions of its bytes. -/
structure Slice where
  shape : Shape
  start : Nat
  /-- The position behind the last byte. -/
  stop : Nat

/-- The slices of a line from a position on. A byte with which no text begins is passed over. -/
def slicesFrom (bytes : List UInt8) (index : Nat) : List Slice :=
  if h : index < bytes.length then
    match Shape.ofByte? bytes[index] with
    | some shape =>
      let stop := shape.runEnd bytes (index + 1)
      { shape, start := index, stop } :: slicesFrom bytes stop
    | none => slicesFrom bytes (index + 1)
  else []
termination_by bytes.length - index
decreasing_by
  · have hstop := shape.le_runEnd bytes (index + 1)
    omega
  · omega

/-- The letters outside ASCII have two bytes each, and the sign behind the space has three. -/
example : (slicesFrom (charBytes "é:3x_ü7 €do".toList) 0).map
    (fun slice => (slice.start, slice.stop)) = [(2, 3), (3, 4), (4, 6), (8, 9), (13, 15)] := by
  decide +kernel

/-- A slice holds the text of a kind of token. -/
def Slice.IsText (code : List Char) (slice : Slice) (kind : TokenKind) : Prop :=
  ∃ front text behind, code = front ++ text ++ behind ∧ slice.shape.Matches text ∧
    slice.start = (charBytes front).length ∧ slice.stop = (charBytes (front ++ text)).length ∧
    kind = slice.shape.kind text

variable {shape : Shape} {char first : Char} {chars front rest code : List Char} {index : Nat}
  {bytes skipped more : List UInt8} {byte : UInt8} {slice : Slice} {kind : TokenKind}

-- ════════════════════════════════════════════════════════════════════════
-- Boundaries
-- ════════════════════════════════════════════════════════════════════════

theorem charBytes_append (chars more : List Char) :
    charBytes (chars ++ more) = charBytes chars ++ charBytes more :=
  List.flatMap_append

theorem charBytes_cons (char : Char) (chars : List Char) :
    charBytes (char :: chars) = charBytes [char] ++ charBytes chars :=
  charBytes_append [char] chars

theorem utf8ByteSize_ofList (chars : List Char) :
    (String.ofList chars).utf8ByteSize = (charBytes chars).length := by
  simp [String.utf8ByteSize, List.utf8Encode, charBytes]

/-- The boundaries of a text are the positions behind some of its characters. -/
theorem isBoundary_iff :
    IsBoundary chars index ↔ ∃ front behind, chars = front ++ behind ∧
      index = (charBytes front).length := by
  rw [IsBoundary, String.Pos.Raw.isValid_iff_exists_append]
  constructor
  · rintro ⟨front, behind, hchars, hindex⟩
    refine ⟨front.toList, behind.toList, ?_, ?_⟩
    · rw [← String.toList_append, ← hchars, String.toList_ofList]
    · rw [← utf8ByteSize_ofList, String.ofList_toList]
      exact congrArg String.Pos.Raw.byteIdx hindex
  · rintro ⟨front, behind, rfl, rfl⟩
    refine ⟨String.ofList front, String.ofList behind, String.ofList_append, ?_⟩
    rw [← utf8ByteSize_ofList]
    rfl

-- ════════════════════════════════════════════════════════════════════════
-- Bytes of characters
-- ════════════════════════════════════════════════════════════════════════

/-- All bytes of a character have its glyph. -/
theorem ofByte_of_mem_charBytes (h : byte ∈ charBytes [char]) :
    Glyph.ofByte byte = Glyph.ofChar char :=
  eq_ofChar_of_mem_charGlyphs (List.mem_map_of_mem h)

theorem charBytes_singleton_ne_nil (char : Char) : charBytes [char] ≠ [] := by
  simp [charBytes]

/-- A character that shows is one byte. -/
theorem exists_charBytes_of_isShown (h : isShown char = true) :
    ∃ byte, charBytes [char] = [byte] ∧ Glyph.ofByte byte = Glyph.ofChar char := by
  have hchar : charBytes [char] = [UInt8.ofNat char.toNat] := by
    rw [charBytes, List.flatMap_singleton]
    exact if_pos (Nat.lt_succ_iff.mp (toNat_lt_of_isShown h))
  exact ⟨_, hchar, ofByte_of_mem_charBytes (hchar ▸ List.mem_singleton_self _)⟩

/-- Bytes are taken as long as their characters are, if all bytes of a character are alike. -/
theorem takeWhile_charBytes {p : UInt8 → Bool} {q : Char → Bool}
    (h : ∀ char, ∀ byte ∈ charBytes [char], p byte = q char) (chars : List Char) :
    (charBytes chars).takeWhile p = charBytes (chars.takeWhile q) := by
  induction chars with
  | nil => rfl
  | cons char chars ih =>
    rw [charBytes_cons]
    cases hchar : q char with
    | true =>
      have hall : ∀ byte ∈ charBytes [char], p byte = true :=
        fun byte hmem => (h char byte hmem).trans hchar
      rw [List.takeWhile_append_of_pos hall, ih, List.takeWhile_cons_of_pos hchar,
        ← charBytes_cons]
    | false =>
      obtain ⟨byte, others, hbytes⟩ :=
        List.exists_cons_of_ne_nil (charBytes_singleton_ne_nil char)
      have hbyte : p byte = false := (h char byte (hbytes ▸ List.mem_cons_self)).trans hchar
      rw [hbytes, List.cons_append, List.takeWhile_cons_of_neg (by simp [hbyte]),
        List.takeWhile_cons_of_neg (by simp [hchar])]
      rfl

namespace Shape

/-- A byte begins the texts that its character begins. -/
theorem ofByte?_eq_some_iff (h : byte ∈ charBytes [char]) :
    ofByte? byte = some shape ↔ shape.starts char = true := by
  have hcolon : char = ':' ↔ char.toNat = 58 := Char.toNat_inj.symm
  have hunderscore : char = '_' ↔ char.toNat = 95 := Char.toNat_inj.symm
  have hzero : '0'.toNat = 48 := rfl
  have hnine : '9'.toNat = 57 := rfl
  rw [ofByte?, ofByte_of_mem_charBytes h, Glyph.ofChar, Glyph.ofCode]
  cases shape with
  | word =>
    rw [starts, Bool.or_eq_true, decide_eq_true_eq, Glyph.isAlpha_iff_toNat, hunderscore]
    split_ifs <;> simp <;> omega
  | number =>
    rw [starts, Char.isDigit_iff_toNat, hzero, hnine]
    split_ifs <;> simp <;> omega
  | colon =>
    rw [starts, decide_eq_true_eq, hcolon]
    split_ifs <;> simp <;> omega

theorem ofByte?_eq_none (hchar : isShown char = false) (h : byte ∈ charBytes [char]) :
    ofByte? byte = none := by
  cases hshape : ofByte? byte with
  | none => rfl
  | some shape =>
    have hstarts := (ofByte?_eq_some_iff h).mp hshape
    rw [isShown_of_starts hstarts] at hchar
    cases hchar

/-- A byte goes on with the texts that its character goes on with. -/
theorem continuesByte_eq (shape : Shape) (h : byte ∈ charBytes [char]) :
    shape.continuesByte byte = shape.continues char := by
  have hunderscore : char = '_' ↔ char.toNat = 95 := Char.toNat_inj.symm
  have hzero : '0'.toNat = 48 := rfl
  have hnine : '9'.toNat = 57 := rfl
  unfold continuesByte
  rw [Bool.eq_iff_iff, ofByte_of_mem_charBytes h, Glyph.ofChar, Glyph.ofCode]
  cases shape with
  | word =>
    rw [continues, Char.isAlphanum, Bool.or_eq_true, Bool.or_eq_true, decide_eq_true_eq,
      Glyph.isAlpha_iff_toNat, Char.isDigit_iff_toNat, hunderscore, hzero, hnine]
    split_ifs <;> simp <;> omega
  | number =>
    rw [continues, Char.isDigit_iff_toNat, hzero, hnine]
    split_ifs <;> simp <;> omega
  | colon => rw [continues]

end Shape

-- ════════════════════════════════════════════════════════════════════════
-- Walks through the bytes
-- ════════════════════════════════════════════════════════════════════════

theorem Shape.runEnd_append (shape : Shape) (bytes more : List UInt8) :
    shape.runEnd (bytes ++ more) bytes.length =
      bytes.length + (more.takeWhile shape.continuesByte).length := by
  induction more generalizing bytes with
  | nil => rw [runEnd, dif_neg (by simp)]; rfl
  | cons byte more ih =>
    rw [runEnd, dif_pos (by simp), List.getElem_append_right (Nat.le_refl _)]
    simp only [Nat.sub_self, List.getElem_cons_zero]
    cases hbyte : shape.continuesByte byte with
    | true =>
      have hnext := ih (bytes ++ [byte])
      rw [List.append_assoc, List.singleton_append, List.length_append] at hnext
      rw [if_pos rfl, List.takeWhile_cons_of_pos hbyte, List.length_cons]
      exact hnext.trans (Nat.add_right_comm _ _ _)
    | false =>
      rw [if_neg Bool.false_ne_true, List.takeWhile_cons_of_neg (by simp [hbyte])]
      rfl

theorem slicesFrom_length (bytes : List UInt8) : slicesFrom bytes bytes.length = [] := by
  rw [slicesFrom, dif_neg (Nat.lt_irrefl _)]

theorem slicesFrom_append_cons (bytes : List UInt8) (byte : UInt8) (more : List UInt8) :
    slicesFrom (bytes ++ byte :: more) bytes.length =
      match Shape.ofByte? byte with
      | some shape =>
        let stop := (bytes ++ byte :: more.takeWhile shape.continuesByte).length
        { shape, start := bytes.length, stop } :: slicesFrom (bytes ++ byte :: more) stop
      | none => slicesFrom (bytes ++ byte :: more) (bytes ++ [byte]).length := by
  rw [slicesFrom, dif_pos (by simp), List.getElem_append_right (Nat.le_refl _)]
  simp only [Nat.sub_self, List.getElem_cons_zero]
  cases Shape.ofByte? byte with
  | none => simp
  | some shape =>
    have hstop : shape.runEnd (bytes ++ byte :: more) (bytes.length + 1) =
        (bytes ++ byte :: more.takeWhile shape.continuesByte).length := by
      have hend := shape.runEnd_append (bytes ++ [byte]) more
      simp only [List.append_assoc, List.singleton_append, List.length_append,
        List.length_singleton] at hend
      simp only [hend, List.length_append, List.length_cons]
      omega
    simp only [hstop]

/-- Bytes with which no text begins are passed over one by one. -/
theorem slicesFrom_skip (h : ∀ byte ∈ skipped, Shape.ofByte? byte = none)
    (bytes more : List UInt8) :
    slicesFrom (bytes ++ (skipped ++ more)) bytes.length =
      slicesFrom (bytes ++ (skipped ++ more)) (bytes ++ skipped).length := by
  induction skipped generalizing bytes with
  | nil => rw [List.append_nil]
  | cons byte skipped ih =>
    obtain ⟨hbyte, hskipped⟩ := List.forall_mem_cons.mp h
    have hnext := ih hskipped (bytes ++ [byte])
    simp only [List.append_assoc, List.singleton_append] at hnext
    rw [List.cons_append, slicesFrom_append_cons, hbyte]
    exact hnext

theorem slicesFrom_of_not_isShown (hchar : isShown char = false) (front rest : List Char) :
    slicesFrom (charBytes (front ++ char :: rest)) (charBytes front).length =
      slicesFrom (charBytes (front ++ char :: rest)) (charBytes (front ++ [char])).length := by
  have hskip : ∀ byte ∈ charBytes [char], Shape.ofByte? byte = none :=
    fun byte => Shape.ofByte?_eq_none hchar
  rw [charBytes_append, charBytes_append, charBytes_cons]
  exact slicesFrom_skip hskip _ _

theorem slicesFrom_of_starts (hstarts : shape.starts first = true) (front rest : List Char) :
    slicesFrom (charBytes (front ++ first :: rest)) (charBytes front).length =
      let start := (charBytes front).length
      let stop := (charBytes (front ++ first :: rest.takeWhile shape.continues)).length
      { shape, start, stop } :: slicesFrom (charBytes (front ++ first :: rest)) stop := by
  obtain ⟨byte, hbytes, -⟩ := exists_charBytes_of_isShown (Shape.isShown_of_starts hstarts)
  have hbyte : Shape.ofByte? byte = some shape :=
    (Shape.ofByte?_eq_some_iff (hbytes ▸ List.mem_singleton_self byte)).mpr hstarts
  have hcut (more : List Char) :
      charBytes (front ++ first :: more) = charBytes front ++ byte :: charBytes more := by
    rw [charBytes_append, charBytes_cons, hbytes, List.singleton_append]
  have htake := takeWhile_charBytes (fun char byte => shape.continuesByte_eq) rest
  rw [hcut, hcut, ← htake, slicesFrom_append_cons, hbyte]

/-- Behind some characters of a line, the slices hold the texts of the tokens that the others
    become. -/
theorem forall₂_isText_slicesFrom (front rest : List Char) :
    List.Forall₂ (Slice.IsText (front ++ rest))
      (slicesFrom (charBytes (front ++ rest)) (charBytes front).length)
      ((lexemes (charGlyphs rest)).filterMap Lexeme.kind?) := by
  -- the walk is at a boundary whenever it looks for the next text
  induction hlength : rest.length using Nat.strong_induction_on generalizing front rest with
  | _ length ih =>
    subst hlength
    cases rest with
    | nil =>
      rw [List.append_nil, slicesFrom_length]
      exact .nil
    | cons first rest =>
      cases hfirst : isShown first with
      | false =>
        have hrest := ih rest.length (Nat.lt_succ_self _) (front ++ [first]) rest rfl
        rw [List.append_assoc, List.singleton_append] at hrest
        rw [slicesFrom_of_not_isShown hfirst, filterMap_kind?_lexemes_of_not_isShown hfirst]
        exact hrest
      | true =>
        obtain ⟨shape, hstarts⟩ := Shape.exists_starts_of_isShown hfirst
        have hshorter : (rest.dropWhile shape.continues).length < (first :: rest).length :=
          Nat.lt_succ_of_le (List.dropWhile_suffix _).length_le
        have hcut : front ++ first :: rest =
            front ++ first :: rest.takeWhile shape.continues ++ rest.dropWhile shape.continues := by
          rw [List.append_assoc, List.cons_append, List.takeWhile_append_dropWhile]
        have hrest := ih _ hshorter (front ++ first :: rest.takeWhile shape.continues) _ rfl
        rw [← hcut] at hrest
        rw [slicesFrom_of_starts hstarts, filterMap_kind?_lexemes_of_starts hstarts]
        exact .cons ⟨front, _, _, hcut, Shape.matches_takeWhile hstarts rest, rfl, rfl, rfl⟩ hrest

end Karel
