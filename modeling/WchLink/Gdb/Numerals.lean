import WchLink.Gdb.Text

/-! # The numbers that hexadecimal text denotes

The number parser takes the digits it finds and shifts what does not fit out of
the word. What the whole of a text denotes as a numeral is stated beside it.
-/

namespace WchLink

open Bytes

def isHexDigit (c : Byte) : Bool := (hexNibble c).isSome

/-- The number of some digits, however many there are. -/
def hexValue (digits : List Byte) : Nat :=
  digits.foldl (fun number c => 16 * number + ((hexNibble c).getD 0).toNat) 0

/-- A numeral: digits only, at least one, and a number that fits a word. -/
def hexWord (digits : List Byte) : Option Word :=
  if digits ≠ [] ∧ digits.all isHexDigit ∧ hexValue digits < 2 ^ 32 then
    some (BitVec.ofNat 32 (hexValue digits))
  else
    none

theorem hexWord_eq_some {digits : List Byte} {number : Word} :
    hexWord digits = some number ↔ digits ≠ [] ∧ digits.all isHexDigit ∧
      hexValue digits < 2 ^ 32 ∧ number = BitVec.ofNat 32 (hexValue digits) := by
  unfold hexWord
  split
  · rename_i h
    constructor
    · intro hsome
      cases hsome
      exact ⟨h.1, h.2.1, h.2.2, rfl⟩
    · rintro ⟨-, -, -, rfl⟩
      rfl
  · rename_i h
    constructor
    · intro hsome
      cases hsome
    · rintro ⟨hsome, hdigits, hfits, -⟩
      exact absurd ⟨hsome, hdigits, hfits⟩ h

theorem hexNibble_zero_iff : ∀ c : Byte, isHexDigit c = true →
    (((hexNibble c).getD 0).toNat = 0 ↔ c = ascii '0') := by
  decide

theorem foldl_digits_eq_zero {digits : List Byte} (hdigits : ∀ c ∈ digits, isHexDigit c = true)
    (number : Nat) :
    digits.foldl (fun number c => 16 * number + ((hexNibble c).getD 0).toNat) number = 0 ↔
      number = 0 ∧ ∀ c ∈ digits, c = ascii '0' := by
  induction digits generalizing number with
  | nil => simp
  | cons c rest ih =>
      have hc := hexNibble_zero_iff c (hdigits c List.mem_cons_self)
      rw [List.foldl_cons, ih fun c hc => hdigits c (List.mem_cons_of_mem _ hc),
        List.forall_mem_cons, ← hc]
      constructor
      · rintro ⟨hzero, hrest⟩
        exact ⟨by omega, by omega, hrest⟩
      · rintro ⟨rfl, hzero, hrest⟩
        exact ⟨by omega, hrest⟩

/-- The numerals of 0. -/
theorem hexWord_eq_zero {digits : List Byte} :
    hexWord digits = some 0 ↔ digits ≠ [] ∧ ∀ c ∈ digits, c = ascii '0' := by
  rw [hexWord_eq_some]
  constructor
  · rintro ⟨hsome, hdigits, hfits, hzero⟩
    have hvalue : hexValue digits = 0 := by
      have hnat := congrArg BitVec.toNat hzero
      rw [BitVec.toNat_ofNat, Nat.mod_eq_of_lt hfits] at hnat
      exact hnat.symm
    exact ⟨hsome, ((foldl_digits_eq_zero (List.all_eq_true.mp hdigits) 0).mp hvalue).2⟩
  · rintro ⟨hsome, hzeros⟩
    have hdigits : ∀ c ∈ digits, isHexDigit c = true := by
      intro c hc
      rw [hzeros c hc]
      decide
    have hvalue : hexValue digits = 0 := (foldl_digits_eq_zero hdigits 0).mpr ⟨rfl, hzeros⟩
    rw [hvalue]
    exact ⟨hsome, List.all_eq_true.mpr hdigits, by decide, rfl⟩

/-- The parser's step on numbers. -/
theorem shiftIn_digit (number : Nat) (nibble : BitVec 4) :
    BitVec.ofNat 32 number <<< 4 ||| nibble.setWidth 32 =
      (BitVec.ofNat 32 (16 * number + nibble.toNat) : Word) := by
  have hdigit := ofNat_digit (16 * number + nibble.toNat)
  have hhigh : (16 * number + nibble.toNat) / 16 = number := by omega
  have hlow : (16 * number + nibble.toNat) % 16 = nibble.toNat := by omega
  rw [hhigh, hlow, BitVec.ofNat_toNat, BitVec.setWidth_eq] at hdigit
  exact hdigit

theorem parseHexDigits_eq (number : Nat) (pointer : List Byte) :
    parseHexDigits (BitVec.ofNat 32 number) pointer =
      (BitVec.ofNat 32 ((pointer.takeWhile isHexDigit).foldl
        (fun number c => 16 * number + ((hexNibble c).getD 0).toNat) number),
        pointer.dropWhile isHexDigit) := by
  induction pointer generalizing number with
  | nil => rfl
  | cons c rest ih =>
      rw [parseHexDigits]
      cases hnibble : hexNibble c with
      | none => simp [isHexDigit, hnibble]
      | some nibble =>
          dsimp only
          rw [shiftIn_digit, ih]
          simp [isHexDigit, hnibble]

/-- What the number parser makes of any text. -/
theorem parseHexU32_eq (pointer : List Byte) :
    parseHexU32 pointer =
      if pointer.takeWhile isHexDigit = [] then none
      else some (BitVec.ofNat 32 (hexValue (pointer.takeWhile isHexDigit)),
        pointer.dropWhile isHexDigit) := by
  have hdigits : parseHexDigits 0 pointer =
      (BitVec.ofNat 32 (hexValue (pointer.takeWhile isHexDigit)), pointer.dropWhile isHexDigit) :=
    parseHexDigits_eq 0 pointer
  unfold parseHexU32
  cases pointer with
  | nil => rfl
  | cons c rest =>
      cases hnibble : hexNibble c with
      | none => simp [isHexDigit, hnibble]
      | some nibble =>
          have hfirst : (c :: rest).takeWhile isHexDigit ≠ [] := by simp [isHexDigit, hnibble]
          rw [if_neg hfirst, ← hdigits]
          simp [hnibble]

/-! ## What the scanners accept -/

/-- Digits, as many as there are, and the word they are read as. -/
structure Digits (digits : List Byte) (number : Word) : Prop where
  nonempty : digits ≠ []
  hex : ∀ c ∈ digits, isHexDigit c = true
  value : number = BitVec.ofNat 32 (hexValue digits)

/-- Text the number parser stops at. -/
def NumeralEnds (rest : List Byte) : Prop := rest.takeWhile isHexDigit = []

theorem digits_of_hexWord {digits : List Byte} {number : Word} (h : hexWord digits = some number) :
    Digits digits number := by
  obtain ⟨hsome, hdigits, -, hnumber⟩ := hexWord_eq_some.mp h
  exact ⟨hsome, List.all_eq_true.mp hdigits, hnumber⟩

theorem Digits.ne_zero {digits : List Byte} {number : Word} (h : Digits digits number) :
    ∀ c ∈ digits, c ≠ 0 := by
  have hzero : isHexDigit 0 = false := by decide
  rintro c hc rfl
  rw [h.hex 0 hc] at hzero
  cases hzero

theorem numeralEnds_nil : NumeralEnds [] := rfl

theorem numeralEnds_cons {c : Byte} (rest : List Byte) :
    NumeralEnds (c :: rest) ↔ isHexDigit c = false := by
  unfold NumeralEnds
  rw [List.takeWhile_cons]
  cases isHexDigit c <;> simp

theorem numeralEnds_append {rest : List Byte} (tail : List Byte) :
    NumeralEnds (rest ++ 0 :: tail) ↔ NumeralEnds rest := by
  cases rest with
  | nil =>
      have hzero : NumeralEnds (0 :: tail) := (numeralEnds_cons tail).mpr (by decide)
      exact ⟨fun _ => numeralEnds_nil, fun _ => hzero⟩
  | cons c rest => rw [List.cons_append, numeralEnds_cons, numeralEnds_cons]

theorem numeralEnds_dropWhile (pointer : List Byte) :
    NumeralEnds (pointer.dropWhile isHexDigit) := by
  induction pointer with
  | nil => rfl
  | cons c rest ih =>
      rw [List.dropWhile_cons]
      cases hdigit : isHexDigit c with
      | true => exact ih
      | false => exact (numeralEnds_cons rest).mpr hdigit

/-- The number parser takes the longest run of digits. -/
theorem parseHexU32_iff {pointer rest : List Byte} {number : Word} :
    parseHexU32 pointer = some (number, rest) ↔
      ∃ digits, pointer = digits ++ rest ∧ Digits digits number ∧ NumeralEnds rest := by
  constructor
  · intro h
    rw [parseHexU32_eq] at h
    by_cases hnone : pointer.takeWhile isHexDigit = []
    · rw [if_pos hnone] at h
      cases h
    · rw [if_neg hnone] at h
      cases h
      exact ⟨pointer.takeWhile isHexDigit, (List.takeWhile_append_dropWhile).symm,
        ⟨hnone, fun c hc => List.mem_takeWhile_imp hc, rfl⟩, numeralEnds_dropWhile pointer⟩
  · rintro ⟨digits, rfl, hdigits, hrest⟩
    have htake : (digits ++ rest).takeWhile isHexDigit = digits := by
      rw [List.takeWhile_append_of_pos hdigits.hex, hrest, List.append_nil]
    have hdrop : (digits ++ rest).dropWhile isHexDigit = rest := by
      have hwhole := List.takeWhile_append_dropWhile (p := isHexDigit) (l := digits ++ rest)
      rw [htake] at hwhole
      exact List.append_cancel_left hwhole
    rw [parseHexU32_eq, htake, hdrop, if_neg hdigits.nonempty, hdigits.value]

/-- A numeral is read as its number. -/
theorem parseHexU32_hexWord {digits : List Byte} {number : Word}
    (hnumber : hexWord digits = some number) : parseHexU32 digits = some (number, []) :=
  parseHexU32_iff.mpr
    ⟨digits, (List.append_nil digits).symm, digits_of_hexWord hnumber, numeralEnds_nil⟩

/-- The bytes that pairs of digits stand for. -/
def hexBytes : List Byte → Option (List Byte)
  | [] => some []
  | [_] => none
  | high :: low :: rest => do
      let high ← hexNibble high
      let low ← hexNibble low
      let bytes ← hexBytes rest
      return (high ++ low) :: bytes

end WchLink
