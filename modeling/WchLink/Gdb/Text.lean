import Mathlib.Data.List.TakeWhile
import Mathlib.Tactic.Common
import WchLink.Bytes

/-! # Packet text

Characters, numerals and the C string functions the packet handlers use. A
pointer into a buffer is the part of the buffer from there on; a string ends at
its first NUL.
-/

namespace WchLink

open Bytes

/-- A character's byte. -/
def ascii (c : Char) : Byte := BitVec.ofNat 8 c.toNat

/-- A string literal's bytes, without the terminating NUL. -/
def text (literal : String) : List Byte := literal.toList.map ascii

/-! ## C strings -/

/-- The string at a pointer. -/
def cstring (pointer : List Byte) : List Byte := pointer.takeWhile (· ≠ 0)

/-- `strcmp(pointer, literal) == 0` -/
def strEq (pointer : List Byte) (literal : String) : Bool := cstring pointer == text literal

/-- `strncmp(pointer, literal, strlen(literal)) == 0` -/
def strStarts (pointer : List Byte) (literal : String) : Bool :=
  pointer.take (text literal).length == text literal

/-- The first occurrence of a character in the string at a pointer. -/
def strchr (c : Byte) : List Byte → Option (List Byte)
  | [] => none
  | head :: rest =>
      if head = c then some (head :: rest) else if head = 0 then none else strchr c rest

/-- The last occurrence of a character in the string at a pointer. -/
def strrchr (c : Byte) : List Byte → Option (List Byte)
  | [] => none
  | head :: rest =>
      if head = 0 then none
      else
        match strrchr c rest with
        | some last => some last
        | none => if head = c then some (head :: rest) else none

/-- The next token of a string and what is left behind it. -/
def strtok (delimiters string : List Byte) : Option (List Byte × List Byte) :=
  match string.dropWhile (· ∈ delimiters) with
  | [] => none
  | token => some (token.takeWhile (· ∉ delimiters), (token.dropWhile (· ∉ delimiters)).drop 1)

/-! ## Numerals -/

def hexNibble (c : Byte) : Option (BitVec 4) :=
  if c ≥ ascii '0' ∧ c ≤ ascii '9' then
    some ((c - ascii '0').setWidth 4)
  else if c ≥ ascii 'a' ∧ c ≤ ascii 'f' then
    some ((c - ascii 'a' + 10).setWidth 4)
  else if c ≥ ascii 'A' ∧ c ≤ ascii 'F' then
    some ((c - ascii 'A' + 10).setWidth 4)
  else
    none

/-- The digits at a pointer appended to a value, with the end of the numeral. -/
def parseHexDigits (result : Word) : List Byte → Word × List Byte
  | [] => (result, [])
  | c :: rest =>
      match hexNibble c with
      | none => (result, c :: rest)
      | some nibble => parseHexDigits (result <<< 4 ||| nibble.setWidth 32) rest

/-- A numeral of at least one digit and its end; excess digits are shifted out. -/
def parseHexU32 (pointer : List Byte) : Option (Word × List Byte) :=
  if (hexNibble (pointer.getD 0 0)).isSome then some (parseHexDigits 0 pointer) else none

/-- `count` bytes of two digits each. -/
def parseHexBytes (pointer : List Byte) : Nat → Option (List Byte)
  | 0 => some []
  | count + 1 => do
      let high ← hexNibble (pointer.getD 0 0)
      let low ← hexNibble (pointer.getD 1 0)
      let rest ← parseHexBytes (pointer.drop 2) count
      return (high ++ low) :: rest

/-- `"0123456789abcdef"[nibble]` -/
def hexDigit (nibble : BitVec 4) : Byte := ascii (Nat.digitChar nibble.toNat)

def formatHexByte (value : Byte) : List Byte :=
  [hexDigit ((value >>> 4).setWidth 4), hexDigit (value.setWidth 4)]

/-- A word as a register value travels: least significant byte first. -/
def formatHexU32Le (value : Word) : List Byte :=
  formatHexByte (byteOf value 0) ++ formatHexByte (byteOf value 1) ++
    formatHexByte (byteOf value 2) ++ formatHexByte (byteOf value 3)

/-- `%0<width>x` -/
def formatHex (width : Nat) (value : Word) : List Byte :=
  let digits := (Nat.toDigits 16 value.toNat).map ascii
  List.replicate (width - digits.length) (ascii '0') ++ digits

/-- `%u` -/
def formatDec (value : Nat) : List Byte := (Nat.toDigits 10 value).map ascii

/-- `%-<width>u` -/
def formatDecLeft (width value : Nat) : List Byte :=
  formatDec value ++ List.replicate (width - (formatDec value).length) (ascii ' ')

/-- The bytes a hex string stands for; `none` when it is malformed or too long
for a buffer of `max` bytes. -/
def gdbDecodeHexString (pointer : List Byte) (max : Nat) : Option (List Byte) :=
  let string := cstring pointer
  if string.length % 2 ≠ 0 ∨ max = 0 then
    none
  else if string.length / 2 ≥ max then
    none
  else
    parseHexBytes string (string.length / 2)

/-! ## Reading back what was printed -/

theorem hexNibble_hexDigit (nibble : BitVec 4) : hexNibble (hexDigit nibble) = some nibble := by
  revert nibble
  decide

theorem hexDigit_injective {first second : BitVec 4} (h : hexDigit first = hexDigit second) :
    first = second := by
  have hnibble := congrArg hexNibble h
  rw [hexNibble_hexDigit, hexNibble_hexDigit] at hnibble
  exact Option.some.inj hnibble

theorem high_append_low (value : Byte) :
    ((value >>> 4).setWidth 4 ++ value.setWidth 4 : BitVec (4 + 4)) = value := by
  revert value
  decide

theorem formatHexByte_injective {first second : Byte}
    (h : formatHexByte first = formatHexByte second) : first = second := by
  obtain ⟨hhigh, hlow⟩ := List.cons.inj h
  have hhigh := hexDigit_injective hhigh
  have hlow := hexDigit_injective (List.cons.inj hlow).1
  rw [← high_append_low first, ← high_append_low second, hhigh, hlow]

theorem formatHexU32Le_injective {first second : Word}
    (h : formatHexU32Le first = formatHexU32Le second) : first = second := by
  obtain ⟨h, h3⟩ := List.append_inj h rfl
  obtain ⟨h, h2⟩ := List.append_inj h rfl
  obtain ⟨h0, h1⟩ := List.append_inj h rfl
  rw [← wordLe_byteOf first, ← wordLe_byteOf second, formatHexByte_injective h0,
    formatHexByte_injective h1, formatHexByte_injective h2, formatHexByte_injective h3]

theorem cstring_eq_self {string : List Byte} (hstring : ∀ c ∈ string, c ≠ 0) :
    cstring string = string :=
  List.takeWhile_eq_self_iff.mpr fun c hc => decide_eq_true (hstring c hc)

/-- A string that equals a literal begins with it. -/
theorem take_of_strEq {pointer : List Byte} {literal : String} (h : strEq pointer literal = true) :
    pointer.take (text literal).length = text literal := by
  have hsame : cstring pointer = text literal := eq_of_beq h
  have hstarts : cstring pointer <+: pointer := List.takeWhile_prefix _
  rw [hsame] at hstarts
  exact (List.prefix_iff_eq_take.mp hstarts).symm

theorem formatHexU32Le_ne_zero (value : Word) : ∀ c ∈ formatHexU32Le value, c ≠ 0 := by
  have hdigit : ∀ nibble, hexDigit nibble ≠ 0 := by decide
  intro c hc
  simp only [formatHexU32Le, formatHexByte, List.cons_append, List.nil_append, List.mem_cons,
    List.not_mem_nil, or_false] at hc
  rcases hc with rfl | rfl | rfl | rfl | rfl | rfl | rfl | rfl <;> exact hdigit _

/-- A numeral ends at the first character that is no digit. -/
theorem parseHexDigits_append {digits : List Byte} {start value : Word} {c : Byte}
    (hdigits : parseHexDigits start digits = (value, [])) (hend : hexNibble c = none)
    (rest : List Byte) : parseHexDigits start (digits ++ c :: rest) = (value, c :: rest) := by
  induction digits generalizing start with
  | nil =>
      cases hdigits
      rw [List.nil_append, parseHexDigits, hend]
  | cons digit digits ih =>
      rw [parseHexDigits] at hdigits
      rw [List.cons_append, parseHexDigits]
      cases hnibble : hexNibble digit with
      | none =>
          rw [hnibble] at hdigits
          cases hdigits
      | some nibble =>
          rw [hnibble] at hdigits
          exact ih hdigits

/-- One more digit. -/
theorem parseHexDigits_concat {digits : List Byte} {start value : Word} {c : Byte}
    {nibble : BitVec 4} (hdigits : parseHexDigits start digits = (value, []))
    (hc : hexNibble c = some nibble) :
    parseHexDigits start (digits ++ [c]) = (value <<< 4 ||| nibble.setWidth 32, []) := by
  induction digits generalizing start with
  | nil =>
      cases hdigits
      rw [List.nil_append, parseHexDigits, hc]
      rfl
  | cons digit digits ih =>
      rw [parseHexDigits] at hdigits
      rw [List.cons_append, parseHexDigits]
      cases hnibble : hexNibble digit with
      | none =>
          rw [hnibble] at hdigits
          cases hdigits
      | some nibble =>
          rw [hnibble] at hdigits
          exact ih hdigits

theorem hexNibble_digitChar {digit : Nat} (hdigit : digit < 16) :
    hexNibble (ascii (Nat.digitChar digit)) = some (BitVec.ofNat 4 digit) := by
  have h := hexNibble_hexDigit (BitVec.ofNat 4 digit)
  rwa [hexDigit, BitVec.toNat_ofNat, Nat.mod_eq_of_lt hdigit] at h

theorem ofNat_digit (number : Nat) :
    BitVec.ofNat 32 (number / 16) <<< 4 ||| (BitVec.ofNat 4 (number % 16)).setWidth 32 =
      (BitVec.ofNat 32 number : Word) := by
  have hhigh : (number / 16 % 2 ^ 32) <<< 4 % 2 ^ 32 = (number / 16 % 2 ^ 28) <<< 4 := by
    rw [Nat.shiftLeft_eq, Nat.shiftLeft_eq]
    omega
  have hlow : number % 16 % 2 ^ 4 % 2 ^ 32 < 2 ^ 4 := by omega
  apply BitVec.eq_of_toNat_eq
  rw [BitVec.toNat_or, BitVec.toNat_shiftLeft, BitVec.toNat_ofNat, BitVec.toNat_setWidth,
    BitVec.toNat_ofNat, BitVec.toNat_ofNat, hhigh, ← Nat.shiftLeft_add_eq_or_of_lt hlow,
    Nat.shiftLeft_eq]
  omega

theorem parseHexDigits_toDigits (number : Nat) :
    parseHexDigits 0 ((Nat.toDigits 16 number).map ascii) = (BitVec.ofNat 32 number, []) := by
  induction number using Nat.strongRecOn with
  | ind number ih =>
      by_cases hsmall : number < 16
      · rw [Nat.toDigits_of_lt_base hsmall]
        have h := @parseHexDigits_concat [] 0 0 _ _ rfl (hexNibble_digitChar hsmall)
        rw [List.nil_append] at h
        rw [List.map_singleton, h]
        have hnumber := ofNat_digit number
        rw [Nat.div_eq_of_lt hsmall, Nat.mod_eq_of_lt hsmall] at hnumber
        exact congrArg (·, []) hnumber
      · rw [Nat.toDigits_of_base_le (by decide) (by omega), List.map_append, List.map_singleton,
          parseHexDigits_concat (ih (number / 16) (by omega))
            (hexNibble_digitChar (Nat.mod_lt _ (by decide))), ofNat_digit]

theorem isHex_of_parseHexDigits {digits : List Byte} {start value : Word}
    (hdigits : parseHexDigits start digits = (value, [])) :
    ∀ c ∈ digits, (hexNibble c).isSome := by
  induction digits generalizing start with
  | nil => exact fun c hc => absurd hc List.not_mem_nil
  | cons digit digits ih =>
      rw [parseHexDigits] at hdigits
      cases hnibble : hexNibble digit with
      | none =>
          rw [hnibble] at hdigits
          cases hdigits
      | some nibble =>
          rw [hnibble] at hdigits
          intro c hc
          rcases List.mem_cons.mp hc with rfl | hc
          · rw [hnibble]
            rfl
          · exact ih hdigits c hc

theorem parseHexDigits_formatHex (value : Word) :
    parseHexDigits 0 (formatHex 0 value) = (value, []) := by
  have h := parseHexDigits_toDigits value.toNat
  rw [BitVec.ofNat_toNat, BitVec.setWidth_eq] at h
  rw [formatHex, Nat.zero_sub]
  exact h

theorem notMem_formatHex {c : Byte} (hc : hexNibble c = none) (value : Word) :
    c ∉ formatHex 0 value := by
  intro hmem
  have hdigit := isHex_of_parseHexDigits (parseHexDigits_formatHex value) c hmem
  rw [hc] at hdigit
  cases hdigit

/-- A printed number reads back. -/
theorem parseHexU32_formatHex (value : Word) {c : Byte} (hend : hexNibble c = none)
    (rest : List Byte) :
    parseHexU32 (formatHex 0 value ++ c :: rest) = some (value, c :: rest) := by
  have hdigits := parseHexDigits_formatHex value
  have hfirst : (hexNibble ((formatHex 0 value ++ c :: rest).getD 0 0)).isSome = true := by
    have hlength : 0 < (formatHex 0 value).length := by
      rw [formatHex, Nat.zero_sub, List.replicate_zero, List.nil_append, List.length_map]
      exact Nat.length_toDigits_pos
    cases hformat : formatHex 0 value with
    | nil =>
        rw [hformat] at hlength
        cases hlength
    | cons digit digits =>
        rw [hformat] at hdigits
        exact isHex_of_parseHexDigits hdigits digit List.mem_cons_self
  rw [parseHexU32, if_pos hfirst, parseHexDigits_append hdigits hend]

/-- The last occurrence of a character, when no other follows in the string. -/
theorem strrchr_last {c : Byte} {before after : List Byte} (hc : c ≠ 0) (hbefore : 0 ∉ before)
    (hafter : 0 ∉ after) (hlast : c ∉ after) (tail : List Byte) :
    strrchr c (before ++ c :: (after ++ 0 :: tail)) = some (c :: (after ++ 0 :: tail)) := by
  have hnone : strrchr c (after ++ 0 :: tail) = none := by
    induction after with
    | nil => rfl
    | cons head after ih =>
        rw [List.mem_cons, not_or] at hafter hlast
        rw [List.cons_append, strrchr, if_neg (Ne.symm hafter.1), ih hafter.2 hlast.2]
        dsimp only
        rw [if_neg (Ne.symm hlast.1)]
  induction before with
  | nil =>
      rw [List.nil_append, strrchr, if_neg hc, hnone]
      dsimp only
      rw [if_pos rfl]
  | cons head before ih =>
      rw [List.mem_cons, not_or] at hbefore
      rw [List.cons_append, strrchr, if_neg (Ne.symm hbefore.1), ih hbefore.2]

/-- What stands before a pointer into a buffer. -/
theorem take_before (first rest : List Byte) :
    (first ++ rest).take ((first ++ rest).length - rest.length) = first := by
  rw [List.length_append, Nat.add_sub_cancel, List.take_left]

theorem setWidth_nibbles (byte : Byte) :
    byte.setWidth 32 = ((byte >>> 4).setWidth 4).setWidth 32 <<< 4 |||
      ((byte.setWidth 4).setWidth 32 : Word) := by
  revert byte
  decide

theorem parseHexDigits_formatHexByte (byte : Byte) (start : Word) (rest : List Byte) :
    parseHexDigits start (formatHexByte byte ++ rest) =
      parseHexDigits (start <<< 8 ||| byte.setWidth 32) rest := by
  have hbyte : (start <<< 4 ||| ((byte >>> 4).setWidth 4).setWidth 32) <<< 4 |||
      (byte.setWidth 4).setWidth 32 = start <<< 8 ||| byte.setWidth 32 := by
    rw [BitVec.shiftLeft_or_distrib, ← BitVec.shiftLeft_add, BitVec.or_assoc, ← setWidth_nibbles]
  rw [formatHexByte, List.cons_append, List.cons_append, List.nil_append, parseHexDigits,
    hexNibble_hexDigit]
  dsimp only
  rw [parseHexDigits, hexNibble_hexDigit]
  dsimp only
  rw [hbyte]

/-- A word with its bytes in the opposite order. -/
def byteSwap (value : Word) : Word :=
  wordLe (byteOf value 3) (byteOf value 2) (byteOf value 1) (byteOf value 0)

theorem byteSwap_eq (value : Word) :
    ((((0 : Word) <<< 8 ||| (byteOf value 0).setWidth 32) <<< 8 |||
      (byteOf value 1).setWidth 32) <<< 8 ||| (byteOf value 2).setWidth 32) <<< 8 |||
        (byteOf value 3).setWidth 32 = byteSwap value := by
  have hzero : (0 : Word) <<< 8 ||| (byteOf value 0).setWidth 32 =
      (byteOf value 0).setWidth 32 := BitVec.zero_or
  rw [hzero, byteSwap, wordLe, BitVec.shiftLeft_or_distrib, BitVec.shiftLeft_or_distrib,
    BitVec.shiftLeft_or_distrib, ← BitVec.shiftLeft_add, ← BitVec.shiftLeft_add,
    ← BitVec.shiftLeft_add]
  simp only [Nat.reduceAdd]
  generalize (byteOf value 0).setWidth 32 <<< 24 = b0
  generalize (byteOf value 1).setWidth 32 <<< 16 = b1
  generalize (byteOf value 2).setWidth 32 <<< 8 = b2
  ac_rfl

/-- The parser reads a numeral most significant digit first, the report of a
register value is least significant byte first. -/
theorem parseHexU32_formatHexU32Le (value : Word) (tail : List Byte) :
    parseHexU32 (formatHexU32Le value ++ 0 :: tail) = some (byteSwap value, 0 :: tail) := by
  have hfirst : ((formatHexU32Le value ++ 0 :: tail).getD 0 0) =
      hexDigit ((byteOf value 0 >>> 4).setWidth 4) := rfl
  rw [parseHexU32, hfirst, hexNibble_hexDigit, if_pos Option.isSome_some, formatHexU32Le, List.append_assoc,
    List.append_assoc, List.append_assoc]
  rw [parseHexDigits_formatHexByte, parseHexDigits_formatHexByte, parseHexDigits_formatHexByte,
    parseHexDigits_formatHexByte, parseHexDigits]
  have hend : hexNibble 0 = none := by decide
  rw [hend, ← byteSwap_eq]

end WchLink
