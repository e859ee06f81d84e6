import Mathlib.Data.Nat.Digits.Defs
import WchLink.Cli

/-! # Numbers on the command line

A number is what C's `strtoul` reads in base zero: blanks, a sign, and digits whose base
their beginning tells. The whole text has to be one, and its value one of 32 bits.
-/

namespace WchLink

open Bytes

/-! ## Numerals -/

/-- What a character counts as a digit. -/
def digitValue (c : Char) : Nat :=
  if c.isDigit then c.toNat - '0'.toNat else c.toLower.toNat - 'a'.toNat + 10

/-- The digits of a base. -/
def IsDigitOf (base : Nat) (c : Char) : Prop := c.isAlphanum = true ∧ digitValue c < base

instance (base : Nat) (c : Char) : Decidable (IsDigitOf base c) :=
  inferInstanceAs (Decidable (_ ∧ _))

/-- What digits stand for, the most significant first. -/
def valueOf (base : Nat) (digits : List Char) : Nat :=
  Nat.ofDigits base (digits.reverse.map digitValue)

/-- A number without its sign: a leading zero makes it octal, and an `x` after it
hexadecimal. -/
inductive Unsigned : List Char → Nat → Prop
  | decimal {c : Char} {digits : List Char} (hfirst : c ≠ '0')
      (h : ∀ d ∈ c :: digits, IsDigitOf 10 d) : Unsigned (c :: digits) (valueOf 10 (c :: digits))
  | octal {digits : List Char} (h : ∀ d ∈ digits, IsDigitOf 8 d) :
      Unsigned ('0' :: digits) (valueOf 8 digits)
  | hexadecimal {x : Char} {digits : List Char} (hx : x = 'x' ∨ x = 'X') (hsome : digits ≠ [])
      (h : ∀ d ∈ digits, IsDigitOf 16 d) : Unsigned ('0' :: x :: digits) (valueOf 16 digits)

/-! ## Reading digits -/

theorem valueOf_cons (base : Nat) (c : Char) (digits : List Char) :
    valueOf base (c :: digits) = digitValue c * base ^ digits.length + valueOf base digits := by
  unfold valueOf
  rw [List.reverse_cons, List.map_append, Nat.ofDigits_append, List.length_map, List.length_reverse]
  simp only [List.map_cons, List.map_nil, Nat.ofDigits_singleton]
  ring

/-- The whole list is digits exactly when nothing follows them. -/
theorem strtoulDigits_eq_iff (base : Nat) (digits : List Char) (value magnitude : Nat) :
    strtoulDigits base value digits = (magnitude, []) ↔
      (∀ d ∈ digits, IsDigitOf base d) ∧
        magnitude = value * base ^ digits.length + valueOf base digits := by
  induction digits generalizing value with
  | nil =>
      simp [strtoulDigits, valueOf, eq_comm]
  | cons c digits ih =>
      unfold strtoulDigits
      dsimp only
      by_cases hdigit : IsDigitOf base c
      · have hdigit' : c.isAlphanum = true ∧ (if c.isDigit then c.toNat - '0'.toNat
            else c.toLower.toNat - 'a'.toNat + 10) < base := hdigit
        rw [if_pos hdigit', ih, List.forall_mem_cons, valueOf_cons, List.length_cons, pow_succ]
        have hvalue : (value * base + digitValue c) * base ^ digits.length + valueOf base digits =
            value * (base ^ digits.length * base) +
              (digitValue c * base ^ digits.length + valueOf base digits) := by ring
        rw [← hvalue]
        exact ⟨fun h => ⟨⟨hdigit, h.1⟩, h.2⟩, fun h => ⟨h.1.2, h.2⟩⟩
      · have hdigit' : ¬(c.isAlphanum = true ∧ (if c.isDigit then c.toNat - '0'.toNat
            else c.toLower.toNat - 'a'.toNat + 10) < base) := hdigit
        rw [if_neg hdigit', List.forall_mem_cons]
        constructor
        · intro h
          cases h
        · intro h
          exact absurd h.1.1 hdigit

theorem strtoulDigits_single (base : Nat) (c : Char) :
    (strtoulDigits base 0 [c]).2 = [] ↔ IsDigitOf base c := by
  unfold strtoulDigits
  dsimp only
  by_cases hdigit : IsDigitOf base c
  · have hdigit' : c.isAlphanum = true ∧ (if c.isDigit then c.toNat - '0'.toNat
        else c.toLower.toNat - 'a'.toNat + 10) < base := hdigit
    rw [if_pos hdigit']
    exact ⟨fun _ => hdigit, fun _ => rfl⟩
  · have hdigit' : ¬(c.isAlphanum = true ∧ (if c.isDigit then c.toNat - '0'.toNat
        else c.toLower.toNat - 'a'.toNat + 10) < base) := hdigit
    rw [if_neg hdigit']
    exact ⟨fun h => absurd h (List.cons_ne_nil _ _), fun h => absurd h hdigit⟩

/-! ## The base -/

theorem strtoulBase_decimal {c : Char} (hfirst : c ≠ '0') (digits : List Char) :
    strtoulBase (c :: digits) = (10, c :: digits) := by
  unfold strtoulBase
  split
  · next heq =>
      cases heq
      exact absurd rfl hfirst
  · next heq =>
      cases heq
      exact absurd rfl hfirst
  · rfl

theorem strtoulBase_hexadecimal {x c : Char} (hx : x = 'x' ∨ x = 'X') (hdigit : IsDigitOf 16 c)
    (rest : List Char) : strtoulBase ('0' :: x :: c :: rest) = (16, c :: rest) :=
  if_pos ⟨hx, (strtoulDigits_single 16 c).mpr hdigit⟩

theorem strtoulBase_octal {digits : List Char}
    (hoctal : ∀ x c rest, digits = x :: c :: rest → ¬((x = 'x' ∨ x = 'X') ∧ IsDigitOf 16 c)) :
    strtoulBase ('0' :: digits) = (8, '0' :: digits) := by
  match digits with
  | [] => rfl
  | [x] => rfl
  | x :: c :: rest =>
      have hnot : ¬((x = 'x' ∨ x = 'X') ∧ (strtoulDigits 16 0 [c]).2 = []) := by
        rw [strtoulDigits_single]
        exact hoctal x c rest rfl
      exact if_neg hnot

/-- A leading zero adds nothing. -/
theorem valueOf_zero_cons (base : Nat) (digits : List Char) :
    valueOf base ('0' :: digits) = valueOf base digits := by
  rw [valueOf_cons]
  have hzero : digitValue '0' = 0 := rfl
  rw [hzero, Nat.zero_mul, Nat.zero_add]

/-- The digits that are read, in the base that is read, are the numeral's. -/
theorem numeral_iff (chars : List Char) (magnitude : Nat) :
    ((strtoulBase chars).2 ≠ [] ∧
        strtoulDigits (strtoulBase chars).1 0 (strtoulBase chars).2 = (magnitude, [])) ↔
      Unsigned chars magnitude := by
  have hwhole (base : Nat) (digits : List Char) (h : ∀ d ∈ digits, IsDigitOf base d) :
      strtoulDigits base 0 digits = (valueOf base digits, []) :=
    (strtoulDigits_eq_iff base digits 0 _).mpr ⟨h, by rw [Nat.zero_mul, Nat.zero_add]⟩
  have hread {base : Nat} {digits : List Char} (h : strtoulDigits base 0 digits = (magnitude, [])) :
      (∀ d ∈ digits, IsDigitOf base d) ∧ magnitude = valueOf base digits := by
    rw [strtoulDigits_eq_iff, Nat.zero_mul, Nat.zero_add] at h
    exact h
  have hoctal : IsDigitOf 8 '0' := by decide
  constructor
  · rintro ⟨hsome, hdigits⟩
    match chars with
    | [] => exact absurd rfl hsome
    | c :: digits =>
        by_cases hfirst : c = '0'
        · subst hfirst
          by_cases hhex : ∃ x d rest, digits = x :: d :: rest ∧ (x = 'x' ∨ x = 'X') ∧ IsDigitOf 16 d
          · obtain ⟨x, d, rest, rfl, hx, hdigit⟩ := hhex
            rw [strtoulBase_hexadecimal hx hdigit] at hdigits
            obtain ⟨hall, rfl⟩ := hread hdigits
            exact .hexadecimal hx (List.cons_ne_nil _ _) hall
          · have hbase : strtoulBase ('0' :: digits) = (8, '0' :: digits) :=
              strtoulBase_octal fun x d rest hrest hx => hhex ⟨x, d, rest, hrest, hx⟩
            rw [hbase] at hdigits
            obtain ⟨hall, rfl⟩ := hread hdigits
            rw [valueOf_zero_cons]
            exact .octal fun d hd => hall d (List.mem_cons_of_mem _ hd)
        · rw [strtoulBase_decimal hfirst] at hdigits
          obtain ⟨hall, rfl⟩ := hread hdigits
          exact .decimal hfirst hall
  · intro hnumeral
    cases hnumeral with
    | decimal hfirst h =>
        rw [strtoulBase_decimal hfirst]
        exact ⟨List.cons_ne_nil _ _, hwhole 10 _ h⟩
    | @octal digits h =>
        have hbase : strtoulBase ('0' :: digits) = (8, '0' :: digits) := by
          apply strtoulBase_octal
          rintro x c rest rfl ⟨hx, -⟩
          have hfirst := h x List.mem_cons_self
          rcases hx with rfl | rfl
          · exact absurd hfirst (by decide)
          · exact absurd hfirst (by decide)
        rw [hbase]
        refine ⟨List.cons_ne_nil _ _, ?_⟩
        rw [← valueOf_zero_cons]
        exact hwhole 8 _ (List.forall_mem_cons.mpr ⟨hoctal, h⟩)
    | @hexadecimal x digits hx hsome h =>
        cases digits with
        | nil => exact absurd rfl hsome
        | cons c rest =>
            rw [strtoulBase_hexadecimal hx (h c List.mem_cons_self)]
            exact ⟨List.cons_ne_nil _ _, hwhole 16 _ h⟩

/-! ## The number -/

/-- What the text says after its sign. -/
def parseMagnitude (negative : Bool) (chars : List Char) : Option Word :=
  let (base, digits) := strtoulBase chars
  let (magnitude, rest) := strtoulDigits base 0 digits
  if digits = [] ∨ rest ≠ [] then
    none
  else if magnitude ≥ 2 ^ 64 then
    none
  else
    let value := if negative then (2 ^ 64 - magnitude) % 2 ^ 64 else magnitude
    if value > 0xffffffff then none else some (BitVec.ofNat 32 value)

theorem parseMagnitude_eq_some_iff (negative : Bool) (chars : List Char) (value : Word) :
    parseMagnitude negative chars = some value ↔
      ∃ magnitude, Unsigned chars magnitude ∧ magnitude < 2 ^ 64 ∧
        value.toNat = if negative then (2 ^ 64 - magnitude) % 2 ^ 64 else magnitude := by
  unfold parseMagnitude
  constructor
  · intro h
    cases hdigits : strtoulDigits (strtoulBase chars).1 0 (strtoulBase chars).2 with
    | mk magnitude rest =>
        simp only [hdigits] at h
        split at h
        · cases h
        next hall =>
          obtain ⟨hsome, hrest⟩ := not_or.mp hall
          rw [not_not] at hrest
          subst hrest
          split at h
          · cases h
          next hbound =>
            generalize hvalue : (if negative = true then (2 ^ 64 - magnitude) % 2 ^ 64
              else magnitude) = number at h
            split at h
            · cases h
            next hword =>
              cases h
              refine ⟨magnitude, (numeral_iff chars magnitude).mp ⟨hsome, hdigits⟩,
                Nat.lt_of_not_le hbound, ?_⟩
              rw [hvalue, BitVec.toNat_ofNat]
              exact Nat.mod_eq_of_lt (by omega)
  · rintro ⟨magnitude, hnumeral, hbound, hvalue⟩
    obtain ⟨hsome, hdigits⟩ := (numeral_iff chars magnitude).mpr hnumeral
    have hall : ¬((strtoulBase chars).2 = [] ∨ ([] : List Char) ≠ []) := by
      rintro (hnone | hrest)
      · exact hsome hnone
      · exact hrest rfl
    have hword : ¬value.toNat > 0xffffffff := by
      have := value.isLt
      omega
    simp only [hdigits]
    rw [if_neg hall, if_neg (Nat.not_le_of_lt hbound), ← hvalue, if_neg hword,
      BitVec.ofNat_toNat, BitVec.setWidth_eq]

/-- A blank before the number. -/
def IsBlank (c : Char) : Prop := c = ' ' ∨ '\t' ≤ c ∧ c ≤ '\r'

instance (c : Char) : Decidable (IsBlank c) := inferInstanceAs (Decidable (_ ∨ _))

/-- What a sign makes of a magnitude; a negative number is taken modulo `2 ^ 64`. -/
inductive Signed (magnitude : Nat) (value : Word) : List Char → Prop
  | bare (h : value.toNat = magnitude) : Signed magnitude value []
  | plus (h : value.toNat = magnitude) : Signed magnitude value ['+']
  | minus (h : value.toNat = (2 ^ 64 - magnitude) % 2 ^ 64) : Signed magnitude value ['-']

/-- A numeral begins with a digit, which is neither a blank nor a sign. -/
theorem Unsigned.head {numeral : List Char} {magnitude : Nat} (h : Unsigned numeral magnitude) :
    ∃ c rest, numeral = c :: rest ∧ ¬IsBlank c ∧ c ≠ '+' ∧ c ≠ '-' := by
  have hdigit {c : Char} (hc : c.isAlphanum = true) : ¬IsBlank c ∧ c ≠ '+' ∧ c ≠ '-' := by
    refine ⟨?_, ?_, ?_⟩
    · rintro (rfl | hblank)
      · exact absurd hc (by decide)
      · have hcontrol : ∀ n ≤ 13, (Char.ofNat n).isAlphanum = false := by decide
        have hle : c.toNat ≤ 13 := UInt32.le_iff_toNat_le.mp (Char.le_def.mp hblank.2)
        have hnot := hcontrol c.toNat hle
        rw [Char.ofNat_toNat, hc] at hnot
        cases hnot
    · rintro rfl
      exact absurd hc (by decide)
    · rintro rfl
      exact absurd hc (by decide)
  cases h with
  | @decimal c digits hfirst hall => exact ⟨c, digits, rfl, hdigit (hall c List.mem_cons_self).1⟩
  | octal hall => exact ⟨'0', _, rfl, hdigit (by decide)⟩
  | hexadecimal hx hsome hall => exact ⟨'0', _, rfl, hdigit (by decide)⟩

/-- What the text says after its blanks. -/
def parseSigned : List Char → Option Word
  | '-' :: rest => parseMagnitude true rest
  | '+' :: rest => parseMagnitude false rest
  | chars => parseMagnitude false chars

theorem parseU32_eq (text : String) :
    parseU32 text = parseSigned (text.toList.dropWhile fun c => IsBlank c) := by
  have hblank : (fun c : Char => decide (IsBlank c)) =
      fun c => decide (c = ' ' ∨ '\t' ≤ c ∧ c ≤ '\r') := rfl
  unfold parseU32
  rw [hblank]
  generalize (text.toList.dropWhile fun c => decide (c = ' ' ∨ '\t' ≤ c ∧ c ≤ '\r')) = chars
  unfold parseSigned
  split
  · rfl
  · rfl
  · next hminus hplus =>
      dsimp only
      split
      · exact (hminus _ rfl).elim
      · exact (hplus _ rfl).elim
      · rfl

theorem parseSigned_numeral {numeral : List Char} {magnitude : Nat}
    (h : Unsigned numeral magnitude) : parseSigned numeral = parseMagnitude false numeral := by
  obtain ⟨c, rest, rfl, -, hplus, hminus⟩ := h.head
  unfold parseSigned
  split
  · next heq =>
      cases heq
      exact absurd rfl hminus
  · next heq =>
      cases heq
      exact absurd rfl hplus
  · rfl

/-- A text is a number exactly when it is blanks, a sign and a numeral, and then it is
the number of 32 bits these stand for. -/
theorem parseU32_eq_some_iff (text : String) (value : Word) :
    parseU32 text = some value ↔
      ∃ blanks sign numeral magnitude, text.toList = blanks ++ (sign ++ numeral) ∧
        (∀ c ∈ blanks, IsBlank c) ∧ Unsigned numeral magnitude ∧ magnitude < 2 ^ 64 ∧
          Signed magnitude value sign := by
  rw [parseU32_eq]
  constructor
  · intro h
    have hsplit := (@List.takeWhile_append_dropWhile Char (fun c => IsBlank c) text.toList).symm
    have hblanks : ∀ c ∈ text.toList.takeWhile fun c => IsBlank c, IsBlank c := by
      intro c hc
      simpa using List.mem_takeWhile_imp hc
    generalize (text.toList.dropWhile fun c => IsBlank c) = chars at h hsplit
    unfold parseSigned at h
    split at h
    · obtain ⟨magnitude, hnumeral, hbound, hvalue⟩ := (parseMagnitude_eq_some_iff _ _ _).mp h
      exact ⟨_, ['-'], _, magnitude, hsplit, hblanks, hnumeral, hbound, .minus hvalue⟩
    · obtain ⟨magnitude, hnumeral, hbound, hvalue⟩ := (parseMagnitude_eq_some_iff _ _ _).mp h
      exact ⟨_, ['+'], _, magnitude, hsplit, hblanks, hnumeral, hbound, .plus hvalue⟩
    · obtain ⟨magnitude, hnumeral, hbound, hvalue⟩ := (parseMagnitude_eq_some_iff _ _ _).mp h
      exact ⟨_, [], _, magnitude, hsplit, hblanks, hnumeral, hbound, .bare hvalue⟩
  · rintro ⟨blanks, sign, numeral, magnitude, htext, hblanks, hnumeral, hbound, hsigned⟩
    have hdrop (c : Char) (rest : List Char) (hc : ¬IsBlank c) :
        (blanks ++ c :: rest).dropWhile (fun c => IsBlank c) = c :: rest := by
      rw [List.dropWhile_append_of_pos fun d hd => decide_eq_true (hblanks d hd)]
      exact List.dropWhile_cons_of_neg (by simpa using hc)
    rw [htext]
    cases hsigned with
    | bare h =>
        have hhead := hnumeral.head
        obtain ⟨c, rest, rfl, hc, -⟩ := hhead
        rw [List.nil_append, hdrop c rest hc, parseSigned_numeral hnumeral]
        exact (parseMagnitude_eq_some_iff _ _ _).mpr ⟨magnitude, hnumeral, hbound, h⟩
    | plus h =>
        rw [List.singleton_append, hdrop '+' numeral (by decide)]
        exact (parseMagnitude_eq_some_iff _ _ _).mpr ⟨magnitude, hnumeral, hbound, h⟩
    | minus h =>
        rw [List.singleton_append, hdrop '-' numeral (by decide)]
        exact (parseMagnitude_eq_some_iff _ _ _).mpr ⟨magnitude, hnumeral, hbound, h⟩

end WchLink
