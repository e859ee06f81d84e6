import Mathlib.Tactic.Common
import Mathlib.Tactic.IntervalCases

/-! # Bytes, words and byte memories

Fixed-width data as a wire or a memory holds it: the two byte orders of a
32-bit word and their round trips, and a byte memory overlaid with a run of
bytes.
-/

namespace Bytes

/-- An eight-bit byte. -/
abbrev Byte : Type := BitVec 8

/-- A 32-bit machine word. -/
abbrev Word : Type := BitVec 32

/-- Byte `i` of a word, counted from the least significant end. -/
def byteOf (word : Word) (i : Nat) : Byte := (word >>> (8 * i)).setWidth 8

/-- The word whose bytes, least significant first, are the given ones. -/
def wordLe (b0 b1 b2 b3 : Byte) : Word :=
  b0.setWidth 32 ||| (b1.setWidth 32 <<< 8) ||| (b2.setWidth 32 <<< 16) |||
    (b3.setWidth 32 <<< 24)

theorem getLsbD_byteOf (word : Word) (i j : Nat) :
    (byteOf word i).getLsbD j = (decide (j < 8) && word.getLsbD (8 * i + j)) := by
  simp [byteOf]

theorem getLsbD_wordLe (b0 b1 b2 b3 : Byte) {j : Nat} (hj : j < 8) :
    (wordLe b0 b1 b2 b3).getLsbD j = b0.getLsbD j ∧
    (wordLe b0 b1 b2 b3).getLsbD (8 + j) = b1.getLsbD j ∧
    (wordLe b0 b1 b2 b3).getLsbD (16 + j) = b2.getLsbD j ∧
    (wordLe b0 b1 b2 b3).getLsbD (24 + j) = b3.getLsbD j := by
  simp only [wordLe, BitVec.getLsbD_or, BitVec.getLsbD_shiftLeft, BitVec.getLsbD_setWidth]
  interval_cases j <;> simp

/-- Taking a word apart and putting it together again gives the word. -/
@[simp] theorem wordLe_byteOf (word : Word) :
    wordLe (byteOf word 0) (byteOf word 1) (byteOf word 2) (byteOf word 3) = word := by
  apply BitVec.eq_of_getLsbD_eq
  intro j hj
  obtain ⟨h0, h1, h2, h3⟩ := getLsbD_wordLe (byteOf word 0) (byteOf word 1) (byteOf word 2)
    (byteOf word 3) (Nat.mod_lt j (by decide : 0 < 8))
  simp only [getLsbD_byteOf, Nat.mod_lt j (by decide : 0 < 8), decide_true, Bool.true_and] at *
  have hsplit : j = 8 * (j / 8) + j % 8 := (Nat.div_add_mod j 8).symm
  have hpart : j / 8 < 4 := by omega
  rw [hsplit]
  interval_cases j / 8
  · simpa using h0
  · exact h1
  · exact h2
  · exact h3

theorem byteOf_wordLe (b0 b1 b2 b3 : Byte) :
    byteOf (wordLe b0 b1 b2 b3) 0 = b0 ∧ byteOf (wordLe b0 b1 b2 b3) 1 = b1 ∧
      byteOf (wordLe b0 b1 b2 b3) 2 = b2 ∧ byteOf (wordLe b0 b1 b2 b3) 3 = b3 := by
  refine ⟨?_, ?_, ?_, ?_⟩
  all_goals
    apply BitVec.eq_of_getLsbD_eq
    intro j hj
    obtain ⟨h0, h1, h2, h3⟩ := getLsbD_wordLe b0 b1 b2 b3 hj
    rw [getLsbD_byteOf]
    simp only [hj, decide_true, Bool.true_and, Nat.mul_zero, Nat.zero_add]
    assumption

/-! ## Masks -/

theorem toNat_and_low (word : Word) {k : Nat} (hk : k ≤ 32) :
    (word &&& BitVec.ofNat 32 (2 ^ k - 1)).toNat = word.toNat % 2 ^ k := by
  have hmask : 2 ^ k - 1 < 2 ^ 32 := by
    have hpow : 2 ^ k ≤ 2 ^ 32 := Nat.pow_le_pow_right (by decide) hk
    have hpos : 0 < 2 ^ k := Nat.two_pow_pos k
    omega
  rw [BitVec.toNat_and, BitVec.toNat_ofNat, Nat.mod_eq_of_lt hmask,
    Nat.and_two_pow_sub_one_eq_mod]

/-- Clearing the low bits rounds down. -/
theorem toNat_and_high (word : Word) {k : Nat} (hk : k ≤ 32) :
    (word &&& ~~~BitVec.ofNat 32 (2 ^ k - 1)).toNat = word.toNat - word.toNat % 2 ^ k := by
  have hdisjoint : word &&& BitVec.ofNat 32 (2 ^ k - 1) &&&
      (word &&& ~~~BitVec.ofNat 32 (2 ^ k - 1)) = 0#32 := by
    ext i hi
    simp only [BitVec.getElem_and, BitVec.getElem_not, BitVec.getElem_zero]
    cases word[i] <;> cases (BitVec.ofNat 32 (2 ^ k - 1))[i] <;> rfl
  have hwhole : (word &&& BitVec.ofNat 32 (2 ^ k - 1)) |||
      (word &&& ~~~BitVec.ofNat 32 (2 ^ k - 1)) = word := by
    ext i hi
    simp only [BitVec.getElem_and, BitVec.getElem_or, BitVec.getElem_not]
    cases word[i] <;> cases (BitVec.ofNat 32 (2 ^ k - 1))[i] <;> rfl
  have hsum := BitVec.toNat_add_of_and_eq_zero hdisjoint
  rw [BitVec.add_eq_or_of_and_eq_zero _ _ hdisjoint, hwhole, toNat_and_low word hk] at hsum
  omega

/-- A word loaded byte by byte has the bytes it was loaded from. -/
theorem byteOf_setWidth (byte : Byte) : byteOf (byte.setWidth 32) 0 = byte := by
  simp [byteOf]

end Bytes
