import Mathlib.Tactic.Common

/-! # Words that agree outside a mask

A register is written field by field: the new value agrees with the old one
outside the bits that are meant to change. Masks compose by union, and clearing
a mask undoes whatever was done inside it.
-/

namespace Masks

variable {w : Nat} {mask more first second third value : BitVec w}

/-- The words differ in bits of the mask only. -/
def AgreeOutside (mask first second : BitVec w) : Prop := first &&& ~~~mask = second &&& ~~~mask

instance (mask first second : BitVec w) : Decidable (AgreeOutside mask first second) :=
  inferInstanceAs (Decidable (_ = _))

theorem agreeOutside_iff :
    AgreeOutside mask first second ↔ ∀ i (hi : i < w), mask[i] = false → first[i] = second[i] := by
  unfold AgreeOutside
  constructor
  · intro h i hi hmask
    have hbit := congrArg (fun word => word[i]) h
    simpa [hmask] using hbit
  · intro h
    ext i hi
    cases hmask : mask[i] with
    | true => simp [hmask]
    | false => simp [hmask, h i hi hmask]

namespace AgreeOutside

@[refl] theorem refl (mask first : BitVec w) : AgreeOutside mask first first := rfl

@[symm] theorem symm (h : AgreeOutside mask first second) : AgreeOutside mask second first :=
  Eq.symm h

@[trans] theorem trans (h : AgreeOutside mask first second) (h' : AgreeOutside mask second third) :
    AgreeOutside mask first third :=
  Eq.trans h h'

/-- A mask may grow. -/
theorem mono (h : AgreeOutside mask first second) (hmask : mask &&& ~~~more = 0) :
    AgreeOutside more first second := by
  rw [agreeOutside_iff] at h ⊢
  intro i hi hmore
  apply h i hi
  have hbit := congrArg (fun word => word[i]) hmask
  simpa [hmore] using hbit

theorem inLeft (h : AgreeOutside mask first second) (more : BitVec w) :
    AgreeOutside (mask ||| more) first second := by
  rw [agreeOutside_iff] at h ⊢
  intro i hi hbits
  apply h i hi
  rw [BitVec.getElem_or, Bool.or_eq_false_iff] at hbits
  exact hbits.1

theorem inRight (h : AgreeOutside mask first second) (more : BitVec w) :
    AgreeOutside (more ||| mask) first second := by
  rw [BitVec.or_comm]
  exact h.inLeft more

/-- Setting bits of the mask. -/
theorem set (value : BitVec w) (hmask : more &&& ~~~mask = 0) :
    AgreeOutside mask (value ||| more) value := by
  rw [agreeOutside_iff]
  intro i hi hbit
  have hclear := congrArg (fun word => word[i]) hmask
  have hmore : more[i] = false := by simpa [hbit] using hclear
  simp [hmore]

/-- Clearing all bits of the mask. -/
theorem clear (mask value : BitVec w) : AgreeOutside mask (value &&& ~~~mask) value := by
  rw [agreeOutside_iff]
  intro i hi hbit
  simp [hbit]

/-- Clearing a part of the mask leaves the rest, where the second word has none
of that part. -/
theorem restore (h : AgreeOutside (mask ||| more) first second) (hclear : second &&& more = 0) :
    AgreeOutside mask (first &&& ~~~more) second := by
  rw [agreeOutside_iff] at h ⊢
  intro i hi hbit
  have hsecond := congrArg (fun word => word[i]) hclear
  have hfirst := h i hi
  rw [BitVec.getElem_or, hbit, Bool.false_or] at hfirst
  rw [BitVec.getElem_and, BitVec.getElem_not]
  cases hmore : more[i] with
  | true =>
      rw [BitVec.getElem_and, hmore, Bool.and_true] at hsecond
      simpa using hsecond.symm
  | false => simpa using hfirst hmore

/-- Bits outside the mask are the same. -/
theorem bits (h : AgreeOutside mask first second) (hmask : mask &&& more = 0) :
    first &&& more = second &&& more := by
  rw [agreeOutside_iff] at h
  ext i hi
  have hbit := congrArg (fun word => word[i]) hmask
  rw [BitVec.getElem_and, BitVec.getElem_and]
  cases hmore : more[i] with
  | true =>
      have hclear : mask[i] = false := by simpa [hmore] using hbit
      rw [h i hi hclear]
  | false => simp

end AgreeOutside

/-- A write to a register of which only the bits of the mask can be written. -/
def assign (mask value old : BitVec w) : BitVec w := old &&& ~~~mask ||| value &&& mask

theorem assign_agree (mask value old : BitVec w) :
    AgreeOutside (~~~mask) (assign mask value old) value := by
  rw [agreeOutside_iff]
  intro i hi hbit
  have hmask : mask[i] = true := by simpa using hbit
  simp [assign, hmask]

end Masks
