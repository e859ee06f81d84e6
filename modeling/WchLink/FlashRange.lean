import WchLink.Gdb.Target

/-! # The range guard

The guard adds a length of up to 64 bits to the start of the range in 64 bits.
Against the same sum without a bound it goes wrong exactly where the sum wraps
and what is left of it lies below the end of the flash.
-/

namespace WchLink

open Bytes

/-- Where the range starts, without the alias at zero. -/
def mappedStart (chip : Chip) (address : Word) : Nat :=
  if chip.flashBase = 0x08000000 ∧ address.toNat < 2 ^ 24 then
    0x08000000 + address.toNat
  else
    address.toNat

/-- The range lies in the part's flash. -/
def InsideFlash (chip : Chip) (address : Word) (length : Nat) : Prop :=
  chip.flashBase.toNat ≤ mappedStart chip address ∧
    mappedStart chip address + length ≤ chip.flashBase.toNat + chip.flashSize.toNat

/-- The same place of flash through its two addresses. -/
def Chip.Aliases (chip : Chip) (address mirror : Word) : Prop :=
  chip.flashBase = 0x08000000 ∧ address.toNat < 2 ^ 24 ∧
    mirror.toNat = 0x08000000 + address.toNat

/-- The guard tells exactly whether the range is inside, tells the same of both
addresses of a place, and the server maps addresses as it does. -/
structure RangeExact (chip : Chip) (address : Word) (length : BitVec 64) : Prop where
  exact : wlFlashRangeOk (some chip) address length = true ↔
    InsideFlash chip address length.toNat
  aliased : ∀ mirror, chip.Aliases address mirror ∨ chip.Aliases mirror address →
    wlFlashRangeOk (some chip) mirror length = wlFlashRangeOk (some chip) address length
  mapped : (gdbNormaliseFlash chip address).toNat = mappedStart chip address ∧
    gdbNormaliseFlash chip address = normalise chip address

/-- The end of the range does not fit 64 bits, and the part of it that does is
below the end of the flash. -/
def EndWraps (chip : Chip) (address : Word) (length : BitVec 64) : Prop :=
  chip.flashBase.toNat ≤ mappedStart chip address ∧
    2 ^ 64 ≤ mappedStart chip address + length.toNat ∧
    mappedStart chip address + length.toNat - 2 ^ 64 ≤
      chip.flashBase.toNat + chip.flashSize.toNat

theorem topByte_eq_zero_iff (address : Word) :
    address &&& 0xff000000 = 0 ↔ address.toNat < 2 ^ 24 := by
  have hhigh : (address &&& 0xff000000).toNat = address.toNat - address.toNat % 2 ^ 24 :=
    toNat_and_high address (by decide : 24 ≤ 32)
  have hzero : (0 : Word).toNat = 0 := rfl
  rw [← BitVec.toNat_inj, hhigh, hzero]
  omega

theorem toNat_or_base {address : Word} (hsmall : address.toNat < 2 ^ 24) :
    (address ||| 0x08000000).toNat = 0x08000000 + address.toNat := by
  have hdisjoint : address &&& 0x08000000 = 0#32 := by
    have hmask : (0x08000000 : Word) = 0xff000000 &&& 0x08000000 := by decide
    rw [hmask, ← BitVec.and_assoc, (topByte_eq_zero_iff address).mpr hsmall]
    simp
  rw [← BitVec.add_eq_or_of_and_eq_zero _ _ hdisjoint,
    BitVec.toNat_add_of_and_eq_zero hdisjoint, Nat.add_comm]
  rfl

theorem toNat_normalise (chip : Chip) (address : Word) :
    (normalise chip address).toNat = mappedStart chip address := by
  unfold normalise mappedStart
  by_cases halias : chip.flashBase = 0x08000000 ∧ address.toNat < 2 ^ 24
  · rw [if_pos halias, if_pos ⟨halias.1, (topByte_eq_zero_iff address).mpr halias.2⟩]
    exact toNat_or_base halias.2
  · rw [if_neg halias, if_neg fun h => halias ⟨h.1, (topByte_eq_zero_iff address).mp h.2⟩]

/-- Both addresses of a place are mapped to the same start. -/
theorem Chip.Aliases.start {chip : Chip} {address mirror : Word} (h : chip.Aliases address mirror) :
    normalise chip mirror = normalise chip address := by
  obtain ⟨hbase, hsmall, halias⟩ := h
  apply BitVec.eq_of_toNat_eq
  rw [toNat_normalise, toNat_normalise]
  have haddress : mappedStart chip address = 0x08000000 + address.toNat :=
    if_pos ⟨hbase, hsmall⟩
  have hmirror : mappedStart chip mirror = mirror.toNat := if_neg fun h => by omega
  rw [haddress, hmirror, halias]

theorem wlFlashRangeOk_congr {chip : Chip} {first second : Word}
    (hstart : normalise chip first = normalise chip second) (length : BitVec 64) :
    wlFlashRangeOk (some chip) first length = wlFlashRangeOk (some chip) second length := by
  unfold wlFlashRangeOk
  dsimp only
  rw [hstart]

theorem chips_flashSize : ∀ chip ∈ chips, chip.flashSize ≠ 0 := by decide

/-- The guard compares the sum as 64 bits hold it. -/
theorem wlFlashRangeOk_iff {chip : Chip} (hsize : chip.flashSize ≠ 0) (address : Word)
    (length : BitVec 64) :
    wlFlashRangeOk (some chip) address length = true ↔
      chip.flashBase.toNat ≤ mappedStart chip address ∧
        (mappedStart chip address + length.toNat) % 2 ^ 64 ≤
          chip.flashBase.toNat + chip.flashSize.toNat := by
  have hbase := chip.flashBase.isLt
  have hflash := chip.flashSize.isLt
  have hstart := (normalise chip address).isLt
  unfold wlFlashRangeOk
  dsimp only
  rw [if_neg hsize, decide_eq_true_iff, ← toNat_normalise]
  simp only [ge_iff_le, BitVec.le_def, BitVec.toNat_add, BitVec.toNat_setWidth]
  rw [Nat.mod_eq_of_lt (by omega : (normalise chip address).toNat < 2 ^ 64),
    Nat.mod_eq_of_lt (by omega : chip.flashBase.toNat < 2 ^ 64),
    Nat.mod_eq_of_lt (by omega : chip.flashSize.toNat < 2 ^ 64),
    Nat.mod_eq_of_lt (by omega : chip.flashBase.toNat + chip.flashSize.toNat < 2 ^ 64)]

/-- The guard is exact but for ends that wrap. -/
theorem rangeExact_iff (chip : Chip) (hchip : chip ∈ chips) (address : Word)
    (length : BitVec 64) : RangeExact chip address length ↔ ¬EndWraps chip address length := by
  have hguard := wlFlashRangeOk_iff (chips_flashSize chip hchip) address length
  have hlength := length.isLt
  have hstart : mappedStart chip address < 2 ^ 32 := by
    rw [← toNat_normalise]
    exact (normalise chip address).isLt
  have hbase := chip.flashBase.isLt
  have hflash := chip.flashSize.isLt
  constructor
  · rintro ⟨hexact, -, -⟩ ⟨hlow, hwide, hleft⟩
    have hinside := hexact.mp (hguard.mpr ⟨hlow, by omega⟩)
    have hend := hinside.2
    omega
  · intro hwraps
    unfold EndWraps at hwraps
    refine ⟨?_, ?_, toNat_normalise chip address, rfl⟩
    · rw [hguard, InsideFlash]
      omega
    · rintro mirror (halias | halias)
      · exact wlFlashRangeOk_congr halias.start length
      · exact wlFlashRangeOk_congr halias.start.symm length

theorem rangeExact_iff_page : RangeExact ch32v003 0 64 :=
  (rangeExact_iff ch32v003 (List.Mem.head _) 0 64).mpr fun hwraps =>
    absurd hwraps.2.1 (by decide)

/-- A length of all ones from the second halfword of flash on passes the guard. -/
theorem not_rangeExact_wraps : ¬RangeExact ch32v003 0x08000002 (-1) := by
  intro hexact
  have hguard : wlFlashRangeOk (some ch32v003) 0x08000002 (-1) = true := by decide
  have hend := (hexact.exact.mp hguard).2
  exact absurd hend (by decide)

end WchLink
