import WchLink.BlockRead
import WchLink.SimulatorAccess

/-! # The simulated target's memory map

Which addresses reach the flash array and the RAM array, and what single loads
return there.
-/

namespace WchLink

open Bytes Interaction

theorem simFlashOffset_eq (address : Word) : simFlashOffset address = address.toNat % 2 ^ 24 :=
  toNat_and_low address (by decide : 24 ≤ 32)

theorem toNat_and_page (address : Word) :
    (address &&& 0xff000000).toNat = address.toNat - address.toNat % 2 ^ 24 :=
  toNat_and_high address (by decide : 24 ≤ 32)

theorem simIsFlash_iff (address : Word) :
    simIsFlash address = true ↔
      address.toNat < 2 ^ 24 ∨ 0x08000000 ≤ address.toNat ∧ address.toNat < 0x09000000 := by
  have hpage := toNat_and_page address
  have hflash : address &&& 0xff000000 = 0x08000000 ↔
      (address &&& 0xff000000).toNat = 0x08000000 := BitVec.toNat_inj.symm
  have halias : address &&& 0xff000000 = 0 ↔ (address &&& 0xff000000).toNat = 0 :=
    BitVec.toNat_inj.symm
  simp only [simIsFlash, decide_eq_true_eq, hflash, halias]
  omega

theorem simIsCtrl_iff (address : Word) :
    simIsCtrl address = true ↔ 0x40022000 ≤ address.toNat ∧ address.toNat < 0x40022400 := by
  simp only [simIsCtrl, decide_eq_true_eq, ge_iff_le, BitVec.le_def, BitVec.lt_def]
  exact Iff.rfl

/-- The word of a register of the controller is among the controller's addresses. -/
theorem simIsCtrl_word {address register : Word} (hregister : simIsCtrl register = true)
    (hword : address &&& ~~~3 = register) : simIsCtrl address = true := by
  have hmask : (3 : Word) = BitVec.ofNat 32 (2 ^ 2 - 1) := rfl
  have hvalue := congrArg BitVec.toNat hword
  rw [hmask, toNat_and_high address (by decide : 2 ≤ 32)] at hvalue
  rw [simIsCtrl_iff] at hregister ⊢
  omega

/-- Outside the controller's addresses every store is permitted. -/
theorem SimTarget.permits_elsewhere {target : SimTarget} {writable : Nat → Prop}
    {address : Word} (h : simIsCtrl address = false) (value : Word) :
    target.Permits writable address value where
  status := fun hword => Bool.false_ne_true (h.symm.trans (simIsCtrl_word rfl hword))
  page := fun hword => absurd (h.symm.trans (simIsCtrl_word rfl hword)) Bool.false_ne_true

/-- A range of a part's flash, through either of its two mappings. -/
structure Chip.InFlash (chip : Chip) (address : Word) (count : Nat) : Prop where
  small : chip.flashSize.toNat ≤ 2 ^ 24
  window : simIsFlash address = true
  inside : simFlashOffset address + count ≤ chip.flashSize.toNat

namespace Chip.InFlash

variable {chip : Chip} {address : Word} {count : Nat}

theorem notCtrl (h : chip.InFlash address count) : simIsCtrl address = false := by
  have hwindow := (simIsFlash_iff address).1 h.window
  rw [← Bool.not_eq_true, simIsCtrl_iff]
  omega

theorem offset_add {i : Nat} (h : chip.InFlash address (i + count)) (hcount : 0 < count) :
    simFlashOffset (address + BitVec.ofNat 32 i) = simFlashOffset address + i := by
  have hwindow := (simIsFlash_iff address).1 h.window
  have hinside := h.inside
  have hsmall := h.small
  rw [simFlashOffset_eq] at hinside ⊢
  rw [simFlashOffset_eq, BitVec.toNat_add, BitVec.toNat_ofNat]
  omega

theorem add {i : Nat} (h : chip.InFlash address (i + count)) (hcount : 0 < count) :
    chip.InFlash (address + BitVec.ofNat 32 i) count where
  small := h.small
  window := by
    have hwindow := (simIsFlash_iff address).1 h.window
    have hinside := h.inside
    have hsmall := h.small
    rw [simFlashOffset_eq] at hinside
    rw [simIsFlash_iff, BitVec.toNat_add, BitVec.toNat_ofNat]
    omega
  inside := by
    have hinside := h.inside
    rw [h.offset_add hcount]
    omega

theorem mono {count' : Nat} (h : chip.InFlash address count) (hcount : count' ≤ count) :
    chip.InFlash address count' :=
  ⟨h.small, h.window, Nat.le_trans (Nat.add_le_add_left hcount _) h.inside⟩

end Chip.InFlash

/-- Where an address lies in the RAM array. -/
def simRamOffset (chip : Chip) (address : Word) : Nat := (address - chip.ramOffset).toNat

/-- A range of a part's RAM. -/
structure Chip.InRam (chip : Chip) (address : Word) (count : Nat) : Prop where
  above : 0x09000000 ≤ chip.ramOffset.toNat
  below : chip.ramOffset.toNat + chip.ramSize.toNat ≤ 0x40022000
  start : chip.ramOffset.toNat ≤ address.toNat
  inside : address.toNat + count ≤ chip.ramOffset.toNat + chip.ramSize.toNat

namespace Chip.InRam

variable {chip : Chip} {address : Word} {count : Nat}

theorem offset (h : chip.InRam address count) :
    simRamOffset chip address = address.toNat - chip.ramOffset.toNat := by
  have hstart := h.start
  rw [simRamOffset, BitVec.toNat_sub]
  omega

theorem notCtrl (h : chip.InRam address count) (hcount : 0 < count) :
    simIsCtrl address = false := by
  have hinside := h.inside
  have hbelow := h.below
  rw [← Bool.not_eq_true, simIsCtrl_iff]
  omega

theorem notFlash (h : chip.InRam address count) : simIsFlash address = false := by
  have hstart := h.start
  have habove := h.above
  rw [← Bool.not_eq_true, simIsFlash_iff]
  omega

theorem isRam {target : SimTarget} (h : target.chip.InRam address count) (hcount : 0 < count) :
    simIsRam target address = true := by
  have hstart := h.start
  have hinside := h.inside
  rw [simIsRam, decide_eq_true_eq, ge_iff_le, BitVec.le_def, SimTarget.ramSize]
  omega

theorem fits {target : SimTarget} (h : target.chip.InRam address count) :
    ¬simRamOffset target.chip address + count > target.ramSize := by
  have hstart := h.start
  have hinside := h.inside
  rw [h.offset, SimTarget.ramSize]
  omega

theorem toNat_add {i : Nat} (h : chip.InRam address (i + count)) :
    (address + BitVec.ofNat 32 i).toNat = address.toNat + i := by
  have hinside := h.inside
  have hbelow := h.below
  rw [BitVec.toNat_add, BitVec.toNat_ofNat]
  omega

theorem add {i : Nat} (h : chip.InRam address (i + count)) :
    chip.InRam (address + BitVec.ofNat 32 i) count where
  above := h.above
  below := h.below
  start := by
    have hstart := h.start
    rw [h.toNat_add]
    omega
  inside := by
    have hinside := h.inside
    rw [h.toNat_add]
    omega

theorem mono {count' : Nat} (h : chip.InRam address count) (hcount : count' ≤ count) :
    chip.InRam address count' :=
  ⟨h.above, h.below, h.start, Nat.le_trans (Nat.add_le_add_left hcount _) h.inside⟩

theorem offset_add {i : Nat} (h : chip.InRam address (i + count)) :
    simRamOffset chip (address + BitVec.ofNat 32 i) = simRamOffset chip address + i := by
  have hstart := h.start
  rw [h.add.offset, h.offset, h.toNat_add]
  omega

end Chip.InRam

/-! ## Loads -/

theorem loadBytes_one (memory : Nat → Byte) (offset : Nat) :
    loadBytes memory offset 1 = (memory offset).setWidth 32 := by
  simp [loadBytes]

theorem loadBytes_four (memory : Nat → Byte) (offset : Nat) :
    loadBytes memory offset 4 = wordLe (memory offset) (memory (offset + 1))
      (memory (offset + 2)) (memory (offset + 3)) := by
  simp [loadBytes, wordLe]

/-- Loads of this width at this address read an array at an offset. -/
def SimTarget.LoadsFrom (target : SimTarget) (address : Word) (size : Width)
    (memory : Nat → Byte) (offset : Nat) : Prop :=
  ∀ value, simAccess target address size.exponent false value =
    (target, loadValue memory offset size.exponent)

theorem SimTarget.loadsFrom_flash {target : SimTarget} {address : Word} {size : Width}
    (h : target.chip.InFlash address (2 ^ size.exponent)) :
    target.LoadsFrom address size target.flash (simFlashOffset address) := by
  intro value
  have hinside : ¬simFlashOffset address + 2 ^ size.exponent > target.flashSize :=
    Nat.not_lt.2 h.inside
  simp [simAccess, h.notCtrl, h.window, hinside]

theorem SimTarget.loadsFrom_ram {target : SimTarget} {address : Word} {size : Width}
    (h : target.chip.InRam address (2 ^ size.exponent)) :
    target.LoadsFrom address size target.ram (simRamOffset target.chip address) := by
  intro value
  have hpositive : 0 < 2 ^ size.exponent := Nat.two_pow_pos _
  have hfits : ¬(address - target.chip.ramOffset).toNat + 2 ^ size.exponent > target.ramSize :=
    h.fits
  unfold simAccess
  rw [if_neg (by rw [h.notCtrl hpositive]; exact Bool.false_ne_true),
    if_neg (by rw [h.notFlash]; exact Bool.false_ne_true), if_pos (h.isRam hpositive)]
  dsimp only
  rw [if_neg hfits, if_neg Bool.false_ne_true]
  rfl

namespace SimTarget.LoadsFrom

variable {target : SimTarget} {address : Word} {size : Width} {memory : Nat → Byte} {offset : Nat}
  {handler : Handler Usb Sim} {link : Link} {writable : Nat → Prop}

theorem afterLoad (h : target.LoadsFrom address size memory offset) :
    target.afterLoad size address = target := by
  rw [SimTarget.afterLoad, h 0]

theorem loaded_byte (h : target.LoadsFrom address .byte memory offset) :
    target.loaded .byte address = (memory offset).setWidth 32 := by
  have hmask : (memory offset).setWidth 32 &&& 0xff = (memory offset).setWidth 32 := by
    apply BitVec.eq_of_toNat_eq
    have hlow := toNat_and_low ((memory offset).setWidth 32) (by decide : 8 ≤ 32)
    have hbyte := (memory offset).isLt
    refine hlow.trans ?_
    rw [BitVec.toNat_setWidth]
    omega
  rw [SimTarget.loaded, h 0]
  simp only [if_true, loadValue, Width.exponent, pow_zero, loadBytes_one]
  rw [if_neg (by decide), hmask]

theorem loaded_word (h : target.LoadsFrom address .word memory offset) :
    target.loaded .word address = wordLe (memory offset) (memory (offset + 1))
      (memory (offset + 2)) (memory (offset + 3)) := by
  rw [SimTarget.loaded, h 0, ← loadBytes_four]
  rfl

theorem drives_byte (port : TargetPort handler link writable)
    (h : target.LoadsFrom address .byte memory offset) :
    Drives handler targetSurface (dmReadSized link .byte address).run target
      (.ok ((memory offset).setWidth 32)) target := by
  have hread := port.read .byte address target
  rwa [h.afterLoad, h.loaded_byte] at hread

theorem drives_word (port : TargetPort handler link writable)
    (h : target.LoadsFrom address .word memory offset) :
    Drives handler targetSurface (wlDmRead32 link address).run target
      (.ok (wordLe (memory offset) (memory (offset + 1)) (memory (offset + 2))
        (memory (offset + 3)))) target := by
  have hread := port.read .word address target
  rwa [h.afterLoad, h.loaded_word] at hread

end SimTarget.LoadsFrom

/-- Where every load of a range reads one array, a block read of it does. -/
theorem readable_of_array {σ τ : Type} {handler : Handler Usb σ} {surface : Surface σ τ}
    {link : Link} {state : τ} {memory : Nat → Byte} {bytes : Word → Byte} {address : Word}
    {offset count : Nat}
    (hbytes : ∀ i < count, bytes (address + BitVec.ofNat 32 i) = memory (offset + i))
    (hbyte : ∀ i < count, Drives handler surface
      (dmReadSized link .byte (address + BitVec.ofNat 32 i)).run state
      (.ok ((memory (offset + i)).setWidth 32)) state)
    (hword : ∀ i, i + 4 ≤ count → Drives handler surface
      (wlDmRead32 link (address + BitVec.ofNat 32 i)).run state
      (.ok (wordLe (memory (offset + i)) (memory (offset + i + 1)) (memory (offset + i + 2))
        (memory (offset + i + 3)))) state) :
    Readable handler surface link state bytes address count where
  byte i hi := ⟨_, (byteOf_setWidth _).trans (hbytes i hi).symm, hbyte i hi⟩
  word := by
    intro i hi _
    refine ⟨_, ?_, hword i hi⟩
    obtain ⟨h0, h1, h2, h3⟩ := byteOf_wordLe (memory (offset + i)) (memory (offset + i + 1))
      (memory (offset + i + 2)) (memory (offset + i + 3))
    rw [h0, h1, h2, h3]
    apply List.ext_getElem (by simp [bytesFrom_length])
    intro j hj hj'
    rw [bytesFrom_length] at hj'
    have hget := bytesFrom_getD bytes (address + BitVec.ofNat 32 i) hj'
    rw [BitVec.add_assoc, ← BitVec.ofNat_add, hbytes _ (by omega),
      List.getD_eq_getElem _ _ (by rwa [bytesFrom_length])] at hget
    rw [hget, ← Nat.add_assoc]
    interval_cases j <;> rfl

theorem readable_flash {handler : Handler Usb Sim} {link : Link} {writable : Nat → Prop}
    (port : TargetPort handler link writable) {target : SimTarget} {address : Word}
    {count : Nat} (h : target.chip.InFlash address count) :
    Readable handler targetSurface link target (fun a => target.flash (simFlashOffset a))
      address count := by
  apply readable_of_array
  · intro i hi
    have hin : target.chip.InFlash address (i + 1) := h.mono hi
    rw [hin.offset_add (by omega)]
  · intro i hi
    have hin : target.chip.InFlash address (i + 1) := h.mono hi
    rw [← hin.offset_add (by omega)]
    exact (SimTarget.loadsFrom_flash (hin.add (by omega))).drives_byte port
  · intro i hi
    have hin : target.chip.InFlash address (i + 4) := h.mono hi
    rw [← hin.offset_add (by omega)]
    exact (SimTarget.loadsFrom_flash (hin.add (by omega))).drives_word port

theorem readable_ram {link : Link} (hlink : link.Usable) {target : SimTarget} {address : Word}
    {count : Nat} (h : target.chip.InRam address count) :
    Readable simulator targetSurface link target
      (fun a => target.ram (simRamOffset target.chip a)) address count := by
  apply readable_of_array
  · intro i hi
    have hin : target.chip.InRam address (i + 1) := h.mono hi
    rw [hin.offset_add]
  · intro i hi
    have hin : target.chip.InRam address (i + 1) := h.mono hi
    rw [← hin.offset_add]
    exact (SimTarget.loadsFrom_ram hin.add).drives_byte (simulatorPort hlink)
  · intro i hi
    have hin : target.chip.InRam address (i + 4) := h.mono hi
    rw [← hin.offset_add]
    exact (SimTarget.loadsFrom_ram hin.add).drives_word (simulatorPort hlink)

/-! ## Accesses anywhere

Every load and store is answered, at any address.
-/

/-- Loads count the controller's busy reads down and move nothing else. -/
structure SimTarget.Unmoved (before after : SimTarget) : Prop where
  chip : after.chip = before.chip
  flash : after.flash = before.flash
  ram : after.ram = before.ram
  ctlr : after.ctlr = before.ctlr
  programErrors : after.programErrors = before.programErrors
  busyReads : after.busyReads ≤ before.busyReads

namespace SimTarget.Unmoved

theorem refl (target : SimTarget) : target.Unmoved target :=
  ⟨rfl, rfl, rfl, rfl, rfl, Nat.le_refl _⟩

theorem trans {first second third : SimTarget} (h : first.Unmoved second)
    (h' : second.Unmoved third) : first.Unmoved third where
  chip := h'.chip.trans h.chip
  flash := h'.flash.trans h.flash
  ram := h'.ram.trans h.ram
  ctlr := h'.ctlr.trans h.ctlr
  programErrors := h'.programErrors.trans h.programErrors
  busyReads := Nat.le_trans h'.busyReads h.busyReads

theorem ctrlRead (target : SimTarget) (address : Word) :
    target.Unmoved (simCtrlRead target address).1 := by
  unfold simCtrlRead
  split
  · exact ⟨rfl, rfl, rfl, rfl, rfl, Nat.sub_le _ _⟩
  · split
    · exact .refl target
    · split
      · exact .refl target
      · exact .refl target

theorem afterLoad (target : SimTarget) (size : Width) (address : Word) :
    target.Unmoved (target.afterLoad size address) := by
  unfold SimTarget.afterLoad simAccess
  split
  · rw [if_neg Bool.false_ne_true]
    exact ctrlRead target _
  · split
    · dsimp only
      split
      · exact .refl target
      · exact .refl target
    · split
      · dsimp only
        split
        · exact .refl target
        · exact .refl target
      · exact .refl target

end SimTarget.Unmoved

section Anywhere

variable {link : Link}

/-- One byte read of a block appends some byte. -/
theorem appendByte_succeeds (hlink : link.Usable) {α : Type} {rest : Filling α} (address : Word)
    (target : SimTarget) (buffer : List Byte)
    (hrest : ∀ target buffer, ∃ value buffer' after,
      OnTarget (rest.run.run buffer) target (.ok value, buffer') after ∧ target.Unmoved after) :
    ∃ value buffer' after, OnTarget ((do
      let word ← dmReadSized link .byte address
      modify (· ++ [byteOf word 0])
      rest : Filling α).run.run buffer) target (.ok value, buffer') after ∧
        target.Unmoved after := by
  obtain ⟨value, buffer', after, hdrives, hafter⟩ := hrest (target.afterLoad .byte address)
    (buffer ++ [byteOf (target.loaded .byte address) 0])
  exact ⟨value, buffer', after, Drives.andThenState
    (Drives.liftState buffer (dmReadSized_drives hlink .byte address target)) hdrives,
    (SimTarget.Unmoved.afterLoad target .byte address).trans hafter⟩

theorem readBlockHead_succeeds (hlink : link.Usable) (count : Nat) (address : Word)
    (target : SimTarget) (buffer : List Byte) : ∃ value buffer' after,
      OnTarget ((readBlockHead link address count).run.run buffer) target (.ok value, buffer')
        after ∧ target.Unmoved after := by
  induction count generalizing address target buffer with
  | zero => exact ⟨_, _, _, Drives.pure _, .refl target⟩
  | succ count ih =>
      rw [readBlockHead]
      by_cases haligned : address &&& 3 ≠ 0
      · rw [if_pos haligned]
        exact appendByte_succeeds hlink address target buffer fun target buffer =>
          ih (address + 1) target buffer
      · rw [if_neg haligned]
        exact ⟨_, _, _, Drives.pure _, .refl target⟩

theorem readBlockWords_succeeds (hlink : link.Usable) (count : Nat) (address : Word)
    (target : SimTarget) (buffer : List Byte) : ∃ value buffer' after,
      OnTarget ((readBlockWords link address count).run.run buffer) target (.ok value, buffer')
        after ∧ target.Unmoved after := by
  induction count using Nat.strong_induction_on generalizing address target buffer with
  | _ count ih =>
      match count with
      | 0 | 1 | 2 | 3 => exact ⟨_, _, _, Drives.pure _, .refl target⟩
      | count + 4 =>
          obtain ⟨value, buffer', after, hdrives, hafter⟩ := ih count (by omega) (address + 4)
            (target.afterLoad .word address) (buffer ++
              [byteOf (target.loaded .word address) 0, byteOf (target.loaded .word address) 1,
                byteOf (target.loaded .word address) 2, byteOf (target.loaded .word address) 3])
          exact ⟨value, buffer', after, Drives.andThenState
            (Drives.liftState buffer (wlDmRead32_drives hlink address target)) hdrives,
            (SimTarget.Unmoved.afterLoad target .word address).trans hafter⟩

theorem readBlockTail_succeeds (hlink : link.Usable) (count : Nat) (address : Word)
    (target : SimTarget) (buffer : List Byte) : ∃ value buffer' after,
      OnTarget ((readBlockTail link address count).run.run buffer) target (.ok value, buffer')
        after ∧ target.Unmoved after := by
  induction count generalizing address target buffer with
  | zero => exact ⟨_, _, _, Drives.pure _, .refl target⟩
  | succ count ih =>
      exact appendByte_succeeds hlink address target buffer fun target buffer =>
        ih (address + 1) target buffer

/-- A block read fills a buffer, whatever the addresses hold, and moves nothing. -/
theorem filled_wlDmReadBlock_succeeds (hlink : link.Usable) (address : Word) (count : Nat)
    (target : SimTarget) : ∃ bytes after,
      OnTarget (filled (wlDmReadBlock link address count)).run target (.ok bytes) after ∧
        target.Unmoved after := by
  obtain ⟨middle, buffer, target', hhead, hmoved⟩ := readBlockHead_succeeds hlink count address target []
  obtain ⟨last, buffer', target'', hwords, hmoved'⟩ :=
    readBlockWords_succeeds hlink middle.2 middle.1 target' buffer
  obtain ⟨_, bytes, after, htail, hmoved''⟩ :=
    readBlockTail_succeeds hlink last.2 last.1 target'' buffer'
  have hblock : OnTarget ((wlDmReadBlock link address count).run.run []) target (.ok (), bytes)
      after := by
    refine Drives.andThenState hhead ?_
    exact Drives.andThenState hwords htail
  exact ⟨bytes, after, hblock.bind (Drives.pure _), (hmoved.trans hmoved').trans hmoved''⟩

end Anywhere

/-! ## Stores -/

theorem SimTarget.store_ram {target : SimTarget} {address : Word} {size : Width}
    (h : target.chip.InRam address (2 ^ size.exponent)) (value : Word) :
    target.store size address value =
      { target with
        ram := storeBytes target.ram (simRamOffset target.chip address) (2 ^ size.exponent)
          value } := by
  have hpositive : 0 < 2 ^ size.exponent := Nat.two_pow_pos _
  have hfits : ¬(address - target.chip.ramOffset).toNat + 2 ^ size.exponent > target.ramSize :=
    h.fits
  unfold SimTarget.store simAccess
  rw [if_neg (by rw [h.notCtrl hpositive]; exact Bool.false_ne_true),
    if_neg (by rw [h.notFlash]; exact Bool.false_ne_true), if_pos (h.isRam hpositive)]
  dsimp only
  rw [if_neg hfits, if_pos rfl]
  rfl

theorem SimTarget.store_flash {target : SimTarget} {address : Word} {size : Width}
    (h : target.chip.InFlash address (2 ^ size.exponent)) (value : Word) :
    target.store size address value =
      simFlashStore target (simFlashOffset address) size.exponent value := by
  have hinside : ¬simFlashOffset address + 2 ^ size.exponent > target.flashSize :=
    Nat.not_lt.2 h.inside
  unfold SimTarget.store simAccess
  rw [if_neg (by rw [h.notCtrl]; exact Bool.false_ne_true), if_pos h.window]
  dsimp only
  rw [if_neg hinside, if_pos rfl]

/-- Byte stores to consecutive addresses. -/
def SimTarget.storeEach (target : SimTarget) (address : Word) : List Byte → SimTarget
  | [] => target
  | byte :: rest => (target.store .byte address (byte.setWidth 32)).storeEach (address + 1) rest

theorem wlDmWrite8_drives {link : Link} (hlink : link.Usable) (address : Word) (value : Byte)
    (target : SimTarget) :
    OnTarget (wlDmWrite8 link address value).run target (.ok ())
      (target.store .byte address (value.setWidth 32)) :=
  wlDmRunWrite_drives hlink .byte address (value.setWidth 32) target

end WchLink
