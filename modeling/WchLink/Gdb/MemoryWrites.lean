import WchLink.FlashWrite
import WchLink.Gdb.MemoryPackets

/-! # What an `M` packet writes

The handler stores byte by byte wherever the range lies. RAM takes the bytes;
the flash array takes them only as far as its controller lets a store program
it, and the answer is `OK` all the same.
-/

namespace WchLink

open Bytes Interaction

/-! ## The two regions of the memory map -/

inductive MemoryRegion
  | flash
  | ram
  deriving DecidableEq

namespace MemoryRegion

def start (chip : Chip) : MemoryRegion → Word
  | flash => chip.flashBase
  | ram => chip.ramOffset

def size (chip : Chip) : MemoryRegion → Word
  | flash => chip.flashSize
  | ram => chip.ramSize

/-- A range of a region, as the memory map announces it. -/
structure Holds (region : MemoryRegion) (chip : Chip) (address : Word) (count : Nat) : Prop where
  first : (region.start chip).toNat ≤ address.toNat
  last : address.toNat + count ≤ (region.start chip).toNat + (region.size chip).toNat

/-- The byte of the simulated target at an address of a region. -/
def byteAt (target : SimTarget) (address : Word) : MemoryRegion → Byte
  | flash => target.flash (simFlashOffset address)
  | ram => target.ram (simRamOffset target.chip address)

end MemoryRegion

/-- Where the parts of the table have their memories. -/
structure Chip.Mapped (chip : Chip) : Prop where
  flashBase : chip.flashBase.toNat = 0x08000000 ∨ chip.flashBase.toNat = 0
  flashSize : chip.flashSize.toNat < 2 ^ 24
  ramAbove : 0x09000000 ≤ chip.ramOffset.toNat
  ramBelow : chip.ramOffset.toNat + chip.ramSize.toNat ≤ 0x40022000

theorem mapped_of_mem {chip : Chip} (hchip : chip ∈ chips) : chip.Mapped := by
  have htable : ∀ part ∈ chips, (part.flashBase.toNat = 0x08000000 ∨ part.flashBase.toNat = 0) ∧
      part.flashSize.toNat < 2 ^ 24 ∧ 0x09000000 ≤ part.ramOffset.toNat ∧
        part.ramOffset.toNat + part.ramSize.toNat ≤ 0x40022000 := by
    decide
  obtain ⟨hbase, hsize, habove, hbelow⟩ := htable chip hchip
  exact ⟨hbase, hsize, habove, hbelow⟩

namespace MemoryRegion.Holds

variable {chip : Chip} {address : Word} {count : Nat}

theorem inFlash (hchip : chip.Mapped) (h : flash.Holds chip address count) :
    chip.InFlash address count where
  small := Nat.le_of_lt hchip.flashSize
  window := by
    have hfirst : chip.flashBase.toNat ≤ address.toNat := h.first
    have hlast : address.toNat + count ≤ chip.flashBase.toNat + chip.flashSize.toNat := h.last
    have hsize := hchip.flashSize
    rw [simIsFlash_iff]
    rcases hchip.flashBase with hbase | hbase <;> omega
  inside := by
    have hfirst : chip.flashBase.toNat ≤ address.toNat := h.first
    have hlast : address.toNat + count ≤ chip.flashBase.toNat + chip.flashSize.toNat := h.last
    have hsize := hchip.flashSize
    rw [simFlashOffset_eq]
    rcases hchip.flashBase with hbase | hbase <;> omega

theorem inRam (hchip : chip.Mapped) (h : ram.Holds chip address count) :
    chip.InRam address count :=
  ⟨hchip.ramAbove, hchip.ramBelow, h.first, h.last⟩

theorem flashOffset (hchip : chip.Mapped) (h : flash.Holds chip address count) :
    simFlashOffset address = address.toNat - chip.flashBase.toNat := by
  have hfirst : chip.flashBase.toNat ≤ address.toNat := h.first
  have hlast : address.toNat + count ≤ chip.flashBase.toNat + chip.flashSize.toNat := h.last
  have hsize := hchip.flashSize
  rw [simFlashOffset_eq]
  rcases hchip.flashBase with hbase | hbase <;> omega

theorem mono {region : MemoryRegion} {count' : Nat} (h : region.Holds chip address count)
    (hcount : count' ≤ count) : region.Holds chip address count' :=
  ⟨h.first, Nat.le_trans (Nat.add_le_add_left hcount _) h.last⟩

/-- No part has memory at the end of the address space. -/
theorem toNat_lt (hchip : chip.Mapped) {region : MemoryRegion}
    (h : region.Holds chip address count) : address.toNat + count ≤ 0x40022000 := by
  have hlast := h.last
  cases region with
  | flash =>
      have hlast : address.toNat + count ≤ chip.flashBase.toNat + chip.flashSize.toNat := hlast
      have hsize := hchip.flashSize
      rcases hchip.flashBase with hbase | hbase <;> omega
  | ram => exact Nat.le_trans hlast hchip.ramBelow

theorem toNat_add (hchip : chip.Mapped) {region : MemoryRegion} {i : Nat}
    (h : region.Holds chip address (i + count)) :
    (address + BitVec.ofNat 32 i).toNat = address.toNat + i := by
  have hlast := h.toNat_lt hchip
  rw [BitVec.toNat_add, BitVec.toNat_ofNat]
  omega

theorem add (hchip : chip.Mapped) {region : MemoryRegion} {i : Nat}
    (h : region.Holds chip address (i + count)) :
    region.Holds chip (address + BitVec.ofNat 32 i) count := by
  have hfirst := h.first
  have hlast := h.last
  refine ⟨?_, ?_⟩
  · rw [h.toNat_add hchip]
    omega
  · rw [h.toNat_add hchip]
    omega

/-- An address is in one region only. -/
theorem region_eq (hchip : chip.Mapped) {region other : MemoryRegion}
    (h : region.Holds chip address 1) (hother : other.Holds chip address 1) : other = region := by
  have hflash (h : flash.Holds chip address 1) : address.toNat < 0x09000000 := by
    have hlast : address.toNat + 1 ≤ chip.flashBase.toNat + chip.flashSize.toNat := h.last
    have hsize := hchip.flashSize
    rcases hchip.flashBase with hbase | hbase <;> omega
  have hram (h : ram.Holds chip address 1) : 0x09000000 ≤ address.toNat :=
    Nat.le_trans hchip.ramAbove h.first
  cases region with
  | flash =>
      cases other with
      | flash => rfl
      | ram => exact absurd (hram hother) (Nat.not_le.mpr (hflash h))
  | ram =>
      cases other with
      | flash => exact absurd (hram h) (Nat.not_le.mpr (hflash hother))
      | ram => rfl

end MemoryRegion.Holds

/-- A block read of a range returns its bytes and moves nothing. -/
theorem readable_region {link : Link} (hlink : link.Usable) {target : SimTarget}
    (hchip : target.chip.Mapped) {region : MemoryRegion} {address : Word} {count : Nat}
    (h : region.Holds target.chip address count) :
    Readable simulator targetSurface link target (fun a => region.byteAt target a) address count := by
  cases region with
  | flash => exact readable_flash (simulatorPort hlink) (h.inFlash hchip)
  | ram => exact readable_ram hlink (h.inRam hchip)

/-! ## Byte stores -/

/-- What a byte stored over another leaves: RAM takes it, flash can only clear
bits, and only while the controller is programming. -/
def SimTarget.landed (target : SimTarget) (region : MemoryRegion) (old byte : Byte) : Byte :=
  match region with
  | .flash => if target.unlocked ∧ target.ctlr &&& simCtlrPg ≠ 0 then old &&& byte else old
  | .ram => byte

/-- What decides where bytes are and how they land. -/
structure SimTarget.SameModes (before after : SimTarget) : Prop where
  chip : after.chip = before.chip
  unlocked : after.unlocked = before.unlocked
  ctlr : after.ctlr = before.ctlr

theorem SimTarget.SameModes.trans {first second third : SimTarget} (h : first.SameModes second)
    (h' : second.SameModes third) : first.SameModes third :=
  ⟨h'.chip.trans h.chip, h'.unlocked.trans h.unlocked, h'.ctlr.trans h.ctlr⟩

theorem SimTarget.SameModes.landed {before after : SimTarget} (h : before.SameModes after)
    (region : MemoryRegion) (old byte : Byte) :
    after.landed region old byte = before.landed region old byte := by
  unfold SimTarget.landed
  rw [h.unlocked, h.ctlr]

theorem simFlashStore_byte (target : SimTarget) (offset : Nat) (byte : Byte)
    (hinside : offset < target.flashSize) :
    target.SameModes (simFlashStore target offset 0 (byte.setWidth 32)) ∧
      (simFlashStore target offset 0 (byte.setWidth 32)).ram = target.ram ∧
      ∀ a, (simFlashStore target offset 0 (byte.setWidth 32)).flash a =
        if a = offset then target.landed .flash (target.flash offset) byte else target.flash a := by
  have hnotWord : ¬(target.modeUnlocked ∧ target.ctlr &&& simCtlrPagePg ≠ 0 ∧ 0 = 2) :=
    fun h => absurd h.2.2 (by decide)
  unfold simFlashStore SimTarget.landed
  rw [if_neg hnotWord]
  by_cases hlocked : !target.unlocked ∨ target.ctlr &&& simCtlrPg = 0
  · have hkeeps : ¬(target.unlocked = true ∧ target.ctlr &&& simCtlrPg ≠ 0) := by
      rintro ⟨hunlocked, hpg⟩
      rcases hlocked with hlocked | hzero
      · rw [hunlocked] at hlocked
        cases hlocked
      · exact hpg hzero
    rw [if_pos hlocked]
    refine ⟨⟨rfl, rfl, rfl⟩, rfl, fun a => ?_⟩
    dsimp only
    rw [if_neg hkeeps]
    split
    next h => rw [h]
    next => rfl
  · have htakes : target.unlocked = true ∧ target.ctlr &&& simCtlrPg ≠ 0 := by
      rw [not_or, Bool.not_eq_true'] at hlocked
      exact ⟨Bool.eq_true_of_not_eq_false hlocked.1, hlocked.2⟩
    rw [if_neg hlocked]
    refine ⟨⟨rfl, rfl, rfl⟩, rfl, fun a => ?_⟩
    dsimp only
    rw [if_pos htakes]
    show programBytes target.flash offset 1 target.flashSize (byteOf (byte.setWidth 32)) a = _
    unfold programBytes
    by_cases hsame : a = offset
    · subst hsame
      rw [if_pos ⟨Nat.le_refl a, Nat.lt_succ_self a, hinside⟩, if_pos rfl, Nat.sub_self,
        byteOf_setWidth]
    · rw [if_neg hsame, if_neg (by omega)]

/-- One byte store. -/
theorem SimTarget.store_byte {target : SimTarget} (hchip : target.chip.Mapped)
    {region : MemoryRegion} {address : Word} (h : region.Holds target.chip address 1)
    (byte : Byte) :
    target.SameModes (target.store .byte address (byte.setWidth 32)) ∧
      ∀ (other : MemoryRegion) (a : Word), other.Holds target.chip a 1 →
        other.byteAt (target.store .byte address (byte.setWidth 32)) a =
          if a = address then target.landed region (region.byteAt target address) byte
          else other.byteAt target a := by
  cases region with
  | flash =>
      have hstore := @SimTarget.store_flash _ _ .byte (h.inFlash hchip) (byte.setWidth 32)
      have hoffset := h.flashOffset hchip
      have hfirst : target.chip.flashBase.toNat ≤ address.toNat := h.first
      have hlast : address.toNat + 1 ≤ target.chip.flashBase.toNat + target.chip.flashSize.toNat :=
        h.last
      obtain ⟨hmodes, hram, hflash⟩ := simFlashStore_byte target (simFlashOffset address) byte
        (by rw [SimTarget.flashSize]; omega)
      rw [show Width.byte.exponent = 0 from rfl] at hstore
      rw [hstore]
      refine ⟨hmodes, fun other a hother => ?_⟩
      cases other with
      | flash =>
          have hoffset' := hother.flashOffset hchip
          have hfirst' : target.chip.flashBase.toNat ≤ a.toNat := hother.first
          have hsame : simFlashOffset a = simFlashOffset address ↔ a = address := by
            rw [← BitVec.toNat_inj]
            omega
          show (simFlashStore target (simFlashOffset address) 0 (byte.setWidth 32)).flash
            (simFlashOffset a) = _
          rw [hflash]
          simp only [hsame]
          rfl
      | ram =>
          have hne : a ≠ address := by
            rintro rfl
            cases h.region_eq hchip hother
          rw [if_neg hne, MemoryRegion.byteAt, MemoryRegion.byteAt, hram, hmodes.chip]
  | ram =>
      have hstore := @SimTarget.store_ram _ _ .byte (h.inRam hchip) (byte.setWidth 32)
      have hoffset := (h.inRam hchip).offset
      have hfirst : target.chip.ramOffset.toNat ≤ address.toNat := h.first
      rw [hstore]
      refine ⟨⟨rfl, rfl, rfl⟩, fun other a hother => ?_⟩
      cases other with
      | flash =>
          have hne : a ≠ address := by
            rintro rfl
            cases h.region_eq hchip hother
          rw [if_neg hne]
          rfl
      | ram =>
          have hoffset' := (hother.inRam hchip).offset
          have hfirst' : target.chip.ramOffset.toNat ≤ a.toNat := hother.first
          show storeBytes target.ram (simRamOffset target.chip address) 1 (byte.setWidth 32)
            (simRamOffset target.chip a) = _
          unfold storeBytes
          by_cases hsame : a = address
          · subst hsame
            rw [if_pos ⟨Nat.le_refl _, Nat.lt_succ_self _⟩, if_pos rfl, Nat.sub_self,
              byteOf_setWidth]
            rfl
          · have hnat : a.toNat ≠ address.toNat := fun hnat => hsame (BitVec.toNat_inj.mp hnat)
            rw [if_neg hsame, if_neg (by omega)]
            rfl

/-- Byte stores, one after another. -/
theorem SimTarget.storeEach_bytes {target : SimTarget} (hchip : target.chip.Mapped)
    {region : MemoryRegion} {address : Word} {bytes : List Byte}
    (h : region.Holds target.chip address bytes.length) :
    target.SameModes (target.storeEach address bytes) ∧
      ∀ (other : MemoryRegion) (a : Word), other.Holds target.chip a 1 →
        other.byteAt (target.storeEach address bytes) a =
          if address.toNat ≤ a.toNat ∧ a.toNat < address.toNat + bytes.length then
            target.landed region (other.byteAt target a)
              (bytes.getD (a.toNat - address.toNat) 0)
          else other.byteAt target a := by
  induction bytes generalizing target address with
  | nil =>
      refine ⟨⟨rfl, rfl, rfl⟩, fun other a _ => ?_⟩
      rw [if_neg (by rw [List.length_nil]; omega)]
      rfl
  | cons byte rest ih =>
      have hone : region.Holds target.chip address 1 := h.mono (by rw [List.length_cons]; omega)
      obtain ⟨hmodes, hbyte⟩ := SimTarget.store_byte hchip hone byte
      have hrest : region.Holds target.chip (address + 1) rest.length := by
        rw [List.length_cons, Nat.add_comm] at h
        exact h.add hchip
      have hnext : (address + 1).toNat = address.toNat + 1 := by
        rw [List.length_cons, Nat.add_comm] at h
        exact h.toNat_add hchip
      obtain ⟨hmodes', hbytes⟩ := @ih (target.store .byte address (byte.setWidth 32))
        (by rw [hmodes.chip]; exact hchip) (address + 1) (by rw [hmodes.chip]; exact hrest)
      refine ⟨hmodes.trans hmodes', fun other a hother => ?_⟩
      show other.byteAt ((target.store .byte address (byte.setWidth 32)).storeEach (address + 1)
        rest) a = _
      rw [hbytes other a (by rw [hmodes.chip]; exact hother), hbyte other a hother, hnext,
        hmodes.landed, List.length_cons]
      by_cases hsame : a = address
      · subst hsame
        obtain rfl := hone.region_eq hchip hother
        rw [if_neg (by omega), if_pos rfl, if_pos (by omega), Nat.sub_self]
        rfl
      · have hnat : a.toNat ≠ address.toNat := fun hnat => hsame (BitVec.toNat_inj.mp hnat)
        rw [if_neg hsame]
        by_cases hin : address.toNat + 1 ≤ a.toNat ∧ a.toNat < address.toNat + 1 + rest.length
        · rw [if_pos hin, if_pos (by omega),
            show a.toNat - address.toNat = a.toNat - (address.toNat + 1) + 1 by omega]
          rfl
        · rw [if_neg hin, if_neg (by omega)]

/-! ## The handlers on the bench -/

section Handlers

variable {fuel : Nat} {conn : GdbConn} {sim : Sim}

theorem gdbHandlePacket_readMemory_answers (hfuel : 2 ≤ fuel) {address length : Numeral}
    (hroom : length.value ≤ gdbMemoryMax) {buffer : List Byte} {after : Sim}
    (hread : (filled (wlDmReadBlock conn.link address.value length.value.toNat)).run.run simulator
      sim = (some (.ok buffer), after)) (tail : List Byte) :
    Answers fuel conn sim (readMemoryPacket address length ++ 0 :: tail)
      (buffer.flatMap formatHexByte) after := by
  have htarget : ((onTarget fun link => filled (wlDmReadBlock link address.value
      length.value.toNat)).run conn).run bench ⟨sim, [ascii '+'], []⟩ =
        (some (.ok buffer, conn), ⟨after, [ascii '+'], []⟩) := onTarget_answers hread
  have hmemory : ((gdbReadMemory fuel address.value length.value).run conn).run bench
      ⟨sim, [ascii '+'], []⟩ =
        (some ((), conn), ⟨after, [], gdbFrame (buffer.flatMap formatHexByte)⟩) := by
    unfold gdbReadMemory
    rw [if_neg (BitVec.not_lt.mpr hroom), Program.run_own_bind htarget]
    exact gdbSendPacket_answers _ hfuel
  rw [Answers, gdbHandlePacket_readMemory, Program.run_own_bind hmemory]
  rfl

/-- How the server reports a status. -/
def statusText : Except WlErr Unit → List Byte
  | .ok () => text "OK"
  | .error _ => text "E01"

theorem gdbHandlePacket_writeMemory_answers (hfuel : 2 ≤ fuel) {address length : Numeral}
    {data : HexBytes} (hlength : length.value.toNat = data.bytes.length)
    (hroom : length.value ≤ gdbMemoryMax) {status : Except WlErr Unit} {after : Sim}
    (hwrite : (gdbWriteBytes conn.link address.value data.bytes).run.run simulator sim =
      (some status, after)) (tail : List Byte) :
    Answers fuel conn sim (writeMemoryPacket address length data ++ 0 :: tail) (statusText status)
      after := by
  have htarget : ((onTarget fun link => gdbWriteBytes link address.value data.bytes).run conn).run
      bench ⟨sim, [ascii '+'], []⟩ = (some (status, conn), ⟨after, [ascii '+'], []⟩) :=
    onTarget_answers hwrite
  have hmemory : ((gdbWriteMemory fuel address.value data.bytes).run conn).run bench
      ⟨sim, [ascii '+'], []⟩ =
        (some ((), conn), ⟨after, [], gdbFrame (statusText status)⟩) := by
    unfold gdbWriteMemory
    rw [Program.run_own_bind htarget]
    cases status with
    | ok _ => exact gdbSendText_answers (by decide) hfuel
    | error _ => exact gdbSendText_answers (by decide) hfuel
  rw [Answers, gdbHandlePacket_writeMemory fuel hlength hroom, Program.run_own_bind hmemory]
  rfl

end Handlers

/-! ## The law -/

/-- A write has taken effect: the range holds the data, every read of the same
range replies it, and no byte elsewhere moved. -/
structure Written (fuel : Nat) (conn : GdbConn) (before after : Sim) (region : MemoryRegion)
    (address : Word) (data : List Byte) : Prop where
  holds : ∀ i < data.length,
    region.byteAt after.target (address + BitVec.ofNat 32 i) = data.getD i 0
  reads : ∀ (address' length' : Numeral) (tail : List Byte), address'.value = address →
    length'.value.toNat = data.length → ∃ final,
      Answers fuel conn after (readMemoryPacket address' length' ++ 0 :: tail)
        (data.flatMap formatHexByte) final
  elsewhere : ∀ (other : MemoryRegion) (a : Word), other.Holds before.target.chip a 1 →
    ¬(address.toNat ≤ a.toNat ∧ a.toNat < address.toNat + data.length) →
      other.byteAt after.target a = other.byteAt before.target a

/-- An `M` packet is answered with `OK` only if it has taken effect, and with an
error otherwise. -/
def TellsTruth (fuel : Nat) (conn : GdbConn) (sim : Sim) (region : MemoryRegion)
    (address length : Numeral) (data : HexBytes) : Prop :=
  ∀ tail, ∃ reply after,
    Answers fuel conn sim (writeMemoryPacket address length data ++ 0 :: tail) reply after ∧
      (reply = text "E01" ∨
        reply = text "OK" ∧ Written fuel conn sim after region address.value data.bytes)

/-- Every byte of the data is what a store of it leaves at its place. -/
def SimTarget.Takes (target : SimTarget) (region : MemoryRegion) (address : Word)
    (bytes : List Byte) : Prop :=
  ∀ i < bytes.length, target.landed region
    (region.byteAt target (address + BitVec.ofNat 32 i)) (bytes.getD i 0) = bytes.getD i 0

section Law

variable {fuel : Nat} {conn : GdbConn} {sim : Sim} {region : MemoryRegion}
  {address length : Numeral} {data : HexBytes}

/-- The bytes that the stores of a packet leave in its range. -/
theorem SimTarget.storeEach_range {target : SimTarget} (hchip : target.chip.Mapped)
    {address : Word} {bytes : List Byte} (h : region.Holds target.chip address bytes.length)
    {i : Nat} (hi : i < bytes.length) :
    region.byteAt (target.storeEach address bytes) (address + BitVec.ofNat 32 i) =
      target.landed region (region.byteAt target (address + BitVec.ofNat 32 i))
        (bytes.getD i 0) := by
  have hin : region.Holds target.chip address (i + 1) := h.mono hi
  have hat := hin.toNat_add hchip
  rw [(SimTarget.storeEach_bytes hchip h).2 region _ (hin.add hchip), if_pos (by omega), hat,
    Nat.add_sub_cancel_left]

/-- On a target that takes accesses the packet is answered with `OK`. -/
theorem gdbHandlePacket_writeMemory_ok (hfuel : 2 ≤ fuel) (hlink : conn.link.Usable)
    (hready : sim.Ready) (hlength : length.value.toNat = data.bytes.length)
    (hroom : length.value ≤ gdbMemoryMax) :
    ∃ after, after.Ready ∧ after.target = sim.target.storeEach address.value data.bytes ∧
      ∀ tail, Answers fuel conn sim (writeMemoryPacket address length data ++ 0 :: tail) (text "OK")
        after := by
  obtain ⟨after, hwrite, htarget, hframe⟩ :=
    gdbWriteBytes_drives hlink address.value data.bytes sim.target sim hready rfl
  exact ⟨after, hframe.ready hready, htarget,
    gdbHandlePacket_writeMemory_answers hfuel hlength hroom hwrite⟩

/-- A range that holds the data reads back as it. -/
theorem reads_of_holds (hfuel : 2 ≤ fuel) (hlink : conn.link.Usable) {after : Sim}
    (hready : after.Ready) (hchip : after.target.chip.Mapped) {bytes : List Byte} {start : Word}
    (hinside : region.Holds after.target.chip start bytes.length)
    (hroom : bytes.length ≤ 1024)
    (hholds : ∀ i < bytes.length,
      region.byteAt after.target (start + BitVec.ofNat 32 i) = bytes.getD i 0)
    (address' length' : Numeral) (tail : List Byte) (haddress : address'.value = start)
    (hlength : length'.value.toNat = bytes.length) :
    ∃ final, Answers fuel conn after (readMemoryPacket address' length' ++ 0 :: tail)
      (bytes.flatMap formatHexByte) final := by
  obtain ⟨final, hread, -⟩ := filled_wlDmReadBlock_drives bytes.length
    (readable_region hlink hchip hinside) after hready rfl
  have hbytes : bytesFrom (fun a => region.byteAt after.target a) start bytes.length = bytes := by
    apply List.ext_getElem (bytesFrom_length _ _ _)
    intro i hi hi'
    have hget := bytesFrom_getD (fun a => region.byteAt after.target a) start hi'
    rw [List.getD_eq_getElem _ _ hi] at hget
    rw [hget, hholds i hi', List.getD_eq_getElem _ _ hi']
  rw [hbytes, ← haddress, ← hlength] at hread
  refine ⟨final, gdbHandlePacket_readMemory_answers hfuel ?_ hread tail⟩
  rw [BitVec.le_def, hlength]
  exact hroom

/-- Without data there is nothing to write and nothing to read. -/
theorem tellsTruth_nil (hfuel : 2 ≤ fuel) (hlength : length.value.toNat = data.bytes.length)
    (hnil : data.bytes = []) : TellsTruth fuel conn sim region address length data := by
  have hzero : length.value.toNat = 0 := by
    rw [hlength, hnil]
    rfl
  have hroom {number : Numeral} (hnumber : number.value.toNat = 0) :
      number.value ≤ gdbMemoryMax := by
    rw [BitVec.le_def, hnumber]
    exact Nat.zero_le _
  have hwrite : (gdbWriteBytes conn.link address.value data.bytes).run.run simulator sim =
      (some (.ok ()), sim) := by
    rw [hnil]
    rfl
  intro tail
  refine ⟨_, sim, gdbHandlePacket_writeMemory_answers hfuel hlength (hroom hzero) hwrite tail,
    .inr ⟨rfl, ?_⟩⟩
  rw [hnil]
  refine ⟨fun i hi => absurd hi (Nat.not_lt_zero i), ?_, fun _ _ _ _ => rfl⟩
  intro address' length' tail _ hlength'
  have hread : (filled (wlDmReadBlock conn.link address'.value length'.value.toNat)).run.run
      simulator sim = (some (.ok []), sim) := by
    rw [hlength']
    rfl
  exact ⟨sim, gdbHandlePacket_readMemory_answers hfuel (hroom hlength') hread tail⟩

/-- A target that takes no accesses is reported. -/
theorem tellsTruth_refused (hfuel : 2 ≤ fuel) (hsound : sim.Sound)
    (hrefuses : ¬(conn.link.Usable ∧ sim.Ready))
    (hlength : length.value.toNat = data.bytes.length) (hroom : length.value ≤ gdbMemoryMax) :
    TellsTruth fuel conn sim region address length data := by
  cases hdata : data.bytes with
  | nil => exact tellsTruth_nil hfuel hlength hdata
  | cons byte rest =>
      obtain ⟨error, after, hrefused⟩ := wlDmRunWrite_refused hsound hrefuses .byte address.value
        (byte.setWidth 32)
      have hwrite : (gdbWriteBytes conn.link address.value data.bytes).run.run simulator sim =
          (some (.error error), after) := by
        rw [hdata, gdbWriteBytes]
        exact Program.run_except_error hrefused
      intro tail
      exact ⟨_, after, gdbHandlePacket_writeMemory_answers hfuel hlength hroom hwrite tail,
        .inl rfl⟩


/-- `OK` is the answer wherever the stores land, so all of them have to. -/
theorem takes_of_tellsTruth (hfuel : 2 ≤ fuel) (hchip : sim.target.chip.Mapped)
    (hlength : length.value.toNat = data.bytes.length) (hroom : length.value ≤ gdbMemoryMax)
    (hinside : region.Holds sim.target.chip address.value data.bytes.length)
    (htruth : TellsTruth fuel conn sim region address length data) (hlink : conn.link.Usable)
    (hready : sim.Ready) : sim.target.Takes region address.value data.bytes := by
  intro i hi
  obtain ⟨after, -, htarget, hanswer⟩ :=
    @gdbHandlePacket_writeMemory_ok fuel conn sim address length data hfuel hlink hready hlength
      hroom
  obtain ⟨reply, after', hanswer', hreply⟩ := htruth []
  obtain ⟨rfl, rfl⟩ := hanswer'.unique (hanswer [])
  rcases hreply with herror | ⟨-, hwritten⟩
  · exact absurd herror (by decide)
  · have hholds := hwritten.holds i hi
    rw [htarget, SimTarget.storeEach_range hchip hinside hi] at hholds
    exact hholds

end Law

/-- The server tells the truth about a write exactly when every byte of it lands
as it is: always in RAM, and in flash only where the controller happens to be
programming and no bit has to be set, or where the byte is there already. -/
theorem gdbHandlePacket_tellsTruth_iff (fuel : Nat) (conn : GdbConn) (sim : Sim)
    (region : MemoryRegion) (address length : Numeral) (data : HexBytes) (hfuel : 2 ≤ fuel)
    (hsound : sim.Sound) (hchip : sim.target.chip ∈ chips)
    (hlength : length.value.toNat = data.bytes.length) (hsize : data.bytes.length ≤ 1024)
    (hinside : region.Holds sim.target.chip address.value data.bytes.length) :
    TellsTruth fuel conn sim region address length data ↔
      (conn.link.Usable → sim.Ready → sim.target.Takes region address.value data.bytes) := by
  have hmapped := mapped_of_mem hchip
  have hroom : length.value ≤ gdbMemoryMax := by
    rw [BitVec.le_def, hlength]
    exact hsize
  constructor
  · exact takes_of_tellsTruth hfuel hmapped hlength hroom hinside
  · intro htakes
    by_cases hready : conn.link.Usable ∧ sim.Ready
    · obtain ⟨hlink, hready⟩ := hready
      obtain ⟨after, hready', htarget, hanswer⟩ :=
        @gdbHandlePacket_writeMemory_ok fuel conn sim address length data hfuel hlink hready
          hlength hroom
      obtain ⟨hmodes, hbytes⟩ := SimTarget.storeEach_bytes hmapped hinside
      rw [← htarget] at hmodes hbytes
      have hholds : ∀ i < data.bytes.length,
          region.byteAt after.target (address.value + BitVec.ofNat 32 i) =
            data.bytes.getD i 0 := by
        intro i hi
        rw [htarget, SimTarget.storeEach_range hmapped hinside hi]
        exact htakes hlink hready i hi
      refine fun tail => ⟨_, after, hanswer tail, .inr ⟨rfl, hholds, ?_, ?_⟩⟩
      · intro address' length' tail' haddress hlength'
        exact reads_of_holds hfuel hlink hready' (by rw [hmodes.chip]; exact hmapped)
          (by rw [hmodes.chip]; exact hinside) hsize hholds address' length' tail' haddress
          hlength'
      · intro other a hother houtside
        rw [hbytes other a hother, if_neg houtside]
    · exact tellsTruth_refused hfuel hsound hready hlength hroom

/-- Two bytes of RAM. -/
theorem gdbHandlePacket_tellsTruth_ram :
    TellsTruth 2 (.fresh wlLinkeAttachTransport ch32v003) (simSelected ch32v003) .ram
      (.of 0x20000000) (.of 2) (.of [0x12, 0x34]) :=
  (gdbHandlePacket_tellsTruth_iff 2 (.fresh wlLinkeAttachTransport ch32v003)
    (simSelected ch32v003) .ram (.of 0x20000000) (.of 2) (.of [0x12, 0x34]) (by decide)
    (by unfold Sim.Sound; decide) List.mem_cons_self (by decide) (by decide)
    ⟨by decide, by decide⟩).mpr fun _ _ _ _ => rfl

/-- `M8000000,1:00` is answered with `OK` and flash stays erased. -/
theorem gdbHandlePacket_not_tellsTruth :
    ¬∀ (fuel : Nat) (conn : GdbConn) (sim : Sim) (region : MemoryRegion)
      (address length : Numeral) (data : HexBytes), 2 ≤ fuel → sim.Sound →
      sim.target.chip ∈ chips → length.value.toNat = data.bytes.length →
      data.bytes.length ≤ 1024 →
      region.Holds sim.target.chip address.value data.bytes.length →
        TellsTruth fuel conn sim region address length data := by
  intro hclaim
  have hinside : MemoryRegion.flash.Holds ch32v003 0x08000000 1 := ⟨by decide, by decide⟩
  have htruth := hclaim 2 (.fresh wlLinkeAttachTransport ch32v003) (simSelected ch32v003) .flash
    (.of 0x08000000) (.of 1) (.of [0x00]) (by decide) (by unfold Sim.Sound; decide)
    List.mem_cons_self (by decide) (by decide) hinside
  have htakes := takes_of_tellsTruth (by decide) (mapped_of_mem List.mem_cons_self) (by decide)
    (by decide) hinside htruth ⟨rfl, rfl⟩ ⟨rfl, rfl⟩ 0 (by decide)
  revert htakes
  decide

end WchLink
