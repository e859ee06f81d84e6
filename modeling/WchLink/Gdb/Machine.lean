import WchLink.FlashRange
import WchLink.FlashRequest
import WchLink.Gdb.MemoryWrites

/-! # Patching target memory

The server on a machine whose programmer is the simulator. What it does to the
part is described by the contents of the two memories: a read returns bytes of
them and a patch replaces bytes, whichever mechanism the address needs.
-/

namespace WchLink

open Bytes Interaction

/-! ## Contents -/

/-- A part and what its memories hold. -/
structure Contents where
  chip : Chip
  bytes : MemoryRegion → Nat → Byte

def SimTarget.contents (target : SimTarget) : Contents where
  chip := target.chip
  bytes := fun region =>
    match region with
    | .flash => target.flash
    | .ram => target.ram

/-- The flash controller is not in the middle of anything and has seen no error. -/
structure SimTarget.Quiet (target : SimTarget) : Prop where
  programErrors : target.programErrors = 0
  busyReads : target.busyReads ≤ simBusyReads
  mode : target.ctlr &&& modeMask = 0

/-- The simulator takes accesses and patches. -/
structure Sim.Quiet (sim : Sim) : Prop where
  ready : sim.Ready
  target : sim.target.Quiet

/-- The quiet simulator by its contents. -/
def quietSurface : Surface Sim Contents where
  view := fun sim => sim.target.contents
  ready := Sim.Quiet
  frame := fun before after => before.Quiet → after.Quiet
  frame_refl := fun _ => id
  frame_trans := fun h h' => h' ∘ h
  ready_of_frame := fun h => h

/-- A run on the simulator, by its effect on the contents. -/
abbrev OnContents {α : Type} (program : Program Usb α) (before : Contents) (value : α)
    (after : Contents) : Prop :=
  Drives simulator quietSurface program before value after

theorem onContents_of_onTarget {α : Type} {program : Program Usb α} {before after : Contents}
    {value : α}
    (htarget : ∀ target : SimTarget, target.Quiet → target.contents = before →
      ∃ target', OnTarget program target value target' ∧ target'.Quiet ∧
        target'.contents = after) :
    OnContents program before value after := by
  intro sim hquiet hview
  obtain ⟨target', hdrives, hquiet', hafter⟩ := htarget sim.target hquiet.target hview
  obtain ⟨final, hrun, hfinal, hframe⟩ := hdrives sim hquiet.ready rfl
  have htarget' : final.target = target' := hfinal
  refine ⟨final, hrun, ?_, fun _ => ⟨hframe.ready hquiet.ready, ?_⟩⟩
  · show final.target.contents = after
    rw [htarget', hafter]
  · rw [htarget']
    exact hquiet'

/-- Where a range of a part lies. -/
structure Place where
  region : MemoryRegion
  offset : Nat
  deriving DecidableEq

/-- The place of an address. -/
def Chip.place (chip : Chip) (address : Word) : Place :=
  if simIsFlash address then ⟨.flash, simFlashOffset address⟩
  else ⟨.ram, simRamOffset chip address⟩

/-- A range of one of a part's memories. -/
def Chip.Spans (chip : Chip) (address : Word) (count : Nat) : Prop :=
  chip.InFlash address count ∨ chip.InRam address count

theorem Chip.InFlash.place {chip : Chip} {address : Word} {count : Nat}
    (h : chip.InFlash address count) : chip.place address = ⟨.flash, simFlashOffset address⟩ :=
  if_pos h.window

theorem Chip.InRam.place {chip : Chip} {address : Word} {count : Nat}
    (h : chip.InRam address count) : chip.place address = ⟨.ram, simRamOffset chip address⟩ :=
  if_neg (by rw [h.notFlash]; exact Bool.false_ne_true)

namespace Contents

/-- The bytes at a place. -/
def read (contents : Contents) (place : Place) (count : Nat) : List Byte :=
  (List.range count).map fun i => contents.bytes place.region (place.offset + i)

/-- The contents with the bytes at a place replaced. -/
def patch (contents : Contents) (place : Place) (bytes : List Byte) : Contents where
  chip := contents.chip
  bytes := Function.update contents.bytes place.region
    (overlay (contents.bytes place.region) place.offset bytes)

@[simp] theorem length_read (contents : Contents) (place : Place) (count : Nat) :
    (contents.read place count).length = count := by
  rw [read, List.length_map, List.length_range]

@[simp] theorem patch_chip (contents : Contents) (place : Place) (bytes : List Byte) :
    (contents.patch place bytes).chip = contents.chip := rfl

end Contents

/-! ## Reading -/

theorem readable_contents {link : Link} (hlink : link.Usable) {contents : Contents}
    {address : Word} {count : Nat} (h : contents.chip.Spans address count) :
    Readable simulator quietSurface link contents
      (fun a => contents.bytes (contents.chip.place a).region (contents.chip.place a).offset)
      address count := by
  rcases h with h | h
  · apply @readable_of_array _ _ simulator quietSurface link contents (contents.bytes .flash) _
      address (simFlashOffset address) count
    · intro i hi
      have hin : contents.chip.InFlash address (i + 1) := h.mono hi
      rw [(hin.add (by omega)).place, hin.offset_add (by omega)]
    · intro i hi
      have hin : contents.chip.InFlash address (i + 1) := h.mono hi
      apply onContents_of_onTarget
      intro target hquiet hview
      subst hview
      rw [← hin.offset_add (by omega)]
      exact ⟨target, (SimTarget.loadsFrom_flash (hin.add (by omega))).drives_byte
        (simulatorPort hlink), hquiet, rfl⟩
    · intro i hi
      have hin : contents.chip.InFlash address (i + 4) := h.mono hi
      apply onContents_of_onTarget
      intro target hquiet hview
      subst hview
      rw [← hin.offset_add (by omega)]
      exact ⟨target, (SimTarget.loadsFrom_flash (hin.add (by omega))).drives_word
        (simulatorPort hlink), hquiet, rfl⟩
  · apply @readable_of_array _ _ simulator quietSurface link contents (contents.bytes .ram) _
      address (simRamOffset contents.chip address) count
    · intro i hi
      have hin : contents.chip.InRam address (i + 1) := h.mono hi
      rw [hin.add.place, hin.offset_add]
    · intro i hi
      have hin : contents.chip.InRam address (i + 1) := h.mono hi
      apply onContents_of_onTarget
      intro target hquiet hview
      subst hview
      rw [← hin.offset_add]
      exact ⟨target, (SimTarget.loadsFrom_ram hin.add).drives_byte (simulatorPort hlink),
        hquiet, rfl⟩
    · intro i hi
      have hin : contents.chip.InRam address (i + 4) := h.mono hi
      apply onContents_of_onTarget
      intro target hquiet hview
      subst hview
      rw [← hin.offset_add]
      exact ⟨target, (SimTarget.loadsFrom_ram hin.add).drives_word (simulatorPort hlink),
        hquiet, rfl⟩

theorem Chip.Spans.place_add {chip : Chip} {address : Word} {i : Nat}
    (h : chip.Spans address (i + 1)) :
    chip.place (address + BitVec.ofNat 32 i) =
      ⟨(chip.place address).region, (chip.place address).offset + i⟩ := by
  rcases h with h | h
  · rw [h.place, (h.add (by omega)).place, h.offset_add (by omega)]
  · rw [h.place, h.add.place, h.offset_add]

theorem Chip.Spans.mono {chip : Chip} {address : Word} {count count' : Nat}
    (h : chip.Spans address count) (hcount : count' ≤ count) : chip.Spans address count' :=
  h.imp (·.mono hcount) (·.mono hcount)

/-- A block read returns the bytes of its place. -/
theorem wlDmReadBlock_contents {link : Link} (hlink : link.Usable) {contents : Contents}
    {address : Word} {count : Nat} (h : contents.chip.Spans address count) (buffer : List Byte) :
    OnContents ((wlDmReadBlock link address count).run.run buffer) contents
      (.ok (), buffer ++ contents.read (contents.chip.place address) count) contents := by
  have hread := wlDmReadBlock_drives count buffer (readable_contents hlink h)
  have hbytes : bytesFrom (fun a => contents.bytes (contents.chip.place a).region
      (contents.chip.place a).offset) address count =
        contents.read (contents.chip.place address) count := by
    apply List.ext_getElem
    · rw [bytesFrom_length, Contents.length_read]
    · intro i hi hi'
      have hcount : i < count := by rwa [bytesFrom_length] at hi
      have hget := bytesFrom_getD (fun a => contents.bytes (contents.chip.place a).region
        (contents.chip.place a).offset) address hcount
      rw [List.getD_eq_getElem _ _ hi] at hget
      rw [hget, (h.mono hcount).place_add]
      simp only [Contents.read, List.getElem_map, List.getElem_range]
  rwa [hbytes] at hread

/-! ## Patching -/

theorem storeBytes_half (memory : Nat → Byte) (offset : Nat) (b0 b1 : Byte) :
    storeBytes memory offset 2 ((b1 ++ b0 : BitVec 16).setWidth 32) =
      overlay memory offset [b0, b1] := by
  have hbytes : byteOf ((b1 ++ b0 : BitVec 16).setWidth 32) 0 = b0 ∧
      byteOf ((b1 ++ b0 : BitVec 16).setWidth 32) 1 = b1 := by
    refine ⟨?_, ?_⟩
    all_goals
      apply BitVec.eq_of_getLsbD_eq
      intro j hj
      rw [getLsbD_byteOf, BitVec.getLsbD_setWidth, BitVec.getLsbD_append]
      simp [hj]
      try omega
  obtain ⟨h0, h1⟩ := hbytes
  funext a
  unfold storeBytes overlay
  by_cases hin : offset ≤ a ∧ a < offset + 2
  · rw [if_pos hin, if_pos (by simpa using hin)]
    obtain ⟨i, rfl⟩ : ∃ i, a = offset + i := ⟨a - offset, by omega⟩
    have hi : i < 2 := by omega
    rw [Nat.add_sub_cancel_left]
    interval_cases i
    · exact h0
    · exact h1
  · rw [if_neg hin, if_neg (by simpa using hin)]

/-- A store of two or four bytes, as the patch makes it in RAM. -/
theorem store_contents {target : SimTarget} {address : Word} {size : Width} {value : Word}
    {bytes : List Byte} (h : target.chip.InRam address (2 ^ size.exponent))
    (hbytes : storeBytes target.ram (simRamOffset target.chip address) (2 ^ size.exponent) value =
      overlay target.ram (simRamOffset target.chip address) bytes) (hquiet : target.Quiet) :
    (target.store size address value).Quiet ∧
      (target.store size address value).contents =
        target.contents.patch (target.chip.place address) bytes := by
  rw [SimTarget.store_ram h, hbytes, h.place]
  refine ⟨⟨hquiet.programErrors, hquiet.busyReads, hquiet.mode⟩, ?_⟩
  unfold SimTarget.contents Contents.patch
  refine congrArg (Contents.mk target.chip) (funext fun region => ?_)
  cases region with
  | flash => rfl
  | ram => rfl

/-! ### Flash through either alias -/

theorem normalise_toNat {chip : Chip} (hbase : chip.flashBase = fbV) (address : Word) :
    (normalise chip address).toNat =
      if address.toNat < 2 ^ 24 then 0x08000000 + address.toNat else address.toNat := by
  have hbase : chip.flashBase = 0x08000000 := hbase
  rw [toNat_normalise]
  unfold mappedStart
  by_cases hlow : address.toNat < 2 ^ 24
  · rw [if_pos ⟨hbase, hlow⟩, if_pos hlow]
  · rw [if_neg fun h => hlow h.2, if_neg hlow]

/-- What the server takes for flash, of the parts it can write. -/
theorem gdbAddrIsFlash_iff {chip : Chip} (hchip : chip.Ch32v0) (address : Word) :
    gdbAddrIsFlash chip address = true ↔ chip.InFlash address 1 := by
  have hsize := hchip.flashSize
  have hbase : chip.flashBase.toNat = 0x08000000 := by rw [hchip.flashBase]; rfl
  have hnormal := normalise_toNat hchip.flashBase address
  have hoffset := simFlashOffset_eq address
  have hwindow := simIsFlash_iff address
  have hone : (1 : BitVec 64).toNat = 1 := rfl
  unfold gdbAddrIsFlash wlFlashRangeOk
  dsimp only
  constructor
  · intro h
    by_cases hzero : chip.flashSize = 0
    · rw [if_pos hzero] at h
      cases h
    · rw [if_neg hzero, decide_eq_true_eq] at h
      simp only [ge_iff_le, BitVec.le_def, BitVec.toNat_add, BitVec.toNat_setWidth, hbase,
        hnormal, hone] at h
      have haddress := address.isLt
      refine ⟨by omega, hwindow.mpr ?_, ?_⟩
      · split at h <;> omega
      · rw [hoffset]
        split at h <;> omega
  · intro h
    have hinside := h.inside
    have hin := hwindow.mp h.window
    have hnonzero : chip.flashSize ≠ 0 := by
      intro hzero
      rw [hzero, show (0 : Word).toNat = 0 from rfl] at hinside
      omega
    rw [if_neg hnonzero, decide_eq_true_eq]
    simp only [ge_iff_le, BitVec.le_def, BitVec.toNat_add, BitVec.toNat_setWidth, hbase, hnormal,
      hone]
    split <;> omega

theorem not_gdbAddrIsFlash {chip : Chip} (hchip : chip.Mapped) {address : Word} {count : Nat}
    (h : chip.InRam address count) : gdbAddrIsFlash chip address = false := by
  have hstart := h.start
  have habove := h.above
  have hsize := hchip.flashSize
  have haddress := address.isLt
  have hpage := toNat_and_page address
  have hnormal : normalise chip address = address := by
    unfold normalise
    rw [if_neg]
    rintro ⟨-, hzero⟩
    rw [← BitVec.toNat_inj, hpage, show (0 : Word).toNat = 0 from rfl] at hzero
    omega
  have hone : (1 : BitVec 64).toNat = 1 := rfl
  unfold gdbAddrIsFlash wlFlashRangeOk
  dsimp only
  rw [hnormal]
  split
  · rfl
  · rw [decide_eq_false_iff_not, not_and]
    intro _ hlast
    rw [BitVec.le_def, BitVec.toNat_add, BitVec.toNat_add, BitVec.toNat_setWidth,
      BitVec.toNat_setWidth, BitVec.toNat_setWidth, hone] at hlast
    rcases hchip.flashBase with hbase | hbase <;> omega

/-- A range of flash that does not cross pages. -/
structure Chip.InPage (chip : Chip) (address : Word) (count : Nat) : Prop
    extends chip.InFlash address count where
  part : chip.Ch32v0
  page : simFlashOffset address % 64 + count ≤ 64

/-- The page around an address. -/
theorem toNat_pageStart (address : Word) :
    (address &&& ~~~((64 : Word) - 1)).toNat = address.toNat - address.toNat % 64 :=
  toNat_and_high address (by decide : 6 ≤ 32)

theorem simFlashOffset_pageStart (address : Word) :
    simFlashOffset (address &&& ~~~((64 : Word) - 1)) =
      simFlashOffset address - simFlashOffset address % 64 := by
  have hpage := toNat_pageStart address
  rw [simFlashOffset_eq, simFlashOffset_eq, hpage]
  omega

namespace Chip.InPage

variable {chip : Chip} {address : Word} {count : Nat}

theorem wholePage (h : chip.InPage address count) (hcount : 0 < count) :
    chip.InFlash (address &&& ~~~((64 : Word) - 1)) 64 where
  small := h.small
  window := by
    have hpage := toNat_pageStart address
    have hwindow := (simIsFlash_iff address).mp h.window
    rw [simIsFlash_iff, hpage]
    omega
  inside := by
    have hinside := h.inside
    have hpages := h.part.pages
    rw [simFlashOffset_pageStart]
    omega

theorem normalise_page (h : chip.InPage address count) (hcount : 0 < count) :
    normalise chip (gdbNormaliseFlash chip (address &&& ~~~((64 : Word) - 1))) =
      flashAt (simFlashOffset address - simFlashOffset address % 64) := by
  have hsize := h.part.flashSize
  have hinside := h.inside
  have hwhole := h.wholePage hcount
  have hwindow := (simIsFlash_iff _).mp hwhole.window
  have hoffset := simFlashOffset_pageStart address
  rw [simFlashOffset_eq (address &&& ~~~((64 : Word) - 1))] at hoffset
  have hsame : gdbNormaliseFlash chip (address &&& ~~~((64 : Word) - 1)) =
      normalise chip (address &&& ~~~((64 : Word) - 1)) := rfl
  apply BitVec.eq_of_toNat_eq
  rw [hsame, normalise_toNat h.part.flashBase, normalise_toNat h.part.flashBase,
    flashAt_toNat (by omega)]
  by_cases hlow : (address &&& ~~~((64 : Word) - 1)).toNat < 2 ^ 24
  · rw [if_pos hlow, if_neg (by omega)]
    omega
  · rw [if_neg hlow, if_neg hlow]
    omega

end Chip.InPage

/-- A page with some of its bytes replaced, put over the page, replaces these. -/
theorem overlay_copyInto (memory : Nat → Byte) (page at' : Nat) (bytes : List Byte)
    (hfits : at' + bytes.length ≤ 64) :
    overlay memory page (copyInto (pageBytes memory page) at' bytes) =
      overlay memory (page + at') bytes := by
  have hlength : (pageBytes memory page).length = 64 := by
    rw [pageBytes, List.length_map, List.length_range]
  have hcopied : (copyInto (pageBytes memory page) at' bytes).length = 64 := by
    simp only [copyInto, List.length_append, List.length_take, List.length_drop, hlength]
    omega
  funext a
  unfold overlay
  rw [hcopied]
  by_cases hpage : page ≤ a ∧ a < page + 64
  · rw [if_pos hpage]
    obtain ⟨i, rfl⟩ : ∃ i, a = page + i := ⟨a - page, by omega⟩
    have hi : i < 64 := by omega
    have hpageByte : (pageBytes memory page).getD i 0 = memory (page + i) := by
      rw [List.getD_eq_getElem _ _ (by omega)]
      simp only [pageBytes, List.getElem_map, List.getElem_range]
    rw [Nat.add_sub_cancel_left, copyInto]
    by_cases hin : page + at' ≤ page + i ∧ page + i < page + at' + bytes.length
    · rw [if_pos hin, List.getD_append _ _ _ _ (by
        simp only [List.length_append, List.length_take, hlength]
        omega), List.getD_append_right _ _ _ _ (by
        simp only [List.length_take, hlength]
        omega)]
      congr 1
      simp only [List.length_take, hlength]
      omega
    · rw [if_neg hin, ← hpageByte]
      by_cases hbefore : i < at'
      · rw [List.append_assoc, List.getD_append _ _ _ _ (by
          simp only [List.length_take, hlength]
          omega), List.getD_eq_getElem?_getD, List.getD_eq_getElem?_getD, List.getElem?_take,
          if_pos hbefore]
      · rw [List.getD_append_right _ _ _ _ (by
          simp only [List.length_append, List.length_take, hlength]
          omega), List.getD_eq_getElem?_getD, List.getD_eq_getElem?_getD, List.getElem?_drop]
        congr 2
        simp only [List.length_append, List.length_take, hlength]
        omega
  · rw [if_neg hpage, if_neg (by omega)]

/-- A whole page written back with some of its bytes replaced. -/
theorem writePage_contents {link : Link} (hlink : link.Usable) {contents : Contents}
    {address : Word} {bytes : List Byte} (h : contents.chip.InPage address bytes.length)
    (hpositive : 0 < bytes.length) :
    OnContents (wlFlashWrite link (some contents.chip)
        (gdbNormaliseFlash contents.chip (address &&& ~~~((64 : Word) - 1)))
        (some (copyInto
          (contents.read (contents.chip.place (address &&& ~~~((64 : Word) - 1))) 64)
          (address - (address &&& ~~~((64 : Word) - 1))).toNat bytes)) 64).run
      contents (.ok ()) (contents.patch (contents.chip.place address) bytes) := by
  intro sim hquiet hview
  subst hview
  change sim.target.chip.InPage address bytes.length at h
  have hwhole := h.wholePage hpositive
  have hoffset := simFlashOffset_pageStart address
  have hpage := h.page
  have hinside := h.inside
  have hpages := h.part.pages
  have hstart : (address - (address &&& ~~~((64 : Word) - 1))).toNat =
      simFlashOffset address % 64 := by
    have hround := toNat_pageStart address
    have heq := simFlashOffset_eq address
    rw [BitVec.toNat_sub_of_le (by rw [BitVec.le_def, hround]; omega), hround, heq]
    omega
  have hread : sim.target.contents.read
      (sim.target.chip.place (address &&& ~~~((64 : Word) - 1))) 64 =
        pageBytes sim.target.flash (simFlashOffset address - simFlashOffset address % 64) := by
    rw [hwhole.place, hoffset]
    rfl
  have hlength : (copyInto (pageBytes sim.target.flash
      (simFlashOffset address - simFlashOffset address % 64))
        (simFlashOffset address % 64) bytes).length = 64 := by
    simp only [copyInto, pageBytes, List.length_append, List.length_take, List.length_drop,
      List.length_map, List.length_range]
    omega
  obtain ⟨sim', hrun, hframe, hunlocked, hchip, hmode, hflash, hram⟩ :=
    @wlFlashWrite_run _ _ _ (simulatorPort hlink) sim hquiet.ready h.part
      hquiet.target.programErrors hquiet.target.busyReads hquiet.target.mode
      (gdbNormaliseFlash sim.target.chip (address &&& ~~~((64 : Word) - 1)))
      (simFlashOffset address - simFlashOffset address % 64)
      (copyInto (pageBytes sim.target.flash
        (simFlashOffset address - simFlashOffset address % 64))
          (simFlashOffset address % 64) bytes) 64 (h.normalise_page hpositive)
      (by rw [hlength]; rfl)
      (by intro hempty; rw [hempty] at hlength; cases hlength)
      (by rw [hlength]; omega) (fun _ _ _ => trivial)
  refine ⟨sim', ?_, ?_, fun _ => ⟨hframe.ready hquiet.ready,
    ⟨hunlocked.programErrors, hunlocked.busyReads, hmode⟩⟩⟩
  · rw [← hread, ← hstart] at hrun
    exact hrun
  · rw [overlay_copyInto _ _ _ _ (by omega), Nat.sub_add_cancel (Nat.mod_le _ _)] at hflash
    show sim'.target.contents = sim.target.contents.patch (sim.target.chip.place address) bytes
    rw [h.place]
    unfold SimTarget.contents Contents.patch
    rw [hchip, hflash, hram]
    refine congrArg (Contents.mk sim.target.chip) (funext fun region => ?_)
    cases region with
    | flash => rfl
    | ram => rfl

/-! ## The server on the machine -/

/-- A machine whose programmer is the simulator and which has memory to spare.
The debugger's side of it may do anything. -/
structure Carries {σ : Type} (host : Handler Host σ) (sim : σ → Sim) : Prop where
  usb : ∀ request state, (host (.usb request) state).1 = (simCommand request (sim state)).1 ∧
    sim (host (.usb request) state).2 = (simCommand request (sim state)).2
  other : ∀ operation state, (∀ request, operation ≠ .usb request) →
    sim (host operation state).2 = sim state
  malloc : ∀ size state, (host (.malloc size) state).1 = true

theorem carries_bench : Carries bench Bench.target where
  usb _ _ := ⟨rfl, rfl⟩
  other := by
    intro operation state hother
    cases operation with
    | usb request => exact absurd rfl (hother request)
    | recv =>
        obtain ⟨target, incoming, outgoing⟩ := state
        cases incoming with
        | nil => rfl
        | cons c rest => rfl
    | send bytes => rfl
    | poll => rfl
    | sleep nanoseconds => rfl
    | malloc size => rfl
    | listen port => rfl
    | accept => rfl
  malloc _ _ := rfl

section Machine

variable {σ : Type} {host : Handler Host σ} {sim : σ → Sim}

/-- The machine by the contents of its part. -/
def machineSurface (sim : σ → Sim) : Surface σ Contents where
  view := fun state => (sim state).target.contents
  ready := fun state => (sim state).Quiet
  frame := fun before after => (sim before).Quiet → (sim after).Quiet
  frame_refl := fun _ => id
  frame_trans := fun h h' => h' ∘ h
  ready_of_frame := fun h => h

theorem Carries.onHost_run (hhost : Carries host sim) {α : Type} (program : Program Usb α)
    (state : σ) : ∃ final, (onHost program).run host state =
      ((program.run simulator (sim state)).1, final) ∧
        sim final = (program.run simulator (sim state)).2 := by
  induction program generalizing state with
  | done value => exact ⟨state, rfl, rfl⟩
  | cut => exact ⟨state, rfl, rfl⟩
  | call operation next ih =>
      obtain ⟨hreply, hnext⟩ := hhost.usb operation state
      obtain ⟨final, hrun, hfinal⟩ := ih (host (.usb operation) state).1
        (host (.usb operation) state).2
      rw [hnext, hreply] at hrun hfinal
      refine ⟨final, ?_, hfinal⟩
      show (onHost (next (host (.usb operation) state).1)).run host
        (host (.usb operation) state).2 = _
      rw [hreply]
      exact hrun

/-- What a programmer operation does on the simulator it does on the machine. -/
theorem Carries.onHost_drives (hhost : Carries host sim) {α : Type} {program : Program Usb α}
    {before after : Contents} {value : α} (h : OnContents program before value after) :
    Drives host (machineSurface sim) (onHost program) before value after := by
  intro state hquiet hview
  obtain ⟨final, hrun, hfinal, hframe⟩ := h (sim state) hquiet hview
  obtain ⟨state', hrun', hstate'⟩ := hhost.onHost_run program state
  rw [hrun] at hrun' hstate'
  refine ⟨state', hrun', ?_, fun hquiet => ?_⟩
  · show (sim state').target.contents = after
    rw [hstate']
    exact hfinal
  · rw [hstate']
    exact hframe hquiet

theorem Carries.onTarget_drives (hhost : Carries host sim) {α : Type}
    {operation : Link → Fallible α} {conn : GdbConn} {before after : Contents}
    {status : Except WlErr α} (h : OnContents (operation conn.link).run before status after) :
    Drives host (machineSurface sim) ((onTarget operation).run conn) before (status, conn) after :=
  (hhost.onHost_drives h).bind (Drives.pure _)

theorem Carries.malloc_drives (hhost : Carries host sim) (size : Nat) (contents : Contents) :
    Drives host (machineSurface sim) (request (.malloc size)) contents true contents := by
  intro state hquiet hview
  have hsim := hhost.other (.malloc size) state fun request h => by cases h
  refine ⟨(host (.malloc size) state).2, ?_, ?_, fun hquiet => ?_⟩
  · show (some (host (.malloc size) state).1, (host (.malloc size) state).2) = _
    rw [hhost.malloc]
  · show (sim (host (.malloc size) state).2).target.contents = contents
    rw [hsim]
    exact hview
  · rw [hsim]
    exact hquiet

theorem gdbMemRead_drives (hhost : Carries host sim) {conn : GdbConn} (hlink : conn.link.Usable)
    {contents : Contents} {address : Word} {count : Nat}
    (h : contents.chip.Spans address count) (buffer : List Byte) :
    Drives host (machineSurface sim) ((gdbMemRead address buffer count).run conn) contents
      ((.ok (), contents.read (contents.chip.place address) count ++ buffer.drop count), conn)
      contents := by
  have hblock := wlDmReadBlock_contents hlink h []
  rw [List.nil_append] at hblock
  have hread : Drives host (machineSurface sim) (onHost (readInto conn.link address count)) contents
      (.ok (), contents.read (contents.chip.place address) count) contents := by
    unfold readInto
    exact hhost.onHost_drives hblock
  have hbuffer : contents.read (contents.chip.place address) count ++
      buffer.drop (contents.read (contents.chip.place address) count).length =
        contents.read (contents.chip.place address) count ++ buffer.drop count := by
    rw [Contents.length_read]
  rw [← hbuffer]
  have hrun : (gdbMemRead address buffer count).run conn =
      onHost (readInto conn.link address count) >>= fun result =>
        pure ((result.1, result.2 ++ buffer.drop result.2.length), conn) := by
    unfold gdbMemRead
    simp only [StateT.run_bind, StateT.run_get, StateT.run_lift, StateT.run_pure, pure_bind,
      bind_assoc]
  rw [hrun]
  exact hread.bind (Drives.pure _)

/-- The ranges the server can patch: in RAM, or within a page of flash of a
part it can write. -/
def Chip.CanPatch (chip : Chip) (address : Word) (count : Nat) : Prop :=
  chip.InPage address count ∨ chip.InRam address count

/-- A patch of flash: the page around the bytes, read and written back. -/
theorem gdbMemPatch_flash {conn : GdbConn} {address : Word} {bytes : List Byte}
    (hflash : gdbAddrIsFlash conn.chip address = true) (hpage : conn.chip.eraseSize = 64) :
    (gdbMemPatch address bytes).run conn =
      (do
        if !(← StateT.lift (request (.malloc 64))) then
          return .error .io
        match ← onTarget fun link =>
            filled (wlDmReadBlock link (address &&& ~~~((64 : Word) - 1)) 64) with
        | .error status => return .error status
        | .ok page =>
            onTarget fun link => wlFlashWrite link (some conn.chip)
              (gdbNormaliseFlash conn.chip (address &&& ~~~((64 : Word) - 1)))
              (some (copyInto page (address - (address &&& ~~~((64 : Word) - 1))).toNat bytes))
              64 : Gdb (Except WlErr Unit)).run conn := by
  unfold gdbMemPatch
  show ((if gdbAddrIsFlash conn.chip address then _ else _ : Gdb (Except WlErr Unit)).run conn) = _
  rw [if_pos hflash]
  dsimp only
  rw [hpage, if_neg (by decide)]
  rfl

/-- A patch elsewhere: one store. -/
theorem gdbMemPatch_ram {conn : GdbConn} {address : Word} {bytes : List Byte}
    (hflash : gdbAddrIsFlash conn.chip address = false) :
    (gdbMemPatch address bytes).run conn =
      (if bytes.length = 2 then
        onTarget fun link => wlDmWrite16 link address (bytes.getD 1 0 ++ bytes.getD 0 0)
      else if bytes.length = 4 then
        onTarget fun link => wlDmWrite32 link address
          (wordLe (bytes.getD 0 0) (bytes.getD 1 0) (bytes.getD 2 0) (bytes.getD 3 0))
      else
        return .error .usage : Gdb (Except WlErr Unit)).run conn := by
  unfold gdbMemPatch
  show ((if gdbAddrIsFlash conn.chip address then _ else _ : Gdb (Except WlErr Unit)).run conn) = _
  rw [if_neg (by rw [hflash]; exact Bool.false_ne_true)]

theorem gdbMemPatch_drives (hhost : Carries host sim) {conn : GdbConn} (hlink : conn.link.Usable)
    (hchip : conn.chip.Mapped) {contents : Contents} (hsame : contents.chip = conn.chip)
    {address : Word} {bytes : List Byte} (hlength : bytes.length = 2 ∨ bytes.length = 4)
    (h : conn.chip.CanPatch address bytes.length) :
    Drives host (machineSurface sim) ((gdbMemPatch address bytes).run conn) contents
      (.ok (), conn) (contents.patch (conn.chip.place address) bytes) := by
  have hpositive : 0 < bytes.length := by omega
  rcases h with hpage | hram
  · have hflash : gdbAddrIsFlash conn.chip address = true :=
      (gdbAddrIsFlash_iff hpage.part address).mpr (hpage.mono hpositive)
    have hread : OnContents (filled (wlDmReadBlock conn.link (address &&& ~~~((64 : Word) - 1))
        64)).run contents (.ok (contents.read
          (conn.chip.place (address &&& ~~~((64 : Word) - 1))) 64)) contents := by
      have hwhole : contents.chip.Spans (address &&& ~~~((64 : Word) - 1)) 64 :=
        .inl (hsame ▸ hpage.wholePage hpositive)
      have hblock := wlDmReadBlock_contents hlink hwhole []
      rw [hsame] at hblock
      exact hblock.bind (Drives.pure _)
    have hwrite := writePage_contents hlink (hsame ▸ hpage) hpositive
    rw [hsame] at hwrite
    rw [gdbMemPatch_flash hflash hpage.part.eraseSize]
    refine ((hhost.malloc_drives 64 contents).liftOwn conn).thenOwn ?_
    refine (hhost.onTarget_drives hread).thenOwn ?_
    exact hhost.onTarget_drives hwrite
  · have hflash : gdbAddrIsFlash conn.chip address = false := not_gdbAddrIsFlash hchip hram
    rw [gdbMemPatch_ram hflash]
    rcases hlength with htwo | hfour
    · rw [if_pos htwo]
      obtain ⟨b0, b1, rfl⟩ := List.length_eq_two.mp htwo
      refine hhost.onTarget_drives (onContents_of_onTarget fun target hquiet hview => ?_)
      subst hview
      refine ⟨_, wlDmRunWrite_drives hlink .half address _ target, ?_⟩
      rw [← hsame] at hram ⊢
      exact store_contents hram (storeBytes_half target.ram _ b0 b1) hquiet
    · rw [if_neg (by omega), if_pos hfour]
      obtain ⟨b0, b1, b2, b3, rfl⟩ : ∃ b0 b1 b2 b3, bytes = [b0, b1, b2, b3] := by
        match bytes, hfour with
        | [b0, b1, b2, b3], _ => exact ⟨b0, b1, b2, b3, rfl⟩
      refine hhost.onTarget_drives (onContents_of_onTarget fun target hquiet hview => ?_)
      subst hview
      refine ⟨_, wlDmRunWrite_drives hlink .word address _ target, ?_⟩
      rw [← hsame] at hram ⊢
      exact store_contents hram (storeBytes_wordLe target.ram _ b0 b1 b2 b3) hquiet

end Machine

end WchLink
