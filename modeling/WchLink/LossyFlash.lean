import WchLink.CliSession
import WchLink.SupervisedFlash
import WchLink.Verification

/-! # Flash writes over a transport that loses requests

A write of an image may lose any of its requests, and its clean-ups are not
checked. Whatever is lost, only the image's pages are erased and programmed, and
a verification that succeeds has read the image back from where it was to go.
-/

namespace WchLink

open Bytes Interaction

/-! ## Memories changed in some pages only -/

/-- The address is that of one of the pages that may be changed. -/
structure PageOf (writable : Nat → Prop) (address : Word) : Prop where
  aligned : simFlashOffset address % 64 = 0
  page : writable (simFlashOffset address / 64)

/-- Nothing but pages that may be changed has been. -/
structure Memories.Within (before : Memories) (writable : Nat → Prop) (after : Memories) :
    Prop where
  chip : after.chip = before.chip
  ram : after.ram = before.ram
  flash : ∀ offset, ¬writable (offset / 64) → after.flash offset = before.flash offset

theorem fillBytes_outside (memory : Nat → Byte) {offset count limit a : Nat} (value : Byte)
    (h : ¬(offset ≤ a ∧ a < offset + count)) :
    fillBytes memory offset count limit value a = memory a :=
  if_neg fun hinside => h ⟨hinside.1, hinside.2.1⟩

theorem programBytes_outside (memory wanted : Nat → Byte) {offset count limit a : Nat}
    (h : ¬(offset ≤ a ∧ a < offset + count)) :
    programBytes memory offset count limit wanted a = memory a :=
  if_neg fun hinside => h ⟨hinside.1, hinside.2.1⟩

/-- An offset in another page is none of the page's bytes. -/
theorem PageOf.outside {writable : Nat → Prop} {address : Word} (h : PageOf writable address)
    {offset : Nat} (hoffset : ¬writable (offset / 64)) :
    ¬(simFlashOffset address ≤ offset ∧ offset < simFlashOffset address + 64) := by
  rintro ⟨hlow, hhigh⟩
  have haligned := h.aligned
  have hsame : offset / 64 = simFlashOffset address / 64 := by omega
  rw [hsame] at hoffset
  exact hoffset h.page

/-- No sector is ever erased, and operations are started on pages that may be
changed. -/
def pageRules (before : Memories) (writable : Nat → Prop) : Supervision where
  fact := before.Within writable
  forbidden := simCtlrPer
  selected := PageOf writable
  lock := by decide
  keeps := by
    intro target value memories hfact hper hstart heffect
    cases heffect with
    | none => exact hfact
    | reset => exact ⟨hfact.chip, hfact.ram, hfact.flash⟩
    | erase hstarted =>
        refine ⟨hfact.chip, hfact.ram, fun offset hoffset => ?_⟩
        have houtside := (hstart hstarted).outside hoffset
        exact (fillBytes_outside _ _ houtside).trans (hfact.flash offset hoffset)
    | program hstarted =>
        refine ⟨hfact.chip, hfact.ram, fun offset hoffset => ?_⟩
        have houtside := (hstart hstarted).outside hoffset
        exact (programBytes_outside _ _ houtside).trans (hfact.flash offset hoffset)
    | eraseSector _ hsector => exact absurd hper hsector

section Steps

open Program

variable {link : Link} {before : Memories} {writable : Nat → Prop}

theorem pageRules_allows {set : Word} (h : set &&& simCtlrPer = 0) :
    set &&& (pageRules before writable).forbidden = 0 := h

/-- A word of a page that may be changed. -/
theorem pageRules_stores {page slot : Nat} (hwritable : writable (page / 64))
    (haligned : page % 64 = 0) (hsmall : page + 64 ≤ 2 ^ 24) (hslot : slot < 16) :
    (pageRules before writable).Stores (flashAt (page + 4 * slot)) := by
  have hvalue : (flashAt (page + 4 * slot)).toNat = 0x08000000 + (page + 4 * slot) :=
    flashAt_toNat (by omega)
  have hoffset : simFlashOffset (flashAt (page + 4 * slot)) = page + 4 * slot :=
    simFlashOffset_flashAt (by omega)
  have hctrl : simIsCtrl (flashAt (page + 4 * slot)) = false := by
    rw [← Bool.not_eq_true, simIsCtrl_iff]
    omega
  have hflash : simIsFlash (flashAt (page + 4 * slot)) = true := by
    rw [simIsFlash_iff]
    omega
  refine ⟨hctrl, fun target word htarget => ?_⟩
  have hfact := htarget.fact
  have houtside {offset : Nat} (hother : ¬writable (offset / 64)) :
      ¬(page + 4 * slot ≤ offset ∧ offset < page + 4 * slot + 2 ^ Width.word.exponent) := by
    rintro ⟨hlow, hhigh⟩
    have hwidth : 2 ^ Width.word.exponent = 4 := rfl
    have hsame : offset / 64 = page / 64 := by omega
    rw [hsame] at hother
    exact hother hwritable
  unfold SimTarget.store simAccess
  simp only [hctrl, hflash, hoffset, Bool.false_eq_true, if_false, if_true]
  split_ifs
  · exact hfact
  · unfold simFlashStore
    dsimp only
    split_ifs
    · exact ⟨hfact.chip, hfact.ram, hfact.flash⟩
    · exact hfact
    · exact hfact
    · refine ⟨hfact.chip, hfact.ram, fun offset hother => ?_⟩
      exact (programBytes_outside _ _ (houtside hother)).trans (hfact.flash offset hother)

theorem writePage_pages {page : Nat} (hwritable : writable (page / 64)) (haligned : page % 64 = 0)
    (hsmall : page + 64 ≤ 2 ^ 24) (start stop : Word) (image : List Byte) :
    (pageRules before writable).programs.Mem
      (writePage link 64 start stop image (flashAt page)).run := by
  let C := (pageRules before writable).programs
  have hoffset : simFlashOffset (flashAt page) = page := simFlashOffset_flashAt (by omega)
  have hpage : PageOf writable (flashAt page) := by
    refine ⟨?_, ?_⟩
    · rw [hoffset]
      exact haligned
    · rw [hoffset]
      exact hwritable
  have hold :
      Triple unreliable (fun sim => (pageRules before writable).Holds sim.target) (fun _ => True)
      (readOldPage link 64 start stop (flashAt page)) fun old _ => True ∧ old.length = 64 :=
    (Triple.of_mem (readOldPage_mem (supervised_loads link) _ _ _ _)).known
      (readOldPage_length start stop (flashAt page))
  have hrest (old : List Byte) :
      Triple unreliable (fun sim => (pageRules before writable).Holds sim.target)
      (fun _ => True ∧ old.length = 64) (do
        erasePageFast link (flashAt page)
        bufferReset link
        loadPage link (flashAt page) (mergePage (flashAt page) start stop image old)
        programPageFast link (flashAt page)) fun _ _ => True := by
    apply Triple.assuming _ fun _ _ hlength => hlength.2
    intro hlength
    apply Triple.of_mem
    apply C.andThen (erasePageFast_supervised hpage (pageRules_allows (by decide)))
    intro _
    apply C.andThen (bufferReset_supervised (pageRules_allows (by decide)))
    intro _
    apply C.andThen
    · apply @loadPage_supervised link _ page (fun slot hslot =>
        pageRules_stores hwritable haligned hsmall hslot) (pageRules_allows (by decide)) _ 0
      simp [mergePage, hlength]
    · intro _
      exact programPageFast_supervised hpage (pageRules_allows (by decide))
  exact (hold.andThen hrest).mem

/-- Induction on the rounds: the pages up to the image's end may be changed. -/
theorem writePages_pages {stop : Nat} (hstop : stop + 64 ≤ 2 ^ 24) (start : Word)
    (image : List Byte) (rounds : Nat) {page : Nat} (haligned : page % 64 = 0)
    (hwritable : ∀ index, page / 64 ≤ index → 64 * index < stop → writable index)
    (hpage : page < stop + 64) :
    (pageRules before writable).programs.Mem
      (writePages link 64 start (flashAt stop) image rounds (flashAt page)).run := by
  induction rounds generalizing page with
  | zero => exact ProgramClass.map _ _ preserving_cuts
  | succ rounds ih =>
      have hlt : flashAt page < flashAt stop ↔ page < stop := by
        rw [BitVec.lt_def, flashAt_toNat (by omega), flashAt_toNat (by omega)]
        omega
      rw [writePages]
      by_cases hmore : page < stop
      · have hnext : flashAt page + 64 = flashAt (page + 64) := flashAt_add page 64
        rw [if_pos (hlt.2 hmore), hnext]
        apply ProgramClass.andThen
        · exact writePage_pages (hwritable _ le_rfl (by omega)) haligned (by omega) _ _ _
        · intro _
          apply ih (by omega) _ (by omega)
          intro index hindex
          exact hwritable index (by omega)
      · rw [if_neg (mt hlt.1 hmore)]
        exact ProgramClass.ok _ ()

/-- The pages of a part's flash that hold a byte of an image. -/
def ImagePage (start length index : Nat) : Prop :=
  64 * index < start + length ∧ start < 64 * index + 64

/-- Where an image starts in the part's flash. -/
def imageStart (chip : Chip) (address : Word) : Nat :=
  (normalise chip address).toNat - chip.flashBase.toNat

theorem imageStart_flashAt {chip : Chip} (hchip : chip.Ch32v0) {address : Word} {offset : Nat}
    (haddress : normalise chip address = flashAt offset) (hoffset : offset < 2 ^ 24) :
    imageStart chip address = offset := by
  have hbase : chip.flashBase.toNat = 0x08000000 := by rw [hchip.flashBase]; rfl
  rw [imageStart, haddress, flashAt_toNat hoffset, hbase]
  omega

/-- The write of an image changes pages that may be changed, if those of the image are
among them; a request that is refused changes nothing. -/
theorem wlFlashWrite_imagePages (link : Link) {chip : Chip} (hchip : chip ∈ chips) (address : Word)
    (image : List Byte) {length : BitVec 64} (hlength : length.toNat ≤ 2 ^ 63 - 1)
    (hpages : ∀ index, ImagePage (imageStart chip address) length.toNat index → writable index) :
    (pageRules before writable).programs.Mem
      (wlFlashWrite link (some chip) address (some image) length).run := by
  let C := (pageRules before writable).programs
  by_cases haccepted : length ≠ 0 ∧ chip.algo = .ch32v0 ∧
      wlFlashRangeOk (some chip) address length = true
  · obtain ⟨hnonzero, halgo, hrange⟩ := haccepted
    have hpart := ch32v0_of_mem hchip halgo
    have hsize := hpart.flashSize
    obtain ⟨offset, haddress, hstop, hwrite⟩ :=
      wlFlashWrite_pages link hpart address image hlength hnonzero hrange
    rw [imageStart_flashAt hpart haddress (by omega)] at hpages
    rw [hwrite]
    apply ProgramClass.andThen _ unlock_supervised
    intro _
    apply writePages_pages (by omega) _ _ _ (by omega) _ (by omega)
    intro index hindex hbefore
    exact hpages index ⟨hbefore, by omega⟩
  · unfold wlFlashWrite
    dsimp only
    split
    · exact C.throwThen _ _
    · split
      · exact C.throwThen _ _
      · split
        · exact C.throwThen _ _
        · next hnonzero _ hrange =>
            split
            · next halgo =>
                rw [Bool.not_eq_true', Bool.not_eq_false] at hrange
                exact absurd ⟨hnonzero, halgo, hrange⟩ haccepted
            · exact C.throws _

end Steps

/-! ## The request as a whole -/

/-- What a flash request needs of a class besides the write itself. -/
structure HasReading (C : ProgramClass Usb) : Prop extends HasControls C where
  loads : ∀ link, HasLoads C link
  select : ∀ familyId interfaceSpeed,
    C.Mem (transportCommand (interfaceRequest familyId interfaceSpeed))

section Requests

variable {C : ProgramClass Usb} (h : HasReading C) (chip : Chip)

include h

theorem wlLinkeSetInterface_reading : C.StateMem (wlLinkeSetInterface (some chip)).run :=
  fun link => ⟨wlLinkeSetInterface_mem C (h.select _ _), (wlLinkeSetInterface_frame _ link).2⟩

theorem wlLinkeReadMemory_reading (address : Word) (length : Nat) :
    C.StateMem (wlLinkeReadMemory (some chip) address length).run := by
  rw [wlLinkeReadMemory_eq]
  apply C.andThenState (wlLinkeSetInterface_reading h chip)
  intro _
  apply C.andThenState (C.stateLiftOk C.stateGet)
  intro link
  apply C.andThenState (C.stateLift (wlLinkeHalt_mem C h.attach))
  intro _
  apply C.andThenState (C.stateLiftOk C.stateGet)
  intro link
  exact C.stateLift (filled_mem (h.loads link) _ _)

theorem verifyChunks_reading (start : Word) (expected : List Byte) (length rounds done : Nat) :
    C.StateMem (verifyChunks chip start expected length rounds done).run := by
  induction rounds generalizing done with
  | zero => exact C.stateDone _
  | succ rounds ih =>
      rw [verifyChunks]
      split
      · apply C.andThenState (wlLinkeReadMemory_reading h chip _ _)
        intro buffer
        dsimp only
        split
        · exact C.stateDone _
        · exact ih _
      · exact C.stateDone _

omit h in
/-- What a flash request does after its write. -/
def verifyThenResume (address : Word) (image : List Byte) (length : BitVec 64) (verify : Bool) :
    Linked Unit := do
  let status ← ExceptT.lift
    (if verify then (wlFlashVerify chip address image length).run else pure (.ok ()))
  ignore (wlLinkeResume (← get))
  ofExcept status

theorem verifyThenResume_reading (address : Word) (image : List Byte) (length : BitVec 64)
    (verify : Bool) : C.StateMem (verifyThenResume chip address image length verify).run := by
  apply C.andThenState (C.stateLiftOk _)
  · intro status
    apply C.andThenState (C.stateLiftOk C.stateGet)
    intro link
    apply C.andThenState (C.stateLift (ignore_mem C (wlLinkeResume_mem h.toHasControls)))
    intro _
    cases status with
    | ok value => exact C.stateDone _
    | error error => exact C.stateDone _
  · split
    · exact verifyChunks_reading h chip _ _ _ _ _
    · exact C.stateDone _

omit h in
theorem wlLinkeWriteFlash_parts (address : Word) (image : List Byte) (length : BitVec 64)
    (verify : Bool) :
    wlLinkeWriteFlash (some chip) address (some image) length verify = (do
      wlLinkeSetInterface (some chip)
      wlLinkeHalt (← get)
      wlFlashWrite (← get) chip address image length
      verifyThenResume chip address image length verify) := rfl

/-- A flash request is in every class that has its write and can read. -/
theorem wlLinkeWriteFlash_reading (address : Word) (image : List Byte) (length : BitVec 64)
    (verify : Bool)
    (hwrite : ∀ link, C.Mem (wlFlashWrite link (some chip) address (some image) length).run) :
    C.StateMem (wlLinkeWriteFlash (some chip) address (some image) length verify).run := by
  rw [wlLinkeWriteFlash_parts]
  apply C.andThenState (wlLinkeSetInterface_reading h chip)
  intro _
  apply C.andThenState (C.stateLiftOk C.stateGet)
  intro link
  apply C.andThenState (C.stateLift (wlLinkeHalt_mem C h.attach))
  intro _
  apply C.andThenState (C.stateLiftOk C.stateGet)
  intro link
  apply C.andThenState (C.stateLift (hwrite link))
  intro _
  exact verifyThenResume_reading h chip address image length verify

end Requests

/-- Attaching, resuming, releasing and selecting leave the target's memory alone. -/
theorem simCommand_control_target (command argument : Byte) (sim : Sim) :
    (simCommand (controlRequest command argument) sim).2.target = sim.target := by
  have hshort : (controlRequest command argument).length < 9 := by
    have hlength : (controlRequest command argument).length = 4 := rfl
    omega
  unfold simCommand simControl
  dsimp only
  simp only [hshort, if_true]
  split_ifs <;> rfl

theorem supervised_request {rules : Supervision} {request : List Byte}
    (h : ∀ sim, (simCommand request sim).2.target = sim.target) :
    rules.programs.Mem (transportCommand request) := by
  apply Program.preserving_perform fun _ hsim => hsim
  intro sim reply next hsim hnext
  rcases hnext.next with rfl | rfl
  · exact hsim
  · rw [h sim]
    exact hsim

theorem supervised_reading (rules : Supervision) : HasReading rules.programs where
  attach := supervised_request (simCommand_control_target _ _)
  run := supervised_request (simCommand_control_target _ _)
  release := supervised_request (simCommand_control_target _ _)
  loads := supervised_loads
  select _ _ := supervised_request fun _ => rfl

/-! ## Reading back -/

/-- The simulators of one part, behind a transport that loses requests. -/
def unreliablePart (chip : Chip) : World Usb {sim : Sim // sim.Of chip} :=
  fun sim request reply next => unreliable sim.1 request reply next.1

theorem unreliablePart_refines (chip : Chip) :
    (unreliablePart chip).Refines unreliable Subtype.val :=
  fun _ _ _ _ h => h

/-- A load of a part's flash reports its bytes. -/
theorem Load.holds_flash {target : SimTarget} {load : Load}
    (hin : target.chip.InFlash load.address load.size.bytes) :
    load.Holds (fun address => target.flash (simFlashOffset address))
      (target.loaded load.size load.address) := by
  have hfrom := SimTarget.loadsFrom_flash (by rwa [Width.bytes_eq] at hin)
  unfold Load.Holds Load.addresses addressesFrom
  rw [hfrom.bytes, List.map_map]
  apply List.map_congr_left
  intro i hi
  have hi : i < load.size.bytes := List.mem_range.mp hi
  rw [← (hin.mono hi : target.chip.InFlash load.address (i + 1)).offset_add one_pos]
  rfl

/-- Whatever is lost, what loads report is there. -/
theorem unreliablePart_truthful {chip : Chip} {start : Word} {length : Nat}
    (h : chip.InFlash start length) :
    Truthful (unreliablePart chip) flashMemory (addressesFrom start length) where
  load := by
    intro link load state final status hload hreturns
    have hread : TargetTriple
        (fun target => target.chip = chip ∧ target.flash = state.1.target.flash) (fun _ => True)
        (load.request link) fun word _ => load.Holds (flashMemory state) word := by
      apply dmReadSized_target
      rintro target ⟨hchip, hflash⟩ -
      have hunmoved := SimTarget.Unmoved.afterLoad target load.size load.address
      have hin : target.chip.InFlash load.address load.size.bytes := by
        rw [hchip]
        exact h.of_load hload
      have hholds := Load.holds_flash hin
      rw [hflash] at hholds
      exact ⟨⟨hunmoved.chip.trans hchip, hunmoved.flash.trans hflash⟩, hholds⟩
    obtain ⟨⟨-, hflash⟩, hholds⟩ := hreturns.of_wp
      (Program.wp_refines (unreliablePart_refines chip) (hread state.1 ⟨state.2.chip, rfl⟩ trivial))
    refine ⟨?_, fun word hword => hholds word (congrArg some hword)⟩
    unfold flashMemory
    rw [hflash]
  attach := by
    intro state reply next hnext
    unfold flashMemory
    rcases hnext.next with hsame | hdone
    · rw [hsame]
    · rw [hdone, simCommand_control_target]
  select := by
    intro familyId interfaceSpeed state reply next hnext
    unfold flashMemory
    rcases hnext.next with hsame | hdone
    · rw [hsame]
    · rw [hdone]
      rfl

/-- A write that succeeds was of a range of the part's flash. -/
theorem wlFlashWrite_accepted (link : Link) {chip : Chip} (hchip : chip ∈ chips) (address : Word)
    (image : List Byte) {length : BitVec 64} (hlength : length.toNat ≤ 2 ^ 63 - 1) :
    (wlFlashWrite link (some chip) address (some image) length).run.Always fun status =>
      status = .ok () → chip.InFlash (normalise chip address) length.toNat := by
  by_cases hrange : chip.algo = .ch32v0 ∧ wlFlashRangeOk (some chip) address length = true
  · obtain ⟨halgo, hrange⟩ := hrange
    have hpart := ch32v0_of_mem hchip halgo
    have hsize := hpart.flashSize
    obtain ⟨offset, haddress, hstop⟩ := rangeOk_start hpart hlength hrange
    have hin : chip.InFlash (normalise chip address) length.toNat := by
      rw [haddress]
      exact flashAt_inFlash (by omega) (by omega) hstop
    exact (Program.always_true _).mono fun _ _ _ => hin
  · unfold wlFlashWrite
    dsimp only
    split
    · exact nofun
    · split
      · exact nofun
      · split
        · exact nofun
        · next hinside =>
            split
            · next halgo =>
                rw [Bool.not_eq_true', Bool.not_eq_false] at hinside
                exact absurd ⟨halgo, hinside⟩ hrange
            · exact nofun

theorem wlLinkeWriteFlash_accepted {chip : Chip} (hchip : chip ∈ chips) (address : Word)
    (image : List Byte) {length : BitVec 64} (hlength : length.toNat ≤ 2 ^ 63 - 1) {verify : Bool}
    {link link' : Link} {start final : {sim : Sim // sim.Of chip}}
    (h : Program.Returns (unreliablePart chip) ((wlLinkeWriteFlash (some chip) address (some image)
      length verify).run.run link) start (.ok (), link') final) :
    chip.InFlash (normalise chip address) length.toNat := by
  rw [wlLinkeWriteFlash_eq] at h
  obtain ⟨-, selected, chosen, -, h⟩ := h.ok_bind
  obtain ⟨-, held, halted, -, h⟩ := (h.ok_get).ok_bind
  obtain ⟨value, sent, written, hwrite, -⟩ := (h.ok_get).ok_bind
  obtain ⟨status, between, hwrite, hlifted⟩ := Program.returns_bind_iff.mp hwrite
  obtain ⟨hstatus, -⟩ := Program.returns_done_iff.mp hlifted
  exact hwrite.of_always (wlFlashWrite_accepted held hchip address image hlength)
    (Prod.mk.inj hstatus).1.symm

/-- Letting the target run leaves its flash alone. -/
theorem wlLinkeResume_flash {chip : Chip} (link : Link) :
    (remembering (unreliablePart chip) flashMemory).Mem (ignore (wlLinkeResume link)).run := by
  let C := remembering (unreliablePart chip) flashMemory
  have hcontrol (command argument : Byte) :
      C.Mem (transportCommand (controlRequest command argument)) := by
    apply Program.keeps_perform fun _ => trivial
    intro state reply next hnext
    unfold flashMemory
    rcases hnext.next with hsame | hdone
    · rw [hsame]
    · rw [hdone, simCommand_control_target]
  exact ignore_mem C (wlLinkeResume_mem ⟨hcontrol _ _, hcontrol _ _, hcontrol _ _⟩)

/-- A flash request that verifies and succeeds was of a range of the flash, and leaves the
image there. -/
theorem wlLinkeWriteFlash_verified {chip : Chip} (hchip : chip ∈ chips) (address : Word)
    (image : List Byte) {length : BitVec 64} (hlength : length.toNat ≤ 2 ^ 63 - 1)
    {link link' : Link} {start final : {sim : Sim // sim.Of chip}}
    (h : Program.Returns (unreliablePart chip) ((wlLinkeWriteFlash (some chip) address (some image)
      length true).run.run link) start (.ok (), link') final) :
    chip.InFlash (normalise chip address) length.toNat ∧ ∀ i < length.toNat,
      flashMemory final (normalise chip address + BitVec.ofNat 32 i) = image.getD i 0 := by
  have hin := wlLinkeWriteFlash_accepted hchip address image hlength h
  obtain ⟨verified, middle, hbytes, hresume⟩ := (wlFlashVerify_compares chip address image length
    (unreliablePart_truthful hin)).2 link link' start final h
  refine ⟨hin, fun i hi => ?_⟩
  rw [remembering_returns (wlLinkeResume_flash verified) hresume]
  exact hbytes i hi

/-- Over a transport that may lose any request or any answer, a flash request
leaves the RAM and every page without a byte of the image as they were, at every
moment of every run; and one that verifies and succeeds leaves the image where it
was to go. -/
theorem wlLinkeWriteFlash_unreliable (chip : Chip) (hchip : chip ∈ chips) (address : Word)
    (image : List Byte) (length : BitVec 64) (hlength : length.toNat ≤ 2 ^ 63 - 1) (verify : Bool)
    (link : Link) (start : {sim : Sim // sim.Of chip})
    (hidle : start.1.target.ctlr &&& (simCtlrPer ||| simCtlrStrt) = 0) :
    (∀ trace residual final, Program.Run (unreliablePart chip) ((wlLinkeWriteFlash (some chip)
        address (some image) length verify).run.run link) start trace residual final →
      final.1.target.ram = start.1.target.ram ∧
        ∀ offset, ¬ImagePage (imageStart chip address) length.toNat (offset / 64) →
          final.1.target.flash offset = start.1.target.flash offset) ∧
    ∀ link' final, verify = true → Program.Returns (unreliablePart chip) ((wlLinkeWriteFlash
        (some chip) address (some image) length verify).run.run link) start (.ok (), link') final →
      ∀ i < length.toNat,
        flashMemory final (normalise chip address + BitVec.ofNat 32 i) = image.getD i 0 := by
  constructor
  · intro trace residual final hrun
    have hwithin : (pageRules start.1.target.memories
        (ImagePage (imageStart chip address) length.toNat)).Holds start.1.target :=
      ⟨⟨rfl, rfl, fun _ _ => rfl⟩, pageRules_allows (clear_bits hidle (by decide)),
        fun hstarted => absurd (clear_bits hidle (by decide)) hstarted⟩
    have hwrite := (wlLinkeWriteFlash_reading
      (supervised_reading (pageRules start.1.target.memories _)) chip address image length verify
        fun link => wlFlashWrite_imagePages link hchip address image hlength fun _ h => h) link
    have howes := Program.owes_of_wp (Program.wp_of_run
      (Program.wp_refines (unreliablePart_refines chip) (hwrite.1 start.1 hwithin)) hrun)
    have hfinal : (pageRules start.1.target.memories
        (ImagePage (imageStart chip address) length.toNat)).Holds final.1.target := by
      cases residual with
      | done value => exact howes
      | cut => exact howes
      | call operation next => exact howes
    exact ⟨hfinal.fact.ram, hfinal.fact.flash⟩
  · rintro link' final rfl hreturns
    exact (wlLinkeWriteFlash_verified hchip address image hlength hreturns).2

/-- A locked part with one byte programmed. -/
def lossyStart : {sim : Sim // sim.Of ch32v003} where
  val := { simConfigured ch32v003 with
    target := { (simNew ch32v003).target with flash := fun offset =>
      if offset = 1 then 0x55 else 0xff } }
  property := ⟨rfl, by unfold Sim.Sound; decide⟩

/-- The part has been selected, which the programmer's answer would have said. -/
def lossySelected : {sim : Sim // sim.Of ch32v003} where
  val := { lossyStart.1 with chipId := ch32v003.linkeId, interfaceSpeed := ch32v003.interfaceSpeed }
  property := ⟨rfl, by unfold Sim.Sound; decide⟩

/-- A request of which an answer is lost changes nothing, and one of which all are
received leaves four bytes there. -/
theorem wlLinkeWriteFlash_unreliable_lost :
    (∃ residual, Program.Run (unreliablePart ch32v003)
      ((wlLinkeWriteFlash (some ch32v003) 0x08000000
        (some [1, 2, 3, 4]) 4 true).run.run wlLinkeAttachTransport) lossyStart
        [⟨interfaceRequest ch32v003.linkeId ch32v003.interfaceSpeed, .error (-7)⟩] residual
        lossySelected ∧ lossySelected.1.target.ram = lossyStart.1.target.ram ∧
      ∀ offset, ¬ImagePage (imageStart ch32v003 0x08000000) 4 (offset / 64) →
        lossySelected.1.target.flash offset = lossyStart.1.target.flash offset) ∧
    ∃ link' final, Program.Returns (unreliablePart ch32v003) ((wlLinkeWriteFlash (some ch32v003)
        0x08000000 (some [1, 2, 3, 4]) 4 true).run.run wlLinkeAttachTransport) lossyStart
        (.ok (), link') final ∧
      ∀ i < 4, flashMemory final (0x08000000 + BitVec.ofNat 32 i) = [1, 2, 3, 4].getD i 0 := by
  have hruns := wlLinkeWriteFlash_unreliable ch32v003 (List.Mem.head _) 0x08000000 [1, 2, 3, 4] 4
    (by decide) true wlLinkeAttachTransport lossyStart (by decide)
  constructor
  · have hlost : unreliablePart ch32v003 lossyStart
        (interfaceRequest ch32v003.linkeId ch32v003.interfaceSpeed) (.error (-7)) lossySelected :=
      .inr ⟨-7, rfl, .inr rfl⟩
    have hrun : Program.Run (unreliablePart ch32v003) ((wlLinkeWriteFlash (some ch32v003) 0x08000000
        (some [1, 2, 3, 4]) 4 true).run.run wlLinkeAttachTransport) lossyStart
        [⟨interfaceRequest ch32v003.linkeId ch32v003.interfaceSpeed, .error (-7)⟩]
        (.done (.error .usb, wlLinkeAttachTransport)) lossySelected :=
      .step hlost (.refl _ _)
    exact ⟨_, hrun, hruns.1 _ _ _ hrun⟩
  · have hok : (((wlLinkeWriteFlash (some ch32v003) 0x08000000 (some [1, 2, 3, 4]) 4 true).run.run
        wlLinkeAttachTransport).run (simulatorOf ch32v003) lossyStart).1 =
          some (.ok (), wlLinkeAttachTransport.set ch32v003) := by
      decide +kernel
    have hanswered : ∀ state operation reply next,
        (simulatorOf ch32v003).world state operation reply next →
          unreliablePart ch32v003 state operation reply next := by
      intro state operation reply next hnext
      exact .inl ⟨(congrArg Prod.fst hnext).symm, congrArg (fun answer => answer.2.1) hnext.symm⟩
    have hreturns := (Program.returns_of_fst hok).mono hanswered
    exact ⟨_, _, hreturns, hruns.2 _ _ rfl hreturns⟩

end WchLink
