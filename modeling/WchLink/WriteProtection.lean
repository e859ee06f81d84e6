import WchLink.FlashRange
import WchLink.ProtectedPages

/-! # Writing after a refusal

A refused page operation leaves WRPRTERR set, and every later wait reads it:
nothing the flasher does writes the bit back. So the writes of a session succeed
until one of them touches a protected page, and none of them does after that.
-/

namespace WchLink

open Bytes Interaction

/-- A controller between two writes. -/
structure SimTarget.Idle (target : SimTarget) : Prop where
  busyReads : target.busyReads ≤ simBusyReads
  mode : target.ctlr &&& modeMask = 0

/-- No error has been recorded. -/
structure SimTarget.Clean (target : SimTarget) : Prop extends target.Idle where
  programErrors : target.programErrors = 0

/-- An error has been recorded. -/
structure SimTarget.Poisoned (target : SimTarget) : Prop extends target.Idle where
  programErrors : 0 < target.programErrors

theorem SimTarget.Idle.busyReads_lt {target : SimTarget} (h : target.Idle) :
    target.busyReads < flashPollLimit :=
  lt_of_le_of_lt h.busyReads (by decide)

/-- What is left of a target after a page operation that failed. -/
structure SimTarget.FailedTo (before after : SimTarget) : Prop extends after.Poisoned where
  chip : after.chip = before.chip
  flash : after.flash = before.flash

theorem SimTarget.FailedTo.of_eq {before middle after : SimTarget} (h : middle.FailedTo after)
    (hchip : middle.chip = before.chip) (hflash : middle.flash = before.flash) :
    before.FailedTo after :=
  ⟨h.toPoisoned, h.chip.trans hchip, h.flash.trans hflash⟩

section Port

variable {handler : Handler Usb Sim} {link : Link} {writable : Nat → Prop}
  (port : TargetPort handler link writable)

include port

/-! ## Once the bit is set -/

/-- Clearing mode bits until none is left starts nothing. -/
theorem ctlrUpdate_clears {clear : Word} {target : SimTarget} (hunlocked : target.unlocked = true)
    (hmode : target.ctlr &&& modeMask &&& ~~~clear = 0) :
    Drives handler targetSurface (ctlrUpdate link 0 clear).run target (.ok ())
        { target with ctlr := updated target.ctlr 0 clear } ∧
      updated target.ctlr 0 clear &&& modeMask = 0 := by
  have hnone : (target.ctlr &&& modeMask) ||| ((0 : Word) &&& modeMask) =
      target.ctlr &&& modeMask := by
    have hzero : (0 : Word) &&& modeMask = 0#32 := BitVec.zero_and
    rw [hzero, BitVec.or_zero]
  have hvalue : updated target.ctlr 0 clear &&& modeMask = 0 := by
    rw [mode_update, hnone, hmode]
  have hreset : updated target.ctlr 0 clear &&& simCtlrBufRst = 0 := by
    rw [← mode_bit hvalue (by decide)]
    exact BitVec.zero_and
  have hstart : updated target.ctlr 0 clear &&& simCtlrStrt = 0 := by
    rw [← mode_bit hvalue (by decide)]
    exact BitVec.zero_and
  have hupdate := ctlrUpdate_drives port 0 clear hunlocked (fun h => absurd hstart h)
  rw [simWriteCtlr_quiet target hreset hstart] at hupdate
  exact ⟨hupdate, hvalue⟩

/-- With the bit set no page is erased. -/
theorem erasePageFast_poisoned (page : Word) {target : SimTarget}
    (hunlocked : target.unlocked = true) (hpoisoned : target.Poisoned) :
    ∃ target', Drives handler targetSurface (erasePageFast link page).run target
        (.error .target) target' ∧ target.FailedTo target' := by
  have hwait := waitReady_refuses port hpoisoned.programErrors hpoisoned.busyReads_lt
  have hmode : target.ctlr &&& modeMask &&& ~~~(flashCtlrPageEr ||| flashCtlrStrt) = 0 := by
    rw [hpoisoned.mode]
    exact BitVec.zero_and
  obtain ⟨hclear, hcleared⟩ := @ctlrUpdate_clears _ _ _ port _ { target with busyReads := 0 }
    hunlocked hmode
  refine ⟨_, cleaning_drives hwait.fail hclear, ?_⟩
  exact ⟨⟨⟨Nat.zero_le _, hcleared⟩, hpoisoned.programErrors⟩, rfl, rfl⟩

/-- A page the image covers only partly is read; no register is touched. -/
theorem readOldPage_reads {start stop page : Word} {target : SimTarget}
    (hin : target.chip.InFlash page 64) :
    ∃ old, Drives handler targetSurface (readOldPage link 64 start stop page).run target
      (.ok old) target := by
  unfold readOldPage
  split
  · exact ⟨_, Drives.ok _⟩
  · exact ⟨_, filled_wlDmReadBlock_drives 64 (readable_flash port hin)⟩

/-- A round of the page loop that cannot erase its page ends the loop. -/
theorem writePages_stops {rounds : Nat} {start stop page : Word} {image : List Byte}
    {target target' : SimTarget} (hin : target.chip.InFlash page 64) (hmore : page < stop)
    (herase : Drives handler targetSurface (erasePageFast link page).run target
      (.error .target) target') :
    Drives handler targetSurface (writePages link 64 start stop image (rounds + 1) page).run
      target (.error .target) target' := by
  obtain ⟨old, hread⟩ := @readOldPage_reads _ _ _ port start stop page target hin
  rw [writePages, if_pos hmore]
  apply Drives.fail
  exact hread.andThen herase.fail

/-- With the bit set nothing is written. -/
theorem wlFlashCh32v0Write_poisoned {chip : Chip} (hchip : chip.Ch32v0) {target : SimTarget}
    (hbuilt : target.chip = chip) (hpoisoned : target.Poisoned) {start : Nat}
    {image : List Byte} {length : BitVec 64} (hpositive : 0 < length.toNat)
    (hstop : start + length.toNat ≤ chip.flashSize.toNat) :
    ∃ target', Drives handler targetSurface
        (wlFlashCh32v0Write link chip (flashAt start) image length).run target (.error .target)
        target' ∧ target.FailedTo target' := by
  have hsize := hchip.flashSize
  have hpages := hchip.pages
  have hunlock := unlock_drives port target
  obtain ⟨target', herase, hfailed⟩ := @erasePageFast_poisoned _ _ _ port
    (flashAt (start - start % 64))
    { target with unlocked := true, modeUnlocked := true, keyStage := 0, modeKeyStage := 0 } rfl
    ⟨⟨hpoisoned.busyReads, hpoisoned.mode⟩, hpoisoned.programErrors⟩
  refine ⟨target', ?_, hfailed.of_eq rfl rfl⟩
  have hin : target.chip.InFlash (flashAt (start - start % 64)) 64 := by
    rw [hbuilt]
    exact flashAt_inFlash (by omega) (by omega) (by omega)
  have hend : flashAt start + length.setWidth 32 = flashAt (start + length.toNat) :=
    flashAt_add start length.toNat
  have hmore : flashAt (start - start % 64) < flashAt (start + length.toNat) := by
    rw [BitVec.lt_def, flashAt_toNat (by omega), flashAt_toNat (by omega)]
    omega
  unfold wlFlashCh32v0Write
  rw [hchip.eraseSize, if_neg (by decide), hend, flashAt_page (by omega)]
  exact hunlock.andThen (writePages_stops port hin hmore herase)

end Port

/-! ## A refused page -/

section Refusal

variable {protects : Nat → Bool} {link : Link} (hlink : link.Usable)

include hlink

/-- Started on a protected page, the operation is refused. -/
theorem ctlrUpdate_refused {set : Word} {target : SimTarget} (hunlocked : target.unlocked = true)
    (hstart : updated target.ctlr set 0 &&& simCtlrStrt ≠ 0)
    (hprotected : protects (simFlashOffset target.addr / 64) = true) :
    Drives (guardedSimulator protects) targetSurface (ctlrUpdate link set 0).run target (.ok ())
      { target with
        ctlr := updated target.ctlr set 0
        programErrors := target.programErrors + 1
        busyReads := simBusyReads } := by
  have hread := (@guardedPort protects _ hlink).read .word flashCtlr target
  have hloaded : target.loaded .word flashCtlr = target.ctlr &&& ~~~simCtlrLock := by
    show (if target.unlocked then target.ctlr &&& ~~~simCtlrLock
      else target.ctlr ||| simCtlrLock) = _
    rw [if_pos hunlocked]
  have hafter : target.afterLoad .word flashCtlr = target := rfl
  rw [hloaded, hafter] at hread
  have hwrite := @wlDmWrite32_guarded protects _ hlink flashCtlr (updated target.ctlr set 0) target
  have hrefused : target.guardedStore protects flashCtlr (updated target.ctlr set 0) = _ :=
    (if_neg (by decide)).trans (if_pos ⟨by decide, hstart, hprotected⟩)
  rw [hrefused] at hwrite
  exact hread.andThen hwrite

/-- A protected page is not erased, and the refusal is recorded. -/
theorem erasePageFast_refused {page : Word}
    (hprotected : protects (simFlashOffset page / 64) = true) {target : SimTarget}
    (hunlocked : target.Unlocked) (hmode : target.ctlr &&& modeMask = 0) :
    ∃ target', Drives (guardedSimulator protects) targetSurface (erasePageFast link page).run
        target (.error .target) target' ∧ target.FailedTo target' := by
  have port := @guardedPort protects _ hlink
  have hready := waitReady_accepts port hunlocked.programErrors
    (lt_of_le_of_lt hunlocked.busyReads (by decide))
  -- PAGE_ER is selected, and then the start is refused
  let selected := updated target.ctlr flashCtlrPageEr 0
  let started := updated selected flashCtlrStrt 0
  have hselected : selected &&& modeMask = 0x00020000 := by
    rw [mode_update, hmode]
    decide
  have hstarted : started &&& modeMask = 0x00020040 := by
    rw [mode_update, hselected]
    decide
  have hselect : Drives (guardedSimulator protects) targetSurface
      (ctlrUpdate link flashCtlrPageEr 0).run { target with busyReads := 0 } (.ok ())
      { target with busyReads := 0, ctlr := selected } := by
    have hidle : selected &&& simCtlrStrt = 0 := by
      rw [← mode_bit hselected (by decide)]
      decide
    have hupdate := @ctlrUpdate_drives _ _ _ port flashCtlrPageEr 0
      { target with busyReads := 0 } hunlocked.unlocked (fun hstart => absurd hidle hstart)
    rw [simWriteCtlr_quiet _ (by rw [← mode_bit hselected (by decide)]; decide) hidle] at hupdate
    exact hupdate
  have haddr : Drives (guardedSimulator protects) targetSurface
      (wlDmWrite32 link flashAddr page).run { target with busyReads := 0, ctlr := selected }
      (.ok ()) { target with busyReads := 0, ctlr := selected, addr := page } :=
    port.write flashAddr page _ ⟨by decide, fun hword => absurd hword (by decide)⟩
  have hstart := @ctlrUpdate_refused protects link hlink flashCtlrStrt
    { target with busyReads := 0, ctlr := selected, addr := page } hunlocked.unlocked
    (by rw [← mode_bit hstarted (by decide)]; decide) hprotected
  have hwait := @waitReady_refuses _ _ _ port
    { target with
      busyReads := simBusyReads
      ctlr := started
      addr := page
      programErrors := target.programErrors + 1 } (Nat.succ_pos _)
    (by show simBusyReads < flashPollLimit; decide)
  obtain ⟨hclear, hcleared⟩ := @ctlrUpdate_clears _ _ _ port (flashCtlrPageEr ||| flashCtlrStrt)
    { target with
      busyReads := 0
      ctlr := started
      addr := page
      programErrors := target.programErrors + 1 } hunlocked.unlocked
    (by rw [hstarted]; decide)
  refine ⟨_, cleaning_drives ?_ hclear, ?_⟩
  · exact hready.andThen (hselect.andThen (haddr.andThen (hstart.andThen hwait)))
  · exact ⟨⟨⟨Nat.zero_le _, hcleared⟩, Nat.succ_pos _⟩, rfl, rfl⟩

/-- The page loop ends at the first protected page it comes to. -/
theorem writePages_refused {start : Nat} {image : List Byte} {memory : Nat → Byte} (rounds : Nat)
    {page : Nat} {sim : Sim} (hready : sim.Ready) (hunlocked : sim.target.Unlocked)
    (hchip : sim.target.chip.Ch32v0)
    (hstop : start + image.length ≤ sim.target.chip.flashSize.toNat)
    (hflash : sim.target.flash = splice (overlay memory start image) memory page)
    (hmode : sim.target.ctlr &&& modeMask = 0) (haligned : page % 64 = 0) {index : Nat}
    (hindex : page / 64 ≤ index) (hinside : 64 * index < start + image.length)
    (hprotected : protects index = true)
    (hrounds : start + image.length + 64 ≤ page + 64 * rounds) :
    ∃ sim', (writePages link 64 (flashAt start) (flashAt (start + image.length)) image rounds
        (flashAt page)).run.run (guardedSimulator protects) sim = (some (.error .target), sim') ∧
      sim.Frame sim' ∧ sim'.target.Poisoned ∧ sim'.target.chip = sim.target.chip := by
  have hsize := hchip.flashSize
  have hpages := hchip.pages
  have port := @guardedPort protects _ hlink
  -- the pages before the first protected one are written
  induction rounds generalizing page sim with
  | zero => omega
  | succ rounds ih =>
      have hmore : flashAt page < flashAt (start + image.length) := by
        rw [BitVec.lt_def, flashAt_toNat (by omega), flashAt_toNat (by omega)]
        omega
      have hin : sim.target.chip.InFlash (flashAt page) 64 :=
        flashAt_inFlash (by omega) (by omega) (by omega)
      cases hpage : protects (page / 64) with
      | true =>
          obtain ⟨target', herase, hfailed⟩ := @erasePageFast_refused protects link hlink
            (flashAt page) (by rwa [simFlashOffset_flashAt (by omega)]) sim.target hunlocked hmode
          have hloop := @writePages_stops _ _ _ port rounds (flashAt start) _ _ image _ _ hin hmore
            herase
          obtain ⟨sim', hrun, htarget, hframe⟩ := hloop sim hready rfl
          have htarget : sim'.target = target' := htarget
          rw [← htarget] at hfailed
          exact ⟨sim', hrun, hframe, hfailed.toPoisoned, hfailed.chip⟩
      | false =>
          obtain ⟨buffer, hwrite⟩ := @writePage_drives _ _ _ port start page image
            sim.target.flasher memory (by show sim.target.chip.flashSize.toNat < _; omega) hstop
            (by show _ ≤ sim.target.chip.flashSize.toNat; omega) hflash hpage hmode haligned
          obtain ⟨middle, hrun, hview, hframe⟩ := hwrite sim ⟨hready, hunlocked⟩ rfl
          have hview : middle.target.flasher = _ := hview
          have hbuilt : middle.target.chip = sim.target.chip := congrArg Flasher.chip hview
          have hlater : (page + 64) / 64 ≤ index := by
            have hne : page / 64 ≠ index := by
              rintro rfl
              rw [hpage] at hprotected
              cases hprotected
            omega
          obtain ⟨sim', hrun', hframe', hpoisoned, hchip'⟩ := @ih (page + 64) middle
            (hframe.1.ready hready) (hframe.2 hunlocked) (by rwa [hbuilt]) (by rwa [hbuilt])
            (congrArg Flasher.flash hview) ((congrArg Flasher.mode hview).trans hmode) (by omega)
            hlater (by omega) (by rwa [hbuilt]) (by rwa [hbuilt])
          refine ⟨sim', ?_, hframe.1.trans hframe', hpoisoned, hchip'.trans hbuilt⟩
          rw [writePages, if_pos hmore, Program.run_except_ok hrun,
            show flashAt page + 64 = flashAt (page + 64) from flashAt_add page 64]
          exact hrun'

/-- A write that touches a protected page fails, and the bit is set then. -/
theorem wlFlashCh32v0Write_refused {sim : Sim} (hready : sim.Ready)
    (hchip : sim.target.chip.Ch32v0) (hclean : sim.target.Clean) {start : Nat}
    {image : List Byte} {length : BitVec 64} (hlength : length.toNat = image.length)
    (hstop : start + image.length ≤ sim.target.chip.flashSize.toNat) {index : Nat}
    (hindex : start / 64 ≤ index) (hinside : 64 * index < start + image.length)
    (hprotected : protects index = true) :
    ∃ sim', (wlFlashCh32v0Write link sim.target.chip (flashAt start) image length).run.run
        (guardedSimulator protects) sim = (some (.error .target), sim') ∧ sim.Frame sim' ∧
      sim'.target.Poisoned ∧ sim'.target.chip = sim.target.chip := by
  have hsize := hchip.flashSize
  have port := @guardedPort protects _ hlink
  obtain ⟨opened, hrun, htarget, hframe⟩ := unlock_drives port sim.target sim hready rfl
  have htarget : opened.target = { sim.target with
    unlocked := true, modeUnlocked := true, keyStage := 0, modeKeyStage := 0 } := htarget
  have hunlocked : opened.target.Unlocked := by
    rw [htarget]
    exact ⟨rfl, rfl, hclean.programErrors, hclean.busyReads⟩
  have hbuilt : opened.target.chip = sim.target.chip := by rw [htarget]
  have hflash : opened.target.flash = splice (overlay sim.target.flash start image)
      sim.target.flash (start - start % 64) := by
    rw [splice_overlay_below _ (Nat.sub_le _ _), htarget]
  have hmode : opened.target.ctlr &&& modeMask = 0 := by
    rw [htarget]
    exact hclean.mode
  obtain ⟨sim', hrun', hframe', hpoisoned, hchip'⟩ := @writePages_refused protects link hlink
    start image sim.target.flash (2 ^ 32) (start - start % 64) opened (hframe.ready hready)
    hunlocked (by rwa [hbuilt]) (by rwa [hbuilt]) hflash hmode (by omega) index (by omega) hinside
    hprotected (by omega)
  refine ⟨sim', ?_, hframe.trans hframe', hpoisoned, hchip'.trans hbuilt⟩
  have hend : flashAt start + length.setWidth 32 = flashAt (start + image.length) := by
    rw [← flashAt_add, ← hlength]
    rfl
  unfold wlFlashCh32v0Write
  rw [hchip.eraseSize, if_neg (by decide), hend, flashAt_page (by omega)]
  exact (Program.run_except_ok hrun).trans hrun'

end Refusal

/-! ## Sessions -/

/-- A call of `wl_flash_write`. Its length is that of the object it passes, and
no object takes half of the address space or more. -/
structure FlashCall where
  address : Word
  image : Option (List Byte)
  length : BitVec 64
  sized : ∀ bytes, image = some bytes → bytes.length = length.toNat ∧ length.toNat < 2 ^ 63

namespace FlashCall

def perform (call : FlashCall) (link : Link) (chip : Chip) : Fallible Unit :=
  wlFlashWrite link (some chip) call.address call.image call.length

/-- Where in the flash array the call writes. -/
def start (call : FlashCall) (chip : Chip) : Nat :=
  mappedStart chip call.address - chip.flashBase.toNat

/-- The call passes an image, and its range lies in the part's flash. -/
structure Accepted (call : FlashCall) (chip : Chip) : Prop where
  image : call.image ≠ none
  nonempty : call.length ≠ 0
  inside : InsideFlash chip call.address call.length.toNat

/-- The call's range has a byte in the page. -/
def Touches (call : FlashCall) (chip : Chip) (page : Nat) : Prop :=
  call.start chip / 64 ≤ page ∧ 64 * page < call.start chip + call.length.toNat

/-- The call's range lies entirely in unprotected pages. -/
def AllUnprotected (call : FlashCall) (protects : Nat → Bool) (chip : Chip) : Prop :=
  call.Accepted chip ∧ ∀ page, call.Touches chip page → protects page = false

/-- The call's range has a byte in a protected page. -/
def SomeProtected (call : FlashCall) (protects : Nat → Bool) (chip : Chip) : Prop :=
  call.Accepted chip ∧ ∃ page, call.Touches chip page ∧ protects page = true

/-- What the call returns, and the simulator after it. -/
def outcome (call : FlashCall) (protects : Nat → Bool) (link : Link) (chip : Chip) (sim : Sim) :
    Option (Except WlErr Unit) × Sim :=
  (call.perform link chip).run.run (guardedSimulator protects) sim

/-- The call succeeds and programs its image. -/
def Programs (call : FlashCall) (protects : Nat → Bool) (link : Link) (chip : Chip) (sim : Sim) :
    Prop :=
  (call.outcome protects link chip sim).1 = some (.ok ()) ∧
    (call.outcome protects link chip sim).2.target.flash =
      overlay sim.target.flash (call.start chip) (call.image.getD [])

end FlashCall

/-- The simulator after the calls of a session. -/
def afterCalls (protects : Nat → Bool) (link : Link) (chip : Chip) (calls : List FlashCall)
    (sim : Sim) : Sim :=
  calls.foldl (fun sim call => (call.outcome protects link chip sim).2) sim

theorem afterCalls_cons (protects : Nat → Bool) (link : Link) (chip : Chip) (call : FlashCall)
    (rest : List FlashCall) (sim : Sim) :
    afterCalls protects link chip (call :: rest) sim =
      afterCalls protects link chip rest (call.outcome protects link chip sim).2 := rfl

/-- Every call of the session whose range lies entirely in unprotected pages
succeeds and programs its image, whatever was called before it. -/
def Unpoisoned (protects : Nat → Bool) (link : Link) (chip : Chip) (calls : List FlashCall)
    (sim : Sim) : Prop :=
  ∀ earlier call later, calls = earlier ++ call :: later → call.AllUnprotected protects chip →
    call.Programs protects link chip (afterCalls protects link chip earlier sim)

/-- A ready simulator that holds the part, with its controller as described. -/
structure Sim.Holds (sim : Sim) (chip : Chip) (controller : SimTarget → Prop) : Prop where
  ready : sim.Ready
  built : sim.target.chip = chip
  controller : controller sim.target

/-- The image of a call, as long as the call says. -/
theorem FlashCall.Accepted.bytes {call : FlashCall} {chip : Chip} (h : call.Accepted chip) :
    ∃ image, call.image = some image ∧ call.length.toNat = image.length ∧ image ≠ [] := by
  cases himage : call.image with
  | none => exact absurd himage h.image
  | some image =>
      have hlength := (call.sized image himage).1
      refine ⟨image, rfl, hlength.symm, ?_⟩
      rintro rfl
      apply h.nonempty
      exact BitVec.eq_of_toNat_eq hlength.symm

section Sessions

variable {protects : Nat → Bool} {link : Link} (hlink : link.Usable) {chip : Chip}
  (hmem : chip ∈ chips) (halgo : chip.algo = .ch32v0) {call : FlashCall} {sim : Sim}

include hmem halgo

theorem FlashCall.Accepted.range {call : FlashCall} (h : call.Accepted chip) :
    normalise chip call.address = flashAt (call.start chip) ∧ 0 < call.length.toNat ∧
      call.start chip + call.length.toNat ≤ chip.flashSize.toNat := by
  obtain ⟨hlow, hhigh⟩ := h.inside
  rw [← toNat_normalise] at hlow hhigh
  obtain ⟨haddress, hstop⟩ := normalise_inside (ch32v0_of_mem hmem halgo) hlow hhigh
  rw [toNat_normalise] at haddress hstop
  refine ⟨haddress, Nat.pos_of_ne_zero fun hzero => h.nonempty ?_, hstop⟩
  exact BitVec.eq_of_toNat_eq hzero

/-- A call that is not accepted does nothing. -/
theorem FlashCall.outcome_declined (h : ¬call.Accepted chip) :
    (call.outcome protects link chip sim).2 = sim := by
  unfold FlashCall.outcome FlashCall.perform wlFlashWrite
  cases himage : call.image with
  | none => rfl
  | some image =>
      dsimp only
      by_cases hlength : call.length = 0
      · rw [if_pos hlength]
        rfl
      · have hrange : wlFlashRangeOk (some chip) call.address call.length = false := by
          rw [← Bool.not_eq_true, wlFlashRangeOk_iff (chips_flashSize chip hmem)]
          intro hguard
          have hsmall := (call.sized image himage).2
          have hstart := (normalise chip call.address).isLt
          rw [toNat_normalise] at hstart
          rw [Nat.mod_eq_of_lt (by omega)] at hguard
          exact h ⟨by rw [himage]; exact Option.some_ne_none image, hlength, hguard⟩
        rw [if_neg hlength, if_neg (by rw [halgo]; decide), hrange]
        rfl

include hlink

/-- While no error is recorded, unprotected pages are written. -/
theorem FlashCall.programs_unprotected (hsim : sim.Holds chip SimTarget.Clean)
    (h : call.AllUnprotected protects chip) :
    call.Programs protects link chip sim ∧
      (call.outcome protects link chip sim).2.Holds chip SimTarget.Clean := by
  obtain ⟨hready, hbuilt, hclean⟩ := hsim
  obtain ⟨haccepted, hpages⟩ := h
  obtain ⟨haddress, hpositive, hstop⟩ := haccepted.range hmem halgo
  obtain ⟨image, himage, hlength, hnonempty⟩ := haccepted.bytes
  subst hbuilt
  obtain ⟨sim', hrun, hframe, hunlocked, hchip', hmode', hflash, -⟩ :=
    @wlFlashWrite_run _ _ _ (@guardedPort protects _ hlink) sim hready
      (ch32v0_of_mem hmem halgo) hclean.programErrors hclean.busyReads hclean.mode call.address
      (call.start sim.target.chip) image call.length haddress hlength hnonempty
      (by rwa [← hlength]) (fun index hlow hhigh => hpages index ⟨hlow, by rwa [hlength]⟩)
  have houtcome : call.outcome protects link sim.target.chip sim = (some (.ok ()), sim') := by
    unfold FlashCall.outcome FlashCall.perform
    rw [himage]
    exact hrun
  unfold FlashCall.Programs
  rw [houtcome, himage]
  exact ⟨⟨rfl, hflash⟩, hframe.ready hready, hchip',
    ⟨hunlocked.busyReads, hmode'⟩, hunlocked.programErrors⟩

/-- A protected page fails the call and records the error. -/
theorem FlashCall.outcome_protected (hsim : sim.Holds chip SimTarget.Clean)
    (h : call.SomeProtected protects chip) :
    (call.outcome protects link chip sim).2.Holds chip SimTarget.Poisoned := by
  obtain ⟨hready, hbuilt, hclean⟩ := hsim
  obtain ⟨haccepted, page, htouches, hprotected⟩ := h
  obtain ⟨haddress, hpositive, hstop⟩ := haccepted.range hmem halgo
  obtain ⟨image, himage, hlength, hnonempty⟩ := haccepted.bytes
  subst hbuilt
  have hchip := ch32v0_of_mem hmem halgo
  obtain ⟨sim', hrun, hframe, hpoisoned, hchip'⟩ := wlFlashCh32v0Write_refused hlink hready hchip
    hclean hlength (by rwa [← hlength]) htouches.1 (by rw [← hlength]; exact htouches.2) hprotected
  have houtcome : call.outcome protects link sim.target.chip sim =
      (some (.error .target), sim') := by
    unfold FlashCall.outcome FlashCall.perform
    rw [himage, wlFlashWrite_eq link hchip haddress hpositive hstop]
    exact hrun
  rw [houtcome]
  exact ⟨hframe.ready hready, hchip', hpoisoned⟩

/-- Once an error is recorded every accepted call fails, and it stays recorded. -/
theorem FlashCall.outcome_poisoned (hsim : sim.Holds chip SimTarget.Poisoned)
    (h : call.Accepted chip) :
    (call.outcome protects link chip sim).1 = some (.error .target) ∧
      (call.outcome protects link chip sim).2.Holds chip SimTarget.Poisoned := by
  obtain ⟨hready, hbuilt, hpoisoned⟩ := hsim
  obtain ⟨haddress, hpositive, hstop⟩ := h.range hmem halgo
  obtain ⟨image, himage, hlength, hnonempty⟩ := h.bytes
  have hchip := ch32v0_of_mem hmem halgo
  obtain ⟨target', hwrite, hfailed⟩ := @wlFlashCh32v0Write_poisoned _ _ _
    (@guardedPort protects _ hlink) chip hchip sim.target hbuilt hpoisoned (call.start chip) image
    call.length hpositive hstop
  obtain ⟨sim', hrun, htarget, hframe⟩ := hwrite sim hready rfl
  have htarget : sim'.target = target' := htarget
  have houtcome : call.outcome protects link chip sim = (some (.error .target), sim') := by
    unfold FlashCall.outcome FlashCall.perform
    rw [himage, wlFlashWrite_eq link hchip haddress hpositive hstop]
    exact hrun
  rw [← htarget] at hfailed
  rw [houtcome]
  exact ⟨rfl, hframe.ready hready, hfailed.chip.trans hbuilt, hfailed.toPoisoned⟩

/-! ### Whole sessions -/

theorem FlashCall.outcome_poisoned_any (hsim : sim.Holds chip SimTarget.Poisoned) :
    (call.outcome protects link chip sim).2.Holds chip SimTarget.Poisoned := by
  by_cases haccepted : call.Accepted chip
  · exact (call.outcome_poisoned hlink hmem halgo hsim haccepted).2
  · rw [call.outcome_declined hmem halgo haccepted]
    exact hsim

/-- A call that touches no protected page leaves no error. -/
theorem FlashCall.outcome_clean (hsim : sim.Holds chip SimTarget.Clean)
    (h : ¬call.SomeProtected protects chip) :
    (call.outcome protects link chip sim).2.Holds chip SimTarget.Clean := by
  by_cases haccepted : call.Accepted chip
  · have hpages : call.AllUnprotected protects chip := by
      refine ⟨haccepted, fun page htouches => ?_⟩
      rw [← Bool.not_eq_true]
      exact fun hprotected => h ⟨haccepted, page, htouches, hprotected⟩
    exact (call.programs_unprotected hlink hmem halgo hsim hpages).2
  · rw [call.outcome_declined hmem halgo haccepted]
    exact hsim

/-- Calls that touch no protected page leave no error. -/
theorem afterCalls_clean {calls : List FlashCall} (hsim : sim.Holds chip SimTarget.Clean)
    (h : ∀ call ∈ calls, ¬call.SomeProtected protects chip) :
    (afterCalls protects link chip calls sim).Holds chip SimTarget.Clean := by
  induction calls generalizing sim with
  | nil => exact hsim
  | cons call rest ih =>
      apply ih (call.outcome_clean hlink hmem halgo hsim (h call (List.mem_cons_self)))
      exact fun later hlater => h later (List.mem_cons_of_mem _ hlater)

/-- An error stays recorded whatever is called. -/
theorem afterCalls_poisoned {calls : List FlashCall} (hsim : sim.Holds chip SimTarget.Poisoned) :
    (afterCalls protects link chip calls sim).Holds chip SimTarget.Poisoned := by
  induction calls generalizing sim with
  | nil => exact hsim
  | cons call rest ih => exact ih (call.outcome_poisoned_any hlink hmem halgo hsim)

/-- Once a protected page has been touched the error is recorded. -/
theorem afterCalls_protected {calls : List FlashCall} (hsim : sim.Holds chip SimTarget.Clean)
    (h : ∃ call ∈ calls, call.SomeProtected protects chip) :
    (afterCalls protects link chip calls sim).Holds chip SimTarget.Poisoned := by
  induction calls generalizing sim with
  | nil =>
      obtain ⟨call, hcall, -⟩ := h
      cases hcall
  | cons call rest ih =>
      by_cases hfirst : call.SomeProtected protects chip
      · have hpoisoned := call.outcome_protected hlink hmem halgo hsim hfirst
        rw [afterCalls_cons]
        exact afterCalls_poisoned hlink hmem halgo hpoisoned
      · apply ih (call.outcome_clean hlink hmem halgo hsim hfirst)
        obtain ⟨later, hlater, hprotected⟩ := h
        cases hlater with
        | head => exact absurd hprotected hfirst
        | tail _ hlater => exact ⟨later, hlater, hprotected⟩

/-- After a refusal no call over unprotected pages succeeds. -/
theorem FlashCall.not_programs {calls : List FlashCall} (hsim : sim.Holds chip SimTarget.Clean)
    (h : ∃ call ∈ calls, call.SomeProtected protects chip) (haccepted : call.Accepted chip) :
    ¬call.Programs protects link chip (afterCalls protects link chip calls sim) := by
  rintro ⟨hok, -⟩
  have hpoisoned := afterCalls_protected hlink hmem halgo hsim h
  rw [(call.outcome_poisoned hlink hmem halgo hpoisoned haccepted).1] at hok
  cases hok

/-- A session is unpoisoned exactly if no call over unprotected pages comes after
one that touches a protected page. -/
theorem unpoisoned_iff (hsim : sim.Holds chip SimTarget.Clean) (calls : List FlashCall) :
    Unpoisoned protects link chip calls sim ↔ calls.Pairwise fun earlier later =>
      earlier.SomeProtected protects chip → ¬later.AllUnprotected protects chip := by
  constructor
  · intro hsession
    rw [List.pairwise_iff_forall_sublist]
    intro first second hsublist hprotected hunprotected
    obtain ⟨before, after, hcalls, hfirst, hsecond⟩ := List.cons_sublist_iff.mp hsublist
    obtain ⟨between, later, hafter⟩ := List.append_of_mem (List.singleton_sublist.mp hsecond)
    have hprograms := hsession (before ++ between) second later
      (by rw [hcalls, hafter, List.append_assoc]) hunprotected
    exact second.not_programs hlink hmem halgo hsim
      ⟨first, List.mem_append_left _ hfirst, hprotected⟩ hunprotected.1 hprograms
  · rintro hpairs earlier call later rfl hunprotected
    have hearlier : ∀ first ∈ earlier, ¬first.SomeProtected protects chip := by
      intro first hfirst hprotected
      exact (List.pairwise_append.mp hpairs).2.2 first hfirst call List.mem_cons_self hprotected
        hunprotected
    have hclean := afterCalls_clean hlink hmem halgo hsim hearlier
    exact (call.programs_unprotected hlink hmem halgo hclean hunprotected).1

end Sessions

/-- Four bytes at an address. -/
def fourBytes (address : Word) : FlashCall where
  address
  image := some [0x13, 0x05, 0x10, 0x00]
  length := 4
  sized := by
    rintro bytes himage
    cases himage
    decide

/-- The first page of a part is protected. -/
def firstPage (page : Nat) : Bool := page == 0

theorem simConfigured_holds :
    (simConfigured ch32v003).Holds ch32v003 SimTarget.Clean :=
  ⟨⟨rfl, rfl⟩, rfl, ⟨Nat.zero_le _, by decide⟩, rfl⟩

theorem fourBytes_protected : (fourBytes 0x08000000).SomeProtected firstPage ch32v003 :=
  ⟨⟨by decide, by decide, by decide, by decide⟩, 0, ⟨by decide, by decide⟩, rfl⟩

theorem fourBytes_unprotected : (fourBytes 0x08000040).AllUnprotected firstPage ch32v003 := by
  refine ⟨⟨by decide, by decide, by decide, by decide⟩, fun page htouches => ?_⟩
  have hfirst : (fourBytes 0x08000040).start ch32v003 / 64 = 1 := by decide
  have hpage : 1 ≤ page := hfirst ▸ htouches.1
  simp [firstPage]
  omega

/-- The second page can be written as long as the first was not tried. -/
theorem unpoisoned_second :
    Unpoisoned firstPage wlLinkeAttachTransport ch32v003 [fourBytes 0x08000040]
      (simConfigured ch32v003) :=
  (unpoisoned_iff ⟨rfl, rfl⟩ (List.Mem.head _) rfl simConfigured_holds _).mpr
    (List.pairwise_singleton _ _)

/-- Once it was, the second page cannot be written. -/
theorem not_unpoisoned_second :
    ¬Unpoisoned firstPage wlLinkeAttachTransport ch32v003
      [fourBytes 0x08000000, fourBytes 0x08000040] (simConfigured ch32v003) := by
  intro hsession
  have hprograms := hsession [fourBytes 0x08000000] (fourBytes 0x08000040) [] rfl
    fourBytes_unprotected
  exact (fourBytes 0x08000040).not_programs ⟨rfl, rfl⟩ (List.Mem.head _) rfl simConfigured_holds
    ⟨_, List.mem_cons_self, fourBytes_protected⟩ fourBytes_unprotected.1 hprograms

end WchLink
