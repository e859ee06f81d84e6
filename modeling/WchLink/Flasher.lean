import WchLink.Flash
import WchLink.SimulatorMemory

/-! # The flash controller behind the flasher

Once both lock levels are open, what the write sequence depends on is small:
the memories, the page buffer, the mode bits of CTLR and the address register.
Each sub-sequence of the flasher moves that state in one documented way.
-/

namespace WchLink

open Bytes Interaction

/-- PAGE_PG, PAGE_ER, BUF_LOAD, BUF_RST and STRT. -/
def modeMask : Word :=
  flashCtlrStrt ||| flashCtlrPagePg ||| flashCtlrPageEr ||| flashCtlrBufLoad ||| flashCtlrBufRst

/-- The controller as the write sequence sees it. -/
structure Flasher where
  chip : Chip
  flash : Nat → Byte
  ram : Nat → Byte
  pageBuf : Nat → Byte
  mode : Word
  addr : Word

namespace Flasher

def setMode (state : Flasher) (mode : Word) : Flasher := { state with mode }

def setAddr (state : Flasher) (addr : Word) : Flasher := { state with addr }

/-- The page buffer cleared. -/
def resetBuffer (state : Flasher) : Flasher := { state with pageBuf := fun _ => 0xff }

/-- A word put in its slot of the page buffer. -/
def loadWord (state : Flasher) (slot : Nat) (word : Word) : Flasher :=
  { state with pageBuf := storeBytes state.pageBuf slot 4 word }

/-- The addressed page erased. -/
def erasePage (state : Flasher) : Flasher :=
  { state with
    flash := fillBytes state.flash (simFlashOffset state.addr) 64 state.chip.flashSize.toNat
      0xff }

/-- The page buffer programmed into the addressed page. -/
def programPage (state : Flasher) : Flasher :=
  { state with
    flash := programBytes state.flash (simFlashOffset state.addr) 64 state.chip.flashSize.toNat
      state.pageBuf }

/-- The bytes of the addressed page that programming could not set. -/
def conflicts (state : Flasher) : Nat :=
  programConflicts state.flash (simFlashOffset state.addr) 64 state.chip.flashSize.toNat
    state.pageBuf

end Flasher

def SimTarget.flasher (target : SimTarget) : Flasher where
  chip := target.chip
  flash := target.flash
  ram := target.ram
  pageBuf := target.pageBuf
  mode := target.ctlr &&& modeMask
  addr := target.addr

/-- Both lock levels are open and no error has been recorded. -/
structure SimTarget.Unlocked (target : SimTarget) : Prop where
  unlocked : target.unlocked = true
  modeUnlocked : target.modeUnlocked = true
  programErrors : target.programErrors = 0
  busyReads : target.busyReads ≤ simBusyReads

/-- The unlocked controller, seen through a ready debug module. -/
def flasherSurface : Surface Sim Flasher where
  view := fun sim => sim.target.flasher
  ready := fun sim => sim.Ready ∧ sim.target.Unlocked
  frame := fun before after =>
    before.Frame after ∧ (before.target.Unlocked → after.target.Unlocked)
  frame_refl := fun sim => ⟨.refl sim, id⟩
  frame_trans := fun h h' => ⟨h.1.trans h'.1, h'.2 ∘ h.2⟩
  ready_of_frame := fun h hready => ⟨h.1.ready hready.1, h.2 hready.2⟩

/-- A run on the simulator, by its effect on the controller. -/
abbrev OnFlasher {α : Type} (program : Program Usb α) (before : Flasher) (value : α)
    (after : Flasher) : Prop :=
  Drives simulator flasherSurface program before value after

/-- An effect on the target is an effect on the controller. -/
theorem onFlasher_of_onTarget {α : Type} {handler : Handler Usb Sim} {program : Program Usb α}
    {before after : Flasher} {value : α}
    (htarget : ∀ target : SimTarget, target.Unlocked → target.flasher = before →
      ∃ target', Drives handler targetSurface program target value target' ∧ target'.Unlocked ∧
        target'.flasher = after) :
    Drives handler flasherSurface program before value after := by
  intro sim hready hview
  obtain ⟨target', hdrives, hunlocked, hafter⟩ := htarget sim.target hready.2 hview
  obtain ⟨final, hrun, hfinal, hframe⟩ := hdrives sim hready.1 rfl
  have htarget' : final.target = target' := hfinal
  refine ⟨final, hrun, ?_, hframe, fun _ => ?_⟩
  · show final.target.flasher = after
    rw [htarget', hafter]
  · rw [htarget']
    exact hunlocked

/-! ## Waiting and updating -/

variable {handler : Handler Usb Sim} {link : Link} {writable : Nat → Prop}

/-- The status of an idle controller. -/
def SimTarget.idleStatus (target : SimTarget) : Word :=
  if target.programErrors > 0 then simStatrWrprterr else 0

theorem SimTarget.idleStatus_busy (target : SimTarget) :
    target.idleStatus &&& flashStatrBsy = 0 ∧
      (flashStatrBsy ||| target.idleStatus) &&& flashStatrBsy ≠ 0 := by
  unfold SimTarget.idleStatus
  split
  · decide
  · decide

theorem pollReady_drives (port : TargetPort handler link writable) (polls : Nat) (status : Word)
    {target : SimTarget} (hbusy : target.busyReads < polls) :
    Drives handler targetSurface (pollReady link polls status).run target
      (.ok target.idleStatus) { target with busyReads := 0 } := by
  induction polls generalizing status target with
  | zero => omega
  | succ polls ih =>
      have hread := port.read .word flashStatr target
      have hstatus : target.loaded .word flashStatr =
          (if target.busyReads > 0 then flashStatrBsy else 0) ||| target.idleStatus := rfl
      have hidle : (0 : Word) ||| target.idleStatus = target.idleStatus := BitVec.zero_or
      have hafter : target.afterLoad .word flashStatr =
          { target with busyReads := target.busyReads - 1 } := rfl
      rw [hstatus, hafter] at hread
      unfold pollReady
      refine hread.andThen ?_
      obtain ⟨hready, hwait⟩ := target.idleStatus_busy
      rcases Nat.eq_zero_or_pos target.busyReads with hzero | hpos
      · rw [hzero, if_neg (lt_irrefl 0), hidle, if_pos hready]
        exact Drives.ok _
      · rw [if_pos hpos, if_neg hwait]
        exact @ih _ { target with busyReads := target.busyReads - 1 } (by dsimp only; omega)

theorem waitReady_accepts (port : TargetPort handler link writable) {target : SimTarget}
    (herrors : target.programErrors = 0) (hbusy : target.busyReads < flashPollLimit) :
    Drives handler targetSurface (waitReady link).run target (.ok ())
      { target with busyReads := 0 } := by
  have hpoll := pollReady_drives port flashPollLimit 0 hbusy
  have hstatus : target.idleStatus = 0 := if_neg (by rw [herrors]; exact lt_irrefl 0)
  rw [hstatus] at hpoll
  exact hpoll.andThen (Drives.ok ())

/-- A recorded error fails the wait, however often it is waited. -/
theorem waitReady_refuses (port : TargetPort handler link writable) {target : SimTarget}
    (herrors : 0 < target.programErrors) (hbusy : target.busyReads < flashPollLimit) :
    Drives handler targetSurface (waitReady link).run target (.error .target)
      { target with busyReads := 0 } := by
  have hpoll := pollReady_drives port flashPollLimit 0 hbusy
  have hstatus : target.idleStatus = simStatrWrprterr := if_pos herrors
  rw [hstatus] at hpoll
  exact hpoll.andThen (Drives.throw WlErr.target)

theorem waitReady_drives (port : TargetPort handler link writable) (state : Flasher) :
    Drives handler flasherSurface (waitReady link).run state (.ok ()) state := by
  apply onFlasher_of_onTarget
  intro target hunlocked hview
  have hbusy : target.busyReads < flashPollLimit :=
    lt_of_le_of_lt hunlocked.busyReads (by decide)
  refine ⟨{ target with busyReads := 0 }, ?_, ⟨hunlocked.unlocked, hunlocked.modeUnlocked,
    hunlocked.programErrors, Nat.zero_le _⟩, hview⟩
  exact waitReady_accepts port hunlocked.programErrors hbusy

/-- What a control-register update writes back. -/
def updated (ctlr set clear : Word) : Word := (ctlr &&& ~~~simCtlrLock ||| set) &&& ~~~clear

theorem ctlrUpdate_drives (port : TargetPort handler link writable) (set clear : Word)
    {target : SimTarget} (hunlocked : target.unlocked = true)
    (hpage : updated target.ctlr set clear &&& simCtlrStrt ≠ 0 →
      writable (simFlashOffset target.addr / 64)) :
    Drives handler targetSurface (ctlrUpdate link set clear).run target (.ok ())
      (simWriteCtlr target (updated target.ctlr set clear)) := by
  have hread := port.read .word flashCtlr target
  have hloaded : target.loaded .word flashCtlr = target.ctlr &&& ~~~simCtlrLock := by
    show (if target.unlocked then target.ctlr &&& ~~~simCtlrLock
      else target.ctlr ||| simCtlrLock) = _
    rw [if_pos hunlocked]
  have hafter : target.afterLoad .word flashCtlr = target := rfl
  rw [hloaded, hafter] at hread
  apply hread.andThen
  exact port.write flashCtlr _ target ⟨by decide, fun _ => hpage⟩

/-- The lock bit is no mode bit, so an update moves the mode by itself. -/
theorem mode_update (ctlr set clear : Word) :
    updated ctlr set clear &&& modeMask =
      (ctlr &&& modeMask ||| set &&& modeMask) &&& ~~~clear := by
  unfold updated
  have hlock : simCtlrLock &&& modeMask = 0#32 := by decide
  ext i hi
  have hbit : (simCtlrLock &&& modeMask)[i] = false := by rw [hlock, BitVec.getElem_zero]
  simp only [BitVec.getElem_and, BitVec.getElem_or, BitVec.getElem_not] at hbit ⊢
  revert hbit
  cases ctlr[i] <;> cases set[i] <;> cases clear[i] <;> cases simCtlrLock[i] <;>
    cases modeMask[i] <;> decide

/-- A mode bit is read off the mode. -/
theorem mode_bit {value mode bit : Word} (hvalue : value &&& modeMask = mode)
    (hbit : modeMask &&& bit = bit) : mode &&& bit = value &&& bit := by
  rw [← hvalue, BitVec.and_assoc, hbit]

/-- A control-register update, by the effect of the write it ends in. -/
theorem ctlrUpdate_flasher (port : TargetPort handler link writable) {state after : Flasher}
    (before : Word) {set clear mode : Word} (hbefore : state.mode = before)
    (hmode : (before ||| set &&& modeMask) &&& ~~~clear = mode)
    (hpage : mode &&& simCtlrStrt ≠ 0 → writable (simFlashOffset state.addr / 64))
    (heffect : ∀ (target : SimTarget) (value : Word), target.Unlocked → target.flasher = state →
      value &&& modeMask = mode →
      (simWriteCtlr target value).Unlocked ∧ (simWriteCtlr target value).flasher = after) :
    Drives handler flasherSurface (ctlrUpdate link set clear).run state (.ok ()) after := by
  apply onFlasher_of_onTarget
  intro target hunlocked hview
  have hvalue : updated target.ctlr set clear &&& modeMask = mode := by
    rw [mode_update, ← hmode, ← hbefore, ← hview]
    rfl
  refine ⟨_, ctlrUpdate_drives port set clear hunlocked.unlocked fun hstart => ?_, ?_⟩
  · rw [← mode_bit hvalue (by decide)] at hstart
    rw [← hview] at hpage
    exact hpage hstart
  · exact heffect target _ hunlocked hview hvalue

theorem simWriteCtlr_quiet (target : SimTarget) {value : Word}
    (hreset : value &&& simCtlrBufRst = 0) (hstart : value &&& simCtlrStrt = 0) :
    simWriteCtlr target value = { target with ctlr := value } := by
  unfold simWriteCtlr
  dsimp only
  rw [if_neg (not_not.2 hreset), if_pos hstart]

section Updates

variable (port : TargetPort handler link writable) {state : Flasher} (before : Word)
  (hbefore : state.mode = before) {set clear mode : Word}
  (hmode : (before ||| set &&& modeMask) &&& ~~~clear = mode)

include port hbefore hmode

/-- With neither BUF_RST nor STRT a control write only sets the mode. -/
theorem ctlrUpdate_quiet (hreset : mode &&& simCtlrBufRst = 0) (hstart : mode &&& simCtlrStrt = 0) :
    Drives handler flasherSurface (ctlrUpdate link set clear).run state (.ok ())
      (state.setMode mode) := by
  apply ctlrUpdate_flasher port before hbefore hmode (fun hpage => absurd hstart hpage)
  intro target value hunlocked hview hvalue
  rw [mode_bit hvalue (by decide)] at hreset hstart
  rw [simWriteCtlr_quiet target hreset hstart, ← hvalue, ← hview]
  exact ⟨⟨hunlocked.unlocked, hunlocked.modeUnlocked, hunlocked.programErrors,
    hunlocked.busyReads⟩, rfl⟩

/-- BUF_RST clears the page buffer. -/
theorem ctlrUpdate_reset (hreset : mode &&& simCtlrBufRst ≠ 0) (hstart : mode &&& simCtlrStrt = 0) :
    Drives handler flasherSurface (ctlrUpdate link set clear).run state (.ok ())
      (state.setMode mode).resetBuffer := by
  apply ctlrUpdate_flasher port before hbefore hmode (fun hpage => absurd hstart hpage)
  intro target value hunlocked hview hvalue
  rw [mode_bit hvalue (by decide)] at hreset
  have hwrite : simWriteCtlr target value =
      { target with ctlr := value, pageBuf := fun _ => 0xff, busyReads := simBusyReads } := by
    unfold simWriteCtlr
    dsimp only
    rw [if_pos hreset, if_pos hunlocked.modeUnlocked]
  rw [hwrite, ← hvalue, ← hview]
  exact ⟨⟨hunlocked.unlocked, hunlocked.modeUnlocked, hunlocked.programErrors, le_rfl⟩, rfl⟩

/-- PAGE_ER with STRT erases the addressed page. -/
theorem ctlrUpdate_erase (hpage : writable (simFlashOffset state.addr / 64))
    (hreset : mode &&& simCtlrBufRst = 0) (hstart : mode &&& simCtlrStrt ≠ 0)
    (herase : mode &&& simCtlrPageEr ≠ 0) :
    Drives handler flasherSurface (ctlrUpdate link set clear).run state (.ok ())
      (state.setMode mode).erasePage := by
  apply ctlrUpdate_flasher port before hbefore hmode (fun _ => hpage)
  intro target value hunlocked hview hvalue
  rw [mode_bit hvalue (by decide)] at hreset hstart herase
  have hwrite : simWriteCtlr target value =
      { target with
        ctlr := value
        flash := fillBytes target.flash (simFlashOffset target.addr) 64 target.flashSize 0xff
        erases := target.erases + 1
        busyReads := simBusyReads } := by
    unfold simWriteCtlr
    dsimp only
    rw [if_neg (not_not.2 hreset), if_neg hstart, if_pos herase, hunlocked.modeUnlocked]
    rfl
  rw [hwrite, ← hvalue, ← hview]
  exact ⟨⟨hunlocked.unlocked, hunlocked.modeUnlocked, hunlocked.programErrors, le_rfl⟩, rfl⟩

/-- PAGE_PG with STRT programs the addressed page; no error is recorded where
no bit has to be set. -/
theorem ctlrUpdate_program (hpage : writable (simFlashOffset state.addr / 64))
    (hreset : mode &&& simCtlrBufRst = 0) (hstart : mode &&& simCtlrStrt ≠ 0)
    (herase : mode &&& simCtlrPageEr = 0) (hprogram : mode &&& simCtlrPagePg ≠ 0)
    (hconflicts : state.conflicts = 0) :
    Drives handler flasherSurface (ctlrUpdate link set clear).run state (.ok ())
      (state.setMode mode).programPage := by
  apply ctlrUpdate_flasher port before hbefore hmode (fun _ => hpage)
  intro target value hunlocked hview hvalue
  rw [mode_bit hvalue (by decide)] at hreset hstart herase hprogram
  have hwrite : simWriteCtlr target value =
      { target with
        ctlr := value
        flash := programBytes target.flash (simFlashOffset target.addr) 64 target.flashSize
          target.pageBuf
        programs := target.programs + 1
        programErrors := target.programErrors + target.flasher.conflicts
        busyReads := simBusyReads } := by
    unfold simWriteCtlr
    dsimp only
    rw [if_neg (not_not.2 hreset), if_neg hstart, if_neg (not_not.2 herase), if_pos hprogram]
    unfold simFlashProgramPage
    dsimp only
    rw [hunlocked.modeUnlocked]
    rfl
  rw [hwrite, ← hvalue, hview, hconflicts, ← hview]
  exact ⟨⟨hunlocked.unlocked, hunlocked.modeUnlocked, hunlocked.programErrors, le_rfl⟩, rfl⟩

end Updates

/-! ## The four sub-sequences -/

theorem cleaning_drives {σ τ α : Type} {handler : Handler Usb σ} {surface : Surface σ τ}
    {body : Fallible α} {cleanup : Fallible Unit} {before middle after : τ}
    {status : Except WlErr α} {status' : Except WlErr Unit}
    (hbody : Drives handler surface body.run before status middle)
    (hcleanup : Drives handler surface cleanup.run middle status' after) :
    Drives handler surface (cleaning body cleanup).run before status after :=
  hbody.bind (hcleanup.bind (Drives.pure status))

/-- The page address goes to the address register. -/
theorem writeAddr_drives (port : TargetPort handler link writable) (page : Word)
    (state : Flasher) :
    Drives handler flasherSurface
      (wlDmWrite32 link flashAddr page).run state (.ok ()) (state.setAddr page) := by
  apply onFlasher_of_onTarget
  intro target hunlocked hview
  refine ⟨{ target with addr := page }, port.write flashAddr page target
    ⟨by decide, fun hword => absurd hword (by decide)⟩, ⟨hunlocked.unlocked,
      hunlocked.modeUnlocked, hunlocked.programErrors, hunlocked.busyReads⟩, ?_⟩
  rw [← hview]
  rfl

/-- With PAGE_PG set a word stored to flash goes to the page buffer. -/
theorem storeBuffer_drives (port : TargetPort handler link writable) {address : Word}
    (word : Word) {state : Flasher} (hin : state.chip.InFlash address 4)
    (hslot : simFlashOffset address % 64 + 4 ≤ 64) (hmode : state.mode &&& simCtlrPagePg ≠ 0) :
    Drives handler flasherSurface (wlDmWrite32 link address word).run state (.ok ())
      (state.loadWord (simFlashOffset address % 64) word) := by
  apply onFlasher_of_onTarget
  intro target hunlocked hview
  subst hview
  have hctlr : target.ctlr &&& simCtlrPagePg ≠ 0 := by
    rw [← mode_bit rfl (by decide)]
    exact hmode
  have hinside : ¬simFlashOffset address + 2 ^ Width.word.exponent > target.flashSize :=
    Nat.not_lt.2 hin.inside
  have hbuffer : simFlashStore target (simFlashOffset address) 2 word =
      { target with
        pageBuf := storeBytes target.pageBuf (simFlashOffset address % 64) 4 word
        busyReads := simBusyReads } := by
    unfold simFlashStore
    rw [if_pos ⟨hunlocked.modeUnlocked, hctlr, rfl⟩, if_pos hslot]
  have hstore : target.store .word address word =
      simFlashStore target (simFlashOffset address) 2 word := by
    unfold SimTarget.store simAccess
    rw [hin.notCtrl, hin.window, if_neg Bool.false_ne_true, if_pos rfl]
    dsimp only
    rw [if_neg hinside, if_pos rfl]
    rfl
  refine ⟨_, port.write address word target (SimTarget.permits_elsewhere hin.notCtrl word), ?_⟩
  rw [hstore, hbuffer]
  exact ⟨⟨hunlocked.unlocked, hunlocked.modeUnlocked, hunlocked.programErrors, le_rfl⟩, rfl⟩

section Sequences

variable (port : TargetPort handler link writable) {state : Flasher} (hmode : state.mode = 0)

include port hmode

/-- Select, address, start, wait and clean up: the page is erased. -/
theorem erasePageFast_drives (page : Word) (hpage : writable (simFlashOffset page / 64)) :
    Drives handler flasherSurface
      (erasePageFast link page).run state (.ok ()) (state.setAddr page).erasePage := by
  have hselect : Drives handler flasherSurface
      (ctlrUpdate link flashCtlrPageEr 0).run state (.ok ()) (state.setMode 0x00020000) :=
    ctlrUpdate_quiet port 0 hmode (by decide) (by decide) (by decide)
  have hstart : Drives handler flasherSurface (ctlrUpdate link flashCtlrStrt 0).run
      ((state.setMode 0x00020000).setAddr page) (.ok ())
      (((state.setMode 0x00020000).setAddr page).setMode 0x00020040).erasePage :=
    ctlrUpdate_erase port 0x00020000 rfl (by decide) hpage (by decide) (by decide) (by decide)
  have hclear : Drives handler flasherSurface
      (ctlrUpdate link 0 (flashCtlrPageEr ||| flashCtlrStrt)).run
      (((state.setMode 0x00020000).setAddr page).setMode 0x00020040).erasePage (.ok ())
      ((((state.setMode 0x00020000).setAddr page).setMode 0x00020040).erasePage.setMode 0) :=
    ctlrUpdate_quiet port 0x00020040 rfl (by decide) (by decide) (by decide)
  have hresult : (state.setAddr page).erasePage = (state.setAddr page).erasePage.setMode 0 := by
    rw [← hmode]
    rfl
  rw [hresult]
  refine cleaning_drives ?_ hclear
  exact (waitReady_drives port state).andThen (hselect.andThen
    ((writeAddr_drives port page _).andThen (hstart.andThen (waitReady_drives port _))))

theorem bufferReset_drives :
    Drives handler flasherSurface (bufferReset link).run state (.ok ()) state.resetBuffer := by
  have hselect : Drives handler flasherSurface
      (ctlrUpdate link flashCtlrPagePg 0).run state (.ok ()) (state.setMode 0x00010000) :=
    ctlrUpdate_quiet port 0 hmode (by decide) (by decide) (by decide)
  have hreset : Drives handler flasherSurface
      (ctlrUpdate link flashCtlrBufRst 0).run (state.setMode 0x00010000)
      (.ok ()) ((state.setMode 0x00010000).setMode 0x00090000).resetBuffer :=
    ctlrUpdate_reset port 0x00010000 rfl (by decide) (by decide) (by decide)
  have hclear : Drives handler flasherSurface
      (ctlrUpdate link 0 (flashCtlrPagePg ||| flashCtlrBufRst)).run
      ((state.setMode 0x00010000).setMode 0x00090000).resetBuffer (.ok ())
      (((state.setMode 0x00010000).setMode 0x00090000).resetBuffer.setMode 0) :=
    ctlrUpdate_quiet port 0x00090000 rfl (by decide) (by decide) (by decide)
  have hresult : state.resetBuffer = state.resetBuffer.setMode 0 := by
    rw [← hmode]
    rfl
  rw [hresult]
  refine cleaning_drives ?_ hclear
  exact hselect.andThen (hreset.andThen (waitReady_drives port _))

theorem bufferLoad_drives {address : Word} (word : Word) (hin : state.chip.InFlash address 4)
    (hslot : simFlashOffset address % 64 + 4 ≤ 64) :
    Drives handler flasherSurface (bufferLoad link address word).run state (.ok ())
      (state.loadWord (simFlashOffset address % 64) word) := by
  have hselect : Drives handler flasherSurface
      (ctlrUpdate link flashCtlrPagePg 0).run state (.ok ()) (state.setMode 0x00010000) :=
    ctlrUpdate_quiet port 0 hmode (by decide) (by decide) (by decide)
  have hstore : Drives handler flasherSurface
      (wlDmWrite32 link address word).run (state.setMode 0x00010000) (.ok ())
      ((state.setMode 0x00010000).loadWord (simFlashOffset address % 64) word) :=
    storeBuffer_drives port word hin hslot (by show (0x00010000 : Word) &&& _ ≠ 0; decide)
  have hload : Drives handler flasherSurface (ctlrUpdate link flashCtlrBufLoad 0).run
      ((state.setMode 0x00010000).loadWord (simFlashOffset address % 64) word) (.ok ())
      (((state.setMode 0x00010000).loadWord (simFlashOffset address % 64) word).setMode
        0x00050000) :=
    ctlrUpdate_quiet port 0x00010000 rfl (by decide) (by decide) (by decide)
  have hclear : Drives handler flasherSurface
      (ctlrUpdate link 0 (flashCtlrPagePg ||| flashCtlrBufLoad)).run
      (((state.setMode 0x00010000).loadWord (simFlashOffset address % 64) word).setMode
        0x00050000) (.ok ())
      ((((state.setMode 0x00010000).loadWord (simFlashOffset address % 64) word).setMode
        0x00050000).setMode 0) :=
    ctlrUpdate_quiet port 0x00050000 rfl (by decide) (by decide) (by decide)
  have hresult : state.loadWord (simFlashOffset address % 64) word =
      (state.loadWord (simFlashOffset address % 64) word).setMode 0 := by
    rw [← hmode]
    rfl
  rw [hresult]
  refine cleaning_drives ?_ hclear
  exact hselect.andThen (hstore.andThen (hload.andThen (waitReady_drives port _)))

/-- A page that conflicts with nothing is programmed without an error. -/
theorem programPageFast_drives (page : Word) (hpage : writable (simFlashOffset page / 64))
    (hconflicts : (state.setAddr page).conflicts = 0) :
    Drives handler flasherSurface (programPageFast link page).run state (.ok ())
      (state.setAddr page).programPage := by
  have hselect : Drives handler flasherSurface
      (ctlrUpdate link flashCtlrPagePg 0).run state (.ok ()) (state.setMode 0x00010000) :=
    ctlrUpdate_quiet port 0 hmode (by decide) (by decide) (by decide)
  have hstart : Drives handler flasherSurface (ctlrUpdate link flashCtlrStrt 0).run
      ((state.setMode 0x00010000).setAddr page) (.ok ())
      (((state.setMode 0x00010000).setAddr page).setMode 0x00010040).programPage :=
    ctlrUpdate_program port 0x00010000 rfl (by decide) hpage (by decide) (by decide) (by decide)
      (by decide) hconflicts
  have hclear : Drives handler flasherSurface
      (ctlrUpdate link 0 (flashCtlrPagePg ||| flashCtlrStrt)).run
      (((state.setMode 0x00010000).setAddr page).setMode 0x00010040).programPage (.ok ())
      ((((state.setMode 0x00010000).setAddr page).setMode 0x00010040).programPage.setMode 0) :=
    ctlrUpdate_quiet port 0x00010040 rfl (by decide) (by decide) (by decide)
  have hresult : (state.setAddr page).programPage =
      (state.setAddr page).programPage.setMode 0 := by
    rw [← hmode]
    rfl
  rw [hresult]
  refine cleaning_drives ?_ hclear
  exact hselect.andThen ((writeAddr_drives port page _).andThen
    (hstart.andThen (waitReady_drives port _)))

end Sequences

end WchLink
