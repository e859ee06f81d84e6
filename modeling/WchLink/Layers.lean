import WchLink.Flash
import WchLink.Interaction.ProgramClass

/-! # What the layers are made of

The memory operations are made of runs of access programs, and those of single
register accesses. A class of programs that has the lower layer's operations
has the upper layer's.
-/

namespace WchLink

open Bytes Interaction

variable (C : ProgramClass Usb) {link : Link}

theorem ignore_mem {α : Type} {operation : Fallible α} (h : C.Mem operation.run) :
    C.Mem (ignore operation).run := by
  rw [ignore, ExceptT.run_lift]
  exact C.map _ (C.bind h fun _ => C.done ())

theorem cleaning_mem {α : Type} {body : Fallible α} {cleanup : Fallible Unit}
    (hbody : C.Mem body.run) (hcleanup : C.Mem cleanup.run) :
    C.Mem (cleaning body cleanup).run :=
  C.bind hbody fun status => C.bind hcleanup fun _ => C.done status

/-! ## From requests to register accesses -/

theorem wlLinkeCommand_mem {request : List Byte} (h : C.Mem (transportCommand request)) :
    C.Mem (wlLinkeCommand link request).run := by
  unfold wlLinkeCommand
  dsimp only
  split
  · exact C.throwThen _ _
  · refine C.bind (C.map Except.ok h) fun answer => ?_
    cases answer with
    | error error => exact C.done _
    | ok answer =>
        cases answer with
        | error code => exact C.throws _
        | ok reply => exact C.ok reply

theorem sendControl_mem {command argument : Byte}
    (h : C.Mem (transportCommand (controlRequest command argument))) :
    C.Mem (sendControl link command argument).run :=
  wlLinkeCommand_mem C h

theorem wlLinkeHalt_mem (h : C.Mem (transportCommand (controlRequest wlCmdControl wlCtlAttach))) :
    C.Mem (wlLinkeHalt link).run :=
  C.andThen (sendControl_mem C h) fun _ => C.ok ()

theorem wlLinkeDetach_mem
    (h : C.Mem (transportCommand (controlRequest wlCmdControl wlCtlRelease))) :
    C.Mem (wlLinkeDetach.run link) := by
  show C.Mem ((if link.isOpen && link.transport then
    StateT.lift (sendControl link wlCmdControl wlCtlRelease).run >>= fun _ =>
      set { link with isOpen := false, transport := false }
    else set { link with isOpen := false, transport := false } : StateT Link (Program Usb) Unit) link)
  split
  · exact C.bind (C.bind (sendControl_mem C h) fun status => C.done (status, link)) fun _ =>
      C.done _
  · exact C.done _

/-- Setting the interface sends one request at most. -/
theorem wlLinkeSetInterface_mem {chip : Chip}
    (h : C.Mem (transportCommand (interfaceRequest chip.linkeId chip.interfaceSpeed))) :
    C.Mem ((wlLinkeSetInterface (some chip)).run.run link) := by
  have hraw : C.Mem (setInterfaceRaw link chip.linkeId chip.interfaceSpeed).run := by
    refine C.andThen (wlLinkeCommand_mem C h) fun reply => ?_
    split
    · exact C.throws _
    · exact C.ok _
  show C.Mem ((if (link.configured && link.chipId == chip.linkeId) = true then _ else _ :
    Linked Unit).run.run link)
  split
  · exact C.done _
  · rw [ExceptT.run_bind, StateT.run_bind]
    refine C.bind (C.bind hraw fun status => C.done (status, link)) fun result => ?_
    obtain ⟨status, own⟩ := result
    cases status with
    | ok value => exact C.done _
    | error error => exact C.done _

theorem regAccess_mem {reg : Byte} {value : Word} {operation : Byte}
    (h : C.Mem (transportCommand (regRequest reg value operation))) :
    C.Mem (regAccess link reg value operation).run := by
  unfold regAccess
  refine C.andThen (wlLinkeCommand_mem C h) fun reply => ?_
  dsimp only
  split
  · exact C.throwThen _ _
  · split
    · exact C.throwThen _ _
    · exact C.ok _

/-! ## From register accesses to access programs -/

/-- The registers the debug-module operations access, by which of them a class
has. -/
def HasRegister (link : Link) (reg : Byte) : Prop :=
  ∀ value operation, C.Mem (regAccess link reg value operation).run

/-- The register accesses around an abstract command. -/
structure HasTransfers (link : Link) : Prop where
  data0 : HasRegister C link wlDmiData0
  abstractcs : HasRegister C link wlDmiDmabstractcs

/-- The register accesses of abstract commands and their programs. -/
structure HasCommands (link : Link) : Prop extends HasTransfers C link where
  command : HasRegister C link wlDmiDmcommand
  abstractauto : HasRegister C link wlDmiDmabstractauto
  progbuf : ∀ slot, HasRegister C link (wlDmiDmprogbuf0 + slot)

theorem wlLinkeDmiRead_mem {reg : Byte} (h : HasRegister C link reg) :
    C.Mem (wlLinkeDmiRead link reg).run :=
  h 0 wlRegOpRead

theorem wlLinkeDmiWrite_mem {reg : Byte} (h : HasRegister C link reg) (value : Word) :
    C.Mem (wlLinkeDmiWrite link reg value).run :=
  C.andThen (h value wlRegOpWrite) fun _ => C.ok ()

section Polls

variable {C} (h : HasRegister C link wlDmiDmabstractcs)

include h

theorem dmPoll_polls (spins : Nat) (last : Word) : C.Mem (dmPoll link spins last).run := by
  induction spins generalizing last with
  | zero => exact C.ok last
  | succ spins ih =>
      rw [dmPoll]
      refine C.andThen (wlLinkeDmiRead_mem C h) fun abstractcs => ?_
      split
      · exact C.ok _
      · exact ih abstractcs

/-- Waiting accesses one register. -/
theorem dmWait_polls : C.Mem (dmWait link).run := by
  unfold dmWait
  refine C.andThen (dmPoll_polls h _ _) fun abstractcs => ?_
  dsimp only
  split
  · exact C.throwThen _ _
  · split
    · exact C.andThen (ignore_mem C (wlLinkeDmiWrite_mem C h _)) fun _ => C.throws _
    · exact C.ok _

end Polls

section Transfers

variable {C} (h : HasTransfers C link)

include h

theorem dmPoll_mem (spins : Nat) (last : Word) : C.Mem (dmPoll link spins last).run :=
  dmPoll_polls h.abstractcs spins last

theorem dmWait_mem : C.Mem (dmWait link).run := dmWait_polls h.abstractcs

/-- One command, whatever else the command register may be written with. -/
theorem dmCommand_mem_of {command : Word}
    (hcommand : C.Mem (wlLinkeDmiWrite link wlDmiDmcommand command).run) (value : Word)
    (transferIn result : Bool) :
    C.Mem (dmCommand link command value transferIn result).run := by
  have hrest : C.Mem (do
      wlLinkeDmiWrite link wlDmiDmcommand command
      dmWait link
      if result then wlLinkeDmiRead link wlDmiData0 else return 0 : Fallible Word).run := by
    refine C.andThen hcommand fun _ => C.andThen (dmWait_mem h) fun _ => ?_
    split
    · exact wlLinkeDmiRead_mem C h.data0
    · exact C.ok _
  unfold dmCommand
  dsimp only
  split
  · exact C.andThen (wlLinkeDmiWrite_mem C h.data0 _) fun _ => hrest
  · exact hrest

end Transfers

section Commands

variable {C} (h : HasCommands C link)

include h

theorem dmCommand_mem (command value : Word) (transferIn result : Bool) :
    C.Mem (dmCommand link command value transferIn result).run :=
  dmCommand_mem_of h.toHasTransfers (wlLinkeDmiWrite_mem C h.command command) _ _ _

theorem wlDmGprWrite_mem (reg value : Word) : C.Mem (wlDmGprWrite link reg value).run := by
  unfold wlDmGprWrite
  dsimp only
  split
  · exact C.throwThen _ _
  · exact C.andThen (dmCommand_mem h _ _ _ _) fun _ => C.ok ()

theorem wlDmGprRead_mem (reg : Word) : C.Mem (wlDmGprRead link reg).run := by
  unfold wlDmGprRead
  dsimp only
  split
  · exact C.throwThen _ _
  · exact dmCommand_mem h _ _ _ _

theorem wlDmPcRead_mem : C.Mem (wlDmPcRead link).run := dmCommand_mem h _ _ _ _

theorem wlDmPcWrite_mem (value : Word) : C.Mem (wlDmPcWrite link value).run :=
  C.andThen (dmCommand_mem h _ _ _ _) fun _ => C.ok ()

theorem dmCsrAccess_mem (regno value : Word) (write result : Bool) :
    C.Mem (dmCsrAccess link regno value write result).run :=
  dmCommand_mem h _ _ _ _

theorem wlDmCsrRead_mem (csr : Word) : C.Mem (wlDmCsrRead link csr).run :=
  dmCsrAccess_mem h _ _ _ _

theorem wlDmCsrWrite_mem (csr value : Word) : C.Mem (wlDmCsrWrite link csr value).run :=
  C.andThen (dmCsrAccess_mem h _ _ _ _) fun _ => C.ok ()

theorem wlDmDcsrRead_mem : C.Mem (wlDmDcsrRead link).run := dmCsrAccess_mem h _ _ _ _

theorem wlDmDcsrWrite_mem (value : Word) : C.Mem (wlDmDcsrWrite link value).run :=
  C.andThen (dmCsrAccess_mem h _ _ _ _) fun _ => C.ok ()

theorem dmLoadWords_mem (slot : Nat) (words : List Word) :
    C.Mem (dmLoadWords link slot words).run := by
  induction words generalizing slot with
  | nil => exact C.ok ()
  | cons word rest ih =>
      exact C.andThen (wlLinkeDmiWrite_mem C (h.progbuf _) word) fun _ => ih (slot + 1)

theorem dmLoadProgram_mem (program : List Word) : C.Mem (dmLoadProgram link program).run := by
  unfold dmLoadProgram
  dsimp only
  split
  · exact C.throwThen _ _
  · exact C.andThen (wlLinkeDmiWrite_mem C h.abstractauto _) fun _ => dmLoadWords_mem h _ _

theorem dmRun_mem (program : List Word) (address value : Word) (result : Bool) :
    C.Mem (dmRun link program address value result).run := by
  unfold dmRun
  refine C.andThen (dmLoadProgram_mem h _) fun _ => ?_
  refine C.andThen (wlDmGprWrite_mem h _ _) fun _ => ?_
  refine C.andThen (dmCommand_mem h _ _ _ _) fun _ => ?_
  split
  · exact wlDmGprRead_mem h _
  · exact C.ok _

end Commands

/-! ## From access programs to memory operations -/

/-- The runs of load programs. -/
structure HasLoads (link : Link) : Prop where
  read : ∀ size address, C.Mem (dmReadSized link size address).run

/-- The runs of load and store programs. -/
structure HasAccesses (link : Link) : Prop extends HasLoads C link where
  write : ∀ size address value, C.Mem (wlDmRunWrite link (writeProgram size) address value).run

theorem hasAccesses_of_commands (h : HasCommands C link) : HasAccesses C link where
  read _ _ := dmRun_mem h _ _ _ _
  write _ _ _ := C.andThen (dmRun_mem h _ _ _ _) fun _ => C.ok ()

/-- A class that has every register request has the commands. -/
theorem hasCommands_of_requests
    (h : ∀ reg value operation, C.Mem (transportCommand (regRequest reg value operation)))
    (link : Link) : HasCommands C link := by
  have hregister (reg : Byte) : HasRegister C link reg :=
    fun value operation => regAccess_mem C (h reg value operation)
  exact ⟨⟨hregister _, hregister _⟩, hregister _, hregister _, fun _ => hregister _⟩

theorem hasAccesses_of_requests
    (h : ∀ reg value operation, C.Mem (transportCommand (regRequest reg value operation)))
    (link : Link) : HasAccesses C link :=
  hasAccesses_of_commands C (hasCommands_of_requests C h link)

/-- What has been read stays; a block read only appends. -/
instance : Framed (List Byte) where
  keeps := fun before after => before <+: after
  refl := List.prefix_refl
  trans := List.IsPrefix.trans

/-- A read of a block read, with the bytes it appends. -/
theorem appendRead_mem {α : Type} {read : Fallible Word} (hread : C.Mem read.run)
    (bytes : Word → List Byte) {rest : Filling α} (hrest : C.StateMem rest.run) :
    C.StateMem (do
      let word ← read
      modify (· ++ bytes word)
      rest : Filling α).run :=
  C.andThenState (C.stateLift hread) fun _ => C.andThenState
    (C.stateLiftOk (C.stateModify fun own => List.prefix_append own (bytes _))) fun _ => hrest

section Loads

variable {C} (h : HasLoads C link)

include h

theorem wlDmRead32_mem (address : Word) : C.Mem (wlDmRead32 link address).run :=
  h.read .word address

theorem readBlockHead_mem (address : Word) (length : Nat) :
    C.StateMem (readBlockHead link address length).run := by
  induction length generalizing address with
  | zero => exact C.stateDone _
  | succ length ih =>
      rw [readBlockHead]
      split
      · exact appendRead_mem C (h.read _ _) _ (ih _)
      · exact C.stateDone _

theorem readBlockWords_mem (address : Word) (length : Nat) :
    C.StateMem (readBlockWords link address length).run := by
  induction address, length using readBlockWords.induct with
  | case1 address length ih =>
      rw [readBlockWords]
      exact appendRead_mem C (h.read _ _) _ ih
  | case2 address length hshort =>
      unfold readBlockWords
      split
      · exact absurd rfl (hshort _)
      · exact C.stateDone _

theorem readBlockTail_mem (address : Word) (length : Nat) :
    C.StateMem (readBlockTail link address length).run := by
  induction length generalizing address with
  | zero => exact C.stateDone _
  | succ length ih =>
      rw [readBlockTail]
      exact appendRead_mem C (h.read _ _) _ (ih _)

theorem wlDmReadBlock_mem (address : Word) (length : Nat) :
    C.StateMem (wlDmReadBlock link address length).run :=
  C.andThenState (readBlockHead_mem h _ _) fun _ =>
    C.andThenState (readBlockWords_mem h _ _) fun _ => readBlockTail_mem h _ _

theorem filled_mem (address : Word) (length : Nat) :
    C.Mem (filled (wlDmReadBlock link address length)).run :=
  C.bind (wlDmReadBlock_mem h address length []).1 fun _ => C.done _

theorem pollReady_mem (polls : Nat) (status : Word) : C.Mem (pollReady link polls status).run := by
  induction polls generalizing status with
  | zero => exact C.ok status
  | succ polls ih =>
      rw [pollReady]
      refine C.andThen (wlDmRead32_mem h _) fun status => ?_
      split
      · exact C.ok _
      · exact ih status

theorem waitReady_mem : C.Mem (waitReady link).run := by
  unfold waitReady
  refine C.andThen (pollReady_mem h _ _) fun status => ?_
  dsimp only
  split
  · exact C.throwThen _ _
  · split
    · exact C.throws _
    · exact C.ok _

theorem readOldPage_mem (pageSize start stop page : Word) :
    C.Mem (readOldPage link pageSize start stop page).run := by
  unfold readOldPage
  split
  · exact C.ok _
  · exact filled_mem h _ _

end Loads

section Accesses

variable {C} (h : HasAccesses C link)

include h

theorem wlDmWrite32_mem (address value : Word) : C.Mem (wlDmWrite32 link address value).run :=
  h.write .word address value

theorem wlDmWrite16_mem (address : Word) (value : BitVec 16) :
    C.Mem (wlDmWrite16 link address value).run :=
  h.write .half address _

theorem wlDmWrite8_mem (address : Word) (value : Byte) :
    C.Mem (wlDmWrite8 link address value).run :=
  h.write .byte address _

/-! ## From memory operations to the flasher -/

theorem ctlrUpdate_mem (set clear : Word) : C.Mem (ctlrUpdate link set clear).run :=
  C.andThen (wlDmRead32_mem h.toHasLoads _) fun _ => wlDmWrite32_mem h _ _

theorem unlock_mem : C.Mem (unlock link).run := by
  unfold unlock
  refine C.andThen (wlDmWrite32_mem h _ _) fun _ => ?_
  refine C.andThen (wlDmWrite32_mem h _ _) fun _ => ?_
  refine C.andThen (wlDmWrite32_mem h _ _) fun _ => ?_
  refine C.andThen (wlDmWrite32_mem h _ _) fun _ => ?_
  refine C.andThen (wlDmRead32_mem h.toHasLoads _) fun ctlr => ?_
  split
  · exact C.throws _
  · exact C.ok _

theorem erasePageFast_mem (page : Word) : C.Mem (erasePageFast link page).run :=
  cleaning_mem C
    (C.andThen (waitReady_mem h.toHasLoads) fun _ => C.andThen (ctlrUpdate_mem h _ _) fun _ =>
      C.andThen (wlDmWrite32_mem h _ _) fun _ => C.andThen (ctlrUpdate_mem h _ _) fun _ =>
        waitReady_mem h.toHasLoads)
    (ctlrUpdate_mem h _ _)

theorem bufferReset_mem : C.Mem (bufferReset link).run :=
  cleaning_mem C
    (C.andThen (ctlrUpdate_mem h _ _) fun _ => C.andThen (ctlrUpdate_mem h _ _) fun _ =>
      waitReady_mem h.toHasLoads)
    (ctlrUpdate_mem h _ _)

theorem bufferLoad_mem (address word : Word) : C.Mem (bufferLoad link address word).run :=
  cleaning_mem C
    (C.andThen (ctlrUpdate_mem h _ _) fun _ => C.andThen (wlDmWrite32_mem h _ _) fun _ =>
      C.andThen (ctlrUpdate_mem h _ _) fun _ => waitReady_mem h.toHasLoads)
    (ctlrUpdate_mem h _ _)

theorem programPageFast_mem (page : Word) : C.Mem (programPageFast link page).run :=
  cleaning_mem C
    (C.andThen (ctlrUpdate_mem h _ _) fun _ => C.andThen (wlDmWrite32_mem h _ _) fun _ =>
      C.andThen (ctlrUpdate_mem h _ _) fun _ => waitReady_mem h.toHasLoads)
    (ctlrUpdate_mem h _ _)

theorem loadPage_mem (address : Word) (bytes : List Byte) :
    C.Mem (loadPage link address bytes).run := by
  induction address, bytes using loadPage.induct with
  | case1 address b0 b1 b2 b3 rest ih =>
      rw [loadPage]
      exact C.andThen (bufferLoad_mem h _ _) fun _ => ih
  | case2 bytes address hshort =>
      unfold loadPage
      split
      · exact absurd rfl (hshort _ _ _ _ _)
      · exact C.ok ()

theorem writePage_mem (pageSize start stop : Word) (image : List Byte) (page : Word) :
    C.Mem (writePage link pageSize start stop image page).run :=
  C.andThen (readOldPage_mem h.toHasLoads _ _ _ _) fun _ => C.andThen (erasePageFast_mem h _) fun _ =>
    C.andThen (bufferReset_mem h) fun _ => C.andThen (loadPage_mem h _ _) fun _ =>
      programPageFast_mem h _

theorem writePages_mem (hcut : C.Cuts) (pageSize start stop : Word) (image : List Byte) (rounds : Nat)
    (page : Word) : C.Mem (writePages link pageSize start stop image rounds page).run := by
  induction rounds generalizing page with
  | zero => exact hcut
  | succ rounds ih =>
      rw [writePages]
      split
      · exact C.andThen (writePage_mem h _ _ _ _ _) fun _ => ih _
      · exact C.ok ()

theorem wlFlashCh32v0Write_mem (hcut : C.Cuts) (chip : Chip) (address : Word) (image : List Byte)
    (length : BitVec 64) : C.Mem (wlFlashCh32v0Write link chip address image length).run := by
  unfold wlFlashCh32v0Write
  dsimp only
  split
  · exact C.throwThen _ _
  · exact C.andThen (unlock_mem h) fun _ => writePages_mem h hcut _ _ _ _ _ _

theorem wlFlashWrite_mem (hcut : C.Cuts) (chip : Option Chip) (address : Word) (image : Option (List Byte))
    (length : BitVec 64) : C.Mem (wlFlashWrite link chip address image length).run := by
  unfold wlFlashWrite
  split
  · dsimp only
    split
    · exact C.throwThen _ _
    · split
      · exact C.throwThen _ _
      · split
        · exact C.throwThen _ _
        · split
          · exact wlFlashCh32v0Write_mem h hcut _ _ _ _
          · exact C.throws _
  · exact C.throws _

end Accesses

/-! ## Requests for a part already selected -/

/-- The requests that hold a target and let it run again. -/
structure HasControls : Prop where
  attach : C.Mem (transportCommand (controlRequest wlCmdControl wlCtlAttach))
  run : C.Mem (transportCommand (controlRequest wlCmdRun 0x01))
  release : C.Mem (transportCommand (controlRequest wlCmdControl wlCtlRelease))

/-- The link remembers the part as the one selected. -/
def Link.HasSet (link : Link) (chip : Chip) : Prop :=
  link.configured = true ∧ link.chipId = chip.linkeId

theorem wlLinkeSetInterface_cached {chip : Chip} (hset : link.HasSet chip) :
    (wlLinkeSetInterface (some chip)).run.run link =
      (pure (.ok (), link) : Program Usb (Except WlErr Unit × Link)) := by
  have hcached : (link.configured && link.chipId == chip.linkeId) = true := by
    rw [hset.1, hset.2]
    simp
  show (if (link.configured && link.chipId == chip.linkeId) = true then _ else _ :
    Linked Unit).run.run link = _
  rw [if_pos hcached]
  rfl

/-- A flash request, once the part has been selected. -/
def writeSelected (chip : Chip) (address : Word) (image : Option (List Byte))
    (length : BitVec 64) (verify : Bool) : Linked Unit := do
  wlLinkeHalt (← get)
  wlFlashWrite (← get) chip address image length
  let status ← ExceptT.lift
    (if verify then (wlFlashVerify chip address image length).run else pure (.ok ()))
  ignore (wlLinkeResume (← get))
  ofExcept status

theorem wlLinkeWriteFlash_eq (chip : Chip) (address : Word) (image : Option (List Byte))
    (length : BitVec 64) (verify : Bool) :
    wlLinkeWriteFlash (some chip) address image length verify = (do
      wlLinkeSetInterface (some chip)
      writeSelected chip address image length verify) := rfl

/-- A memory read, once the part has been selected. -/
def readSelected (address : Word) (length : Nat) : Linked (List Byte) := do
  wlLinkeHalt (← get)
  filled (wlDmReadBlock (← get) address length)

theorem wlLinkeReadMemory_eq (chip : Chip) (address : Word) (length : Nat) :
    wlLinkeReadMemory (some chip) address length = (do
      wlLinkeSetInterface (some chip)
      readSelected address length) := rfl

theorem wlLinkeResume_mem {C : ProgramClass Usb} (h : HasControls C) :
    C.Mem (wlLinkeResume link).run :=
  C.andThen (sendControl_mem C h.run) fun _ => C.andThen (sendControl_mem C h.attach) fun _ =>
    C.andThen (sendControl_mem C h.release) fun _ => C.ok ()

section Selected

variable {C} (h : HasAccesses C link) (hcontrols : HasControls C) {chip : Chip}
  (hset : link.HasSet chip)

include h hcontrols

theorem readSelected_still (address : Word) (length : Nat) :
    C.StillMem link (readSelected address length).run :=
  C.readStill (C.andThenStill (C.stillLift (wlLinkeHalt_mem C hcontrols.attach)) fun _ =>
    C.readStill (C.stillLift (filled_mem h.toHasLoads _ _)))

include hset

theorem wlLinkeReadMemory_still (address : Word) (length : Nat) :
    C.StillMem link (wlLinkeReadMemory (some chip) address length).run := by
  rw [wlLinkeReadMemory_eq]
  refine C.andThenStill ⟨pure (.ok ()), wlLinkeSetInterface_cached hset, C.done _⟩ fun _ => ?_
  exact readSelected_still h hcontrols address length

theorem verifyChunks_still (start : Word) (expected : List Byte) (length rounds done : Nat) :
    C.StillMem link (verifyChunks chip start expected length rounds done).run := by
  induction rounds generalizing done with
  | zero => exact C.stillDone _
  | succ rounds ih =>
      rw [verifyChunks]
      split
      · refine C.andThenStill (wlLinkeReadMemory_still h hcontrols hset _ _) fun buffer => ?_
        dsimp only
        split
        · exact C.stillDone _
        · exact ih _
      · exact C.stillDone _

theorem wlFlashVerify_still (address : Word) (image : Option (List Byte)) (length : BitVec 64) :
    C.StillMem link (wlFlashVerify (some chip) address image length).run := by
  cases image with
  | none => exact C.stillDone _
  | some image => exact verifyChunks_still h hcontrols hset _ _ _ _ _

theorem writeSelected_still (hcut : C.Cuts) (address : Word) (image : Option (List Byte))
    (length : BitVec 64) (verify : Bool) :
    C.StillMem link (writeSelected chip address image length verify).run := by
  refine C.readStill (C.andThenStill (C.stillLift (wlLinkeHalt_mem C hcontrols.attach)) fun _ => ?_)
  refine C.readStill (C.andThenStill (C.stillLift (wlFlashWrite_mem h hcut _ _ _ _)) fun _ => ?_)
  refine C.andThenStill (C.stillLiftOk ?_) fun status => ?_
  · split
    · exact wlFlashVerify_still h hcontrols hset _ _ _
    · exact C.stillDone _
  · refine C.readStill (C.andThenStill (C.stillLift
      (ignore_mem C (wlLinkeResume_mem hcontrols))) fun _ => ?_)
    cases status with
    | ok value => exact C.stillDone _
    | error error => exact C.stillDone _

end Selected

end WchLink
