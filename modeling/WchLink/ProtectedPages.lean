import WchLink.FlashRequest
import WchLink.Layers

/-! # A controller with write-protected pages

The simulated part leaves every page writable. Here some are protected: a page
operation on one of them is refused, WRPRTERR records the refusal, and it stays
set until software writes a one to it. Nothing else about the part changes, so
the flasher meets the same part as long as it keeps to the other pages.
-/

namespace WchLink

open Bytes Interaction

/-- A word store on a part with protected pages. -/
def SimTarget.guardedStore (protects : Nat → Bool) (target : SimTarget) (address value : Word) :
    SimTarget :=
  if address &&& ~~~3 = simFlashStatr then
    -- the error bit is cleared by writing a one to it, and by nothing else
    if value &&& simStatrWrprterr ≠ 0 then { target with programErrors := 0 } else target
  else if address &&& ~~~3 = simFlashCtlr ∧ value &&& simCtlrStrt ≠ 0 ∧
      protects (simFlashOffset target.addr / 64) = true then
    -- the operation is refused: the flash array keeps its contents
    { target with
      ctlr := value
      programErrors := target.programErrors + 1
      busyReads := simBusyReads }
  else
    target.store .word address value

/-- The simulator after a request, on a part with protected pages. The debug
module stores when it is told to run a store program: x9 holds the address and
DATA0 the value. -/
def Sim.guard (protects : Nat → Bool) (request : List Byte) (before after : Sim) : Sim :=
  if request = regRequest wlDmiDmcommand runCommand wlRegOpWrite ∧ before.configured = true ∧
      before.dm.progbuf 0 = wlRvStore 2 8 9 then
    { after with
      target := before.target.guardedStore protects (before.dm.gpr 9)
        (before.dm.dmi wlDmiData0) }
  else
    after

/-- The simulated programmer on a part with protected pages. -/
def guardedSimulator (protects : Nat → Bool) : Handler Usb Sim := fun request sim =>
  ((simCommand request sim).1, sim.guard protects request (simCommand request sim).2)

/-- The pages of a part that may be changed. -/
def Unprotected (protects : Nat → Bool) (page : Nat) : Prop := protects page = false

/-- A permitted store is not refused and leaves the status register alone. -/
theorem SimTarget.Permits.guardedStore {protects : Nat → Bool} {target : SimTarget}
    {address value : Word} (h : target.Permits (Unprotected protects) address value) :
    target.guardedStore protects address value = target.store .word address value := by
  unfold SimTarget.guardedStore
  rw [if_neg h.status, if_neg]
  rintro ⟨hctlr, hstart, hprotected⟩
  rw [h.page hctlr hstart] at hprotected
  cases hprotected

/-! ## Requests that run nothing -/

section Agreement

variable {protects : Nat → Bool} {link : Link}

theorem guardedSimulator_agrees {request : List Byte}
    (h : request ≠ regRequest wlDmiDmcommand runCommand wlRegOpWrite) :
    (Program.agreeing (guardedSimulator protects) simulator).Mem (transportCommand request) := by
  apply Program.agreeing_perform
  intro sim
  unfold guardedSimulator Sim.guard
  rw [if_neg (fun hrun => h hrun.1)]
  rfl

theorem regRequest_ne {reg reg' : Byte} {value value' : Word} {operation operation' : Byte}
    (h : reg ≠ reg' ∨ value ≠ value') :
    regRequest reg value operation ≠ regRequest reg' value' operation' := by
  intro hsame
  have haccess := congrArg registerAccess hsame
  rw [registerAccess_regRequest, registerAccess_regRequest] at haccess
  cases haccess
  cases h with
  | inl hreg => exact hreg rfl
  | inr hvalue => exact hvalue rfl

/-- Accesses of the other registers. -/
theorem regAccess_agrees {reg : Byte} (hreg : reg ≠ wlDmiDmcommand) :
    HasRegister (Program.agreeing (guardedSimulator protects) simulator) link reg :=
  fun _ _ => regAccess_mem _ (guardedSimulator_agrees (regRequest_ne (.inl hreg)))

theorem hasTransfers_agrees :
    HasTransfers (Program.agreeing (guardedSimulator protects) simulator) link where
  data0 := regAccess_agrees (by decide)
  abstractcs := regAccess_agrees (by decide)

/-- The other commands. -/
theorem dmCommand_agrees {command : Word} (hcommand : command ≠ runCommand) (value : Word)
    (transferIn result : Bool) :
    (Program.agreeing (guardedSimulator protects) simulator).Mem
      (dmCommand link command value transferIn result).run := by
  apply dmCommand_mem_of hasTransfers_agrees
  apply ProgramClass.andThen
  · exact regAccess_mem _ (guardedSimulator_agrees (regRequest_ne (.inr hcommand)))
  · exact fun _ => ProgramClass.ok _ ()

theorem dmLoadProgram_agrees (first second : Word) :
    (Program.agreeing (guardedSimulator protects) simulator).Mem
      (dmLoadProgram link [first, second]).run := by
  have hprogbuf (slot : Nat) (word : Word) (hslot : slot < 2) :
      (Program.agreeing (guardedSimulator protects) simulator).Mem
        (wlLinkeDmiWrite link (wlDmiDmprogbuf0 + BitVec.ofNat 8 slot) word).run := by
    apply wlLinkeDmiWrite_mem
    apply regAccess_agrees
    interval_cases slot <;> decide
  unfold dmLoadProgram
  rw [if_neg (by simp [wlDmProgbufWords])]
  apply ProgramClass.andThen
  · exact wlLinkeDmiWrite_mem _ (regAccess_agrees (by decide)) _
  · intro _
    apply ProgramClass.andThen _ (hprogbuf 0 first (by decide))
    intro _
    apply ProgramClass.andThen _ (hprogbuf 1 second (by decide))
    exact fun _ => ProgramClass.ok _ ()

theorem wlDmGprWrite_agrees (value : Word) :
    (Program.agreeing (guardedSimulator protects) simulator).Mem
      (wlDmGprWrite link 9 value).run := by
  unfold wlDmGprWrite
  rw [if_neg (by decide)]
  apply ProgramClass.andThen
  · exact dmCommand_agrees (by decide) _ _ _
  · exact fun _ => ProgramClass.ok _ ()

theorem wlDmGprRead_agrees :
    (Program.agreeing (guardedSimulator protects) simulator).Mem (wlDmGprRead link 8).run := by
  unfold wlDmGprRead
  rw [if_neg (by decide)]
  exact dmCommand_agrees (by decide) _ _ _

end Agreement

/-! ## Running a program -/

section Runs

variable {protects : Nat → Bool} {link : Link} (hlink : link.Usable)

include hlink

theorem wlLinkeDmiWrite_guarded (reg : Byte) (value : Word) {sim : Sim}
    (hconfigured : sim.configured = true) :
    (wlLinkeDmiWrite link reg value).run.run (guardedSimulator protects) sim =
      (some (.ok ()),
        sim.guard protects (regRequest reg value wlRegOpWrite) (sim.dmiWrite reg value)) := by
  have hanswer : simCommand (regRequest reg value wlRegOpWrite) sim =
      (.ok (simRegReply reg (simDmiRead (sim.dmiWrite reg value).dm reg)),
        sim.dmiWrite reg value) := by
    rw [simCommand_regRequest]
    simp [simRegister, hconfigured, wlRegOpWrite, Sim.dmiWrite]
  rw [wlLinkeDmiWrite_eq hlink]
  unfold Program.run guardedSimulator
  rw [hanswer]
  dsimp only
  rw [regAnswer_ok (acknowledged_simRegReply _ _)]
  rfl

/-- The module and its operands as the run command finds them. -/
def Sim.loaded (sim : Sim) (instruction address value : Word) : Sim :=
  ({ sim with dm := sim.dm.prepared instruction wlRvEbreak address } : Sim).dmiWrite wlDmiData0
    value

/-- The run command on a module that holds the program. -/
theorem dmCommand_guarded (instruction address value : Word) {sim : Sim} (hready : sim.Ready)
    {after : Sim}
    (hafter : (sim.loaded instruction address value).guard protects
      (regRequest wlDmiDmcommand runCommand wlRegOpWrite)
      ((sim.loaded instruction address value).dmiWrite wlDmiDmcommand runCommand) = after)
    (hready' : after.Ready) :
    (dmCommand link runCommand value true false).run.run (guardedSimulator protects)
        { sim with dm := sim.dm.prepared instruction wlRvEbreak address } =
      (some (.ok 0), after) := by
  have hdata : (wlLinkeDmiWrite link wlDmiData0 value).run.run (guardedSimulator protects)
      { sim with dm := sim.dm.prepared instruction wlRvEbreak address } =
        (some (.ok ()), sim.loaded instruction address value) := by
    rw [wlLinkeDmiWrite_mem _ (regAccess_agrees (by decide))]
    exact wlLinkeDmiWrite_run hlink wlDmiData0 value hready.configured
  have hcommand : (wlLinkeDmiWrite link wlDmiDmcommand runCommand).run.run
      (guardedSimulator protects) (sim.loaded instruction address value) =
        (some (.ok ()), after) := by
    rw [← hafter]
    exact wlLinkeDmiWrite_guarded hlink wlDmiDmcommand runCommand hready.configured
  have hwait : (dmWait link).run.run (guardedSimulator protects) after =
      (some (.ok ()), after) := by
    rw [dmWait_mem hasTransfers_agrees]
    exact dmWait_run hlink hready'
  unfold dmCommand
  rw [if_pos rfl, Program.run_except_ok hdata, Program.run_except_ok hcommand,
    Program.run_except_ok hwait]
  rfl

/-- A two-instruction program runs as it does on the simulator, up to what the
guard makes of its store. -/
theorem dmRun_guarded (instruction address value : Word) (result : Bool) {sim after : Sim}
    (hready : sim.Ready)
    (hafter : (sim.loaded instruction address value).guard protects
      (regRequest wlDmiDmcommand runCommand wlRegOpWrite)
      ((sim.loaded instruction address value).dmiWrite wlDmiDmcommand runCommand) = after)
    (hready' : after.Ready) :
    (dmRun link [instruction, wlRvEbreak] address value result).run.run
        (guardedSimulator protects) sim =
      (if result then wlDmGprRead link 8 else pure 0).run.run simulator after := by
  have hload := dmLoadProgram_run hlink instruction wlRvEbreak hready.configured
  rw [← @dmLoadProgram_agrees protects] at hload
  have hgpr := wlDmGprWrite_run hlink address (by decide : ¬(9 : Word) > 31)
    (show (((sim.dmiWrite wlDmiDmabstractauto 0).dmiWrite
      (wlDmiDmprogbuf0 + BitVec.ofNat 8 0) instruction).dmiWrite
      (wlDmiDmprogbuf0 + BitVec.ofNat 8 1) wlRvEbreak).configured = true from hready.configured)
    (by rw [Sim.dmiWrite_prepared]; exact ⟨hready.configured, hready.cmderr⟩)
  rw [Sim.dmiWrite_prepared, ← @wlDmGprWrite_agrees protects] at hgpr
  have hcommand := dmCommand_guarded hlink instruction address value hready hafter hready'
  unfold dmRun
  rw [Program.run_except_ok hload, Program.run_except_ok hgpr, Program.run_except_ok hcommand]
  cases result with
  | false => rfl
  | true => exact wlDmGprRead_agrees after

/-- Loads are made as they are on the simulator. -/
theorem dmReadSized_guarded (size : Width) (address : Word) {sim : Sim} (hready : sim.Ready) :
    (dmReadSized link size address).run.run (guardedSimulator protects) sim =
      (dmReadSized link size address).run.run simulator sim := by
  have hrun := simRunProgbuf_load 254 sim.target size
    (sim.dm.started_program (loadWord size) address 0)
  rw [SimModule.started_address] at hrun
  have hexecuted := Sim.command_run (loadWord size) address 0 hrun
  have hload : (sim.loaded (loadWord size) address 0).dm.progbuf 0 ≠ wlRvStore 2 8 9 := by
    show loadWord size ≠ wlRvStore 2 8 9
    cases size <;> decide
  have hunguarded : (sim.loaded (loadWord size) address 0).guard protects
      (regRequest wlDmiDmcommand runCommand wlRegOpWrite)
      ((sim.loaded (loadWord size) address 0).dmiWrite wlDmiDmcommand runCommand) =
        (sim.loaded (loadWord size) address 0).dmiWrite wlDmiDmcommand runCommand :=
    if_neg fun hstore => hload hstore.2.2
  have hready' : Sim.Ready { sim with
      dm := ((sim.dm.started (loadWord size) address 0).setGpr 8
        (sim.target.loaded size address)).advance 4
      target := sim.target.afterLoad size address } := ⟨hready.configured, hready.cmderr⟩
  have hguarded := dmRun_guarded hlink (loadWord size) address 0 true hready
    (hunguarded.trans hexecuted) hready'
  have hplain := dmRun_prefix hlink (loadWord size) wlRvEbreak address 0 true hready hexecuted
    hready'
  exact hguarded.trans hplain.symm

/-- The simulator after a word store on a part with protected pages. -/
def Sim.guardedStored (protects : Nat → Bool) (sim : Sim) (address value : Word) : Sim :=
  { sim.stored .word address value with
    target := sim.target.guardedStore protects address value }

theorem wlDmWrite32_guarded_run (address value : Word) {sim : Sim} (hready : sim.Ready) :
    (wlDmWrite32 link address value).run.run (guardedSimulator protects) sim =
      (some (.ok ()), sim.guardedStored protects address value) := by
  have hrun := simRunProgbuf_store 254 sim.target .word
    (sim.dm.started_program (wlRvStore 2 8 9) address value)
  rw [SimModule.started_address, SimModule.started_value] at hrun
  have hexecuted := Sim.command_run (wlRvStore 2 8 9) address value hrun
  have hafter : (sim.loaded (wlRvStore 2 8 9) address value).guard protects
      (regRequest wlDmiDmcommand runCommand wlRegOpWrite)
      ((sim.loaded (wlRvStore 2 8 9) address value).dmiWrite wlDmiDmcommand runCommand) =
        sim.guardedStored protects address value := by
    unfold Sim.guard
    rw [if_pos ⟨rfl, hready.configured, rfl⟩]
    have hstored : (sim.loaded (wlRvStore 2 8 9) address value).dmiWrite wlDmiDmcommand
        runCommand = sim.stored .word address value := hexecuted
    rw [hstored]
    rfl
  have hguarded := dmRun_guarded hlink (wlRvStore 2 8 9) address value false hready hafter
    ⟨hready.configured, hready.cmderr⟩
  unfold wlDmWrite32 wlDmRunWrite writeProgram
  exact Program.run_except_ok hguarded

theorem wlDmWrite32_guarded (address value : Word) (target : SimTarget) :
    Drives (guardedSimulator protects) targetSurface (wlDmWrite32 link address value).run target
      (.ok ()) (target.guardedStore protects address value) := by
  intro sim hready hview
  subst hview
  refine ⟨_, wlDmWrite32_guarded_run hlink address value hready, rfl, ?_⟩
  exact .of_started _ address value rfl rfl (fun _ _ => rfl) rfl rfl rfl rfl

/-- On the unprotected pages the part is the one without protection. -/
theorem guardedPort : TargetPort (guardedSimulator protects) link (Unprotected protects) where
  read := by
    intro size address target sim hready hview
    rw [dmReadSized_guarded hlink size address hready]
    exact dmReadSized_drives hlink size address target sim hready hview
  write := by
    intro address value target hpermits
    rw [← hpermits.guardedStore]
    exact wlDmWrite32_guarded hlink address value target

end Runs

end WchLink
