import WchLink.Gdb.Server
import WchLink.Interaction.Reach
import WchLink.Masks
import WchLink.SimulatorRegisters

/-! # What a single step does to DCSR

A step sets two fields of DCSR, lets the core run one instruction, and writes
DCSR back. The instruction may have moved other fields meanwhile: what is
written back was read before it.
-/

namespace WchLink

open Bytes Interaction Masks Program

variable {σ : Type}

/-- From ready states every access to DCSR succeeds, and only the core itself
changes it otherwise: `left` is what the core has put there, whatever it did
between a resume and the next access. -/
structure HoldsDcsr (world : World Host σ) (link : Link) (writable : Word) (ready : σ → Prop)
    (dcsr left : σ → Word) : Prop where
  read : ∀ state status final, ready state →
    Returns world (onHost (wlDmDcsrRead link).run) state status final →
      ready final ∧ status = .ok (dcsr state) ∧ dcsr final = dcsr state ∧ left final = left state
  write : ∀ value state status final, ready state →
    Returns world (onHost (wlDmDcsrWrite link value).run) state status final →
      ready final ∧ status = .ok () ∧ dcsr final = assign writable value (dcsr state) ∧
        left final = left state
  resume : ∀ state final, ready state →
    Returns world (onHost (wlLinkeDmiWrite link wlDmiDmcontrol gdbDmcontrolResume).run) state
      (.ok ()) final → ready final ∧ dcsr final = left final
  status : ∀ state status final, ready state → dcsr state = left state →
    Returns world (onHost (wlLinkeDmiRead link wlDmiDmstatus).run) state status final →
      ready final ∧ dcsr final = left final
  sleep : ∀ duration state reply final, ready state → dcsr state = left state →
    world state (.sleep duration) reply final → ready final ∧ dcsr final = left final

/-- The fields a step is meant to set. -/
def gdbStepFields : Word := gdbDcsrEbreakBits ||| gdbDcsrStep

/-- After a step DCSR has the step bit clear and the ebreak bits set, and every
other writable field is as the core left it. -/
structure StepExact (writable final left : Word) : Prop where
  step : final &&& gdbDcsrStep = 0
  ebreak : final &&& gdbDcsrEbreakBits = gdbDcsrEbreakBits
  others : AgreeOutside (~~~writable ||| gdbStepFields) final left

/-! ## Runs of the server's operations -/

theorem returns_onTarget {world : World Host σ} {α : Type} {operation : Link → Fallible α}
    {conn conn' : GdbConn} {status : Except WlErr α} {state final : σ}
    (h : Returns world ((onTarget operation).run conn) state (status, conn') final) :
    conn' = conn ∧ Returns world (onHost (operation conn.link).run) state status final := by
  have hreturns : Returns world (onHost (operation conn.link).run >>= fun status =>
      (pure (status, conn) : Program Host (Except WlErr α × GdbConn))) state (status, conn')
        final := h
  obtain ⟨status', middle, hoperation, hdone⟩ := returns_bind_iff.mp hreturns
  obtain ⟨hvalue, rfl⟩ := returns_done_iff.mp hdone
  cases hvalue
  exact ⟨rfl, hoperation⟩

section Step

variable {world : World Host σ} {conn : GdbConn} {writable : Word} {ready : σ → Prop}
  {dcsr left : σ → Word} (h : HoldsDcsr world conn.link writable ready dcsr left)

/-- The core has been the last to change DCSR. -/
def CoreLeft (ready : σ → Prop) (dcsr left : σ → Word) (state : σ) : Prop :=
  ready state ∧ dcsr state = left state

include h

theorem gdbPollHalted_left (polls : Nat) :
    (restoring world (CoreLeft ready dcsr left)).StillMem conn (gdbPollHalted polls) := by
  let C := restoring world (CoreLeft ready dcsr left)
  have hstatus : C.StillMem conn gdbDmIsHalted := by
    apply C.stillBind
    · apply C.stillGet
      apply C.stillLift
      intro state status final hstate hreturns
      exact h.status state status final hstate.1 hstate.2 hreturns
    · intro status
      cases status with
      | error error => exact C.stillDone _
      | ok word => exact C.stillDone _
  have hsleep : C.Mem (request (.sleep 1000000)) := by
    intro state value final hstate hreturns
    exact h.sleep 1000000 state value final hstate.1 hstate.2 (returns_perform_iff.mp hreturns)
  induction polls with
  | zero => exact C.stillDone _
  | succ polls ih =>
      unfold gdbPollHalted
      apply C.stillBind hstatus
      intro halted
      cases halted with
      | true => exact C.stillDone _
      | false => exact C.stillBind (C.stillLift hsleep) fun _ => ih

theorem gdbDmEnableEbreak_ready {conn' : GdbConn} {status : Except WlErr Unit} {state final : σ}
    (hready : ready state)
    (hreturns : Returns world (gdbDmEnableEbreak.run conn) state (status, conn') final) :
    conn' = conn ∧ ready final := by
  unfold gdbDmEnableEbreak at hreturns
  rw [StateT.run_bind] at hreturns
  obtain ⟨⟨read, between⟩, middle, hfirst, hrest⟩ := returns_bind_iff.mp hreturns
  obtain ⟨rfl, hread⟩ := returns_onTarget hfirst
  obtain ⟨hmiddle, rfl, -, -⟩ := h.read state read middle hready hread
  obtain ⟨rfl, hwrite⟩ := returns_onTarget hrest
  exact ⟨rfl, (h.write _ middle status final hmiddle hwrite).1⟩

/-- A resume that succeeds and a wait leave the core's own value. -/
theorem gdbResumeAndWait_left {conn' : GdbConn} {state final : σ} (hready : ready state)
    (hreturns : Returns world (gdbResumeAndWait.run conn) state (.ok (), conn') final) :
    conn' = conn ∧ CoreLeft ready dcsr left final := by
  unfold gdbResumeAndWait at hreturns
  rw [StateT.run_bind] at hreturns
  obtain ⟨⟨resumed, between⟩, middle, hresume, hrest⟩ := returns_bind_iff.mp hreturns
  cases resumed with
  | error error =>
      obtain ⟨hvalue, -⟩ := returns_done_iff.mp hrest
      cases hvalue
  | ok value =>
      unfold gdbResume at hresume
      rw [StateT.run_bind] at hresume
      obtain ⟨⟨enabled, own⟩, enabling, henable, hwrite⟩ := returns_bind_iff.mp hresume
      obtain ⟨rfl, henabled⟩ := gdbDmEnableEbreak_ready h hready henable
      obtain ⟨rfl, hwrite⟩ := returns_onTarget hwrite
      have hleft := h.resume enabling middle henabled hwrite
      have hwait := gdbPollHalted_left h gdbHaltPolls
      have hwaited : Returns world ((gdbPollHalted gdbHaltPolls).run between) middle
          (.ok (), conn') final := hrest
      exact ⟨hwaited.of_always hwait.always, hwait.mem middle _ final hleft hwaited⟩

/-- What a step that succeeds has done: the core has left its own value, and the
value read at the start has been written over it. -/
theorem gdbStep_returns {conn' : GdbConn} {state final : σ} (hready : ready state)
    (hreturns : Returns world (gdbStep.run conn) state (.ok (), conn') final) :
    dcsr final = assign writable ((dcsr state ||| gdbStepFields) &&& ~~~gdbDcsrStep)
      (left final) := by
  unfold gdbStep at hreturns
  rw [StateT.run_bind] at hreturns
  obtain ⟨⟨read, own⟩, first, hread, hrest⟩ := returns_bind_iff.mp hreturns
  obtain ⟨rfl, hread⟩ := returns_onTarget hread
  obtain ⟨hfirst, rfl, -, -⟩ := h.read state read first hready hread
  dsimp only at hrest
  rw [StateT.run_bind] at hrest
  obtain ⟨⟨written, own⟩, second, hwrite, hrest⟩ := returns_bind_iff.mp hrest
  obtain ⟨rfl, hwrite⟩ := returns_onTarget hwrite
  obtain ⟨hsecond, rfl, -, -⟩ := h.write _ first written second hfirst hwrite
  dsimp only at hrest
  rw [StateT.run_bind] at hrest
  obtain ⟨⟨waited, own⟩, third, hwait, hrest⟩ := returns_bind_iff.mp hrest
  rw [StateT.run_bind] at hrest
  obtain ⟨⟨ignored, own'⟩, fourth, hlast, hdone⟩ := returns_bind_iff.mp hrest
  obtain ⟨hvalue, rfl⟩ := returns_done_iff.mp hdone
  cases hvalue
  obtain ⟨rfl, hthird, hleft⟩ := gdbResumeAndWait_left h hsecond hwait
  unfold onTargetIgnored at hlast
  rw [StateT.run_bind] at hlast
  obtain ⟨⟨cleared, own''⟩, fifth, hcleared, hdone⟩ := returns_bind_iff.mp hlast
  obtain ⟨-, rfl⟩ := returns_done_iff.mp hdone
  obtain ⟨rfl, hcleared⟩ := returns_onTarget hcleared
  obtain ⟨-, -, hdcsr, hkept⟩ := h.write _ third cleared _ hthird hcleared
  rw [hdcsr, hkept, hleft]
  rfl

end Step

/-- What the write back gives the step's own fields. -/
theorem assign_stepFields {writable : Word} (hwritable : gdbStepFields &&& ~~~writable = 0)
    (value old : Word) :
    assign writable ((value ||| gdbStepFields) &&& ~~~gdbDcsrStep) old &&& gdbStepFields =
      gdbDcsrEbreakBits := by
  have hmask : ~~~writable &&& gdbStepFields = 0 := by
    rw [BitVec.and_comm]
    exact hwritable
  rw [(assign_agree writable _ old).bits hmask]
  have hsteps : gdbStepFields &&& ~~~gdbDcsrStep = gdbDcsrEbreakBits := by decide
  ext i hi
  have hbit := congrArg (fun word : Word => word[i]) hsteps
  simp only [BitVec.getElem_and, BitVec.getElem_or, BitVec.getElem_not] at hbit ⊢
  rw [← hbit]
  cases value[i] <;> cases gdbStepFields[i] <;> cases gdbDcsrStep[i] <;> rfl

/-- A step changes DCSR as it must exactly where the core has left every writable
field but those it sets as it was at the start. -/
theorem gdbStep_exact_iff {world : World Host σ} {conn conn' : GdbConn} {writable : Word}
    {ready : σ → Prop} {dcsr left : σ → Word}
    (h : HoldsDcsr world conn.link writable ready dcsr left)
    (hwritable : gdbStepFields &&& ~~~writable = 0) {state final : σ} (hready : ready state)
    (hreturns : Returns world (gdbStep.run conn) state (.ok (), conn') final) :
    StepExact writable (dcsr final) (left final) ↔
      AgreeOutside (~~~writable ||| gdbStepFields) (left final) (dcsr state) := by
  have hfinal := gdbStep_returns h hready hreturns
  have hfields := assign_stepFields hwritable (dcsr state) (left final)
  rw [← hfinal] at hfields
  -- what was written back is the value at the start in every other field
  have hentry : AgreeOutside (~~~writable ||| gdbStepFields) (dcsr final) (dcsr state) := by
    rw [hfinal]
    refine ((assign_agree writable _ (left final)).inLeft gdbStepFields).trans ?_
    have hclear := AgreeOutside.clear gdbDcsrStep (dcsr state ||| gdbStepFields)
    have hset : AgreeOutside gdbStepFields (dcsr state ||| gdbStepFields) (dcsr state) :=
      .set _ (by decide)
    exact ((hclear.mono (by decide)).trans hset).inRight (~~~writable)
  constructor
  · intro hexact
    exact hexact.others.symm.trans hentry
  · intro hleft
    refine ⟨?_, ?_, hentry.trans hleft.symm⟩
    · have hstep : gdbStepFields &&& gdbDcsrStep = gdbDcsrStep := by decide
      rw [← hstep, ← BitVec.and_assoc, hfields]
      decide
    · have hbits : gdbStepFields &&& gdbDcsrEbreakBits = gdbDcsrEbreakBits := by decide
      rw [← hbits, ← BitVec.and_assoc, hfields]
      decide

/-! ## A core behind a debug module -/

/-- What the server's requests of a step depend on. -/
structure SteppedCore where
  dcsr : Word
  data0 : Word
  left : Word

/-- A register access: commands move DCSR, and a resume lets the core run one
instruction, which changes DCSR by `effect`. -/
def SteppedCore.access (effect : Word → Word) (core : SteppedCore) (access : RegisterAccess) :
    Word × SteppedCore :=
  if access.operation = wlRegOpRead then
    (if access.reg = wlDmiData0 then core.data0 else 0, core)
  else if access.reg = wlDmiData0 then
    (0, { core with data0 := access.value })
  else if access = ⟨wlDmiDmcontrol, gdbDmcontrolResume, wlRegOpWrite⟩ then
    (0, { core with dcsr := effect core.dcsr, left := effect core.dcsr })
  else if access.reg ≠ wlDmiDmcommand then
    (0, core)
  else if access.value = dcsrReadCommand then
    (0, { core with data0 := core.dcsr })
  else if access.value = dcsrWriteCommand then
    (0, { core with dcsr := core.data0 })
  else
    (0, core)

def SteppedCore.usb (effect : Word → Word) : Handler Usb SteppedCore := fun request core =>
  match registerAccess request with
  | some access => (.ok (simRegReply access.reg (core.access effect access).1),
      (core.access effect access).2)
  | none => (.ok [], core)

/-- The server's surroundings with such a core. -/
def SteppedCore.host (effect : Word → Word) : Handler Host SteppedCore
  | .usb request, core => SteppedCore.usb effect request core
  | .recv, core => (.closed, core)
  | .send _, core => (.failed, core)
  | .poll, core => (false, core)
  | .sleep _, core => ((), core)
  | .malloc _, core => (false, core)
  | .listen _, core => (false, core)
  | .accept, core => (false, core)

section Stepped

variable {effect : Word → Word} {link : Link} (hlink : link.Usable)

theorem SteppedCore.onHost_run {α : Type} (program : Program Usb α) (core : SteppedCore) :
    (onHost program).run (SteppedCore.host effect) core =
      program.run (SteppedCore.usb effect) core := by
  induction program generalizing core with
  | done value => rfl
  | cut => rfl
  | call operation next ih => exact ih _ _

include hlink

theorem SteppedCore.regAccess_run (reg : Byte) (value : Word) (operation : Byte)
    (core : SteppedCore) :
    (regAccess link reg value operation).run.run (SteppedCore.usb effect) core =
      (some (.ok (core.access effect ⟨reg, value, operation⟩).1),
        (core.access effect ⟨reg, value, operation⟩).2) := by
  rw [regAccess_eq hlink]
  unfold Program.run SteppedCore.usb
  rw [registerAccess_regRequest]
  dsimp only
  rw [regAnswer_ok (acknowledged_simRegReply _ _)]
  rfl

theorem SteppedCore.write_run (reg : Byte) (value : Word) (core : SteppedCore) :
    (wlLinkeDmiWrite link reg value).run.run (SteppedCore.usb effect) core =
      (some (.ok ()), (core.access effect ⟨reg, value, wlRegOpWrite⟩).2) :=
  run_except_ok (SteppedCore.regAccess_run hlink reg value wlRegOpWrite core)

theorem SteppedCore.dmWait_run (core : SteppedCore) :
    (dmWait link).run.run (SteppedCore.usb effect) core = (some (.ok ()), core) := by
  have hpoll : (dmPoll link (1999999 + 1) 0).run.run (SteppedCore.usb effect) core =
      (some (.ok 0), core) := by
    have hread : (wlLinkeDmiRead link wlDmiDmabstractcs).run.run (SteppedCore.usb effect) core =
        (some (.ok 0), core) :=
      SteppedCore.regAccess_run hlink wlDmiDmabstractcs 0 wlRegOpRead core
    unfold dmPoll
    rw [run_except_ok hread]
    rfl
  unfold dmWait wlDmTimeoutUs
  rw [run_except_ok hpoll]
  rfl

theorem SteppedCore.dcsrRead_run (core : SteppedCore) :
    (wlDmDcsrRead link).run.run (SteppedCore.usb effect) core =
      (some (.ok core.dcsr), { core with data0 := core.dcsr }) := by
  have hcommand : (wlLinkeDmiWrite link wlDmiDmcommand dcsrReadCommand).run.run
      (SteppedCore.usb effect) core = (some (.ok ()), { core with data0 := core.dcsr }) :=
    SteppedCore.write_run hlink wlDmiDmcommand dcsrReadCommand core
  have hread := @SteppedCore.regAccess_run effect link hlink wlDmiData0 0 wlRegOpRead
    { core with data0 := core.dcsr }
  unfold dcsrReadCommand at hcommand
  unfold wlDmDcsrRead dmCsrAccess dmCommand
  simp only [Bool.false_eq_true, if_false, if_true]
  rw [run_except_ok hcommand, run_except_ok (SteppedCore.dmWait_run hlink _)]
  exact hread

theorem SteppedCore.dcsrWrite_run (value : Word) (core : SteppedCore) :
    (wlDmDcsrWrite link value).run.run (SteppedCore.usb effect) core =
      (some (.ok ()), { core with dcsr := value, data0 := value }) := by
  have hdata : (wlLinkeDmiWrite link wlDmiData0 value).run.run (SteppedCore.usb effect) core =
      (some (.ok ()), { core with data0 := value }) :=
    SteppedCore.write_run hlink wlDmiData0 value core
  have hcommand : (wlLinkeDmiWrite link wlDmiDmcommand dcsrWriteCommand).run.run
      (SteppedCore.usb effect) { core with data0 := value } =
        (some (.ok ()), { core with dcsr := value, data0 := value }) :=
    SteppedCore.write_run hlink wlDmiDmcommand dcsrWriteCommand _
  have hwrite : (dmCsrAccess link wlDmiDcsr value true false).run.run (SteppedCore.usb effect)
      core = (some (.ok 0), { core with dcsr := value, data0 := value }) := by
    unfold dcsrWriteCommand at hcommand
    unfold dmCsrAccess dmCommand
    simp only [Bool.false_eq_true, if_false, if_true]
    rw [run_except_ok hdata, run_except_ok hcommand, run_except_ok (SteppedCore.dmWait_run hlink _)]
    rfl
  exact run_except_ok hwrite

omit hlink in
theorem SteppedCore.onTarget_run {α : Type} {operation : Link → Fallible α} {conn : GdbConn}
    {status : Except WlErr α} {core core' : SteppedCore}
    (hrun : (operation conn.link).run.run (SteppedCore.usb effect) core = (some status, core')) :
    ((onTarget operation).run conn).run (SteppedCore.host effect) core =
      (some (status, conn), core') := by
  rw [← SteppedCore.onHost_run] at hrun
  exact run_bind_of_eq hrun

/-- Such a core is one whose DCSR accesses succeed. -/
theorem SteppedCore.holdsDcsr (effect : Word → Word) :
    HoldsDcsr (SteppedCore.host effect).world link (BitVec.allOnes 32) (fun _ => True)
      SteppedCore.dcsr SteppedCore.left where
  read core status final _ hreturns := by
    rw [returns_world_iff, SteppedCore.onHost_run, SteppedCore.dcsrRead_run hlink] at hreturns
    cases hreturns
    exact ⟨trivial, rfl, rfl, rfl⟩
  write value core status final _ hreturns := by
    rw [returns_world_iff, SteppedCore.onHost_run, SteppedCore.dcsrWrite_run hlink] at hreturns
    cases hreturns
    have hall : assign (BitVec.allOnes 32) value core.dcsr = value := by
      rw [assign, BitVec.not_allOnes, BitVec.and_zero, BitVec.zero_or, BitVec.and_allOnes]
    exact ⟨trivial, rfl, hall.symm, rfl⟩
  resume core final _ hreturns := by
    rw [returns_world_iff, SteppedCore.onHost_run, SteppedCore.write_run hlink] at hreturns
    cases hreturns
    exact ⟨trivial, rfl⟩
  status core status final _ hleft hreturns := by
    have hrun := @SteppedCore.regAccess_run effect link hlink wlDmiDmstatus 0 wlRegOpRead core
    rw [returns_world_iff, SteppedCore.onHost_run] at hreturns
    unfold wlLinkeDmiRead at hreturns
    rw [hrun] at hreturns
    cases hreturns
    exact ⟨trivial, hleft⟩
  sleep duration core reply final _ hleft hanswer := by
    cases hanswer
    exact ⟨trivial, hleft⟩

end Stepped

/-- A step over an instruction that changes DCSR by `effect`. -/
theorem SteppedCore.gdbStep_returns (effect : Word → Word) {conn : GdbConn}
    (hlink : conn.link.Usable) (core : SteppedCore) :
    ∃ final, Returns (SteppedCore.host effect).world (gdbStep.run conn) core (.ok (), conn) final ∧
      final.left = effect (core.dcsr ||| gdbStepFields ||| gdbDcsrEbreakBits) := by
  let stepping : Word := core.dcsr ||| (gdbDcsrEbreakBits ||| gdbDcsrStep)
  let entered : SteppedCore :=
    ⟨stepping ||| gdbDcsrEbreakBits, stepping ||| gdbDcsrEbreakBits, core.left⟩
  let halted : SteppedCore :=
    { entered with dcsr := effect entered.dcsr, left := effect entered.dcsr }
  have hread := @SteppedCore.onTarget_run effect _ wlDmDcsrRead conn _ core _
    (SteppedCore.dcsrRead_run hlink core)
  have hset := @SteppedCore.onTarget_run effect _ (fun link => wlDmDcsrWrite link stepping) conn _
    _ _ (SteppedCore.dcsrWrite_run hlink stepping { core with data0 := core.dcsr })
  have henable : (gdbDmEnableEbreak.run conn).run (SteppedCore.host effect)
      ⟨stepping, stepping, core.left⟩ = (some (.ok (), conn), entered) := by
    have hagain := @SteppedCore.onTarget_run effect _ wlDmDcsrRead conn _
      ⟨stepping, stepping, core.left⟩ _ (SteppedCore.dcsrRead_run hlink _)
    have hebreak := @SteppedCore.onTarget_run effect _
      (fun link => wlDmDcsrWrite link (stepping ||| gdbDcsrEbreakBits)) conn _
      ⟨stepping, stepping, core.left⟩ _ (SteppedCore.dcsrWrite_run hlink _ _)
    unfold gdbDmEnableEbreak
    rw [run_own_bind hagain]
    exact hebreak
  have hresume : (gdbResume.run conn).run (SteppedCore.host effect)
      ⟨stepping, stepping, core.left⟩ = (some (.ok (), conn), halted) := by
    have hgo := @SteppedCore.onTarget_run effect _
      (fun link => wlLinkeDmiWrite link wlDmiDmcontrol gdbDmcontrolResume) conn _ entered _
      (SteppedCore.write_run hlink _ _ _)
    unfold gdbResume
    rw [run_own_bind henable]
    exact hgo
  have hstatus : ((onTarget fun link => wlLinkeDmiRead link wlDmiDmstatus).run conn).run
      (SteppedCore.host effect) halted = (some (.ok 0, conn), halted) :=
    SteppedCore.onTarget_run (SteppedCore.regAccess_run hlink wlDmiDmstatus 0 wlRegOpRead halted)
  have hhalted : (gdbDmIsHalted.run conn).run (SteppedCore.host effect) halted =
      (some (true, conn), halted) := by
    unfold gdbDmIsHalted
    rw [run_own_bind hstatus]
    rfl
  have hwait : (gdbResumeAndWait.run conn).run (SteppedCore.host effect)
      ⟨stepping, stepping, core.left⟩ = (some (.ok (), conn), halted) := by
    unfold gdbResumeAndWait
    rw [run_own_bind hresume]
    dsimp only
    unfold gdbDmWaitHalted gdbHaltPolls gdbPollHalted
    rw [run_own_bind hhalted]
    rfl
  have hclear := @SteppedCore.onTarget_run effect _
    (fun link => wlDmDcsrWrite link (stepping &&& ~~~gdbDcsrStep)) conn _ halted _
    (SteppedCore.dcsrWrite_run hlink _ _)
  have hrun : (gdbStep.run conn).run (SteppedCore.host effect) core =
      (some (.ok (), conn), { halted with
        dcsr := stepping &&& ~~~gdbDcsrStep, data0 := stepping &&& ~~~gdbDcsrStep }) := by
    unfold gdbStep
    rw [run_own_bind hread]
    dsimp only
    rw [run_own_bind hset]
    dsimp only
    rw [run_own_bind hwait]
    unfold onTargetIgnored
    rw [run_own_bind (run_own_bind hclear)]
    rfl
  exact ⟨_, returns_world_iff.mpr hrun, rfl⟩

/-- A core in machine mode that has nothing to do with DCSR. -/
theorem gdbStep_exact_iff_machine : ∃ final,
    Returns (SteppedCore.host id).world (gdbStep.run (.fresh wlLinkeAttachTransport ch32v003))
      ⟨3, 0, 0⟩ (.ok (), .fresh wlLinkeAttachTransport ch32v003) final ∧
    (StepExact (BitVec.allOnes 32) final.dcsr final.left ↔
      AgreeOutside (~~~BitVec.allOnes 32 ||| gdbStepFields) final.left 3) := by
  have hlink : wlLinkeAttachTransport.Usable := ⟨rfl, rfl⟩
  obtain ⟨final, hreturns, -⟩ := @SteppedCore.gdbStep_returns id
    (.fresh wlLinkeAttachTransport ch32v003) hlink ⟨3, 0, 0⟩
  exact ⟨final, hreturns, gdbStep_exact_iff (SteppedCore.holdsDcsr hlink id) (by decide) trivial
    hreturns⟩

/-- What an `mret` to user mode does to the privilege field. -/
def enterUser (dcsr : Word) : Word := dcsr &&& ~~~3

/-- A step over `mret` puts the machine mode back. -/
theorem not_stepExact_mret :
    ¬∀ (σ : Type) (world : World Host σ) (conn conn' : GdbConn) (writable : Word)
      (ready : σ → Prop) (dcsr left : σ → Word) (state final : σ),
      HoldsDcsr world conn.link writable ready dcsr left → gdbStepFields &&& ~~~writable = 0 →
        ready state → Returns world (gdbStep.run conn) state (.ok (), conn') final →
          StepExact writable (dcsr final) (left final) := by
  intro hall
  have hlink : wlLinkeAttachTransport.Usable := ⟨rfl, rfl⟩
  have hholds := SteppedCore.holdsDcsr hlink enterUser
  obtain ⟨final, hreturns, hleft⟩ := @SteppedCore.gdbStep_returns enterUser
    (.fresh wlLinkeAttachTransport ch32v003) hlink ⟨3, 0, 0⟩
  have hexact := hall SteppedCore _ _ _ _ _ _ _ _ _ hholds (by decide) trivial hreturns
  have hdcsr := gdbStep_returns hholds trivial hreturns
  have hothers := hexact.others
  rw [hdcsr, hleft] at hothers
  revert hothers
  decide

end WchLink
