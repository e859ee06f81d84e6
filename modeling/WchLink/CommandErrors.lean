import WchLink.AccessTrace
import WchLink.ReadPlan
import WchLink.RegisterAccess
import WchLink.SimulatorAccess

/-! # Command errors

The debug module keeps the error of an abstract command until it is cleared and
ignores every command meanwhile. The debug-module operations issue up to three
commands each and check the error after every one: an error is reported by the
operation whose command caused it, and no later command is lost to it.
-/

namespace WchLink

open Bytes Interaction Interaction.Program

/-! ## The debug module -/

/-- What became of an abstract command. -/
inductive CommandOutcome
  | executed (cmderr : BitVec 3)
  | ignored
  deriving DecidableEq, Repr

/-- The part of a debug module the errors of commands depend on, with a log of
the commands issued: the error field, and how many polls find it busy yet. -/
structure DmModule where
  cmderr : BitVec 3
  busy : Nat
  log : List CommandOutcome

/-- What an accepted register access reads and does: the error stays until a
one is written to its bits, a command is ignored while it is set, and a command
that runs is busy for a while and may end in any error. While the module is
busy only the status may be read; anything may come of another access. -/
inductive DmModule.Access : DmModule → RegisterAccess → Word → DmModule → Prop
  | busy {dm : DmModule} {polls : Nat} {value word : Word} :
      dm.busy = polls + 1 → word &&& wlDmAbstractcsBusy ≠ 0 →
      Access dm ⟨wlDmiDmabstractcs, value, wlRegOpRead⟩ word { dm with busy := polls }
  | status {dm : DmModule} {value word : Word} :
      dm.busy = 0 → word &&& wlDmAbstractcsBusy = 0 →
      word &&& wlDmAbstractcsCmdmask = dm.cmderr.setWidth 32 <<< 8 →
      Access dm ⟨wlDmiDmabstractcs, value, wlRegOpRead⟩ word dm
  | clear {dm : DmModule} {value word : Word} :
      dm.busy = 0 →
      Access dm ⟨wlDmiDmabstractcs, value, wlRegOpWrite⟩ word
        { dm with cmderr := dm.cmderr &&& ~~~(value >>> 8).setWidth 3 }
  | execute {dm : DmModule} {value word : Word} (cmderr : BitVec 3) (busy : Nat) :
      dm.busy = 0 → dm.cmderr = 0 → busy < wlDmTimeoutUs →
      Access dm ⟨wlDmiDmcommand, value, wlRegOpWrite⟩ word
        { cmderr, busy, log := dm.log ++ [.executed cmderr] }
  | ignore {dm : DmModule} {value word : Word} :
      dm.busy = 0 → dm.cmderr ≠ 0 →
      Access dm ⟨wlDmiDmcommand, value, wlRegOpWrite⟩ word { dm with log := dm.log ++ [.ignored] }
  | other {dm : DmModule} {access : RegisterAccess} {word : Word} :
      dm.busy = 0 → access.reg ≠ wlDmiDmabstractcs →
      (access.reg = wlDmiDmcommand → access.operation ≠ wlRegOpWrite) → Access dm access word dm
  | disturb {dm after : DmModule} {access : RegisterAccess} {word : Word} :
      dm.busy ≠ 0 → (access.reg = wlDmiDmabstractcs → access.operation ≠ wlRegOpRead) →
      Access dm access word after

/-- A programmer whose every register access is accepted by such a module. -/
def commandModule : World Usb DmModule :=
  fun dm request reply next => ∃ access word, registerAccess request = some access ∧
    acknowledged reply = some word ∧ dm.Access access word next

/-! ## What an operation may leave behind -/

/-- An operation's own commands and what its status says of them: success means
that each was executed without an error, a target error is no longer pending,
and a command is ignored only if the error was there before the operation's
first. -/
structure Settled {α : Type} (before : DmModule) (status : Except WlErr α) (after : DmModule)
    (own : List CommandOutcome) : Prop where
  idle : after.busy = 0
  log : after.log = before.log ++ own
  silent : own = [] → after.cmderr = before.cmderr ∧ status ≠ .error .target
  cleared : own ≠ [] → after.cmderr = 0
  executed : ∀ value, status = .ok value → ∀ command ∈ own, command = .executed 0
  ignored : .ignored ∈ own → before.cmderr ≠ 0 ∧ own = [.ignored]

/-- From an idle module, every run of the operation ends settled. -/
def SettlesErrors {α : Type} (operation : Fallible α) : Prop :=
  ∀ before : DmModule, before.busy = 0 →
    operation.run.wp commandModule (fun _ _ => True) (fun result after => ∃ status own,
      result = some status ∧ Settled before status after own) before

section Settled

variable {α β : Type} {before middle after : DmModule} {first second : List CommandOutcome}

theorem Settled.quiet (hidle : before.busy = 0) {status : Except WlErr α}
    (hstatus : status ≠ .error .target) : Settled before status before [] where
  idle := hidle
  log := (List.append_nil _).symm
  silent := fun _ => ⟨rfl, hstatus⟩
  cleared := fun h => absurd rfl h
  executed := fun _ _ _ hmem => absurd hmem List.not_mem_nil
  ignored := fun hmem => absurd hmem List.not_mem_nil

/-- An error of the first part is the whole's. -/
theorem Settled.failed {error : WlErr} (h : Settled before (.error error : Except WlErr α) after first) :
    Settled before (.error error : Except WlErr β) after first where
  idle := h.idle
  log := h.log
  silent := fun hfirst => ⟨(h.silent hfirst).1, fun herror => (h.silent hfirst).2 (by cases herror; rfl)⟩
  cleared := h.cleared
  executed := nofun
  ignored := h.ignored

theorem Settled.andThen {value : α} {status : Except WlErr β}
    (h : Settled before (.ok value) middle first) (h' : Settled middle status after second) :
    Settled before status after (first ++ second) where
  idle := h'.idle
  log := by rw [h'.log, h.log, List.append_assoc]
  silent := by
    intro hnil
    obtain ⟨hfirst, hsecond⟩ := List.append_eq_nil_iff.mp hnil
    exact ⟨(h'.silent hsecond).1.trans (h.silent hfirst).1, (h'.silent hsecond).2⟩
  cleared := by
    intro hown
    by_cases hsecond : second = []
    · rw [(h'.silent hsecond).1]
      refine h.cleared fun hfirst => hown ?_
      rw [hfirst, hsecond]
      rfl
    · exact h'.cleared hsecond
  executed := by
    intro result hresult command hcommand
    rcases List.mem_append.mp hcommand with hfirst | hsecond
    · exact h.executed value rfl command hfirst
    · exact h'.executed result hresult command hsecond
  ignored := by
    intro hignored
    rcases List.mem_append.mp hignored with hfirst | hsecond
    · cases h.executed value rfl _ hfirst
    · obtain ⟨hcmderr, hown⟩ := h'.ignored hsecond
      -- the first part issued no command, or there would be no error left
      have hfirst : first = [] := by
        by_contra hfirst
        exact hcmderr (h.cleared hfirst)
      rw [(h.silent hfirst).1] at hcmderr
      exact ⟨hcmderr, by rw [hfirst, hown]; rfl⟩

theorem SettlesErrors.ok (value : α) : SettlesErrors (pure value) :=
  fun _ hidle => ⟨_, [], rfl, .quiet hidle nofun⟩

theorem SettlesErrors.throws {error : WlErr} (herror : error ≠ .target) :
    SettlesErrors (throw error : Fallible α) := by
  intro before hidle
  refine ⟨_, [], rfl, .quiet hidle fun h => ?_⟩
  cases h
  exact herror rfl

theorem SettlesErrors.throwThen {error : WlErr} (herror : error ≠ .target) (rest : α → Fallible β) :
    SettlesErrors ((throw error : Fallible α) >>= rest) := SettlesErrors.throws herror

theorem SettlesErrors.andThen {operation : Fallible α} {rest : α → Fallible β} (h : SettlesErrors operation)
    (hrest : ∀ value, SettlesErrors (rest value)) : SettlesErrors (operation >>= rest) := by
  intro before hidle
  rw [ExceptT.run_bind, wp_bind]
  refine wp_mono (h before hidle) ?_
  rintro result middle ⟨status, first, rfl, hfirst⟩
  cases status with
  | error error => exact ⟨_, first, rfl, hfirst.failed⟩
  | ok value =>
      refine wp_mono (hrest value middle hfirst.idle) ?_
      rintro result after ⟨status, second, rfl, hsecond⟩
      exact ⟨status, first ++ second, rfl, hfirst.andThen hsecond⟩

end Settled

/-! ## Register accesses -/

/-- Clearing writes a one to each bit of the error. -/
theorem cmderr_cleared (cmderr : BitVec 3) :
    cmderr &&& ~~~(wlDmAbstractcsClear >>> 8).setWidth 3 = 0 := by
  revert cmderr
  decide

theorem cmderr_field (cmderr : BitVec 3) : cmderr.setWidth 32 <<< 8 = (0 : Word) ↔ cmderr = 0 := by
  revert cmderr
  decide

section Operations

variable {link : Link} (hlink : link.Usable)

include hlink

/-- A register access is answered by the module. -/
theorem access_wp {reg : Byte} {value : Word} {operation : Byte} {before : DmModule}
    {post : Option (Except WlErr Word) → DmModule → Prop}
    (hpost : ∀ word after, before.Access ⟨reg, value, operation⟩ word after →
      post (some (.ok word)) after) :
    (regAccess link reg value operation).run.wp commandModule (fun _ _ => True) post before := by
  rw [regAccess_eq hlink]
  refine ⟨trivial, ?_⟩
  rintro reply after ⟨access, word, haccess, hreply, hstep⟩
  rw [registerAccess_regRequest] at haccess
  cases haccess
  dsimp only
  rw [regAnswer_ok hreply]
  exact hpost word after hstep

theorem write_wp {reg : Byte} {value : Word} {before : DmModule}
    {post : Option (Except WlErr Unit) → DmModule → Prop}
    (hpost : ∀ word after, before.Access ⟨reg, value, wlRegOpWrite⟩ word after →
      post (some (.ok ())) after) :
    (wlLinkeDmiWrite link reg value).run.wp commandModule (fun _ _ => True) post before := by
  unfold wlLinkeDmiWrite
  rw [ExceptT.run_bind, wp_bind]
  exact access_wp hlink hpost

/-- Registers other than the status and the command do not concern the errors. -/
theorem regAccess_settles {reg : Byte} (hstatus : reg ≠ wlDmiDmabstractcs)
    (hcommand : reg ≠ wlDmiDmcommand) (value : Word) (operation : Byte) :
    SettlesErrors (regAccess link reg value operation) := by
  intro before hidle
  refine access_wp hlink fun word after hstep => ⟨_, [], rfl, ?_⟩
  have hsame : after = before := by
    cases hstep with
    | busy => exact absurd rfl hstatus
    | status => exact absurd rfl hstatus
    | clear => exact absurd rfl hstatus
    | execute => exact absurd rfl hcommand
    | ignore => exact absurd rfl hcommand
    | other => rfl
    | disturb hbusy => exact absurd hidle hbusy
  rw [hsame]
  exact .quiet hidle nofun

theorem write_settles {reg : Byte} (hstatus : reg ≠ wlDmiDmabstractcs)
    (hcommand : reg ≠ wlDmiDmcommand) (value : Word) :
    SettlesErrors (wlLinkeDmiWrite link reg value) :=
  (regAccess_settles hlink hstatus hcommand _ _).andThen fun _ => .ok ()

/-! ## A command and its end -/

/-- Polling goes on for as long as the module is busy. -/
theorem dmPoll_waits {spins : Nat} {dm : DmModule} (hspins : dm.busy < spins) (last : Word)
    {post : Option (Except WlErr Word) → DmModule → Prop}
    (hpost : ∀ word, word &&& wlDmAbstractcsBusy = 0 →
      word &&& wlDmAbstractcsCmdmask = dm.cmderr.setWidth 32 <<< 8 →
      post (some (.ok word)) { dm with busy := 0 }) :
    (dmPoll link spins last).run.wp commandModule (fun _ _ => True) post dm := by
  induction spins generalizing dm last with
  | zero => exact absurd hspins (Nat.not_lt_zero _)
  | succ spins ih =>
      unfold dmPoll wlLinkeDmiRead
      rw [ExceptT.run_bind, wp_bind]
      refine access_wp hlink fun word after hstep => ?_
      dsimp only
      cases hstep with
      | busy hbusy hword =>
          rw [if_neg hword]
          rw [hbusy] at hspins
          exact ih (Nat.lt_of_succ_lt_succ hspins) _ hpost
      | status hidle hword hfield =>
          rw [if_pos hword]
          have hsame : dm = { dm with busy := 0 } := by
            obtain ⟨cmderr, busy, log⟩ := dm
            exact congrArg (DmModule.mk cmderr · log) hidle
          rw [hsame]
          exact hpost word hword hfield
      | other _ hreg => exact absurd rfl hreg
      | disturb _ hread => exact absurd rfl (hread rfl)

/-- Waiting ends with the error reported and cleared, if there is one. -/
theorem dmWait_settles {dm : DmModule} (hbusy : dm.busy < wlDmTimeoutUs)
    {post : Option (Except WlErr Unit) → DmModule → Prop}
    (hok : dm.cmderr = 0 → post (some (.ok ())) { dm with busy := 0 })
    (herror : dm.cmderr ≠ 0 → post (some (.error .target)) { dm with cmderr := 0, busy := 0 }) :
    (dmWait link).run.wp commandModule (fun _ _ => True) post dm := by
  unfold dmWait
  rw [ExceptT.run_bind, wp_bind]
  refine dmPoll_waits hlink hbusy 0 fun word hword hfield => ?_
  dsimp only
  rw [if_neg (not_not_intro hword), hfield]
  by_cases hcmderr : dm.cmderr = 0
  · rw [if_neg (not_not_intro ((cmderr_field _).mpr hcmderr))]
    exact hok hcmderr
  · rw [if_pos fun hfield => hcmderr ((cmderr_field _).mp hfield)]
    unfold ignore
    rw [ExceptT.run_bind, ExceptT.run_lift, wp_bind, map_eq_pure_bind, wp_bind, wp_bind]
    refine write_wp hlink fun word after hstep => ?_
    have hcleared : after = { dm with cmderr := 0, busy := 0 } := by
      cases hstep with
      | clear =>
          rw [cmderr_cleared]
      | other _ hreg => exact absurd rfl hreg
      | disturb hbusy => exact absurd rfl hbusy
    rw [hcleared]
    exact herror hcmderr

/-- Issuing a command and waiting for it. -/
theorem issue_settles (command : Word) :
    SettlesErrors (wlLinkeDmiWrite link wlDmiDmcommand command >>= fun _ => dmWait link) := by
  intro before hidle
  rw [ExceptT.run_bind, wp_bind]
  refine write_wp hlink fun word after hstep => ?_
  dsimp only
  cases hstep with
  | execute cmderr busy _ hclear hbusy =>
      refine dmWait_settles hlink hbusy (fun hcmderr => ?_) fun hcmderr => ?_
      · have hcmderr : cmderr = 0 := hcmderr
        refine ⟨_, [.executed cmderr], rfl, rfl, rfl, nofun, fun _ => hcmderr, ?_, ?_⟩
        · intro _ _ issued hissued
          rw [List.mem_singleton.mp hissued, hcmderr]
        · intro hignored
          cases List.mem_singleton.mp hignored
      · refine ⟨_, [.executed cmderr], rfl, rfl, rfl, nofun, fun _ => rfl, nofun, ?_⟩
        intro hignored
        cases List.mem_singleton.mp hignored
  | ignore _ hpending =>
      refine dmWait_settles hlink (hidle ▸ by decide) (fun hcmderr => absurd hcmderr hpending)
        fun _ => ?_
      exact ⟨_, [.ignored], rfl, rfl, rfl, nofun, fun _ => rfl, nofun, fun _ => ⟨hpending, rfl⟩⟩
  | other _ _ hcommand => exact absurd rfl (hcommand rfl)
  | disturb hbusy => exact absurd hidle hbusy

/-! ## The operations -/

theorem dmCommand_settles (command value : Word) (transferIn result : Bool) :
    SettlesErrors (dmCommand link command value transferIn result) := by
  have hissue : SettlesErrors (wlLinkeDmiWrite link wlDmiDmcommand command >>= fun _ => dmWait link >>=
      fun _ => if result then wlLinkeDmiRead link wlDmiData0 else pure 0) := by
    rw [← bind_assoc]
    refine (issue_settles hlink command).andThen fun _ => ?_
    split
    · exact regAccess_settles hlink (by decide) (by decide) _ _
    · exact .ok 0
  unfold dmCommand
  cases transferIn with
  | false => exact hissue
  | true => exact (write_settles hlink (by decide) (by decide) _).andThen fun _ => hissue

theorem dmCsrAccess_settles (regno value : Word) (write result : Bool) :
    SettlesErrors (dmCsrAccess link regno value write result) := dmCommand_settles hlink _ _ _ _

theorem wlDmGprWrite_settles (reg value : Word) : SettlesErrors (wlDmGprWrite link reg value) := by
  unfold wlDmGprWrite
  dsimp only
  split
  · exact .throwThen (by decide) _
  · exact (dmCommand_settles hlink _ _ _ _).andThen fun _ => .ok ()

theorem wlDmGprRead_settles (reg : Word) : SettlesErrors (wlDmGprRead link reg) := by
  unfold wlDmGprRead
  dsimp only
  split
  · exact .throwThen (by decide) _
  · exact dmCommand_settles hlink _ _ _ _

theorem dmLoadWords_settles {slot : Nat} {words : List Word} (hslots : slot + words.length ≤ 8) :
    SettlesErrors (dmLoadWords link slot words) := by
  induction words generalizing slot with
  | nil => exact .ok ()
  | cons word rest ih =>
      rw [List.length_cons] at hslots
      -- the program buffer's registers are neither the status nor the command
      have hregister : wlDmiDmprogbuf0 + BitVec.ofNat 8 slot ≠ wlDmiDmabstractcs ∧
          wlDmiDmprogbuf0 + BitVec.ofNat 8 slot ≠ wlDmiDmcommand := by
        have hslot : slot < 8 := by omega
        interval_cases slot <;> exact ⟨by decide, by decide⟩
      refine (write_settles hlink hregister.1 hregister.2 _).andThen fun _ => ih ?_
      omega

theorem dmLoadProgram_settles (program : List Word) : SettlesErrors (dmLoadProgram link program) := by
  unfold dmLoadProgram
  dsimp only
  split
  · exact .throwThen (by decide) _
  · next hlength =>
      refine (write_settles hlink (by decide) (by decide) _).andThen fun _ => ?_
      exact dmLoadWords_settles hlink (by unfold wlDmProgbufWords at hlength; omega)

theorem dmRun_settles (program : List Word) (address value : Word) (result : Bool) :
    SettlesErrors (dmRun link program address value result) := by
  unfold dmRun
  refine (dmLoadProgram_settles hlink _).andThen fun _ =>
    (wlDmGprWrite_settles hlink _ _).andThen fun _ =>
      (dmCommand_settles hlink _ _ _ _).andThen fun _ => ?_
  split
  · exact wlDmGprRead_settles hlink _
  · exact .ok 0

/-- The loads of a block read, whatever is in the buffer. -/
theorem loadEach_settles (plan : List Load) (buffer : List Byte) (before : DmModule)
    (hidle : before.busy = 0) :
    ((loadEach link plan).run.run buffer).wp commandModule (fun _ _ => True) (fun result after =>
      ∃ status filled own, result = some (status, filled) ∧ Settled before status after own)
      before := by
  induction plan generalizing buffer before with
  | nil => exact ⟨_, buffer, [], rfl, .quiet hidle nofun⟩
  | cons load rest ih =>
      rw [loadEach_cons_run, wp_bind]
      refine wp_mono (dmRun_settles hlink _ load.address 0 true before hidle) ?_
      rintro result middle ⟨status, first, rfl, hfirst⟩
      cases status with
      | error error => exact ⟨_, buffer, first, rfl, hfirst.failed⟩
      | ok word =>
          refine wp_mono (ih (buffer ++ load.bytes word) middle hfirst.idle) ?_
          rintro result after ⟨status, filled, second, rfl, hsecond⟩
          exact ⟨status, filled, first ++ second, rfl, hfirst.andThen hsecond⟩

theorem filled_settles (address : Word) (length : Nat) :
    SettlesErrors (filled (wlDmReadBlock link address length)) := by
  intro before hidle
  unfold filled
  rw [ExceptT.run_mk, wp_bind, wlDmReadBlock_eq]
  refine wp_mono (loadEach_settles hlink _ [] before hidle) ?_
  rintro result after ⟨status, buffer, own, rfl, hsettled⟩
  cases status with
  | error error => exact ⟨_, own, rfl, hsettled.failed⟩
  | ok value =>
      refine ⟨_, own, rfl, hsettled.idle, hsettled.log, fun hown => ?_, hsettled.cleared,
        fun _ _ => hsettled.executed value rfl, hsettled.ignored⟩
      exact ⟨(hsettled.silent hown).1, nofun⟩

end Operations

/-! ## Runs of operations -/

/-- The debug-module operations. -/
inductive DmOp
  | gprRead (reg : Word)
  | gprWrite (reg value : Word)
  | pcRead
  | pcWrite (value : Word)
  | csrRead (csr : Word)
  | csrWrite (csr value : Word)
  | dcsrRead
  | dcsrWrite (value : Word)
  | memory (operation : MemOp)

/-- The operation without its result. -/
def DmOp.operation (link : Link) : DmOp → Fallible Unit
  | gprRead reg => do
      let _ ← wlDmGprRead link reg
  | gprWrite reg value => wlDmGprWrite link reg value
  | pcRead => do
      let _ ← wlDmPcRead link
  | pcWrite value => wlDmPcWrite link value
  | csrRead csr => do
      let _ ← wlDmCsrRead link csr
  | csrWrite csr value => wlDmCsrWrite link csr value
  | dcsrRead => do
      let _ ← wlDmDcsrRead link
  | dcsrWrite value => wlDmDcsrWrite link value
  | memory operation => operation.operation link

theorem DmOp.settles {link : Link} (hlink : link.Usable) (operation : DmOp) :
    SettlesErrors (operation.operation link) := by
  have hdiscard {α : Type} {operation : Fallible α} (h : SettlesErrors operation) :
      SettlesErrors (do let _ ← operation : Fallible Unit) := h.andThen fun _ => .ok ()
  cases operation with
  | gprRead reg => exact hdiscard (wlDmGprRead_settles hlink _)
  | gprWrite reg value => exact wlDmGprWrite_settles hlink _ _
  | pcRead => exact hdiscard (dmCommand_settles hlink _ _ _ _)
  | pcWrite value => exact hdiscard (dmCommand_settles hlink _ _ _ _)
  | csrRead csr => exact hdiscard (dmCsrAccess_settles hlink _ _ _ _)
  | csrWrite csr value => exact hdiscard (dmCsrAccess_settles hlink _ _ _ _)
  | dcsrRead => exact hdiscard (dmCsrAccess_settles hlink _ _ _ _)
  | dcsrWrite value => exact hdiscard (dmCsrAccess_settles hlink _ _ _ _)
  | memory operation =>
      cases operation with
      | write32 address value => exact hdiscard (dmRun_settles hlink _ _ _ _)
      | write16 address value => exact hdiscard (dmRun_settles hlink _ _ _ _)
      | write8 address value => exact hdiscard (dmRun_settles hlink _ _ _ _)
      | read32 address => exact hdiscard (dmRun_settles hlink _ _ _ _)
      | read16 address =>
          exact hdiscard ((dmRun_settles hlink _ _ _ _).andThen fun _ => .ok _)
      | readBlock address length => exact hdiscard (filled_settles hlink _ _)
      | runWrite program address value => exact hdiscard (dmRun_settles hlink _ _ _ _)
      | runRead program address => exact hdiscard (dmRun_settles hlink _ _ _ _)

/-- One operation of a run: its status, the module around it and what became of
the commands it issued. -/
structure DmStep where
  operation : DmOp
  status : Except WlErr Unit
  before : DmModule
  after : DmModule
  own : List CommandOutcome

/-- Operations one after another, whatever each returns. -/
inductive DmRun (link : Link) : DmModule → List DmStep → DmModule → Prop
  | finished (dm : DmModule) : DmRun link dm [] dm
  | step {step : DmStep} {steps : List DmStep} {final : DmModule} :
      Returns commandModule (step.operation.operation link).run step.before step.status step.after →
      step.after.log = step.before.log ++ step.own →
      DmRun link step.after steps final →
      DmRun link step.before (step :: steps) final

theorem DmStep.settled {link : Link} (hlink : link.Usable) {step : DmStep}
    (hidle : step.before.busy = 0)
    (hrun : Returns commandModule (step.operation.operation link).run step.before step.status
      step.after) (hlog : step.after.log = step.before.log ++ step.own) :
    Settled step.before step.status step.after step.own := by
  obtain ⟨status, own, hstatus, hsettled⟩ := hrun.of_wp (step.operation.settles hlink _ hidle)
  cases hstatus
  have hown : own = step.own := List.append_cancel_left (hsettled.log.symm.trans hlog)
  rwa [hown] at hsettled

/-- An operation succeeds only if each of its commands was executed without an
error, one that fails leaves none pending, and a command is only ever ignored
for an error that was there before the first operation. -/
theorem dmRun_attributes {link : Link} (hlink : link.Usable) {start final : DmModule}
    (hidle : start.busy = 0) {steps : List DmStep} (hrun : DmRun link start steps final) :
    (∀ step ∈ steps, (step.status = .ok () → ∀ command ∈ step.own, command = .executed 0) ∧
      (step.status = .error .target → step.after.cmderr = 0)) ∧
    ∀ earlier step later, steps = earlier ++ step :: later → .ignored ∈ step.own →
      start.cmderr ≠ 0 ∧ (∀ other ∈ earlier, other.own = []) ∧ step.own = [.ignored] := by
  induction hrun with
  | finished dm =>
      refine ⟨fun _ hstep => absurd hstep List.not_mem_nil, fun earlier step later hsteps => ?_⟩
      exact absurd hsteps.symm (List.append_ne_nil_of_right_ne_nil _ (List.cons_ne_nil _ _))
  | @step step steps final hreturns hlog hrest ih =>
      have hsettled := step.settled hlink hidle hreturns hlog
      obtain ⟨hevery, hignored⟩ := ih hsettled.idle
      constructor
      · intro other hother
        rcases List.mem_cons.mp hother with rfl | hother
        · refine ⟨hsettled.executed (), fun hstatus => ?_⟩
          exact hsettled.cleared fun hown => (hsettled.silent hown).2 hstatus
        · exact hevery other hother
      · intro earlier other later hsteps hmem
        cases earlier with
        | nil =>
            obtain ⟨rfl, -⟩ := List.cons.inj hsteps
            obtain ⟨hcmderr, hown⟩ := hsettled.ignored hmem
            exact ⟨hcmderr, fun _ hother => absurd hother List.not_mem_nil, hown⟩
        | cons first earlier =>
            obtain ⟨rfl, hmore⟩ := List.cons.inj hsteps
            obtain ⟨hcmderr, hsilent, hown⟩ := hignored earlier other later hmore hmem
            -- an operation that issued a command would have left no error
            have hnone : step.own = [] := by
              by_contra hsome
              exact hcmderr (hsettled.cleared hsome)
            rw [(hsettled.silent hnone).1] at hcmderr
            refine ⟨hcmderr, fun other hother => ?_, hown⟩
            rcases List.mem_cons.mp hother with rfl | hother
            · exact hnone
            · exact hsilent other hother

/-- A register read that meets an error left by somebody else. -/
def metLeftover : DmStep :=
  ⟨.gprRead 5, .error .target, ⟨3, 0, []⟩, ⟨0, 0, [.ignored]⟩, [.ignored]⟩

/-- The same read made again. -/
def readAgain : DmStep :=
  ⟨.gprRead 5, .ok (), ⟨0, 0, [.ignored]⟩, ⟨0, 0, [.ignored, .executed 0]⟩, [.executed 0]⟩

theorem metLeftover_run :
    DmRun wlLinkeAttachTransport metLeftover.before [metLeftover, readAgain] readAgain.after := by
  refine @DmRun.step _ metLeftover [readAgain] _ ?_ rfl
    (@DmRun.step _ readAgain [] _ ?_ rfl (.finished _))
  · refine ⟨_, .step ⟨_, 0, rfl, acknowledged_simRegReply wlDmiDmcommand 0, .ignore rfl (by decide)⟩
      (.step ⟨_, 0x300, rfl, acknowledged_simRegReply wlDmiDmabstractcs 0x300,
        .status rfl (by decide) (by decide)⟩
      (.step ⟨_, 0, rfl, acknowledged_simRegReply wlDmiDmabstractcs 0, .clear rfl⟩ (.refl _ _)))⟩
  · refine ⟨_, .step ⟨_, 0, rfl, acknowledged_simRegReply wlDmiDmcommand 0,
        .execute 0 0 rfl rfl (by decide)⟩
      (.step ⟨_, 0, rfl, acknowledged_simRegReply wlDmiDmabstractcs 0,
        .status rfl (by decide) (by decide)⟩
      (.step ⟨_, 0x12345678, rfl, acknowledged_simRegReply wlDmiData0 0x12345678,
        .other rfl (by decide) (by decide)⟩ (.refl _ _)))⟩

theorem dmRun_attributes_leftover :
    (∀ step ∈ [metLeftover, readAgain],
      (step.status = .ok () → ∀ command ∈ step.own, command = .executed 0) ∧
      (step.status = .error .target → step.after.cmderr = 0)) ∧
    ∀ earlier step later, [metLeftover, readAgain] = earlier ++ step :: later → .ignored ∈ step.own →
      metLeftover.before.cmderr ≠ 0 ∧ (∀ other ∈ earlier, other.own = []) ∧ step.own = [.ignored] :=
  dmRun_attributes ⟨rfl, rfl⟩ rfl metLeftover_run

end WchLink
