import WchLink.Interaction.Reach
import WchLink.Layers
import WchLink.RegisterAccess
import WchLink.SimulatorAccess

/-! # The memory primitives as single accesses

The simulated core's memory accesses are put on record. A store or a load
through the debug module leaves one access on record, the one it was asked for,
and besides it moves nothing but scratch.
-/

namespace WchLink

open Bytes Interaction Interaction.Program

/-! ## The accesses on record -/

/-- One access of the simulated core. -/
structure CoreAccess where
  address : Word
  sizeLog2 : Nat
  write : Bool
  value : Word
  deriving DecidableEq

/-- The access made on a target: the target after it and the value. -/
def CoreAccess.on (access : CoreAccess) (target : SimTarget) : SimTarget × Word :=
  simAccess target access.address access.sizeLog2 access.write access.value

/-- The target after an access. -/
def SimTarget.access (target : SimTarget) (access : CoreAccess) : SimTarget := (access.on target).1

/-- The accesses `simRunProgbuf` makes. -/
def progbufAccesses : Nat → SimModule → SimTarget → List CoreAccess
  | 0, _, _ => []
  | steps + 1, dm, target =>
      let instruction := dm.progbuf (dm.pc / 4).toNat
      let opcode := instruction &&& 0x7f
      let rd := ((instruction >>> 7) &&& 0x1f).toNat
      let funct3 := (instruction >>> 12) &&& 0x7
      let rs1 := ((instruction >>> 15) &&& 0x1f).toNat
      let rs2 := ((instruction >>> 20) &&& 0x1f).toNat
      let next (dm : SimModule) (target : SimTarget) : List CoreAccess :=
        if dm.pc / 4 ≥ 8 then []
        else progbufAccesses steps dm target
      if opcode = 0x23 then
        let imm := ((instruction >>> 25) <<< 5) ||| ((instruction >>> 7) &&& 0x1f)
        let access : CoreAccess := ⟨dm.gpr rs1 + imm, (funct3 &&& 3).toNat, true, dm.gpr rs2⟩
        access :: next (dm.advance 4) (access.on target).1
      else if opcode = 0x03 then
        let imm := instruction >>> 20
        let access : CoreAccess := ⟨dm.gpr rs1 + imm, (funct3 &&& 3).toNat, false, 0⟩
        let value := if funct3 = 4 then (access.on target).2 &&& 0xff else (access.on target).2
        access :: next ((dm.setGpr rd value).advance 4) (access.on target).1
      else if opcode = 0x13 then
        let imm := signExtend (instruction >>> 20) 12
        next ((dm.setGpr rd (dm.gpr rs1 + imm)).advance 4) target
      else if opcode = 0x63 then
        let imm := ((instruction >>> 31) <<< 12) ||| (((instruction >>> 25) &&& 0x3f) <<< 5) |||
          (((instruction >>> 8) &&& 0xf) <<< 1) ||| ((instruction >>> 7) &&& 0x1)
        if dm.gpr rs1 ≠ dm.gpr rs2 then
          next (dm.advance (signExtend imm 13)) target
        else
          next (dm.advance 4) target
      else
        []

/-- The accesses of an abstract command. -/
def commandAccesses (dm : SimModule) (target : SimTarget) (command : Word) : List CoreAccess :=
  let cmdtype := (command >>> 24) &&& 0x7f
  let aarsize := (command >>> 20) &&& 0x7
  let postexec := (command >>> 18) &&& 1 = 1
  let transfer := (command >>> 17) &&& 1 = 1
  let write := (command >>> 16) &&& 1 = 1
  let regno := command &&& 0xffff
  if cmdtype ≠ 0 then
    []
  else
    match (if transfer then simTransfer dm aarsize regno write else some dm) with
    | none => []
    | some dm => if postexec then progbufAccesses simMaxSteps { dm with pc := 0 } target else []

/-- The accesses of a register write. -/
def dmiWriteAccesses (dm : SimModule) (target : SimTarget) (reg : Byte) (value : Word) :
    List CoreAccess :=
  if reg = wlDmiDmcommand then
    commandAccesses { dm with dmi := Function.update dm.dmi reg value } target value
  else
    []

/-- The accesses of a request to the simulator. -/
def simAccesses (sim : Sim) (request : List Byte) : List CoreAccess :=
  let byte := fun i => request.getD i 0
  if 9 ≤ request.length ∧ byte 0 = 0x81 ∧ byte 1 = 0x08 ∧ sim.configured = true ∧ byte 8 = 0x02 then
    dmiWriteAccesses sim.dm sim.target (byte 3) (wordLe (byte 7) (byte 6) (byte 5) (byte 4))
  else
    []

theorem simRunProgbuf_accesses (steps : Nat) (dm : SimModule) (target : SimTarget) :
    (simRunProgbuf steps dm target).2.1 =
      (progbufAccesses steps dm target).foldl SimTarget.access target := by
  induction steps generalizing dm target with
  | zero => rfl
  | succ steps ih =>
      have hnext (dm' : SimModule) (target' : SimTarget) :
          (if dm'.pc / 4 ≥ 8 then (dm'.fault, target', false)
            else simRunProgbuf steps dm' target').2.1 =
          (if dm'.pc / 4 ≥ 8 then [] else progbufAccesses steps dm' target').foldl SimTarget.access
            target' := by
        split
        · rfl
        · exact ih dm' target'
      rw [simRunProgbuf, progbufAccesses]
      dsimp only
      split
      · exact hnext _ _
      · split
        · exact hnext _ _
        · split
          · exact hnext _ _
          · split
            · split
              · exact hnext _ _
              · exact hnext _ _
            · split
              · rfl
              · rfl

theorem simExecuteCommand_accesses (dm : SimModule) (target : SimTarget) (command : Word) :
    (simExecuteCommand dm target command).2 =
      (commandAccesses dm target command).foldl SimTarget.access target := by
  unfold simExecuteCommand commandAccesses
  dsimp only
  split
  · rfl
  · -- what the transfer left is the same on both sides
    generalize (if (command >>> 17) &&& 1 = 1 then
      simTransfer dm ((command >>> 20) &&& 7) (command &&& 0xffff) (decide ((command >>> 16) &&& 1 = 1))
      else some dm) = transferred
    cases transferred with
    | none => rfl
    | some dm' =>
      dsimp only
      split
      · exact simRunProgbuf_accesses _ _ _
      · rfl

theorem simDmiWrite_accesses (dm : SimModule) (target : SimTarget) (reg : Byte) (value : Word) :
    (simDmiWrite dm target reg value).2 =
      (dmiWriteAccesses dm target reg value).foldl SimTarget.access target := by
  unfold dmiWriteAccesses
  split
  next hcommand =>
    subst hcommand
    exact simExecuteCommand_accesses _ _ _
  next hcommand =>
    unfold simDmiWrite
    dsimp only
    rw [if_neg hcommand]
    split_ifs <;> rfl

theorem simControl_target (sim : Sim) (sub : Byte) : (simControl sim sub).2.target = sim.target := by
  unfold simControl
  dsimp only
  split_ifs <;> rfl

theorem simRegister_accesses (sim : Sim) (reg : Byte) (value : Word) (operation : Byte) :
    (simRegister sim reg value operation).2.target =
      (if sim.configured = true ∧ operation = 0x02 then dmiWriteAccesses sim.dm sim.target reg value
        else []).foldl SimTarget.access sim.target := by
  unfold simRegister
  by_cases hconfigured : sim.configured = true
  · rw [if_neg (by rw [hconfigured]; exact Bool.false_ne_true)]
    by_cases hwrite : operation = 0x02
    · rw [if_pos hwrite, if_pos ⟨hconfigured, hwrite⟩]
      exact simDmiWrite_accesses _ _ _ _
    · have hnone : ¬(sim.configured = true ∧ operation = 0x02) := fun h => hwrite h.2
      rw [if_neg hwrite, if_neg hnone]
      split <;> rfl
  · rw [if_pos (by rw [Bool.not_eq_true] at hconfigured; rw [hconfigured]; rfl),
      if_neg fun h => hconfigured h.1]
    rfl

/-- The record accounts for the target: it is what the accesses make of it. -/
theorem simulator_accesses (request : List Byte) (sim : Sim) :
    (simulator request sim).2.target = (simAccesses sim request).foldl SimTarget.access sim.target := by
  unfold simulator simCommand simAccesses
  dsimp only
  by_cases hrequest : request.length < 3 ∨ request.getD 0 0 ≠ 0x81
  · rw [if_pos hrequest, if_neg]
    · rfl
    · rintro ⟨hlength, hheader, -⟩
      rcases hrequest with hshort | hother
      · omega
      · exact hother hheader
  · rw [if_neg hrequest]
    rw [not_or, not_not] at hrequest
    by_cases hregister : request.getD 1 0 = 0x08
    · have hcontrol : ¬request.getD 1 0 = 0x0d ∧ ¬request.getD 1 0 = 0x0c ∧ ¬request.getD 1 0 = 0x0b := by
        rw [hregister]
        decide
      rw [if_neg hcontrol.1, if_neg hcontrol.2.1, if_neg hcontrol.2.2, if_pos hregister]
      by_cases hlength : request.length < 9
      · rw [if_pos hlength, if_neg fun h => absurd h.1 (Nat.not_le.mpr hlength)]
        rfl
      · rw [if_neg hlength]
        refine (simRegister_accesses _ _ _ _).trans ?_
        simp only [Nat.not_lt.mp hlength, hrequest.2, hregister, true_and]
    · have hnone : ¬(9 ≤ request.length ∧ request.getD 0 0 = 0x81 ∧ request.getD 1 0 = 0x08 ∧
          sim.configured = true ∧ request.getD 8 0 = 0x02) := fun h => hregister h.2.2.1
      rw [if_neg hnone]
      split_ifs
      · exact simControl_target _ _
      all_goals rfl

/-- The record of a whole run accounts for the target as well. -/
theorem run_accesses {α : Type} (program : Program Usb α) (sim : Sim) :
    (program.run simulator sim).2.target =
      (program.record simulator simAccesses sim).foldl SimTarget.access sim.target :=
  replay_record fun sim request => simulator_accesses request sim

/-! ## What a primitive leaves on record -/

/-- Requests that make the simulated core run nothing. -/
abbrev restingCore : ProgramClass Usb := unrecorded simulator simAccesses

theorem simAccesses_regRequest (sim : Sim) (reg : Byte) (value : Word) (operation : Byte) :
    simAccesses sim (regRequest reg value operation) =
      if sim.configured = true ∧ operation = 0x02 then dmiWriteAccesses sim.dm sim.target reg value
      else [] := by
  have hvalue : wordLe (byteOf value 0) (byteOf value 1) (byteOf value 2) (byteOf value 3) = value :=
    wordLe_byteOf value
  show (if 9 ≤ 9 ∧ (0x81 : Byte) = 0x81 ∧ (0x08 : Byte) = 0x08 ∧ sim.configured = true ∧
    operation = 0x02 then dmiWriteAccesses sim.dm sim.target reg
      (wordLe (byteOf value 0) (byteOf value 1) (byteOf value 2) (byteOf value 3)) else []) = _
  simp only [le_refl, true_and, hvalue]

theorem restingCore_regAccess {link : Link} {reg : Byte} {value : Word}
    (h : ∀ dm target, dmiWriteAccesses dm target reg value = []) (operation : Byte) :
    restingCore.Mem (regAccess link reg value operation).run := by
  refine regAccess_mem _ fun sim => ?_
  show simAccesses sim (regRequest reg value operation) ++ [] = []
  rw [List.append_nil, simAccesses_regRequest, h]
  split <;> rfl

theorem restingCore_register (link : Link) {reg : Byte} (h : reg ≠ wlDmiDmcommand) :
    HasRegister restingCore link reg :=
  fun _ operation => restingCore_regAccess (fun _ _ => if_neg h) operation

/-- A command without the postexec bit runs no program. -/
theorem dmiWriteAccesses_command {command : Word} (h : ¬(command >>> 18) &&& 1 = 1) (dm : SimModule)
    (target : SimTarget) : dmiWriteAccesses dm target wlDmiDmcommand command = [] := by
  unfold dmiWriteAccesses commandAccesses
  dsimp only
  rw [if_pos rfl]
  simp only [if_neg h]
  split
  · rfl
  · split <;> rfl

theorem restingCore_transfers (link : Link) : HasTransfers restingCore link :=
  ⟨restingCore_register link (by decide), restingCore_register link (by decide)⟩

theorem restingCore_command {link : Link} {command : Word} (h : ¬(command >>> 18) &&& 1 = 1)
    (value : Word) (transferIn result : Bool) :
    restingCore.Mem (dmCommand link command value transferIn result).run :=
  dmCommand_mem_of (restingCore_transfers link) (restingCore.andThen
    (restingCore_regAccess (dmiWriteAccesses_command h) _) fun _ => restingCore.ok ()) _ _ _

theorem restingCore_loadProgram (link : Link) (first second : Word) :
    restingCore.Mem (dmLoadProgram link [first, second]).run := by
  have hwrite {reg : Byte} (h : reg ≠ wlDmiDmcommand) (value : Word) :
      restingCore.Mem (wlLinkeDmiWrite link reg value).run :=
    wlLinkeDmiWrite_mem _ (restingCore_register link h) value
  unfold dmLoadProgram
  dsimp only
  split
  · exact restingCore.throwThen _ _
  · exact restingCore.andThen (hwrite (by decide) _) fun _ =>
      restingCore.andThen (hwrite (by decide) _) fun _ =>
        restingCore.andThen (hwrite (by decide) _) fun _ => restingCore.ok ()

theorem restingCore_gprWrite (link : Link) (value : Word) :
    restingCore.Mem (wlDmGprWrite link 9 value).run := by
  unfold wlDmGprWrite
  rw [if_neg (by decide)]
  exact restingCore.andThen (restingCore_command (by decide) _ _ _) fun _ => restingCore.ok ()

theorem restingCore_gprRead (link : Link) : restingCore.Mem (wlDmGprRead link 8).run := by
  unfold wlDmGprRead
  rw [if_neg (by decide)]
  exact restingCore_command (by decide) _ _ _

theorem progbufAccesses_ebreak (steps : Nat) {dm : SimModule} (target : SimTarget)
    (hinstruction : dm.progbuf (dm.pc / 4).toNat = wlRvEbreak) :
    progbufAccesses (steps + 1) dm target = [] := by
  rw [progbufAccesses, hinstruction]
  rfl

theorem progbufAccesses_store (steps : Nat) {dm : SimModule} (target : SimTarget) (size : Width)
    (hprogram : AccessProgram (wlRvStore size.log2 8 9) dm) :
    progbufAccesses (steps + 2) dm target = [⟨dm.gpr 9, size.exponent, true, dm.gpr 8⟩] := by
  have hfetch : dm.progbuf (dm.pc / 4).toNat = wlRvStore size.log2 8 9 := by
    rw [hprogram.entry]
    exact hprogram.first
  have hnext : (dm.advance 4).progbuf ((dm.advance 4).pc / 4).toNat = wlRvEbreak := by
    simp only [SimModule.advance, hprogram.entry]
    exact hprogram.second
  have hinside : ¬(dm.advance 4).pc / 4 ≥ 8 := by
    simp only [SimModule.advance, hprogram.entry]
    decide
  have haddress : dm.gpr 9 + 0 = dm.gpr 9 := BitVec.add_zero _
  rw [progbufAccesses, hfetch]
  cases size
  all_goals
    show (⟨dm.gpr 9 + 0, _, true, dm.gpr 8⟩ : CoreAccess) :: (if (dm.advance 4).pc / 4 ≥ 8 then []
      else progbufAccesses (steps + 1) (dm.advance 4) _) = _
    rw [if_neg hinside, progbufAccesses_ebreak steps _ hnext, haddress]
    rfl

theorem progbufAccesses_load (steps : Nat) {dm : SimModule} (target : SimTarget) (size : Width)
    (hprogram : AccessProgram (loadWord size) dm) :
    progbufAccesses (steps + 2) dm target = [⟨dm.gpr 9, size.exponent, false, 0⟩] := by
  obtain ⟨hopcode, hrd, hrs1, himm, hexponent, hfunct3⟩ := loadWord_fields size
  have hfetch : dm.progbuf (dm.pc / 4).toNat = loadWord size := by
    rw [hprogram.entry]
    exact hprogram.first
  have hnext (value : Word) : ((dm.setGpr 8 value).advance 4).progbuf
      (((dm.setGpr 8 value).advance 4).pc / 4).toNat = wlRvEbreak := by
    simp only [SimModule.advance, SimModule.setGpr, hprogram.entry]
    exact hprogram.second
  have hload : ¬(0x03 : Word) = 0x23 := by decide
  have haddress : dm.gpr 9 + 0 = dm.gpr 9 := BitVec.add_zero _
  rw [progbufAccesses]
  simp only [hfetch, hopcode, hrd, hrs1, himm, hexponent, haddress, if_neg hload, if_true,
    progbufAccesses_ebreak steps _ (hnext _), ite_self]

/-- What a command that passes a value in leaves on record. -/
theorem dmCommand_record {link : Link} (hlink : link.Usable) (command value : Word) {sim : Sim}
    (hconfigured : sim.configured = true) :
    (dmCommand link command value true false).run.record simulator simAccesses sim =
      dmiWriteAccesses (sim.dmiWrite wlDmiData0 value).dm sim.target wlDmiDmcommand command := by
  have hdata := wlLinkeDmiWrite_run hlink wlDmiData0 value hconfigured
  have hcommand : (wlLinkeDmiWrite link wlDmiDmcommand command).run.run simulator
      (sim.dmiWrite wlDmiData0 value) = (some (.ok ()), sim.command command value) :=
    wlLinkeDmiWrite_run hlink wlDmiDmcommand command hconfigured
  have hquiet : restingCore.Mem (wlLinkeDmiWrite link wlDmiData0 value).run :=
    wlLinkeDmiWrite_mem _ (restingCore_register link (by decide)) value
  have hrest : restingCore.Mem (dmWait link >>= fun _ => (pure 0 : Fallible Word)).run :=
    restingCore.andThen (dmWait_mem (restingCore_transfers link)) fun _ => restingCore.ok 0
  unfold dmCommand
  rw [if_pos rfl, record_except_ok hdata, hquiet, List.nil_append, record_except_ok hcommand]
  refine (congrArg (_ ++ ·) (hrest _)).trans ?_
  rw [List.append_nil, wlLinkeDmiWrite_eq hlink]
  show simAccesses (sim.dmiWrite wlDmiData0 value) (regRequest wlDmiDmcommand command wlRegOpWrite) ++
    [] = _
  rw [List.append_nil, simAccesses_regRequest]
  exact if_pos ⟨hconfigured, rfl⟩

/-- The command that runs a program is all of `dmRun` that the record sees. -/
theorem dmRun_record {link : Link} (hlink : link.Usable) (instruction address value : Word)
    (result : Bool) {sim : Sim} {dm' : SimModule} {target' : SimTarget} (hready : sim.Ready)
    (hrun : simRunProgbuf simMaxSteps (sim.dm.started instruction address value) sim.target =
      (dm', target', true)) (hcmderr : dm'.cmderr = 0) :
    (dmRun link [instruction, wlRvEbreak] address value result).run.record simulator simAccesses sim =
      progbufAccesses simMaxSteps (sim.dm.started instruction address value) sim.target := by
  have hload := dmLoadProgram_run hlink instruction wlRvEbreak hready.configured
  have hgpr := wlDmGprWrite_run hlink address (by decide : ¬(9 : Word) > 31)
    (show (((sim.dmiWrite wlDmiDmabstractauto 0).dmiWrite
      (wlDmiDmprogbuf0 + BitVec.ofNat 8 0) instruction).dmiWrite
      (wlDmiDmprogbuf0 + BitVec.ofNat 8 1) wlRvEbreak).configured = true from hready.configured)
    (by rw [Sim.dmiWrite_prepared]; exact ⟨hready.configured, hready.cmderr⟩)
  rw [Sim.dmiWrite_prepared] at hgpr
  have hprepared : ({ sim with dm := sim.dm.prepared instruction wlRvEbreak address } : Sim).configured
      = true := hready.configured
  have hcommand := dmCommand_run_write hlink runCommand value hprepared
    (by rw [Sim.command_run _ _ _ hrun]; exact ⟨hready.configured, hcmderr⟩)
  unfold dmRun
  rw [record_except_ok hload, restingCore_loadProgram link instruction wlRvEbreak, List.nil_append,
    record_except_ok hgpr, restingCore_gprWrite link address, List.nil_append,
    record_except_ok hcommand, dmCommand_record hlink runCommand value hprepared]
  have hback : restingCore.Mem (if result then wlDmGprRead link 8 else pure 0 : Fallible Word).run := by
    split
    · exact restingCore_gprRead link
    · exact restingCore.ok 0
  rw [hback, List.append_nil]
  rfl

/-! ## The primitives -/

/-- What a primitive may move besides the target: x8 and x9, DATA0, the program
buffer, auto-execution, the command register and the core's program counter. -/
structure Sim.OnlyScratch (before after : Sim) : Prop where
  configured : after.configured = before.configured
  chipId : after.chipId = before.chipId
  interfaceSpeed : after.interfaceSpeed = before.interfaceSpeed
  attached : after.attached = before.attached
  failAttachWhileAttached : after.failAttachWhileAttached = before.failAttachWhileAttached
  resets : after.resets = before.resets
  gpr : ∀ reg, reg ≠ 8 → reg ≠ 9 → after.dm.gpr reg = before.dm.gpr reg
  dpc : after.dm.dpc = before.dm.dpc
  dcsr : after.dm.dcsr = before.dm.dcsr
  cmderr : after.dm.cmderr = before.dm.cmderr
  illegal : after.dm.illegal = before.dm.illegal
  dmi : ∀ reg, reg ≠ wlDmiData0 → reg ≠ wlDmiDmabstractauto → reg ≠ wlDmiDmcommand →
    (∀ slot < wlDmProgbufWords, reg ≠ wlDmiDmprogbuf0 + BitVec.ofNat 8 slot) →
    after.dm.dmi reg = before.dm.dmi reg

/-- The operation makes one access, succeeds with `value` and otherwise moves
only scratch. -/
def AccessesOnce {α : Type} (operation : Fallible α) (sim : Sim) (access : CoreAccess) (value : α) :
    Prop :=
  ∃ after, operation.run.run simulator sim = (some (.ok value), after) ∧
    operation.run.record simulator simAccesses sim = [access] ∧
    after.target = sim.target.access access ∧ sim.OnlyScratch after

theorem AccessesOnce.map {α β : Type} {operation : Fallible α} {sim : Sim} {access : CoreAccess}
    {value : α} (f : α → β) (h : AccessesOnce operation sim access value) :
    AccessesOnce (operation >>= fun result => pure (f result)) sim access (f value) := by
  obtain ⟨after, hrun, hrecord, htarget, hscratch⟩ := h
  refine ⟨after, ?_, ?_, htarget, hscratch⟩
  · rw [Program.run_except_ok hrun]
    rfl
  · rw [record_except_ok hrun, hrecord]
    rfl

theorem SimModule.started_dmi (dm : SimModule) (instruction address value : Word) {reg : Byte}
    (hdata : reg ≠ wlDmiData0) (hauto : reg ≠ wlDmiDmabstractauto) (hcommand : reg ≠ wlDmiDmcommand)
    (hprogbuf : ∀ slot < wlDmProgbufWords, reg ≠ wlDmiDmprogbuf0 + BitVec.ofNat 8 slot) :
    (dm.started instruction address value).dmi reg = dm.dmi reg := by
  have hfirst := hprogbuf 0 (by decide)
  have hsecond := hprogbuf 1 (by decide)
  simp only [SimModule.started, SimModule.prepared, Function.update_of_ne, ne_eq, hdata, hauto,
    hcommand, hfirst, hsecond, not_false_eq_true]

theorem SimModule.started_gpr (dm : SimModule) (instruction address value : Word) {reg : Nat}
    (h8 : reg ≠ 8) (h9 : reg ≠ 9) : (dm.started instruction address value).gpr reg = dm.gpr reg := by
  simp only [SimModule.started, SimModule.prepared, Function.update_of_ne, ne_eq, h8, h9,
    not_false_eq_true]

section Primitives

variable {link : Link} (hlink : link.Usable) {sim : Sim} (hready : sim.Ready)

include hlink hready

theorem wlDmRunWrite_accessesOnce (size : Width) (address value : Word) :
    AccessesOnce (wlDmRunWrite link (writeProgram size) address value) sim
      ⟨address, size.exponent, true, value⟩ () := by
  have hrun := simRunProgbuf_store 254 sim.target size
    (sim.dm.started_program (wlRvStore size.log2 8 9) address value)
  have hrecord := progbufAccesses_store 254 sim.target size
    (sim.dm.started_program (wlRvStore size.log2 8 9) address value)
  rw [SimModule.started_address, SimModule.started_value] at hrecord
  have hstarts := dmRun_prefix hlink _ _ address value false hready (Sim.command_run _ _ _ hrun)
    ⟨hready.configured, hready.cmderr⟩
  have hrun' : AccessesOnce (dmRun link (writeProgram size) address value false) sim
      ⟨address, size.exponent, true, value⟩ 0 := by
    refine ⟨sim.stored size address value, hstarts, ?_, rfl, ?_⟩
    · exact (dmRun_record hlink _ address value false hready hrun hready.cmderr).trans hrecord
    · refine ⟨rfl, rfl, rfl, rfl, rfl, rfl, fun reg h8 h9 => ?_, rfl, rfl, rfl, rfl,
        fun reg hdata hauto hcommand hprogbuf => ?_⟩
      · exact SimModule.started_gpr _ _ _ _ h8 h9
      · exact SimModule.started_dmi _ _ _ _ hdata hauto hcommand hprogbuf
  exact hrun'.map fun _ => ()

theorem dmReadSized_accessesOnce (size : Width) (address : Word) :
    AccessesOnce (dmReadSized link size address) sim ⟨address, size.exponent, false, 0⟩
      (sim.target.loaded size address) := by
  have hrun := simRunProgbuf_load 254 sim.target size
    (sim.dm.started_program (loadWord size) address 0)
  have hrecord := progbufAccesses_load 254 sim.target size
    (sim.dm.started_program (loadWord size) address 0)
  rw [SimModule.started_address] at hrecord
  refine ⟨_, dmReadSized_run hlink size address hready, ?_, rfl, ?_⟩
  · exact (dmRun_record hlink (loadWord size) address 0 true hready hrun hready.cmderr).trans hrecord
  · refine ⟨rfl, rfl, rfl, rfl, rfl, rfl, fun reg h8 h9 => ?_, rfl, rfl, rfl, rfl,
      fun reg hdata hauto hcommand hprogbuf => ?_⟩
    · refine (Function.update_of_ne h8 _ _).trans ?_
      exact SimModule.started_gpr _ _ _ _ h8 h9
    · refine (Function.update_of_ne hdata _ _).trans ((Function.update_of_ne hcommand _ _).trans ?_)
      exact SimModule.started_dmi _ _ _ _ hdata hauto hcommand hprogbuf

end Primitives

/-- The low byte of a word, extended with zeros. -/
theorem and_low_byte (word : Word) : word &&& 0xff = (word.setWidth 8).setWidth 32 := by
  apply BitVec.eq_of_toNat_eq
  refine (toNat_and_low word (by decide : 8 ≤ 32)).trans ?_
  rw [BitVec.toNat_setWidth, BitVec.toNat_setWidth]
  omega

/-- Each memory primitive is one access of the target: the store or the load of
its width at its address, whose value a load returns extended with zeros. -/
theorem memoryPrimitives_accessOnce {link : Link} (hlink : link.Usable) {sim : Sim}
    (hready : sim.Ready) (address : Word) :
    (∀ value : Word, AccessesOnce (wlDmWrite32 link address value) sim ⟨address, 2, true, value⟩ ()) ∧
    (∀ value : BitVec 16, AccessesOnce (wlDmWrite16 link address value) sim
      ⟨address, 1, true, value.setWidth 32⟩ ()) ∧
    (∀ value : Byte, AccessesOnce (wlDmWrite8 link address value) sim
      ⟨address, 0, true, value.setWidth 32⟩ ()) ∧
    AccessesOnce (wlDmRead32 link address) sim ⟨address, 2, false, 0⟩
      (CoreAccess.on ⟨address, 2, false, 0⟩ sim.target).2 ∧
    AccessesOnce (wlDmRead16 link address) sim ⟨address, 1, false, 0⟩
      ((CoreAccess.on ⟨address, 1, false, 0⟩ sim.target).2.setWidth 16) ∧
    AccessesOnce (dmReadSized link .byte address) sim ⟨address, 0, false, 0⟩
      (((CoreAccess.on ⟨address, 0, false, 0⟩ sim.target).2.setWidth 8).setWidth 32) := by
  refine ⟨fun value => wlDmRunWrite_accessesOnce hlink hready .word address value,
    fun value => wlDmRunWrite_accessesOnce hlink hready .half address _,
    fun value => wlDmRunWrite_accessesOnce hlink hready .byte address _,
    dmReadSized_accessesOnce hlink hready .word address,
    (dmReadSized_accessesOnce hlink hready .half address).map _, ?_⟩
  rw [← and_low_byte]
  exact dmReadSized_accessesOnce hlink hready .byte address

theorem memoryPrimitives_accessOnce_configured :
    AccessesOnce (wlDmWrite16 wlLinkeAttachTransport 0x20000002 0xbeef)
        { simNew ch32v003 with configured := true } ⟨0x20000002, 1, true, 0xbeef⟩ () ∧
      AccessesOnce (wlDmRead32 wlLinkeAttachTransport 0x08000000)
        { simNew ch32v003 with configured := true } ⟨0x08000000, 2, false, 0⟩ 0xffffffff := by
  have hready : ({ simNew ch32v003 with configured := true } : Sim).Ready := ⟨rfl, rfl⟩
  refine ⟨(memoryPrimitives_accessOnce ⟨rfl, rfl⟩ hready 0x20000002).2.1 0xbeef, ?_⟩
  exact (memoryPrimitives_accessOnce ⟨rfl, rfl⟩ hready 0x08000000).2.2.2.1

end WchLink
