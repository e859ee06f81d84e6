import WchLink.Interaction.Surface
import WchLink.RegisterAccess
import WchLink.Simulator

/-! # The debug-module primitives on the simulator

Each primitive of the debug-module layer makes exactly one access of the
simulated target. What it moves besides is scratch: x8, x9, the program buffer
and the module's own registers.
-/

namespace WchLink

open Bytes Interaction

/-- What the primitives need of the simulator: the interface setting has been
sent and no command error is pending. -/
structure Sim.Ready (sim : Sim) : Prop where
  configured : sim.configured = true
  cmderr : sim.dm.cmderr = 0

/-- What a primitive leaves alone outside the target. -/
structure Sim.Frame (before after : Sim) : Prop where
  configured : after.configured = before.configured
  resets : after.resets = before.resets
  gpr : ∀ reg, reg ≠ 8 → reg ≠ 9 → after.dm.gpr reg = before.dm.gpr reg
  dpc : after.dm.dpc = before.dm.dpc
  dcsr : after.dm.dcsr = before.dm.dcsr
  cmderr : after.dm.cmderr = before.dm.cmderr
  illegal : after.dm.illegal = before.dm.illegal

theorem Sim.Frame.refl (sim : Sim) : sim.Frame sim :=
  ⟨rfl, rfl, fun _ _ _ => rfl, rfl, rfl, rfl, rfl⟩

theorem Sim.Frame.trans {first second third : Sim} (h : first.Frame second)
    (h' : second.Frame third) : first.Frame third where
  configured := h'.configured.trans h.configured
  resets := h'.resets.trans h.resets
  gpr := fun reg h8 h9 => (h'.gpr reg h8 h9).trans (h.gpr reg h8 h9)
  dpc := h'.dpc.trans h.dpc
  dcsr := h'.dcsr.trans h.dcsr
  cmderr := h'.cmderr.trans h.cmderr
  illegal := h'.illegal.trans h.illegal

theorem Sim.Frame.ready {before after : Sim} (h : before.Frame after) (hready : before.Ready) :
    after.Ready :=
  ⟨h.configured.trans hready.configured, h.cmderr.trans hready.cmderr⟩

/-- The simulated target, seen through a ready debug module. -/
def targetSurface : Surface Sim SimTarget where
  view := Sim.target
  ready := Sim.Ready
  frame := Sim.Frame
  frame_refl := Sim.Frame.refl
  frame_trans := Sim.Frame.trans
  ready_of_frame := Sim.Frame.ready

/-- A run on the simulator, by its effect on the target. -/
abbrev OnTarget {α : Type} (program : Program Usb α) (before : SimTarget) (value : α)
    (after : SimTarget) : Prop :=
  Drives simulator targetSurface program before value after

/-! ## Register accesses -/

theorem replyOk_simRegReply (reg : Byte) (value : Word) : replyOk (simRegReply reg value) = true := by
  simp [replyOk, simRegReply, wlReplyHeader]

theorem replyValue_simRegReply (reg : Byte) (value : Word) :
    replyValue (simRegReply reg value) = value := by
  simp [replyValue, simRegReply]

theorem acknowledged_simRegReply (reg : Byte) (word : Word) :
    acknowledged (.ok (simRegReply reg word)) = some word := by
  have hlength : (simRegReply reg word).length = 9 := rfl
  unfold acknowledged regAnswer
  dsimp only
  rw [if_neg (not_not_intro hlength), replyOk_simRegReply, replyValue_simRegReply]
  rfl

theorem wlLinkeCommand_run {link : Link} (hlink : link.Usable) (request : List Byte) (sim : Sim) :
    (wlLinkeCommand link request).run.run simulator sim =
      (match (simCommand request sim).1 with
        | .error _ => some (.error .usb)
        | .ok reply => some (.ok reply), (simCommand request sim).2) := by
  unfold wlLinkeCommand transportCommand
  simp only [hlink.isOpen, hlink.transport, Bool.not_true, Bool.or_self, Bool.false_eq_true,
    if_false]
  rcases hanswer : (simCommand request sim).1 with _ | reply
  all_goals
    show Program.run simulator _ (simulator request sim).2 = _
    change (simulator request sim).1 = _ at hanswer
    rw [hanswer]
    rfl

theorem ignore_run {α : Type} {operation : Fallible α} {sim sim' : Sim} {status : Except WlErr α}
    (hrun : operation.run.run simulator sim = (some status, sim')) :
    (ignore operation).run.run simulator sim = (some (.ok ()), sim') := by
  rw [ignore, ExceptT.run_lift, map_eq_pure_bind, Program.run_bind,
    Program.run_bind_of_eq hrun]
  rfl

theorem liftLinked_run {α : Type} {operation : Fallible α} {sim sim' : Sim}
    {status : Except WlErr α} (link : Link)
    (hrun : operation.run.run simulator sim = (some status, sim')) :
    ((liftM operation : Linked α).run.run link).run simulator sim =
      (some (status, link), sim') :=
  Program.run_liftState link hrun

theorem simCommand_regRequest (reg : Byte) (value : Word) (operation : Byte) (sim : Sim) :
    simCommand (regRequest reg value operation) sim =
      (.ok (simRegister sim reg value operation).1, (simRegister sim reg value operation).2) := by
  simp [simCommand, regRequest, wlCmdReg]

theorem regAccess_run {link : Link} (hlink : link.Usable) (reg : Byte) (value : Word)
    (operation : Byte) {sim sim' : Sim} {answer : Word}
    (hanswer : simRegister sim reg value operation = (simRegReply reg answer, sim')) :
    (regAccess link reg value operation).run.run simulator sim = (some (.ok answer), sim') := by
  have hcommand : (wlLinkeCommand link (regRequest reg value operation)).run.run simulator sim =
      (some (.ok (simRegReply reg answer)), sim') := by
    rw [wlLinkeCommand_run hlink, simCommand_regRequest, hanswer]
  have hlength : (simRegReply reg answer).length = 9 := rfl
  unfold regAccess
  rw [Program.run_except_ok hcommand]
  simp only [hlength, ne_eq, not_true_eq_false, if_false, replyOk_simRegReply, Bool.not_true,
    Bool.false_eq_true, replyValue_simRegReply]
  rfl

theorem wlLinkeDmiRead_run {link : Link} (hlink : link.Usable) (reg : Byte) {sim : Sim}
    (hconfigured : sim.configured = true) :
    (wlLinkeDmiRead link reg).run.run simulator sim =
      (some (.ok (simDmiRead sim.dm reg)), sim) := by
  apply regAccess_run hlink
  simp [simRegister, hconfigured, wlRegOpRead]

/-- The simulator after a register write. -/
def Sim.dmiWrite (sim : Sim) (reg : Byte) (value : Word) : Sim :=
  { sim with
    dm := (simDmiWrite sim.dm sim.target reg value).1
    target := (simDmiWrite sim.dm sim.target reg value).2 }

theorem wlLinkeDmiWrite_run {link : Link} (hlink : link.Usable) (reg : Byte) (value : Word)
    {sim : Sim} (hconfigured : sim.configured = true) :
    (wlLinkeDmiWrite link reg value).run.run simulator sim =
      (some (.ok ()), sim.dmiWrite reg value) := by
  have hanswer : simRegister sim reg value wlRegOpWrite =
      (simRegReply reg (simDmiRead (sim.dmiWrite reg value).dm reg), sim.dmiWrite reg value) := by
    simp [simRegister, hconfigured, wlRegOpWrite, Sim.dmiWrite]
  unfold wlLinkeDmiWrite
  rw [Program.run_except_ok (regAccess_run hlink reg value _ hanswer)]
  rfl

/-! ## Abstract commands -/

theorem dmPoll_run {link : Link} (hlink : link.Usable) (spins : Nat) (last : Word) {sim : Sim}
    (hconfigured : sim.configured = true)
    (hidle : (sim.dm.cmderr <<< 8) &&& wlDmAbstractcsBusy = 0) :
    (dmPoll link (spins + 1) last).run.run simulator sim =
      (some (.ok (sim.dm.cmderr <<< 8)), sim) := by
  have hread : simDmiRead sim.dm wlDmiDmabstractcs = sim.dm.cmderr <<< 8 := rfl
  unfold dmPoll
  rw [Program.run_except_ok (wlLinkeDmiRead_run hlink _ hconfigured), hread]
  simp only [hidle, if_true]
  rfl

theorem dmWait_run {link : Link} (hlink : link.Usable) {sim : Sim} (hready : sim.Ready) :
    (dmWait link).run.run simulator sim = (some (.ok ()), sim) := by
  have hpoll := dmPoll_run hlink 1999999 0 hready.configured
    (by rw [hready.cmderr]; rfl)
  rw [hready.cmderr] at hpoll
  unfold dmWait wlDmTimeoutUs
  rw [Program.run_except_ok hpoll]
  rfl

/-- The simulator after DATA0 and then the command register are written. -/
def Sim.command (sim : Sim) (command value : Word) : Sim :=
  (sim.dmiWrite wlDmiData0 value).dmiWrite wlDmiDmcommand command

theorem dmCommand_run_write {link : Link} (hlink : link.Usable) (command value : Word) {sim : Sim}
    (hconfigured : sim.configured = true) (hafter : (sim.command command value).Ready) :
    (dmCommand link command value true false).run.run simulator sim =
      (some (.ok 0), sim.command command value) := by
  have hdata := wlLinkeDmiWrite_run hlink wlDmiData0 value hconfigured
  have hcommand : (wlLinkeDmiWrite link wlDmiDmcommand command).run.run simulator
      (sim.dmiWrite wlDmiData0 value) = (some (.ok ()), sim.command command value) :=
    wlLinkeDmiWrite_run hlink wlDmiDmcommand command hconfigured
  unfold dmCommand
  rw [if_pos rfl, Program.run_except_ok hdata, Program.run_except_ok hcommand,
    Program.run_except_ok (dmWait_run hlink hafter)]
  rfl

theorem dmCommand_run_read {link : Link} (hlink : link.Usable) (command : Word) {sim : Sim}
    (hconfigured : sim.configured = true) (hafter : (sim.dmiWrite wlDmiDmcommand command).Ready) :
    (dmCommand link command 0 false true).run.run simulator sim =
      (some (.ok (simDmiRead (sim.dmiWrite wlDmiDmcommand command).dm wlDmiData0)),
        sim.dmiWrite wlDmiDmcommand command) := by
  have hcommand := wlLinkeDmiWrite_run hlink wlDmiDmcommand command hconfigured
  unfold dmCommand
  simp only [Bool.false_eq_true, if_false, if_true]
  rw [Program.run_except_ok hcommand, Program.run_except_ok (dmWait_run hlink hafter),
    wlLinkeDmiRead_run hlink wlDmiData0 hafter.configured]

/-! ## Running an access program -/

/-- The exponent the simulated core decodes a width to. -/
def Width.exponent : Width → Nat
  | .byte => 0
  | .half => 1
  | .word => 2

/-- One store of the simulated target. -/
def SimTarget.store (target : SimTarget) (size : Width) (address value : Word) : SimTarget :=
  (simAccess target address size.exponent true value).1

/-- What the target is after one load. -/
def SimTarget.afterLoad (target : SimTarget) (size : Width) (address : Word) : SimTarget :=
  (simAccess target address size.exponent false 0).1

/-- What one load leaves in the register: byte loads extend with zeros. -/
def SimTarget.loaded (target : SimTarget) (size : Width) (address : Word) : Word :=
  let value := (simAccess target address size.exponent false 0).2
  if size = .byte then value &&& 0xff else value

/-- The module after it loaded a two-instruction program and x9. -/
def SimModule.prepared (dm : SimModule) (first second address : Word) : SimModule :=
  { dm with
    dmi := Function.update (Function.update (Function.update (Function.update
      (Function.update dm.dmi wlDmiDmabstractauto 0) (wlDmiDmprogbuf0 + BitVec.ofNat 8 0) first)
      (wlDmiDmprogbuf0 + BitVec.ofNat 8 1) second) wlDmiData0 address) wlDmiDmcommand
        (wlDmCmdGprBase ||| wlDmCmdTransfer ||| wlDmCmdWrite ||| wlDmGprRegno 9)
    progbuf := Function.update (Function.update dm.progbuf 0 first) 1 second
    gpr := Function.update dm.gpr 9 address }

theorem dmLoadWords_run {link : Link} (hlink : link.Usable) (slot : Nat) (word : Word)
    (rest : List Word) {sim : Sim} (hconfigured : sim.configured = true) :
    (dmLoadWords link slot (word :: rest)).run.run simulator sim =
      (dmLoadWords link (slot + 1) rest).run.run simulator
        (sim.dmiWrite (wlDmiDmprogbuf0 + BitVec.ofNat 8 slot) word) := by
  rw [dmLoadWords, Program.run_except_ok (wlLinkeDmiWrite_run hlink _ _ hconfigured)]

theorem dmLoadProgram_run {link : Link} (hlink : link.Usable) (first second : Word) {sim : Sim}
    (hconfigured : sim.configured = true) :
    (dmLoadProgram link [first, second]).run.run simulator sim =
      (some (.ok ()), ((sim.dmiWrite wlDmiDmabstractauto 0).dmiWrite
        (wlDmiDmprogbuf0 + BitVec.ofNat 8 0) first).dmiWrite
        (wlDmiDmprogbuf0 + BitVec.ofNat 8 1) second) := by
  have hshort : ¬[first, second].length > wlDmProgbufWords := by simp [wlDmProgbufWords]
  have hzero := wlLinkeDmiWrite_run hlink wlDmiDmabstractauto 0 hconfigured
  unfold dmLoadProgram
  rw [if_neg hshort]
  dsimp only
  rw [Program.run_except_ok hzero, dmLoadWords_run hlink _ _ _ (by exact hconfigured),
    dmLoadWords_run hlink _ _ _ (by exact hconfigured)]
  rfl

theorem Sim.dmiWrite_prepared (sim : Sim) (first second address : Word) :
    ((((sim.dmiWrite wlDmiDmabstractauto 0).dmiWrite
      (wlDmiDmprogbuf0 + BitVec.ofNat 8 0) first).dmiWrite
      (wlDmiDmprogbuf0 + BitVec.ofNat 8 1) second).command
      (wlDmCmdGprBase ||| wlDmCmdTransfer ||| wlDmCmdWrite ||| wlDmGprRegno 9) address) =
      { sim with dm := sim.dm.prepared first second address } := by
  rfl

theorem wlDmGprWrite_run {link : Link} (hlink : link.Usable) {reg : Word} (value : Word)
    (hreg : ¬reg > 31) {sim : Sim} (hconfigured : sim.configured = true)
    (hafter : (sim.command (wlDmCmdGprBase ||| wlDmCmdTransfer ||| wlDmCmdWrite |||
      wlDmGprRegno reg) value).Ready) :
    (wlDmGprWrite link reg value).run.run simulator sim =
      (some (.ok ()), sim.command (wlDmCmdGprBase ||| wlDmCmdTransfer ||| wlDmCmdWrite |||
        wlDmGprRegno reg) value) := by
  unfold wlDmGprWrite
  rw [if_neg hreg]
  dsimp only
  rw [Program.run_except_ok (dmCommand_run_write hlink _ _ hconfigured hafter)]
  rfl

theorem wlDmGprRead_run {link : Link} (hlink : link.Usable) {reg : Word}
    (hreg : ¬reg > 31) {sim : Sim} (hconfigured : sim.configured = true)
    (hafter : (sim.dmiWrite wlDmiDmcommand (wlDmCmdGprBase ||| wlDmCmdTransfer |||
      wlDmGprRegno reg)).Ready) :
    (wlDmGprRead link reg).run.run simulator sim =
      (some (.ok (simDmiRead (sim.dmiWrite wlDmiDmcommand (wlDmCmdGprBase ||| wlDmCmdTransfer |||
        wlDmGprRegno reg)).dm wlDmiData0)),
        sim.dmiWrite wlDmiDmcommand (wlDmCmdGprBase ||| wlDmCmdTransfer |||
          wlDmGprRegno reg)) := by
  unfold wlDmGprRead
  rw [if_neg hreg]
  dsimp only
  rw [dmCommand_run_read hlink _ hconfigured hafter]

/-- A program that accesses memory once and hands control back. -/
structure AccessProgram (instruction : Word) (dm : SimModule) : Prop where
  first : dm.progbuf 0 = instruction
  second : dm.progbuf 1 = wlRvEbreak
  entry : dm.pc = 0

theorem simRunProgbuf_ebreak (steps : Nat) {dm : SimModule} (target : SimTarget)
    (hinstruction : dm.progbuf (dm.pc / 4).toNat = wlRvEbreak) :
    simRunProgbuf (steps + 1) dm target = (dm, target, true) := by
  rw [simRunProgbuf, hinstruction]
  rfl

theorem simRunProgbuf_store (steps : Nat) {dm : SimModule} (target : SimTarget) (size : Width)
    (hprogram : AccessProgram (wlRvStore size.log2 8 9) dm) :
    simRunProgbuf (steps + 2) dm target =
      (dm.advance 4, target.store size (dm.gpr 9) (dm.gpr 8), true) := by
  have hfetch : dm.progbuf (dm.pc / 4).toNat = wlRvStore size.log2 8 9 := by
    rw [hprogram.entry]
    exact hprogram.first
  have hnext : (dm.advance 4).progbuf ((dm.advance 4).pc / 4).toNat = wlRvEbreak := by
    simp only [SimModule.advance, hprogram.entry]
    exact hprogram.second
  have hinside : ¬(dm.advance 4).pc / 4 ≥ 8 := by
    simp only [SimModule.advance, hprogram.entry]
    decide
  have haddress : dm.gpr 9 + 0 = dm.gpr 9 := BitVec.add_zero _
  rw [simRunProgbuf, hfetch]
  cases size
  all_goals
    show (if (dm.advance 4).pc / 4 ≥ 8 then _ else simRunProgbuf (steps + 1) (dm.advance 4)
      (simAccess target (dm.gpr 9 + 0) _ true (dm.gpr 8)).1) = _
    rw [if_neg hinside, simRunProgbuf_ebreak steps _ hnext, haddress]
    rfl

/-- The instruction word of a load, as `readProgram` encodes it. -/
def loadWord (size : Width) : Word :=
  wlRvLoad (if size = .word then 0x2 else if size = .half then 0x1 else 0x4) 8 9

/-- What the simulated core decodes from a load word. -/
theorem loadWord_fields (size : Width) :
    loadWord size &&& 0x7f = 0x03 ∧ (loadWord size >>> 7 &&& 0x1f).toNat = 8 ∧
      (loadWord size >>> 15 &&& 0x1f).toNat = 9 ∧ loadWord size >>> 20 = 0 ∧
      (loadWord size >>> 12 &&& 0x7 &&& 3).toNat = size.exponent ∧
      (loadWord size >>> 12 &&& 0x7 = 4 ↔ size = .byte) := by
  cases size <;> decide

theorem simRunProgbuf_load (steps : Nat) {dm : SimModule} (target : SimTarget) (size : Width)
    (hprogram : AccessProgram (loadWord size) dm) :
    simRunProgbuf (steps + 2) dm target =
      ((dm.setGpr 8 (target.loaded size (dm.gpr 9))).advance 4,
        target.afterLoad size (dm.gpr 9), true) := by
  obtain ⟨hopcode, hrd, hrs1, himm, hexponent, hfunct3⟩ := loadWord_fields size
  have hfetch : dm.progbuf (dm.pc / 4).toNat = loadWord size := by
    rw [hprogram.entry]
    exact hprogram.first
  have hnext (value : Word) : ((dm.setGpr 8 value).advance 4).progbuf
      (((dm.setGpr 8 value).advance 4).pc / 4).toNat = wlRvEbreak := by
    simp only [SimModule.advance, SimModule.setGpr, hprogram.entry]
    exact hprogram.second
  have hinside (value : Word) : ¬((dm.setGpr 8 value).advance 4).pc / 4 ≥ 8 := by
    simp only [SimModule.advance, SimModule.setGpr, hprogram.entry]
    decide
  have hload : ¬(0x03 : Word) = 0x23 := by decide
  have haddress : dm.gpr 9 + 0 = dm.gpr 9 := BitVec.add_zero _
  rw [simRunProgbuf]
  simp only [hfetch, hopcode, hrd, hrs1, himm, hexponent, hfunct3, haddress, if_neg hload,
    if_true, if_neg (hinside _), simRunProgbuf_ebreak steps _ (hnext _)]
  rfl

/-! ## The run as a whole -/

/-- The module when the program starts: x8 has been set as well. -/
def SimModule.started (dm : SimModule) (instruction address value : Word) : SimModule :=
  { dm.prepared instruction wlRvEbreak address with
    dmi := Function.update (Function.update (dm.prepared instruction wlRvEbreak address).dmi
      wlDmiData0 value) wlDmiDmcommand runCommand
    gpr := Function.update (dm.prepared instruction wlRvEbreak address).gpr 8 value
    pc := 0 }

theorem SimModule.started_program (dm : SimModule) (instruction address value : Word) :
    AccessProgram instruction (dm.started instruction address value) :=
  ⟨rfl, rfl, rfl⟩

@[simp] theorem SimModule.started_address (dm : SimModule) (instruction address value : Word) :
    (dm.started instruction address value).gpr 9 = address := rfl

@[simp] theorem SimModule.started_value (dm : SimModule) (instruction address value : Word) :
    (dm.started instruction address value).gpr 8 = value := rfl

/-- The command that runs the program, on a module holding the program. -/
theorem Sim.command_run {sim : Sim} (instruction address value : Word) {dm' : SimModule}
    {target' : SimTarget}
    (hrun : simRunProgbuf simMaxSteps (sim.dm.started instruction address value) sim.target =
      (dm', target', true)) :
    ({ sim with dm := sim.dm.prepared instruction wlRvEbreak address } : Sim).command
      runCommand value = { sim with dm := dm', target := target' } := by
  have hexecute : ({ sim with dm := sim.dm.prepared instruction wlRvEbreak address } : Sim).command
      runCommand value = { sim with
        dm := (simRunProgbuf simMaxSteps (sim.dm.started instruction address value)
          sim.target).1
        target := (simRunProgbuf simMaxSteps (sim.dm.started instruction address value)
          sim.target).2.1 } := by
    rfl
  rw [hexecute, hrun]

theorem dmRun_prefix {link : Link} (hlink : link.Usable) (first second address value : Word)
    (result : Bool) {sim sim' : Sim} (hready : sim.Ready)
    (hafter : ({ sim with dm := sim.dm.prepared first second address } : Sim).command
      runCommand value = sim')
    (hready' : sim'.Ready) :
    (dmRun link [first, second] address value result).run.run simulator sim =
      (if result then wlDmGprRead link 8 else pure 0).run.run simulator sim' := by
  have hload := dmLoadProgram_run hlink first second hready.configured
  have hgpr := wlDmGprWrite_run hlink address (by decide : ¬(9 : Word) > 31)
    (show (((sim.dmiWrite wlDmiDmabstractauto 0).dmiWrite
      (wlDmiDmprogbuf0 + BitVec.ofNat 8 0) first).dmiWrite
      (wlDmiDmprogbuf0 + BitVec.ofNat 8 1) second).configured = true from hready.configured)
    (by rw [Sim.dmiWrite_prepared]; exact ⟨hready.configured, hready.cmderr⟩)
  rw [Sim.dmiWrite_prepared] at hgpr
  have hcommand := dmCommand_run_write hlink runCommand value
    (show ({ sim with dm := sim.dm.prepared first second address } : Sim).configured = true
      from hready.configured) (by rw [hafter]; exact hready')
  rw [hafter] at hcommand
  unfold dmRun
  rw [Program.run_except_ok hload, Program.run_except_ok hgpr, Program.run_except_ok hcommand]

/-- The simulator after a run of its program buffer, as far as it is kept. -/
theorem Sim.Frame.of_started {sim sim' : Sim} (instruction address value : Word)
    (hconfigured : sim'.configured = sim.configured) (hresets : sim'.resets = sim.resets)
    (hgpr : ∀ reg, reg ≠ 8 →
      sim'.dm.gpr reg = (sim.dm.started instruction address value).gpr reg)
    (hdpc : sim'.dm.dpc = sim.dm.dpc) (hdcsr : sim'.dm.dcsr = sim.dm.dcsr)
    (hcmderr : sim'.dm.cmderr = sim.dm.cmderr) (hillegal : sim'.dm.illegal = sim.dm.illegal) :
    sim.Frame sim' := by
  refine ⟨hconfigured, hresets, fun reg h8 h9 => ?_, hdpc, hdcsr, hcmderr, hillegal⟩
  rw [hgpr reg h8]
  simp [SimModule.started, SimModule.prepared, h8, h9]

/-- The simulator after a store program has run. -/
def Sim.stored (sim : Sim) (size : Width) (address value : Word) : Sim :=
  { sim with
    dm := (sim.dm.started (wlRvStore size.log2 8 9) address value).advance 4
    target := sim.target.store size address value }

theorem wlDmRunWrite_run {link : Link} (hlink : link.Usable) (size : Width) (address value : Word)
    {sim : Sim} (hready : sim.Ready) :
    (wlDmRunWrite link (writeProgram size) address value).run.run simulator sim =
      (some (.ok ()), sim.stored size address value) := by
  have hrun := simRunProgbuf_store 254 sim.target size
    (sim.dm.started_program (wlRvStore size.log2 8 9) address value)
  rw [SimModule.started_address, SimModule.started_value] at hrun
  have hstarts := dmRun_prefix hlink _ _ address value false hready (Sim.command_run _ _ _ hrun)
    ⟨hready.configured, hready.cmderr⟩
  unfold wlDmRunWrite writeProgram
  exact Program.run_except_ok hstarts

/-- A store program makes one store of the target and nothing else. -/
theorem wlDmRunWrite_drives {link : Link} (hlink : link.Usable) (size : Width)
    (address value : Word) (target : SimTarget) :
    OnTarget (wlDmRunWrite link (writeProgram size) address value).run target (.ok ())
      (target.store size address value) := by
  intro sim hready hview
  subst hview
  refine ⟨_, wlDmRunWrite_run hlink size address value hready, rfl, ?_⟩
  exact .of_started _ address value rfl rfl (fun _ _ => rfl) rfl rfl rfl rfl

/-- The simulator after a load program has run and x8 has been read back. -/
def Sim.afterLoad (sim : Sim) (size : Width) (address : Word) : Sim :=
  ({ sim with
    dm := ((sim.dm.started (loadWord size) address 0).setGpr 8
      (sim.target.loaded size address)).advance 4
    target := sim.target.afterLoad size address } : Sim).dmiWrite wlDmiDmcommand
      (wlDmCmdGprBase ||| wlDmCmdTransfer ||| wlDmGprRegno 8)

theorem dmReadSized_run {link : Link} (hlink : link.Usable) (size : Width) (address : Word)
    {sim : Sim} (hready : sim.Ready) :
    (dmReadSized link size address).run.run simulator sim =
      (some (.ok (sim.target.loaded size address)), sim.afterLoad size address) := by
  have hrun := simRunProgbuf_load 254 sim.target size
    (sim.dm.started_program (loadWord size) address 0)
  rw [SimModule.started_address] at hrun
  have hstarts := dmRun_prefix hlink _ _ address 0 true hready (Sim.command_run _ _ _ hrun)
    ⟨hready.configured, hready.cmderr⟩
  have hread := wlDmGprRead_run hlink (by decide : ¬(8 : Word) > 31)
    (show ({ sim with
      dm := ((sim.dm.started (loadWord size) address 0).setGpr 8
        (sim.target.loaded size address)).advance 4
      target := sim.target.afterLoad size address } : Sim).configured = true
      from hready.configured) ⟨hready.configured, hready.cmderr⟩
  exact hstarts.trans hread

/-- A load program makes one load of the target and returns what it read. -/
theorem dmReadSized_drives {link : Link} (hlink : link.Usable) (size : Width) (address : Word)
    (target : SimTarget) :
    OnTarget (dmReadSized link size address).run target (.ok (target.loaded size address))
      (target.afterLoad size address) := by
  intro sim hready hview
  subst hview
  refine ⟨_, dmReadSized_run hlink size address hready, rfl, ?_⟩
  refine .of_started (loadWord size) address 0 rfl rfl (fun reg h8 => ?_) rfl rfl rfl rfl
  exact Function.update_of_ne h8 _ _

theorem wlDmWrite32_drives {link : Link} (hlink : link.Usable) (address value : Word)
    (target : SimTarget) :
    OnTarget (wlDmWrite32 link address value).run target (.ok ())
      (target.store .word address value) :=
  wlDmRunWrite_drives hlink .word address value target

theorem wlDmRead32_drives {link : Link} (hlink : link.Usable) (address : Word)
    (target : SimTarget) :
    OnTarget (wlDmRead32 link address).run target (.ok (target.loaded .word address))
      (target.afterLoad .word address) :=
  dmReadSized_drives hlink .word address target

/-! ## Ports -/

/-- Whether a word store leaves the status register alone and starts no page
operation outside the pages that may be changed. -/
structure SimTarget.Permits (target : SimTarget) (writable : Nat → Prop) (address value : Word) :
    Prop where
  status : address &&& ~~~3 ≠ simFlashStatr
  page : address &&& ~~~3 = simFlashCtlr → value &&& simCtlrStrt ≠ 0 →
    writable (simFlashOffset target.addr / 64)

/-- A programmer through which loads and the permitted word stores reach the
simulated target. -/
structure TargetPort (handler : Handler Usb Sim) (link : Link) (writable : Nat → Prop) : Prop where
  read : ∀ (size : Width) (address : Word) (target : SimTarget),
    Drives handler targetSurface (dmReadSized link size address).run target
      (.ok (target.loaded size address)) (target.afterLoad size address)
  write : ∀ (address value : Word) (target : SimTarget), target.Permits writable address value →
    Drives handler targetSurface (wlDmWrite32 link address value).run target (.ok ())
      (target.store .word address value)

/-- The simulated programmer itself lets everything through. -/
theorem simulatorPort {link : Link} (hlink : link.Usable) :
    TargetPort simulator link fun _ => True where
  read := dmReadSized_drives hlink
  write := fun address value target _ => wlDmWrite32_drives hlink address value target

/-! ## Refusals -/

/-- The field of the status register that holds the command error has three bits. -/
def Sim.Sound (sim : Sim) : Prop := sim.dm.cmderr.toNat < 8

theorem regAccess_refused {link : Link} {sim : Sim} (h : ¬(link.Usable ∧ sim.configured = true))
    (reg : Byte) (value : Word) (operation : Byte) :
    ∃ error, (regAccess link reg value operation).run.run simulator sim =
      (some (.error error), sim) := by
  by_cases hlink : link.Usable
  · have hconfigured : sim.configured = false :=
      Bool.eq_false_iff.mpr fun hconfigured => h ⟨hlink, hconfigured⟩
    have hanswer : simRegister sim reg value operation = (simRefuse, sim) := by
      unfold simRegister
      rw [if_pos (by rw [hconfigured]; rfl)]
    have hcommand : (wlLinkeCommand link (regRequest reg value operation)).run.run simulator sim =
        (some (.ok simRefuse), sim) := by
      rw [wlLinkeCommand_run hlink, simCommand_regRequest, hanswer]
    refine ⟨.target, ?_⟩
    unfold regAccess
    rw [Program.run_except_ok hcommand]
    rfl
  · have hcommand : (wlLinkeCommand link (regRequest reg value operation)).run.run simulator sim =
        (some (.error .usb), sim) := by
      have hclosed : (!link.isOpen || !link.transport) = true := by
        rw [Bool.or_eq_true, Bool.not_eq_true', Bool.not_eq_true']
        by_contra hopen
        rw [not_or, Bool.not_eq_false, Bool.not_eq_false] at hopen
        exact hlink ⟨hopen.1, hopen.2⟩
      unfold wlLinkeCommand
      rw [if_pos hclosed]
      rfl
    exact ⟨.usb, Program.run_except_error hcommand⟩

theorem wlLinkeDmiWrite_refused {link : Link} {sim : Sim}
    (h : ¬(link.Usable ∧ sim.configured = true)) (reg : Byte) (value : Word) :
    ∃ error, (wlLinkeDmiWrite link reg value).run.run simulator sim =
      (some (.error error), sim) := by
  obtain ⟨error, hrun⟩ := regAccess_refused h reg value wlRegOpWrite
  exact ⟨error, Program.run_except_error hrun⟩

/-- A pending command error fails the next command. -/
theorem dmWait_refused {link : Link} (hlink : link.Usable) {sim : Sim}
    (hconfigured : sim.configured = true) (hsound : sim.Sound) (hcmderr : sim.dm.cmderr ≠ 0) :
    ∃ after, (dmWait link).run.run simulator sim = (some (.error .target), after) ∧
      after.target = sim.target := by
  have hfields : (sim.dm.cmderr <<< 8) &&& wlDmAbstractcsBusy = 0 ∧
      (sim.dm.cmderr <<< 8) &&& wlDmAbstractcsCmdmask ≠ 0 := by
    obtain ⟨code, hcode⟩ : ∃ code, code = sim.dm.cmderr.toNat := ⟨_, rfl⟩
    have hvalue : sim.dm.cmderr = BitVec.ofNat 32 code := by
      rw [hcode, BitVec.ofNat_toNat, BitVec.setWidth_eq]
    have hbound : code < 8 := hcode ▸ hsound
    rw [hvalue] at hcmderr ⊢
    interval_cases code
    · exact absurd rfl hcmderr
    all_goals decide
  obtain ⟨hidle, herror⟩ := hfields
  have hpoll := dmPoll_run hlink 1999999 0 hconfigured hidle
  have hclear := ignore_run (wlLinkeDmiWrite_run hlink wlDmiDmabstractcs wlDmAbstractcsClear
    hconfigured)
  refine ⟨sim.dmiWrite wlDmiDmabstractcs wlDmAbstractcsClear, ?_, rfl⟩
  unfold dmWait wlDmTimeoutUs
  rw [Program.run_except_ok hpoll, if_neg (not_not_intro hidle), if_pos herror]
  show (pure () >>= fun _ => ignore (wlLinkeDmiWrite link wlDmiDmabstractcs wlDmAbstractcsClear) >>=
    fun _ => throw .target : Fallible Unit).run.run simulator sim = _
  rw [pure_bind, Program.run_except_ok hclear]
  rfl

/-- An access program fails where the link is closed, the interface has not been
selected or a command error is pending, and it is not run then. -/
theorem dmRun_refused {link : Link} {sim : Sim} (hsound : sim.Sound)
    (h : ¬(link.Usable ∧ sim.Ready)) (first second address value : Word) (result : Bool) :
    ∃ error after, (dmRun link [first, second] address value result).run.run simulator sim =
      (some (.error error), after) ∧ after.target = sim.target := by
  by_cases hopen : link.Usable ∧ sim.configured = true
  · obtain ⟨hlink, hconfigured⟩ := hopen
    have hcmderr : sim.dm.cmderr ≠ 0 := fun hzero => h ⟨hlink, hconfigured, hzero⟩
    let loaded := ((sim.dmiWrite wlDmiDmabstractauto 0).dmiWrite
      (wlDmiDmprogbuf0 + BitVec.ofNat 8 0) first).dmiWrite
      (wlDmiDmprogbuf0 + BitVec.ofNat 8 1) second
    have hload : (dmLoadProgram link [first, second]).run.run simulator sim =
        (some (.ok ()), loaded) := dmLoadProgram_run hlink _ _ hconfigured
    let given := loaded.command (wlDmCmdGprBase ||| wlDmCmdTransfer ||| wlDmCmdWrite |||
      wlDmGprRegno 9) address
    have hgiven : given = { sim with dm := sim.dm.prepared first second address } :=
      sim.dmiWrite_prepared _ _ _
    have hconfigured' : given.configured = true := by
      rw [hgiven]
      exact hconfigured
    obtain ⟨after, hwait, htarget⟩ := dmWait_refused hlink hconfigured'
      (by rw [hgiven]; exact hsound) (by rw [hgiven]; exact hcmderr)
    have hgpr : (wlDmGprWrite link 9 address).run.run simulator loaded =
        (some (.error .target), after) := by
      unfold wlDmGprWrite
      rw [if_neg (by decide)]
      refine Program.run_except_error ?_
      unfold dmCommand
      rw [if_pos rfl, Program.run_except_ok (wlLinkeDmiWrite_run hlink wlDmiData0 address
        (show loaded.configured = true from hconfigured)),
        Program.run_except_ok (wlLinkeDmiWrite_run hlink wlDmiDmcommand _
        (show (loaded.dmiWrite wlDmiData0 address).configured = true from hconfigured))]
      exact Program.run_except_error hwait
    refine ⟨.target, after, ?_, ?_⟩
    · unfold dmRun
      rw [Program.run_except_ok hload]
      exact Program.run_except_error hgpr
    · rw [htarget, hgiven]
  · obtain ⟨error, hrefused⟩ := wlLinkeDmiWrite_refused hopen wlDmiDmabstractauto 0
    refine ⟨error, sim, ?_, rfl⟩
    unfold dmRun dmLoadProgram
    refine Program.run_except_error ?_
    rw [if_neg (by exact (by decide : ¬2 > 8))]
    exact Program.run_except_error hrefused

theorem wlDmRunWrite_refused {link : Link} {sim : Sim} (hsound : sim.Sound)
    (h : ¬(link.Usable ∧ sim.Ready)) (size : Width) (address value : Word) :
    ∃ error after, (wlDmRunWrite link (writeProgram size) address value).run.run simulator sim =
      (some (.error error), after) := by
  obtain ⟨error, after, hrun, -⟩ := dmRun_refused hsound h (wlRvStore size.log2 8 9) wlRvEbreak
    address value false
  exact ⟨error, after, Program.run_except_error hrun⟩

theorem dmReadSized_refused {link : Link} {sim : Sim} (hsound : sim.Sound)
    (h : ¬(link.Usable ∧ sim.Ready)) (size : Width) (address : Word) :
    ∃ error after, (dmReadSized link size address).run.run simulator sim =
      (some (.error error), after) ∧ after.target = sim.target :=
  dmRun_refused hsound h _ _ _ _ _

end WchLink
