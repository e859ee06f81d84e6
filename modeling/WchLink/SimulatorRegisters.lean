import WchLink.SimulatorAccess

/-! # The halted core's registers on the simulator

A register is read and written by one abstract command. A read moves DATA0 and
the command register only; a write changes the one register.
-/

namespace WchLink

open Bytes Interaction

/-- The registers as a debugger numbers them: the general-purpose ones, then
the program counter. -/
def Sim.register (sim : Sim) (reg : Nat) : Word := if reg = 16 then sim.dm.dpc else sim.dm.gpr reg

/-- What a register read keeps: every register and the module's readiness. -/
structure Sim.SameRegisters (before after : Sim) : Prop where
  configured : after.configured = before.configured
  cmderr : after.dm.cmderr = before.dm.cmderr
  gpr : after.dm.gpr = before.dm.gpr
  dpc : after.dm.dpc = before.dm.dpc

theorem Sim.SameRegisters.ready {before after : Sim} (h : before.SameRegisters after)
    (hready : before.Ready) : after.Ready :=
  ⟨h.configured.trans hready.configured, h.cmderr.trans hready.cmderr⟩

theorem Sim.SameRegisters.refl (sim : Sim) : sim.SameRegisters sim := ⟨rfl, rfl, rfl, rfl⟩

theorem Sim.SameRegisters.trans {first second third : Sim} (h : first.SameRegisters second)
    (h' : second.SameRegisters third) : first.SameRegisters third :=
  ⟨h'.configured.trans h.configured, h'.cmderr.trans h.cmderr, h'.gpr.trans h.gpr,
    h'.dpc.trans h.dpc⟩

theorem Sim.SameRegisters.register {before after : Sim} (h : before.SameRegisters after)
    (reg : Nat) : after.register reg = before.register reg := by
  rw [Sim.register, Sim.register, h.gpr, h.dpc]

theorem Sim.register_pc (sim : Sim) : sim.register 16 = sim.dm.dpc := rfl

theorem Sim.register_gpr (sim : Sim) {reg : Nat} (hreg : reg < 16) :
    sim.register reg = sim.dm.gpr reg :=
  if_neg (Nat.ne_of_lt hreg)

/-! ## The commands -/

/-- The command that reads a general-purpose register. -/
def gprReadCommand (reg : Word) : Word := wlDmCmdGprBase ||| wlDmCmdTransfer ||| wlDmGprRegno reg

/-- The command that writes a general-purpose register. -/
def gprWriteCommand (reg : Word) : Word :=
  wlDmCmdGprBase ||| wlDmCmdTransfer ||| wlDmCmdWrite ||| wlDmGprRegno reg

/-- The command that reads the program counter. -/
def pcReadCommand : Word := wlDmCmdGprBase ||| wlDmCmdTransfer ||| wlDmiDpc

/-- The command that writes the program counter. -/
def pcWriteCommand : Word := wlDmCmdGprBase ||| wlDmCmdTransfer ||| wlDmCmdWrite ||| wlDmiDpc

/-- The command that reads DCSR. -/
def dcsrReadCommand : Word := wlDmCmdGprBase ||| wlDmCmdTransfer ||| wlDmiDcsr

/-- The command that writes DCSR. -/
def dcsrWriteCommand : Word := wlDmCmdGprBase ||| wlDmCmdTransfer ||| wlDmiDcsr ||| wlDmCmdWrite

/-- The module with one of its registers replaced. -/
def SimModule.setDmi (dm : SimModule) (reg : Byte) (value : Word) : SimModule :=
  { dm with dmi := Function.update dm.dmi reg value }

theorem simExecuteCommand_gprRead (dm : SimModule) (target : SimTarget) {reg : Nat}
    (hreg : reg < 32) :
    simExecuteCommand dm target (gprReadCommand (BitVec.ofNat 32 reg)) =
      (dm.setDmi wlDmiData0 (dm.gpr reg), target) := by
  interval_cases reg <;> rfl

theorem simExecuteCommand_gprWrite (dm : SimModule) (target : SimTarget) {reg : Nat}
    (hreg : reg < 32) :
    simExecuteCommand dm target (gprWriteCommand (BitVec.ofNat 32 reg)) =
      (dm.setGpr reg (dm.dmi wlDmiData0), target) := by
  interval_cases reg <;> rfl

theorem simExecuteCommand_pcRead (dm : SimModule) (target : SimTarget) :
    simExecuteCommand dm target pcReadCommand = (dm.setDmi wlDmiData0 dm.dpc, target) := rfl

theorem simExecuteCommand_pcWrite (dm : SimModule) (target : SimTarget) :
    simExecuteCommand dm target pcWriteCommand =
      ({ dm with dpc := dm.dmi wlDmiData0 }, target) := rfl

theorem simExecuteCommand_dcsrRead (dm : SimModule) (target : SimTarget) :
    simExecuteCommand dm target dcsrReadCommand = (dm.setDmi wlDmiData0 dm.dcsr, target) := rfl

theorem simExecuteCommand_dcsrWrite (dm : SimModule) (target : SimTarget) :
    simExecuteCommand dm target dcsrWriteCommand =
      ({ dm with dcsr := dm.dmi wlDmiData0 }, target) := rfl

theorem gpr_notWide {reg : Nat} (hreg : reg < 32) : ¬BitVec.ofNat 32 reg > 31 := by
  rw [gt_iff_lt, BitVec.lt_def, BitVec.toNat_ofNat, Nat.mod_eq_of_lt (by omega)]
  exact Nat.not_lt.mpr (Nat.le_of_lt_succ hreg)

/-! ## Reads -/

/-- The simulator after a command that read a value into DATA0. -/
def Sim.afterRead (sim : Sim) (command value : Word) : Sim :=
  { sim with dm := (sim.dm.setDmi wlDmiDmcommand command).setDmi wlDmiData0 value }

theorem Sim.sameRegisters_afterRead (sim : Sim) (command value : Word) :
    sim.SameRegisters (sim.afterRead command value) := ⟨rfl, rfl, rfl, rfl⟩

/-- A command that only transfers a value to DATA0 returns it. -/
theorem dmCommand_sim_read {link : Link} (hlink : link.Usable) {command value : Word} {sim : Sim}
    (hready : sim.Ready)
    (hexecute : simExecuteCommand (sim.dm.setDmi wlDmiDmcommand command) sim.target command =
      ((sim.dm.setDmi wlDmiDmcommand command).setDmi wlDmiData0 value, sim.target)) :
    (dmCommand link command 0 false true).run.run simulator sim =
      (some (.ok value), sim.afterRead command value) := by
  have hwrite : sim.dmiWrite wlDmiDmcommand command = sim.afterRead command value := by
    show ({ sim with
      dm := (simExecuteCommand (sim.dm.setDmi wlDmiDmcommand command) sim.target command).1
      target := (simExecuteCommand (sim.dm.setDmi wlDmiDmcommand command) sim.target
        command).2 } : Sim) = _
    rw [hexecute]
    rfl
  have hrun := dmCommand_run_read hlink command hready.configured
    (by rw [hwrite]; exact (sim.sameRegisters_afterRead command value).ready hready)
  rw [hwrite] at hrun
  have hvalue : simDmiRead (sim.afterRead command value).dm wlDmiData0 = value := by
    show Function.update (sim.dm.setDmi wlDmiDmcommand command).dmi wlDmiData0 value
      wlDmiData0 = value
    exact Function.update_self _ _ _
  rw [hrun, hvalue]

theorem wlDmGprRead_sim {link : Link} (hlink : link.Usable) {reg : Nat} (hreg : reg < 32)
    {sim : Sim} (hready : sim.Ready) :
    (wlDmGprRead link (BitVec.ofNat 32 reg)).run.run simulator sim =
      (some (.ok (sim.dm.gpr reg)),
        sim.afterRead (gprReadCommand (BitVec.ofNat 32 reg)) (sim.dm.gpr reg)) := by
  unfold wlDmGprRead
  rw [if_neg (gpr_notWide hreg)]
  exact dmCommand_sim_read hlink hready (simExecuteCommand_gprRead _ _ hreg)

theorem wlDmPcRead_sim {link : Link} (hlink : link.Usable) {sim : Sim} (hready : sim.Ready) :
    (wlDmPcRead link).run.run simulator sim =
      (some (.ok sim.dm.dpc), sim.afterRead pcReadCommand sim.dm.dpc) :=
  dmCommand_sim_read hlink hready (simExecuteCommand_pcRead _ _)

theorem wlDmDcsrRead_sim {link : Link} (hlink : link.Usable) {sim : Sim} (hready : sim.Ready) :
    (wlDmDcsrRead link).run.run simulator sim =
      (some (.ok sim.dm.dcsr), sim.afterRead dcsrReadCommand sim.dm.dcsr) :=
  dmCommand_sim_read hlink hready (simExecuteCommand_dcsrRead _ _)

/-! ## Writes -/

/-- The module as a write command finds it. -/
def SimModule.given (dm : SimModule) (command value : Word) : SimModule :=
  (dm.setDmi wlDmiData0 value).setDmi wlDmiDmcommand command

/-- A command that changes the module and raises no error is carried out. -/
theorem dmCommand_sim_write {link : Link} (hlink : link.Usable) {command value : Word} {sim : Sim}
    {dm' : SimModule} (hready : sim.Ready)
    (hexecute : simExecuteCommand (sim.dm.given command value) sim.target command =
      (dm', sim.target))
    (hcmderr : dm'.cmderr = sim.dm.cmderr) :
    (dmCommand link command value true false).run.run simulator sim =
      (some (.ok 0), { sim with dm := dm' }) := by
  have hwrite : sim.command command value = { sim with dm := dm' } := by
    show ({ sim with
      dm := (simExecuteCommand (sim.dm.given command value) sim.target command).1
      target := (simExecuteCommand (sim.dm.given command value) sim.target command).2 } :
        Sim) = _
    rw [hexecute]
  have hrun := dmCommand_run_write hlink command value hready.configured
    (by rw [hwrite]; exact ⟨hready.configured, hcmderr.trans hready.cmderr⟩)
  rwa [hwrite] at hrun

theorem wlDmGprWrite_sim {link : Link} (hlink : link.Usable) {reg : Nat} (hreg : reg < 32)
    (value : Word) {sim : Sim} (hready : sim.Ready) :
    (wlDmGprWrite link (BitVec.ofNat 32 reg) value).run.run simulator sim =
      (some (.ok ()), { sim with
        dm := (sim.dm.given (gprWriteCommand (BitVec.ofNat 32 reg)) value).setGpr reg value }) := by
  have hcommand := dmCommand_sim_write hlink hready (simExecuteCommand_gprWrite
    (sim.dm.given (gprWriteCommand (BitVec.ofNat 32 reg)) value) sim.target hreg) rfl
  unfold wlDmGprWrite
  rw [if_neg (gpr_notWide hreg)]
  exact Program.run_except_ok hcommand

theorem wlDmPcWrite_sim {link : Link} (hlink : link.Usable) (value : Word) {sim : Sim}
    (hready : sim.Ready) :
    (wlDmPcWrite link value).run.run simulator sim =
      (some (.ok ()), { sim with
        dm := { sim.dm.given pcWriteCommand value with dpc := value } }) :=
  Program.run_except_ok (dmCommand_sim_write hlink hready (simExecuteCommand_pcWrite _ _) rfl)

theorem wlDmDcsrWrite_sim {link : Link} (hlink : link.Usable) (value : Word) {sim : Sim}
    (hready : sim.Ready) :
    (wlDmDcsrWrite link value).run.run simulator sim =
      (some (.ok ()), { sim with
        dm := { sim.dm.given dcsrWriteCommand value with dcsr := value } }) :=
  Program.run_except_ok (dmCommand_sim_write hlink hready (simExecuteCommand_dcsrWrite _ _) rfl)

end WchLink
