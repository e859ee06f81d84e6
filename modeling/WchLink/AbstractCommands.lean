import WchLink.CommandErrors
import WchLink.Interaction.Labels

/-! # The abstract commands the tool issues

A command word is put together from flags and a register number. Here it is
taken apart again, and what every debug-module operation writes to the command
register is compared with the commands the operation means.
-/

namespace WchLink

open Bytes Interaction Interaction.Program

/-! ## Command words -/

/-- The fields of an access-register command. -/
structure CommandFields where
  cmdtype : BitVec 8
  aarpostincrement : Bool
  aarsize : BitVec 3
  postincrement : Bool
  postexec : Bool
  transfer : Bool
  write : Bool
  regno : BitVec 16
  deriving DecidableEq, Repr

/-- The fields of a command word, by the layout in `dm.c`. -/
def commandFields (command : Word) : CommandFields where
  cmdtype := command.extractLsb' 24 8
  aarpostincrement := command.getLsbD 23
  aarsize := command.extractLsb' 20 3
  postincrement := command.getLsbD 19
  postexec := command.getLsbD 18
  transfer := command.getLsbD 17
  write := command.getLsbD 16
  regno := command.setWidth 16

/-- The command that moves a 32-bit register. -/
def registerCommand (regno : BitVec 16) (write postexec : Bool) : CommandFields where
  cmdtype := 0
  aarpostincrement := false
  aarsize := 2
  postincrement := false
  postexec := postexec
  transfer := true
  write := write
  regno := regno

/-- The command register number of a general-purpose register. -/
def gprRegno (reg : Word) : BitVec 16 := 0x1000 + reg.setWidth 16

/-- The word a request writes to the command register. -/
def commandWord (request : List Byte) : Option Word :=
  (registerAccess request).bind fun access =>
    if access.reg = wlDmiDmcommand ∧ access.operation = wlRegOpWrite then some access.value
    else none

/-- The command a request issues. -/
def issuedCommand (request : List Byte) : Option CommandFields :=
  (commandWord request).map commandFields

/-- The commands issued in a run. -/
def commandsIssued (made : List Exchange) : List CommandFields := @labelsOf Usb _ issuedCommand made

/-! ## What the operations mean -/

/-- The commands of one run of an access program: x9 is set, x8 is set and the
program run, and x8 is read back if asked. -/
def accessCommands (result : Bool) : List CommandFields :=
  [registerCommand (gprRegno 9) true false, registerCommand (gprRegno 8) true true] ++
    if result then [registerCommand (gprRegno 8) false false] else []

def MemOp.commands : MemOp → List CommandFields
  | write32 _ _ => accessCommands false
  | write16 _ _ => accessCommands false
  | write8 _ _ => accessCommands false
  | read32 _ => accessCommands true
  | read16 _ => accessCommands true
  | readBlock address length => (readPlan address length).flatMap fun _ => accessCommands true
  | runWrite _ _ _ => accessCommands false
  | runRead _ _ => accessCommands true

/-- The commands an operation is to issue, in order. -/
def DmOp.commands : DmOp → List CommandFields
  | gprRead reg => [registerCommand (gprRegno reg) false false]
  | gprWrite reg _ => [registerCommand (gprRegno reg) true false]
  | pcRead => [registerCommand 0x7b1 false false]
  | pcWrite _ => [registerCommand 0x7b1 true false]
  | csrRead csr => [registerCommand (csr.setWidth 16) false false]
  | csrWrite csr _ => [registerCommand (csr.setWidth 16) true false]
  | dcsrRead => [registerCommand 0x7b0 false false]
  | dcsrWrite _ => [registerCommand 0x7b0 true false]
  | memory operation => operation.commands

def MemOp.Encodable : MemOp → Prop
  | runWrite program _ _ => program.length ≤ wlDmProgbufWords
  | runRead program _ => program.length ≤ wlDmProgbufWords
  | _ => True

/-- Whether the arguments have commands at all: a register there is, a CSR
number of twelve bits, a program that fits. -/
def DmOp.Encodable : DmOp → Prop
  | gprRead reg => reg < 32
  | gprWrite reg _ => reg < 32
  | csrRead csr => csr < 0x1000
  | csrWrite csr _ => csr < 0x1000
  | memory operation => operation.Encodable
  | _ => True

/-- An operation issues what it means: with arguments that have an encoding
every run issues the first of the commands meant, and all of them if it
succeeds; with other arguments nothing is requested. -/
structure IssuesMeant (link : Link) (operation : DmOp) : Prop where
  issued : operation.Encodable → ∀ {σ : Type} (world : World Usb σ) (start final : σ)
    (made : List Exchange) (residual : Program Usb (Except WlErr Unit)),
    Run world (operation.operation link).run start made residual final →
      commandsIssued made <+: operation.commands ∧
        (residual = .done (.ok ()) → commandsIssued made = operation.commands)
  rejected : ¬operation.Encodable →
    (operation.operation link).run = pure (.error .usage)

/-! ## Which commands are issued -/

theorem commandWord_regRequest (reg : Byte) (value : Word) (operation : Byte) :
    commandWord (regRequest reg value operation) =
      if reg = wlDmiDmcommand ∧ operation = wlRegOpWrite then some value else none := by
  rw [commandWord, registerAccess_regRequest]
  rfl

/-- The commands of an operation, in the order they are issued. -/
def Issuing {α : Type} (operation : Fallible α) (commands : List CommandFields) : Prop :=
  @IssuesOf Usb _ _ _ issuedCommand operation commands

/-- The programs that issue no command. -/
def silent : ProgramClass Usb := @requesting Usb fun request => issuedCommand request = none

theorem silent_register {reg : Byte} {value : Word} {operation : Byte}
    (h : ¬(reg = wlDmiDmcommand ∧ operation = wlRegOpWrite)) (link : Link) :
    silent.Mem (regAccess link reg value operation).run := by
  have hrequest : issuedCommand (regRequest reg value operation) = none := by
    rw [issuedCommand, commandWord_regRequest, if_neg h]
    rfl
  exact regAccess_mem silent ⟨hrequest, fun _ => trivial⟩

theorem silent_transfers (link : Link) : HasTransfers silent link where
  data0 := fun _ _ => silent_register (fun h => absurd h.1 (by decide)) link
  abstractcs := fun _ _ => silent_register (fun h => absurd h.1 (by decide)) link

theorem Issuing.silent {α : Type} {operation : Fallible α} (h : silent.Mem operation.run) :
    Issuing operation [] := issues_nil h

variable {link : Link}

theorem wlLinkeCommand_issuing {request : List Byte} {command : CommandFields}
    (hlabel : issuedCommand request = some command) :
    Issuing (wlLinkeCommand link request) [command] := by
  unfold Issuing wlLinkeCommand
  dsimp only
  split
  · exact IssuesOf.throw _ _
  · refine IssuesOf.andThen [command] [] ?_ fun answer => ?_
    · change Issues _ (Program.call _ _) _
      unfold Issues
      rw [hlabel]
      exact ⟨[], rfl, fun _ => rfl⟩
    · cases answer with
      | error code => exact IssuesOf.throw _ _
      | ok reply => exact IssuesOf.ok _

theorem dmcommandWrite_issuing (command : Word) :
    Issuing (wlLinkeDmiWrite link wlDmiDmcommand command) [commandFields command] := by
  have hlabel : issuedCommand (regRequest wlDmiDmcommand command wlRegOpWrite) =
      some (commandFields command) := by
    rw [issuedCommand, commandWord_regRequest, if_pos ⟨rfl, rfl⟩]
    rfl
  have haccess : Issuing (regAccess link wlDmiDmcommand command wlRegOpWrite)
      ([commandFields command] ++ []) := by
    refine IssuesOf.andThen _ _ (wlLinkeCommand_issuing hlabel) fun reply => ?_
    dsimp only
    split
    · exact IssuesOf.throw _ _
    · split
      · exact IssuesOf.throw _ _
      · exact IssuesOf.ok _
  exact IssuesOf.andThen [_] [] haccess fun _ => IssuesOf.ok _

/-- A command that is issued, with what is moved in before and out behind it. -/
theorem dmCommand_issuing (command value : Word) (transferIn result : Bool) :
    Issuing (dmCommand link command value transferIn result) [commandFields command] := by
  have hissue : Issuing (do
      wlLinkeDmiWrite link wlDmiDmcommand command
      dmWait link
      if result then wlLinkeDmiRead link wlDmiData0 else return 0 : Fallible Word)
      ([commandFields command] ++ []) := by
    refine IssuesOf.andThen _ _ (dmcommandWrite_issuing command) fun _ => Issuing.silent ?_
    refine silent.andThen (dmWait_mem (silent_transfers link)) fun _ => ?_
    split
    · exact wlLinkeDmiRead_mem silent (silent_transfers link).data0
    · exact silent.ok _
  unfold dmCommand
  dsimp only
  split
  · exact IssuesOf.andThen [] _
      (Issuing.silent (wlLinkeDmiWrite_mem silent (silent_transfers link).data0 value))
      fun _ => hissue
  · exact hissue

theorem dmLoadWords_silent (slot : Nat) (words : List Word)
    (hslots : slot + words.length ≤ wlDmProgbufWords) :
    silent.Mem (dmLoadWords link slot words).run := by
  induction words generalizing slot with
  | nil => exact silent.ok _
  | cons word rest ih =>
      rw [List.length_cons] at hslots
      have hreg : wlDmiDmprogbuf0 + BitVec.ofNat 8 slot ≠ wlDmiDmcommand := by
        have hslot : slot < 8 := by
          unfold wlDmProgbufWords at hslots
          omega
        interval_cases slot <;> decide
      refine silent.andThen ?_ fun _ => ih (slot + 1) (by omega)
      exact silent.andThen (silent_register (fun h => hreg h.1) link) fun _ => silent.ok _

theorem dmLoadProgram_silent (program : List Word) :
    silent.Mem (dmLoadProgram link program).run := by
  unfold dmLoadProgram
  dsimp only
  split
  · exact silent.throwThen _ _
  · refine silent.andThen ?_ fun _ => dmLoadWords_silent 0 program (by omega)
    refine silent.andThen (silent_register (fun h => absurd h.1 (by decide)) link) fun _ => ?_
    exact silent.ok _

/-! ### The words put together -/

/-- Flags above a register number stay what they are. -/
theorem commandFields_or {flags : Word} (hflags : flags.setWidth 16 = (0 : BitVec 16))
    (regno : BitVec 16) :
    commandFields (flags ||| regno.setWidth 32) = { commandFields flags with regno := regno } := by
  have habove (i : Nat) (hi : 16 ≤ i) : (regno.setWidth 32 : Word).getLsbD i = false := by
    rw [BitVec.getLsbD_setWidth, BitVec.getLsbD_of_ge regno i hi, Bool.and_false]
  have hbit (i : Nat) (hi : 16 ≤ i) :
      (flags ||| regno.setWidth 32).getLsbD i = flags.getLsbD i := by
    rw [BitVec.getLsbD_or, habove i hi, Bool.or_false]
  have hfield (start width : Nat) (hstart : 16 ≤ start) :
      (flags ||| regno.setWidth 32).extractLsb' start width = flags.extractLsb' start width := by
    apply BitVec.eq_of_getLsbD_eq
    intro i hi
    rw [BitVec.getLsbD_extractLsb', BitVec.getLsbD_extractLsb', hbit _ (by omega)]
  have hregno : (flags ||| regno.setWidth 32).setWidth 16 = regno := by
    rw [BitVec.setWidth_or, hflags]
    simp
  simp only [commandFields, hbit, hfield, hregno, Nat.le_refl, Nat.reduceLeDiff]

theorem commandFields_read (regno : BitVec 16) :
    commandFields (wlDmCmdGprBase ||| wlDmCmdTransfer ||| regno.setWidth 32) =
      registerCommand regno false false := by
  rw [commandFields_or (by decide)]
  rfl

theorem commandFields_write (regno : BitVec 16) :
    commandFields (wlDmCmdGprBase ||| wlDmCmdTransfer ||| wlDmCmdWrite ||| regno.setWidth 32) =
      registerCommand regno true false := by
  rw [commandFields_or (by decide)]
  rfl

theorem wlDmGprRegno_eq {reg : Word} (hreg : reg < 32) :
    wlDmGprRegno reg = (gprRegno reg).setWidth 32 := by
  have hlow : (reg &&& 0x1f).toNat = reg.toNat % 2 ^ 5 := toNat_and_low reg (by decide : 5 ≤ 32)
  have hreg : reg.toNat < 32 := hreg
  apply BitVec.eq_of_toNat_eq
  rw [wlDmGprRegno, gprRegno, BitVec.toNat_add, hlow]
  simp
  omega

/-- A register number of twelve bits is one of sixteen. -/
theorem csr_setWidth {csr : Word} (hcsr : csr < 0x1000) :
    csr = (csr.setWidth 16).setWidth 32 := by
  have hcsr : csr.toNat < 0x1000 := hcsr
  apply BitVec.eq_of_toNat_eq
  rw [BitVec.toNat_setWidth, BitVec.toNat_setWidth]
  omega

/-! ### The operations -/

theorem wlDmGprWrite_issuing {reg : Word} (hreg : reg < 32) (value : Word) :
    Issuing (wlDmGprWrite link reg value) [registerCommand (gprRegno reg) true false] := by
  have hinside : ¬reg > 31 := by
    have : reg.toNat < 32 := hreg
    change ¬(31 : Nat) < reg.toNat
    omega
  unfold wlDmGprWrite
  rw [if_neg hinside, wlDmGprRegno_eq hreg, ← commandFields_write]
  exact IssuesOf.andThen [_] [] (dmCommand_issuing _ _ _ _) fun _ => IssuesOf.ok _

theorem wlDmGprRead_issuing {reg : Word} (hreg : reg < 32) :
    Issuing (wlDmGprRead link reg) [registerCommand (gprRegno reg) false false] := by
  have hinside : ¬reg > 31 := by
    have : reg.toNat < 32 := hreg
    change ¬(31 : Nat) < reg.toNat
    omega
  unfold wlDmGprRead
  rw [if_neg hinside, wlDmGprRegno_eq hreg, ← commandFields_read]
  exact dmCommand_issuing _ _ _ _

theorem dmRun_issuing (program : List Word) (address value : Word) (result : Bool) :
    Issuing (dmRun link program address value result) (accessCommands result) := by
  have hx8 : (8 : Word) < 32 := by decide
  have hx9 : (9 : Word) < 32 := by decide
  have hrun : commandFields runCommand = registerCommand (gprRegno 8) true true := by decide
  unfold dmRun
  refine IssuesOf.andThen [] _ (Issuing.silent (dmLoadProgram_silent program)) fun _ => ?_
  refine IssuesOf.andThen [_] _ (wlDmGprWrite_issuing hx9 address) fun _ => ?_
  refine IssuesOf.andThen [_] (if result then [registerCommand (gprRegno 8) false false] else [])
    (hrun ▸ dmCommand_issuing runCommand value true false) fun _ => ?_
  cases result with
  | false => exact IssuesOf.ok _
  | true => exact wlDmGprRead_issuing hx8

/-- A block read runs one access program after another. -/
theorem loadEach_issuing (plan : List Load) (buffer : List Byte) :
    @Issues Usb _ _ _ issuedCommand
      ((loadEach link plan).run.run buffer >>= fun result => pure (result.1.map fun _ => result.2))
      (plan.flatMap fun _ => accessCommands true) := by
  induction plan generalizing buffer with
  | nil => rfl
  | cons load rest ih =>
      rw [loadEach_cons_run, bind_assoc, List.flatMap_cons]
      refine Issues.bind (dmRun_issuing _ load.address 0 true) (fun word => ?_) fun _ _ => trivial
      exact ih (buffer ++ load.bytes word)

theorem filled_issuing (address : Word) (length : Nat) :
    Issuing (filled (wlDmReadBlock link address length))
      ((readPlan address length).flatMap fun _ => accessCommands true) := by
  have hplan := @loadEach_issuing link (readPlan address length) []
  rw [← wlDmReadBlock_eq] at hplan
  exact hplan

/-- A CSR number goes into the command word as it is. -/
theorem dmCsrAccess_issuing (regno value : Word) (write result : Bool) :
    Issuing (dmCsrAccess link regno value write result)
      [commandFields (if write then wlDmCmdGprBase ||| wlDmCmdTransfer ||| regno ||| wlDmCmdWrite
        else wlDmCmdGprBase ||| wlDmCmdTransfer ||| regno)] :=
  dmCommand_issuing _ _ _ _

theorem csrRead_issuing (regno : BitVec 16) :
    Issuing (dmCsrAccess link (regno.setWidth 32) 0 false true)
      [registerCommand regno false false] := by
  rw [← commandFields_read]
  exact dmCsrAccess_issuing _ 0 false true

theorem csrWrite_issuing (regno : BitVec 16) (value : Word) :
    Issuing (dmCsrAccess link (regno.setWidth 32) value true false)
      [registerCommand regno true false] := by
  rw [← commandFields_write, BitVec.or_assoc _ wlDmCmdWrite, BitVec.or_comm wlDmCmdWrite,
    ← BitVec.or_assoc]
  exact dmCsrAccess_issuing _ value true false

theorem discard_issuing {α : Type} {operation : Fallible α} {commands : List CommandFields}
    (h : Issuing operation commands) :
    Issuing (do let _ ← operation : Fallible Unit) commands := by
  rw [← List.append_nil commands]
  exact IssuesOf.andThen _ _ h fun _ => IssuesOf.ok _

theorem MemOp.issuing (operation : MemOp) :
    Issuing (operation.operation link) operation.commands := by
  cases operation with
  | write32 address value => exact discard_issuing (dmRun_issuing _ _ _ _)
  | write16 address value => exact discard_issuing (dmRun_issuing _ _ _ _)
  | write8 address value => exact discard_issuing (dmRun_issuing _ _ _ _)
  | read32 address => exact discard_issuing (dmRun_issuing _ _ _ _)
  | read16 address =>
      refine discard_issuing ?_
      exact IssuesOf.andThen _ [] (dmRun_issuing _ _ _ _) fun _ => IssuesOf.ok _
  | readBlock address length => exact discard_issuing (filled_issuing _ _)
  | runWrite program address value => exact discard_issuing (dmRun_issuing _ _ _ _)
  | runRead program address => exact discard_issuing (dmRun_issuing _ _ _ _)

theorem DmOp.issuing {operation : DmOp} (hencodable : operation.Encodable) :
    Issuing (operation.operation link) operation.commands := by
  cases operation with
  | gprRead reg => exact discard_issuing (wlDmGprRead_issuing hencodable)
  | gprWrite reg value => exact wlDmGprWrite_issuing hencodable value
  | pcRead => exact discard_issuing (csrRead_issuing 0x7b1)
  | pcWrite value =>
      rw [DmOp.commands, ← commandFields_write]
      exact discard_issuing (dmCommand_issuing _ _ _ _)
  | csrRead csr =>
      rw [DmOp.operation, DmOp.commands, wlDmCsrRead, csr_setWidth hencodable]
      simpa using discard_issuing (csrRead_issuing (csr.setWidth 16))
  | csrWrite csr value =>
      rw [DmOp.operation, DmOp.commands, wlDmCsrWrite, csr_setWidth hencodable]
      simpa using discard_issuing (csrWrite_issuing (csr.setWidth 16) value)
  | dcsrRead => exact discard_issuing (csrRead_issuing 0x7b0)
  | dcsrWrite value => exact discard_issuing (csrWrite_issuing 0x7b0 value)
  | memory operation => exact operation.issuing

/-! ## Arguments without an encoding -/

theorem gpr_outside {reg : Word} (hreg : ¬reg < 32) : reg > 31 := by
  have hreg : ¬reg.toNat < 32 := hreg
  change (31 : Nat) < reg.toNat
  omega

theorem wlDmGprRead_rejected {reg : Word} (hreg : ¬reg < 32) :
    wlDmGprRead link reg = throw .usage := by
  unfold wlDmGprRead
  rw [if_pos (gpr_outside hreg)]
  rfl

theorem wlDmGprWrite_rejected {reg : Word} (hreg : ¬reg < 32) (value : Word) :
    wlDmGprWrite link reg value = throw .usage := by
  unfold wlDmGprWrite
  rw [if_pos (gpr_outside hreg)]
  rfl

theorem dmRun_rejected {program : List Word} (hlong : ¬program.length ≤ wlDmProgbufWords)
    (address value : Word) (result : Bool) :
    (dmRun link program address value result).run = pure (.error .usage) := by
  have hload : dmLoadProgram link program = throw .usage := by
    unfold dmLoadProgram
    rw [if_pos (by omega)]
    rfl
  unfold dmRun
  rw [hload]
  rfl

/-- The CSR operations are given a CSR number. -/
def DmOp.CsrInRange : DmOp → Prop
  | csrRead csr => csr < 0x1000
  | csrWrite csr _ => csr < 0x1000
  | _ => True

theorem DmOp.rejected {operation : DmOp} (hcsr : operation.CsrInRange)
    (h : ¬operation.Encodable) : (operation.operation link).run = pure (.error .usage) := by
  cases operation with
  | gprRead reg =>
      rw [DmOp.operation, wlDmGprRead_rejected h]
      rfl
  | gprWrite reg value =>
      rw [DmOp.operation, wlDmGprWrite_rejected h]
      rfl
  | csrRead csr => exact absurd hcsr h
  | csrWrite csr value => exact absurd hcsr h
  | memory operation =>
      cases operation with
      | runWrite program address value =>
          change (wlDmRunWrite link program address value).run = _
          rw [wlDmRunWrite, ExceptT.run_bind, dmRun_rejected h]
          rfl
      | runRead program address =>
          change (do let _ ← wlDmRunRead link program address : Fallible Unit).run = _
          rw [wlDmRunRead, ExceptT.run_bind, dmRun_rejected h]
          rfl
      | _ => exact absurd trivial h
  | _ => exact absurd trivial h

/-- A CSR number is not looked at: a command is asked for, or nothing on a closed link. -/
theorem dmCsrAccess_not_rejected (regno value : Word) (write result : Bool) :
    (do let _ ← dmCsrAccess link regno value write result : Fallible Unit).run ≠
      pure (.error .usage) := by
  obtain ⟨transport, isOpen, chipId, configured⟩ := link
  intro h
  cases transport <;> cases isOpen <;> cases write <;> cases h

/-- An operation issues what it means except for a CSR number that is none. -/
theorem issuesMeant_iff (link : Link) (operation : DmOp) :
    IssuesMeant link operation ↔ operation.CsrInRange := by
  constructor
  · intro hmeant
    cases operation with
    | csrRead csr =>
        by_contra hcsr
        exact dmCsrAccess_not_rejected csr 0 false true (hmeant.rejected hcsr)
    | csrWrite csr value =>
        by_contra hcsr
        exact dmCsrAccess_not_rejected csr value true false (hmeant.rejected hcsr)
    | _ => trivial
  · intro hcsr
    refine ⟨fun hencodable σ world start final made residual hrun => ?_,
      fun h => DmOp.rejected hcsr h⟩
    have hissuing := @DmOp.issuing link _ hencodable
    refine ⟨hissuing.prefix_of_run hrun, fun hdone => ?_⟩
    subst hdone
    exact hissuing.all_of_run hrun

/-- A link as it is once the programmer is open. -/
def openLink : Link := { transport := true, isOpen := true, chipId := 0, configured := false }

/-- Reading the CSR numbered 0x51008 writes x8 and runs the program buffer. -/
theorem not_issuesMeant_csrRead :
    Issuing ((DmOp.csrRead 0x51008).operation openLink)
        [registerCommand (gprRegno 8) true true] ∧
      ¬IssuesMeant openLink (.csrRead 0x51008) := by
  constructor
  · have hfields : commandFields (wlDmCmdGprBase ||| wlDmCmdTransfer ||| 0x51008) =
        registerCommand (gprRegno 8) true true := by decide
    rw [← hfields]
    exact discard_issuing (dmCsrAccess_issuing 0x51008 0 false true)
  · intro hmeant
    have houtside : ¬(0x51008 : Word) < 0x1000 := by decide
    exact dmCsrAccess_not_rejected 0x51008 0 false true (hmeant.rejected houtside)

end WchLink
