import Mathlib.Logic.Function.Basic
import Mathlib.Tactic.SplitIfs
import WchLink.Interaction.World
import WchLink.DebugModule

/-! # The simulated programmer and target

The repository's test double: it answers the same requests a programmer does,
interprets the programs loaded into the program buffer, and implements the
CH32V00x flash controller closely enough to tell a correct write sequence from
an incorrect one.
-/

namespace WchLink

open Bytes Interaction

/-! ## The target's memory and flash controller -/

def simFlashCtrl : Word := 0x40022000
def simFlashKeyr : Word := 0x40022004
def simFlashStatr : Word := 0x4002200c
def simFlashCtlr : Word := 0x40022010
def simFlashAddr : Word := 0x40022014
def simFlashModekeyr : Word := 0x40022024

def simKey1 : Word := 0x45670123
def simKey2 : Word := 0xcdef89ab

def simCtlrPg : Word := 0x00000001
def simCtlrPer : Word := 0x00000002
def simCtlrStrt : Word := 0x00000040
def simCtlrLock : Word := 0x00000080
def simCtlrPagePg : Word := 0x00010000
def simCtlrPageEr : Word := 0x00020000
def simCtlrBufRst : Word := 0x00080000

def simStatrBsy : Word := 0x00000001
def simStatrWrprterr : Word := 0x00000010

/-- How many status reads report BSY after an operation starts. -/
def simBusyReads : Nat := 2

/-- The target side of the simulator. Memories are functions of the offset;
only offsets below the part's sizes are ever accessed. -/
structure SimTarget where
  chip : Chip
  flash : Nat → Byte
  ram : Nat → Byte
  keyStage : Word
  modeKeyStage : Word
  unlocked : Bool
  modeUnlocked : Bool
  ctlr : Word
  addr : Word
  pageBuf : Nat → Byte
  busyReads : Nat
  erases : Nat
  programs : Nat
  programErrors : Nat

namespace SimTarget

/-- The flash array has the part's flash size. -/
def flashSize (target : SimTarget) : Nat := target.chip.flashSize.toNat

/-- The RAM array has the part's RAM size. -/
def ramSize (target : SimTarget) : Nat := target.chip.ramSize.toNat

end SimTarget

def simIsFlash (address : Word) : Bool :=
  address &&& 0xff000000 = 0x08000000 ∨ address &&& 0xff000000 = 0

/-- The mapping at 0x08000000 and its alias at zero land on the same offset. -/
def simFlashOffset (address : Word) : Nat := (address &&& 0x00ffffff).toNat

def simIsRam (target : SimTarget) (address : Word) : Bool :=
  address ≥ target.chip.ramOffset ∧
    address.toNat < target.chip.ramOffset.toNat + target.ramSize

def simIsCtrl (address : Word) : Bool :=
  address ≥ simFlashCtrl ∧ address < simFlashCtrl + 0x400

/-- `count` bytes from `offset` on set to `value`, within the array. -/
def fillBytes (memory : Nat → Byte) (offset count limit : Nat) (value : Byte) : Nat → Byte :=
  fun a => if offset ≤ a ∧ a < offset + count ∧ a < limit then value else memory a

/-- A program can only clear bits. -/
def programBytes (memory : Nat → Byte) (offset count limit : Nat) (wanted : Nat → Byte) :
    Nat → Byte :=
  fun a =>
    if offset ≤ a ∧ a < offset + count ∧ a < limit then memory a &&& wanted (a - offset)
    else memory a

/-- How many of the programmed bytes asked for a bit to be set. -/
def programConflicts (memory : Nat → Byte) (offset count limit : Nat) (wanted : Nat → Byte) :
    Nat :=
  (List.range count).countP fun i =>
    offset + i < limit ∧ memory (offset + i) &&& wanted i ≠ wanted i

def simFlashProgramPage (target : SimTarget) : SimTarget :=
  let offset := simFlashOffset target.addr
  if !target.modeUnlocked then
    { target with programErrors := target.programErrors + 1 }
  else
    { target with
      programErrors := target.programErrors +
        programConflicts target.flash offset 64 target.flashSize target.pageBuf
      flash := programBytes target.flash offset 64 target.flashSize target.pageBuf
      programs := target.programs + 1
      busyReads := simBusyReads }

/-- The control-register case of `simCtrlWrite`: what a write to it starts. -/
def simWriteCtlr (target : SimTarget) (value : Word) : SimTarget :=
  let target := { target with ctlr := value }
  if value &&& simCtlrBufRst ≠ 0 then
    if target.modeUnlocked then
      { target with pageBuf := fun _ => 0xff, busyReads := simBusyReads }
    else
      { target with programErrors := target.programErrors + 1, busyReads := simBusyReads }
  else if value &&& simCtlrStrt = 0 then
    target
  else if value &&& simCtlrPageEr ≠ 0 then
    if !target.modeUnlocked then
      { target with programErrors := target.programErrors + 1 }
    else
      { target with
        flash := fillBytes target.flash (simFlashOffset target.addr) 64 target.flashSize 0xff
        erases := target.erases + 1
        busyReads := simBusyReads }
  else if value &&& simCtlrPagePg ≠ 0 then
    simFlashProgramPage target
  else if value &&& simCtlrPer ≠ 0 then
    { target with
      flash := fillBytes target.flash (simFlashOffset target.addr) 1024 target.flashSize 0xff
      erases := target.erases + 1
      busyReads := simBusyReads }
  else
    { target with busyReads := simBusyReads }

theorem simWriteCtlr_ctlr (target : SimTarget) (value : Word) :
    (simWriteCtlr target value).ctlr = value := by
  unfold simWriteCtlr simFlashProgramPage
  dsimp only
  split_ifs <;> rfl

def simCtrlWrite (target : SimTarget) (address value : Word) : SimTarget :=
  if address = simFlashKeyr then
    if value = simKey1 then
      { target with keyStage := 1 }
    else if value = simKey2 ∧ target.keyStage = 1 then
      { target with unlocked := true, keyStage := 0 }
    else
      { target with keyStage := 0 }
  else if address = simFlashModekeyr then
    if value = simKey1 then
      { target with modeKeyStage := 1 }
    else if value = simKey2 ∧ target.modeKeyStage = 1 then
      { target with modeUnlocked := true, modeKeyStage := 0 }
    else
      { target with modeKeyStage := 0 }
  else if address = simFlashAddr then
    { target with addr := value }
  else if address = simFlashCtlr then
    simWriteCtlr target value
  else
    target

def simCtrlRead (target : SimTarget) (address : Word) : SimTarget × Word :=
  if address = simFlashStatr then
    ({ target with busyReads := target.busyReads - 1 },
      (if target.busyReads > 0 then simStatrBsy else 0) |||
        (if target.programErrors > 0 then simStatrWrprterr else 0))
  else if address = simFlashCtlr then
    (target, if target.unlocked then target.ctlr &&& ~~~simCtlrLock
      else target.ctlr ||| simCtlrLock)
  else if address = simFlashAddr then
    (target, target.addr)
  else
    (target, 0)

/-- `count` bytes from `offset` on, least significant first. -/
def loadBytes (memory : Nat → Byte) (offset : Nat) : Nat → Word
  | 0 => 0
  | i + 1 => loadBytes memory offset i ||| ((memory (offset + i)).setWidth 32 <<< (8 * i))

/-- The low `count` bytes of `value` stored from `offset` on. -/
def storeBytes (memory : Nat → Byte) (offset count : Nat) (value : Word) : Nat → Byte :=
  fun a => if offset ≤ a ∧ a < offset + count then byteOf value (a - offset) else memory a

/-- The value of a load; halfword loads sign-extend. -/
def loadValue (memory : Nat → Byte) (offset sizeLog2 : Nat) : Word :=
  let result := loadBytes memory offset (2 ^ sizeLog2)
  if sizeLog2 = 1 then (result.setWidth 16).signExtend 32 else result

/-- A store into the flash array's address range. -/
def simFlashStore (target : SimTarget) (offset sizeLog2 : Nat) (value : Word) : SimTarget :=
  if target.modeUnlocked ∧ target.ctlr &&& simCtlrPagePg ≠ 0 ∧ sizeLog2 = 2 then
    -- fast page program: the word goes to the page buffer
    if offset % 64 + 4 ≤ 64 then
      { target with
        pageBuf := storeBytes target.pageBuf (offset % 64) 4 value
        busyReads := simBusyReads }
    else
      { target with programErrors := target.programErrors + 1 }
  else if !target.unlocked ∨ target.ctlr &&& simCtlrPg = 0 then
    { target with programErrors := target.programErrors + 1 }
  else
    { target with
      programErrors := target.programErrors +
        programConflicts target.flash offset (2 ^ sizeLog2) target.flashSize (byteOf value)
      flash := programBytes target.flash offset (2 ^ sizeLog2) target.flashSize (byteOf value)
      programs := target.programs + 1
      busyReads := simBusyReads }

/-- One memory access from the simulated core: `value` is stored, or is what a
load leaves in place where nothing answers. -/
def simAccess (target : SimTarget) (address : Word) (sizeLog2 : Nat) (write : Bool)
    (value : Word) : SimTarget × Word :=
  if simIsCtrl address then
    if write then
      (simCtrlWrite target (address &&& ~~~3) value, value)
    else
      simCtrlRead target (address &&& ~~~3)
  else if simIsFlash address then
    let offset := simFlashOffset address
    if offset + 2 ^ sizeLog2 > target.flashSize then
      (target, value)
    else if write then
      (simFlashStore target offset sizeLog2 value, value)
    else
      (target, loadValue target.flash offset sizeLog2)
  else if simIsRam target address then
    let offset := (address - target.chip.ramOffset).toNat
    if offset + 2 ^ sizeLog2 > target.ramSize then
      (target, value)
    else if write then
      ({ target with ram := storeBytes target.ram offset (2 ^ sizeLog2) value }, value)
    else
      (target, loadValue target.ram offset sizeLog2)
  else
    (target, if write then value else 0)

/-! ## Running a program-buffer program -/

/-- The debug module and the halted core's registers. -/
structure SimModule where
  dmi : Byte → Word
  gpr : Nat → Word
  progbuf : Nat → Word
  pc : Word
  dpc : Word
  dcsr : Word
  cmderr : Word
  illegal : Nat

/-- The simulated programmer with its target. -/
structure Sim where
  configured : Bool
  chipId : Byte
  interfaceSpeed : Byte
  attached : Bool
  failAttachWhileAttached : Bool
  resets : Nat
  dm : SimModule
  target : SimTarget

/-- A simulator for a part: an unprogrammed flash array, cleared RAM, everything
else zero. -/
def simNew (chip : Chip) : Sim where
  configured := false
  chipId := 0
  interfaceSpeed := 0
  attached := false
  failAttachWhileAttached := false
  resets := 0
  dm :=
    { dmi := fun _ => 0, gpr := fun _ => 0, progbuf := fun _ => 0, pc := 0
      dpc := chip.flashBase, dcsr := 0, cmderr := 0, illegal := 0 }
  target :=
    { chip, flash := fun _ => 0xff, ram := fun _ => 0, keyStage := 0, modeKeyStage := 0
      unlocked := false, modeUnlocked := false, ctlr := 0, addr := 0
      pageBuf := fun _ => 0xff, busyReads := 0, erases := 0, programs := 0, programErrors := 0 }

/-- The simulator with its interface set. -/
def simConfigured (chip : Chip) : Sim := { simNew chip with configured := true }

/-- How many instructions a program may run before it is called stuck. -/
def simMaxSteps : Nat := 256

def signExtend (value : Word) (bits : Nat) : Word :=
  let mask : Word := 1 <<< (bits - 1)
  (value ^^^ mask) - mask

def SimModule.fault (dm : SimModule) : SimModule := { dm with illegal := dm.illegal + 1 }

def SimModule.advance (dm : SimModule) (by' : Word) : SimModule := { dm with pc := dm.pc + by' }

def SimModule.setGpr (dm : SimModule) (reg : Nat) (value : Word) : SimModule :=
  { dm with gpr := Function.update dm.gpr reg (if reg = 0 then 0 else value) }

/-- Run the program buffer until `ebreak`; `false` on a bad instruction. -/
def simRunProgbuf : Nat → SimModule → SimTarget → SimModule × SimTarget × Bool
  | 0, dm, target => (dm.fault, target, false)
  | steps + 1, dm, target =>
      let instruction := dm.progbuf (dm.pc / 4).toNat
      let opcode := instruction &&& 0x7f
      let rd := ((instruction >>> 7) &&& 0x1f).toNat
      let funct3 := (instruction >>> 12) &&& 0x7
      let rs1 := ((instruction >>> 15) &&& 0x1f).toNat
      let rs2 := ((instruction >>> 20) &&& 0x1f).toNat
      let next (dm : SimModule) (target : SimTarget) : SimModule × SimTarget × Bool :=
        if dm.pc / 4 ≥ 8 then (dm.fault, target, false)
        else simRunProgbuf steps dm target
      if opcode = 0x23 then
        let imm := ((instruction >>> 25) <<< 5) ||| ((instruction >>> 7) &&& 0x1f)
        let accessed := simAccess target (dm.gpr rs1 + imm) (funct3 &&& 3).toNat true (dm.gpr rs2)
        next (dm.advance 4) accessed.1
      else if opcode = 0x03 then
        let imm := instruction >>> 20
        let accessed := simAccess target (dm.gpr rs1 + imm) (funct3 &&& 3).toNat false 0
        let value := if funct3 = 4 then accessed.2 &&& 0xff else accessed.2
        next ((dm.setGpr rd value).advance 4) accessed.1
      else if opcode = 0x13 then
        let imm := signExtend (instruction >>> 20) 12
        next ((dm.setGpr rd (dm.gpr rs1 + imm)).advance 4) target
      else if opcode = 0x63 then
        let imm := ((instruction >>> 31) <<< 12) ||| (((instruction >>> 25) &&& 0x3f) <<< 5) |||
          (((instruction >>> 8) &&& 0xf) <<< 1) ||| ((instruction >>> 7) &&& 0x1)
        if dm.gpr rs1 ≠ dm.gpr rs2 then
          next (dm.advance (signExtend imm 13)) target
        else
          next (dm.advance 4) target
      else if opcode = 0x73 ∧ instruction >>> 20 = 1 then
        (dm, target, true)
      else
        (dm.fault, target, false)

/-! ## The debug module -/

/-- The register transfer of an abstract command; `none` when the register is
not supported. -/
def simTransfer (dm : SimModule) (aarsize regno : Word) (write : Bool) : Option SimModule :=
  if regno = wlDmiDpc ∨ regno = wlDmiDcsr then
    if write then
      if regno = wlDmiDpc then
        some { dm with dpc := dm.dmi wlDmiData0 }
      else
        some { dm with dcsr := dm.dmi wlDmiData0 }
    else
      some { dm with
        dmi := Function.update dm.dmi wlDmiData0 (if regno = wlDmiDpc then dm.dpc else dm.dcsr) }
  else if regno ≥ 0x1000 ∧ regno ≤ 0x101f then
    let gpr := (regno - 0x1000).toNat
    if write then
      some (dm.setGpr gpr (dm.dmi wlDmiData0))
    else
      let value := dm.gpr gpr
      let value := if aarsize = 0 then value &&& 0xff
        else if aarsize = 1 then value &&& 0xffff else value
      some { dm with dmi := Function.update dm.dmi wlDmiData0 value }
  else
    none

def simExecuteCommand (dm : SimModule) (target : SimTarget) (command : Word) :
    SimModule × SimTarget :=
  let cmdtype := (command >>> 24) &&& 0x7f
  let aarsize := (command >>> 20) &&& 0x7
  let postexec := (command >>> 18) &&& 1 = 1
  let transfer := (command >>> 17) &&& 1 = 1
  let write := (command >>> 16) &&& 1 = 1
  let regno := command &&& 0xffff
  if cmdtype ≠ 0 then
    ({ dm with cmderr := 2 }, target)
  else
    match (if transfer then simTransfer dm aarsize regno write else some dm) with
    | none => ({ dm with cmderr := 2 }, target)
    | some dm =>
        if postexec then
          let ran := simRunProgbuf simMaxSteps { dm with pc := 0 } target
          (ran.1, ran.2.1)
        else
          (dm, target)

def simDmiWrite (dm : SimModule) (target : SimTarget) (reg : Byte) (value : Word) :
    SimModule × SimTarget :=
  let dm := if reg < 128 then { dm with dmi := Function.update dm.dmi reg value } else dm
  if reg = wlDmiDmabstractcs then
    ({ dm with cmderr := dm.cmderr &&& ~~~((value >>> 8) &&& 7) }, target)
  else if wlDmiDmprogbuf0 ≤ reg ∧ reg ≤ wlDmiDmprogbuf0 + 7 then
    ({ dm with progbuf := Function.update dm.progbuf (reg - wlDmiDmprogbuf0).toNat value }, target)
  else if reg = wlDmiDmcommand then
    simExecuteCommand dm target value
  else
    (dm, target)

/-- Never busy: the command has run by the time the programmer answers. -/
def simDmiRead (dm : SimModule) (reg : Byte) : Word :=
  if reg = wlDmiDmabstractcs then dm.cmderr <<< 8
  else if reg < 128 then dm.dmi reg
  else 0

/-! ## The transport -/

/-- How a programmer answers a request it cannot satisfy. -/
def simRefuse : List Byte := [0x81, 0x55, 0x01, 0x00]

def simControl (sim : Sim) (sub : Byte) : List Byte × Sim :=
  if sub = 0x01 then
    ([0x82, 0x0d, 0x04, 0x02, 0x07, 18, 0x00], sim)
  else if sub = 0x02 then
    if sim.attached && sim.failAttachWhileAttached then
      ([0x82, 0x0d, 0x05, 0x09], sim)
    else
      let chip := sim.target.chip
      ([0x82, 0x0d, 0x05, chip.linkeId, (chip.modelId >>> 8).setWidth 8, chip.modelId.setWidth 8,
        0x05, 0x00], { sim with attached := true })
  else if sub = 0x13 then
    ([0x82, 0x0d, 0x05, 0x09],
      if sim.attached then { sim with resets := sim.resets + 1 } else sim)
  else
    ([0x82, 0x0d, 0x05, 0x09], if sub = 0xff then { sim with attached := false } else sim)

/-- The nine bytes a register access is answered with. -/
def simRegReply (reg : Byte) (value : Word) : List Byte :=
  [0x82, 0x08, 0x06, reg, byteOf value 3, byteOf value 2, byteOf value 1, byteOf value 0, 0x00]

def simRegister (sim : Sim) (reg : Byte) (value : Word) (operation : Byte) : List Byte × Sim :=
  if !sim.configured then
    (simRefuse, sim)
  else if operation = 0x02 then
    let written := simDmiWrite sim.dm sim.target reg value
    (simRegReply reg (simDmiRead written.1 reg), { sim with dm := written.1, target := written.2 })
  else if operation ≠ 0x01 then
    (simRefuse, sim)
  else
    (simRegReply reg (simDmiRead sim.dm reg), sim)

/-- The simulated programmer's answer to one request. -/
def simCommand (request : List Byte) (sim : Sim) : Except Int (List Byte) × Sim :=
  let byte := fun i => request.getD i 0
  if request.length < 3 ∨ byte 0 ≠ 0x81 then
    (.error (-1), sim)
  else if byte 1 = 0x0d then
    let answer := simControl sim (byte 3)
    (.ok answer.1, answer.2)
  else if byte 1 = 0x0c then
    if request.length < 5 then
      (.ok simRefuse, sim)
    else
      (.ok [0x82, 0x0c, 0x02, byte 3],
        { sim with chipId := byte 3, interfaceSpeed := byte 4, configured := true })
  else if byte 1 = 0x0b then
    (.ok [0x82, 0x0b, 0x01], { sim with attached := false })
  else if byte 1 = 0x08 then
    if request.length < 9 then
      (.ok simRefuse, sim)
    else
      let answer := simRegister sim (byte 3) (wordLe (byte 7) (byte 6) (byte 5) (byte 4)) (byte 8)
      (.ok answer.1, answer.2)
  else
    (.ok simRefuse, sim)

/-- The simulator as the environment of the request layer. -/
def simulator : Handler Usb Sim := simCommand

end WchLink
