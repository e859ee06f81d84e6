import WchLink.Linke

/-! # The debug-module layer

Target memory is reached by running two-instruction programs from the debug
module's program buffer, with the address in x9 and the value in x8. Every
operation is a chain of register accesses, each of which can fail.
-/

namespace WchLink

open Bytes Interaction

/-! ## Register addresses -/

def wlDmiData0 : Byte := 0x04
def wlDmiData1 : Byte := 0x05
def wlDmiDmcontrol : Byte := 0x10
def wlDmiDmstatus : Byte := 0x11
def wlDmiDmabstractcs : Byte := 0x16
def wlDmiDmcommand : Byte := 0x17
def wlDmiDmabstractauto : Byte := 0x18
def wlDmiDmprogbuf0 : Byte := 0x20
def wlDmiDcsr : Word := 0x7b0
def wlDmiDpc : Word := 0x7b1

/-- How many instruction words the program buffer holds. -/
def wlDmProgbufWords : Nat := 8

/-! ## Abstract command words -/

def wlDmCmdGprBase : Word := 0x00200000
def wlDmCmdTransfer : Word := 0x00020000
def wlDmCmdWrite : Word := 0x00010000
def wlDmCmdPostexec : Word := 0x00040000

def wlDmGprRegno (n : Word) : Word := 0x1000 + (n &&& 0x1f)

def wlDmAbstractcsBusy : Word := 0x00001000
def wlDmAbstractcsCmdmask : Word := 0x00000700
def wlDmAbstractcsClear : Word := 0x00000700

/-- How many polls are allowed before the module is called stuck. -/
def wlDmTimeoutUs : Nat := 2000000

/-! ## Issuing commands -/

/-- Poll `abstractcs` until it is not busy; the last value read is returned. -/
def dmPoll (link : Link) : Nat → Word → Fallible Word
  | 0, abstractcs => return abstractcs
  | spins + 1, _ => do
      let abstractcs ← wlLinkeDmiRead link wlDmiDmabstractcs
      if abstractcs &&& wlDmAbstractcsBusy = 0 then
        return abstractcs
      dmPoll link spins abstractcs

/-- Wait for the command to finish; a command error is cleared and reported. -/
def dmWait (link : Link) : Fallible Unit := do
  let abstractcs ← dmPoll link wlDmTimeoutUs 0
  if abstractcs &&& wlDmAbstractcsBusy ≠ 0 then
    throw .target
  if abstractcs &&& wlDmAbstractcsCmdmask ≠ 0 then
    ignore (wlLinkeDmiWrite link wlDmiDmabstractcs wlDmAbstractcsClear)
    throw .target

/-- Issue one access-register command and wait for it; DATA0 is read back when
the caller wants a result. -/
def dmCommand (link : Link) (command value : Word) (transferIn result : Bool) :
    Fallible Word := do
  if transferIn then
    wlLinkeDmiWrite link wlDmiData0 value
  wlLinkeDmiWrite link wlDmiDmcommand command
  dmWait link
  if result then
    wlLinkeDmiRead link wlDmiData0
  else
    return 0

/-- Write one target general-purpose register. -/
def wlDmGprWrite (link : Link) (reg value : Word) : Fallible Unit := do
  if reg > 31 then
    throw .usage
  let _ ← dmCommand link (wlDmCmdGprBase ||| wlDmCmdTransfer ||| wlDmCmdWrite |||
    wlDmGprRegno reg) value true false

/-- Read one target general-purpose register. -/
def wlDmGprRead (link : Link) (reg : Word) : Fallible Word := do
  if reg > 31 then
    throw .usage
  dmCommand link (wlDmCmdGprBase ||| wlDmCmdTransfer ||| wlDmGprRegno reg) 0 false true

/-- Read the halted target's program counter. -/
def wlDmPcRead (link : Link) : Fallible Word :=
  dmCommand link (wlDmCmdGprBase ||| wlDmCmdTransfer ||| wlDmiDpc) 0 false true

/-- Write the halted core's program counter. -/
def wlDmPcWrite (link : Link) (value : Word) : Fallible Unit := do
  let _ ← dmCommand link (wlDmCmdGprBase ||| wlDmCmdTransfer ||| wlDmCmdWrite ||| wlDmiDpc)
    value true false

/-- Access a CSR by its abstract-command register number. -/
def dmCsrAccess (link : Link) (regno value : Word) (write result : Bool) : Fallible Word :=
  let command := wlDmCmdGprBase ||| wlDmCmdTransfer ||| regno
  dmCommand link (if write then command ||| wlDmCmdWrite else command) value write result

def wlDmDcsrRead (link : Link) : Fallible Word :=
  dmCsrAccess link wlDmiDcsr 0 false true

def wlDmDcsrWrite (link : Link) (value : Word) : Fallible Unit := do
  let _ ← dmCsrAccess link wlDmiDcsr value true false

def wlDmCsrRead (link : Link) (csr : Word) : Fallible Word :=
  dmCsrAccess link csr 0 false true

def wlDmCsrWrite (link : Link) (csr value : Word) : Fallible Unit := do
  let _ ← dmCsrAccess link csr value true false

/-! ## Running a program -/

/-- Write the remaining words of a program from program-buffer slot `i` on. -/
def dmLoadWords (link : Link) : Nat → List Word → Fallible Unit
  | _, [] => return
  | i, word :: rest => do
      wlLinkeDmiWrite link (wlDmiDmprogbuf0 + BitVec.ofNat 8 i) word
      dmLoadWords link (i + 1) rest

/-- Load a program, with auto-execution off. -/
def dmLoadProgram (link : Link) (program : List Word) : Fallible Unit := do
  if program.length > wlDmProgbufWords then
    throw .usage
  wlLinkeDmiWrite link wlDmiDmabstractauto 0
  dmLoadWords link 0 program

/-- The command that moves DATA0 to x8 and then runs the program buffer. -/
def runCommand : Word :=
  wlDmCmdGprBase ||| wlDmCmdTransfer ||| wlDmCmdWrite ||| wlDmCmdPostexec ||| wlDmGprRegno 8

/-- x9 = address, then x8 = value with postexec, then read x8 back if asked. -/
def dmRun (link : Link) (program : List Word) (address value : Word) (result : Bool) :
    Fallible Word := do
  dmLoadProgram link program
  wlDmGprWrite link 9 address
  let _ ← dmCommand link runCommand value true false
  if result then
    wlDmGprRead link 8
  else
    return 0

def wlDmRunWrite (link : Link) (program : List Word) (address value : Word) : Fallible Unit := do
  let _ ← dmRun link program address value false

def wlDmRunRead (link : Link) (program : List Word) (address : Word) : Fallible Word :=
  dmRun link program address 0 true

/-! ## Instruction encoding -/

/-- `sb`, `sh` or `sw` with a zero offset. -/
def wlRvStore (sizeLog2 src base : Word) : Word :=
  let funct3 := sizeLog2 &&& 0x7
  let rs2 := (src &&& 0x1f) <<< 20
  let rs1 := (base &&& 0x1f) <<< 15
  funct3 <<< 12 ||| rs2 ||| rs1 ||| 0x23

/-- `lb`, `lh`, `lw`, `lbu` or `lhu` with a zero offset. -/
def wlRvLoad (funct3 dest base : Word) : Word :=
  let rs1 := (base &&& 0x1f) <<< 15
  let rd := (dest &&& 0x1f) <<< 7
  (funct3 &&& 0x7) <<< 12 ||| rs1 ||| rd ||| 0x03

/-- `addi`, with a signed 12-bit immediate. -/
def wlRvAddi (dest src immediate : Word) : Word :=
  let imm := immediate &&& 0xfff
  let rs1 := (src &&& 0x1f) <<< 15
  let rd := (dest &&& 0x1f) <<< 7
  imm <<< 20 ||| rs1 ||| rd ||| 0x13

/-- `bne`, with a signed 13-bit even offset. -/
def wlRvBne (src1 src2 immediate : Word) : Word :=
  let imm12 := (immediate >>> 12) &&& 0x1
  let imm11 := (immediate >>> 11) &&& 0x1
  let imm10To5 := (immediate >>> 5) &&& 0x3f
  let imm4To1 := (immediate >>> 1) &&& 0xf
  let rs1 := (src1 &&& 0x1f) <<< 15
  let rs2 := (src2 &&& 0x1f) <<< 20
  imm12 <<< 31 ||| imm10To5 <<< 25 ||| rs2 ||| rs1 ||| 0x1 <<< 12 ||| imm4To1 <<< 8 |||
    imm11 <<< 7 ||| 0x63

/-- `ebreak`, which hands control back to the debug module. -/
def wlRvEbreak : Word := 0x00100073

/-! ## Memory access -/

/-- An access width: a byte, a halfword or a word. -/
inductive Width
  | byte
  | half
  | word
  deriving DecidableEq, Repr

/-- The width's base-two logarithm, as the encoder takes it. -/
def Width.log2 : Width → Word
  | .byte => 0
  | .half => 1
  | .word => 2

/-- `sb`/`sh`/`sw x8, 0(x9); ebreak` -/
def writeProgram (size : Width) : List Word := [wlRvStore size.log2 8 9, wlRvEbreak]

/-- `lbu`/`lh`/`lw x8, 0(x9); ebreak` -/
def readProgram (size : Width) : List Word :=
  [wlRvLoad (if size = .word then 0x2 else if size = .half then 0x1 else 0x4) 8 9, wlRvEbreak]

def wlDmWrite32 (link : Link) (address value : Word) : Fallible Unit :=
  wlDmRunWrite link (writeProgram .word) address value

def wlDmWrite16 (link : Link) (address : Word) (value : BitVec 16) : Fallible Unit :=
  wlDmRunWrite link (writeProgram .half) address (value.setWidth 32)

def wlDmWrite8 (link : Link) (address : Word) (value : Byte) : Fallible Unit :=
  wlDmRunWrite link (writeProgram .byte) address (value.setWidth 32)

def dmReadSized (link : Link) (size : Width) (address : Word) : Fallible Word :=
  wlDmRunRead link (readProgram size) address

def wlDmRead32 (link : Link) (address : Word) : Fallible Word :=
  dmReadSized link .word address

def wlDmRead16 (link : Link) (address : Word) : Fallible (BitVec 16) := do
  let word ← dmReadSized link .half address
  return word.setWidth 16

/-- Operations that fill a caller's buffer; an error leaves the bytes stored
so far. -/
abbrev Filling : Type → Type := ExceptT WlErr (StateT (List Byte) (Program Usb))

instance : MonadLift Fallible Filling :=
  ⟨fun operation => ExceptT.mk (StateT.lift operation.run)⟩

/-- The unaligned head: one byte per program-buffer round trip. Returns the
address and length still to read. -/
def readBlockHead (link : Link) (address : Word) : Nat → Filling (Word × Nat)
  | 0 => return (address, 0)
  | length + 1 =>
      if address &&& 3 ≠ 0 then do
        let word ← dmReadSized link .byte address
        modify (· ++ [byteOf word 0])
        readBlockHead link (address + 1) length
      else
        return (address, length + 1)

/-- The aligned middle, a word at a time. -/
def readBlockWords (link : Link) (address : Word) : Nat → Filling (Word × Nat)
  | length + 4 => do
      let word ← wlDmRead32 link address
      modify (· ++ [byteOf word 0, byteOf word 1, byteOf word 2, byteOf word 3])
      readBlockWords link (address + 4) length
  | length => return (address, length)

/-- The tail, a byte at a time. -/
def readBlockTail (link : Link) (address : Word) : Nat → Filling Unit
  | 0 => return
  | length + 1 => do
      let word ← dmReadSized link .byte address
      modify (· ++ [byteOf word 0])
      readBlockTail link (address + 1) length

/-- Read a run of target memory into the caller's buffer. -/
def wlDmReadBlock (link : Link) (address : Word) (length : Nat) : Filling Unit := do
  let (address, length) ← readBlockHead link address length
  let (address, length) ← readBlockWords link address length
  readBlockTail link address length

/-- Run a filling operation on an empty buffer and return the buffer. -/
def filled (operation : Filling Unit) : Fallible (List Byte) :=
  ExceptT.mk do
    let (status, bytes) ← operation.run.run []
    return status.map fun _ => bytes

end WchLink
