import WchLink.Flash
import WchLink.Gdb.Packet

/-! # What the server does to the target

Halting, resuming and stepping through DMCONTROL, DMSTATUS and DCSR, and the
software breakpoint table.
-/

namespace WchLink

open Bytes Interaction

/-! ## Run control -/

def gdbDmcontrolHalt : Word := 0x80000001
def gdbDmcontrolResume : Word := 0x40000001
def gdbDmstatusAnyrunning : Word := 0x00000400
def gdbDcsrStep : Word := 0x00000004

/-- ebreakm/ebreaks/stopcount/stoptime: ensure ebreak enters debug mode. -/
def gdbDcsrEbreakBits : Word := 0xb600

/-- How many polls a halt is given. -/
def gdbHaltPolls : Nat := 2000

/-- A request the target's status of which is not looked at. -/
def onTargetIgnored {α : Type} (operation : Link → Fallible α) : Gdb Unit := do
  let _ ← onTarget operation

def gdbDmHalt : Gdb (Except WlErr Unit) :=
  onTarget fun link => wlLinkeDmiWrite link wlDmiDmcontrol gdbDmcontrolHalt

/-- A status that cannot be read counts as halted. -/
def gdbDmIsHalted : Gdb Bool := do
  match ← onTarget fun link => wlLinkeDmiRead link wlDmiDmstatus with
  | .error _ => return true
  | .ok status => return status &&& gdbDmstatusAnyrunning = 0

/-- Poll until the core is halted, a millisecond apart. -/
def gdbPollHalted : Nat → Gdb (Except WlErr Unit)
  | 0 => return .error .target
  | polls + 1 => do
      if ← gdbDmIsHalted then
        return .ok ()
      StateT.lift (request (.sleep 1000000))
      gdbPollHalted polls

def gdbDmWaitHalted : Gdb (Except WlErr Unit) := gdbPollHalted gdbHaltPolls

/-- Route `ebreak` to the debug module. -/
def gdbDmEnableEbreak : Gdb (Except WlErr Unit) := do
  match ← onTarget wlDmDcsrRead with
  | .error status => return .error status
  | .ok dcsr => onTarget fun link => wlDmDcsrWrite link (dcsr ||| gdbDcsrEbreakBits)

def gdbResume : Gdb (Except WlErr Unit) := do
  let _ ← gdbDmEnableEbreak
  onTarget fun link => wlLinkeDmiWrite link wlDmiDmcontrol gdbDmcontrolResume

/-- Resume for one instruction and wait for the core to stop again. -/
def gdbResumeAndWait : Gdb (Except WlErr Unit) := do
  match ← gdbResume with
  | .error status => return .error status
  | .ok () => gdbDmWaitHalted

def gdbStep : Gdb (Except WlErr Unit) := do
  match ← onTarget wlDmDcsrRead with
  | .error status => return .error status
  | .ok dcsr =>
  let dcsr := dcsr ||| (gdbDcsrEbreakBits ||| gdbDcsrStep)
  match ← onTarget fun link => wlDmDcsrWrite link dcsr with
  | .error status => return .error status
  | .ok () =>
  let status ← gdbResumeAndWait
  onTargetIgnored fun link => wlDmDcsrWrite link (dcsr &&& ~~~gdbDcsrStep)
  return status

/-! ## Breakpoints -/

def gdbAddrIsFlash (chip : Chip) (address : Word) : Bool := wlFlashRangeOk (some chip) address 1

def gdbNormaliseFlash (chip : Chip) (address : Word) : Word :=
  if chip.flashBase = 0x08000000 ∧ address &&& 0xff000000 = 0 then
    address ||| 0x08000000
  else
    address

/-- A block read with what it stored before it failed. -/
def readInto (link : Link) (address : Word) (length : Nat) :
    Program Usb (Except WlErr Unit × List Byte) :=
  (wlDmReadBlock link address length).run.run []

/-- Fill a buffer of the server's own from target memory; what is not reached
keeps its old bytes. -/
def gdbMemRead (address : Word) (buffer : List Byte) (length : Nat) :
    Gdb (Except WlErr Unit × List Byte) := do
  let conn ← get
  let (status, bytes) ← StateT.lift (onHost (readInto conn.link address length))
  return (status, bytes ++ buffer.drop bytes.length)

/-- `memcpy(buffer + offset, bytes, length)` -/
def copyInto (buffer : List Byte) (offset : Nat) (bytes : List Byte) : List Byte :=
  buffer.take offset ++ bytes ++ buffer.drop (offset + bytes.length)

/-- Replace bytes of target memory: a whole page in flash, one store elsewhere. -/
def gdbMemPatch (address : Word) (bytes : List Byte) : Gdb (Except WlErr Unit) := do
  let conn ← get
  if gdbAddrIsFlash conn.chip address then
    let pageSize := conn.chip.eraseSize
    if pageSize = 0 ∨ pageSize > 4096 then
      return .error .usage
    if !(← StateT.lift (request (.malloc pageSize.toNat))) then
      return .error .io
    let pageStart := address &&& ~~~(pageSize - 1)
    match ← onTarget fun link => filled (wlDmReadBlock link pageStart pageSize.toNat) with
    | .error status => return .error status
    | .ok page =>
        let page := copyInto page (address - pageStart).toNat bytes
        onTarget fun link => wlFlashWrite link (some conn.chip)
          (gdbNormaliseFlash conn.chip pageStart) (some page) (pageSize.setWidth 64)
  else if bytes.length = 2 then
    onTarget fun link => wlDmWrite16 link address (bytes.getD 1 0 ++ bytes.getD 0 0)
  else if bytes.length = 4 then
    onTarget fun link => wlDmWrite32 link address
      (wordLe (bytes.getD 0 0) (bytes.getD 1 0) (bytes.getD 2 0) (bytes.getD 3 0))
  else
    return .error .usage

/-- `c.ebreak` or `ebreak`, as the bytes of a breakpoint's kind. -/
def gdbReplacement (kind : Word) : List Byte :=
  if kind = 4 then [0x73, 0x00, 0x10, 0x00] else [0x02, 0x90, 0x00, 0x00]

def GdbConn.setBreakpoint (conn : GdbConn) (slot : Fin gdbMaxBreakpoints)
    (breakpoint : GdbBreakpoint) : GdbConn :=
  { conn with breakpoints := Function.update conn.breakpoints slot breakpoint }

/-- The first slot with a property. -/
def GdbConn.findSlot (conn : GdbConn) (wanted : GdbBreakpoint → Bool) :
    Option (Fin gdbMaxBreakpoints) :=
  (List.finRange gdbMaxBreakpoints).find? fun slot => wanted (conn.breakpoints slot)

/-- Save the bytes at `address` in a free slot and put the break instruction
there. -/
def gdbBreakpointInsert (address kind : Word) : Gdb Bool := do
  if (kind ≠ 2 ∧ kind ≠ 4) ∨ address % kind ≠ 0 then
    return false
  match (← get).findSlot fun breakpoint => !breakpoint.used with
  | none => return false
  | some slot =>
  let breakpoint := (← get).breakpoints slot
  let (status, original) ← gdbMemRead address breakpoint.original kind.toNat
  let breakpoint := { breakpoint with original }
  modify fun conn => conn.setBreakpoint slot breakpoint
  match status with
  | .error _ => return false
  | .ok () =>
  match ← gdbMemPatch address ((gdbReplacement kind).take kind.toNat) with
  | .error _ => return false
  | .ok () =>
  modify fun conn => conn.setBreakpoint slot { breakpoint with used := true, address, kind }
  return true

/-- Put a breakpoint's saved bytes back and free its slot. -/
def gdbBreakpointRemove (address kind : Word) : Gdb Bool := do
  match (← get).findSlot fun breakpoint =>
      breakpoint.used && breakpoint.address == address && breakpoint.kind == kind with
  | none => return false
  | some slot =>
  let breakpoint := (← get).breakpoints slot
  match ← gdbMemPatch breakpoint.address (breakpoint.original.take breakpoint.kind.toNat) with
  | .error _ => return false
  | .ok () =>
  modify fun conn => conn.setBreakpoint slot { breakpoint with used := false }
  return true

/-- Put one slot's bytes back, whether or not the target takes them. -/
def gdbBreakpointClear (slot : Fin gdbMaxBreakpoints) : Gdb Unit := do
  let breakpoint := (← get).breakpoints slot
  if breakpoint.used then
    let _ ← gdbMemPatch breakpoint.address (breakpoint.original.take breakpoint.kind.toNat)
    modify fun conn => conn.setBreakpoint slot { breakpoint with used := false }

/-- Clear the table, slot by slot. -/
def gdbBreakpointsClear : Gdb Unit := (List.finRange gdbMaxBreakpoints).forM gdbBreakpointClear

end WchLink
