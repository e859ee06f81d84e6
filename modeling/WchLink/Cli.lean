import WchLink.Gdb.Server

/-! # The command line

Every command opens the programmer, does its work and closes it again, with
many ways out between. There are two ways to close: one lets the target run
first, the other leaves it as it is.
-/

namespace WchLink

open Bytes Interaction

/-! ## What a command asks of its surroundings -/

/-- One thing asked of the surroundings: of the programmer and the machine, of
the USB bus, of the file system, or whether a signal arrived. -/
inductive CliOp
  | host (operation : HostOp)
  | usbOpen (serial : Option String)
  | usbClose
  | stat (path : String)
  | openRead (path : String)
  | fread (size : Nat)
  | openWrite (path : String)
  | fwrite (data : List Byte)
  | fclose
  | print (data : List Byte)
  | stopped

/-- The replies: `stat` tells whether the file is a regular one and its size,
`fwrite` and `print` how much was written, and a flag whether a call succeeded. -/
abbrev CliOp.Reply : CliOp → Type
  | host operation => operation.Reply
  | usbOpen _ => Except WlErr Unit
  | usbClose => Unit
  | stat _ => Option (Bool × Nat)
  | openRead _ => Bool
  | fread _ => List Byte
  | openWrite _ => Bool
  | fwrite _ => Nat
  | fclose => Bool
  | print _ => Nat
  | stopped => Bool

abbrev Cli : PFunctor.{0, 0} := ⟨CliOp, CliOp.Reply⟩

/-- One request of a command. -/
def ask (operation : CliOp) : Program Cli operation.Reply := @Program.perform Cli operation

/-- What the GDB server asks, a command may ask. -/
def onMachine {α : Type} (program : Program Host α) : Program Cli α :=
  program.interpret fun operation => ask (.host operation)

/-- The request layer in a command. -/
def onProgrammer {α : Type} (program : Program Usb α) : Program Cli α :=
  onMachine (onHost program)

/-! ## Opening and closing the programmer -/

/-- Open the programmer; the link is what it fills in. -/
def wlLinkeOpen (serial : Option String) : Program Cli (Except WlErr Link) := do
  match ← ask (.usbOpen serial) with
  | .error status => return .error status
  | .ok () => return .ok wlLinkeAttachTransport

/-- Let the target run and close the programmer. -/
def wlLinkeClose (link : Link) : Program Cli Unit := do
  let _ ← onProgrammer (wlLinkeDetach.run link)
  ask .usbClose

/-- Close the programmer and leave the target as it is. -/
def wlLinkeCloseKeepTarget : Program Cli Unit :=
  ask .usbClose

/-! ## Options and files -/

/-- The parsed command line. -/
structure Options where
  serial : Option String
  chip : Option String
  file : Option String
  extra : List String
  address : Word
  size : Nat
  addressGiven : Bool
  sizeGiven : Bool
  verify : Bool
  port : BitVec 16

/-- `strtoul`'s digits in a base, with what follows them. -/
def strtoulDigits (base : Nat) (value : Nat) : List Char → Nat × List Char
  | [] => (value, [])
  | c :: rest =>
      let digit := if c.isDigit then c.toNat - '0'.toNat else c.toLower.toNat - 'a'.toNat + 10
      if c.isAlphanum ∧ digit < base then
        strtoulDigits base (value * base + digit) rest
      else
        (value, c :: rest)

/-- The base a number is written in, and its digits. -/
def strtoulBase : List Char → Nat × List Char
  | '0' :: x :: c :: rest =>
      if (x = 'x' ∨ x = 'X') ∧ (strtoulDigits 16 0 [c]).2 = [] then (16, c :: rest)
      else (8, '0' :: x :: c :: rest)
  | '0' :: rest => (8, '0' :: rest)
  | digits => (10, digits)

/-- A number of 32 bits, as `strtoul` reads it in base zero; the whole text has
to be the number. -/
def parseU32 (text : String) : Option Word :=
  let chars := text.toList.dropWhile fun c => c = ' ' ∨ '\t' ≤ c ∧ c ≤ '\r'
  let (negative, chars) := match chars with
    | '-' :: rest => (true, rest)
    | '+' :: rest => (false, rest)
    | chars => (false, chars)
  let (base, digits) := strtoulBase chars
  let (magnitude, rest) := strtoulDigits base 0 digits
  if digits = [] ∨ rest ≠ [] then
    none
  else if magnitude ≥ 2 ^ 64 then
    none
  else
    let value := if negative then (2 ^ 64 - magnitude) % 2 ^ 64 else magnitude
    if value > 0xffffffff then none else some (BitVec.ofNat 32 value)

/-- Resolve `--chip`. -/
def requireChip (opts : Options) : Option Chip :=
  match opts.chip with
  | none => none
  | some name => wlChipByName name

/-- Read a whole file into memory. -/
def readFile (path : String) : Program Cli (Except WlErr (List Byte)) := do
  match ← ask (.stat path) with
  | none => return .error .usage
  | some (regular, size) =>
      if !regular then
        return .error .usage
      if size = 0 then
        return .error .usage
      if !(← onMachine (request (.malloc size))) then
        return .error .usage
      if !(← ask (.openRead path)) then
        return .error .usage
      let data ← ask (.fread size)
      let _ ← ask .fclose
      if data.length ≠ size then
        return .error .usage
      return .ok data

/-- Write a buffer to a file. -/
def writeFile (path : String) (data : List Byte) : Program Cli (Except WlErr Unit) := do
  if !(← ask (.openWrite path)) then
    return .error .usage
  if (← ask (.fwrite data)) ≠ data.length then
    let _ ← ask .fclose
    return .error .usage
  if !(← ask .fclose) then
    return .error .usage
  return .ok ()

/-! ## Commands that let the target run -/

/-- `info` -/
def cmdInfo (opts : Options) : Program Cli (Except WlErr Unit) := do
  match opts.chip with
  | some name =>
      match wlChipByName name with
      | none => return .error .usage
      | some _ => return .ok ()
  | none =>
  match ← wlLinkeOpen opts.serial with
  | .error status => return .error status
  | .ok link =>
  let (status, link) ← onProgrammer (wlLinkeIdentifyChip.run.run link)
  match status with
  | .error status =>
      wlLinkeClose link
      return .error status
  | .ok _ =>
      wlLinkeClose link
      return .ok ()

/-- The part a command works on: the one given, or the one detected. -/
def resolveChip (chip : Option Chip) (link : Link) : Program Cli (Except WlErr Chip × Link) :=
  match chip with
  | some chip => return (.ok chip, link)
  | none => onProgrammer (wlLinkeIdentifyChip.run.run link)

/-- `flash` after the checks that need no programmer. -/
def flashImage (opts : Options) (chip : Option Chip) (image : List Byte) :
    Program Cli (Except WlErr Unit) := do
  match ← wlLinkeOpen opts.serial with
  | .error status => return .error status
  | .ok link =>
  let (status, link) ← resolveChip chip link
  match status with
  | .error status =>
      wlLinkeClose link
      return .error status
  | .ok chip =>
  if !wlLinkeCanFlash (some chip) then
    wlLinkeClose link
    return .error .notImplemented
  let address := if opts.addressGiven then opts.address else chip.flashBase
  let length := BitVec.ofNat 64 image.length
  if !wlFlashRangeOk (some chip) address length then
    wlLinkeClose link
    return .error .usage
  let (status, link) ← onProgrammer
    ((wlLinkeWriteFlash (some chip) address (some image) length opts.verify).run.run link)
  wlLinkeClose link
  return status

/-- `flash <file>` -/
def cmdFlash (opts : Options) (file : String) : Program Cli (Except WlErr Unit) := do
  match opts.chip, requireChip opts with
  | some _, none => return .error .usage
  | _, chip =>
  if chip.isSome && !wlLinkeCanFlash chip then
    return .error .notImplemented
  match ← readFile file with
  | .error status => return .error status
  | .ok image =>
  match chip with
  | none => flashImage opts none image
  | some part =>
      let address := if opts.addressGiven then opts.address else part.flashBase
      if !wlFlashRangeOk (some part) address (BitVec.ofNat 64 image.length) then
        return .error .usage
      flashImage opts (some part) image

/-- `read <file>` -/
def cmdRead (opts : Options) (file : String) : Program Cli (Except WlErr Unit) := do
  let wholeFlash := !opts.addressGiven && !opts.sizeGiven
  if !wholeFlash && (!opts.addressGiven || !opts.sizeGiven || opts.size = 0) then
    return .error .usage
  match opts.chip, requireChip opts with
  | some _, none => return .error .usage
  | _, chip =>
  match ← wlLinkeOpen opts.serial with
  | .error status => return .error status
  | .ok link =>
  let (status, link) ← resolveChip chip link
  match status with
  | .error status =>
      wlLinkeClose link
      return .error status
  | .ok chip =>
  let address := if wholeFlash then chip.flashBase else opts.address
  let size := if wholeFlash then chip.flashSize.toNat else opts.size
  if !(← onMachine (request (.malloc size))) then
    wlLinkeClose link
    return .error .usage
  let (status, link) ← onProgrammer ((wlLinkeReadMemory (some chip) address size).run.run link)
  wlLinkeClose link
  match status with
  | .error status => return .error status
  | .ok buffer => writeFile file buffer

/-- An operation of the open programmer, and the close that lets the target run. -/
def cmdOperation (operation : Link → Fallible Unit) (opts : Options) :
    Program Cli (Except WlErr Unit) := do
  match ← wlLinkeOpen opts.serial with
  | .error status => return .error status
  | .ok link =>
  let status ← onProgrammer (operation link).run
  wlLinkeClose link
  return status

/-- `reset` -/
def cmdReset (opts : Options) : Program Cli (Except WlErr Unit) := cmdOperation wlLinkeReset opts

/-- `unbrick` -/
def cmdUnbrick (opts : Options) : Program Cli (Except WlErr Unit) :=
  cmdOperation wlLinkeUnbrick opts

/-- `target resume` -/
def cmdTargetResume (opts : Options) : Program Cli (Except WlErr Unit) :=
  cmdOperation wlLinkeResume opts

/-- `target reset` -/
def cmdTargetReset (opts : Options) : Program Cli (Except WlErr Unit) :=
  cmdOperation wlLinkeReset opts

/-! ## Commands that keep the target halted -/

/-- `target halt` -/
def cmdTargetHalt (opts : Options) : Program Cli (Except WlErr Unit) := do
  match ← wlLinkeOpen opts.serial with
  | .error status => return .error status
  | .ok link =>
  let status ← onProgrammer (wlLinkeHalt link).run
  wlLinkeCloseKeepTarget
  return status

/-- Open the programmer and leave the given part halted. -/
def openTargetDebug (opts : Options) : Program Cli (Except WlErr (Link × Chip)) := do
  match requireChip opts with
  | none => return .error .usage
  | some resolved =>
  match ← wlLinkeOpen opts.serial with
  | .error status => return .error status
  | .ok link =>
  let (status, link) ← onProgrammer ((wlLinkeSetInterface (some resolved)).run.run link)
  match status with
  | .error status =>
      wlLinkeClose link
      return .error status
  | .ok () =>
  match ← onProgrammer (wlLinkeHalt link).run with
  | .error status =>
      wlLinkeClose link
      return .error status
  | .ok () => return .ok (link, resolved)

/-- An operation on the halted part, and the close that keeps it halted. -/
def cmdDebug {α : Type} (operation : Link → Chip → Fallible α) (opts : Options) :
    Program Cli (Except WlErr Unit) := do
  match ← openTargetDebug opts with
  | .error status => return .error status
  | .ok (link, chip) =>
  let status ← onProgrammer (operation link chip).run
  wlLinkeCloseKeepTarget
  return status.map fun _ => ()

/-- `target pc` -/
def cmdTargetPc (opts : Options) : Program Cli (Except WlErr Unit) :=
  cmdDebug (fun link _ => wlDmPcRead link) opts

/-- The registers of `target regs` from `reg` on. -/
def readRegs (link : Link) (reg : Nat) : Nat → Fallible Unit
  | 0 => return
  | count + 1 => do
      let _ ← wlDmGprRead link (BitVec.ofNat 32 reg)
      readRegs link (reg + 1) count

/-- `target regs`: the program counter, then 16 or 32 registers. -/
def cmdTargetRegs (opts : Options) : Program Cli (Except WlErr Unit) :=
  cmdDebug (fun link chip => do
    let _ ← wlDmPcRead link
    readRegs link 0 (if chip.family = "ch32v0" then 16 else 32)) opts

/-- `target read32 <address>` -/
def cmdTargetRead32 (opts : Options) : Program Cli (Except WlErr Unit) :=
  match opts.extra with
  | first :: _ =>
      match parseU32 first with
      | none => return .error .usage
      | some address => cmdDebug (fun link _ => wlDmRead32 link address) opts
  | [] => return .error .usage

/-- `target write32 <address> <value>` -/
def cmdTargetWrite32 (opts : Options) : Program Cli (Except WlErr Unit) :=
  match opts.extra with
  | first :: second :: _ =>
      match parseU32 first, parseU32 second with
      | some address, some value => cmdDebug (fun link _ => wlDmWrite32 link address value) opts
      | _, _ => return .error .usage
  | _ => return .error .usage

/-! ## The terminal -/

/-- What the low byte of DATA0 announces. -/
inductive Announced
  | payload (length : Nat)
  | acknowledgement
  | nothing
  deriving DecidableEq, Repr

/-- A packet of either shape carries one to seven bytes. -/
def announced (low : Byte) : Announced :=
  if low &&& 0x80 ≠ 0 then
    let count := (low &&& 0x3f).toNat
    if 5 ≤ count ∧ count ≤ 11 then .payload (count - 4) else .acknowledgement
  else if 1 ≤ low ∧ low ≤ 7 then
    .payload low.toNat
  else
    .nothing

/-- A packet's bytes: three follow the low byte of DATA0, the others fill DATA1. -/
def terminalBytes (data0 data1 : Word) (length : Nat) : List Byte :=
  (List.range length).map fun i => if i < 3 then byteOf data0 (i + 1) else byteOf data1 (i - 3)

def terminalSleepMs (milliseconds : Nat) : Program Cli Unit :=
  onMachine (request (.sleep (milliseconds * 1000000)))

/-- Poll DATA0 and print what the target writes there, until a signal arrives,
a read fails or the output does not take a packet. -/
def terminalLoop (link : Link) : Nat → Program Cli (Except WlErr Unit)
  | 0 => .cut
  | fuel + 1 => do
      if ← ask .stopped then
        return .ok ()
      match ← onProgrammer (wlLinkeDmiRead link wlDmiData0).run with
      | .error status => return .error status
      | .ok data0 =>
      match announced (byteOf data0 0) with
      | .acknowledgement =>
          let _ ← onProgrammer (wlLinkeDmiWrite link wlDmiData0 0).run
          terminalSleepMs 2
          terminalLoop link fuel
      | .nothing =>
          terminalSleepMs 5
          terminalLoop link fuel
      | .payload length =>
      let data1 ← if length > 3 then onProgrammer (wlLinkeDmiRead link wlDmiData1).run
        else pure (.ok 0)
      match data1 with
      | .error status => return .error status
      | .ok data1 =>
      let _ ← if length > 3 then onProgrammer (wlLinkeDmiWrite link wlDmiData1 0).run
        else pure (.ok ())
      let _ ← onProgrammer (wlLinkeDmiWrite link wlDmiData0 0).run
      if (← ask (.print (terminalBytes data0 data1 length))) ≠ length then
        return .ok ()
      terminalLoop link fuel

/-- `terminal` -/
def cmdTerminal (fuel : Nat) (opts : Options) : Program Cli (Except WlErr Unit) := do
  match opts.chip, requireChip opts with
  | some _, none => return .error .usage
  | _, chip =>
  match ← wlLinkeOpen opts.serial with
  | .error status => return .error status
  | .ok link =>
  let detected := chip.isNone
  let (status, link) ← resolveChip chip link
  match status with
  | .error status =>
      wlLinkeClose link
      return .error status
  | .ok chip =>
  let (status, link) ← onProgrammer ((wlLinkeSetInterface (some chip)).run.run link)
  match status with
  | .error status =>
      wlLinkeClose link
      return .error status
  | .ok () =>
  -- a detection attaches and halts; the target is let run again
  let status ← if detected then onProgrammer (wlLinkeResume link).run else pure (.ok ())
  match status with
  | .error status =>
      wlLinkeClose link
      return .error status
  | .ok () =>
  let status ← terminalLoop link fuel
  wlLinkeClose link
  return status

/-! ## The GDB server -/

/-- The server once the programmer is open, to the close. -/
def gdbServerOpened (fuel : Nat) (link : Link) (chip : Chip) (port : BitVec 16)
    (packet : List Byte) : Program Cli (Except WlErr Unit) := do
  let (status, link) ← onProgrammer ((wlLinkeSetInterface (some chip)).run.run link)
  match status with
  | .error status =>
      wlLinkeClose link
      return .error status
  | .ok () =>
  match ← onProgrammer (wlLinkeHalt link).run with
  | .error status =>
      wlLinkeClose link
      return .error status
  | .ok () =>
  let _ ← onMachine (gdbPrepare.run (.fresh link chip))
  if !(← onMachine (request (.listen port))) then
    wlLinkeClose link
    return .error .io
  if !(← onMachine (request .accept)) then
    wlLinkeClose link
    return .error .io
  let _ ← onMachine ((gdbSession fuel packet).run (.fresh link chip))
  wlLinkeClose link
  return .ok ()

section Host

variable {implementation : (operation : CliOp) → Program Host operation.Reply}
  (hhost : ∀ operation, implementation (.host operation) = request operation)

include hhost

theorem onMachine_interpret {α : Type} (program : Program Host α) :
    (onMachine program).interpret implementation = program := by
  induction program with
  | done value => rfl
  | cut => rfl
  | call operation next ih =>
      show (implementation (.host operation)).bind _ = _
      rw [hhost]
      exact congrArg (Program.call operation) (funext ih)

theorem wlLinkeClose_interpret (hclose : implementation .usbClose = pure ()) (link : Link) :
    (wlLinkeClose link).interpret implementation = closeLink link := by
  unfold wlLinkeClose closeLink onProgrammer
  rw [Program.interpret_bind, onMachine_interpret hhost]
  refine congrArg (_ >>= ·) (funext fun _ => ?_)
  show (implementation .usbClose).bind _ = _
  rw [hclose]
  rfl

/-- To the machine, which sees no USB handle closed, the opened server is the
server of the packet loop's model. -/
theorem gdbServerOpened_interpret (hclose : implementation .usbClose = pure ()) (fuel : Nat)
    (link : Link) (chip : Chip) (port : BitVec 16) (packet : List Byte) :
    (gdbServerOpened fuel link chip port packet).interpret implementation =
      wlGdbServerRun fuel link (some chip) port packet := by
  have hclosing (link : Link) (status : Except WlErr Unit) :
      (wlLinkeClose link >>= fun _ => pure status).interpret implementation =
        closeLink link >>= fun _ => pure status := by
    rw [Program.interpret_bind, wlLinkeClose_interpret hhost hclose]
    rfl
  have hfailing (link : Link) (status : WlErr)
      (rest : Except WlErr GdbConn → Program Host (Except WlErr Unit))
      (hrest : rest (.error status) = pure (.error status)) :
      ((closeLink link >>= fun _ => pure (.error status)) >>= rest) =
        closeLink link >>= fun _ => pure (.error status) := by
    rw [bind_assoc]
    exact congrArg _ (funext fun _ => hrest)
  unfold gdbServerOpened wlGdbServerRun gdbServerOpen onProgrammer
  simp only [bind_assoc]
  rw [Program.interpret_bind, onMachine_interpret hhost]
  refine congrArg (_ >>= ·) (funext fun result => ?_)
  obtain ⟨status, link⟩ := result
  cases status with
  | error status => exact (hclosing link (.error status)).trans (hfailing link status _ rfl).symm
  | ok value =>
      dsimp only
      rw [Program.interpret_bind, onMachine_interpret hhost, bind_assoc]
      refine congrArg (_ >>= ·) (funext fun status => ?_)
      cases status with
      | error status => exact (hclosing link (.error status)).trans (hfailing link status _ rfl).symm
      | ok value =>
          dsimp only
          rw [Program.interpret_bind, onMachine_interpret hhost, bind_assoc]
          refine congrArg (_ >>= ·) (funext fun _ => ?_)
          rw [Program.interpret_bind, onMachine_interpret hhost, bind_assoc]
          refine congrArg (_ >>= ·) (funext fun listening => ?_)
          cases listening with
          | false => exact (hclosing link (.error .io)).trans (hfailing link .io _ rfl).symm
          | true =>
              simp only [Bool.not_true, Bool.false_eq_true, if_false]
              rw [Program.interpret_bind, onMachine_interpret hhost, bind_assoc]
              refine congrArg (_ >>= ·) (funext fun accepted => ?_)
              cases accepted with
              | false => exact (hclosing link (.error .io)).trans (hfailing link .io _ rfl).symm
              | true =>
                  simp only [Bool.not_true, Bool.false_eq_true, if_false]
                  rw [Program.interpret_bind, onMachine_interpret hhost]
                  exact congrArg (_ >>= ·) (funext fun result => hclosing link (.ok ()))

end Host

/-- `gdbserver`; `packet` is what the stack held in the packet buffer's place. -/
def cmdGdbserver (fuel : Nat) (packet : List Byte) (opts : Options) :
    Program Cli (Except WlErr Unit) := do
  match requireChip opts with
  | none => return .error .usage
  | some chip =>
  match ← wlLinkeOpen opts.serial with
  | .error status => return .error status
  | .ok link => gdbServerOpened fuel link chip opts.port packet

/-! ## The commands -/

/-- The commands that open the programmer. -/
inductive Command
  | info
  | flash
  | read
  | reset
  | unbrick
  | targetHalt
  | targetResume
  | targetReset
  | targetPc
  | targetRegs
  | targetRead32
  | targetWrite32
  | terminal
  | gdbserver
  deriving DecidableEq, Repr

/-- `main`'s choice of a command: `flash` and `read` need a file. -/
def Command.run (fuel : Nat) (packet : List Byte) (opts : Options) :
    Command → Program Cli (Except WlErr Unit)
  | info => cmdInfo opts
  | flash =>
      match opts.file with
      | none => return .error .usage
      | some file => cmdFlash opts file
  | read =>
      match opts.file with
      | none => return .error .usage
      | some file => cmdRead opts file
  | reset => cmdReset opts
  | unbrick => cmdUnbrick opts
  | targetHalt => cmdTargetHalt opts
  | targetResume => cmdTargetResume opts
  | targetReset => cmdTargetReset opts
  | targetPc => cmdTargetPc opts
  | targetRegs => cmdTargetRegs opts
  | targetRead32 => cmdTargetRead32 opts
  | targetWrite32 => cmdTargetWrite32 opts
  | terminal => cmdTerminal fuel opts
  | gdbserver => cmdGdbserver fuel packet opts

end WchLink
