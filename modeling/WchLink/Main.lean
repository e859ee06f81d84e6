import WchLink.Interaction.Implement
import WchLink.CommandLine
import WchLink.UsbDevices

/-! # The program

`main` reads the command line, brings the USB library up, runs one command and takes
the library down again. What a command asks of the programmer is carried out by the
library, over the handle the link carries.
-/

namespace WchLink

open Bytes Interaction UsbLink

/-! ## Where the program runs -/

/-- A call to the USB library, or anything else a command asks for. -/
inductive StationOp
  | library (operation : LibusbOp)
  | other (operation : CliOp)

abbrev StationOp.Reply : StationOp → Type
  | library operation => operation.Reply
  | other operation => operation.Reply

abbrev Station : PFunctor.{0, 0} := ⟨StationOp, StationOp.Reply⟩

def onLibrary {α : Type} (program : Program Libusb α) : Program Station α :=
  program.interpret fun operation => @Program.perform Station (.library operation)

/-- The bytes of a text. -/
def textBytes (text : String) : List Byte := text.toUTF8.data.toList.map UInt8.toBitVec

/-- What the link's `ctx` is for: opening leaves a handle in it, requests and the close
use it, and without one there is no device. -/
def carryOut : (operation : CliOp) → Option Nat → Program Station (operation.Reply × Option Nat)
  | .usbOpen serial, _ => do
      let (status, opened) ← onLibrary
        (((UsbLink.wlLinkeOpen (serial.map textBytes)).run.run .zero).interpret (usbBus true))
      return (status, opened.ctx)
  | .usbClose, none => return ((), none)
  | .usbClose, some handle => do
      onLibrary (wlUsbClose handle)
      return ((), none)
  | .host (.usb _), none => return (.error libusbErrorNoDevice, none)
  | .host (.usb request), some handle => do
      let reply ← onLibrary (usbTransportCommand handle request)
      return (reply, some handle)
  | operation, ctx => do
      let reply ← @Program.perform Station (.other operation)
      return (reply, ctx)

/-! ## Commands -/

/-- A command that opens a programmer, from a link that has none. -/
def runSession (fuel : Nat) (packet : List Byte) (opts : Options) (command : Command) :
    Program Station (Except WlErr Unit) := do
  let (status, _) ← (command.run fuel packet opts).implement carryOut none
  return status

/-- `chips`: the table is printed. -/
def cmdChips : Except WlErr Unit := .ok ()

/-- `programmer <sub>`; the subcommand stands in the file's place. -/
def cmdProgrammer (opts : Options) : Program Station (Except WlErr Unit) :=
  let sub := opts.file.getD "info"
  let serial := opts.serial.map textBytes
  if sub = "info" then do
    let status ← onLibrary (cmdProgrammerInfo true serial)
    return status.map fun _ => ()
  else if sub = "list" then do
    let status ← onLibrary (cmdProgrammerList true)
    return status.map fun _ => ()
  else if sub = "rv" then do
    let status ← onLibrary (cmdProgrammerRv true serial)
    return status.map fun _ => ()
  else if sub = "iap" then do
    let status ← onLibrary (cmdProgrammerIap true serial)
    return status.map fun _ => ()
  else
    return .error .usage

/-- `target <sub>` -/
def targetCommand (sub : String) : Option Command :=
  if sub = "halt" then some .targetHalt
  else if sub = "resume" then some .targetResume
  else if sub = "reset" then some .targetReset
  else if sub = "pc" then some .targetPc
  else if sub = "regs" then some .targetRegs
  else if sub = "read32" then some .targetRead32
  else if sub = "write32" then some .targetWrite32
  else none

def cmdTarget (fuel : Nat) (packet : List Byte) (opts : Options) :
    Program Station (Except WlErr Unit) :=
  match opts.file.bind targetCommand with
  | none => return .error .usage
  | some command => runSession fuel packet opts command

/-- `main`'s choice of a command. -/
def mainCommand (fuel : Nat) (packet : List Byte) (opts : Options) (command : String) :
    Program Station (Except WlErr Unit) :=
  if command = "chips" then return cmdChips
  else if command = "info" then runSession fuel packet opts .info
  else if command = "flash" then runSession fuel packet opts .flash
  else if command = "read" then runSession fuel packet opts .read
  else if command = "programmer" then cmdProgrammer opts
  else if command = "target" then cmdTarget fuel packet opts
  else if command = "reset" then runSession fuel packet opts .reset
  else if command = "unbrick" then runSession fuel packet opts .unbrick
  else if command = "gdbserver" then runSession fuel packet opts .gdbserver
  else if command = "terminal" then runSession fuel packet opts .terminal
  else return .error .usage

/-! ## `main` -/

def statusToExit : Except WlErr Unit → Nat
  | .ok () => 0
  | .error .usage => 2
  | .error .noDevice | .error .access => 3
  | .error _ => 1

/-- The program, from its arguments to its exit code. -/
def main (fuel : Nat) (packet : List Byte) (args : List String) : Program Station Nat :=
  match parseArguments .initial args with
  | .exit code => return code
  | .commandLine line =>
      match line.command with
      | none => return 2
      | some command => do
          match ← onLibrary (wlUsbGlobalInit false) with
          | .error _ => return 1
          | .ok () =>
              let status ← mainCommand fuel packet line.opts command
              onLibrary (wlUsbGlobalExit true)
              return statusToExit status

end WchLink
