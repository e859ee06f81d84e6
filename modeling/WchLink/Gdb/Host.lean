import WchLink.Linke

/-! # The debugger connection and the machine it runs on

The GDB server talks to two parties: the debugger over one socket and the
target through the programmer. Everything it asks of either, and of the
machine it runs on, is a request of the host.
-/

namespace WchLink

open Bytes Interaction

/-- What the server asks of its surroundings. -/
inductive HostOp
  | usb (request : List Byte)
  | recv
  | send (bytes : List Byte)
  | poll
  | sleep (nanoseconds : Nat)
  | malloc (size : Nat)
  | listen (port : BitVec 16)
  | accept
  deriving DecidableEq

/-- `recv` of one byte: the byte, end of file, `EINTR` or another error. -/
inductive Received
  | byte (value : Byte)
  | closed
  | interrupted
  | failed
  deriving DecidableEq, Repr

/-- `send`: the number of bytes taken, `EINTR` or another error. -/
inductive Sent
  | wrote (count : Nat)
  | interrupted
  | failed
  deriving DecidableEq, Repr

/-- The replies to a request; a flag says whether the call succeeded, or that
`poll` reported input. -/
abbrev HostOp.Reply : HostOp → Type
  | usb _ => Except Int (List Byte)
  | recv => Received
  | send _ => Sent
  | poll => Bool
  | sleep _ => Unit
  | malloc _ => Bool
  | listen _ => Bool
  | accept => Bool

abbrev Host : PFunctor.{0, 0} := ⟨HostOp, HostOp.Reply⟩

/-- One request of the host. -/
def request (operation : HostOp) : Program Host operation.Reply := @Program.perform Host operation

/-- A programmer request is one of the host's. -/
def viaUsb (operation : List Byte) : Program Host (Except Int (List Byte)) :=
  request (.usb operation)

/-- The request layer on the host. -/
def onHost {α : Type} (program : Program Usb α) : Program Host α :=
  program.interpret viaUsb

/-! ## The socket

Loops that wait for the other side carry a budget; spending it cuts the run.
-/

/-- Send everything; `false` when the connection failed. -/
def gdbSendAll : Nat → List Byte → Program Host Bool
  | _, [] => return true
  | 0, _ :: _ => .cut
  | fuel + 1, bytes => do
      match ← request (.send bytes) with
      | .interrupted => gdbSendAll fuel bytes
      | .failed => return false
      | .wrote count => gdbSendAll fuel (bytes.drop count)

/-- Receive one byte; `none` when there is none to come. -/
def gdbRecvByte : Nat → Program Host (Option Byte)
  | 0 => .cut
  | fuel + 1 => do
      match ← request .recv with
      | .byte value => return some value
      | .closed => return none
      | .interrupted => gdbRecvByte fuel
      | .failed => return none

end WchLink
