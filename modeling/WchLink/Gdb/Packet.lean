import WchLink.Gdb.Host
import WchLink.Gdb.Text
import WchLink.Target

/-! # The connection and its packets

A packet is `$`, the escaped payload, `#` and two checksum digits; each side
acknowledges the other's with `+` or `-`.
-/

namespace WchLink

open Bytes Interaction

def gdbPacketMax : Nat := 4096
def gdbMaxBreakpoints : Nat := 8

/-- One slot of the breakpoint table. -/
structure GdbBreakpoint where
  used : Bool
  address : Word
  kind : Word
  original : List Byte
  deriving DecidableEq

/-- A cleared slot. -/
def GdbBreakpoint.zero : GdbBreakpoint :=
  { used := false, address := 0, kind := 0, original := [0, 0, 0, 0] }

/-- One debugger connection. -/
structure GdbConn where
  link : Link
  chip : Chip
  quit : Bool
  breakpoints : Fin gdbMaxBreakpoints → GdbBreakpoint

/-- The server's own computations. -/
abbrev Gdb : Type → Type := StateT GdbConn (Program Host)

/-- A programmer operation of the server, with its status. -/
def onTarget {α : Type} (operation : Link → Fallible α) : Gdb (Except WlErr α) := do
  let conn ← get
  StateT.lift (onHost (operation conn.link).run)

/-! ## Sending -/

/-- The bytes an escape is needed for. -/
def gdbEscaped (c : Byte) : Bool := c = ascii '$' ∨ c = ascii '#' ∨ c = ascii '}' ∨ c = ascii '*'

/-- One payload byte as it is put on the wire. -/
def gdbEscape (c : Byte) : List Byte := if gdbEscaped c then [ascii '}', c ^^^ 0x20] else [c]

/-- The sender's checksum, taken over the payload. -/
def gdbChecksum (payload : List Byte) : Byte := payload.foldl (· + ·) 0

/-- A payload between its delimiters. -/
def gdbFrame (payload : List Byte) : List Byte :=
  ascii '$' :: payload.flatMap gdbEscape ++ ascii '#' :: formatHexByte (gdbChecksum payload)

/-- Wait for the acknowledgement; a `-` sends the frame again. -/
def gdbAwaitAck (framed : List Byte) : Nat → Gdb Unit
  | 0 => StateT.lift .cut
  | fuel + 1 => do
      match ← StateT.lift (gdbRecvByte fuel) with
      | none => modify fun conn => { conn with quit := true }
      | some reply =>
          if reply = ascii '+' then
            return
          if reply = ascii '-' then
            if !(← StateT.lift (gdbSendAll fuel framed)) then
              modify fun conn => { conn with quit := true }
          gdbAwaitAck framed fuel

def gdbSendPacket (fuel : Nat) (payload : List Byte) : Gdb Unit := do
  let framed := gdbFrame payload
  if !(← StateT.lift (gdbSendAll fuel framed)) then
    modify fun conn => { conn with quit := true }
    return
  gdbAwaitAck framed fuel

def gdbSendText (fuel : Nat) (string : List Byte) : Gdb Unit :=
  gdbSendPacket fuel (cstring string)

/-! ## Receiving -/

/-- Skip to the start of a packet. -/
def gdbRecvStart : Nat → Program Host (Option Unit)
  | 0 => .cut
  | fuel + 1 => do
      match ← gdbRecvByte fuel with
      | none => return none
      | some c => if c = ascii '$' then return some () else gdbRecvStart fuel

/-- Collect the raw packet up to its `#`; what does not fit is dropped. -/
def gdbRecvRaw : Nat → List Byte → Program Host (Option (List Byte))
  | 0, _ => .cut
  | fuel + 1, raw => do
      match ← gdbRecvByte fuel with
      | none => return none
      | some c =>
          if c = ascii '#' then
            return some raw
          else
            gdbRecvRaw fuel (if raw.length + 1 < gdbPacketMax then raw ++ [c] else raw)

/-- One checksum digit. -/
def gdbRecvNibble (fuel : Nat) : Program Host (Option (BitVec 4)) := do
  match ← gdbRecvByte fuel with
  | none => return none
  | some c => return hexNibble c

/-- Undo the escapes of a raw packet; `none` when one has nothing to escape. -/
def gdbUnescape (max : Nat) : List Byte → List Byte → Option (List Byte)
  | [], out => some out
  | c :: raw, out =>
      if c = ascii '}' then
        match raw with
        | [] => none
        | next :: raw =>
            gdbUnescape max raw (if out.length + 1 < max then out ++ [next ^^^ 0x20] else out)
      else
        gdbUnescape max raw (if out.length + 1 < max then out ++ [c] else out)

/-- Receive one packet; `none` where the source returns -1. -/
def gdbRecvPacket (fuel : Nat) : Program Host (Option (List Byte)) := do
  match ← gdbRecvStart fuel with
  | none => return none
  | some () =>
  match ← gdbRecvRaw fuel [] with
  | none => return none
  | some raw =>
  match ← gdbRecvNibble fuel with
  | none => return none
  | some high =>
  match ← gdbRecvNibble fuel with
  | none => return none
  | some low =>
  let received : Byte := high ++ low
  if gdbChecksum raw ≠ received then
    let _ ← gdbSendAll fuel [ascii '-']
    return none
  let _ ← gdbSendAll fuel [ascii '+']
  return gdbUnescape gdbPacketMax raw []

end WchLink
