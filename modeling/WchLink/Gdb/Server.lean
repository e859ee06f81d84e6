import WchLink.Gdb.Monitor

/-! # Packet handlers and the server

Every handler reads the packet buffer as C does: from the payload on, whatever
earlier packets left behind its NUL included.
-/

namespace WchLink

open Bytes Interaction

def gdbMemoryMax : Word := 1024
def gdbRegPc : Word := 16

/-! ## Documents -/

def buildTargetXml : List Byte :=
  text "<?xml version=\"1.0\"?><!DOCTYPE target SYSTEM \"gdb-target.dtd\"><target><architecture>riscv:rv32</architecture><feature name=\"org.gnu.gdb.riscv.cpu\">" ++
    (List.range gdbRv32eGprs).flatMap (fun reg =>
      text "<reg name=\"x" ++ formatDec reg ++
        text "\" bitsize=\"32\" type=\"uint32\" regnum=\"" ++ formatDec reg ++ text "\"/>") ++
    text "<reg name=\"pc\" bitsize=\"32\" type=\"code_ptr\" regnum=\"" ++
    formatDec gdbRegPc.toNat ++ text "\"/></feature></target>"

def buildMemoryMap (chip : Chip) : List Byte :=
  let block := if chip.eraseSize ≠ 0 then chip.eraseSize else 4096
  text "<?xml version=\"1.0\"?><!DOCTYPE memory-map PUBLIC \"+//IDN gnu.org//DTD GDB Memory Map V1.0//EN\" \"http://sourceware.org/gdb/gdb-memory-map.dtd\"><memory-map><memory type=\"flash\" start=\"0x" ++
    formatHex 8 chip.flashBase ++ text "\" length=\"0x" ++ formatHex 0 chip.flashSize ++
    text "\"><property name=\"blocksize\">" ++ formatDec block.toNat ++
    text "</property></memory><memory type=\"ram\" start=\"0x" ++ formatHex 8 chip.ramOffset ++
    text "\" length=\"0x" ++ formatHex 0 chip.ramSize ++ text "\"/></memory-map>"

/-- One chunk of a document: `l` when it is the last, `m` when more follows. -/
def gdbQxferReply (fuel : Nat) (data : List Byte) (offset requested : Word) : Gdb Unit :=
  let room := min requested.toNat (gdbPacketMax - 1)
  let count := min (data.length - offset.toNat) room
  if offset.toNat ≥ data.length ∨ count = 0 then
    gdbSendText fuel (text "l")
  else
    gdbSendPacket fuel
      ((if offset.toNat + count ≥ data.length then ascii 'l' else ascii 'm') ::
        (data.drop offset.toNat).take count)

/-- The pieces of a `qXfer:object:read:annex:offset,length` packet. -/
structure QxferRequest where
  object : List Byte
  annex : List Byte
  offset : Word
  length : Word
  deriving DecidableEq

def parseQxfer (payload : List Byte) : Option QxferRequest := do
  let objectStart := payload.drop 6
  let colon1 ← strchr (ascii ':') objectStart
  let colon2 ← strchr (ascii ':') (colon1.drop 1)
  let annexStart := colon2.drop 1
  let lastColon ← strrchr (ascii ':') annexStart
  let object := objectStart.take (objectStart.length - colon1.length)
  if object.length ≥ 64 then
    none
  else if !strStarts (colon1.drop 1) "read:" then
    none
  else
    let annex := annexStart.take (annexStart.length - lastColon.length)
    if annex.length ≥ 64 then
      none
    else
      let (offset, rest) ← parseHexU32 (lastColon.drop 1)
      if rest.getD 0 0 ≠ ascii ',' then
        none
      else
        let (length, _) ← parseHexU32 (rest.drop 1)
        return { object, annex, offset, length }

def gdbHandleQxfer (fuel : Nat) (payload : List Byte) : Gdb Unit := do
  let conn ← get
  match parseQxfer payload with
  | none => gdbSendText fuel []
  | some wanted =>
      if wanted.object = text "features" ∧ wanted.annex = text "target.xml" then
        gdbQxferReply fuel buildTargetXml wanted.offset wanted.length
      else if wanted.object = text "memory-map" ∧ wanted.annex = [] then
        gdbQxferReply fuel (buildMemoryMap conn.chip) wanted.offset wanted.length
      else
        gdbSendText fuel []

/-! ## Registers -/

/-- The register values of `g` from `reg` on, least significant byte first. -/
def gdbReadGprs : List Nat → Gdb (Except WlErr (List Byte))
  | [] => return .ok []
  | reg :: rest => do
      match ← onTarget fun link => wlDmGprRead link (BitVec.ofNat 32 reg) with
      | .error status => return .error status
      | .ok value =>
          match ← gdbReadGprs rest with
          | .error status => return .error status
          | .ok reply => return .ok (formatHexU32Le value ++ reply)

def gdbHandleG (fuel : Nat) : Gdb Unit := do
  match ← gdbReadGprs (List.range gdbRv32eGprs) with
  | .error _ => gdbSendText fuel (text "E01")
  | .ok gprs =>
      match ← onTarget wlDmPcRead with
      | .error _ => gdbSendText fuel (text "E01")
      | .ok pc => gdbSendPacket fuel (gprs ++ formatHexU32Le pc)

/-- The register a number of the `p` and `P` packets names. -/
def gdbRegRead (reg : Word) (link : Link) : Fallible Word :=
  if reg = gdbRegPc then wlDmPcRead link else wlDmGprRead link reg

def gdbRegWrite (reg value : Word) (link : Link) : Fallible Unit :=
  if reg = gdbRegPc then wlDmPcWrite link value else wlDmGprWrite link reg value

/-- `p<reg>` reads a register; with an `=` the packet is `P<reg>=<hex>`. -/
def gdbHandleP (fuel : Nat) (payload : List Byte) : Gdb Unit := do
  match parseHexU32 (payload.drop 1) with
  | none => gdbSendText fuel (text "E01")
  | some (reg, _) =>
  if reg > gdbRegPc then
    gdbSendText fuel (text "E01")
  else
    match strchr (ascii '=') payload with
    | none =>
        match ← onTarget (gdbRegRead reg) with
        | .error _ => gdbSendText fuel (text "E01")
        | .ok value => gdbSendText fuel (formatHexU32Le value)
    | some eq =>
        match parseHexU32 (eq.drop 1) with
        | none => gdbSendText fuel (text "E01")
        | some (value, _) =>
            match ← onTarget (gdbRegWrite reg value) with
            | .error _ => gdbSendText fuel (text "E01")
            | .ok () => gdbSendText fuel (text "OK")

/-! ## Memory -/

/-- The address and length of an `m` packet. -/
def parseMemoryRange (payload : List Byte) : Option (Word × Word × List Byte) := do
  let (address, rest) ← parseHexU32 (payload.drop 1)
  if rest.getD 0 0 ≠ ascii ',' then
    none
  else
    let (length, rest) ← parseHexU32 (rest.drop 1)
    return (address, length, rest)

def gdbHandleM (fuel : Nat) (payload : List Byte) : Gdb Unit := do
  match parseMemoryRange payload with
  | none => gdbSendText fuel (text "E01")
  | some (address, length, _) =>
  if length > gdbMemoryMax then
    gdbSendText fuel (text "E01")
  else
    match ← onTarget fun link => filled (wlDmReadBlock link address length.toNat) with
    | .error _ => gdbSendText fuel (text "E01")
    | .ok buffer =>
        if ← StateT.lift (request (.malloc (length.toNat * 2 + 1))) then
          gdbSendPacket fuel (buffer.flatMap formatHexByte)
        else
          gdbSendText fuel (text "E01")

/-- Byte stores to consecutive addresses. -/
def gdbWriteBytes (link : Link) (address : Word) : List Byte → Fallible Unit
  | [] => return
  | byte :: rest => do
      wlDmWrite8 link address byte
      gdbWriteBytes link (address + 1) rest

/-- The address and data of an `M` packet. -/
def parseMemoryWrite (payload : List Byte) : Option (Word × List Byte) := do
  let (address, length, rest) ← parseMemoryRange payload
  if rest.getD 0 0 ≠ ascii ':' ∨ length > gdbMemoryMax then
    none
  else
    let buffer ← parseHexBytes (rest.drop 1) length.toNat
    return (address, buffer)

def gdbHandleMWrite (fuel : Nat) (payload : List Byte) : Gdb Unit := do
  match parseMemoryWrite payload with
  | none => gdbSendText fuel (text "E01")
  | some (address, buffer) =>
      match ← onTarget fun link => gdbWriteBytes link address buffer with
      | .error _ => gdbSendText fuel (text "E01")
      | .ok () => gdbSendText fuel (text "OK")

/-! ## Queries and the dispatcher -/

def gdbHandleQuery (fuel : Nat) (payload : List Byte) : Gdb Unit :=
  if strEq payload "qSupported" then
    gdbSendText fuel
      (text "PacketSize=1000;qXfer:features:read+;qXfer:memory-map:read+;vContSupported+")
  else if strEq payload "qAttached" then
    gdbSendText fuel (text "1")
  else if strEq payload "qC" then
    gdbSendText fuel (text "QC1")
  else if strEq payload "qfThreadInfo" then
    gdbSendText fuel (text "m1")
  else if strEq payload "qsThreadInfo" then
    gdbSendText fuel (text "l")
  else if strEq payload "qTStatus" then
    gdbSendText fuel []
  else if strStarts payload "qRcmd," then
    gdbHandleQRcmd fuel payload
  else if strStarts payload "qXfer:" then
    gdbHandleQxfer fuel payload
  else
    gdbSendText fuel []

/-- `c`: resume, then wait for a stop. -/
def gdbContinue (fuel : Nat) : Gdb Unit := do
  match ← gdbResume with
  | .ok () => gdbWaitForStop fuel
  | .error _ => gdbSendText fuel (text "E01")

/-- `s`: one instruction, then a stop reply. -/
def gdbSingleStep (fuel : Nat) : Gdb Unit := do
  match ← gdbStep with
  | .ok () => gdbSendStop fuel 5
  | .error _ => gdbSendText fuel (text "E01")

/-- The address and kind of a `Z0` or `z0` packet. -/
def parseBreakpoint (payload : List Byte) : Option (Word × Word) := do
  if payload.getD 1 0 ≠ ascii '0' then
    none
  else
    let (address, rest) ← parseHexU32 (payload.drop 3)
    if rest.getD 0 0 ≠ ascii ',' then
      none
    else
      let (kind, _) ← parseHexU32 (rest.drop 1)
      return (address, kind)

/-- `Z0` and `z0`. -/
def gdbHandleZ (fuel : Nat) (payload : List Byte) : Gdb Unit := do
  match parseBreakpoint payload with
  | none => gdbSendText fuel []
  | some (address, kind) =>
      let update :=
        if payload.getD 0 0 = ascii 'Z' then gdbBreakpointInsert else gdbBreakpointRemove
      if ← update address kind then
        gdbSendText fuel (text "OK")
      else
        gdbSendText fuel []

/-- `v` packets. -/
def gdbHandleV (fuel : Nat) (payload : List Byte) : Gdb Unit :=
  if strEq payload "vCont?" then
    gdbSendText fuel (text "vCont;c;C;s;S")
  else if strStarts payload "vCont;" then
    if payload.getD 6 0 = ascii 's' ∨ payload.getD 6 0 = ascii 'S' then
      gdbSingleStep fuel
    else
      gdbContinue fuel
  else
    gdbSendText fuel []

/-- `D`: clear the table, let the core run and end the session. -/
def gdbDetach (fuel : Nat) : Gdb Unit := do
  gdbBreakpointsClear
  let _ ← gdbResume
  gdbSendText fuel (text "OK")
  modify fun conn => { conn with quit := true }

/-- `k`: clear the table and end the session without an answer. -/
def gdbKill : Gdb Unit := do
  gdbBreakpointsClear
  modify fun conn => { conn with quit := true }

/-- Handle one packet; `false` ends the session. -/
def gdbHandlePacket (fuel : Nat) (payload : List Byte) : Gdb Bool := do
  let command := payload.getD 0 0
  if command = ascii '?' then
    gdbSendStop fuel 5
    return true
  else if command = ascii 'g' then
    gdbHandleG fuel
    return true
  else if command = ascii 'p' ∨ command = ascii 'P' then
    gdbHandleP fuel payload
    return true
  else if command = ascii 'm' then
    gdbHandleM fuel payload
    return true
  else if command = ascii 'M' then
    gdbHandleMWrite fuel payload
    return true
  else if command = ascii 'c' then
    gdbContinue fuel
    return true
  else if command = ascii 's' then
    gdbSingleStep fuel
    return true
  else if command = ascii 'Z' ∨ command = ascii 'z' then
    gdbHandleZ fuel payload
    return true
  else if command = ascii 'D' then
    gdbDetach fuel
    return false
  else if command = ascii 'k' then
    gdbKill
    return false
  else if command = ascii 'H' then
    gdbSendText fuel (text "OK")
    return true
  else if command = ascii 'q' then
    gdbHandleQuery fuel payload
    return true
  else if command = ascii 'v' then
    gdbHandleV fuel payload
    return true
  else
    gdbSendText fuel []
    return true

/-! ## The server -/

/-- The packet buffer after a packet was received into it. -/
def fillPacket (packet payload : List Byte) : List Byte :=
  payload ++ 0 :: packet.drop (payload.length + 1)

/-- The packet loop. -/
def gdbServe : Nat → List Byte → Gdb Unit
  | 0, _ => StateT.lift .cut
  | fuel + 1, packet => do
      if (← get).quit then
        return
      match ← StateT.lift (gdbRecvPacket fuel) with
      | none => return
      | some payload =>
          let _ ← gdbHandlePacket fuel (fillPacket packet payload)
          gdbServe fuel (fillPacket packet payload)

/-- `wl_linke_close`, as far as requests go. -/
def closeLink (link : Link) : Program Host Unit := do
  let _ ← onHost (wlLinkeDetach.run link)

/-- A connection fresh from `accept`. -/
def GdbConn.fresh (link : Link) (chip : Chip) : GdbConn :=
  { link, chip, quit := false, breakpoints := fun _ => .zero }

/-- Serve one debugger, then clear the table. -/
def gdbSession (fuel : Nat) (packet : List Byte) : Gdb Unit := do
  gdbServe fuel packet
  gdbBreakpointsClear

/-- Halt the core and route `ebreak` to the debug module, as far as possible. -/
def gdbPrepare : Gdb Unit := do
  let _ ← gdbDmHalt
  let _ ← gdbDmWaitHalted
  let _ ← gdbDmEnableEbreak

/-- The server's way to its debugger: `link` is what `wl_linke_open` filled in.
A failure closes the programmer. -/
def gdbServerOpen (link : Link) (chip : Option Chip) (port : BitVec 16) :
    Program Host (Except WlErr GdbConn) := do
  match chip with
  | none => return .error .usage
  | some chip =>
  let (status, link) ← onHost ((wlLinkeSetInterface (some chip)).run.run link)
  match status with
  | .error status =>
      closeLink link
      return .error status
  | .ok () =>
  match ← onHost (wlLinkeHalt link).run with
  | .error status =>
      closeLink link
      return .error status
  | .ok () =>
  let _ ← gdbPrepare.run (.fresh link chip)
  if !(← request (.listen port)) then
    closeLink link
    return .error .io
  if !(← request .accept) then
    closeLink link
    return .error .io
  return .ok (.fresh link chip)

/-- The server from the moment the programmer is open; `packet` is what the
stack held in the packet buffer's place. -/
def wlGdbServerRun (fuel : Nat) (link : Link) (chip : Option Chip) (port : BitVec 16)
    (packet : List Byte) : Program Host (Except WlErr Unit) := do
  match ← gdbServerOpen link chip port with
  | .error status => return .error status
  | .ok conn =>
      let _ ← (gdbSession fuel packet).run conn
      closeLink conn.link
      return .ok ()

end WchLink
