import WchLink.Gdb.Target

/-! # Stop replies and monitor commands

Console output goes to the debugger as `O` packets; a monitor command is the
text of a hex-encoded `qRcmd` packet.
-/

namespace WchLink

open Bytes Interaction

/-- The general-purpose registers of RV32E. -/
def gdbRv32eGprs : Nat := 16

/-- Send console output, as many characters a packet as fit. -/
def gdbSendOutput (fuel : Nat) (string : List Byte) : Gdb Unit := do
  if 0 < string.length then
    let count := min string.length ((gdbPacketMax - 1) / 2)
    gdbSendPacket fuel (ascii 'O' :: (string.take count).flatMap formatHexByte)
    gdbSendOutput fuel (string.drop count)
termination_by string.length
decreasing_by
  simp only [gdbPacketMax, List.length_drop]
  omega

def gdbMonitorHelpText : List Byte := text
  "wchlink monitor commands:\n  help                     this text\n  reset                    reset and halt\n  halt                     halt the core\n  resume                   resume the core\n  info                     dmstatus/dcsr/pc\n  regs                     x0-x15 and pc\n  read32 <addr>            read one word\n  write32 <addr> <value>   write one word\n  getcsr <csr>             read a CSR\n  setcsr <csr> <value>     write a CSR\n"

def gdbMonitorHelp (fuel : Nat) : Gdb Unit := gdbSendOutput fuel gdbMonitorHelpText

/-- `x%-2u = 0x%08x\n` -/
def registerLine (reg : Nat) (value : Word) : List Byte :=
  text "x" ++ formatDecLeft 2 reg ++ text " = 0x" ++ formatHex 8 value ++ text "\n"

/-- The general-purpose registers from `reg` on; `false` when a read failed. -/
def gdbMonitorGprs (fuel : Nat) : List Nat → Gdb Bool
  | [] => return true
  | reg :: rest => do
      match ← onTarget fun link => wlDmGprRead link (BitVec.ofNat 32 reg) with
      | .error _ =>
          gdbSendOutput fuel (text "register read failed\n")
          return false
      | .ok value =>
          gdbSendOutput fuel (registerLine reg value)
          gdbMonitorGprs fuel rest

def gdbMonitorRegs (fuel : Nat) : Gdb Unit := do
  if ← gdbMonitorGprs fuel (List.range gdbRv32eGprs) then
    match ← onTarget wlDmPcRead with
    | .error _ => return
    | .ok pc => gdbSendOutput fuel (text "pc  = 0x" ++ formatHex 8 pc ++ text "\n")

/-- One line of `info`, left out when its register cannot be read. -/
def gdbInfoLine (fuel : Nat) (label : List Byte) (read : Link → Fallible Word) : Gdb Unit := do
  match ← onTarget read with
  | .error _ => return
  | .ok value => gdbSendOutput fuel (label ++ text " = 0x" ++ formatHex 8 value ++ text "\n")

def gdbMonitorInfo (fuel : Nat) : Gdb Unit := do
  gdbInfoLine fuel (text "dmstatus") fun link => wlLinkeDmiRead link wlDmiDmstatus
  gdbInfoLine fuel (text "dcsr    ") wlDmDcsrRead
  gdbInfoLine fuel (text "pc      ") wlDmPcRead

def gdbMonitorReset (fuel : Nat) : Gdb Unit := do
  onTargetIgnored fun link => wlLinkeDmiWrite link wlDmiDmcontrol 0x80000003
  StateT.lift (request (.sleep 10000000))
  onTargetIgnored fun link => wlLinkeDmiWrite link wlDmiDmcontrol 0x80000001
  onTargetIgnored fun link => wlLinkeDmiWrite link wlDmiDmcontrol 0x80000001
  let _ ← gdbDmWaitHalted
  let _ ← gdbDmEnableEbreak
  gdbSendOutput fuel (text "reset/halt\n")

def gdbMonitorHalt (fuel : Nat) : Gdb Unit := do
  let _ ← gdbDmHalt
  let _ ← gdbDmWaitHalted
  let _ ← gdbDmEnableEbreak
  gdbSendOutput fuel (text "halted\n")

def gdbMonitorResume (fuel : Nat) : Gdb Unit := do
  let _ ← gdbResume
  gdbSendOutput fuel (text "running\n")

/-- A command on one number: the line it answers, or its failure. -/
def gdbMonitorRead (fuel : Nat) (argument : List Byte) (read : Link → Word → Fallible Word)
    (line : Word → Word → List Byte) (failure : List Byte) : Gdb Unit := do
  match parseHexU32 argument with
  | none => gdbSendOutput fuel failure
  | some (number, _) =>
      match ← onTarget fun link => read link number with
      | .error _ => gdbSendOutput fuel failure
      | .ok value => gdbSendOutput fuel (line number value)

/-- A command on two numbers: `OK`, or its failure. -/
def gdbMonitorWrite (fuel : Nat) (first second : List Byte)
    (write : Link → Word → Word → Fallible Unit) (failure : List Byte) : Gdb Unit := do
  match parseHexU32 first, parseHexU32 second with
  | some (number, _), some (value, _) =>
      match ← onTarget fun link => write link number value with
      | .error _ => gdbSendOutput fuel failure
      | .ok () => gdbSendOutput fuel (text "OK\n")
  | _, _ => gdbSendOutput fuel failure

def gdbMonitorRead32 (fuel : Nat) (argument : List Byte) : Gdb Unit :=
  gdbMonitorRead fuel argument wlDmRead32
    (fun address value =>
      text "0x" ++ formatHex 8 address ++ text " = 0x" ++ formatHex 8 value ++ text "\n")
    (text "read32 failed\n")

def gdbMonitorWrite32 (fuel : Nat) (first second : List Byte) : Gdb Unit :=
  gdbMonitorWrite fuel first second wlDmWrite32 (text "write32 failed\n")

def gdbMonitorGetcsr (fuel : Nat) (argument : List Byte) : Gdb Unit :=
  gdbMonitorRead fuel argument wlDmCsrRead
    (fun csr value =>
      text "csr 0x" ++ formatHex 3 csr ++ text " = 0x" ++ formatHex 8 value ++ text "\n")
    (text "getcsr failed\n")

def gdbMonitorSetcsr (fuel : Nat) (first second : List Byte) : Gdb Unit :=
  gdbMonitorWrite fuel first second wlDmCsrWrite (text "setcsr failed\n")

/-- The separators of a monitor command's words. -/
def monitorDelimiters : List Byte := text " \t\r\n"

/-- The commands that take arguments; `rest` is what follows the command word. -/
def gdbMonitorArguments (fuel : Nat) (word rest : List Byte) : Gdb Unit :=
  let unknown := gdbSendOutput fuel (text "unknown monitor command\n")
  match strtok monitorDelimiters rest with
  | none => unknown
  | some (arg1, rest) =>
      if word = text "read32" then
        gdbMonitorRead32 fuel arg1
      else
        match strtok monitorDelimiters rest with
        | none => if word = text "getcsr" then gdbMonitorGetcsr fuel arg1 else unknown
        | some (arg2, _) =>
            if word = text "write32" then
              gdbMonitorWrite32 fuel arg1 arg2
            else if word = text "getcsr" then
              gdbMonitorGetcsr fuel arg1
            else if word = text "setcsr" then
              gdbMonitorSetcsr fuel arg1 arg2
            else
              unknown

def gdbMonitorCommand (fuel : Nat) (command : List Byte) : Gdb Unit :=
  match strtok monitorDelimiters (cstring command) with
  | none => gdbMonitorHelp fuel
  | some (word, rest) =>
      if word = text "help" then
        gdbMonitorHelp fuel
      else if word = text "reset" then
        gdbMonitorReset fuel
      else if word = text "halt" then
        gdbMonitorHalt fuel
      else if word = text "resume" ∨ word = text "continue" then
        gdbMonitorResume fuel
      else if word = text "info" ∨ word = text "status" then
        gdbMonitorInfo fuel
      else if word = text "regs" then
        gdbMonitorRegs fuel
      else
        gdbMonitorArguments fuel word rest

def gdbHandleQRcmd (fuel : Nat) (payload : List Byte) : Gdb Unit :=
  match gdbDecodeHexString (payload.drop 6) 256 with
  | none => gdbSendText fuel (text "E01")
  | some command => do
      gdbMonitorCommand fuel command
      gdbSendText fuel (text "OK")

/-! ## Stop replies -/

/-- `T%02xthread:1;` -/
def gdbStopReply (signal : Word) : List Byte :=
  text "T" ++ formatHex 2 signal ++ text "thread:1;"

def gdbSendStop (fuel : Nat) (signal : Word) : Gdb Unit :=
  gdbSendText fuel (gdbStopReply signal)

/-- Whether the debugger has sent the interrupt byte. -/
def gdbInterrupted (fuel : Nat) : Program Host Bool := do
  if ← request .poll then
    match ← gdbRecvByte fuel with
    | some c => return c = 0x03
    | none => return false
  else
    return false

/-- Poll the debugger for an interrupt and the target for a stop. -/
def gdbWaitForStop : Nat → Gdb Unit
  | 0 => StateT.lift .cut
  | fuel + 1 => do
      if ← StateT.lift (gdbInterrupted fuel) then
        let _ ← gdbDmHalt
        let _ ← gdbDmWaitHalted
        gdbSendStop fuel 2
      else if ← gdbDmIsHalted then
        gdbSendStop fuel 5
      else
        gdbWaitForStop fuel

end WchLink
