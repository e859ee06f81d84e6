import Mathlib.Control.Monad.Writer
import WchLink.FlashStores
import WchLink.Gdb.MemoryPackets
import WchLink.Gdb.Numerals
import WchLink.Gdb.Wire

/-! # One reply for each request

Every handler ends in one packet on every path. Console output precedes it for
`qRcmd` alone, and decodes to the text of the monitor command.
-/

namespace WchLink

open Bytes Interaction

/-! ## The monitor's text

The monitor commands with their output collected instead of sent.
-/

/-- Programs of the server that write to the console. -/
abbrev Console : Type → Type := WriterT (List Byte) Gdb

def monitorGprsText : List Nat → Console Bool
  | [] => return true
  | reg :: rest => do
      match ← onTarget fun link => wlDmGprRead link (BitVec.ofNat 32 reg) with
      | .error _ =>
          tell (text "register read failed\n")
          return false
      | .ok value =>
          tell (registerLine reg value)
          monitorGprsText rest

def monitorRegsText : Console Unit := do
  if ← monitorGprsText (List.range gdbRv32eGprs) then
    match ← onTarget wlDmPcRead with
    | .error _ => return
    | .ok pc => tell (text "pc  = 0x" ++ formatHex 8 pc ++ text "\n")

def infoLineText (label : List Byte) (read : Link → Fallible Word) : Console Unit := do
  match ← onTarget read with
  | .error _ => return
  | .ok value => tell (label ++ text " = 0x" ++ formatHex 8 value ++ text "\n")

def monitorInfoText : Console Unit := do
  infoLineText (text "dmstatus") fun link => wlLinkeDmiRead link wlDmiDmstatus
  infoLineText (text "dcsr    ") wlDmDcsrRead
  infoLineText (text "pc      ") wlDmPcRead

def monitorResetText : Console Unit := do
  onTargetIgnored fun link => wlLinkeDmiWrite link wlDmiDmcontrol 0x80000003
  (StateT.lift (request (.sleep 10000000)) : Gdb Unit)
  onTargetIgnored fun link => wlLinkeDmiWrite link wlDmiDmcontrol 0x80000001
  onTargetIgnored fun link => wlLinkeDmiWrite link wlDmiDmcontrol 0x80000001
  let _ ← gdbDmWaitHalted
  let _ ← gdbDmEnableEbreak
  tell (text "reset/halt\n")

def monitorHaltText : Console Unit := do
  let _ ← gdbDmHalt
  let _ ← gdbDmWaitHalted
  let _ ← gdbDmEnableEbreak
  tell (text "halted\n")

def monitorResumeText : Console Unit := do
  let _ ← gdbResume
  tell (text "running\n")

def monitorReadText (argument : List Byte) (read : Link → Word → Fallible Word)
    (line : Word → Word → List Byte) (failure : List Byte) : Console Unit := do
  match parseHexU32 argument with
  | none => tell failure
  | some (number, _) =>
      match ← onTarget fun link => read link number with
      | .error _ => tell failure
      | .ok value => tell (line number value)

def monitorWriteText (first second : List Byte) (write : Link → Word → Word → Fallible Unit)
    (failure : List Byte) : Console Unit := do
  match parseHexU32 first, parseHexU32 second with
  | some (number, _), some (value, _) =>
      match ← onTarget fun link => write link number value with
      | .error _ => tell failure
      | .ok () => tell (text "OK\n")
  | _, _ => tell failure

def monitorRead32Text (argument : List Byte) : Console Unit :=
  monitorReadText argument wlDmRead32
    (fun address value =>
      text "0x" ++ formatHex 8 address ++ text " = 0x" ++ formatHex 8 value ++ text "\n")
    (text "read32 failed\n")

def monitorGetcsrText (argument : List Byte) : Console Unit :=
  monitorReadText argument wlDmCsrRead
    (fun csr value =>
      text "csr 0x" ++ formatHex 3 csr ++ text " = 0x" ++ formatHex 8 value ++ text "\n")
    (text "getcsr failed\n")

/-- The commands that take arguments. -/
def monitorArgumentsText (word rest : List Byte) : Console Unit :=
  let unknown : Console Unit := tell (text "unknown monitor command\n")
  match strtok monitorDelimiters rest with
  | none => unknown
  | some (arg1, rest) =>
      if word = text "read32" then
        monitorRead32Text arg1
      else
        match strtok monitorDelimiters rest with
        | none => if word = text "getcsr" then monitorGetcsrText arg1 else unknown
        | some (arg2, _) =>
            if word = text "write32" then
              monitorWriteText arg1 arg2 wlDmWrite32 (text "write32 failed\n")
            else if word = text "getcsr" then
              monitorGetcsrText arg1
            else if word = text "setcsr" then
              monitorWriteText arg1 arg2 wlDmCsrWrite (text "setcsr failed\n")
            else
              unknown

/-- What a monitor command does to the target and writes to the console. -/
def monitorText (command : List Byte) : Console Unit :=
  match strtok monitorDelimiters (cstring command) with
  | none => tell gdbMonitorHelpText
  | some (word, rest) =>
      if word = text "help" then
        tell gdbMonitorHelpText
      else if word = text "reset" then
        monitorResetText
      else if word = text "halt" then
        monitorHaltText
      else if word = text "resume" ∨ word = text "continue" then
        monitorResumeText
      else if word = text "info" ∨ word = text "status" then
        monitorInfoText
      else if word = text "regs" then
        monitorRegsText
      else
        monitorArgumentsText word rest

/-! ## Console packets -/

/-- A console packet: `O` and the hex digits of a piece of output, at least one
character. -/
structure ConsolePacket (packet piece : List Byte) : Prop where
  letter : packet.head? = some (ascii 'O')
  digits : packet.tail ≠ [] ∧ packet.tail.length % 2 = 0 ∧ packet.tail.all isHexDigit
  decodes : hexBytes packet.tail = some piece

/-- Console packets that decode to a text, one behind the other. -/
def ConsoleOutput (packets : List (List Byte)) (output : List Byte) : Prop :=
  ∃ pieces, List.Forall₂ ConsolePacket packets pieces ∧ pieces.flatten = output

theorem hexBytes_formatHexByte (bytes : List Byte) :
    hexBytes (bytes.flatMap formatHexByte) = some bytes := by
  induction bytes with
  | nil => rfl
  | cons byte rest ih =>
      have hpair : hexBytes (formatHexByte byte ++ rest.flatMap formatHexByte) =
          (hexBytes (rest.flatMap formatHexByte)).map
            (((byte >>> 4).setWidth 4 ++ byte.setWidth 4 : Byte) :: ·) := by
        rw [formatHexByte, List.cons_append, List.cons_append, List.nil_append, hexBytes,
          hexNibble_hexDigit, hexNibble_hexDigit]
        cases hexBytes (rest.flatMap formatHexByte) with
        | none => rfl
        | some bytes => rfl
      rw [List.flatMap_cons, hpair, ih]
      exact congrArg (fun first => some (first :: rest)) (high_append_low byte)

theorem all_isHexDigit_flatMap (bytes : List Byte) :
    (bytes.flatMap formatHexByte).all isHexDigit := by
  rw [List.all_eq_true]
  intro c hc
  obtain ⟨byte, -, hdigit⟩ := List.mem_flatMap.mp hc
  unfold isHexDigit
  rcases List.mem_cons.mp hdigit with rfl | hdigit
  · rw [hexNibble_hexDigit]
    rfl
  · rw [List.mem_singleton.mp hdigit, hexNibble_hexDigit]
    rfl

/-- The packets the server sends its output in. -/
theorem consolePacket_of {piece : List Byte} (hpiece : piece ≠ []) :
    ConsolePacket (ascii 'O' :: piece.flatMap formatHexByte) piece := by
  have hlength := length_flatMap_formatHexByte piece
  refine ⟨rfl, ⟨fun hnil => ?_, ?_, all_isHexDigit_flatMap piece⟩, hexBytes_formatHexByte piece⟩
  · rw [List.tail_cons] at hnil
    rw [hnil, List.length_nil] at hlength
    exact hpiece (List.length_eq_zero_iff.mp (by omega))
  · rw [List.tail_cons, hlength]
    omega

theorem consoleOutput_nil : ConsoleOutput [] [] := ⟨[], .nil, rfl⟩

theorem ConsoleOutput.append {packets more : List (List Byte)} {output others : List Byte}
    (h : ConsoleOutput packets output) (h' : ConsoleOutput more others) :
    ConsoleOutput (packets ++ more) (output ++ others) := by
  obtain ⟨pieces, hpieces, rfl⟩ := h
  obtain ⟨pieces', hpieces', rfl⟩ := h'
  exact ⟨pieces ++ pieces', List.rel_append hpieces hpieces', List.flatten_append⟩

/-- The server's program sends what the console program writes, and does to the
target what that does. -/
def Prints {α : Type} (program : Gdb α) (console : Console α) : Prop :=
  Transmits program fun conn asked packets value conn' => ∃ output,
    (console.run.run conn).Yields asked ((value, output), conn') ∧ ConsoleOutput packets output

theorem Prints.silent {α : Type} {program : Gdb α} (h : offSocket.StateMem program) :
    Prints program (liftM program) := by
  refine (Transmits.silent h).mono ?_
  rintro conn asked packets value conn' ⟨rfl, hyields⟩
  refine ⟨[], ?_, consoleOutput_nil⟩
  have hlift : (liftM program : Console α).run = (fun value => (value, [])) <$> program := rfl
  rw [hlift, StateT.run_map, map_eq_pure_bind, ← List.append_nil asked]
  exact hyields.bind (.refl _ _)

theorem Prints.done {α : Type} (value : α) : Prints (pure value) (pure value) := by
  refine (Transmits.done value).mono ?_
  rintro conn asked packets result conn' ⟨rfl, rfl, rfl, rfl⟩
  exact ⟨[], .refl _ _, consoleOutput_nil⟩

theorem Prints.bind {α β : Type} {program : Gdb α} {console : Console α} {rest : α → Gdb β}
    {after : α → Console β} (h : Prints program console)
    (hrest : ∀ value, Prints (rest value) (after value)) :
    Prints (program >>= rest) (console >>= after) := by
  refine Transmits.bind h hrest ?_
  rintro conn asked packets value between more others result conn' ⟨output, hfirst, hpackets⟩
    ⟨output', hsecond, hothers⟩
  refine ⟨output ++ output', ?_, hpackets.append hothers⟩
  have hbind : ((console >>= after).run.run conn) = console.run.run conn >>= fun first =>
      ((fun second : β × List Byte => (second.1, first.1.2 ++ second.2)) <$>
        (after first.1.1).run).run first.2 := rfl
  rw [hbind]
  refine hfirst.bind ?_
  rw [StateT.run_map, map_eq_pure_bind, ← List.append_nil more]
  exact hsecond.bind (.refl _ _)

theorem Prints.ite {α : Type} {condition : Prop} [Decidable condition] {first second : Gdb α}
    {console console' : Console α} (hfirst : Prints first console) (hsecond : Prints second console') :
    Prints (if condition then first else second) (if condition then console else console') := by
  split
  · exact hfirst
  · exact hsecond

theorem gdbSendOutput_prints (fuel : Nat) (output : List Byte) :
    Prints (gdbSendOutput fuel output) (tell output) := by
  induction output using gdbSendOutput.induct with
  | case1 output hmore count ih =>
      rw [gdbSendOutput, if_pos hmore]
      dsimp only
      have hcount : (output.take count).length = count :=
        List.length_take_of_le (Nat.min_le_left _ _)
      have hsome : 0 < count := Nat.lt_min.mpr ⟨hmore, by decide⟩
      have hpiece : output.take count ≠ [] := by
        intro hnil
        rw [hnil, List.length_nil] at hcount
        omega
      have hfits : (ascii 'O' :: (output.take count).flatMap formatHexByte).length ≤ gdbPacketMax := by
        have hroom : count ≤ (gdbPacketMax - 1) / 2 := Nat.min_le_right _ _
        rw [List.length_cons, length_flatMap_formatHexByte, hcount]
        omega
      refine Transmits.bind (gdbSendPacket_transmits fuel hfits) (fun _ => ih) ?_
      rintro conn asked packets value between more others result conn' ⟨rfl, rfl, rfl⟩
        ⟨left, hyields, pieces, hpieces, hleft⟩
      obtain ⟨rfl, hresult⟩ := Program.yields_done_iff.mp hyields
      cases hresult
      refine ⟨output, .refl _ _, output.take count :: pieces,
        .cons (consolePacket_of hpiece) hpieces, ?_⟩
      rw [List.flatten_cons, hleft, List.take_append_drop]
  | case2 output hdone =>
      rw [gdbSendOutput, if_neg hdone]
      have hnil : output = [] := List.length_eq_zero_iff.mp (by omega)
      subst hnil
      exact Prints.done ()

/-! ### The commands print their text -/

theorem offSocket_hasRunState : HasRunState offSocket where
  sleep := fun _ => offSocket_request rfl
  commands := fun _ => hasCommands_of_requests (usbClass offSocket) (fun _ _ _ => offSocket_usb _) _
  status := fun _ _ _ => offSocket_usb _
  halt := fun _ => offSocket_usb _

theorem offSocket_onTargetIgnored {α : Type} (operation : Link → Fallible α) :
    offSocket.StateMem (onTargetIgnored operation) :=
  offSocket.stateBind (offSocket_onTarget operation) fun _ => offSocket.stateDone ()

theorem offSocket_gdbResume : offSocket.StateMem gdbResume :=
  gdbResume_mem offSocket_hasRunState fun _ => offSocket_usb _

theorem gdbMonitorGprs_prints (fuel : Nat) (regs : List Nat) :
    Prints (gdbMonitorGprs fuel regs) (monitorGprsText regs) := by
  induction regs with
  | nil => exact Prints.done true
  | cons reg rest ih =>
      refine (Prints.silent (offSocket_onTarget _)).bind fun status => ?_
      cases status with
      | error error => exact (gdbSendOutput_prints fuel _).bind fun _ => Prints.done false
      | ok value => exact (gdbSendOutput_prints fuel _).bind fun _ => ih

theorem gdbMonitorRegs_prints (fuel : Nat) : Prints (gdbMonitorRegs fuel) monitorRegsText := by
  refine (gdbMonitorGprs_prints fuel _).bind fun complete => ?_
  cases complete with
  | false => exact Prints.done ()
  | true =>
      refine (Prints.silent (offSocket_onTarget _)).bind fun status => ?_
      cases status with
      | error error => exact Prints.done ()
      | ok pc => exact gdbSendOutput_prints fuel _

theorem gdbInfoLine_prints (fuel : Nat) (label : List Byte) (read : Link → Fallible Word) :
    Prints (gdbInfoLine fuel label read) (infoLineText label read) := by
  refine (Prints.silent (offSocket_onTarget _)).bind fun status => ?_
  cases status with
  | error error => exact Prints.done ()
  | ok value => exact gdbSendOutput_prints fuel _

theorem gdbMonitorInfo_prints (fuel : Nat) : Prints (gdbMonitorInfo fuel) monitorInfoText :=
  (gdbInfoLine_prints fuel _ _).bind fun _ =>
    (gdbInfoLine_prints fuel _ _).bind fun _ => gdbInfoLine_prints fuel _ _

theorem gdbMonitorReset_prints (fuel : Nat) : Prints (gdbMonitorReset fuel) monitorResetText := by
  have hsleep : offSocket.StateMem (StateT.lift (request (.sleep 10000000)) : Gdb Unit) :=
    offSocket.stateLift (offSocket_request rfl)
  have hhalted := gdbDmWaitHalted_mem offSocket_hasRunState
  have hebreak := gdbDmEnableEbreak_mem offSocket_hasRunState
  refine (Prints.silent (offSocket_onTargetIgnored _)).bind fun _ => ?_
  refine (Prints.silent hsleep).bind fun _ => ?_
  refine (Prints.silent (offSocket_onTargetIgnored _)).bind fun _ => ?_
  refine (Prints.silent (offSocket_onTargetIgnored _)).bind fun _ => ?_
  refine (Prints.silent hhalted).bind fun _ => ?_
  exact (Prints.silent hebreak).bind fun _ => gdbSendOutput_prints fuel _

theorem gdbMonitorHalt_prints (fuel : Nat) : Prints (gdbMonitorHalt fuel) monitorHaltText := by
  have hhalted := gdbDmWaitHalted_mem offSocket_hasRunState
  have hebreak := gdbDmEnableEbreak_mem offSocket_hasRunState
  refine (Prints.silent (offSocket_onTarget _)).bind fun _ => ?_
  refine (Prints.silent hhalted).bind fun _ => ?_
  exact (Prints.silent hebreak).bind fun _ => gdbSendOutput_prints fuel _

theorem gdbMonitorResume_prints (fuel : Nat) :
    Prints (gdbMonitorResume fuel) monitorResumeText :=
  (Prints.silent offSocket_gdbResume).bind fun _ => gdbSendOutput_prints fuel _

theorem gdbMonitorRead_prints (fuel : Nat) (argument : List Byte)
    (read : Link → Word → Fallible Word) (line : Word → Word → List Byte) (failure : List Byte) :
    Prints (gdbMonitorRead fuel argument read line failure)
      (monitorReadText argument read line failure) := by
  unfold gdbMonitorRead monitorReadText
  cases parseHexU32 argument with
  | none => exact gdbSendOutput_prints fuel _
  | some parsed =>
      refine (Prints.silent (offSocket_onTarget _)).bind fun status => ?_
      cases status with
      | error error => exact gdbSendOutput_prints fuel _
      | ok value => exact gdbSendOutput_prints fuel _

theorem gdbMonitorWrite_prints (fuel : Nat) (first second : List Byte)
    (write : Link → Word → Word → Fallible Unit) (failure : List Byte) :
    Prints (gdbMonitorWrite fuel first second write failure)
      (monitorWriteText first second write failure) := by
  unfold gdbMonitorWrite monitorWriteText
  cases parseHexU32 first with
  | none => exact gdbSendOutput_prints fuel _
  | some number =>
      cases parseHexU32 second with
      | none => exact gdbSendOutput_prints fuel _
      | some value =>
          refine (Prints.silent (offSocket_onTarget _)).bind fun status => ?_
          cases status with
          | error error => exact gdbSendOutput_prints fuel _
          | ok value => exact gdbSendOutput_prints fuel _

theorem gdbMonitorArguments_prints (fuel : Nat) (word rest : List Byte) :
    Prints (gdbMonitorArguments fuel word rest) (monitorArgumentsText word rest) := by
  have hgetcsr (argument : List Byte) :
      Prints (gdbMonitorGetcsr fuel argument) (monitorGetcsrText argument) :=
    gdbMonitorRead_prints fuel _ _ _ _
  have hunknown := gdbSendOutput_prints fuel (text "unknown monitor command\n")
  unfold gdbMonitorArguments monitorArgumentsText
  dsimp only
  cases strtok monitorDelimiters rest with
  | none => exact hunknown
  | some first =>
      obtain ⟨arg1, rest⟩ := first
      refine .ite (gdbMonitorRead_prints fuel _ _ _ _) ?_
      cases strtok monitorDelimiters rest with
      | none => exact .ite (hgetcsr _) hunknown
      | some second =>
          refine .ite (gdbMonitorWrite_prints fuel _ _ _ _) ?_
          exact .ite (hgetcsr _) (.ite (gdbMonitorWrite_prints fuel _ _ _ _) hunknown)

theorem gdbMonitorCommand_prints (fuel : Nat) (command : List Byte) :
    Prints (gdbMonitorCommand fuel command) (monitorText command) := by
  unfold gdbMonitorCommand monitorText
  cases strtok monitorDelimiters (cstring command) with
  | none => exact gdbSendOutput_prints fuel _
  | some first =>
      obtain ⟨word, rest⟩ := first
      refine .ite (gdbSendOutput_prints fuel _) ?_
      refine .ite (gdbMonitorReset_prints fuel) ?_
      refine .ite (gdbMonitorHalt_prints fuel) ?_
      refine .ite (gdbMonitorResume_prints fuel) ?_
      refine .ite (gdbMonitorInfo_prints fuel) ?_
      exact .ite (gdbMonitorRegs_prints fuel) (gdbMonitorArguments_prints fuel word rest)

/-! ## One packet -/

/-- Every path ends in one packet, a good one. -/
def RepliesWith {α : Type} (good : List Byte → Prop) (program : Gdb α) : Prop :=
  Transmits program fun _ _ packets _ _ => ∃ reply, packets = [reply] ∧ good reply

/-- Every path ends in one packet. -/
abbrev Replies {α : Type} (program : Gdb α) : Prop := RepliesWith (fun _ => True) program

namespace RepliesWith

variable {α β : Type} {good : List Byte → Prop}

theorem packet (fuel : Nat) {payload : List Byte} (hpayload : payload.length ≤ gdbPacketMax)
    (hgood : good payload) : RepliesWith good (gdbSendPacket fuel payload) :=
  (gdbSendPacket_transmits fuel hpayload).mono fun _ _ _ _ _ h => ⟨payload, h.2.1, hgood⟩

/-- The reply comes after what is done to the target; `known` is what is known
of its result. -/
theorem afterWhere (known : α → Prop) {program : Gdb α} {rest : α → Gdb β}
    (h : offSocket.StateMem program)
    (hknown : ∀ conn, (program.run conn).Always fun result => known result.1)
    (hrest : ∀ value, known value → RepliesWith good (rest value)) :
    RepliesWith good (program >>= rest) := by
  refine (Transmits.silent h).bindWhere hknown hrest ?_
  rintro conn asked packets value between more others result conn' ⟨rfl, -⟩ hreply
  exact hreply

theorem after {program : Gdb α} {rest : α → Gdb β} (h : offSocket.StateMem program)
    (hrest : ∀ value, RepliesWith good (rest value)) : RepliesWith good (program >>= rest) := by
  refine (Transmits.silent h).bind hrest ?_
  rintro conn asked packets value between more others result conn' ⟨rfl, -⟩ hreply
  exact hreply

/-- Nothing is sent behind the reply. -/
theorem «then» {program : Gdb α} {rest : α → Gdb β} (h : RepliesWith good program)
    (hrest : ∀ value, offSocket.StateMem (rest value)) : RepliesWith good (program >>= rest) := by
  refine Transmits.bind h (fun value => Transmits.silent (hrest value)) ?_
  rintro conn asked packets value between more others result conn' ⟨reply, rfl, hgood⟩ ⟨rfl, -⟩
  exact ⟨reply, rfl, hgood⟩

theorem ite {condition : Prop} [Decidable condition] {first second : Gdb α}
    (hfirst : RepliesWith good first) (hsecond : RepliesWith good second) :
    RepliesWith good (if condition then first else second) := by
  split
  · exact hfirst
  · exact hsecond

end RepliesWith

/-- A string without a NUL is sent as it is. -/
theorem RepliesWith.string {good : List Byte → Prop} (fuel : Nat) {string : List Byte}
    (hstring : cstring string = string) (hlength : string.length ≤ gdbPacketMax)
    (hgood : good string) : RepliesWith good (gdbSendText fuel string) := by
  unfold gdbSendText
  rw [hstring]
  exact .packet fuel hlength hgood

theorem RepliesWith.mono {α : Type} {good good' : List Byte → Prop} {program : Gdb α}
    (h : RepliesWith good program) (hgood : ∀ reply, good reply → good' reply) :
    RepliesWith good' program :=
  Transmits.mono h fun _ _ _ _ _ ⟨reply, hpackets, hreply⟩ => ⟨reply, hpackets, hgood reply hreply⟩

theorem RepliesWith.replies {α : Type} {good : List Byte → Prop} {program : Gdb α}
    (h : RepliesWith good program) : Replies program := h.mono fun _ _ => trivial

theorem RepliesWith.sendPacket (fuel : Nat) {payload : List Byte}
    (hpayload : payload.length ≤ gdbPacketMax) : Replies (gdbSendPacket fuel payload) :=
  .packet fuel hpayload trivial

theorem RepliesWith.sendText (fuel : Nat) {string : List Byte} (hstring : string.length ≤ gdbPacketMax) :
    Replies (gdbSendText fuel string) :=
  .sendPacket fuel (Nat.le_trans (List.takeWhile_sublist _).length_le hstring)

/-- An error reply: `E` and two hex digits. -/
def ErrorReply (reply : List Byte) : Prop :=
  ∃ high low, reply = [ascii 'E', high, low] ∧ isHexDigit high = true ∧ isHexDigit low = true

/-- A stop reply of some signal. -/
def StopReply (reply : List Byte) : Prop := ∃ signal, reply = gdbStopReply signal

theorem errorReply_e01 : ErrorReply (text "E01") := ⟨_, _, rfl, by decide, by decide⟩

section Handlers

variable (fuel : Nat) (payload : List Byte)

theorem gdbSendError_replies : Replies (gdbSendText fuel (text "E01")) := .sendText fuel (by decide)

theorem gdbSendOk_replies : Replies (gdbSendText fuel (text "OK")) := .sendText fuel (by decide)

theorem gdbSendEmpty_replies : Replies (gdbSendText fuel []) := .sendText fuel (by decide)

/-- The replies to an operation that may fail. -/
theorem replies_onTarget {α : Type} {operation : Link → Fallible α}
    {rest : Except WlErr α → Gdb Unit} (herror : ∀ error, Replies (rest (.error error)))
    (hok : ∀ value, Replies (rest (.ok value))) : Replies (onTarget operation >>= rest) := by
  refine .after (offSocket_onTarget operation) fun status => ?_
  cases status with
  | error error => exact herror error
  | ok value => exact hok value

theorem offSocket_gdbReadGprs (regs : List Nat) : offSocket.StateMem (gdbReadGprs regs) := by
  rw [← bind_pure (gdbReadGprs regs)]
  exact gdbReadGprs_then offSocket_hasRunState.commands regs fun status _ =>
    offSocket.stateDone status

theorem length_formatHexU32Le (value : Word) : (formatHexU32Le value).length = 8 := rfl

theorem gdbReadGprs_length (regs : List Nat) (conn : GdbConn) :
    ((gdbReadGprs regs).run conn).Always fun result =>
      ∀ gprs, result.1 = .ok gprs → gprs.length = 8 * regs.length := by
  induction regs generalizing conn with
  | nil =>
      intro gprs hgprs
      cases hgprs
      rfl
  | cons reg rest ih =>
      rw [gdbReadGprs, StateT.run_bind]
      refine (Program.always_true _).bind fun first _ => ?_
      obtain ⟨status, between⟩ := first
      cases status with
      | error error =>
          intro gprs hgprs
          cases hgprs
      | ok value =>
          dsimp only
          rw [StateT.run_bind]
          refine (ih between).bind fun second hsecond => ?_
          obtain ⟨status, conn'⟩ := second
          cases status with
          | error error =>
              intro gprs hgprs
              cases hgprs
          | ok gprs =>
              intro reply hreply
              cases hreply
              have hrest := hsecond gprs rfl
              rw [List.length_append, length_formatHexU32Le, hrest, List.length_cons]
              omega

theorem gdbHandleG_replies : Replies (gdbHandleG fuel) := by
  refine .afterWhere (fun status => ∀ gprs, status = .ok gprs → gprs.length = _)
    (offSocket_gdbReadGprs _) (gdbReadGprs_length (List.range gdbRv32eGprs))
    fun status hstatus => ?_
  cases status with
  | error error => exact gdbSendError_replies fuel
  | ok gprs =>
      have hgprs := hstatus gprs rfl
      refine replies_onTarget (fun _ => gdbSendError_replies fuel) fun pc => ?_
      refine .sendPacket fuel ?_
      rw [List.length_append, hgprs, length_formatHexU32Le, List.length_range]
      decide

theorem gdbHandleP_replies : Replies (gdbHandleP fuel payload) := by
  have hfailed := gdbSendError_replies fuel
  unfold gdbHandleP
  cases parseHexU32 (payload.drop 1) with
  | none => exact hfailed
  | some parsed =>
      refine .ite hfailed ?_
      cases strchr (ascii '=') payload with
      | none =>
          refine replies_onTarget (fun _ => hfailed) fun value => .sendText fuel ?_
          rw [length_formatHexU32Le]
          decide
      | some eq =>
          dsimp only
          cases parseHexU32 (eq.drop 1) with
          | none => exact hfailed
          | some value =>
              exact replies_onTarget (fun _ => hfailed) fun _ => gdbSendOk_replies fuel

theorem filled_onTarget_length (address : Word) (length : Nat) (conn : GdbConn) :
    ((onTarget fun link => filled (wlDmReadBlock link address length)).run conn).Always
      fun result => ∀ buffer, result.1 = .ok buffer → buffer.length = length := by
  have hrun : (onTarget fun link => filled (wlDmReadBlock link address length)).run conn =
      onHost (filled (wlDmReadBlock conn.link address length)).run >>=
        fun status => pure (status, conn) := rfl
  rw [hrun]
  exact ((filled_length address length).interpret _).bind fun _ hstatus => hstatus

theorem gdbHandleM_replies : Replies (gdbHandleM fuel payload) := by
  have hfailed := gdbSendError_replies fuel
  unfold gdbHandleM
  cases parseMemoryRange payload with
  | none => exact hfailed
  | some parsed =>
      obtain ⟨address, length, rest⟩ := parsed
      dsimp only
      split
      · exact hfailed
      · -- a block read that succeeds has the length that was checked
        next hlength =>
          refine .afterWhere (fun status => ∀ buffer, status = .ok buffer →
            buffer.length = length.toNat) (offSocket_onTarget _)
            (filled_onTarget_length address length.toNat) fun status hstatus => ?_
          cases status with
          | error error => exact hfailed
          | ok buffer =>
              have hallocates : offSocket.StateMem
                  (StateT.lift (request (.malloc (length.toNat * 2 + 1))) : Gdb Bool) :=
                offSocket.stateLift (offSocket_request rfl)
              refine .after hallocates fun allocated => .ite (.sendPacket fuel ?_) hfailed
              have hmax : length.toNat ≤ 1024 := BitVec.not_lt.mp hlength
              rw [length_flatMap_formatHexByte, hstatus buffer rfl]
              unfold gdbPacketMax
              omega

theorem gdbHandleMWrite_replies : Replies (gdbHandleMWrite fuel payload) := by
  unfold gdbHandleMWrite
  cases parseMemoryWrite payload with
  | none => exact gdbSendError_replies fuel
  | some parsed =>
      exact replies_onTarget (fun _ => gdbSendError_replies fuel) fun _ => gdbSendOk_replies fuel

theorem gdbHandleZ_replies : Replies (gdbHandleZ fuel payload) := by
  unfold gdbHandleZ
  cases parseBreakpoint payload with
  | none => exact gdbSendEmpty_replies fuel
  | some parsed =>
      obtain ⟨address, kind⟩ := parsed
      refine .after ?_ fun done => .ite (gdbSendOk_replies fuel) (gdbSendEmpty_replies fuel)
      split
      · exact gdbBreakpointInsert_mem offSocket_hasMemory _ _
      · exact gdbBreakpointRemove_mem offSocket_hasMemory _ _

/-- A chunk of a document behind its `l` or `m`. -/
def ChunkReply (document reply : List Byte) : Prop :=
  ∃ chunk, chunk <:+: document ∧ (reply = ascii 'l' :: chunk ∨ reply = ascii 'm' :: chunk)

theorem gdbQxferReply_replies (data : List Byte) (offset requested : Word) :
    RepliesWith (ChunkReply data) (gdbQxferReply fuel data offset requested) := by
  unfold gdbQxferReply
  refine .ite (.string fuel (by decide) (by decide) ⟨[], List.nil_infix, .inl rfl⟩) ?_
  refine .packet fuel ?_ ?_
  · have hroom : min requested.toNat (gdbPacketMax - 1) ≤ gdbPacketMax - 1 := Nat.min_le_right _ _
    rw [List.length_cons, List.length_take]
    unfold gdbPacketMax at hroom ⊢
    omega
  · have hchunk (count : Nat) : (data.drop offset.toNat).take count <:+: data :=
      (List.take_prefix _ _).isInfix.trans (List.drop_suffix _ _).isInfix
    split
    · exact ⟨_, hchunk _, .inl rfl⟩
    · exact ⟨_, hchunk _, .inr rfl⟩

theorem gdbHandleQxfer_replies : Replies (gdbHandleQxfer fuel payload) := by
  refine .after offSocket.stateGet fun conn => ?_
  cases parseQxfer payload with
  | none => exact gdbSendEmpty_replies fuel
  | some wanted =>
      refine .ite (gdbQxferReply_replies fuel _ _ _).replies ?_
      exact .ite (gdbQxferReply_replies fuel _ _ _).replies (gdbSendEmpty_replies fuel)

/-! ### Run control -/

/-- Looking for an interrupt byte sends nothing. -/
theorem gdbInterrupted_transmits :
    Transmits (StateT.lift (gdbInterrupted fuel)) fun _ _ packets _ _ => packets = [] := by
  have hsocket : HasSocket unsent fun _ => False :=
    { cuts := trivial
      recv := unsent_request nofun
      send := fun _ hnone => hnone.elim }
  refine Transmits.unsent (unsent.stateLift ?_)
  unfold gdbInterrupted
  refine unsent.bind (unsent_request nofun) fun ready => ?_
  split
  · refine unsent.bind (gdbRecvByte_mem hsocket fuel) fun received => ?_
    cases received with
    | none => exact unsent.done false
    | some c => exact unsent.done _
  · exact unsent.done false

theorem gdbSendStop_replies {signal : Word}
    (hsignal : cstring (gdbStopReply signal) = gdbStopReply signal ∧
      (gdbStopReply signal).length ≤ gdbPacketMax) : RepliesWith StopReply (gdbSendStop fuel signal) :=
  .string fuel hsignal.1 hsignal.2 ⟨signal, rfl⟩

/-- However long the target takes to stop, it is reported once. -/
theorem gdbWaitForStop_replies : RepliesWith StopReply (gdbWaitForStop fuel) := by
  induction fuel with
  | zero =>
      intro conn _ value conn' hvalue
      cases hvalue
  | succ fuel ih =>
      have hhalted := gdbDmWaitHalted_mem offSocket_hasRunState
      have hround (interrupted : Bool) : RepliesWith StopReply (if interrupted then do
            let _ ← gdbDmHalt
            let _ ← gdbDmWaitHalted
            gdbSendStop fuel 2
          else do
            if ← gdbDmIsHalted then gdbSendStop fuel 5 else gdbWaitForStop fuel) := by
        refine .ite ?_ ?_
        · refine .after (offSocket_onTarget _) fun _ => ?_
          exact .after hhalted fun _ => gdbSendStop_replies fuel (by decide)
        · refine .after (gdbDmIsHalted_mem offSocket_hasRunState) fun halted => ?_
          exact .ite (gdbSendStop_replies fuel (by decide)) ih
      rw [gdbWaitForStop]
      refine Transmits.bind (gdbInterrupted_transmits fuel) hround ?_
      rintro conn asked packets value between more others result conn' rfl hreply
      exact hreply

theorem gdbContinue_replies :
    RepliesWith (fun reply => StopReply reply ∨ ErrorReply reply) (gdbContinue fuel) := by
  refine .after offSocket_gdbResume fun status => ?_
  cases status with
  | error error => exact .string fuel (by decide) (by decide) (.inr errorReply_e01)
  | ok value => exact (gdbWaitForStop_replies fuel).mono fun _ => .inl

theorem gdbSingleStep_replies :
    RepliesWith (fun reply => StopReply reply ∨ ErrorReply reply) (gdbSingleStep fuel) := by
  refine .after (gdbStep_mem offSocket_hasRunState fun _ => offSocket_usb _) fun status => ?_
  cases status with
  | error error => exact .string fuel (by decide) (by decide) (.inr errorReply_e01)
  | ok value => exact (gdbSendStop_replies fuel (by decide)).mono fun _ => .inl

theorem gdbHandleV_replies : Replies (gdbHandleV fuel payload) := by
  refine .ite (.sendText fuel (by decide)) (.ite ?_ (gdbSendEmpty_replies fuel))
  exact .ite (gdbSingleStep_replies fuel).replies (gdbContinue_replies fuel).replies

theorem gdbDetach_replies : Replies (gdbDetach fuel) := by
  refine .after (gdbBreakpointsClear_mem offSocket_hasMemory) fun _ => ?_
  refine .after offSocket_gdbResume fun _ => ?_
  exact (gdbSendOk_replies fuel).then fun _ => offSocket.stateModify fun _ => ⟨rfl, rfl⟩

theorem gdbKill_silent : offSocket.StateMem gdbKill :=
  offSocket.stateBind (gdbBreakpointsClear_mem offSocket_hasMemory) fun _ =>
    offSocket.stateModify fun _ => ⟨rfl, rfl⟩

end Handlers

/-! ## Every packet -/

/-- The command of a monitor packet, if it can be decoded. -/
def monitorCommandOf (payload : List Byte) : Option (List Byte) :=
  if payload.getD 0 0 = ascii 'q' ∧ strStarts payload "qRcmd," then
    gdbDecodeHexString (payload.drop 6) 256
  else
    none

/-- The packets a request is answered with: none for `k`, the console output of
a monitor command and one reply for the others. -/
def AnsweredOnce (payload : List Byte) (conn : GdbConn) (asked : List Host.Idx)
    (packets : List (List Byte)) (conn' : GdbConn) : Prop :=
  if payload.getD 0 0 = ascii 'k' then
    packets = []
  else
    ∃ outputs reply, packets = outputs ++ [reply] ∧
      match monitorCommandOf payload with
      | none => outputs = []
      | some command => ∃ output, ConsoleOutput outputs output ∧
          ((monitorText command).run.run conn).Yields asked (((), output), conn')

theorem gdbHandleQRcmd_transmits (fuel : Nat) (payload : List Byte) :
    Transmits (gdbHandleQRcmd fuel payload) fun conn asked packets _ conn' =>
      ∃ outputs reply, packets = outputs ++ [reply] ∧
        match gdbDecodeHexString (payload.drop 6) 256 with
        | none => outputs = []
        | some command => ∃ output, ConsoleOutput outputs output ∧
            ((monitorText command).run.run conn).Yields asked (((), output), conn') := by
  unfold gdbHandleQRcmd
  cases gdbDecodeHexString (payload.drop 6) 256 with
  | none =>
      refine Transmits.mono (gdbSendError_replies fuel) ?_
      rintro conn asked packets value conn' ⟨reply, rfl, -⟩
      exact ⟨[], reply, rfl, rfl⟩
  | some command =>
      have hok : (cstring (text "OK")).length ≤ gdbPacketMax := by decide
      refine Transmits.bind (gdbMonitorCommand_prints fuel command)
        (fun _ => gdbSendPacket_transmits fuel hok) ?_
      rintro conn asked packets value between more others result conn' ⟨output, hyields, houtput⟩
        ⟨rfl, rfl, rfl⟩
      rw [List.append_nil]
      exact ⟨packets, _, rfl, output, houtput, hyields⟩

/-- A packet is not a literal that differs in the second character. -/
theorem not_strEq {payload : List Byte} {literal : String}
    (hliteral : ((text literal).take 2).length = 2 ∧ (text literal).take 2 ≠ payload.take 2) :
    strEq payload literal = false := by
  rw [Bool.eq_false_iff]
  intro hquery
  have hwhole : payload.take (text literal).length = text literal := take_of_strEq hquery
  have hlength : 2 ≤ (text literal).length := by
    have hmin := hliteral.1
    rw [List.length_take] at hmin
    omega
  refine hliteral.2 ?_
  rw [← hwhole, List.take_take, Nat.min_eq_left hlength]

/-- A monitor packet is none of the queries that are compared as a whole. -/
theorem not_strEq_qRcmd {payload : List Byte} (hmonitor : strStarts payload "qRcmd," = true)
    {literal : String} (hliteral : ((text literal).take 2).length = 2 ∧
      (text literal).take 2 ≠ text "qR") : strEq payload literal = false := by
  have hstart : payload.take 6 = text "qRcmd," := eq_of_beq hmonitor
  have htwo : payload.take 2 = (payload.take 6).take 2 := by
    rw [List.take_take]
    rfl
  rw [hstart] at htwo
  exact not_strEq ⟨hliteral.1, fun hsame => hliteral.2 (hsame.trans htwo)⟩

theorem gdbHandleQuery_monitor {payload : List Byte} (hmonitor : strStarts payload "qRcmd," = true)
    (fuel : Nat) : gdbHandleQuery fuel payload = gdbHandleQRcmd fuel payload := by
  unfold gdbHandleQuery
  rw [not_strEq_qRcmd hmonitor (by decide), not_strEq_qRcmd hmonitor (by decide),
    not_strEq_qRcmd hmonitor (by decide), not_strEq_qRcmd hmonitor (by decide),
    not_strEq_qRcmd hmonitor (by decide), not_strEq_qRcmd hmonitor (by decide), hmonitor]
  rfl

theorem gdbHandleQuery_replies {payload : List Byte}
    (hother : ¬strStarts payload "qRcmd," = true) (fuel : Nat) :
    Replies (gdbHandleQuery fuel payload) := by
  unfold gdbHandleQuery
  rw [if_neg hother]
  refine .ite (.sendText fuel (by decide)) (.ite (.sendText fuel (by decide)) ?_)
  refine .ite (.sendText fuel (by decide)) (.ite (.sendText fuel (by decide)) ?_)
  refine .ite (.sendText fuel (by decide)) (.ite (gdbSendEmpty_replies fuel) ?_)
  exact .ite (gdbHandleQxfer_replies fuel payload) (gdbSendEmpty_replies fuel)

theorem Replies.answers {program : Gdb Unit} (h : Replies program) {payload : List Byte}
    (hkill : payload.getD 0 0 ≠ ascii 'k') (hmonitor : monitorCommandOf payload = none)
    (continues : Bool) :
    Transmits (program >>= fun _ => pure continues) fun conn asked packets _ conn' =>
      AnsweredOnce payload conn asked packets conn' := by
  have hanswer : Replies (program >>= fun _ => pure continues) :=
    h.then fun _ => offSocket.stateDone continues
  refine Transmits.mono hanswer ?_
  rintro conn asked packets value conn' ⟨reply, rfl, -⟩
  unfold AnsweredOnce
  rw [if_neg hkill, hmonitor]
  exact ⟨[], reply, rfl, rfl⟩

/-- Every request is answered with one packet, which the console output of a
monitor command precedes; `k` alone is not answered. Whatever the replies are,
no packet is larger than the buffer it is framed in. -/
theorem gdbHandlePacket_replies (fuel : Nat) (payload : List Byte) :
    Transmits (gdbHandlePacket fuel payload) fun conn asked packets _ conn' =>
      AnsweredOnce payload conn asked packets conn' := by
  by_cases hkill : payload.getD 0 0 = ascii 'k'
  · have hpacket : gdbHandlePacket fuel payload = gdbKill >>= fun _ => pure false := by
      unfold gdbHandlePacket
      simp +decide only [hkill, ↓reduceIte]
    rw [hpacket]
    refine (Transmits.silent (offSocket.stateBind gdbKill_silent fun _ =>
      offSocket.stateDone false)).mono ?_
    rintro conn asked packets value conn' ⟨rfl, -⟩
    unfold AnsweredOnce
    rw [if_pos hkill]
  by_cases hquery : payload.getD 0 0 = ascii 'q' ∧ strStarts payload "qRcmd," = true
  · have hpacket : gdbHandlePacket fuel payload =
        gdbHandleQRcmd fuel payload >>= fun _ => pure true := by
      unfold gdbHandlePacket
      simp +decide only [hquery.1, ↓reduceIte, gdbHandleQuery_monitor hquery.2]
    have hcommand : monitorCommandOf payload = gdbDecodeHexString (payload.drop 6) 256 :=
      if_pos hquery
    rw [hpacket]
    refine Transmits.bind (gdbHandleQRcmd_transmits fuel payload) (fun _ => Transmits.done true) ?_
    rintro conn asked packets value between more others result conn' hanswer ⟨rfl, rfl, -, rfl⟩
    unfold AnsweredOnce
    rw [if_neg hkill, hcommand, List.append_nil, List.append_nil]
    exact hanswer
  have hmonitor : monitorCommandOf payload = none := if_neg hquery
  have hanswers {program : Gdb Unit} (h : Replies program) (continues : Bool) :=
    h.answers hkill hmonitor continues
  unfold gdbHandlePacket
  refine .ite (fun _ => hanswers (gdbSendStop_replies fuel (by decide)).replies _) fun _ => ?_
  refine .ite (fun _ => hanswers (gdbHandleG_replies fuel) _) fun _ => ?_
  refine .ite (fun _ => hanswers (gdbHandleP_replies fuel payload) _) fun _ => ?_
  refine .ite (fun _ => hanswers (gdbHandleM_replies fuel payload) _) fun _ => ?_
  refine .ite (fun _ => hanswers (gdbHandleMWrite_replies fuel payload) _) fun _ => ?_
  refine .ite (fun _ => hanswers (gdbContinue_replies fuel).replies _) fun _ => ?_
  refine .ite (fun _ => hanswers (gdbSingleStep_replies fuel).replies _) fun _ => ?_
  refine .ite (fun _ => hanswers (gdbHandleZ_replies fuel payload) _) fun _ => ?_
  refine .ite (fun _ => hanswers (gdbDetach_replies fuel) _) fun _ => ?_
  refine .ite (fun h => absurd h hkill) fun _ => ?_
  refine .ite (fun _ => hanswers (gdbSendOk_replies fuel) _) fun _ => ?_
  refine .ite (fun h => hanswers (gdbHandleQuery_replies (fun hstarts => hquery ⟨h, hstarts⟩) fuel) _)
    fun _ => ?_
  refine .ite (fun _ => hanswers (gdbHandleV_replies fuel payload) _) fun _ => ?_
  exact hanswers (gdbSendEmpty_replies fuel) _

end WchLink
