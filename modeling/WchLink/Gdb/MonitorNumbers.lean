import WchLink.AccessTrace
import WchLink.Gdb.MemoryPackets
import WchLink.Gdb.Numerals
import WchLink.Gdb.Observed
import WchLink.Interaction.Reach

/-! # The numbers of a monitor command

Four monitor commands act on numbers the user types. What their arguments
denote, bare or with a 0x prefix, stands beside what the tool reads in them.
-/

namespace WchLink

open Bytes Interaction

variable {α β : Type}

/-! ## The commands -/

/-- A monitor command on numbers. -/
inductive NumberCommand (α : Type)
  | read32 (address : α)
  | write32 (address value : α)
  | getcsr (csr : α)
  | setcsr (csr value : α)

namespace NumberCommand

def word : NumberCommand α → List Byte
  | read32 _ => text "read32"
  | write32 _ _ => text "write32"
  | getcsr _ => text "getcsr"
  | setcsr _ _ => text "setcsr"

/-- What a command answers when it does not act, or the target refuses. -/
def failure : NumberCommand α → List Byte
  | read32 _ => text "read32 failed\n"
  | write32 _ _ => text "write32 failed\n"
  | getcsr _ => text "getcsr failed\n"
  | setcsr _ _ => text "setcsr failed\n"

def arguments : NumberCommand α → List α
  | read32 address => [address]
  | write32 address value => [address, value]
  | getcsr csr => [csr]
  | setcsr csr value => [csr, value]

/-- The command on what its arguments are read as, if all of them can be read. -/
def reads (parse : α → Option β) : NumberCommand α → Option (NumberCommand β)
  | read32 address => (parse address).map read32
  | write32 address value => do return write32 (← parse address) (← parse value)
  | getcsr csr => (parse csr).map getcsr
  | setcsr csr value => do return setcsr (← parse csr) (← parse value)

/-- CSRs have twelve-bit numbers; any word is an address or a value. -/
def InRange : NumberCommand Word → Prop
  | read32 _ => True
  | write32 _ _ => True
  | getcsr csr => csr < 0x1000
  | setcsr csr _ => csr < 0x1000

/-- Read what a number names and answer with a line about it. -/
def readAt (fuel : Nat) (read : Link → Word → Fallible Word) (line : Word → Word → List Byte)
    (failure : List Byte) (number : Word) : Gdb Unit := do
  match ← onTarget fun link => read link number with
  | .error _ => gdbSendOutput fuel failure
  | .ok value => gdbSendOutput fuel (line number value)

/-- Write a value to what a number names and answer `OK`. -/
def writeAt (fuel : Nat) (write : Link → Word → Word → Fallible Unit) (failure : List Byte)
    (number value : Word) : Gdb Unit := do
  match ← onTarget fun link => write link number value with
  | .error _ => gdbSendOutput fuel failure
  | .ok () => gdbSendOutput fuel (text "OK\n")

/-- One access with exactly these numbers, and the answer. -/
def act (fuel : Nat) (command : NumberCommand Word) : Gdb Unit :=
  match command with
  | read32 address =>
      readAt fuel wlDmRead32
        (fun address value =>
          text "0x" ++ formatHex 8 address ++ text " = 0x" ++ formatHex 8 value ++ text "\n")
        command.failure address
  | write32 address value => writeAt fuel wlDmWrite32 command.failure address value
  | getcsr csr =>
      readAt fuel wlDmCsrRead
        (fun csr value =>
          text "csr 0x" ++ formatHex 3 csr ++ text " = 0x" ++ formatHex 8 value ++ text "\n")
        command.failure csr
  | setcsr csr value => writeAt fuel wlDmCsrWrite command.failure csr value

end NumberCommand

/-! ## Arguments as they are typed -/

/-- One word of a command line. -/
structure MonitorArgument where
  bytes : List Byte
  nonempty : bytes ≠ []
  one_word : ∀ c ∈ bytes, c ∉ monitorDelimiters ∧ c ≠ 0

/-- The number an argument denotes, with or without the prefix. -/
def MonitorArgument.number (argument : MonitorArgument) : Option Word :=
  if strStarts argument.bytes "0x" then hexWord (argument.bytes.drop 2)
  else hexWord argument.bytes

/-- The number the tool reads in it. -/
def MonitorArgument.parsed (argument : MonitorArgument) : Option Word :=
  (parseHexU32 argument.bytes).map Prod.fst

/-- The command line. -/
def NumberCommand.typed (command : NumberCommand MonitorArgument) : List Byte :=
  command.word ++ command.arguments.flatMap fun argument => ascii ' ' :: argument.bytes

/-- The packet GDB sends for a monitor command line. -/
def qRcmdPacket (command tail : List Byte) : List Byte :=
  text "qRcmd," ++ (command.flatMap formatHexByte ++ 0 :: tail)

/-! ## Reading the command line -/

theorem strtok_of_head {delimiters string : List Byte} {c : Byte}
    (hc : c ∉ delimiters) :
    strtok delimiters (c :: string) =
      some ((c :: string).takeWhile (· ∉ delimiters),
        ((c :: string).dropWhile (· ∉ delimiters)).drop 1) := by
  have hskip : (c :: string).dropWhile (· ∈ delimiters) = c :: string := by simp [hc]
  rw [strtok, hskip]

/-- A word that is followed by a delimiter. -/
theorem strtok_word {delimiters token rest : List Byte} {d : Byte} (htoken : token ≠ [])
    (hfree : ∀ c ∈ token, c ∉ delimiters) (hd : d ∈ delimiters) :
    strtok delimiters (token ++ d :: rest) = some (token, rest) := by
  have htake : (token ++ d :: rest).takeWhile (· ∉ delimiters) = token := by
    rw [List.takeWhile_append_of_pos (by simpa using hfree)]
    simp [hd]
  have hdrop : (token ++ d :: rest).dropWhile (· ∉ delimiters) = d :: rest := by
    rw [List.dropWhile_append_of_pos (by simpa using hfree)]
    simp [hd]
  obtain ⟨c, token, rfl⟩ := List.exists_cons_of_ne_nil htoken
  rw [List.cons_append] at htake hdrop ⊢
  rw [strtok_of_head (hfree c List.mem_cons_self), htake, hdrop]
  rfl

/-- The last word. -/
theorem strtok_last {delimiters token : List Byte} (htoken : token ≠ [])
    (hfree : ∀ c ∈ token, c ∉ delimiters) : strtok delimiters token = some (token, []) := by
  have htake : token.takeWhile (· ∉ delimiters) = token := by simpa using hfree
  have hdrop : token.dropWhile (· ∉ delimiters) = [] := by simpa using hfree
  obtain ⟨c, token, rfl⟩ := List.exists_cons_of_ne_nil htoken
  rw [strtok_of_head (hfree c List.mem_cons_self), htake, hdrop]
  rfl

/-- The words that take arguments come after the others. -/
theorem gdbMonitorCommand_arguments (fuel : Nat) {command word rest : List Byte}
    (hword : strtok monitorDelimiters (cstring command) = some (word, rest))
    (hnumbers : word ∈ [text "read32", text "write32", text "getcsr", text "setcsr"]) :
    gdbMonitorCommand fuel command = gdbMonitorArguments fuel word rest := by
  have hothers : ∀ word ∈ [text "read32", text "write32", text "getcsr", text "setcsr"],
      word ≠ text "help" ∧ word ≠ text "reset" ∧ word ≠ text "halt" ∧
        ¬(word = text "resume" ∨ word = text "continue") ∧
        ¬(word = text "info" ∨ word = text "status") ∧ word ≠ text "regs" := by decide
  obtain ⟨hhelp, hreset, hhalt, hresume, hinfo, hregs⟩ := hothers word hnumbers
  rw [gdbMonitorCommand, hword]
  dsimp only
  rw [if_neg hhelp, if_neg hreset, if_neg hhalt, if_neg hresume, if_neg hinfo, if_neg hregs]

namespace NumberCommand

theorem word_mem (command : NumberCommand α) :
    command.word ∈ [text "read32", text "write32", text "getcsr", text "setcsr"] := by
  cases command <;> simp [word]

theorem word_plain (command : NumberCommand α) :
    command.word ≠ [] ∧ ∀ c ∈ command.word, c ∉ monitorDelimiters ∧ c ≠ 0 := by
  have hwords : ∀ word ∈ [text "read32", text "write32", text "getcsr", text "setcsr"],
      word ≠ [] ∧ ∀ c ∈ word, c ∉ monitorDelimiters ∧ c ≠ 0 := by decide
  exact hwords _ command.word_mem

theorem typed_plain (command : NumberCommand MonitorArgument) : ∀ c ∈ command.typed, c ≠ 0 := by
  intro c hc
  rcases List.mem_append.mp hc with hword | harguments
  · exact (command.word_plain.2 c hword).2
  · obtain ⟨argument, -, hargument⟩ := List.mem_flatMap.mp harguments
    rcases List.mem_cons.mp hargument with rfl | hbytes
    · decide
    · exact (argument.one_word c hbytes).2

theorem typed_eq (command : NumberCommand MonitorArgument) :
    ∃ rest, command.typed = command.word ++ ascii ' ' :: rest := by
  cases command with
  | read32 address => exact ⟨_, rfl⟩
  | write32 address value => exact ⟨_, rfl⟩
  | getcsr csr => exact ⟨_, rfl⟩
  | setcsr csr value => exact ⟨_, rfl⟩

end NumberCommand

theorem space_mem : ascii ' ' ∈ monitorDelimiters := by decide

namespace MonitorArgument

variable (argument : MonitorArgument)

theorem free : ∀ c ∈ argument.bytes, c ∉ monitorDelimiters :=
  fun c hc => (argument.one_word c hc).1

theorem strtok_end : strtok monitorDelimiters argument.bytes = some (argument.bytes, []) :=
  strtok_last argument.nonempty argument.free

theorem strtok_more (rest : List Byte) :
    strtok monitorDelimiters (argument.bytes ++ ascii ' ' :: rest) = some (argument.bytes, rest) :=
  strtok_word argument.nonempty argument.free space_mem

theorem parse_none (h : argument.parsed = none) : parseHexU32 argument.bytes = none :=
  Option.map_eq_none_iff.mp h

theorem parse_some {number : Word} (h : argument.parsed = some number) :
    ∃ rest, parseHexU32 argument.bytes = some (number, rest) := by
  obtain ⟨⟨number, rest⟩, hparse, rfl⟩ := Option.map_eq_some_iff.mp h
  exact ⟨rest, hparse⟩

end MonitorArgument

theorem gdbMonitorRead_eq (fuel : Nat) (argument : MonitorArgument)
    (read : Link → Word → Fallible Word) (line : Word → Word → List Byte)
    (failure : List Byte) :
    gdbMonitorRead fuel argument.bytes read line failure =
      match argument.parsed with
      | none => gdbSendOutput fuel failure
      | some number => NumberCommand.readAt fuel read line failure number := by
  unfold gdbMonitorRead MonitorArgument.parsed
  cases parseHexU32 argument.bytes with
  | none => rfl
  | some parsed => rfl

theorem gdbMonitorWrite_eq (fuel : Nat) (first second : MonitorArgument)
    (write : Link → Word → Word → Fallible Unit) (failure : List Byte) :
    gdbMonitorWrite fuel first.bytes second.bytes write failure =
      match first.parsed, second.parsed with
      | some number, some value => NumberCommand.writeAt fuel write failure number value
      | _, _ => gdbSendOutput fuel failure := by
  unfold gdbMonitorWrite MonitorArgument.parsed
  cases parseHexU32 first.bytes with
  | none => rfl
  | some parsed =>
      cases parseHexU32 second.bytes with
      | none => rfl
      | some parsed' => rfl

theorem gdbMonitorArguments_one (fuel : Nat) (word : List Byte) (argument : MonitorArgument) :
    gdbMonitorArguments fuel word argument.bytes =
      if word = text "read32" then gdbMonitorRead32 fuel argument.bytes
      else if word = text "getcsr" then gdbMonitorGetcsr fuel argument.bytes
      else gdbSendOutput fuel (text "unknown monitor command\n") := by
  rw [gdbMonitorArguments, argument.strtok_end]
  rfl

theorem gdbMonitorArguments_two (fuel : Nat) (word : List Byte) (first second : MonitorArgument) :
    gdbMonitorArguments fuel word (first.bytes ++ ascii ' ' :: second.bytes) =
      if word = text "read32" then gdbMonitorRead32 fuel first.bytes
      else if word = text "write32" then gdbMonitorWrite32 fuel first.bytes second.bytes
      else if word = text "getcsr" then gdbMonitorGetcsr fuel first.bytes
      else if word = text "setcsr" then gdbMonitorSetcsr fuel first.bytes second.bytes
      else gdbSendOutput fuel (text "unknown monitor command\n") := by
  rw [gdbMonitorArguments, first.strtok_more]
  dsimp only
  rw [second.strtok_end]

/-- What the tool makes of a command line: it acts on the numbers it reads. -/
theorem gdbMonitorCommand_typed (fuel : Nat) (command : NumberCommand MonitorArgument) :
    gdbMonitorCommand fuel command.typed =
      match command.reads MonitorArgument.parsed with
      | some numbers => numbers.act fuel
      | none => gdbSendOutput fuel command.failure := by
  have hplain := cstring_eq_self command.typed_plain
  have hwords : ∀ c ∈ command.word, c ∉ monitorDelimiters := fun c hc =>
    (command.word_plain.2 c hc).1
  have hstart : ∀ rest, command.typed = command.word ++ ascii ' ' :: rest →
      gdbMonitorCommand fuel command.typed = gdbMonitorArguments fuel command.word rest := by
    intro rest htyped
    refine gdbMonitorCommand_arguments fuel ?_ command.word_mem
    rw [hplain, htyped]
    exact strtok_word command.word_plain.1 hwords space_mem
  cases command with
  | read32 address =>
      rw [hstart address.bytes (by simp [NumberCommand.typed, NumberCommand.arguments]),
        gdbMonitorArguments_one]
      refine (if_pos rfl).trans ?_
      rw [gdbMonitorRead32, gdbMonitorRead_eq, NumberCommand.reads]
      cases address.parsed with
      | none => rfl
      | some number => rfl
  | write32 address value =>
      rw [hstart (address.bytes ++ ascii ' ' :: value.bytes)
        (by simp [NumberCommand.typed, NumberCommand.arguments]), gdbMonitorArguments_two,
        NumberCommand.word]
      refine (if_neg (by decide)).trans ((if_pos rfl).trans ?_)
      rw [gdbMonitorWrite32, gdbMonitorWrite_eq, NumberCommand.reads]
      cases address.parsed with
      | none => rfl
      | some number =>
          cases value.parsed with
          | none => rfl
          | some value => rfl
  | getcsr csr =>
      rw [hstart csr.bytes (by simp [NumberCommand.typed, NumberCommand.arguments]),
        gdbMonitorArguments_one, NumberCommand.word]
      refine (if_neg (by decide)).trans ((if_pos rfl).trans ?_)
      rw [gdbMonitorGetcsr, gdbMonitorRead_eq, NumberCommand.reads]
      cases csr.parsed with
      | none => rfl
      | some number => rfl
  | setcsr csr value =>
      rw [hstart (csr.bytes ++ ascii ' ' :: value.bytes)
        (by simp [NumberCommand.typed, NumberCommand.arguments]), gdbMonitorArguments_two,
        NumberCommand.word]
      refine (if_neg (by decide)).trans ((if_neg (by decide)).trans
        ((if_neg (by decide)).trans ((if_pos rfl).trans ?_)))
      rw [gdbMonitorSetcsr, gdbMonitorWrite_eq, NumberCommand.reads]
      cases csr.parsed with
      | none => rfl
      | some number =>
          cases value.parsed with
          | none => rfl
          | some value => rfl

/-! ## The packet -/

theorem cstring_append {string : List Byte} (hstring : ∀ c ∈ string, c ≠ 0) (tail : List Byte) :
    cstring (string ++ 0 :: tail) = string := by
  rw [cstring, List.takeWhile_append_of_pos (by simpa using hstring)]
  simp

theorem flatMap_formatHexByte_ne_zero (bytes : List Byte) :
    ∀ c ∈ bytes.flatMap formatHexByte, c ≠ 0 := by
  have hdigit : ∀ nibble, hexDigit nibble ≠ 0 := by decide
  intro c hc
  obtain ⟨byte, -, hbyte⟩ := List.mem_flatMap.mp hc
  simp only [formatHexByte, List.mem_cons, List.not_mem_nil, or_false] at hbyte
  rcases hbyte with rfl | rfl
  · exact hdigit _
  · exact hdigit _

/-- A command line of up to 255 bytes is decoded. -/
theorem gdbDecodeHexString_of (command tail : List Byte) :
    gdbDecodeHexString (command.flatMap formatHexByte ++ 0 :: tail) 256 =
      if command.length < 256 then some command else none := by
  have hlength := length_flatMap_formatHexByte command
  have heven : ¬(2 * command.length % 2 ≠ 0 ∨ 256 = 0) := by omega
  have hhalf : 2 * command.length / 2 = command.length := by omega
  rw [gdbDecodeHexString, cstring_append (flatMap_formatHexByte_ne_zero command),
    hlength, if_neg heven, hhalf]
  by_cases hfits : command.length < 256
  · rw [if_neg (by omega), if_pos hfits, parseHexBytes_flatMap]
  · rw [if_pos (by omega), if_neg hfits]

/-- What a monitor packet comes to: a line that is too long is refused as a whole. -/
theorem gdbHandleQRcmd_packet (fuel : Nat) (command tail : List Byte) :
    gdbHandleQRcmd fuel (qRcmdPacket command tail) =
      if command.length < 256 then
        gdbMonitorCommand fuel command >>= fun _ => gdbSendText fuel (text "OK")
      else
        gdbSendText fuel (text "E01") := by
  have hpointer : (qRcmdPacket command tail).drop 6 =
      command.flatMap formatHexByte ++ 0 :: tail := rfl
  rw [gdbHandleQRcmd, hpointer, gdbDecodeHexString_of]
  by_cases hfits : command.length < 256
  · rw [if_pos hfits, if_pos hfits]
  · rw [if_neg hfits, if_neg hfits]

/-! ## What a command does to the target -/

/-- A programmer that acknowledges everything with the value 0. -/
def zeroHost : Handler Host Unit := fun operation _ =>
  match operation with
  | .usb _ => (.ok [0x82, 0x08, 0x06, 0x00, 0x00, 0x00, 0x00, 0x00, 0x00], ())
  | .recv => (.failed, ())
  | .send _ => (.failed, ())
  | .poll => (false, ())
  | .sleep _ => ((), ())
  | .malloc _ => (false, ())
  | .listen _ => (false, ())
  | .accept => (false, ())

namespace NumberCommand

/-- The command with these numbers, to the end of the packet. -/
def answered (fuel : Nat) (numbers : NumberCommand Word) : Gdb Unit :=
  numbers.act fuel >>= fun _ => gdbSendText fuel (text "OK")

/-- The refusal of a command, to the end of the packet. -/
def refused (fuel : Nat) (command : NumberCommand α) : Gdb Unit :=
  gdbSendOutput fuel command.failure >>= fun _ => gdbSendText fuel (text "OK")

/-- The request the command makes after some acknowledged ones. -/
def asks (fuel : Nat) (conn : GdbConn) (numbers : NumberCommand Word) (rounds : Nat) :
    Option HostOp :=
  (((numbers.answered fuel).run conn).follow zeroHost rounds ()).2.pending

section Asks

variable {conn : GdbConn} (hlink : conn.link.Usable) (fuel : Nat)

include hlink

/-- The requests that carry the numbers of a command. -/
theorem asks_numbers (address csr value : Word) :
    asks fuel conn (read32 address) 3 = some (.usb (regRequest wlDmiData0 address wlRegOpWrite)) ∧
    asks fuel conn (write32 address value) 3 =
      some (.usb (regRequest wlDmiData0 address wlRegOpWrite)) ∧
    asks fuel conn (write32 address value) 6 =
      some (.usb (regRequest wlDmiData0 value wlRegOpWrite)) ∧
    asks fuel conn (getcsr csr) 0 = some (.usb (regRequest wlDmiDmcommand
      (wlDmCmdGprBase ||| wlDmCmdTransfer ||| csr) wlRegOpWrite)) ∧
    asks fuel conn (setcsr csr value) 0 =
      some (.usb (regRequest wlDmiData0 value wlRegOpWrite)) ∧
    asks fuel conn (setcsr csr value) 1 = some (.usb (regRequest wlDmiDmcommand
      (wlDmCmdGprBase ||| wlDmCmdTransfer ||| csr ||| wlDmCmdWrite) wlRegOpWrite)) := by
  obtain ⟨⟨transport, isOpen, chipId, configured⟩, chip, quit, breakpoints⟩ := conn
  obtain ⟨rfl, rfl⟩ := hlink
  exact ⟨rfl, rfl, rfl, rfl, rfl, rfl⟩

/-- Acting begins with a request of the programmer's. -/
theorem asks_first (numbers : NumberCommand Word) :
    ∃ bytes, asks fuel conn numbers 0 = some (.usb bytes) := by
  obtain ⟨⟨transport, isOpen, chipId, configured⟩, chip, quit, breakpoints⟩ := conn
  obtain ⟨rfl, rfl⟩ := hlink
  cases numbers with
  | read32 address => exact ⟨_, rfl⟩
  | write32 address value => exact ⟨_, rfl⟩
  | getcsr csr => exact ⟨_, rfl⟩
  | setcsr csr value => exact ⟨_, rfl⟩

end Asks

end NumberCommand

/-- The value of a register access is in its request. -/
theorem value_of_request {reg operation : Byte} {first second : Word}
    (h : (some (.usb (regRequest reg first operation)) : Option HostOp) =
      some (.usb (regRequest reg second operation))) : first = second := by
  injection h with h
  injection h with h
  exact (regRequest_injective h).2.1

/-- CSR numbers are told apart in the command that carries them. -/
theorem csrCommand_injective {base first second : Word} (hbase : base.toNat % 2 ^ 12 = 0)
    (hfirst : first < 0x1000) (hsecond : second < 0x1000)
    (h : base ||| first = base ||| second) : first = second := by
  have hsum : ∀ csr : Word, csr < 0x1000 → (base ||| csr).toNat = base.toNat + csr.toNat := by
    intro csr hcsr
    have hlow : csr.toNat < 2 ^ 12 := hcsr
    have hhigh : base.toNat = 2 ^ 12 * (base.toNat / 2 ^ 12) := by omega
    rw [BitVec.toNat_or, hhigh, ← Nat.two_pow_add_eq_or_of_lt hlow]
  have hnat := congrArg BitVec.toNat h
  rw [hsum first hfirst, hsum second hsecond] at hnat
  exact BitVec.eq_of_toNat_eq (by omega)

namespace NumberCommand

variable {conn : GdbConn} {command : NumberCommand α}

theorem answered_injective (hlink : conn.link.Usable) (fuel : Nat) {f g : α → Option Word}
    {first second : NumberCommand Word} (hfirst : command.reads f = some first)
    (hsecond : command.reads g = some second) (hrange : first.InRange) (hrange' : second.InRange)
    (h : (first.answered fuel).run conn = (second.answered fuel).run conn) : first = second := by
  have hasks (rounds : Nat) : asks fuel conn first rounds = asks fuel conn second rounds := by
    unfold asks
    rw [h]
  have hnumbers := asks_numbers hlink fuel
  cases command with
  | read32 address =>
      obtain ⟨first, -, rfl⟩ := Option.map_eq_some_iff.mp hfirst
      obtain ⟨second, -, rfl⟩ := Option.map_eq_some_iff.mp hsecond
      have haddress := hasks 3
      rw [(hnumbers first 0 0).1, (hnumbers second 0 0).1] at haddress
      rw [value_of_request haddress]
  | write32 address value =>
      obtain ⟨first, -, hfirst⟩ := Option.bind_eq_some_iff.mp hfirst
      obtain ⟨value, -, hfirst⟩ := Option.bind_eq_some_iff.mp hfirst
      obtain ⟨second, -, hsecond⟩ := Option.bind_eq_some_iff.mp hsecond
      obtain ⟨value', -, hsecond⟩ := Option.bind_eq_some_iff.mp hsecond
      cases hfirst
      cases hsecond
      have haddress := hasks 3
      have hvalue := hasks 6
      rw [(hnumbers first 0 value).2.1, (hnumbers second 0 value').2.1] at haddress
      rw [(hnumbers first 0 value).2.2.1, (hnumbers second 0 value').2.2.1] at hvalue
      rw [value_of_request haddress, value_of_request hvalue]
  | getcsr csr =>
      obtain ⟨first, -, rfl⟩ := Option.map_eq_some_iff.mp hfirst
      obtain ⟨second, -, rfl⟩ := Option.map_eq_some_iff.mp hsecond
      have hcsr := hasks 0
      rw [(hnumbers 0 first 0).2.2.2.1, (hnumbers 0 second 0).2.2.2.1] at hcsr
      rw [csrCommand_injective (by decide) hrange hrange' (value_of_request hcsr)]
  | setcsr csr value =>
      obtain ⟨first, -, hfirst⟩ := Option.bind_eq_some_iff.mp hfirst
      obtain ⟨value, -, hfirst⟩ := Option.bind_eq_some_iff.mp hfirst
      obtain ⟨second, -, hsecond⟩ := Option.bind_eq_some_iff.mp hsecond
      obtain ⟨value', -, hsecond⟩ := Option.bind_eq_some_iff.mp hsecond
      cases hfirst
      cases hsecond
      have hvalue := hasks 0
      have hcsr := hasks 1
      rw [(hnumbers 0 first value).2.2.2.2.1, (hnumbers 0 second value').2.2.2.2.1] at hvalue
      rw [(hnumbers 0 first value).2.2.2.2.2, (hnumbers 0 second value').2.2.2.2.2] at hcsr
      have hcommand := value_of_request hcsr
      rw [BitVec.or_assoc, BitVec.or_comm first, ← BitVec.or_assoc, BitVec.or_assoc _ second,
        BitVec.or_comm second, ← BitVec.or_assoc] at hcommand
      rw [value_of_request hvalue,
        csrCommand_injective (by decide) hrange hrange' hcommand]

/-- A refusal asks nothing of the target. -/
theorem refused_targetFree (fuel : Nat) (command : NumberCommand α) :
    targetFree.StateMem (command.refused fuel) :=
  targetFree.stateBind (gdbSendOutput_mem (targetFree_hasSocket _) fuel _) fun _ =>
    gdbSendPacket_mem (targetFree_hasSocket fun _ => True) fuel fun _ => trivial

theorem answered_ne (hlink : conn.link.Usable) (fuel : Nat) (numbers : NumberCommand Word)
    {program : Gdb Unit} (hfree : targetFree.StateMem program) :
    (numbers.answered fuel).run conn ≠ program.run conn := by
  intro hsame
  obtain ⟨bytes, hbytes⟩ := asks_first hlink fuel numbers
  unfold asks at hbytes
  rw [hsame] at hbytes
  exact pending_of_targetFree (hfree conn).1 bytes (by simpa [Program.follow] using hbytes)

end NumberCommand

/-! ## Where the reading is the meaning -/

/-- An argument that is read as what it denotes. -/
def MonitorArgument.Understood (argument : MonitorArgument) : Prop :=
  (hexWord argument.bytes).isSome ∨ ∃ zeros, argument.bytes = text "0x" ++ zeros ∧ zeros ≠ [] ∧
    ∀ c ∈ zeros, c = ascii '0'

/-- An argument that does not begin with a digit. -/
def MonitorArgument.NoDigit (argument : MonitorArgument) : Prop :=
  isHexDigit (argument.bytes.getD 0 0) = false

/-- The command lines of which the tool makes what is typed: a short line one
of whose words does not begin with a digit, or all of whose words are understood;
a line that is too long if some word is no number. Of a CSR beyond the twelfth
bit nothing is asked. -/
def NumberCommand.Understood (command : NumberCommand MonitorArgument) : Prop :=
  (∃ numbers, command.reads MonitorArgument.number = some numbers ∧ ¬numbers.InRange) ∨
    if command.typed.length < 256 then
      (∃ argument ∈ command.arguments, argument.NoDigit) ∨
        ∀ argument ∈ command.arguments, argument.Understood
    else
      ∃ argument ∈ command.arguments, argument.number = none

/-- What a monitor packet has to come to: one access with the numbers its words
denote, or a refusal that asks nothing of the target. -/
def NumberCommand.ActsAsTyped (fuel : Nat) (conn : GdbConn) (tail : List Byte)
    (command : NumberCommand MonitorArgument) : Prop :=
  let packet := (gdbHandleQRcmd fuel (qRcmdPacket command.typed tail)).run conn
  match command.reads MonitorArgument.number with
  | some numbers => numbers.InRange → packet = (numbers.answered fuel).run conn
  | none => targetFree.Mem packet ∧
      (packet = (command.refused fuel).run conn ∨ packet = (gdbSendText fuel (text "E01")).run conn)

namespace MonitorArgument

variable (argument : MonitorArgument)

theorem parsed_eq :
    argument.parsed =
      if argument.bytes.takeWhile isHexDigit = [] then none
      else some (BitVec.ofNat 32 (hexValue (argument.bytes.takeWhile isHexDigit))) := by
  rw [parsed, parseHexU32_eq]
  by_cases hnone : argument.bytes.takeWhile isHexDigit = []
  · rw [if_pos hnone, if_pos hnone]
    rfl
  · rw [if_neg hnone, if_neg hnone]
    rfl

theorem parsed_none_iff : argument.parsed = none ↔ argument.NoDigit := by
  obtain ⟨c, rest, hbytes⟩ := List.exists_cons_of_ne_nil argument.nonempty
  rw [parsed_eq, NoDigit, hbytes, List.getD_cons_zero]
  cases hdigit : isHexDigit c with
  | true => simp [hdigit]
  | false => simp [hdigit]

/-- The prefix of an argument that has one, and what follows it. -/
theorem prefixed_iff : strStarts argument.bytes "0x" = true ↔
    ∃ digits, argument.bytes = text "0x" ++ digits := by
  rw [strStarts, beq_iff_eq]
  constructor
  · intro htake
    exact ⟨argument.bytes.drop 2, by rw [← htake]; exact (List.take_append_drop 2 _).symm⟩
  · rintro ⟨digits, hbytes⟩
    rw [hbytes]
    rfl

/-- After the prefix the tool reads the number 0. -/
theorem parsed_prefixed {digits : List Byte} (hbytes : argument.bytes = text "0x" ++ digits) :
    argument.parsed = some 0 := by
  rw [parsed, hbytes]
  rfl

theorem hexWord_prefixed (digits : List Byte) : hexWord (text "0x" ++ digits) = none := by
  have hx : isHexDigit (ascii 'x') = false := by decide
  have hdigits : ¬(text "0x" ++ digits).all isHexDigit = true := by
    intro hall
    have hmem : ascii 'x' ∈ text "0x" ++ digits := List.mem_append_left _ (by decide)
    rw [List.all_eq_true.mp hall _ hmem] at hx
    cases hx
  unfold hexWord
  rw [if_neg fun h => hdigits h.2.1]

/-- Where the tool reads the number an argument denotes. -/
theorem understood_iff :
    argument.Understood ↔
      ∃ number, argument.number = some number ∧ argument.parsed = some number := by
  by_cases hstarts : strStarts argument.bytes "0x" = true
  · obtain ⟨digits, hbytes⟩ := argument.prefixed_iff.mp hstarts
    have hnumber : argument.number = hexWord digits := by
      rw [number, if_pos hstarts, hbytes]
      rfl
    rw [Understood, hnumber, argument.parsed_prefixed hbytes, hbytes, hexWord_prefixed]
    constructor
    · rintro (hnone | ⟨zeros, hzeros, hsome, hall⟩)
      · cases hnone
      · obtain rfl := List.append_cancel_left hzeros
        exact ⟨0, hexWord_eq_zero.mpr ⟨hsome, hall⟩, rfl⟩
    · rintro ⟨number, hdigits, hzero⟩
      cases hzero
      obtain ⟨hsome, hall⟩ := hexWord_eq_zero.mp hdigits
      exact .inr ⟨digits, rfl, hsome, hall⟩
  · have hnumber : argument.number = hexWord argument.bytes := if_neg hstarts
    rw [Understood, hnumber]
    constructor
    · rintro (hsome | ⟨zeros, hzeros, -⟩)
      · obtain ⟨number, hword⟩ := Option.isSome_iff_exists.mp hsome
        exact ⟨number, hword, by rw [parsed, parseHexU32_hexWord hword]; rfl⟩
      · exact absurd (argument.prefixed_iff.mpr ⟨zeros, hzeros⟩) hstarts
    · rintro ⟨number, hword, -⟩
      exact .inl (by rw [hword]; rfl)

theorem number_none_of_noDigit (h : argument.NoDigit) : argument.number = none := by
  obtain ⟨c, rest, hbytes⟩ := List.exists_cons_of_ne_nil argument.nonempty
  have hword : ∀ digits, hexWord (c :: digits) = none := by
    intro digits
    rw [NoDigit, hbytes, List.getD_cons_zero] at h
    unfold hexWord
    rw [if_neg]
    rintro ⟨-, hall, -⟩
    rw [List.all_cons, h] at hall
    cases hall
  have hstarts : ¬strStarts argument.bytes "0x" = true := by
    rw [prefixed_iff]
    rintro ⟨digits, hprefixed⟩
    have hparsed := argument.parsed_prefixed hprefixed
    rw [argument.parsed_none_iff.mpr h] at hparsed
    cases hparsed
  rw [number, if_neg hstarts, hbytes]
  exact hword rest

end MonitorArgument
namespace NumberCommand

/-- A command can be read where each of its words can. -/
theorem reads_none_iff (parse : α → Option β) (command : NumberCommand α) :
    command.reads parse = none ↔ ∃ argument ∈ command.arguments, parse argument = none := by
  cases command with
  | read32 address => simp [reads, arguments]
  | write32 address value =>
      cases haddress : parse address <;> cases hvalue : parse value <;>
        simp [reads, arguments, haddress, hvalue]
  | getcsr csr => simp [reads, arguments]
  | setcsr csr value =>
      cases hcsr : parse csr <;> cases hvalue : parse value <;>
        simp [reads, arguments, hcsr, hvalue]

/-- Two readings of a command agree where they agree on its words. -/
theorem reads_agree_iff (f g : α → Option β) (command : NumberCommand α) :
    (∃ numbers, command.reads f = some numbers ∧ command.reads g = some numbers) ↔
      ∀ argument ∈ command.arguments, ∃ number, f argument = some number ∧
        g argument = some number := by
  cases command with
  | read32 address =>
      cases hf : f address <;> cases hg : g address <;> simp [reads, arguments, hf, hg]
  | write32 address value =>
      cases hf : f address <;> cases hf' : f value <;> cases hg : g address <;>
        cases hg' : g value <;> simp [reads, arguments, hf, hf', hg, hg']
  | getcsr csr =>
      cases hf : f csr <;> cases hg : g csr <;> simp [reads, arguments, hf, hg]
  | setcsr csr value =>
      cases hf : f csr <;> cases hf' : f value <;> cases hg : g csr <;>
        cases hg' : g value <;> simp [reads, arguments, hf, hf', hg, hg']

end NumberCommand

/-- A number is read as itself or as 0. -/
theorem MonitorArgument.parsed_of_number (argument : MonitorArgument) {number : Word}
    (h : argument.number = some number) :
    argument.parsed = some number ∨ argument.parsed = some 0 := by
  by_cases hstarts : strStarts argument.bytes "0x" = true
  · obtain ⟨digits, hbytes⟩ := argument.prefixed_iff.mp hstarts
    exact .inr (argument.parsed_prefixed hbytes)
  · rw [MonitorArgument.number, if_neg hstarts] at h
    exact .inl (by rw [parsed, parseHexU32_hexWord h]; rfl)

namespace NumberCommand

/-- Whatever is read in numerals, a CSR stays one. -/
theorem reads_inRange {command : NumberCommand MonitorArgument} {numbers : NumberCommand Word}
    (h : command.reads MonitorArgument.number = some numbers) (hrange : numbers.InRange) :
    ∃ read, command.reads MonitorArgument.parsed = some read ∧ read.InRange := by
  have hsmall {argument : MonitorArgument} {csr : Word} (hcsr : argument.number = some csr)
      (hrange : csr < 0x1000) : ∃ read, argument.parsed = some read ∧ read < 0x1000 := by
    rcases argument.parsed_of_number hcsr with hsame | hzero
    · exact ⟨csr, hsame, hrange⟩
    · exact ⟨0, hzero, by decide⟩
  have hsome {argument : MonitorArgument} {value : Word} (hvalue : argument.number = some value) :
      ∃ read, argument.parsed = some read := by
    rcases argument.parsed_of_number hvalue with hsame | hzero
    · exact ⟨value, hsame⟩
    · exact ⟨0, hzero⟩
  cases command with
  | read32 address =>
      obtain ⟨number, hnumber, rfl⟩ := Option.map_eq_some_iff.mp h
      obtain ⟨read, hread⟩ := hsome hnumber
      exact ⟨.read32 read, by rw [reads, hread]; rfl, trivial⟩
  | write32 address value =>
      obtain ⟨number, hnumber, h⟩ := Option.bind_eq_some_iff.mp h
      obtain ⟨stored, hstored, -⟩ := Option.bind_eq_some_iff.mp h
      obtain ⟨read, hread⟩ := hsome hnumber
      obtain ⟨read', hread'⟩ := hsome hstored
      exact ⟨.write32 read read', by rw [reads, hread, hread']; rfl, trivial⟩
  | getcsr csr =>
      obtain ⟨number, hnumber, rfl⟩ := Option.map_eq_some_iff.mp h
      obtain ⟨read, hread, hread_range⟩ := hsmall hnumber hrange
      exact ⟨.getcsr read, by rw [reads, hread]; rfl, hread_range⟩
  | setcsr csr value =>
      obtain ⟨number, hnumber, h⟩ := Option.bind_eq_some_iff.mp h
      obtain ⟨stored, hstored, h⟩ := Option.bind_eq_some_iff.mp h
      cases h
      obtain ⟨read, hread, hread_range⟩ := hsmall hnumber hrange
      obtain ⟨read', hread'⟩ := hsome hstored
      exact ⟨.setcsr read read', by rw [reads, hread, hread']; rfl, hread_range⟩

/-- The packet of a short line, by what the tool reads in its words. -/
theorem gdbHandleQRcmd_typed (fuel : Nat) {command : NumberCommand MonitorArgument}
    (hshort : command.typed.length < 256) (tail : List Byte) :
    gdbHandleQRcmd fuel (qRcmdPacket command.typed tail) =
      match command.reads MonitorArgument.parsed with
      | some numbers => numbers.answered fuel
      | none => command.refused fuel := by
  rw [gdbHandleQRcmd_packet, if_pos hshort, gdbMonitorCommand_typed]
  cases command.reads MonitorArgument.parsed with
  | some numbers => rfl
  | none => rfl

theorem refusedLong_targetFree (fuel : Nat) :
    targetFree.StateMem (gdbSendText fuel (text "E01")) :=
  gdbSendPacket_mem (targetFree_hasSocket fun _ => True) fuel fun _ => trivial

/-- Words that are no numerals: a refusal is due, and is made where a word does
not begin with a digit. -/
theorem actsAsTyped_of_none {conn : GdbConn} (hlink : conn.link.Usable) (fuel : Nat)
    (tail : List Byte) {command : NumberCommand MonitorArgument}
    (hnone : command.reads MonitorArgument.number = none) :
    command.ActsAsTyped fuel conn tail ↔
      (command.typed.length < 256 → ∃ argument ∈ command.arguments, argument.NoDigit) := by
  have hnoDigit : command.reads MonitorArgument.parsed = none ↔
      ∃ argument ∈ command.arguments, argument.NoDigit := by
    rw [reads_none_iff]
    simp only [MonitorArgument.parsed_none_iff]
  unfold ActsAsTyped
  rw [hnone, ← hnoDigit]
  dsimp only
  by_cases hshort : command.typed.length < 256
  · rw [gdbHandleQRcmd_typed fuel hshort]
    constructor
    · rintro ⟨hfree, -⟩ -
      cases hread : command.reads MonitorArgument.parsed with
      | none => rfl
      | some numbers =>
          rw [hread] at hfree
          obtain ⟨bytes, hbytes⟩ := asks_first hlink fuel numbers
          unfold asks at hbytes
          exact absurd hbytes (by simpa [Program.follow] using pending_of_targetFree hfree bytes)
    · intro hread
      rw [hread hshort]
      exact ⟨(refused_targetFree fuel command conn).1, .inl rfl⟩
  · rw [gdbHandleQRcmd_packet, if_neg hshort]
    constructor
    · intro _ h
      exact absurd h hshort
    · intro _
      exact ⟨(refusedLong_targetFree fuel conn).1, .inr rfl⟩

/-- Words that are numerals: the access with their numbers is due. -/
theorem actsAsTyped_of_some {conn : GdbConn} (hlink : conn.link.Usable) (fuel : Nat)
    (tail : List Byte) {command : NumberCommand MonitorArgument} {numbers : NumberCommand Word}
    (hsome : command.reads MonitorArgument.number = some numbers) :
    command.ActsAsTyped fuel conn tail ↔
      (numbers.InRange → command.typed.length < 256 ∧
        ∀ argument ∈ command.arguments, argument.Understood) := by
  have hunderstood : (∀ argument ∈ command.arguments, argument.Understood) ↔
      command.reads MonitorArgument.parsed = some numbers := by
    simp only [MonitorArgument.understood_iff, ← reads_agree_iff, hsome]
    constructor
    · rintro ⟨read, hread, hparsed⟩
      cases hread
      exact hparsed
    · intro hparsed
      exact ⟨numbers, rfl, hparsed⟩
  unfold ActsAsTyped
  rw [hsome, hunderstood]
  dsimp only
  refine forall_congr' fun hrange => ?_
  by_cases hshort : command.typed.length < 256
  · rw [gdbHandleQRcmd_typed fuel hshort]
    obtain ⟨read, hread, hread_range⟩ := reads_inRange hsome hrange
    rw [hread]
    dsimp only
    constructor
    · intro hsame
      rw [answered_injective hlink fuel hread hsome hread_range hrange hsame]
      exact ⟨hshort, rfl⟩
    · rintro ⟨-, hsame⟩
      cases hsame
      rfl
  · rw [gdbHandleQRcmd_packet, if_neg hshort]
    constructor
    · intro hsame
      exact absurd hsame.symm (answered_ne hlink fuel numbers (refusedLong_targetFree fuel))
    · rintro ⟨h, -⟩
      exact absurd h hshort

end NumberCommand

/-- The tool makes of a command line what is typed exactly where it understands it. -/
theorem gdbHandleQRcmd_actsAsTyped_iff (fuel : Nat) (conn : GdbConn) (hlink : conn.link.Usable)
    (tail : List Byte) (command : NumberCommand MonitorArgument) :
    command.ActsAsTyped fuel conn tail ↔ command.Understood := by
  unfold NumberCommand.Understood
  cases hnumbers : command.reads MonitorArgument.number with
  | none =>
      have hbad := (NumberCommand.reads_none_iff _ _).mp hnumbers
      have hnot : ¬∀ argument ∈ command.arguments, argument.Understood := by
        intro hall
        obtain ⟨argument, hmem, hnone⟩ := hbad
        obtain ⟨number, hsome, -⟩ := argument.understood_iff.mp (hall argument hmem)
        rw [hnone] at hsome
        cases hsome
      rw [NumberCommand.actsAsTyped_of_none hlink fuel tail hnumbers]
      by_cases hshort : command.typed.length < 256
      · simp [hshort, hnot]
      · simp [hshort, hbad]
  | some numbers =>
      have hgood : ¬∃ argument ∈ command.arguments, argument.number = none := by
        rw [← NumberCommand.reads_none_iff, hnumbers]
        exact nofun
      have hdigits : ¬∃ argument ∈ command.arguments, argument.NoDigit := by
        rintro ⟨argument, hmem, hnoDigit⟩
        exact hgood ⟨argument, hmem, argument.number_none_of_noDigit hnoDigit⟩
      rw [NumberCommand.actsAsTyped_of_some hlink fuel tail hnumbers]
      by_cases hrange : numbers.InRange
      · by_cases hshort : command.typed.length < 256
        · simp [hrange, hshort, hdigits]
        · simp [hrange, hshort, hgood]
      · simp [hrange]

/-- `write32 20000000 12345678` -/
def bareWrite : NumberCommand MonitorArgument :=
  .write32 ⟨text "20000000", by decide, by decide⟩ ⟨text "12345678", by decide, by decide⟩

/-- `read32 0x40021018` -/
def prefixedRead : NumberCommand MonitorArgument :=
  .read32 ⟨text "0x40021018", by decide, by decide⟩

theorem gdbHandleQRcmd_actsAsTyped_bare :
    (gdbHandleQRcmd 40 (qRcmdPacket bareWrite.typed [])).run
        (GdbConn.fresh wlLinkeAttachTransport ch32v003) =
      ((NumberCommand.write32 0x20000000 0x12345678).answered 40).run
        (GdbConn.fresh wlLinkeAttachTransport ch32v003) := by
  have hunderstood : bareWrite.Understood := by
    refine .inr ?_
    rw [if_pos (by decide)]
    refine .inr fun argument hargument => .inl ?_
    revert argument
    decide
  have hacts := (gdbHandleQRcmd_actsAsTyped_iff 40
    (GdbConn.fresh wlLinkeAttachTransport ch32v003) ⟨rfl, rfl⟩ [] bareWrite).mpr hunderstood
  exact hacts trivial

/-- The prefix is read as the number 0. -/
theorem gdbHandleQRcmd_reads_zero :
    ¬prefixedRead.ActsAsTyped 40 (GdbConn.fresh wlLinkeAttachTransport ch32v003) [] := by
  have hnumbers : prefixedRead.reads MonitorArgument.number = some (.read32 0x40021018) := rfl
  rw [NumberCommand.actsAsTyped_of_some ⟨rfl, rfl⟩ 40 [] hnumbers]
  intro h
  obtain ⟨-, hunderstood⟩ := h trivial
  obtain ⟨number, hmeant, hread⟩ :=
    (MonitorArgument.understood_iff _).mp (hunderstood _ List.mem_cons_self)
  have hmeant : some (0x40021018 : Word) = some number := hmeant
  have hread : some (0 : Word) = some number := hread
  rw [← hread] at hmeant
  exact absurd hmeant (by decide)

end WchLink
