import WchLink.Gdb.Registers
import WchLink.SimulatorMemory

/-! # Memory and breakpoint packets

The texts of `m`, `M`, `Z0` and `z0` with any spelling of their numbers, what
the parsers make of them and what the handlers then do.
-/

namespace WchLink

open Bytes Interaction

/-! ## Numbers and data -/

/-- A numeral in any spelling and the word it reads as. -/
structure Numeral where
  digits : List Byte
  value : Word
  nonempty : digits ≠ []
  reads : parseHexDigits 0 digits = (value, [])

/-- The shortest numeral of a word. -/
def Numeral.of (value : Word) : Numeral where
  digits := formatHex 0 value
  value := value
  nonempty := by
    rw [formatHex, Nat.zero_sub, List.replicate_zero, List.nil_append]
    exact fun h => Nat.toDigits_ne_nil (List.map_eq_nil_iff.mp h)
  reads := parseHexDigits_formatHex value

theorem Numeral.parse (number : Numeral) {c : Byte} (hend : hexNibble c = none)
    (rest : List Byte) :
    parseHexU32 (number.digits ++ c :: rest) = some (number.value, c :: rest) := by
  have hfirst : (hexNibble ((number.digits ++ c :: rest).getD 0 0)).isSome = true := by
    cases hdigits : number.digits with
    | nil => exact absurd hdigits number.nonempty
    | cons digit digits =>
        have hhex := isHex_of_parseHexDigits number.reads
        rw [hdigits] at hhex
        exact hhex digit List.mem_cons_self
  rw [parseHexU32, if_pos hfirst, parseHexDigits_append number.reads hend]

/-- Hex data in any spelling and the bytes it stands for. -/
structure HexBytes where
  digits : List Byte
  bytes : List Byte
  length_digits : digits.length = 2 * bytes.length
  reads : parseHexBytes digits bytes.length = some bytes

theorem parseHexBytes_append {digits bytes : List Byte} {count : Nat}
    (hlength : digits.length = 2 * count) (hreads : parseHexBytes digits count = some bytes)
    (rest : List Byte) : parseHexBytes (digits ++ rest) count = some bytes := by
  induction count generalizing digits bytes with
  | zero => exact hreads
  | succ count ih =>
      obtain ⟨high, low, digits, rfl⟩ : ∃ high low digits', digits = high :: low :: digits' := by
        match digits, hlength with
        | high :: low :: digits, _ => exact ⟨high, low, digits, rfl⟩
      have hlength' : digits.length = 2 * count := by
        simp only [List.length_cons] at hlength
        omega
      rw [parseHexBytes] at hreads ⊢
      simp only [List.cons_append, List.getD_cons_zero, List.getD_cons_succ, List.drop_succ_cons,
        List.drop_zero] at hreads ⊢
      cases hhigh : hexNibble high with
      | none => rw [hhigh] at hreads; cases hreads
      | some high =>
          cases hlow : hexNibble low with
          | none => rw [hhigh, hlow] at hreads; cases hreads
          | some low =>
              rw [hhigh, hlow] at hreads
              cases hrest : parseHexBytes digits count with
              | none => rw [hrest] at hreads; cases hreads
              | some bytes' =>
                  rw [hrest] at hreads
                  rw [ih hlength' hrest]
                  exact hreads

theorem HexBytes.parse (data : HexBytes) (rest : List Byte) :
    parseHexBytes (data.digits ++ rest) data.bytes.length = some data.bytes :=
  parseHexBytes_append data.length_digits data.reads rest

theorem length_flatMap_formatHexByte (bytes : List Byte) :
    (bytes.flatMap formatHexByte).length = 2 * bytes.length := by
  induction bytes with
  | nil => rfl
  | cons byte bytes ih =>
      rw [List.flatMap_cons, List.length_append, ih, List.length_cons]
      show 2 + _ = _
      omega

theorem parseHexBytes_flatMap (bytes : List Byte) :
    parseHexBytes (bytes.flatMap formatHexByte) bytes.length = some bytes := by
  induction bytes with
  | nil => rfl
  | cons byte bytes ih =>
      rw [List.flatMap_cons, List.length_cons, parseHexBytes, formatHexByte, List.cons_append,
        List.cons_append, List.nil_append, List.getD_cons_zero, List.getD_cons_succ,
        List.getD_cons_zero, hexNibble_hexDigit, hexNibble_hexDigit]
      show (do
        let rest ← parseHexBytes (bytes.flatMap formatHexByte) bytes.length
        return ((byte >>> 4).setWidth 4 ++ byte.setWidth 4) :: rest : Option (List Byte)) = _
      rw [ih]
      exact congrArg (fun first => some (first :: bytes)) (high_append_low byte)

/-- Lower-case hex data. -/
def HexBytes.of (bytes : List Byte) : HexBytes where
  digits := bytes.flatMap formatHexByte
  bytes := bytes
  length_digits := length_flatMap_formatHexByte bytes
  reads := parseHexBytes_flatMap bytes

/-! ## The packets -/

/-- The packet that reads `length` bytes at `address`. -/
def readMemoryPacket (address length : Numeral) : List Byte :=
  text "m" ++ address.digits ++ text "," ++ length.digits

/-- The packet that writes `data` to `address`. -/
def writeMemoryPacket (address length : Numeral) (data : HexBytes) : List Byte :=
  text "M" ++ address.digits ++ text "," ++ length.digits ++ text ":" ++ data.digits

/-- A breakpoint packet; `command` is `Z` or `z`. -/
def breakpointPacket (command : String) (address kind : Numeral) : List Byte :=
  text command ++ text "0," ++ address.digits ++ text "," ++ kind.digits

theorem parseMemoryRange_of {packet rest : List Byte} {address length : Numeral} {c : Byte}
    (hend : hexNibble c = none)
    (hpacket : packet.drop 1 = address.digits ++ ascii ',' :: (length.digits ++ c :: rest)) :
    parseMemoryRange packet = some (address.value, length.value, c :: rest) := by
  have haddress := address.parse (by decide : hexNibble (ascii ',') = none)
    (length.digits ++ c :: rest)
  have hlength := length.parse hend rest
  unfold parseMemoryRange
  simp only [hpacket, haddress, Option.bind_eq_bind, Option.bind_some, List.getD_cons_zero,
    List.drop_one, List.tail_cons]
  rw [if_neg (not_not_intro rfl), hlength]
  rfl

theorem parseMemoryRange_readMemoryPacket (address length : Numeral) (tail : List Byte) :
    parseMemoryRange (readMemoryPacket address length ++ 0 :: tail) =
      some (address.value, length.value, 0 :: tail) := by
  refine parseMemoryRange_of (by decide) ?_
  simp [readMemoryPacket, text, ascii]

/-- A write packet is parsed when its length is one the handler has room for. -/
theorem parseMemoryWrite_writeMemoryPacket {address length : Numeral} {data : HexBytes}
    (hlength : length.value.toNat = data.bytes.length) (tail : List Byte) :
    parseMemoryWrite (writeMemoryPacket address length data ++ 0 :: tail) =
      if length.value > gdbMemoryMax then none else some (address.value, data.bytes) := by
  have hrange : parseMemoryRange (writeMemoryPacket address length data ++ 0 :: tail) =
      some (address.value, length.value, ascii ':' :: (data.digits ++ 0 :: tail)) := by
    refine parseMemoryRange_of (by decide) ?_
    simp [writeMemoryPacket, text, ascii]
  unfold parseMemoryWrite
  rw [hrange]
  show (if ascii ':' ≠ ascii ':' ∨ length.value > gdbMemoryMax then none else _) = _
  by_cases hlarge : length.value > gdbMemoryMax
  · rw [if_pos (Or.inr hlarge), if_pos hlarge]
  · have hroom : ¬(ascii ':' ≠ ascii ':' ∨ length.value > gdbMemoryMax) := fun h =>
      h.elim (fun hne => hne rfl) hlarge
    rw [if_neg hroom, if_neg hlarge, List.drop_one, List.tail_cons, hlength, data.parse]
    rfl

theorem parseBreakpoint_breakpointPacket {command : String} (hcommand : command.length = 1)
    (address kind : Numeral) (tail : List Byte) :
    parseBreakpoint (breakpointPacket command address kind ++ 0 :: tail) =
      some (address.value, kind.value) := by
  have hlength : (text command).length = 1 := by
    rw [text, List.length_map]
    exact hcommand
  obtain ⟨c, hc⟩ := List.length_eq_one_iff.mp hlength
  have haddress := address.parse (by decide : hexNibble (ascii ',') = none)
    (kind.digits ++ 0 :: tail)
  have hkind := kind.parse (by decide : hexNibble 0 = none) tail
  have hpacket : breakpointPacket command address kind ++ 0 :: tail =
      c :: ascii '0' :: ascii ',' :: (address.digits ++ ascii ',' :: (kind.digits ++ 0 :: tail)) := by
    rw [breakpointPacket, hc]
    simp [text]
  unfold parseBreakpoint
  rw [hpacket, List.getD_cons_succ, List.getD_cons_zero, if_neg (not_not_intro rfl),
    List.drop_succ_cons, List.drop_succ_cons, List.drop_succ_cons, List.drop_zero, haddress]
  simp only [Option.bind_eq_bind, Option.bind_some, List.getD_cons_zero, List.drop_one,
    List.tail_cons]
  rw [if_neg (not_not_intro rfl), hkind]
  rfl

/-! ## The handlers -/

/-- The body of `gdbHandleM`, once the packet is parsed. -/
def gdbReadMemory (fuel : Nat) (address length : Word) : Gdb Unit := do
  if length > gdbMemoryMax then
    gdbSendText fuel (text "E01")
  else
    match ← onTarget fun link => filled (wlDmReadBlock link address length.toNat) with
    | .error _ => gdbSendText fuel (text "E01")
    | .ok buffer =>
        if ← StateT.lift (request (.malloc (length.toNat * 2 + 1))) then
          gdbSendPacket fuel (buffer.flatMap formatHexByte)
        else
          gdbSendText fuel (text "E01")

/-- The body of `gdbHandleMWrite`, once the packet is parsed. -/
def gdbWriteMemory (fuel : Nat) (address : Word) (buffer : List Byte) : Gdb Unit := do
  match ← onTarget fun link => gdbWriteBytes link address buffer with
  | .error _ => gdbSendText fuel (text "E01")
  | .ok () => gdbSendText fuel (text "OK")

theorem gdbHandlePacket_readMemory (fuel : Nat) (address length : Numeral) (tail : List Byte) :
    gdbHandlePacket fuel (readMemoryPacket address length ++ 0 :: tail) = (do
      gdbReadMemory fuel address.value length.value
      return true) := by
  have hdispatch : gdbHandlePacket fuel (readMemoryPacket address length ++ 0 :: tail) = (do
      gdbHandleM fuel (readMemoryPacket address length ++ 0 :: tail)
      return true) := rfl
  rw [hdispatch, gdbHandleM, parseMemoryRange_readMemoryPacket]
  rfl

theorem gdbHandlePacket_writeMemory (fuel : Nat) {address length : Numeral} {data : HexBytes}
    (hlength : length.value.toNat = data.bytes.length) (hroom : length.value ≤ gdbMemoryMax)
    (tail : List Byte) :
    gdbHandlePacket fuel (writeMemoryPacket address length data ++ 0 :: tail) = (do
      gdbWriteMemory fuel address.value data.bytes
      return true) := by
  have hdispatch : gdbHandlePacket fuel (writeMemoryPacket address length data ++ 0 :: tail) = (do
      gdbHandleMWrite fuel (writeMemoryPacket address length data ++ 0 :: tail)
      return true) := rfl
  have hsmall : ¬length.value > gdbMemoryMax := BitVec.not_lt.mpr hroom
  rw [hdispatch, gdbHandleMWrite, parseMemoryWrite_writeMemoryPacket hlength, if_neg hsmall]
  rfl

theorem gdbHandlePacket_writeMemory_refuses (fuel : Nat) {address length : Numeral}
    {data : HexBytes} (hlength : length.value.toNat = data.bytes.length)
    (hlarge : length.value > gdbMemoryMax) (tail : List Byte) :
    gdbHandlePacket fuel (writeMemoryPacket address length data ++ 0 :: tail) = (do
      gdbSendText fuel (text "E01")
      return true) := by
  have hdispatch : gdbHandlePacket fuel (writeMemoryPacket address length data ++ 0 :: tail) = (do
      gdbHandleMWrite fuel (writeMemoryPacket address length data ++ 0 :: tail)
      return true) := rfl
  rw [hdispatch, gdbHandleMWrite, parseMemoryWrite_writeMemoryPacket hlength, if_pos hlarge]

/-! ## On the simulator -/

theorem gdbWriteBytes_drives {link : Link} (hlink : link.Usable) (address : Word)
    (bytes : List Byte) (target : SimTarget) :
    OnTarget (gdbWriteBytes link address bytes).run target (.ok ())
      (target.storeEach address bytes) := by
  induction bytes generalizing address target with
  | nil => exact Drives.ok ()
  | cons byte rest ih =>
      exact Drives.andThen (wlDmWrite8_drives hlink address byte target) (ih _ _)

end WchLink
