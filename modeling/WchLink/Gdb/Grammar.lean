import WchLink.Gdb.MemoryPackets
import WchLink.Gdb.Numerals

/-! # The grammar of memory, register and breakpoint packets

The handlers of `m`, `M`, `p`, `P`, `Z` and `z` scan a packet from the left and
take the numbers they come by. The grammar of the packets stands beside what
the scanners accept, and what a packet comes to is what they find in it.
-/

namespace WchLink

open Bytes Interaction

/-! ## Requests -/

/-- What a packet asks for. -/
inductive PacketRequest
  | readMemory (address length : Word)
  | writeMemory (address : Word) (data : List Byte)
  | readRegister (reg : Word)
  | writeRegister (reg value : Word)
  | insert (address kind : Word)
  | remove (address kind : Word)

/-- The packets of the grammar: numerals of digits only that fit a word, the
separators between them, two digits for each byte of data and nothing after. -/
inductive Grammatical : List Byte → PacketRequest → Prop
  | readMemory {a l : List Byte} {address length : Word} :
      hexWord a = some address → hexWord l = some length →
      Grammatical (ascii 'm' :: (a ++ ascii ',' :: l)) (.readMemory address length)
  | writeMemory {a l d data : List Byte} {address length : Word} :
      hexWord a = some address → hexWord l = some length → hexBytes d = some data →
      data.length = length.toNat →
      Grammatical (ascii 'M' :: (a ++ ascii ',' :: (l ++ ascii ':' :: d)))
        (.writeMemory address data)
  | readRegister {r : List Byte} {reg : Word} :
      hexWord r = some reg → Grammatical (ascii 'p' :: r) (.readRegister reg)
  | writeRegister {r v : List Byte} {reg value : Word} :
      hexWord r = some reg → hexWord v = some value →
      Grammatical (ascii 'P' :: (r ++ ascii '=' :: v)) (.writeRegister reg value)
  | insert {a k : List Byte} {address kind : Word} :
      hexWord a = some address → hexWord k = some kind →
      Grammatical (ascii 'Z' :: ascii '0' :: ascii ',' :: (a ++ ascii ',' :: k))
        (.insert address kind)
  | remove {a k : List Byte} {address kind : Word} :
      hexWord a = some address → hexWord k = some kind →
      Grammatical (ascii 'z' :: ascii '0' :: ascii ',' :: (a ++ ascii ',' :: k))
        (.remove address kind)

/-- The breakpoint request of a packet's first character. -/
def PacketRequest.breakpoint (command : Byte) (address kind : Word) : PacketRequest :=
  if command = ascii 'Z' then .insert address kind else .remove address kind

/-- The packets the scanners accept, with `tail` behind the packet's end:
numerals of any length, read modulo the word; text of any kind after the last
field; `p` and `P` told apart by an `=` further on and not by the letter; any
character before a breakpoint's address, the end of the packet included. -/
inductive Scans (tail : List Byte) : List Byte → PacketRequest → Prop
  | readMemory {a l rest : List Byte} {address length : Word} :
      Digits a address → Digits l length → NumeralEnds rest →
      Scans tail (ascii 'm' :: (a ++ ascii ',' :: (l ++ rest))) (.readMemory address length)
  | writeMemory {a l d rest data : List Byte} {address length : Word} :
      Digits a address → Digits l length → hexBytes d = some data →
      data.length = length.toNat →
      Scans tail (ascii 'M' :: (a ++ ascii ',' :: (l ++ ascii ':' :: (d ++ rest))))
        (.writeMemory address data)
  | readRegister {c : Byte} {r rest : List Byte} {reg : Word} :
      c = ascii 'p' ∨ c = ascii 'P' → Digits r reg → NumeralEnds rest → ascii '=' ∉ rest →
      Scans tail (c :: (r ++ rest)) (.readRegister reg)
  | writeRegister {c : Byte} {r skipped v rest : List Byte} {reg value : Word} :
      c = ascii 'p' ∨ c = ascii 'P' → Digits r reg → NumeralEnds skipped →
      ascii '=' ∉ skipped → Digits v value → NumeralEnds rest →
      Scans tail (c :: (r ++ (skipped ++ ascii '=' :: (v ++ rest)))) (.writeRegister reg value)
  | breakpoint {c separator : Byte} {a k rest : List Byte} {address kind : Word} :
      c = ascii 'Z' ∨ c = ascii 'z' → Digits a address → Digits k kind → NumeralEnds rest →
      Scans tail (c :: ascii '0' :: separator :: (a ++ ascii ',' :: (k ++ rest)))
        (.breakpoint c address kind)
  | behind {c : Byte} {a k rest : List Byte} {address kind : Word} :
      c = ascii 'Z' ∨ c = ascii 'z' → tail = a ++ ascii ',' :: (k ++ rest) →
      Digits a address → Digits k kind → NumeralEnds rest →
      Scans tail [c, ascii '0'] (.breakpoint c address kind)

/-- The scanners accept the grammar. -/
theorem Grammatical.scans {string : List Byte} {asked : PacketRequest}
    (h : Grammatical string asked) (tail : List Byte) : Scans tail string asked := by
  cases h with
  | readMemory haddress hlength =>
      have hscans := @Scans.readMemory tail _ _ [] _ _ (digits_of_hexWord haddress)
        (digits_of_hexWord hlength) numeralEnds_nil
      rwa [List.append_nil] at hscans
  | writeMemory haddress hlength hdata hcount =>
      have hscans := @Scans.writeMemory tail _ _ _ [] _ _ _ (digits_of_hexWord haddress)
        (digits_of_hexWord hlength) hdata hcount
      rwa [List.append_nil] at hscans
  | readRegister hreg =>
      have hscans := @Scans.readRegister tail _ _ [] _ (.inl rfl) (digits_of_hexWord hreg)
        numeralEnds_nil List.not_mem_nil
      rwa [List.append_nil] at hscans
  | writeRegister hreg hvalue =>
      have hscans := @Scans.writeRegister tail _ _ [] _ [] _ _ (.inr rfl) (digits_of_hexWord hreg)
        numeralEnds_nil List.not_mem_nil (digits_of_hexWord hvalue) numeralEnds_nil
      rwa [List.nil_append, List.append_nil] at hscans
  | insert haddress hkind =>
      have hscans := @Scans.breakpoint tail _ (ascii ',') _ _ [] _ _ (.inl rfl)
        (digits_of_hexWord haddress) (digits_of_hexWord hkind) numeralEnds_nil
      rwa [List.append_nil] at hscans
  | remove haddress hkind =>
      have hscans := @Scans.breakpoint tail _ (ascii ',') _ _ [] _ _ (.inr rfl)
        (digits_of_hexWord haddress) (digits_of_hexWord hkind) numeralEnds_nil
      rwa [List.append_nil] at hscans

/-! ## The scanners -/

/-- A number and the separator behind it. -/
theorem parseHexU32_separated {pointer rest : List Byte} {number : Word} {separator : Byte}
    (hseparator : separator ≠ 0) (hdigit : isHexDigit separator = false) :
    (parseHexU32 pointer = some (number, rest) ∧ rest.getD 0 0 = separator) ↔
      ∃ digits more, pointer = digits ++ separator :: more ∧ Digits digits number ∧
        rest = separator :: more := by
  rw [parseHexU32_iff]
  constructor
  · rintro ⟨⟨digits, hpointer, hdigits, -⟩, hhead⟩
    cases rest with
    | nil => exact absurd hhead.symm hseparator
    | cons c more =>
        rw [List.getD_cons_zero] at hhead
        subst hhead
        exact ⟨digits, more, hpointer, hdigits, rfl⟩
  · rintro ⟨digits, more, hpointer, hdigits, rfl⟩
    exact ⟨⟨digits, hpointer, hdigits, (numeralEnds_cons more).mpr hdigit⟩, rfl⟩

/-- An address, a comma and a second number. -/
theorem parseMemoryRange_iff {payload rest : List Byte} {address length : Word} :
    parseMemoryRange payload = some (address, length, rest) ↔
      ∃ a l, payload.drop 1 = a ++ ascii ',' :: (l ++ rest) ∧ Digits a address ∧
        Digits l length ∧ NumeralEnds rest := by
  have hcomma (number : Word) (after : List Byte) := @parseHexU32_separated (payload.drop 1)
    after number (ascii ',') (by decide) (by decide)
  unfold parseMemoryRange
  constructor
  · intro h
    obtain ⟨⟨number, after⟩, hfirst, h⟩ := Option.bind_eq_some_iff.mp h
    dsimp only at h
    split at h
    · cases h
    · rename_i hhead
      obtain ⟨⟨second, last⟩, hsecond, h⟩ := Option.bind_eq_some_iff.mp h
      cases h
      obtain ⟨a, more, hpointer, ha, rfl⟩ := (hcomma _ _).mp ⟨hfirst, not_not.mp hhead⟩
      obtain ⟨l, hmore, hl, hends⟩ := parseHexU32_iff.mp hsecond
      rw [List.drop_one, List.tail_cons] at hmore
      exact ⟨a, l, by rw [hpointer, hmore], ha, hl, hends⟩
  · rintro ⟨a, l, hpointer, ha, hl, hends⟩
    obtain ⟨hfirst, hhead⟩ := (hcomma _ _).mpr ⟨a, l ++ rest, hpointer, ha, rfl⟩
    have hsecond : parseHexU32 (l ++ rest) = some (length, rest) :=
      parseHexU32_iff.mpr ⟨l, rfl, hl, hends⟩
    rw [hfirst]
    simp only [Option.bind_eq_bind, Option.bind_some, hhead, ne_eq, not_true_eq_false, if_false,
      List.drop_one, List.tail_cons, hsecond]
    rfl

/-- The fields of a breakpoint packet are scanned like those of a range. -/
theorem parseBreakpoint_eq (payload : List Byte) :
    parseBreakpoint payload =
      if payload.getD 1 0 ≠ ascii '0' then none
      else (parseMemoryRange (payload.drop 2)).map fun range => (range.1, range.2.1) := by
  unfold parseBreakpoint parseMemoryRange
  split
  · rfl
  · rw [List.drop_drop]
    cases parseHexU32 (payload.drop 3) with
    | none => rfl
    | some first =>
        obtain ⟨address, rest⟩ := first
        simp only [Option.bind_eq_bind, Option.bind_some]
        split
        · rfl
        · cases parseHexU32 (rest.drop 1) with
          | none => rfl
          | some second => rfl

theorem parseBreakpoint_iff {payload : List Byte} {address kind : Word} :
    parseBreakpoint payload = some (address, kind) ↔
      payload.getD 1 0 = ascii '0' ∧ ∃ a k rest, payload.drop 3 = a ++ ascii ',' :: (k ++ rest) ∧
        Digits a address ∧ Digits k kind ∧ NumeralEnds rest := by
  rw [parseBreakpoint_eq]
  by_cases hzero : payload.getD 1 0 = ascii '0'
  · rw [if_neg (not_not_intro hzero), Option.map_eq_some_iff]
    constructor
    · rintro ⟨⟨address, kind, rest⟩, hrange, hsame⟩
      cases hsame
      obtain ⟨a, k, hpointer, ha, hk, hends⟩ := parseMemoryRange_iff.mp hrange
      rw [List.drop_drop] at hpointer
      exact ⟨hzero, a, k, rest, hpointer, ha, hk, hends⟩
    · rintro ⟨-, a, k, rest, hpointer, ha, hk, hends⟩
      refine ⟨(address, kind, rest), parseMemoryRange_iff.mpr ⟨a, k, ?_, ha, hk, hends⟩, rfl⟩
      rw [List.drop_drop]
      exact hpointer
  · rw [if_pos hzero]
    constructor
    · intro h
      cases h
    · rintro ⟨h, -⟩
      exact absurd h hzero

/-- The data of a packet is as many pairs of digits as are asked for. -/
theorem parseHexBytes_iff {pointer data : List Byte} {count : Nat} :
    parseHexBytes pointer count = some data ↔
      ∃ digits rest, pointer = digits ++ rest ∧ hexBytes digits = some data ∧
        data.length = count := by
  induction count generalizing pointer data with
  | zero =>
      constructor
      · intro h
        cases h
        exact ⟨[], pointer, rfl, rfl, rfl⟩
      · rintro ⟨digits, rest, -, -, hlength⟩
        rw [List.length_eq_zero_iff.mp hlength]
        rfl
  | succ count ih =>
      rw [parseHexBytes]
      constructor
      · intro h
        obtain ⟨high, hhigh, h⟩ := Option.bind_eq_some_iff.mp h
        obtain ⟨low, hlow, h⟩ := Option.bind_eq_some_iff.mp h
        obtain ⟨bytes, hbytes, h⟩ := Option.bind_eq_some_iff.mp h
        cases h
        obtain ⟨digits, rest, hpointer, hdigits, hlength⟩ := ih.mp hbytes
        rcases pointer with _ | ⟨first, _ | ⟨second, pointer⟩⟩
        · cases hhigh
        · cases hlow
        · have hpointer : pointer = digits ++ rest := hpointer
          have hfirst : hexNibble first = some high := hhigh
          have hsecond : hexNibble second = some low := hlow
          have hpair : hexBytes (first :: second :: digits) = some ((high ++ low) :: bytes) := by
            rw [hexBytes, hfirst, hsecond, hdigits]
            rfl
          refine ⟨first :: second :: digits, rest, ?_, hpair, ?_⟩
          · rw [hpointer, List.cons_append, List.cons_append]
          · rw [List.length_cons, hlength]
      · rintro ⟨digits, rest, rfl, hdigits, hlength⟩
        rcases digits with _ | ⟨first, _ | ⟨second, digits⟩⟩
        · cases hdigits
          cases hlength
        · cases hdigits
        · obtain ⟨high, hhigh, h⟩ := Option.bind_eq_some_iff.mp hdigits
          obtain ⟨low, hlow, h⟩ := Option.bind_eq_some_iff.mp h
          obtain ⟨bytes, hbytes, h⟩ := Option.bind_eq_some_iff.mp h
          cases h
          have hrest : parseHexBytes (digits ++ rest) count = some bytes :=
            ih.mpr ⟨digits, rest, rfl, hbytes, by simpa using hlength⟩
          simp only [List.cons_append, List.getD_cons_zero, List.getD_cons_succ,
            List.drop_succ_cons, List.drop_zero, hhigh, hlow, hrest]
          rfl

theorem parseMemoryWrite_iff {payload data : List Byte} {address : Word} :
    parseMemoryWrite payload = some (address, data) ↔
      ∃ a l d rest length, payload.drop 1 = a ++ ascii ',' :: (l ++ ascii ':' :: (d ++ rest)) ∧
        Digits a address ∧ Digits l length ∧ hexBytes d = some data ∧
        data.length = length.toNat ∧ length ≤ gdbMemoryMax := by
  unfold parseMemoryWrite
  constructor
  · intro h
    obtain ⟨⟨number, length, after⟩, hrange, h⟩ := Option.bind_eq_some_iff.mp h
    dsimp only at h
    split at h
    · cases h
    · rename_i hroom
      obtain ⟨buffer, hbuffer, h⟩ := Option.bind_eq_some_iff.mp h
      cases h
      rw [not_or, not_not] at hroom
      obtain ⟨hcolon, hroom⟩ := hroom
      obtain ⟨a, l, hpointer, ha, hl, -⟩ := parseMemoryRange_iff.mp hrange
      cases after with
      | nil => exact absurd hcolon (by decide)
      | cons c after =>
          rw [List.getD_cons_zero] at hcolon
          subst hcolon
          rw [List.drop_one, List.tail_cons] at hbuffer
          obtain ⟨d, rest, rfl, hd, hlength⟩ := parseHexBytes_iff.mp hbuffer
          exact ⟨a, l, d, rest, length, hpointer, ha, hl, hd, hlength, BitVec.not_lt.mp hroom⟩
  · rintro ⟨a, l, d, rest, length, hpointer, ha, hl, hd, hlength, hroom⟩
    have hrange : parseMemoryRange payload = some (address, length, ascii ':' :: (d ++ rest)) :=
      parseMemoryRange_iff.mpr ⟨a, l, hpointer, ha, hl, (numeralEnds_cons _).mpr (by decide)⟩
    have hbuffer : parseHexBytes (d ++ rest) length.toNat = some data :=
      parseHexBytes_iff.mpr ⟨d, rest, rfl, hd, hlength⟩
    have hsmall : ¬(ascii ':' ≠ ascii ':' ∨ length > gdbMemoryMax) := fun h =>
      h.elim (fun hne => hne rfl) (BitVec.not_lt.mpr hroom)
    rw [hrange]
    simp only [Option.bind_eq_bind, Option.bind_some, List.getD_cons_zero, if_neg hsmall,
      List.drop_one, List.tail_cons, hbuffer]
    rfl

/-- Finding a character in the string of a buffer. -/
theorem strchr_none_iff {c : Byte} (hc : c ≠ 0) {string : List Byte} (hstring : ∀ c ∈ string, c ≠ 0)
    (tail : List Byte) : strchr c (string ++ 0 :: tail) = none ↔ c ∉ string := by
  induction string with
  | nil => simpa [strchr] using hc.symm
  | cons head rest ih =>
      have hhead := hstring head List.mem_cons_self
      rw [List.cons_append, strchr]
      by_cases hsame : head = c
      · simp [hsame]
      · rw [if_neg hsame, if_neg hhead, ih fun c hc => hstring c (List.mem_cons_of_mem _ hc)]
        simp [Ne.symm hsame]

theorem strchr_of {c : Byte} {before : List Byte} (hbefore : c ∉ before ∧ 0 ∉ before)
    (after : List Byte) : strchr c (before ++ c :: after) = some (c :: after) := by
  induction before with
  | nil => simp [strchr]
  | cons head rest ih =>
      simp only [List.mem_cons, not_or] at hbefore
      rw [List.cons_append, strchr, if_neg (Ne.symm hbefore.1.1), if_neg (Ne.symm hbefore.2.1),
        ih ⟨hbefore.1.2, hbefore.2.2⟩]

/-! ## What a request comes to -/

/-- The request with exactly these numbers, and its answer. -/
def PacketRequest.perform (fuel : Nat) : PacketRequest → Gdb Unit
  | readMemory address length => gdbReadMemory fuel address length
  | writeMemory address data =>
      if data.length > gdbMemoryMax.toNat then gdbSendText fuel (text "E01")
      else gdbWriteMemory fuel address data
  | readRegister reg => do
      if reg > gdbRegPc then
        gdbSendText fuel (text "E01")
      else
        match ← onTarget (gdbRegRead reg) with
        | .error _ => gdbSendText fuel (text "E01")
        | .ok value => gdbSendText fuel (formatHexU32Le value)
  | writeRegister reg value => do
      if reg > gdbRegPc then
        gdbSendText fuel (text "E01")
      else
        match ← onTarget (gdbRegWrite reg value) with
        | .error _ => gdbSendText fuel (text "E01")
        | .ok () => gdbSendText fuel (text "OK")
  | insert address kind => do
      if ← gdbBreakpointInsert address kind then
        gdbSendText fuel (text "OK")
      else
        gdbSendText fuel []
  | remove address kind => do
      if ← gdbBreakpointRemove address kind then
        gdbSendText fuel (text "OK")
      else
        gdbSendText fuel []

/-- A reply of this text and nothing else. -/
def replying (fuel : Nat) (string : List Byte) : Gdb Bool := do
  gdbSendText fuel string
  return true

/-- The request is all the handler does. -/
def PacketRequest.handled (fuel : Nat) (asked : PacketRequest) : Gdb Bool := do
  asked.perform fuel
  return true

theorem notMem_of_digits {c : Byte} (hc : isHexDigit c = false) {digits : List Byte} {number : Word}
    (h : Digits digits number) : c ∉ digits := by
  intro hmem
  rw [h.hex c hmem] at hc
  cases hc

theorem gdbHandleM_range (fuel : Nat) {packet rest : List Byte} {address length : Word}
    (h : parseMemoryRange packet = some (address, length, rest)) :
    gdbHandleM fuel packet = gdbReadMemory fuel address length := by
  rw [gdbHandleM, h]
  rfl

theorem gdbHandleMWrite_data (fuel : Nat) {packet a l d rest data : List Byte}
    {address length : Word}
    (hpacket : packet.drop 1 = a ++ ascii ',' :: (l ++ ascii ':' :: (d ++ rest)))
    (ha : Digits a address) (hl : Digits l length) (hd : hexBytes d = some data)
    (hlength : data.length = length.toNat) :
    gdbHandleMWrite fuel packet = (PacketRequest.writeMemory address data).perform fuel := by
  by_cases hroom : length ≤ gdbMemoryMax
  · have hparse : parseMemoryWrite packet = some (address, data) :=
      parseMemoryWrite_iff.mpr ⟨a, l, d, rest, length, hpacket, ha, hl, hd, hlength, hroom⟩
    have hsmall : ¬data.length > gdbMemoryMax.toNat := by
      rw [hlength]
      exact Nat.not_lt.mpr hroom
    rw [gdbHandleMWrite, hparse, PacketRequest.perform, if_neg hsmall]
    rfl
  · have hlarge : length > gdbMemoryMax := BitVec.not_le.mp hroom
    have hlarge' : data.length > gdbMemoryMax.toNat := by
      rw [hlength]
      exact hlarge
    have hrange : parseMemoryRange packet = some (address, length, ascii ':' :: (d ++ rest)) :=
      parseMemoryRange_iff.mpr ⟨a, l, hpacket, ha, hl, (numeralEnds_cons _).mpr (by decide)⟩
    have hparse : parseMemoryWrite packet = none := by
      rw [parseMemoryWrite, hrange]
      exact if_pos (.inr hlarge)
    rw [gdbHandleMWrite, hparse, PacketRequest.perform, if_pos hlarge']

theorem gdbHandleP_read (fuel : Nat) {packet rest : List Byte} {reg : Word}
    (hreg : parseHexU32 (packet.drop 1) = some (reg, rest))
    (hnone : strchr (ascii '=') packet = none) :
    gdbHandleP fuel packet = (PacketRequest.readRegister reg).perform fuel := by
  rw [gdbHandleP, hreg]
  dsimp only
  rw [hnone]
  rfl

theorem gdbHandleP_write (fuel : Nat) {packet rest eq after : List Byte} {reg value : Word}
    (hreg : parseHexU32 (packet.drop 1) = some (reg, rest))
    (heq : strchr (ascii '=') packet = some eq)
    (hvalue : parseHexU32 (eq.drop 1) = some (value, after)) :
    gdbHandleP fuel packet = (PacketRequest.writeRegister reg value).perform fuel := by
  rw [gdbHandleP, hreg]
  dsimp only
  rw [heq]
  dsimp only
  rw [hvalue]
  rfl

theorem gdbHandleZ_fields (fuel : Nat) {packet : List Byte} {address kind : Word}
    (h : parseBreakpoint packet = some (address, kind)) :
    gdbHandleZ fuel packet =
      (PacketRequest.breakpoint (packet.getD 0 0) address kind).perform fuel := by
  rw [gdbHandleZ, h]
  unfold PacketRequest.breakpoint
  dsimp only
  split
  · rfl
  · rfl

/-! ## Where the packets go -/

/-- The first characters of these packets. -/
def scannedCommands : List Byte :=
  [ascii 'm', ascii 'M', ascii 'p', ascii 'P', ascii 'Z', ascii 'z']

theorem gdbHandlePacket_handleP (fuel : Nat) {c : Byte} (hc : c = ascii 'p' ∨ c = ascii 'P')
    (body : List Byte) :
    gdbHandlePacket fuel (c :: body) = (gdbHandleP fuel (c :: body) >>= fun _ => pure true) := by
  rcases hc with rfl | rfl
  · rfl
  · rfl

theorem gdbHandlePacket_handleZ (fuel : Nat) {c : Byte} (hc : c = ascii 'Z' ∨ c = ascii 'z')
    (body : List Byte) :
    gdbHandlePacket fuel (c :: body) = (gdbHandleZ fuel (c :: body) >>= fun _ => pure true) := by
  rcases hc with rfl | rfl
  · rfl
  · rfl

/-- What the scanners find in a packet is what the handler does. -/
theorem gdbHandlePacket_scans (fuel : Nat) {string tail : List Byte} {asked : PacketRequest}
    (hstring : ∀ c ∈ string, c ≠ 0) (h : Scans tail string asked) :
    gdbHandlePacket fuel (string ++ 0 :: tail) = asked.handled fuel := by
  cases h with
  | @readMemory a l rest address length ha hl hends =>
      have hrange : parseMemoryRange (ascii 'm' :: (a ++ ascii ',' :: (l ++ rest)) ++ 0 :: tail) =
          some (address, length, rest ++ 0 :: tail) :=
        parseMemoryRange_iff.mpr ⟨a, l, by simp, ha, hl, (numeralEnds_append tail).mpr hends⟩
      exact congrArg (· >>= fun _ => pure true) (gdbHandleM_range fuel hrange)
  | @writeMemory a l d rest data address length ha hl hd hlength =>
      have hhandle := @gdbHandleMWrite_data fuel
        (ascii 'M' :: (a ++ ascii ',' :: (l ++ ascii ':' :: (d ++ rest))) ++ 0 :: tail) a l d
        (rest ++ 0 :: tail) data address length (by simp) ha hl hd hlength
      exact congrArg (· >>= fun _ => pure true) hhandle
  | @readRegister c r rest reg hc hr hends heq =>
      have hreg : parseHexU32 ((c :: (r ++ rest) ++ 0 :: tail).drop 1) =
          some (reg, rest ++ 0 :: tail) :=
        parseHexU32_iff.mpr ⟨r, by simp, hr, (numeralEnds_append tail).mpr hends⟩
      have hnone : strchr (ascii '=') (c :: (r ++ rest) ++ 0 :: tail) = none := by
        rw [strchr_none_iff (by decide) hstring, List.mem_cons, List.mem_append, not_or, not_or]
        refine ⟨?_, notMem_of_digits (by decide) hr, heq⟩
        rcases hc with rfl | rfl <;> decide
      exact (gdbHandlePacket_handleP fuel hc _).trans
        (congrArg (· >>= fun _ => pure true) (gdbHandleP_read fuel hreg hnone))
  | @writeRegister c r skipped v rest reg value hc hr hends heq hv hends' =>
      have hreg : parseHexU32
          ((c :: (r ++ (skipped ++ ascii '=' :: (v ++ rest))) ++ 0 :: tail).drop 1) =
          some (reg, skipped ++ ascii '=' :: (v ++ (rest ++ 0 :: tail))) := by
        refine parseHexU32_iff.mpr ⟨r, by simp, hr, ?_⟩
        cases skipped with
        | nil => exact (numeralEnds_cons _).mpr (by decide)
        | cons head skipped =>
            rw [List.cons_append, numeralEnds_cons]
            exact (numeralEnds_cons _).mp hends
      have hplain : ∀ x ∈ c :: (r ++ skipped), x ≠ 0 := by
        intro x hx
        apply hstring
        simp only [List.mem_cons, List.mem_append] at hx ⊢
        tauto
      have hfind : strchr (ascii '=')
          (c :: (r ++ (skipped ++ ascii '=' :: (v ++ rest))) ++ 0 :: tail) =
          some (ascii '=' :: (v ++ (rest ++ 0 :: tail))) := by
        have hbefore : ascii '=' ∉ c :: (r ++ skipped) := by
          rw [List.mem_cons, List.mem_append, not_or, not_or]
          refine ⟨?_, notMem_of_digits (by decide) hr, heq⟩
          rcases hc with rfl | rfl <;> decide
        have hfound := @strchr_of (ascii '=') (c :: (r ++ skipped))
          ⟨hbefore, fun h => hplain 0 h rfl⟩ (v ++ (rest ++ 0 :: tail))
        simpa using hfound
      have hvalue : parseHexU32 ((ascii '=' :: (v ++ (rest ++ 0 :: tail))).drop 1) =
          some (value, rest ++ 0 :: tail) :=
        parseHexU32_iff.mpr ⟨v, by simp, hv, (numeralEnds_append tail).mpr hends'⟩
      exact (gdbHandlePacket_handleP fuel hc _).trans
        (congrArg (· >>= fun _ => pure true) (gdbHandleP_write fuel hreg hfind hvalue))
  | @breakpoint c separator a k rest address kind hc ha hk hends =>
      have hfields : parseBreakpoint
          (c :: ascii '0' :: separator :: (a ++ ascii ',' :: (k ++ rest)) ++ 0 :: tail) =
          some (address, kind) :=
        parseBreakpoint_iff.mpr ⟨rfl, a, k, rest ++ 0 :: tail, by simp, ha, hk,
          (numeralEnds_append tail).mpr hends⟩
      exact (gdbHandlePacket_handleZ fuel hc _).trans
        (congrArg (· >>= fun _ => pure true) (gdbHandleZ_fields fuel hfields))
  | @behind c a k rest address kind hc htail ha hk hends =>
      have hfields : parseBreakpoint ([c, ascii '0'] ++ 0 :: tail) = some (address, kind) :=
        parseBreakpoint_iff.mpr ⟨rfl, a, k, rest, htail, ha, hk, hends⟩
      exact (gdbHandlePacket_handleZ fuel hc _).trans
        (congrArg (· >>= fun _ => pure true) (gdbHandleZ_fields fuel hfields))

/-- Text without a NUL that begins a string and what is behind it begins the string. -/
theorem prefix_of_string {string tail front after : List Byte} (hfront : ∀ c ∈ front, c ≠ 0)
    (h : string ++ 0 :: tail = front ++ after) :
    ∃ rest, string = front ++ rest ∧ after = rest ++ 0 :: tail := by
  rcases List.append_eq_append_iff.mp h with ⟨more, hmore, htail⟩ | ⟨rest, hstring, hafter⟩
  · cases more with
    | nil =>
        rw [List.append_nil] at hmore
        exact ⟨[], by rw [hmore, List.append_nil], htail.symm⟩
    | cons c more =>
        have hc : c = 0 := (List.cons.inj htail).1.symm
        exact absurd hc (hfront c (by rw [hmore]; simp))
  · exact ⟨rest, hstring, hafter⟩

theorem hexBytes_ne_zero {digits data : List Byte} (h : hexBytes digits = some data) :
    ∀ c ∈ digits, c ≠ 0 := by
  have hzero : hexNibble 0 = none := by decide
  induction digits using hexBytes.induct generalizing data with
  | case1 => exact fun c hc => absurd hc List.not_mem_nil
  | case2 => cases h
  | case3 first second rest ih =>
      obtain ⟨high, hhigh, h⟩ := Option.bind_eq_some_iff.mp h
      obtain ⟨low, hlow, h⟩ := Option.bind_eq_some_iff.mp h
      obtain ⟨bytes, hbytes, h⟩ := Option.bind_eq_some_iff.mp h
      have hfirst : first ≠ 0 := by
        rintro rfl
        rw [hzero] at hhigh
        cases hhigh
      have hsecond : second ≠ 0 := by
        rintro rfl
        rw [hzero] at hlow
        cases hlow
      intro c hc
      rcases List.mem_cons.mp hc with rfl | hc
      · exact hfirst
      · rcases List.mem_cons.mp hc with rfl | hc
        · exact hsecond
        · exact ih hbytes c hc

section Rejects

variable {tail body : List Byte} (fuel : Nat)

theorem comma_ne_zero : ascii ',' ≠ 0 := by decide

theorem fields_ne_zero {first second : List Byte} {address length : Word}
    (hfirst : Digits first address) (hsecond : Digits second length) :
    ∀ c ∈ first ++ ascii ',' :: second, c ≠ 0 := by
  intro c hc
  rcases List.mem_append.mp hc with hc | hc
  · exact hfirst.ne_zero c hc
  · rcases List.mem_cons.mp hc with rfl | hc
    · exact comma_ne_zero
    · exact hsecond.ne_zero c hc

theorem gdbHandleM_rejects (hnone : ∀ asked, ¬Scans tail (ascii 'm' :: body) asked) :
    gdbHandleM fuel (ascii 'm' :: (body ++ 0 :: tail)) = gdbSendText fuel (text "E01") := by
  rw [gdbHandleM]
  cases hparse : parseMemoryRange (ascii 'm' :: (body ++ 0 :: tail)) with
  | none => rfl
  | some range =>
      obtain ⟨address, length, after⟩ := range
      obtain ⟨a, l, hpointer, ha, hl, hends⟩ := parseMemoryRange_iff.mp hparse
      obtain ⟨rest, hbody, rfl⟩ := @prefix_of_string body tail (a ++ ascii ',' :: l) after
        (fields_ne_zero ha hl) (by simpa using hpointer)
      rw [numeralEnds_append] at hends
      have hscans := @Scans.readMemory tail a l rest _ _ ha hl hends
      rw [hbody] at hnone
      exact absurd (by simpa using hscans) (hnone _)

theorem gdbHandleMWrite_rejects (hnone : ∀ asked, ¬Scans tail (ascii 'M' :: body) asked) :
    gdbHandleMWrite fuel (ascii 'M' :: (body ++ 0 :: tail)) = gdbSendText fuel (text "E01") := by
  rw [gdbHandleMWrite]
  cases hparse : parseMemoryWrite (ascii 'M' :: (body ++ 0 :: tail)) with
  | none => rfl
  | some parsed =>
      obtain ⟨address, data⟩ := parsed
      obtain ⟨a, l, d, after, length, hpointer, ha, hl, hd, hlength, -⟩ :=
        parseMemoryWrite_iff.mp hparse
      have hfront : ∀ c ∈ a ++ ascii ',' :: (l ++ ascii ':' :: d), c ≠ 0 := by
        intro c hc
        rw [← List.cons_append, ← List.append_assoc, List.mem_append] at hc
        rcases hc with hc | hc
        · exact fields_ne_zero ha hl c hc
        · rcases List.mem_cons.mp hc with rfl | hc
          · decide
          · exact hexBytes_ne_zero hd c hc
      obtain ⟨rest, hbody, rfl⟩ := @prefix_of_string body tail _ after hfront
        (by simpa using hpointer)
      have hscans := @Scans.writeMemory tail a l d rest data _ _ ha hl hd hlength
      rw [hbody] at hnone
      exact absurd (by simpa using hscans) (hnone _)

theorem gdbHandleP_rejects {c : Byte} (hc : c = ascii 'p' ∨ c = ascii 'P')
    (hbody : ∀ x ∈ body, x ≠ 0) (hnone : ∀ asked, ¬Scans tail (c :: body) asked) :
    gdbHandleP fuel (c :: (body ++ 0 :: tail)) = gdbSendText fuel (text "E01") := by
  have hcommand : c ≠ 0 ∧ ascii '=' ≠ c := by rcases hc with rfl | rfl <;> decide
  rw [gdbHandleP]
  cases hreg : parseHexU32 ((c :: (body ++ 0 :: tail)).drop 1) with
  | none => rfl
  | some parsed =>
      obtain ⟨reg, after⟩ := parsed
      dsimp only
      by_cases hlarge : reg > gdbRegPc
      · rw [if_pos hlarge]
      rw [if_neg hlarge]
      obtain ⟨r, hpointer, hr, hends⟩ := parseHexU32_iff.mp hreg
      obtain ⟨rest, rfl, rfl⟩ := @prefix_of_string body tail r after hr.ne_zero hpointer
      rw [numeralEnds_append] at hends
      by_cases hequals : ascii '=' ∈ rest
      · obtain ⟨skipped, value, rfl, hskipped⟩ := List.eq_append_cons_of_mem hequals
        have hplain : 0 ∉ c :: (r ++ skipped) := by
          intro hmem
          rcases List.mem_cons.mp hmem with hzero | hmem
          · exact hcommand.1 hzero.symm
          · exact hbody 0 (by
              simp only [List.mem_append] at hmem ⊢
              tauto) rfl
        have hbefore : ascii '=' ∉ c :: (r ++ skipped) := by
          rw [List.mem_cons, List.mem_append, not_or, not_or]
          exact ⟨hcommand.2, notMem_of_digits (by decide) hr, hskipped⟩
        have hfound := strchr_of ⟨hbefore, hplain⟩ (value ++ 0 :: tail)
        have hpacket : c :: (r ++ skipped) ++ ascii '=' :: (value ++ 0 :: tail) =
            c :: (r ++ (skipped ++ ascii '=' :: value) ++ 0 :: tail) := by simp
        rw [hpacket] at hfound
        rw [hfound]
        dsimp only
        cases hvalue : parseHexU32 ((ascii '=' :: (value ++ 0 :: tail)).drop 1) with
        | none => rfl
        | some parsed =>
            obtain ⟨number, last⟩ := parsed
            obtain ⟨v, hpointer', hv, hends'⟩ := parseHexU32_iff.mp hvalue
            obtain ⟨rest, rfl, rfl⟩ := @prefix_of_string value tail v last hv.ne_zero hpointer'
            rw [numeralEnds_append] at hends'
            have hskip : NumeralEnds skipped := by
              cases skipped with
              | nil => exact numeralEnds_nil
              | cons head skipped =>
                  rw [List.cons_append, numeralEnds_cons] at hends
                  exact (numeralEnds_cons _).mpr hends
            exact absurd (.writeRegister hc hr hskip hskipped hv hends') (hnone _)
      · exact absurd (.readRegister hc hr hends hequals) (hnone _)

theorem gdbHandleZ_rejects {c : Byte} (hc : c = ascii 'Z' ∨ c = ascii 'z')
    (hnone : ∀ asked, ¬Scans tail (c :: body) asked) :
    gdbHandleZ fuel (c :: (body ++ 0 :: tail)) = gdbSendText fuel [] := by
  rw [gdbHandleZ]
  cases hparse : parseBreakpoint (c :: (body ++ 0 :: tail)) with
  | none => rfl
  | some parsed =>
      obtain ⟨address, kind⟩ := parsed
      obtain ⟨hzero, a, k, after, hpointer, ha, hk, hends⟩ := parseBreakpoint_iff.mp hparse
      match body with
      | [] => exact absurd hzero (by decide : ¬(0 : Byte) = ascii '0')
      | [x] =>
          have hx : x = ascii '0' := hzero
          subst hx
          exact absurd (.behind hc hpointer ha hk hends) (hnone _)
      | x :: separator :: more =>
          have hx : x = ascii '0' := hzero
          subst hx
          obtain ⟨rest, rfl, rfl⟩ := @prefix_of_string more tail (a ++ ascii ',' :: k) after
            (fields_ne_zero ha hk) (by simpa using hpointer)
          rw [numeralEnds_append] at hends
          have hscans := @Scans.breakpoint tail c separator a k rest _ _ hc ha hk hends
          exact absurd (by simpa using hscans) (hnone _)

/-- What the scanners do not accept is refused. -/
theorem gdbHandlePacket_rejects {string : List Byte} (hstring : ∀ c ∈ string, c ≠ 0)
    (hcommand : string.getD 0 0 ∈ scannedCommands) (hnone : ∀ asked, ¬Scans tail string asked) :
    gdbHandlePacket fuel (string ++ 0 :: tail) = replying fuel (text "E01") ∨
      gdbHandlePacket fuel (string ++ 0 :: tail) = replying fuel [] := by
  cases string with
  | nil => exact absurd hcommand (by decide)
  | cons c body =>
      have hbody : ∀ x ∈ body, x ≠ 0 := fun x hx => hstring x (List.mem_cons_of_mem c hx)
      simp only [List.getD_cons_zero, scannedCommands, List.mem_cons, List.not_mem_nil,
        or_false] at hcommand
      rcases hcommand with rfl | rfl | hp | hp | hz | hz
      · exact .inl (congrArg (· >>= fun _ => pure true) (gdbHandleM_rejects fuel hnone))
      · exact .inl (congrArg (· >>= fun _ => pure true) (gdbHandleMWrite_rejects fuel hnone))
      · exact .inl ((gdbHandlePacket_handleP fuel (.inl hp) _).trans
          (congrArg (· >>= fun _ => pure true) (gdbHandleP_rejects fuel (.inl hp) hbody hnone)))
      · exact .inl ((gdbHandlePacket_handleP fuel (.inr hp) _).trans
          (congrArg (· >>= fun _ => pure true) (gdbHandleP_rejects fuel (.inr hp) hbody hnone)))
      · exact .inr ((gdbHandlePacket_handleZ fuel (.inl hz) _).trans
          (congrArg (· >>= fun _ => pure true) (gdbHandleZ_rejects fuel (.inl hz) hnone)))
      · exact .inr ((gdbHandlePacket_handleZ fuel (.inr hz) _).trans
          (congrArg (· >>= fun _ => pure true) (gdbHandleZ_rejects fuel (.inr hz) hnone)))

end Rejects

end WchLink
