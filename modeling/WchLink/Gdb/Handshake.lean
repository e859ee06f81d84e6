import WchLink.Gdb.Handlers
import WchLink.Gdb.Registers

/-! # The handshake

What a debugger learns before it asks for a register: the features on offer and
the register layout, chunk by chunk, of the target description.
-/

namespace WchLink

open Bytes Interaction

/-! ## Features -/

/-- `qSupported`, with the debugger's own features if it names any. -/
def supportedPacket : Option (List Byte) → List Byte
  | none => text "qSupported"
  | some features => text "qSupported" ++ ascii ':' :: features

/-- The reply names what the target description and its transfers need. -/
def Offers (reply : List Byte) : Prop :=
  ∀ feature ∈ ["PacketSize=", "qXfer:features:read+", "qXfer:memory-map:read+"],
    text feature <:+: reply

instance (reply : List Byte) : Decidable (Offers reply) := inferInstanceAs (Decidable (∀ _ ∈ _, _))

/-- What a bare `qSupported` is answered. -/
def supportedReply : List Byte :=
  text "PacketSize=1000;qXfer:features:read+;qXfer:memory-map:read+;vContSupported+"

section Features

variable {fuel : Nat} {conn : GdbConn} {sim : Sim}

theorem gdbHandlePacket_text {packet : List Byte} {reply : List Byte} (hfuel : 2 ≤ fuel)
    (hreply : ∀ c ∈ reply, c ≠ 0)
    (hhandle : gdbHandlePacket fuel packet = gdbSendText fuel reply >>= fun _ => pure true) :
    Answers fuel conn sim packet reply sim := by
  rw [Answers, hhandle, Program.run_own_bind (gdbSendText_answers hreply hfuel)]
  rfl

theorem gdbHandlePacket_supported (hfuel : 2 ≤ fuel) (tail : List Byte) :
    Answers fuel conn sim (supportedPacket none ++ 0 :: tail) supportedReply sim :=
  gdbHandlePacket_text hfuel (by decide) rfl

/-- With features of the debugger's own the query is not recognised. -/
theorem gdbHandlePacket_features (hfuel : 2 ≤ fuel) (features tail : List Byte) :
    Answers fuel conn sim (supportedPacket (some features) ++ 0 :: tail) [] sim :=
  gdbHandlePacket_text hfuel (by exact nofun) rfl

end Features

/-! ## The target description -/

/-- A request for a part of the target description. -/
def xferPacket (offset length : Nat) : List Byte :=
  text "qXfer:features:read:target.xml:" ++ formatHex 0 (BitVec.ofNat 32 offset) ++ text "," ++
    formatHex 0 (BitVec.ofNat 32 length)

/-- What a debugger puts together that asks for `lengths` bytes at a time until
it is told that it has the last. -/
inductive Fetches (fuel : Nat) (conn : GdbConn) (sim : Sim) : Nat → List Nat → List Byte → Prop
  | last {offset length : Nat} {rest : List Nat} {chunk : List Byte} :
      Answers fuel conn sim (xferPacket offset length ++ [0]) (ascii 'l' :: chunk) sim →
      Fetches fuel conn sim offset (length :: rest) chunk
  | more {offset length : Nat} {rest : List Nat} {chunk document : List Byte} :
      Answers fuel conn sim (xferPacket offset length ++ [0]) (ascii 'm' :: chunk) sim →
      Fetches fuel conn sim (offset + chunk.length) rest document →
      Fetches fuel conn sim offset (length :: rest) (chunk ++ document)

theorem parseQxfer_xferPacket (offset length : Nat) (tail : List Byte) :
    parseQxfer (xferPacket offset length ++ 0 :: tail) =
      some ⟨text "features", text "target.xml", BitVec.ofNat 32 offset, BitVec.ofNat 32 length⟩ := by
  have hdigits (value : Word) : (0 : Byte) ∉ formatHex 0 value ∧ ascii ':' ∉ formatHex 0 value :=
    ⟨notMem_formatHex (by decide) value, notMem_formatHex (by decide) value⟩
  have hcomma : (0 : Byte) ∉ text "," ∧ ascii ':' ∉ text "," := by decide
  let range := formatHex 0 (BitVec.ofNat 32 offset) ++ text "," ++
    formatHex 0 (BitVec.ofNat 32 length)
  have hpacket : xferPacket offset length ++ 0 :: tail =
      text "qXfer:features:read:target.xml:" ++ (range ++ 0 :: tail) := by
    simp [xferPacket, range]
  have hlast : strrchr (ascii ':') (text "target.xml" ++ ascii ':' :: (range ++ 0 :: tail)) =
      some (ascii ':' :: (range ++ 0 :: tail)) := by
    refine strrchr_last (by decide) (by decide) ?_ ?_ tail
    · simp only [range, List.mem_append, not_or]
      exact ⟨⟨(hdigits _).1, hcomma.1⟩, (hdigits _).1⟩
    · simp only [range, List.mem_append, not_or]
      exact ⟨⟨(hdigits _).2, hcomma.2⟩, (hdigits _).2⟩
  have hoffset : parseHexU32 (range ++ 0 :: tail) = some (BitVec.ofNat 32 offset,
      ascii ',' :: (formatHex 0 (BitVec.ofNat 32 length) ++ 0 :: tail)) := by
    have h := parseHexU32_formatHex (BitVec.ofNat 32 offset)
      (show hexNibble (ascii ',') = none by decide)
      (formatHex 0 (BitVec.ofNat 32 length) ++ 0 :: tail)
    have hrange : range ++ 0 :: tail = formatHex 0 (BitVec.ofNat 32 offset) ++
        ascii ',' :: (formatHex 0 (BitVec.ofNat 32 length) ++ 0 :: tail) := by
      simp [range, text]
    rwa [hrange]
  have hlength := parseHexU32_formatHex (BitVec.ofNat 32 length)
    (show hexNibble 0 = none by decide) tail
  have hcolon1 : strchr (ascii ':') ((text "qXfer:features:read:target.xml:" ++
      (range ++ 0 :: tail)).drop 6) = some (text ":read:target.xml:" ++ (range ++ 0 :: tail)) := rfl
  have hcolon2 : strchr (ascii ':') ((text ":read:target.xml:" ++ (range ++ 0 :: tail)).drop 1) =
      some (text ":target.xml:" ++ (range ++ 0 :: tail)) := rfl
  rw [hpacket]
  unfold parseQxfer
  simp only [hcolon1, hcolon2, Option.bind_eq_bind, Option.bind_some]
  have hannex : (text ":target.xml:" ++ (range ++ 0 :: tail)).drop 1 =
    text "target.xml" ++ ascii ':' :: (range ++ 0 :: tail) := rfl
  have hobject : (text "qXfer:features:read:target.xml:" ++ (range ++ 0 :: tail)).drop 6 =
    text "features" ++ (text ":read:target.xml:" ++ (range ++ 0 :: tail)) := rfl
  have hread : strStarts ((text ":read:target.xml:" ++ (range ++ 0 :: tail)).drop 1) "read:" =
    true := rfl
  rw [hannex, hlast, hobject]
  simp only [Option.bind_some]
  rw [take_before, take_before, if_neg (by decide), hread, if_neg (by decide), if_neg (by decide),
    List.drop_one, List.tail_cons, hoffset, Option.bind_some]
  dsimp only
  rw [List.getD_cons_zero, if_neg (not_not_intro rfl), List.drop_one, List.tail_cons, hlength]
  rfl

theorem length_buildTargetXml : buildTargetXml.length < 2 ^ 32 := by decide +kernel

theorem buildTargetXml_pos : 0 < buildTargetXml.length := by decide +kernel

section Transfers

variable {fuel : Nat} {conn : GdbConn} {sim : Sim}

/-- How much of what is left of the description one reply carries. -/
def xferCount (offset length : Nat) : Nat :=
  min (buildTargetXml.length - offset) (min length (gdbPacketMax - 1))

theorem gdbHandlePacket_xfer (hfuel : 2 ≤ fuel) {offset length : Nat}
    (hoffset : offset < buildTargetXml.length) (hpos : 0 < length) (hlength : length < 2 ^ 32)
    (tail : List Byte) :
    Answers fuel conn sim (xferPacket offset length ++ 0 :: tail)
      ((if offset + xferCount offset length ≥ buildTargetXml.length then ascii 'l' else ascii 'm') ::
        (buildTargetXml.drop offset).take (xferCount offset length)) sim := by
  have hmax : gdbPacketMax = 4096 := rfl
  have hdispatch : gdbHandlePacket fuel (xferPacket offset length ++ 0 :: tail) = (do
      gdbHandleQxfer fuel (xferPacket offset length ++ 0 :: tail)
      return true) := rfl
  have hoffset' : (BitVec.ofNat 32 offset).toNat = offset := by
    rw [BitVec.toNat_ofNat, Nat.mod_eq_of_lt]
    exact Nat.lt_trans hoffset length_buildTargetXml
  have hlength' : (BitVec.ofNat 32 length).toNat = length := by
    rw [BitVec.toNat_ofNat, Nat.mod_eq_of_lt hlength]
  have hcount : ¬(offset ≥ buildTargetXml.length ∨ xferCount offset length = 0) := by
    unfold xferCount
    generalize buildTargetXml.length = size at hoffset
    omega
  have hhandle : ((gdbHandleQxfer fuel (xferPacket offset length ++ 0 :: tail)).run conn).run bench
      ⟨sim, [ascii '+'], []⟩ = (some ((), conn), ⟨sim, [], gdbFrame
        ((if offset + xferCount offset length ≥ buildTargetXml.length then ascii 'l'
          else ascii 'm') :: (buildTargetXml.drop offset).take (xferCount offset length))⟩) := by
    unfold gdbHandleQxfer
    rw [parseQxfer_xferPacket]
    simp only [and_self, ↓reduceIte]
    rw [StateT.run_bind, StateT.run_get, pure_bind]
    unfold gdbQxferReply
    rw [hoffset', hlength']
    dsimp only
    have hcarried : min (buildTargetXml.length - offset) (min length (gdbPacketMax - 1)) =
      xferCount offset length := rfl
    rw [hcarried, if_neg hcount]
    exact gdbSendPacket_answers _ hfuel
  rw [Answers, hdispatch, Program.run_own_bind hhandle]
  rfl

/-- Whatever lengths a debugger asks for, what it puts together is the
description. -/
theorem fetches_iff (hfuel : 2 ≤ fuel) {lengths : List Nat} {offset : Nat}
    (hlengths : ∀ length ∈ lengths, 0 < length ∧ length < 2 ^ 32)
    (hoffset : offset < buildTargetXml.length)
    (henough : buildTargetXml.length - offset ≤
      (lengths.map fun length => min length (gdbPacketMax - 1)).sum) (document : List Byte) :
    Fetches fuel conn sim offset lengths document ↔ document = buildTargetXml.drop offset := by
  induction lengths generalizing offset document with
  | nil =>
      rw [List.map_nil, List.sum_nil] at henough
      omega
  | cons length rest ih =>
      obtain ⟨hpos, hbound⟩ := hlengths length List.mem_cons_self
      have hanswer := @gdbHandlePacket_xfer fuel conn sim hfuel offset length hoffset hpos hbound []
      rw [List.map_cons, List.sum_cons] at henough
      have hchunk : ((buildTargetXml.drop offset).take (xferCount offset length)).length =
          xferCount offset length := by
        rw [List.length_take, List.length_drop, xferCount]
        omega
      by_cases hall : offset + xferCount offset length ≥ buildTargetXml.length
      · rw [if_pos hall] at hanswer
        have hwhole : (buildTargetXml.drop offset).take (xferCount offset length) =
            buildTargetXml.drop offset := by
          rw [List.take_of_length_le]
          rw [List.length_drop]
          omega
        rw [hwhole] at hanswer
        constructor
        · intro hfetch
          cases hfetch with
          | last hlast => exact (List.cons.inj (hlast.unique hanswer).1).2
          | more hmore _ => exact absurd (List.cons.inj (hmore.unique hanswer).1).1 (by decide)
        · rintro rfl
          exact .last hanswer
      · rw [if_neg hall] at hanswer
        have hnext : offset + xferCount offset length < buildTargetXml.length :=
          Nat.lt_of_not_le hall
        have hleft : buildTargetXml.length - (offset + xferCount offset length) ≤
            (rest.map fun length => min length (gdbPacketMax - 1)).sum := by
          unfold xferCount at hnext ⊢
          generalize buildTargetXml.length = size at henough hnext
          omega
        have hmore := @ih (offset + xferCount offset length)
          (fun other hother => hlengths other (List.mem_cons_of_mem _ hother)) hnext hleft
        have hsplit : buildTargetXml.drop offset =
            (buildTargetXml.drop offset).take (xferCount offset length) ++
              buildTargetXml.drop (offset + xferCount offset length) := by
          rw [← List.drop_drop, List.take_append_drop]
        constructor
        · intro hfetch
          cases hfetch with
          | last hlast => exact absurd (List.cons.inj (hlast.unique hanswer).1).1 (by decide)
          | more hchunk' hrest =>
              have hsame := (List.cons.inj (hchunk'.unique hanswer).1).2
              rw [hsame, hchunk] at hrest
              rw [hsame, (hmore _).mp hrest, ← hsplit]
        · rintro rfl
          rw [hsplit]
          refine .more hanswer ?_
          rw [hchunk]
          exact (hmore _).mpr rfl

end Transfers

/-! ### Reading a description -/

/-- What follows each occurrence of a pattern. -/
def afterEach (pattern : List Byte) : List Byte → List (List Byte)
  | [] => []
  | c :: rest =>
      if pattern.isPrefixOf (c :: rest) then
        rest.drop (pattern.length - 1) :: afterEach pattern rest
      else
        afterEach pattern rest

/-- The decimal number at the beginning of a text. -/
def leadingNumber (string : List Byte) : Nat :=
  (string.takeWhile fun c => ascii '0' ≤ c ∧ c ≤ ascii '9').foldl
    (fun number c => number * 10 + (c - ascii '0').toNat) 0

/-- A numeric attribute of an element. -/
def numericAttribute (name : String) (element : List Byte) : Option Nat :=
  (afterEach (text name ++ text "=\"") element).head?.map leadingNumber

/-- The registers a description lists, each with its number and its size in
bits. -/
def describedRegisters (document : List Byte) : List (Option Nat × Option Nat) :=
  (afterEach (text "<reg ") document).map fun rest =>
    let element := rest.takeWhile (· ≠ ascii '>')
    (numericAttribute "regnum" element, numericAttribute "bitsize" element)

theorem describedRegisters_buildTargetXml :
    describedRegisters buildTargetXml = (List.range 17).map fun reg => (some reg, some 32) := by
  decide +kernel

/-! ## The registers behind it -/

/-- A piece of a `g` reply that is an error or `count` fields of eight digits. -/
def ReportsFields (count : Nat) (bytes : List Byte) : Prop :=
  ∃ payload sent, bytes = (gdbFrame payload).drop sent ∧
    (payload = text "E01" ∨
      ∃ values : List Word, values.length = count ∧ payload = values.flatMap formatHexU32Le)

/-- In every world, all that is sent for a `g` packet. -/
def GReports (count fuel : Nat) (conn : GdbConn) : Prop :=
  ∀ (σ : Type) (world : World Host σ) (state : σ) (tail : List Byte),
    ((gdbHandlePacket fuel (text "g" ++ 0 :: tail)).run conn).wp world
      (fun _ operation => ∀ bytes, operation = .send bytes → ReportsFields count bytes)
      (fun _ _ => True) state

theorem gdbHandlePacket_greports (fuel : Nat) (conn : GdbConn) : GReports 17 fuel conn := by
  intro σ world state tail
  let C : ProgramClass Host := Program.preserving world
    (fun _ operation => ∀ bytes, operation = .send bytes → ReportsFields 17 bytes) fun _ => True
  have hperform {operation : HostOp}
      (hfields : ∀ bytes, operation = .send bytes → ReportsFields 17 bytes) :
      C.Mem (request operation) :=
    Program.preserving_perform (fun _ _ => hfields) fun _ _ _ _ _ => trivial
  have hregister (link : Link) (reg : Byte) : HasRegister (usbClass C) link reg :=
    fun _ _ => regAccess_mem _ (hperform nofun)
  have hsocket : HasSocket C (ReportsFields 17) :=
    { cuts := Program.preserving_cuts
      recv := hperform nofun
      send := fun bytes hbytes => hperform fun _ hsame => by cases hsame; exact hbytes }
  have hcommands (link : Link) : HasCommands (usbClass C) link :=
    ⟨⟨hregister _ _, hregister _ _⟩, hregister _ _, hregister _ _, fun _ => hregister _ _⟩
  have hreport : C.StateMem (gdbHandleG fuel) :=
    gdbHandleG_mem_of hsocket hcommands fuel (fun sent => ⟨_, sent, rfl, .inl rfl⟩)
      fun values hvalues sent => ⟨_, sent, rfl, .inr ⟨values, hvalues, rfl⟩⟩
  have hhandle : C.StateMem (gdbHandleG fuel >>= fun _ => pure true) :=
    C.stateBind hreport fun _ => C.stateDone true
  exact (hhandle conn).1 state trivial

/-- A register number that `p` reports and `P` sets. -/
def Accepts (fuel : Nat) (conn : GdbConn) (sim : Sim) (reg : Nat) : Prop :=
  (∀ tail, ∃ value after,
      Answers fuel conn sim (readRegisterPacket reg ++ 0 :: tail) (formatHexU32Le value) after) ∧
    ∀ value tail, ∃ after,
      Answers fuel conn sim (writeRegisterPacket reg (formatHexU32Le value) ++ 0 :: tail)
        (text "OK") after

theorem accepts_iff {fuel : Nat} {conn : GdbConn} {sim : Sim} (hlink : conn.link.Usable)
    (hready : sim.Ready) (hfuel : 2 ≤ fuel) {reg : Nat} (hbound : reg < 2 ^ 32) :
    Accepts fuel conn sim reg ↔ reg ≤ 16 := by
  constructor
  · rintro ⟨-, hwrites⟩
    by_contra hlarge
    obtain ⟨after, hanswer⟩ := hwrites 0 []
    have hrefused := (@gdbHandlePacket_refuses fuel conn sim hfuel reg (by omega) hbound 0 []).2
    exact absurd (hanswer.unique hrefused).1 (by decide)
  · intro hreg
    refine ⟨fun tail => ?_, fun value tail => ?_⟩
    · obtain ⟨command, hanswer⟩ := gdbHandlePacket_read hlink hready hfuel hreg tail
      exact ⟨_, _, hanswer⟩
    · by_cases hpos : 1 ≤ reg
      · obtain ⟨after, hanswer, -⟩ := gdbHandlePacket_write hlink hready hfuel hpos hreg value tail
        exact ⟨after, hanswer⟩
      · obtain rfl : reg = 0 := by omega
        have hwrite : (gdbRegWrite (BitVec.ofNat 32 0) (byteSwap value) conn.link).run.run
            simulator sim = _ := wlDmGprWrite_sim hlink (by decide : 0 < 32) (byteSwap value) hready
        exact ⟨_, gdbHandlePacket_writes hfuel (by decide) hwrite tail⟩

/-! ## The handshake -/

/-- The query is answered with the features, and the description a debugger
puts together lists the registers the register packets are about. -/
structure HandshakeMatches (fuel : Nat) (conn : GdbConn) (sim : Sim)
    (features : Option (List Byte)) : Prop where
  offers : ∀ tail, ∃ reply after,
    Answers fuel conn sim (supportedPacket features ++ 0 :: tail) reply after ∧ Offers reply
  fetches : ∀ lengths : List Nat, (∀ length ∈ lengths, 0 < length ∧ length < 2 ^ 32) →
    buildTargetXml.length ≤ (lengths.map fun length => min length (gdbPacketMax - 1)).sum →
      ∃ document, Fetches fuel conn sim 0 lengths document
  describes : ∀ lengths : List Nat, (∀ length ∈ lengths, 0 < length ∧ length < 2 ^ 32) →
    buildTargetXml.length ≤ (lengths.map fun length => min length (gdbPacketMax - 1)).sum →
      ∀ document, Fetches fuel conn sim 0 lengths document →
        describedRegisters document = (List.range 17).map fun reg => (some reg, some 32)
  reports : GReports 17 fuel conn
  accepts : ∀ reg < 2 ^ 32, Accepts fuel conn sim reg ↔ reg ≤ 16

section Handshake

variable {fuel : Nat} {conn : GdbConn} {sim : Sim} (hfuel : 2 ≤ fuel) (hlink : conn.link.Usable)
  (hready : sim.Ready)

include hfuel

theorem not_handshakeMatches (features : List Byte) :
    ¬HandshakeMatches fuel conn sim (some features) := by
  intro h
  obtain ⟨reply, after, hanswer, hoffers⟩ := h.offers []
  have hempty := (hanswer.unique (gdbHandlePacket_features hfuel features [])).1
  rw [hempty] at hoffers
  revert hoffers
  decide

include hlink hready

/-- The handshake gives the layout of the register packets exactly to a
debugger that names no features of its own. -/
theorem handshakeMatches_iff (features : Option (List Byte)) :
    HandshakeMatches fuel conn sim features ↔ features = none := by
  constructor
  · intro h
    cases features with
    | none => rfl
    | some features => exact absurd h (not_handshakeMatches hfuel features)
  · rintro rfl
    have hdocument {lengths : List Nat}
        (hlengths : ∀ length ∈ lengths, 0 < length ∧ length < 2 ^ 32)
        (henough : buildTargetXml.length ≤
          (lengths.map fun length => min length (gdbPacketMax - 1)).sum) (document : List Byte) :
        Fetches fuel conn sim 0 lengths document ↔ document = buildTargetXml := by
      rw [← Nat.sub_zero buildTargetXml.length] at henough
      have h := @fetches_iff fuel conn sim hfuel lengths 0 hlengths buildTargetXml_pos henough
        document
      rwa [List.drop_zero] at h
    refine ⟨fun tail => ?_, fun lengths hlengths henough => ?_,
      fun lengths hlengths henough document hfetch => ?_, gdbHandlePacket_greports fuel conn,
      fun reg hreg => accepts_iff hlink hready hfuel hreg⟩
    · exact ⟨_, _, gdbHandlePacket_supported hfuel tail, by decide⟩
    · exact ⟨buildTargetXml, (hdocument hlengths henough _).mpr rfl⟩
    · rw [(hdocument hlengths henough document).mp hfetch]
      exact describedRegisters_buildTargetXml

end Handshake

/-- A debugger that sends a bare `qSupported`. -/
theorem handshakeMatches_bare :
    HandshakeMatches 2 (.fresh wlLinkeAttachTransport ch32v003) (simSelected ch32v003) none :=
  (handshakeMatches_iff (by decide) ⟨rfl, rfl⟩ ⟨rfl, rfl⟩ none).mpr rfl

/-- `qSupported:swbreak+` is answered like a packet that is not supported. -/
theorem handshakeMatches_not_swbreak :
    ¬∀ (fuel : Nat) (conn : GdbConn) (sim : Sim) (features : Option (List Byte)), 2 ≤ fuel →
      conn.link.Usable → sim.Ready → HandshakeMatches fuel conn sim features := by
  intro hclaim
  exact not_handshakeMatches (by decide) (text "swbreak+")
    (hclaim 2 (.fresh wlLinkeAttachTransport ch32v003) (simSelected ch32v003)
      (some (text "swbreak+")) (by decide) ⟨rfl, rfl⟩ ⟨rfl, rfl⟩)

end WchLink
