import WchLink.Gdb.MemoryPackets

/-! # The advertised packet size

What becomes of packets up to the size that `qSupported` reports: the raw
receive buffer and the memory handlers' buffers are both smaller.
-/

namespace WchLink

open Bytes Interaction

/-- The packet size a debugger is told to keep to. -/
def gdbPacketSize : Nat := 0x1000

theorem gdbHandleQuery_qSupported (fuel : Nat) (tail : List Byte) :
    gdbHandleQuery fuel (text "qSupported" ++ 0 :: tail) =
      gdbSendText fuel (text "PacketSize=" ++ formatHex 0 (BitVec.ofNat 32 gdbPacketSize) ++
        text ";qXfer:features:read+;qXfer:memory-map:read+;vContSupported+") := rfl

/-! ## Escaped text -/

/-- The bytes an escaped text stands for; `none` when its last escape is cut
short. -/
def unescaped : List Byte → Option (List Byte)
  | [] => some []
  | c :: raw =>
      if c = ascii '}' then
        match raw with
        | [] => none
        | next :: raw => (unescaped raw).map fun payload => (next ^^^ 0x20) :: payload
      else
        (unescaped raw).map fun payload => c :: payload

theorem unescaped_append {first payload : List Byte} (h : unescaped first = some payload)
    (second : List Byte) :
    unescaped (first ++ second) = (unescaped second).map fun rest => payload ++ rest := by
  induction first using unescaped.induct generalizing payload with
  | case1 =>
      cases h
      rw [List.nil_append]
      cases unescaped second with
      | none => rfl
      | some rest => rfl
  | case2 =>
      rw [unescaped.eq_def] at h
      cases h
  | case3 next raw ih =>
      rw [unescaped, if_pos rfl] at h
      obtain ⟨payload', hpayload', rfl⟩ := Option.map_eq_some_iff.mp h
      rw [List.cons_append, List.cons_append, unescaped, if_pos rfl, ih hpayload',
        Option.map_map]
      rfl
  | case4 c raw hplain ih =>
      rw [unescaped.eq_def] at h
      dsimp only at h
      rw [if_neg hplain] at h
      obtain ⟨payload', hpayload', rfl⟩ := Option.map_eq_some_iff.mp h
      rw [List.cons_append, unescaped.eq_def]
      dsimp only
      rw [if_neg hplain, ih hpayload', Option.map_map]
      rfl

/-- One more byte never stands for the same payload. -/
theorem unescaped_concat_ne {first payload : List Byte} (h : unescaped first = some payload)
    (c : Byte) : unescaped (first ++ [c]) ≠ some payload := by
  intro hsame
  rw [unescaped_append h] at hsame
  obtain ⟨rest, hrest, hpayload⟩ := Option.map_eq_some_iff.mp hsame
  have hnil : rest = [] := List.append_right_eq_self.mp hpayload
  subst hnil
  rw [unescaped.eq_def] at hrest
  dsimp only at hrest
  by_cases hescape : c = ascii '}'
  · rw [if_pos hescape] at hrest
    cases hrest
  · rw [if_neg hescape] at hrest
    cases hrest

/-- The receiver's loop undoes the escapes as long as there is room. -/
theorem gdbUnescape_eq (max : Nat) (raw out : List Byte) (hroom : out.length + raw.length < max) :
    gdbUnescape max raw out = (unescaped raw).map fun payload => out ++ payload := by
  induction raw using unescaped.induct generalizing out with
  | case1 =>
      rw [gdbUnescape.eq_1]
      exact congrArg some (List.append_nil out).symm
  | case2 =>
      rw [gdbUnescape.eq_def, unescaped.eq_def]
      rfl
  | case3 next raw ih =>
      have hlength : out.length + (raw.length + 1 + 1) < max := hroom
      rw [gdbUnescape.eq_def, unescaped, if_pos rfl, Option.map_map]
      dsimp only
      rw [if_pos rfl, if_pos (by omega), ih _ (by rw [List.length_append]; simp only [List.length_singleton]; omega)]
      congr 1
      funext payload
      exact List.append_assoc _ _ _
  | case4 c raw hplain ih =>
      have hlength : out.length + (raw.length + 1) < max := hroom
      rw [gdbUnescape.eq_def, unescaped.eq_def]
      dsimp only
      rw [if_neg hplain, if_neg hplain, if_pos (by omega),
        ih _ (by rw [List.length_append]; simp only [List.length_singleton]; omega), Option.map_map]
      congr 1
      funext payload
      exact List.append_assoc _ _ _

/-! ## What the size promises -/

/-- A packet as a peer within the size may frame it. -/
structure FramedPacket extends WirePacket where
  payload : List Byte
  no_hash : ascii '#' ∉ data
  summed : toWirePacket.sum = some (gdbChecksum data)
  unescapes : unescaped data = some payload
  fits : data.length ≤ gdbPacketSize

/-- A read the reply of which is within the size. -/
structure SizedRead where
  address : Numeral
  length : Numeral
  fits : 2 * length.value.toNat ≤ gdbPacketSize

/-- A write the text of which is within the size. -/
structure SizedWrite where
  address : Numeral
  length : Numeral
  data : HexBytes
  length_data : length.value.toNat = data.bytes.length
  fits : (writeMemoryPacket address length data).length ≤ gdbPacketSize

inductive SizedPacket
  | framed (packet : FramedPacket)
  | read (packet : SizedRead)
  | write (packet : SizedWrite)

/-- The packet is acknowledged and decoded in full, wherever it stands in the
stream. -/
def FramedPacket.Honoured (packet : FramedPacket) : Prop :=
  ∀ (noise rest outgoing : List Byte) (target : Sim) (fuel : Nat), ascii '$' ∉ noise →
    noise.length + packet.data.length + 2 ≤ fuel →
    (gdbRecvPacket fuel).run bench ⟨target, noise ++ packet.bytes ++ rest, outgoing⟩ =
      (some (some packet.payload), ⟨target, rest, outgoing ++ [ascii '+']⟩)

/-- On any machine with memory to spare, the server goes on to send `reply` of
what the target returned once the target did what the packet asks for. -/
def CarriesOut {α : Type} (packet : List Byte) (operation : Link → Fallible α)
    (reply : α → List Byte) : Prop :=
  ∀ {σ : Type} (host : Handler Host σ), (∀ size state, host (.malloc size) state = (true, state)) →
    ∀ (fuel : Nat) (conn : GdbConn) (tail : List Byte) (state after : σ) (value : α),
      ((onTarget operation).run conn).run host state = (some (.ok value, conn), after) →
      ((gdbHandlePacket fuel (packet ++ 0 :: tail)).run conn).run host state =
        ((do
          gdbSendPacket fuel (reply value)
          return true : Gdb Bool).run conn).run host after

def SizedPacket.Honoured : SizedPacket → Prop
  | framed packet => packet.Honoured
  | read packet =>
      CarriesOut (readMemoryPacket packet.address packet.length)
        (fun link => filled (wlDmReadBlock link packet.address.value packet.length.value.toNat))
        fun buffer => buffer.flatMap formatHexByte
  | write packet =>
      CarriesOut (writeMemoryPacket packet.address packet.length packet.data)
        (fun link => gdbWriteBytes link packet.address.value packet.data.bytes)
        fun () => text "OK"

/-- The packets the buffers have room for. -/
def SizedPacket.Fits : SizedPacket → Prop
  | framed packet => packet.data.length < gdbPacketMax
  | read packet => packet.length.value ≤ gdbMemoryMax
  | write packet => packet.length.value ≤ gdbMemoryMax

/-! ## Receiving -/

theorem FramedPacket.honoured_frame_iff (packet : FramedPacket) :
    packet.Honoured ↔ packet.data.length < gdbPacketMax := by
  have hrun (noise rest outgoing : List Byte) (target : Sim) (fuel : Nat)
      (hnoise : ascii '$' ∉ noise) (hfuel : noise.length + packet.data.length + 2 ≤ fuel) :=
    @gdbRecvPacket_run noise rest packet.toWirePacket
      ⟨target, noise ++ packet.bytes ++ rest, outgoing⟩ _ fuel hnoise packet.no_hash
      packet.summed rfl hfuel
  constructor
  · intro hhonoured
    by_contra hlong
    have hlength : packet.data.length = gdbPacketMax := by
      have hfits := packet.fits
      have hsize : gdbPacketSize = gdbPacketMax := rfl
      omega
    -- the last byte is dropped before the sum and the escapes are looked at
    obtain ⟨c, hdata⟩ : ∃ c, packet.data = packet.kept ++ [c] := by
      have hdrop : (packet.data.drop (gdbPacketMax - 1)).length = 1 := by
        rw [List.length_drop, hlength]
        rfl
      obtain ⟨c, hc⟩ := List.length_eq_one_iff.mp hdrop
      refine ⟨c, ?_⟩
      rw [WirePacket.kept, ← hc, List.take_append_drop]
    have htaken := hhonoured [] [] [] (simNew ch32v003) _ List.not_mem_nil (Nat.le_refl _)
    rw [hrun [] [] [] _ _ List.not_mem_nil (Nat.le_refl _)] at htaken
    by_cases hsum : gdbChecksum packet.kept = gdbChecksum packet.data
    · rw [if_pos hsum] at htaken
      have hkept : gdbUnescape gdbPacketMax packet.kept [] = some packet.payload :=
        Option.some.inj (congrArg Prod.fst htaken)
      have hshort : packet.kept.length < gdbPacketMax := by
        rw [WirePacket.kept, List.length_take]
        have hmax : gdbPacketMax = 4096 := rfl
        omega
      rw [gdbUnescape_eq gdbPacketMax packet.kept [] (by rw [List.length_nil]; omega)] at hkept
      obtain ⟨payload, hpayload, hsame⟩ := Option.map_eq_some_iff.mp hkept
      rw [List.nil_append] at hsame
      subst hsame
      refine unescaped_concat_ne hpayload c ?_
      rw [← hdata, packet.unescapes]
    · rw [if_neg hsum] at htaken
      cases Option.some.inj (congrArg Prod.fst htaken)
  · intro hshort noise rest outgoing target fuel hnoise hfuel
    have hkept : packet.kept = packet.data := List.take_of_length_le (by omega)
    rw [hrun noise rest outgoing target fuel hnoise hfuel, hkept, if_pos rfl,
      gdbUnescape_eq gdbPacketMax packet.data [] (by rw [List.length_nil]; omega),
      packet.unescapes]
    rfl

/-! ## Reading and writing memory -/

theorem gdbSendText_ok (fuel : Nat) : gdbSendText fuel (text "OK") = gdbSendPacket fuel (text "OK") :=
  congrArg (gdbSendPacket fuel) (cstring_eq_self (by decide))

theorem SizedRead.carriesOut {packet : SizedRead} (hfits : packet.length.value ≤ gdbMemoryMax) :
    CarriesOut (readMemoryPacket packet.address packet.length)
      (fun link => filled (wlDmReadBlock link packet.address.value packet.length.value.toNat))
      fun buffer => buffer.flatMap formatHexByte := by
  intro σ host hmalloc fuel conn tail state after buffer hread
  have hsmall : ¬packet.length.value > gdbMemoryMax := BitVec.not_lt.mpr hfits
  have hspare : (request (.malloc (packet.length.value.toNat * 2 + 1))).run host after =
      (some true, after) := by
    show (some (host (.malloc _) after).1, (host (.malloc _) after).2) = _
    rw [hmalloc]
  have hmemory : ((gdbReadMemory fuel packet.address.value packet.length.value).run conn).run host
      state = ((gdbSendPacket fuel (buffer.flatMap formatHexByte)).run conn).run host after := by
    unfold gdbReadMemory
    rw [if_neg hsmall, Program.run_own_bind hread]
    dsimp only
    rw [Program.run_own_bind (Program.run_own_lift conn hspare)]
    rfl
  rw [gdbHandlePacket_readMemory, StateT.run_bind, StateT.run_bind, Program.run_bind,
    Program.run_bind, hmemory]

theorem SizedWrite.carriesOut {packet : SizedWrite} (hfits : packet.length.value ≤ gdbMemoryMax) :
    CarriesOut (writeMemoryPacket packet.address packet.length packet.data)
      (fun link => gdbWriteBytes link packet.address.value packet.data.bytes)
      fun () => text "OK" := by
  intro σ host _ fuel conn tail state after value hwrite
  have hmemory : ((gdbWriteMemory fuel packet.address.value packet.data.bytes).run conn).run host
      state = ((gdbSendPacket fuel (text "OK")).run conn).run host after := by
    unfold gdbWriteMemory
    rw [Program.run_own_bind hwrite, ← gdbSendText_ok]
  rw [gdbHandlePacket_writeMemory fuel packet.length_data hfits, StateT.run_bind,
    StateT.run_bind, Program.run_bind, Program.run_bind, hmemory]

/-- A packet that is answered with E01 where its operation succeeds is not
carried out. -/
theorem not_carriesOut {α : Type} {packet : List Byte} {operation : Link → Fallible α}
    {reply : α → List Byte}
    (hrefused : gdbHandlePacket 2 (packet ++ 0 :: []) = (do
      gdbSendText 2 (text "E01")
      return true))
    (hsucceeds : ∃ value after, OnTarget (operation wlLinkeAttachTransport).run
      (simSelected ch32v003).target (.ok value) after)
    (hother : ∀ value, reply value ≠ text "E01") : ¬CarriesOut packet operation reply := by
  intro hcarries
  obtain ⟨value, target, hdrives⟩ := hsucceeds
  obtain ⟨after, hrun, -⟩ := hdrives (simSelected ch32v003) ⟨rfl, rfl⟩ rfl
  have hdone := hcarries bench (fun _ _ => rfl) 2 (.fresh wlLinkeAttachTransport ch32v003) []
    ⟨simSelected ch32v003, [ascii '+'], []⟩ _ value (onTarget_answers hrun)
  rw [hrefused, Program.run_own_bind (gdbSendText_answers (by decide) (by decide)),
    Program.run_own_bind (gdbSendPacket_answers _ (by decide))] at hdone
  have hframe := congrArg (fun result => result.2.outgoing) hdone
  exact hother value (gdbFrame_injective hframe).symm

theorem SizedPacket.honoured_read_iff (packet : SizedRead) :
    (SizedPacket.read packet).Honoured ↔ packet.length.value ≤ gdbMemoryMax := by
  constructor
  · intro hhonoured
    by_contra hlong
    have hlarge : packet.length.value > gdbMemoryMax := BitVec.not_le.mp hlong
    refine not_carriesOut ?_ ?_ ?_ hhonoured
    · rw [gdbHandlePacket_readMemory, gdbReadMemory, if_pos hlarge]
    · have husable : wlLinkeAttachTransport.Usable := ⟨rfl, rfl⟩
      obtain ⟨bytes, after, hdrives, -⟩ := filled_wlDmReadBlock_succeeds husable _ _ _
      exact ⟨bytes, after, hdrives⟩
    · intro buffer hsame
      have hlength := congrArg List.length hsame
      rw [length_flatMap_formatHexByte, show (text "E01").length = 3 from rfl] at hlength
      omega
  · exact SizedRead.carriesOut

theorem SizedPacket.honoured_write_iff (packet : SizedWrite) :
    (SizedPacket.write packet).Honoured ↔ packet.length.value ≤ gdbMemoryMax := by
  constructor
  · intro hhonoured
    by_contra hlong
    have hlarge : packet.length.value > gdbMemoryMax := BitVec.not_le.mp hlong
    refine not_carriesOut ?_ ?_ ?_ hhonoured
    · exact gdbHandlePacket_writeMemory_refuses 2 packet.length_data hlarge []
    · exact ⟨(), _, gdbWriteBytes_drives ⟨rfl, rfl⟩ _ _ _⟩
    · intro value
      decide
  · exact SizedWrite.carriesOut

/-- A packet within the advertised size is honoured exactly when it fits the
smaller buffer it has to pass through. -/
theorem SizedPacket.honoured_iff (packet : SizedPacket) : packet.Honoured ↔ packet.Fits := by
  cases packet with
  | framed packet => exact packet.honoured_frame_iff
  | read packet => exact honoured_read_iff packet
  | write packet => exact honoured_write_iff packet

/-- `m20000000,401` has a reply of 2050 digits and is refused. -/
theorem SizedPacket.not_honoured : ¬∀ packet : SizedPacket, packet.Honoured := by
  intro hclaim
  have hread := (honoured_read_iff ⟨.of 0x20000000, .of 0x401, by decide⟩).mp (hclaim (.read _))
  exact absurd hread (by decide)

end WchLink
