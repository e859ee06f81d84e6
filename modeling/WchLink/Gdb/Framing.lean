import WchLink.Gdb.Bench

/-! # Framing and unframing

What one side's frame is to the other. The sender sums the payload and the
receiver what it collected between `$` and `#`, so they agree on a frame exactly
when its escapes add a multiple of 256 to the sum.
-/

namespace WchLink

open Bytes Interaction

/-! ## The sum of an escaped payload -/

theorem gdbChecksum_foldl (bytes : List Byte) (sum : Byte) :
    bytes.foldl (· + ·) sum = sum + gdbChecksum bytes := by
  induction bytes generalizing sum with
  | nil => exact (BitVec.add_zero sum).symm
  | cons byte rest ih =>
      rw [gdbChecksum, List.foldl_cons, List.foldl_cons, ih (sum + byte), ih (0 + byte)]
      rw [BitVec.add_assoc, show (0 : Byte) + byte = byte from BitVec.zero_add byte]

theorem gdbChecksum_append (first second : List Byte) :
    gdbChecksum (first ++ second) = gdbChecksum first + gdbChecksum second := by
  rw [gdbChecksum, List.foldl_append, gdbChecksum_foldl second]
  rfl

/-- An escaped byte weighs 93 more than the byte it stands for. -/
theorem gdbChecksum_gdbEscape (c : Byte) :
    gdbChecksum (gdbEscape c) = c + if gdbEscaped c then 93 else 0 := by
  unfold gdbEscape gdbEscaped
  by_cases h : c = ascii '$' ∨ c = ascii '#' ∨ c = ascii '}' ∨ c = ascii '*'
  · rw [decide_eq_true h]
    rcases h with rfl | rfl | rfl | rfl <;> decide
  · rw [decide_eq_false h]
    exact BitVec.add_comm 0 c

theorem gdbChecksum_escaped (payload : List Byte) :
    gdbChecksum (payload.flatMap gdbEscape) =
      gdbChecksum payload + BitVec.ofNat 8 (93 * payload.countP gdbEscaped) := by
  induction payload with
  | nil => rfl
  | cons c rest ih =>
      have hcons : gdbChecksum (c :: rest) = c + gdbChecksum rest := by
        have h := gdbChecksum_append [c] rest
        rwa [show gdbChecksum [c] = c from BitVec.zero_add c] at h
      rw [List.flatMap_cons, gdbChecksum_append, ih, gdbChecksum_gdbEscape, hcons,
        List.countP_cons, Nat.mul_add, BitVec.ofNat_add]
      cases gdbEscaped c with
      | false =>
          rw [if_neg Bool.false_ne_true, if_neg Bool.false_ne_true]
          simp [BitVec.add_assoc]
      | true =>
          rw [if_pos rfl, if_pos rfl]
          rw [show BitVec.ofNat 8 (93 * 1) = 93 from rfl]
          ac_rfl

/-- 93 is invertible modulo 256. -/
theorem gdbChecksum_agrees_iff (payload : List Byte) :
    gdbChecksum (payload.flatMap gdbEscape) = gdbChecksum payload ↔
      256 ∣ payload.countP gdbEscaped := by
  rw [gdbChecksum_escaped, BitVec.add_right_eq_self]
  constructor
  · intro hzero
    have hmod := congrArg BitVec.toNat hzero
    rw [BitVec.toNat_ofNat, BitVec.toNat_ofNat] at hmod
    omega
  · rintro ⟨k, hk⟩
    apply BitVec.eq_of_toNat_eq
    rw [BitVec.toNat_ofNat, BitVec.toNat_ofNat, hk]
    omega

/-! ## Undoing the escapes -/

theorem gdbUnescape_gdbEscape (max : Nat) (c : Byte) (raw out : List Byte)
    (hroom : out.length + 1 < max) :
    gdbUnescape max (gdbEscape c ++ raw) out = gdbUnescape max raw (out ++ [c]) := by
  unfold gdbEscape
  by_cases h : gdbEscaped c = true
  · rw [if_pos h, List.cons_append, List.cons_append, gdbUnescape.eq_def]
    dsimp only
    rw [if_pos rfl, if_pos hroom, BitVec.xor_assoc, BitVec.xor_self, BitVec.xor_zero]
    rfl
  · rw [if_neg h, List.cons_append, gdbUnescape.eq_def]
    dsimp only
    rw [if_neg, if_pos hroom]
    · rfl
    · rintro rfl
      exact h rfl

/-- The receiver's unescaping undoes the sender's escaping. -/
theorem gdbUnescape_escaped (max : Nat) (payload out : List Byte)
    (hroom : out.length + payload.length < max) :
    gdbUnescape max (payload.flatMap gdbEscape) out = some (out ++ payload) := by
  induction payload generalizing out with
  | nil =>
      rw [List.flatMap_nil, List.append_nil]
      exact gdbUnescape.eq_1 max out
  | cons c rest ih =>
      rw [List.length_cons] at hroom
      rw [List.flatMap_cons, gdbUnescape_gdbEscape max c _ out (by omega), ih]
      · rw [List.append_assoc]
        rfl
      · rw [List.length_append, List.length_singleton]
        omega

/-- Different payloads have different frames. -/
theorem gdbFrame_injective {first second : List Byte} (h : gdbFrame first = gdbFrame second) :
    first = second := by
  have hescaped : first.flatMap gdbEscape = second.flatMap gdbEscape := by
    have htail := (List.cons.inj h).2
    exact (List.append_inj' htail rfl).1
  have hfirst := gdbUnescape_escaped (first.length + second.length + 1) first []
    (by rw [List.length_nil]; omega)
  have hsecond := gdbUnescape_escaped (first.length + second.length + 1) second []
    (by rw [List.length_nil]; omega)
  rw [hescaped, hsecond] at hfirst
  exact (Option.some.inj hfirst).symm

/-- No escape leaves a delimiter in the frame. -/
theorem hash_notMem_escaped (payload : List Byte) :
    ascii '#' ∉ payload.flatMap gdbEscape := by
  rw [List.mem_flatMap]
  rintro ⟨c, -, hc⟩
  unfold gdbEscape at hc
  split at hc
  next h =>
    have hcases : c = ascii '$' ∨ c = ascii '#' ∨ c = ascii '}' ∨ c = ascii '*' :=
      of_decide_eq_true h
    rcases hcases with rfl | rfl | rfl | rfl <;> revert hc <;> decide
  next h =>
    rw [List.mem_singleton] at hc
    rw [← hc] at h
    exact h rfl

theorem length_le_escaped (payload : List Byte) :
    payload.length ≤ (payload.flatMap gdbEscape).length := by
  induction payload with
  | nil => exact Nat.le_refl 0
  | cons c rest ih =>
      rw [List.flatMap_cons, List.length_append, List.length_cons]
      have hone : 1 ≤ (gdbEscape c).length := by
        unfold gdbEscape
        split <;> exact Nat.succ_le_succ (Nat.zero_le _)
      omega

/-! ## The receiver on a frame -/

theorem gdbRecvStart_run (noise rest : List Byte) {state : Bench} {fuel : Nat}
    (hnoise : ascii '$' ∉ noise) (hincoming : state.incoming = noise ++ ascii '$' :: rest)
    (hfuel : noise.length + 2 ≤ fuel) :
    (gdbRecvStart fuel).run bench state = (some (some ()), { state with incoming := rest }) := by
  induction noise generalizing state fuel with
  | nil =>
      obtain ⟨fuel, rfl⟩ : ∃ fuel', fuel = fuel' + 1 := ⟨fuel - 1, by omega⟩
      rw [gdbRecvStart, Program.run_bind_of_eq (gdbRecvByte_run (by omega) hincoming)]
      rfl
  | cons c noise ih =>
      rw [List.length_cons] at hfuel
      obtain ⟨fuel, rfl⟩ : ∃ fuel', fuel = fuel' + 1 := ⟨fuel - 1, by omega⟩
      rw [gdbRecvStart, Program.run_bind_of_eq (gdbRecvByte_run (by omega) hincoming)]
      have hc : c ≠ ascii '$' := fun h => hnoise (h ▸ List.mem_cons_self)
      dsimp only
      rw [if_neg hc]
      exact ih (fun h => hnoise (List.mem_cons_of_mem c h)) rfl (by omega)

theorem gdbRecvRaw_run (data rest raw : List Byte) {state : Bench} {fuel : Nat}
    (hdata : ascii '#' ∉ data) (hincoming : state.incoming = data ++ ascii '#' :: rest)
    (hraw : raw.length < gdbPacketMax) (hfuel : data.length + 2 ≤ fuel) :
    (gdbRecvRaw fuel raw).run bench state =
      (some (some ((raw ++ data).take (gdbPacketMax - 1))), { state with incoming := rest }) := by
  induction data generalizing state fuel raw with
  | nil =>
      obtain ⟨fuel, rfl⟩ : ∃ fuel', fuel = fuel' + 1 := ⟨fuel - 1, by omega⟩
      rw [gdbRecvRaw, Program.run_bind_of_eq (gdbRecvByte_run (by omega) hincoming),
        List.append_nil, List.take_of_length_le (by omega)]
      rfl
  | cons c data ih =>
      rw [List.length_cons] at hfuel
      obtain ⟨fuel, rfl⟩ : ∃ fuel', fuel = fuel' + 1 := ⟨fuel - 1, by omega⟩
      rw [gdbRecvRaw, Program.run_bind_of_eq (gdbRecvByte_run (by omega) hincoming)]
      have hc : c ≠ ascii '#' := fun h => hdata (h ▸ List.mem_cons_self)
      have hdata' : ascii '#' ∉ data := fun h => hdata (List.mem_cons_of_mem c h)
      dsimp only
      rw [if_neg hc]
      by_cases hkept : raw.length + 1 < gdbPacketMax
      · have hlength : (raw ++ [c]).length < gdbPacketMax := by
          rw [List.length_append, List.length_singleton]
          exact hkept
        have hrest := @ih (raw ++ [c]) { state with incoming := data ++ ascii '#' :: rest } fuel
          hdata' rfl hlength (by omega)
        rw [List.append_assoc] at hrest
        rw [if_pos hkept]
        exact hrest
      · have hfull : gdbPacketMax - 1 ≤ raw.length := by omega
        have hrest := @ih raw { state with incoming := data ++ ascii '#' :: rest } fuel
          hdata' rfl hraw (by omega)
        rw [List.take_append_of_le_length hfull] at hrest
        rw [if_neg hkept, List.take_append_of_le_length hfull]
        exact hrest

theorem gdbRecvNibble_run (c : Byte) (rest : List Byte) {state : Bench} {fuel : Nat}
    (hincoming : state.incoming = c :: rest) (hfuel : 1 ≤ fuel) :
    (gdbRecvNibble fuel).run bench state = (some (hexNibble c), { state with incoming := rest }) := by
  rw [gdbRecvNibble, Program.run_bind_of_eq (gdbRecvByte_run hfuel hincoming)]
  rfl

/-- A packet as it travels: what stands between the delimiters and the two
characters of its sum. -/
structure WirePacket where
  data : List Byte
  high : Byte
  low : Byte

namespace WirePacket

def bytes (packet : WirePacket) : List Byte :=
  ascii '$' :: packet.data ++ [ascii '#', packet.high, packet.low]

/-- What the receiver's raw buffer keeps. -/
def kept (packet : WirePacket) : List Byte := packet.data.take (gdbPacketMax - 1)

/-- The sum its two digits stand for. -/
def sum (packet : WirePacket) : Option Byte := do
  let high ← hexNibble packet.high
  let low ← hexNibble packet.low
  return high ++ low

theorem length_bytes (packet : WirePacket) : packet.bytes.length = packet.data.length + 4 := by
  rw [bytes, List.cons_append, List.length_cons, List.length_append]
  rfl

end WirePacket

/-- A packet with hex digits is answered by its sum and unescaped if that is
right. -/
theorem gdbRecvPacket_run (noise rest : List Byte) (packet : WirePacket) {state : Bench}
    {received : Byte} {fuel : Nat} (hnoise : ascii '$' ∉ noise) (hdata : ascii '#' ∉ packet.data)
    (hsum : packet.sum = some received)
    (hincoming : state.incoming = noise ++ packet.bytes ++ rest)
    (hfuel : noise.length + packet.data.length + 2 ≤ fuel) :
    (gdbRecvPacket fuel).run bench state =
      if gdbChecksum packet.kept = received then
        (some (gdbUnescape gdbPacketMax packet.kept []),
          { state with incoming := rest, outgoing := state.outgoing ++ [ascii '+'] })
      else
        (some none,
          { state with incoming := rest, outgoing := state.outgoing ++ [ascii '-'] }) := by
  obtain ⟨high, hhigh, low, hlow, rfl⟩ : ∃ high, hexNibble packet.high = some high ∧
      ∃ low, hexNibble packet.low = some low ∧ high ++ low = received := by
    unfold WirePacket.sum at hsum
    cases hhigh : hexNibble packet.high with
    | none => rw [hhigh] at hsum; cases hsum
    | some high =>
        cases hlow : hexNibble packet.low with
        | none => rw [hhigh, hlow] at hsum; cases hsum
        | some low =>
            rw [hhigh, hlow] at hsum
            exact ⟨high, rfl, low, rfl, Option.some.inj hsum⟩
  have hbytes : noise ++ packet.bytes ++ rest =
      noise ++ ascii '$' :: (packet.data ++ ascii '#' :: packet.high :: packet.low :: rest) := by
    simp [WirePacket.bytes]
  have hstart := gdbRecvStart_run noise _ hnoise (hincoming.trans hbytes)
    (show noise.length + 2 ≤ fuel by omega)
  have hraw := @gdbRecvRaw_run packet.data (packet.high :: packet.low :: rest) []
    { state with incoming := packet.data ++ ascii '#' :: packet.high :: packet.low :: rest } fuel
    hdata rfl (by decide) (by omega)
  unfold gdbRecvPacket
  rw [Program.run_bind_of_eq hstart]
  dsimp only
  rw [Program.run_bind_of_eq hraw]
  dsimp only
  rw [Program.run_bind_of_eq (gdbRecvNibble_run packet.high (packet.low :: rest) rfl (by omega)),
    hhigh]
  dsimp only
  rw [Program.run_bind_of_eq (gdbRecvNibble_run packet.low rest rfl (by omega)), hlow]
  dsimp only
  rw [List.nil_append]
  by_cases hgood : gdbChecksum packet.kept = high ++ low
  · have hkept : gdbChecksum (packet.data.take (gdbPacketMax - 1)) = high ++ low := hgood
    rw [if_pos hgood, if_neg (not_not_intro hkept),
      Program.run_bind_of_eq (gdbSendAll_run _ _ (by omega))]
    rfl
  · have hkept : gdbChecksum (packet.data.take (gdbPacketMax - 1)) ≠ high ++ low := hgood
    rw [if_neg hgood, if_pos hkept, Program.run_bind_of_eq (gdbSendAll_run _ _ (by omega))]
    rfl

/-- The bytes `gdbSendPacket` puts on the wire to a peer that acknowledges. -/
def gdbEmitted (fuel : Nat) (conn : GdbConn) (target : Sim) (payload : List Byte) : List Byte :=
  (((gdbSendPacket fuel payload).run conn).run bench
    { target, incoming := [ascii '+'], outgoing := [] }).2.outgoing

/-- What `gdbRecvPacket` makes of bytes on the wire. -/
def gdbReceived (fuel : Nat) (target : Sim) (incoming : List Byte) : Option (Option (List Byte)) :=
  ((gdbRecvPacket fuel).run bench { target, incoming, outgoing := [] }).1

theorem gdbEmitted_eq (conn : GdbConn) (target : Sim) (payload : List Byte) {fuel : Nat}
    (hfuel : 2 ≤ fuel) : gdbEmitted fuel conn target payload = gdbFrame payload := by
  rw [gdbEmitted, gdbSendPacket_run payload conn hfuel rfl]
  exact List.nil_append _

/-- A frame is taken exactly when the two sums agree. -/
theorem gdbReceived_frame (target : Sim) (payload noise : List Byte) {fuel : Nat}
    (hnoise : ascii '$' ∉ noise) (hfits : (payload.flatMap gdbEscape).length ≤ gdbPacketMax - 1)
    (hfuel : noise.length + (payload.flatMap gdbEscape).length + 2 ≤ fuel) :
    gdbReceived fuel target (noise ++ gdbFrame payload) =
      some (if gdbChecksum (payload.flatMap gdbEscape) = gdbChecksum payload then some payload
        else none) := by
  have hmax : gdbPacketMax = 4096 := rfl
  have hlength := length_le_escaped payload
  have hunescape : gdbUnescape gdbPacketMax (payload.flatMap gdbEscape) [] = some payload :=
    gdbUnescape_escaped gdbPacketMax payload [] (by rw [List.length_nil]; omega)
  let packet : WirePacket :=
    { data := payload.flatMap gdbEscape
      high := hexDigit ((gdbChecksum payload >>> 4).setWidth 4)
      low := hexDigit ((gdbChecksum payload).setWidth 4) }
  have hsum : packet.sum = some (gdbChecksum payload) := by
    show (do
      let high ← hexNibble (hexDigit ((gdbChecksum payload >>> 4).setWidth 4))
      let low ← hexNibble (hexDigit ((gdbChecksum payload).setWidth 4))
      return high ++ low : Option Byte) = _
    rw [hexNibble_hexDigit, hexNibble_hexDigit]
    exact congrArg some (high_append_low _)
  have hkept : packet.kept = payload.flatMap gdbEscape := List.take_of_length_le hfits
  have hincoming : noise ++ gdbFrame payload = noise ++ packet.bytes ++ [] :=
    (List.append_nil _).symm
  unfold gdbReceived
  rw [gdbRecvPacket_run noise [] packet hnoise (hash_notMem_escaped payload) hsum hincoming
    (by omega), hkept, hunescape]
  split
  · rfl
  · rfl

/-- The round trip holds exactly of the payloads in which the number of bytes
that are escaped is a multiple of 256. -/
theorem gdbRecvPacket_gdbSendPacket_iff (conn : GdbConn) (target : Sim)
    (payload noise : List Byte) (fuel : Nat) (hnoise : ascii '$' ∉ noise)
    (hfits : (payload.flatMap gdbEscape).length ≤ gdbPacketMax - 1)
    (hfuel : noise.length + (payload.flatMap gdbEscape).length + 2 ≤ fuel) :
    gdbReceived fuel target (noise ++ gdbEmitted fuel conn target payload) =
      some (some payload) ↔ 256 ∣ payload.countP gdbEscaped := by
  rw [gdbEmitted_eq conn target payload (by omega),
    gdbReceived_frame target payload noise hnoise hfits hfuel, ← gdbChecksum_agrees_iff]
  constructor
  · intro hsome
    by_contra hne
    rw [if_neg hne] at hsome
    cases hsome
  · intro hsum
    rw [if_pos hsum]

/-- A reply without an escaped character, after an idle interrupt byte. -/
theorem gdbRecvPacket_gdbSendPacket_ok :
    gdbReceived 16 (simNew ch32v003)
      ([0x03] ++ gdbEmitted 16 (.fresh wlLinkeAttachTransport ch32v003) (simNew ch32v003)
        (text "OK")) = some (some (text "OK")) :=
  (gdbRecvPacket_gdbSendPacket_iff (.fresh wlLinkeAttachTransport ch32v003) (simNew ch32v003)
    (text "OK") [0x03] 16 (by decide) (by decide) (by decide)).mpr ⟨0, by decide⟩

/-- A payload of one `*` is refused by the receiver. -/
theorem gdbRecvPacket_refuses_star :
    ¬ ∀ (conn : GdbConn) (target : Sim) (payload noise : List Byte) (fuel : Nat),
      ascii '$' ∉ noise → (payload.flatMap gdbEscape).length ≤ gdbPacketMax - 1 →
      noise.length + (payload.flatMap gdbEscape).length + 2 ≤ fuel →
      gdbReceived fuel target (noise ++ gdbEmitted fuel conn target payload) =
        some (some payload) := by
  intro hclaim
  have hstar := hclaim (.fresh wlLinkeAttachTransport ch32v003) (simNew ch32v003) (text "*") [] 16
    (by decide) (by decide) (by decide)
  rw [gdbEmitted_eq _ _ _ (by decide),
    gdbReceived_frame _ _ _ (by decide) (by decide) (by decide)] at hstar
  revert hstar
  decide

end WchLink
