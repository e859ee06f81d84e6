import WchLink.Gdb.EmptyReplies

/-! # Document transfers

A debugger reads a document in chunks: it asks for what follows the bytes it
has, takes what it is sent and stops when it is told that this was the last.
-/

namespace WchLink

open Bytes Interaction

/-! ## The client -/

/-- What a client has of the document, and whether it has been told that this
is all. -/
structure Download where
  received : List Byte
  finished : Bool
  deriving DecidableEq

namespace Download

def start : Download := ⟨[], false⟩

/-- The offset the client asks for next. -/
def offset (transfer : Download) : Word := BitVec.ofNat 32 transfer.received.length

/-- The client takes the bytes behind the first, which says whether they are
the last. -/
def take (transfer : Download) (reply : List Byte) : Download :=
  ⟨transfer.received ++ reply.tail, reply.head? == some (ascii 'l')⟩

end Download

/-- A chunk that was asked for: its length as requested and the reply. -/
structure ChunkTurn where
  requested : Word
  reply : List Byte

/-- The server answers a request for a chunk with one packet, which the client
acknowledges. -/
def ServesChunk (fuel : Nat) (data : List Byte) (conn : GdbConn) (offset : Word) (turn : ChunkTurn)
    (conn' : GdbConn) : Prop :=
  ∃ made, ((gdbQxferReply fuel data offset turn.requested).run conn).Yields made ((), conn') ∧
    WirePackets made [turn.reply]

/-- A client's requests one after another; it asks for no more once it is told
that it has the last chunk. -/
inductive Transfers (fuel : Nat) (data : List Byte) :
    GdbConn → Download → List ChunkTurn → GdbConn → Download → Prop
  | stop (conn : GdbConn) (transfer : Download) : Transfers fuel data conn transfer [] conn transfer
  | chunk {conn middle final : GdbConn} {transfer transfer' : Download} {turn : ChunkTurn}
      {turns : List ChunkTurn} :
      transfer.finished = false → ServesChunk fuel data conn transfer.offset turn middle →
      Transfers fuel data middle (transfer.take turn.reply) turns final transfer' →
      Transfers fuel data conn transfer (turn :: turns) final transfer'

/-! ## One chunk -/

/-- How many bytes a reply carries. -/
def chunkCount (data : List Byte) (offset requested : Nat) : Nat :=
  min (data.length - offset) (min requested (gdbPacketMax - 1))

/-- The packet a request for a chunk is answered with. -/
def chunkPacket (data : List Byte) (offset requested : Nat) : List Byte :=
  if offset ≥ data.length ∨ chunkCount data offset requested = 0 then
    text "l"
  else
    (if offset + chunkCount data offset requested ≥ data.length then ascii 'l' else ascii 'm') ::
      (data.drop offset).take (chunkCount data offset requested)

theorem gdbQxferReply_eq (fuel : Nat) (data : List Byte) (offset requested : Word) :
    gdbQxferReply fuel data offset requested =
      gdbSendPacket fuel (chunkPacket data offset.toNat requested.toNat) := by
  have hstring : cstring (text "l") = text "l" := by decide
  unfold gdbQxferReply chunkPacket gdbSendText
  rw [hstring]
  unfold chunkCount
  dsimp only
  split
  · rfl
  · rfl

/-- A chunk: it fits a packet, follows what comes before its offset, and says
truly whether it is the last. -/
structure Chunk (data : List Byte) (offset : Nat) (reply : List Byte) : Prop where
  fits : reply.length ≤ gdbPacketMax
  follows : data.take (offset + reply.tail.length) = data.take offset ++ reply.tail
  head : reply.head? = some (ascii 'm') ∨ reply.head? = some (ascii 'l')
  more : reply.head? = some (ascii 'm') → reply.tail ≠ []
  last : reply.head? = some (ascii 'l') ↔ offset + reply.tail.length = data.length

theorem chunk_end {data : List Byte} : Chunk data data.length (text "l") := by
  constructor
  · decide
  · simp [text]
  · exact .inr rfl
  · intro hmore
    exact absurd hmore (by decide)
  · simp [text]

theorem chunkCount_pos {data : List Byte} {offset requested : Nat} (hoffset : offset < data.length)
    (hpos : 0 < requested) : 0 < chunkCount data offset requested := by
  unfold chunkCount gdbPacketMax
  omega

/-- Every request within the document for a positive length gets a chunk. -/
theorem chunk_of_request {data : List Byte} {offset requested : Nat}
    (hoffset : offset ≤ data.length) (hpos : 0 < requested) :
    Chunk data offset (chunkPacket data offset requested) := by
  rcases Nat.eq_or_lt_of_le hoffset with rfl | hinside
  · have hpacket : chunkPacket data data.length requested = text "l" :=
      if_pos (.inl (Nat.le_refl _))
    rw [hpacket]
    exact chunk_end
  have hcount := chunkCount_pos hinside hpos
  have hroom : chunkCount data offset requested ≤ data.length - offset := Nat.min_le_left _ _
  have hfits : chunkCount data offset requested ≤ gdbPacketMax - 1 :=
    (Nat.min_le_right _ _).trans (Nat.min_le_right _ _)
  generalize hchunk : chunkCount data offset requested = count at hcount hroom hfits
  have hpacket : chunkPacket data offset requested =
      (if offset + count ≥ data.length then ascii 'l' else ascii 'm') ::
        (data.drop offset).take count := by
    unfold chunkPacket
    rw [hchunk, if_neg (by omega)]
  have hlength : ((data.drop offset).take count).length = count := by
    rw [List.length_take, List.length_drop]
    omega
  have hdistinct : ascii 'l' ≠ ascii 'm' := by decide
  rw [hpacket]
  constructor
  · rw [List.length_cons, hlength]
    unfold gdbPacketMax at hfits ⊢
    omega
  · rw [List.tail_cons, hlength, List.take_add]
  · rw [List.head?_cons]
    split
    · exact .inr rfl
    · exact .inl rfl
  · intro _ hnil
    rw [List.tail_cons] at hnil
    rw [hnil, List.length_nil] at hlength
    omega
  · rw [List.head?_cons, List.tail_cons, hlength]
    by_cases hlast : offset + count ≥ data.length
    · rw [if_pos hlast]
      exact ⟨fun _ => by omega, fun _ => rfl⟩
    · rw [if_neg hlast]
      exact ⟨fun h => absurd (Option.some.inj h).symm hdistinct, fun h => by omega⟩

/-! ## What the server sends -/

variable {fuel : Nat} {data : List Byte} {conn conn' : GdbConn} {offset : Word} {turn : ChunkTurn}

/-- The reply is the packet of the request, whatever happens on the socket. -/
theorem ServesChunk.reply (h : ServesChunk fuel data conn offset turn conn')
    (hoffset : offset.toNat ≤ data.length) (hpos : 0 < turn.requested.toNat) :
    Chunk data offset.toNat turn.reply := by
  obtain ⟨made, hyields, hwire⟩ := h
  have hchunk := chunk_of_request hoffset hpos
  rw [gdbQxferReply_eq] at hyields
  have hacks : Acknowledges made := by
    unfold Acknowledges
    rw [hwire.acknowledged]
    rfl
  have hsent := Program.Follows.of_run (gdbSendPacket_transmits fuel hchunk.fits conn) hyields
  obtain ⟨packets, hpackets, -, rfl, -⟩ := hsent (by rwa [List.append_nil]) () conn' rfl
  rw [List.append_nil] at hpackets
  have hreply := hwire.unique hpackets
  rw [List.singleton_inj.mp hreply]
  exact hchunk

/-- The frame goes out in one piece and is acknowledged. -/
theorem gdbSendPacket_yields (more : Nat) (payload : List Byte) (conn : GdbConn) :
    ((gdbSendPacket (more + 2) payload).run conn).Yields (replyExchanges payload) ((), conn) := by
  have hsend : (gdbSendAll (more + 2) (gdbFrame payload)).Yields
      [⟨.send (gdbFrame payload), .wrote (gdbFrame payload).length⟩] true := by
    refine Program.yields_call_iff.mpr ⟨.wrote (gdbFrame payload).length, [], rfl, ?_⟩
    change (gdbSendAll (more + 1)
      ((gdbFrame payload).drop (gdbFrame payload).length)).Yields [] true
    rw [List.drop_length]
    exact .refl _ _
  have hack : ((gdbAwaitAck (gdbFrame payload) (more + 2)).run conn).Yields
      [⟨.recv, .byte (ascii '+')⟩] ((), conn) :=
    Program.yields_call_iff.mpr ⟨.byte (ascii '+'), [], rfl, .refl _ _⟩
  have hlift : ((StateT.lift (gdbSendAll (more + 2) (gdbFrame payload)) : Gdb Bool).run conn).Yields
      [⟨.send (gdbFrame payload), .wrote (gdbFrame payload).length⟩] (true, conn) := by
    rw [StateT.run_lift]
    exact hsend.bind (.refl _ _)
  unfold gdbSendPacket
  exact Program.yields_own_bind_iff.mpr ⟨_, _, true, conn, rfl, hlift, hack⟩

/-- On a socket that takes the packet and a client that acknowledges it, the
server does answer. -/
theorem serves_packet (hfuel : 2 ≤ fuel) (hoffset : offset.toNat ≤ data.length)
    {requested : Word} (hpos : 0 < requested.toNat) :
    ServesChunk fuel data conn offset
      ⟨requested, chunkPacket data offset.toNat requested.toNat⟩ conn := by
  have hchunk := chunk_of_request hoffset hpos
  obtain ⟨more, rfl⟩ := Nat.exists_eq_add_of_le' hfuel
  refine ⟨replyExchanges (chunkPacket data offset.toNat requested.toNat), ?_,
    (replyExchanges_wire hchunk.fits).2⟩
  rw [gdbQxferReply_eq]
  exact gdbSendPacket_yields more _ conn

/-! ## The whole transfer -/

/-- A transfer that has begun right: what was received is the beginning of the
document, and all of it exactly when the client has been told so. -/
structure Download.Sound (data : List Byte) (transfer : Download) : Prop where
  received : transfer.received <+: data
  unfinished : transfer.finished = false → transfer.received ≠ [] → transfer.received ≠ data
  finished : transfer.finished = true → transfer.received = data

theorem Download.Sound.toNat_offset {transfer : Download} (h : transfer.Sound data)
    (hdata : data.length < 2 ^ 32) : transfer.offset.toNat = transfer.received.length := by
  have hlength := h.received.length_le
  rw [Download.offset, BitVec.toNat_ofNat, Nat.mod_eq_of_lt (by omega)]

theorem Download.sound_start : Download.start.Sound data where
  received := List.nil_prefix
  unfinished := fun _ h => absurd rfl h
  finished := nofun

/-- A chunk behind what was received. -/
theorem Download.Sound.take {transfer : Download} (h : transfer.Sound data) {reply : List Byte}
    (hchunk : Chunk data transfer.received.length reply) : (transfer.take reply).Sound data := by
  have hbefore : data.take transfer.received.length = transfer.received :=
    (List.prefix_iff_eq_take.mp h.received).symm
  have hreceived : (transfer.take reply).received =
      data.take (transfer.received.length + reply.tail.length) := by
    rw [hchunk.follows, hbefore]
    rfl
  have hlast : (transfer.take reply).finished = true ↔
      transfer.received.length + reply.tail.length = data.length := by
    rw [← hchunk.last]
    exact beq_iff_eq
  constructor
  · rw [hreceived]
    exact List.take_prefix _ _
  · intro hmore _ hall
    have hlength := congrArg List.length hall
    rw [Download.take, List.length_append] at hlength
    rw [hlast.mpr hlength] at hmore
    cases hmore
  · intro hfinished
    rw [hreceived, hlast.mp hfinished, List.take_length]

/-- A chunk that is not the last brings the client on. -/
theorem Download.take_longer {transfer : Download} {reply : List Byte}
    (hchunk : Chunk data transfer.received.length reply)
    (hmore : (transfer.take reply).finished = false) :
    transfer.received.length < (transfer.take reply).received.length := by
  have hnotLast : reply.head? ≠ some (ascii 'l') := fun h => by
    rw [Download.take, h] at hmore
    cases hmore
  have htail := hchunk.more (hchunk.head.resolve_right hnotLast)
  have hpos := List.length_pos_iff.mpr htail
  rw [Download.take, List.length_append]
  omega

/-- The bytes that replies brought. -/
def broughtBy (turns : List ChunkTurn) : List Byte := turns.flatMap fun turn => turn.reply.tail

/-- What holds of a transfer's turns so far: there are no more of them than
bytes, each brings a chunk behind those before it, and the client ends sound. -/
structure TurnsSound (data : List Byte) (transfer : Download) (turns : List ChunkTurn)
    (transfer' : Download) : Prop where
  sound : transfer'.Sound data
  bounded : transfer.received.length + turns.length ≤
    max (transfer.received.length + 1) data.length
  chunks : ∀ before turn after, turns = before ++ turn :: after →
    Chunk data (transfer.received.length + (broughtBy before).length) turn.reply

theorem Transfers.sound {transfer transfer' : Download} {turns : List ChunkTurn}
    (hdata : data.length < 2 ^ 32) (hsound : transfer.Sound data)
    (h : Transfers fuel data conn transfer turns conn' transfer')
    (hpos : ∀ turn ∈ turns, 0 < turn.requested.toNat) :
    TurnsSound data transfer turns transfer' := by
  induction h with
  | stop conn transfer =>
      refine ⟨hsound, ?_, fun before turn after hturns => ?_⟩
      · exact (Nat.le_succ _).trans (Nat.le_max_left _ _)
      · exact absurd hturns.symm (List.append_ne_nil_of_right_ne_nil _ (List.cons_ne_nil _ _))
  | @chunk conn middle final transfer transfer' turn turns hmore hserves hrest ih =>
      have hoffset := hsound.toNat_offset hdata
      have hinside : transfer.offset.toNat ≤ data.length := by
        rw [hoffset]
        exact hsound.received.length_le
      have hchunk := hserves.reply hinside (hpos turn List.mem_cons_self)
      rw [hoffset] at hchunk
      have hnext := hsound.take hchunk
      have hturns := ih hnext fun turn hmem => hpos turn (List.mem_cons_of_mem _ hmem)
      have hlength : (transfer.take turn.reply).received.length =
          transfer.received.length + turn.reply.tail.length := List.length_append
      refine ⟨hturns.sound, ?_, fun before other after hsplit => ?_⟩
      · rw [List.length_cons]
        cases hfinished : (transfer.take turn.reply).finished with
        | true =>
            -- the client asks for no more
            have hnone : turns = [] := by
              cases hrest with
              | stop => rfl
              | chunk hunfinished =>
                  rw [hfinished] at hunfinished
                  cases hunfinished
            rw [hnone, List.length_nil]
            exact Nat.le_max_left _ _
        | false =>
            have hlonger := Download.take_longer hchunk hfinished
            have hnotAll := hnext.unfinished hfinished
              (List.ne_nil_of_length_pos (Nat.lt_of_le_of_lt (Nat.zero_le _) hlonger))
            have hshorter : (transfer.take turn.reply).received.length < data.length := by
              refine lt_of_le_of_ne hnext.received.length_le fun hsame => hnotAll ?_
              exact hnext.received.eq_of_length hsame
            have hbounded := hturns.bounded
            omega
      · cases before with
        | nil =>
            obtain ⟨rfl, -⟩ := List.cons.inj hsplit
            exact hchunk
        | cons first before =>
            obtain ⟨rfl, hmore⟩ := List.cons.inj hsplit
            have hother := hturns.chunks before other after hmore
            rw [hlength, Nat.add_assoc] at hother
            rwa [broughtBy, List.flatMap_cons, List.length_append]

/-- An unfinished client can ask for more, whatever the lengths, and gets all. -/
theorem transfers_complete (hdata : data.length < 2 ^ 32) (hfuel : 2 ≤ fuel) (conn : GdbConn)
    {lengths : Nat → Word} (hpos : ∀ i, 0 < (lengths i).toNat) {transfer : Download}
    (hsound : transfer.Sound data) (hmore : transfer.finished = false) :
    ∃ turns transfer', Transfers fuel data conn transfer turns conn transfer' ∧
      turns.map ChunkTurn.requested = (List.range turns.length).map lengths ∧
        transfer'.finished = true := by
  induction hleft : data.length - transfer.received.length using Nat.strong_induction_on
    generalizing lengths transfer with
  | _ left ih =>
      have hoffset := hsound.toNat_offset hdata
      have hinside : transfer.offset.toNat ≤ data.length := by
        rw [hoffset]
        exact hsound.received.length_le
      obtain ⟨reply, hserves⟩ : ∃ reply,
          ServesChunk fuel data conn transfer.offset ⟨lengths 0, reply⟩ conn :=
        ⟨_, serves_packet hfuel hinside (hpos 0)⟩
      have hchunk : Chunk data transfer.received.length reply := by
        rw [← hoffset]
        exact hserves.reply hinside (hpos 0)
      cases hfinished : (transfer.take reply).finished with
      | true => exact ⟨[_], _, .chunk hmore hserves (.stop _ _), rfl, hfinished⟩
      | false =>
          have hnext := hsound.take hchunk
          have hlonger := Download.take_longer hchunk hfinished
          have hlength := hnext.received.length_le
          obtain ⟨turns, transfer', hturns, hlengths, hdone⟩ := ih
            (data.length - (transfer.take reply).received.length) (by omega)
            (fun i => hpos (i + 1)) hnext hfinished rfl
          refine ⟨_ :: turns, transfer', .chunk hmore hserves hturns, ?_, hdone⟩
          rw [List.map_cons, hlengths, List.length_cons, List.range_succ_eq_map, List.map_cons,
            List.map_map]
          rfl

/-- A document of any length reaches a client that asks for positive lengths:
the client is done after finitely many requests and has the whole document
then. Every chunk fits a packet, none but the last is told to be the last, and
none but the last is empty. -/
theorem transfers_reassemble (data : List Byte) (hdata : data.length < 2 ^ 32) (fuel : Nat)
    (hfuel : 2 ≤ fuel) (conn : GdbConn) :
    (∀ turns conn' transfer, Transfers fuel data conn .start turns conn' transfer →
      (∀ turn ∈ turns, 0 < turn.requested) →
        turns.length ≤ max 1 data.length ∧
        (∀ before turn after, turns = before ++ turn :: after →
          Chunk data (broughtBy before).length turn.reply) ∧
        (transfer.finished = true → transfer.received = data) ∧
        (transfer.finished = false → ∀ requested : Word, 0 < requested → ∃ reply after,
          ServesChunk fuel data conn' transfer.offset ⟨requested, reply⟩ after)) ∧
    ∀ lengths : Nat → Word, (∀ i, 0 < lengths i) →
      ∃ turns conn' transfer, Transfers fuel data conn .start turns conn' transfer ∧
        turns.map ChunkTurn.requested = (List.range turns.length).map lengths ∧
        transfer.finished = true ∧ transfer.received = data := by
  constructor
  · intro turns conn' transfer hturns hpos
    have hsound := hturns.sound hdata Download.sound_start hpos
    refine ⟨?_, ?_, hsound.sound.finished, fun hmore requested hrequested => ?_⟩
    · simpa [Download.start] using hsound.bounded
    · simpa [Download.start] using hsound.chunks
    · have hinside : transfer.offset.toNat ≤ data.length := by
        rw [hsound.sound.toNat_offset hdata]
        exact hsound.sound.received.length_le
      exact ⟨_, _, serves_packet hfuel hinside hrequested⟩
  · intro lengths hpos
    obtain ⟨turns, transfer, hturns, hlengths, hfinished⟩ :=
      transfers_complete hdata hfuel conn hpos Download.sound_start rfl
    refine ⟨turns, conn, transfer, hturns, hlengths, hfinished, ?_⟩
    have hrequested : ∀ turn ∈ turns, 0 < turn.requested := by
      intro turn hmem
      have hmap : turn.requested ∈ turns.map ChunkTurn.requested := List.mem_map_of_mem hmem
      rw [hlengths] at hmap
      obtain ⟨i, -, hi⟩ := List.mem_map.mp hmap
      rw [← hi]
      exact hpos i
    exact (hturns.sound hdata Download.sound_start hrequested).sound.finished hfinished

/-- A document in chunks of a byte. -/
theorem transfers_reassemble_bytes :
    ∃ turns conn' transfer, Transfers 2 (text "<a/>") (.fresh wlLinkeAttachTransport ch32v003)
      .start turns conn' transfer ∧
        turns.map ChunkTurn.requested = (List.range turns.length).map (fun _ => 1) ∧
        transfer.finished = true ∧ transfer.received = text "<a/>" :=
  (transfers_reassemble (text "<a/>") (by decide) 2 (by decide)
    (.fresh wlLinkeAttachTransport ch32v003)).2 (fun _ => 1) fun _ => by decide

end WchLink
