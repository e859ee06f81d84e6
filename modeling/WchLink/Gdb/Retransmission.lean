import WchLink.Gdb.Framing
import WchLink.Gdb.Session

/-! # Corrupted packets

A debugger whose packet was refused with `-` sends it again. The receiver does
answer a wrong sum with `-`, but reports it like the end of the connection, and
the packet loop is left.
-/

namespace WchLink

open Bytes Interaction

/-! ## Packets on the wire -/

/-- The receiver can collect the packet: no delimiter in it, and it fits. -/
structure WirePacket.Collectable (packet : WirePacket) : Prop where
  data : ascii '#' ∉ packet.data
  fits : packet.data.length < gdbPacketMax

theorem WirePacket.Collectable.kept {packet : WirePacket} (h : packet.Collectable) :
    packet.kept = packet.data :=
  List.take_of_length_le (Nat.le_sub_one_of_lt h.fits)

/-- A packet that carries a payload. -/
structure WirePacket.Carries (packet : WirePacket) (payload : List Byte) : Prop
    extends packet.Collectable where
  sum : packet.sum = some (gdbChecksum packet.data)
  payload : gdbUnescape gdbPacketMax packet.data [] = some payload

/-- A copy of a packet as it may arrive, after some noise. -/
structure WireCopy where
  noise : List Byte
  packet : WirePacket

def WireCopy.bytes (copy : WireCopy) : List Byte := copy.noise ++ copy.packet.bytes

/-- The copy was spoilt on its way: its hex digits are not the sum of its data. -/
structure WireCopy.Corrupted (copy : WireCopy) : Prop extends copy.packet.Collectable where
  noise : ascii '$' ∉ copy.noise
  sum : ∃ received, copy.packet.sum = some received ∧ gdbChecksum copy.packet.data ≠ received

/-! ## The loop on one packet -/

/-- What has been sent stays sent. -/
theorem bench_outgoing {α : Type} (program : Program Host α) (state : Bench) :
    state.outgoing <+: (program.run bench state).2.outgoing := by
  induction program generalizing state with
  | done value => exact List.prefix_refl _
  | cut => exact List.prefix_refl _
  | call operation next ih =>
      refine List.IsPrefix.trans ?_ (ih _ _)
      cases operation with
      | send bytes => exact List.prefix_append _ _
      | recv =>
          obtain ⟨target, incoming, outgoing⟩ := state
          cases incoming with
          | nil => exact List.prefix_refl _
          | cons c incoming => exact List.prefix_refl _
      | _ => exact List.prefix_refl _

section Loop

variable {conn : GdbConn} (hquit : conn.quit = false) (packet : List Byte) {state : Bench}
  {rest : List Byte} {fuel : Nat}

include hquit

/-- A corrupted copy is refused, and that was the session. -/
theorem gdbServe_corrupted {copy : WireCopy} (hcopy : copy.Corrupted)
    (hincoming : state.incoming = copy.bytes ++ rest) (hfuel : copy.bytes.length ≤ fuel) :
    ((gdbServe (fuel + 1) packet).run conn).run bench state =
      (some ((), conn),
        { state with incoming := rest, outgoing := state.outgoing ++ [ascii '-'] }) := by
  obtain ⟨received, hsum, hwrong⟩ := hcopy.sum
  rw [WireCopy.bytes, List.length_append, WirePacket.length_bytes] at hfuel
  have hrecv := gdbRecvPacket_run copy.noise rest copy.packet hcopy.noise hcopy.data hsum hincoming
    (show _ ≤ fuel by omega)
  rw [hcopy.kept, if_neg hwrong] at hrecv
  rw [gdbServe_run hquit, Program.run_bind_of_eq hrecv]
  rfl

/-- A good copy is accepted and handled, whatever noise came before it. -/
theorem gdbServe_carries {noise payload : List Byte} {good : WirePacket}
    (hgood : good.Carries payload) (hnoise : ascii '$' ∉ noise)
    (hincoming : state.incoming = noise ++ good.bytes ++ rest)
    (hfuel : noise.length + good.bytes.length ≤ fuel) :
    ((gdbServe (fuel + 1) packet).run conn).run bench state =
      ((gdbHandlePacket fuel (fillPacket packet payload)).run conn >>= fun result =>
        (gdbServe fuel (fillPacket packet payload)).run result.2).run bench
          { state with incoming := rest, outgoing := state.outgoing ++ [ascii '+'] } := by
  rw [WirePacket.length_bytes] at hfuel
  have hrecv := gdbRecvPacket_run noise rest good hnoise hgood.data hgood.sum hincoming
    (show _ ≤ fuel by omega)
  rw [hgood.kept, if_pos rfl, hgood.payload] at hrecv
  rw [gdbServe_run hquit, Program.run_bind_of_eq hrecv]

end Loop

/-! ## Recovery -/

/-- The bytes of the corrupted copies of a packet. -/
def corruptedBytes (copies : List WireCopy) : List Byte := copies.flatMap WireCopy.bytes

/-- After any corrupted copies, each answered with `-`, the loop goes on as if
only the good copy had been sent; it may take some turns more for them. -/
def Recovers (conn : GdbConn) (packet : List Byte) (target : Sim) (sent : List Byte)
    (copies : List WireCopy) (noise : List Byte) (good : WirePacket) (rest : List Byte) : Prop :=
  ∃ turns, ∀ fuel, (corruptedBytes copies ++ noise ++ good.bytes).length < fuel →
    ((gdbServe (fuel + turns) packet).run conn).run bench
        ⟨target, corruptedBytes copies ++ noise ++ good.bytes ++ rest, sent⟩ =
      ((gdbServe fuel packet).run conn).run bench
        ⟨target, good.bytes ++ rest, sent ++ copies.map fun _ => ascii '-'⟩

section Recovery

variable {conn : GdbConn} (hquit : conn.quit = false) (packet : List Byte) (target : Sim)
  (sent : List Byte) {noise payload : List Byte} {good : WirePacket} (hgood : good.Carries payload)
  (hnoise : ascii '$' ∉ noise) (rest : List Byte)

include hquit hgood hnoise

theorem recovers_undisturbed : Recovers conn packet target sent [] noise good rest := by
  refine ⟨0, fun fuel hfuel => ?_⟩
  obtain ⟨fuel, rfl⟩ : ∃ fuel', fuel = fuel' + 1 := ⟨fuel - 1, by omega⟩
  rw [corruptedBytes, List.flatMap_nil, List.nil_append, List.length_append] at hfuel
  rw [Nat.add_zero, corruptedBytes, List.flatMap_nil, List.nil_append, List.map_nil,
    List.append_nil]
  rw [gdbServe_carries hquit packet hgood hnoise rfl (by omega)]
  have hsilent : ascii '$' ∉ ([] : List Byte) := List.not_mem_nil
  rw [gdbServe_carries hquit packet hgood hsilent rfl (by rw [List.length_nil]; omega)]

omit hnoise in
/-- One corrupted copy ends the session: its `-` is all that is sent, and the
good copy gets no `+`. -/
theorem not_recovers_of_corrupted {copy : WireCopy} {copies : List WireCopy}
    (hcopy : copy.Corrupted) :
    ¬Recovers conn packet target sent (copy :: copies) noise good rest := by
  rintro ⟨turns, hrecovers⟩
  have hlength : (corruptedBytes (copy :: copies) ++ noise ++ good.bytes).length =
      copy.bytes.length + (corruptedBytes copies).length + noise.length + good.bytes.length := by
    rw [corruptedBytes, List.flatMap_cons, List.length_append, List.length_append,
      List.length_append]
    rfl
  have hsame := hrecovers _ (Nat.lt_succ_self _)
  rw [Nat.succ_add] at hsame
  have hstream : corruptedBytes (copy :: copies) ++ noise ++ good.bytes ++ rest =
      copy.bytes ++ (corruptedBytes copies ++ noise ++ good.bytes ++ rest) := by
    simp [corruptedBytes]
  rw [gdbServe_corrupted hquit packet hcopy hstream (by omega)] at hsame
  have hsilent : ascii '$' ∉ ([] : List Byte) := List.not_mem_nil
  rw [gdbServe_carries hquit packet hgood hsilent rfl (by rw [List.length_nil]; omega)] at hsame
  have hmore := List.IsPrefix.length_le (hsame ▸ bench_outgoing _ _)
  rw [List.length_append, List.length_append, List.length_append, List.length_map] at hmore
  simp only [List.length_cons, List.length_nil] at hmore
  omega

/-- The session survives exactly as long as nothing is corrupted. -/
theorem gdbServe_recovers_iff {copies : List WireCopy} (hcopies : ∀ copy ∈ copies, copy.Corrupted) :
    Recovers conn packet target sent copies noise good rest ↔ copies = [] := by
  constructor
  · intro hrecovers
    cases copies with
    | nil => rfl
    | cons copy copies =>
        exact absurd hrecovers (not_recovers_of_corrupted hquit packet target sent hgood rest
          (hcopies copy List.mem_cons_self))
  · rintro rfl
    exact recovers_undisturbed hquit packet target sent hgood hnoise rest

end Recovery

/-- `?` without noise or corruption. -/
theorem gdbServe_recovers_question :
    Recovers (.fresh wlLinkeAttachTransport ch32v003) [] (simNew ch32v003) [] [] [0x03]
      ⟨text "?", ascii '3', ascii 'f'⟩ [ascii '+'] :=
  (gdbServe_recovers_iff rfl [] (simNew ch32v003) []
    ⟨⟨by decide, by decide⟩, by decide, (by decide : _ = some (text "?"))⟩ (by decide) [ascii '+']
      (fun _ hcopy => absurd hcopy List.not_mem_nil)).mpr rfl

/-- `$?#40` before `$?#3f` ends the session. -/
theorem gdbServe_recovers_not_question :
    ¬∀ (conn : GdbConn) (packet : List Byte) (target : Sim) (sent : List Byte)
      (copies : List WireCopy) (noise : List Byte) (good : WirePacket) (payload rest : List Byte),
      conn.quit = false → good.Carries payload → ascii '$' ∉ noise →
        (∀ copy ∈ copies, copy.Corrupted) →
          Recovers conn packet target sent copies noise good rest := by
  intro hclaim
  have hgood : WirePacket.Carries ⟨text "?", ascii '3', ascii 'f'⟩ (text "?") :=
    ⟨⟨by decide, by decide⟩, by decide, by decide⟩
  have hcopy : WireCopy.Corrupted ⟨[], ⟨text "?", ascii '4', ascii '0'⟩⟩ :=
    ⟨⟨by decide, by decide⟩, by decide, 0x40, by decide, by decide⟩
  have hrecovers := hclaim (.fresh wlLinkeAttachTransport ch32v003) [] (simNew ch32v003) []
    [⟨[], ⟨text "?", ascii '4', ascii '0'⟩⟩] [] _ _ [] rfl hgood List.not_mem_nil fun copy hmem => by
      rw [List.mem_singleton.mp hmem]
      exact hcopy
  exact not_recovers_of_corrupted rfl _ _ _ hgood _ hcopy hrecovers

end WchLink
