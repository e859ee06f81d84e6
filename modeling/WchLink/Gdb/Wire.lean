import WchLink.Gdb.Framing
import WchLink.Gdb.Handlers

/-! # Packets on the wire

What a run puts on the debugger's socket while the debugger acknowledges it:
whole packets, one behind the other, each within the buffer it is framed in.
-/

namespace WchLink

open Bytes Interaction

/-! ## The exchanges of a run -/

/-- The operations on the debugger's socket. -/
def HostOp.onSocket : HostOp → Bool
  | .send _ => true
  | .recv => true
  | _ => false

/-- The bytes the socket took. -/
def wireBytes (made : List Host.Idx) : List Byte :=
  made.flatMap fun exchange =>
    match exchange with
    | ⟨.send bytes, .wrote count⟩ => bytes.take count
    | _ => []

/-- What was exchanged with the target and the machine. -/
def aside (made : List Host.Idx) : List Host.Idx := made.filter fun exchange => !exchange.1.onSocket

/-- Whether the debugger still owes an acknowledgement; `none` when the
connection is gone or the debugger asks for the packet again. -/
def gdbOwes : Received → Option Bool
  | .byte c => if c = ascii '+' then some false else if c = ascii '-' then none else some true
  | .interrupted => some true
  | _ => none

/-- What one exchange makes of the acknowledgement that is owed. A byte that
comes while none is owed is the debugger's own. -/
def ackAfter (owed : Bool) : Host.Idx → Option Bool
  | ⟨.send _, .failed⟩ => none
  | ⟨.send _, _⟩ => some true
  | ⟨.recv, received⟩ => if owed then gdbOwes received else some false
  | _ => some owed

/-- What a run's exchanges make of it. -/
def owedAfter (owed : Bool) (made : List Host.Idx) : Option Bool := made.foldlM ackAfter owed

/-- The debugger keeps acknowledging what it is sent. -/
def Acknowledges (made : List Host.Idx) : Prop := (owedAfter false made).isSome

example : Acknowledges [⟨.send (gdbFrame (text "OK")), .wrote 6⟩, ⟨.recv, .byte (ascii '+')⟩] := rfl

/-- The run put these packets on the wire, and the last one is acknowledged. -/
structure WirePackets (made : List Host.Idx) (packets : List (List Byte)) : Prop where
  bytes : wireBytes made = packets.flatMap gdbFrame
  fits : ∀ packet ∈ packets, packet.length ≤ gdbPacketMax
  acknowledged : owedAfter false made = some false

/-- The size of `framed`. -/
def gdbFramedSize : Nat := 2 * gdbPacketMax + 8

/-- What is sent is what is left of one frame, which fits its buffer with the
NUL behind it. -/
def InFrame (operation : HostOp) : Prop :=
  ∀ bytes, operation = .send bytes → ∃ payload sent, payload.length ≤ gdbPacketMax ∧
    bytes = (gdbFrame payload).drop sent ∧ (gdbFrame payload).length < gdbFramedSize

theorem wireBytes_append (first second : List Host.Idx) :
    wireBytes (first ++ second) = wireBytes first ++ wireBytes second := List.flatMap_append

theorem aside_append (first second : List Host.Idx) :
    aside (first ++ second) = aside first ++ aside second := List.filter_append ..

theorem owedAfter_append (owed : Bool) (first second : List Host.Idx) :
    owedAfter owed (first ++ second) =
      (owedAfter owed first).bind fun owed => owedAfter owed second := List.foldlM_append

theorem WirePackets.append {first second : List Host.Idx} {packets more : List (List Byte)}
    (h : WirePackets first packets) (h' : WirePackets second more) :
    WirePackets (first ++ second) (packets ++ more) := by
  constructor
  · rw [wireBytes_append, h.bytes, h'.bytes, List.flatMap_append]
  · intro packet hmem
    exact (List.mem_append.mp hmem).elim (h.fits packet) (h'.fits packet)
  · rw [owedAfter_append, h.acknowledged]
    exact h'.acknowledged

theorem Acknowledges.left {first second : List Host.Idx} (h : Acknowledges (first ++ second)) :
    Acknowledges first := by
  unfold Acknowledges at h ⊢
  rw [owedAfter_append] at h
  cases hfirst : owedAfter false first with
  | none =>
      rw [hfirst] at h
      cases h
  | some owed => rfl

theorem Acknowledges.right {first second : List Host.Idx} {packets : List (List Byte)}
    (h : Acknowledges (first ++ second)) (hfirst : WirePackets first packets) :
    Acknowledges second := by
  unfold Acknowledges at h ⊢
  rw [owedAfter_append, hfirst.acknowledged] at h
  exact h

/-! ## Frames fit their buffer -/

theorem length_gdbEscape (c : Byte) : (gdbEscape c).length ≤ 2 := by
  unfold gdbEscape
  split
  · exact Nat.le_refl 2
  · exact Nat.le_succ 1

/-- At worst every byte is escaped. -/
theorem length_gdbFrame (payload : List Byte) :
    (gdbFrame payload).length ≤ 2 * payload.length + 4 := by
  have hescaped : (payload.flatMap gdbEscape).length ≤ 2 * payload.length := by
    induction payload with
    | nil => exact Nat.le_refl 0
    | cons c rest ih =>
        have hc := length_gdbEscape c
        rw [List.flatMap_cons, List.length_append, List.length_cons]
        omega
  unfold gdbFrame formatHexByte
  simp only [List.length_append, List.length_cons, List.length_nil]
  omega

theorem inFrame_of_payload {payload : List Byte} (hpayload : payload.length ≤ gdbPacketMax)
    (sent : Nat) : InFrame (.send ((gdbFrame payload).drop sent)) := by
  intro bytes hbytes
  cases hbytes
  refine ⟨payload, sent, hpayload, rfl, ?_⟩
  have hlength := length_gdbFrame payload
  unfold gdbFramedSize
  omega

theorem inFrame_of_ne_send {operation : HostOp} (h : ∀ bytes, operation ≠ .send bytes) :
    InFrame operation := fun bytes hbytes => absurd hbytes (h bytes)

/-- Programs that send such frames only. -/
theorem requesting_hasSocket :
    HasSocket (Program.requesting InFrame) fun bytes => InFrame (.send bytes) where
  cuts := trivial
  recv := ⟨inFrame_of_ne_send nofun, fun _ => trivial⟩
  send := fun _ hbytes => ⟨hbytes, fun _ => trivial⟩

/-! ## The wire determines the packets -/

/-- The first frame of a stream ends where the next one begins. -/
theorem takeWhile_frames (payload : List Byte) (packets : List (List Byte)) :
    ((gdbFrame payload).tail ++ packets.flatMap gdbFrame).takeWhile (· ≠ ascii '$') =
      (gdbFrame payload).tail := by
  have hbody : ∀ c ∈ (gdbFrame payload).tail, decide (c ≠ ascii '$') = true := fun c hc =>
    decide_eq_true fun hdollar => dollar_notMem_frame payload (hdollar ▸ hc)
  have hnext : (packets.flatMap gdbFrame).takeWhile (· ≠ ascii '$') = [] := by
    cases packets with
    | nil => rfl
    | cons packet rest => exact List.takeWhile_cons_of_neg (by simp)
  rw [List.takeWhile_append_of_pos hbody, hnext, List.append_nil]

theorem frames_injective {packets others : List (List Byte)}
    (h : packets.flatMap gdbFrame = others.flatMap gdbFrame) : packets = others := by
  induction packets generalizing others with
  | nil =>
      cases others with
      | nil => rfl
      | cons other rest => cases h
  | cons packet packets ih =>
      cases others with
      | nil => cases h
      | cons other others =>
          have htail : (gdbFrame packet).tail ++ packets.flatMap gdbFrame =
              (gdbFrame other).tail ++ others.flatMap gdbFrame := (List.cons.inj h).2
          have hframe := congrArg (List.takeWhile (· ≠ ascii '$')) htail
          rw [takeWhile_frames, takeWhile_frames] at hframe
          rw [hframe] at htail
          have hsame : packet = other := gdbFrame_injective (congrArg (ascii '$' :: ·) hframe)
          rw [hsame, ih (List.append_cancel_left htail)]

theorem WirePackets.unique {made : List Host.Idx} {packets others : List (List Byte)}
    (h : WirePackets made packets) (h' : WirePackets made others) : packets = others :=
  frames_injective (h.bytes.symm.trans h'.bytes)

/-! ## What programs send -/

/-- Whatever the replies, only frames that fit their buffer are sent, and a run
that returns while the debugger acknowledges has sent whole packets. -/
def Transmits {α : Type} (program : Gdb α)
    (post : GdbConn → List Host.Idx → List (List Byte) → α → GdbConn → Prop) : Prop :=
  ∀ conn, (program.run conn).Follows (fun _ operation => InFrame operation) fun made outcome =>
    Acknowledges made → ∀ value conn', outcome = some (value, conn') →
      ∃ packets, WirePackets made packets ∧ post conn (aside made) packets value conn'

section Transmits

variable {α β : Type} {program : Gdb α}
  {post post' : GdbConn → List Host.Idx → List (List Byte) → α → GdbConn → Prop}

theorem Transmits.mono (h : Transmits program post)
    (hpost : ∀ conn asked packets value conn', post conn asked packets value conn' →
      post' conn asked packets value conn') : Transmits program post' := by
  intro conn
  refine (h conn).mono (fun _ _ hallowed => hallowed) fun made outcome houtcome => ?_
  intro hacks value conn' hvalue
  obtain ⟨packets, hpackets, hfinal⟩ := houtcome hacks value conn' hvalue
  exact ⟨packets, hpackets, hpost _ _ _ _ _ hfinal⟩

theorem Transmits.ite {condition : Prop} [Decidable condition] {program' : Gdb α}
    (h : condition → Transmits program post) (h' : ¬condition → Transmits program' post) :
    Transmits (if condition then program else program') post := by
  split
  · next hcondition => exact h hcondition
  · next hcondition => exact h' hcondition

theorem Transmits.done (value : α) :
    Transmits (pure value) fun conn asked packets result conn' =>
      asked = [] ∧ packets = [] ∧ result = value ∧ conn' = conn := by
  intro conn _ result conn' hresult
  cases hresult
  exact ⟨[], ⟨rfl, nofun, rfl⟩, rfl, rfl, rfl, rfl⟩

/-- What the parts of a sequence send, one behind the other; `good` is what the
first part's value always is. -/
theorem Transmits.bindWhere {good : α → Prop} {rest : α → Gdb β}
    {final : GdbConn → List Host.Idx → List (List Byte) → β → GdbConn → Prop}
    {after : α → GdbConn → List Host.Idx → List (List Byte) → β → GdbConn → Prop}
    (h : Transmits program post) (hgood : ∀ conn, (program.run conn).Always fun result => good result.1)
    (hrest : ∀ value, good value → Transmits (rest value) (after value))
    (hfinal : ∀ conn asked packets value between more others result conn',
      post conn asked packets value between → after value between more others result conn' →
        final conn (asked ++ more) (packets ++ others) result conn') :
    Transmits (program >>= rest) final := by
  intro conn
  rw [StateT.run_bind]
  refine ((h conn).always (hgood conn)).bind (fun made result hresult => ?_)
    fun made _ hacks value conn' hvalue => by cases hvalue
  obtain ⟨value, between⟩ := result
  refine (hrest value (hresult.2 _ rfl) between).mono (fun _ _ hallowed => hallowed) ?_
  intro more outcome houtcome hacks result conn' hout
  obtain ⟨packets, hpackets, hpost⟩ := hresult.1 hacks.left value between rfl
  obtain ⟨others, hothers, hafter⟩ := houtcome (hacks.right hpackets) result conn' hout
  refine ⟨packets ++ others, hpackets.append hothers, ?_⟩
  rw [aside_append]
  exact hfinal _ _ _ _ _ _ _ _ _ hpost hafter

theorem Transmits.bind {rest : α → Gdb β}
    {final : GdbConn → List Host.Idx → List (List Byte) → β → GdbConn → Prop}
    {after : α → GdbConn → List Host.Idx → List (List Byte) → β → GdbConn → Prop}
    (h : Transmits program post) (hrest : ∀ value, Transmits (rest value) (after value))
    (hfinal : ∀ conn asked packets value between more others result conn',
      post conn asked packets value between → after value between more others result conn' →
        final conn (asked ++ more) (packets ++ others) result conn') :
    Transmits (program >>= rest) final :=
  @Transmits.bindWhere α β program post (fun _ => True) rest final after h
    (fun _ => Program.always_true _) (fun value _ => hrest value) hfinal

end Transmits

/-! ## Sending a packet -/

/-- Everything is sent, in however many parts. -/
theorem gdbSendAll_follows (fuel : Nat) (owed : Bool) (bytes : List Byte) :
    (gdbSendAll fuel bytes).Follows (fun _ _ => True) fun made outcome =>
      ∀ done, outcome = some done → (owedAfter owed made).isSome →
        done = true ∧ wireBytes made = bytes ∧ aside made = [] ∧
          owedAfter owed made = some (owed || !bytes.isEmpty) := by
  induction fuel generalizing owed bytes with
  | zero =>
      cases bytes with
      | nil =>
          intro done hdone _
          cases hdone
          exact ⟨rfl, rfl, rfl, congrArg some (Bool.or_false owed).symm⟩
      | cons c rest =>
          intro done hdone
          cases hdone
  | succ fuel ih =>
      cases bytes with
      | nil =>
          intro done hdone _
          cases hdone
          exact ⟨rfl, rfl, rfl, congrArg some (Bool.or_false owed).symm⟩
      | cons c rest =>
          have howed : some (owed || !(c :: rest).isEmpty) = some true :=
            congrArg some (Bool.or_true owed)
          refine ⟨trivial, fun reply => ?_⟩
          cases reply with
          | interrupted =>
              refine (ih true (c :: rest)).mono (fun _ _ _ => trivial) ?_
              intro made outcome houtcome done hdone hacks
              rw [howed]
              exact houtcome done hdone hacks
          | failed =>
              intro done hdone hacks
              cases hacks
          | wrote count =>
              refine (ih true ((c :: rest).drop count)).mono (fun _ _ _ => trivial) ?_
              intro made outcome houtcome done hdone hacks
              obtain ⟨hsent, hwire, haside, hfold⟩ := houtcome done hdone hacks
              rw [howed]
              refine ⟨hsent, ?_, haside, hfold⟩
              have htaken : wireBytes (⟨.send (c :: rest), .wrote count⟩ :: made) =
                  (c :: rest).take count ++ wireBytes made := rfl
              rw [htaken, hwire, List.take_append_drop]

/-- A byte that is no request to send again acknowledges or is ignored. -/
theorem gdbOwes_byte {c : Byte} (h : (gdbOwes (.byte c)).isSome) :
    c ≠ ascii '-' ∧ gdbOwes (.byte c) = some (c != ascii '+') := by
  revert c
  decide

theorem gdbRecvByte_follows (fuel : Nat) :
    (gdbRecvByte fuel).Follows (fun _ _ => True) fun made outcome =>
      ∀ received, outcome = some received → (owedAfter true made).isSome →
        wireBytes made = [] ∧ aside made = [] ∧ ∃ c, received = some c ∧ c ≠ ascii '-' ∧
          owedAfter true made = some (c != ascii '+') := by
  induction fuel with
  | zero =>
      intro received hreceived
      cases hreceived
  | succ fuel ih =>
      refine ⟨trivial, fun reply => ?_⟩
      cases reply with
      | closed =>
          intro received _ hacks
          cases hacks
      | failed =>
          intro received _ hacks
          cases hacks
      | interrupted => exact ih
      | byte c =>
          intro received hreceived hacks
          cases hreceived
          have hfold : owedAfter true [⟨.recv, .byte c⟩] = gdbOwes (.byte c) :=
            Option.bind_fun_some _
          have hanswer : (gdbOwes (.byte c)).isSome := hfold ▸ hacks
          obtain ⟨hagain, howes⟩ := gdbOwes_byte hanswer
          exact ⟨rfl, rfl, c, rfl, hagain, hfold.trans howes⟩

/-- The frame is out; what comes back settles it without another send. -/
theorem gdbAwaitAck_follows (framed : List Byte) (fuel : Nat) (conn : GdbConn) :
    ((gdbAwaitAck framed fuel).run conn).Follows (fun _ _ => True) fun made outcome =>
      ∀ result, outcome = some result → (owedAfter true made).isSome →
        wireBytes made = [] ∧ aside made = [] ∧ result = ((), conn) ∧
          owedAfter true made = some false := by
  induction fuel generalizing conn with
  | zero =>
      intro result hresult
      cases hresult
  | succ fuel ih =>
      rw [gdbAwaitAck, StateT.run_bind, StateT.run_lift, bind_assoc]
      refine (gdbRecvByte_follows fuel).bind (fun made received hreceived => ?_)
        fun made _ result hresult => by cases hresult
      rw [pure_bind]
      by_cases hacks : (owedAfter true made).isSome
      · obtain ⟨hwire, haside, c, rfl, hagain, hfold⟩ := hreceived received rfl hacks
        dsimp only
        by_cases hack : c = ascii '+'
        · subst hack
          intro result hresult _
          cases hresult
          rw [List.append_nil]
          exact ⟨hwire, haside, rfl, hfold⟩
        · have hstill : owedAfter true made = some true := by
            rw [hfold, bne_iff_ne.mpr hack]
          rw [if_neg hack, if_neg hagain]
          refine (ih conn).mono (fun _ _ _ => trivial) fun more outcome houtcome => ?_
          rw [owedAfter_append, hstill, Option.bind_some, wireBytes_append, hwire,
            aside_append, haside]
          exact houtcome
      · refine (Program.follows_true _).mono (fun _ _ _ => trivial) fun more outcome _ => ?_
        intro result _ hmore
        rw [owedAfter_append, Option.not_isSome_iff_eq_none.mp hacks] at hmore
        cases hmore

/-- A packet is put on the wire as a whole and acknowledged. -/
theorem gdbSendPacket_transmits (fuel : Nat) {payload : List Byte}
    (hpayload : payload.length ≤ gdbPacketMax) :
    Transmits (gdbSendPacket fuel payload) fun conn asked packets _ conn' =>
      asked = [] ∧ packets = [payload] ∧ conn' = conn := by
  intro conn
  have hframes : ((gdbSendPacket fuel payload).run conn).Follows
      (fun _ operation => InFrame operation) fun _ _ => True :=
    (gdbSendPacket_mem requesting_hasSocket fuel (inFrame_of_payload hpayload) conn).1
  have hsent : ((gdbSendPacket fuel payload).run conn).Follows (fun _ _ => True)
      fun made outcome => ∀ result, outcome = some result → Acknowledges made →
        wireBytes made = gdbFrame payload ∧ aside made = [] ∧ result = ((), conn) ∧
          owedAfter false made = some false := by
    rw [gdbSendPacket, StateT.run_bind, StateT.run_lift, bind_assoc]
    refine (gdbSendAll_follows fuel false (gdbFrame payload)).bind (fun made sent hmade => ?_)
      fun made _ result hresult => by cases hresult
    rw [pure_bind]
    by_cases hacks : (owedAfter false made).isSome
    · obtain ⟨rfl, hwire, haside, hfold⟩ := hmade sent rfl hacks
      refine (gdbAwaitAck_follows (gdbFrame payload) fuel conn).mono (fun _ _ _ => trivial) ?_
      intro more outcome houtcome result hresult hmore
      unfold Acknowledges at hmore
      rw [owedAfter_append, hfold] at hmore ⊢
      obtain ⟨hwire', haside', hvalue, hfold'⟩ := houtcome result hresult hmore
      rw [wireBytes_append, hwire, hwire', aside_append, haside, haside', List.append_nil]
      exact ⟨rfl, rfl, hvalue, hfold'⟩
    · refine (Program.follows_true _).mono (fun _ _ _ => trivial) fun more outcome _ => ?_
      intro result _ hmore
      exact absurd hmore.left hacks
  refine (hframes.and hsent).mono (fun _ _ hallowed => hallowed.1) fun made outcome houtcome => ?_
  intro hacks value conn' hvalue
  obtain ⟨hwire, haside, hresult, hfold⟩ := houtcome.2 _ hvalue hacks
  obtain ⟨-, rfl⟩ := Prod.mk.inj hresult
  refine ⟨[payload], ⟨?_, fun packet hmem => ?_, hfold⟩, haside, rfl, rfl⟩
  · rw [hwire, List.flatMap_singleton]
  · rw [List.mem_singleton.mp hmem]
    exact hpayload

/-! ## Programs that send nothing -/

/-- Programs that leave the socket alone. -/
def offSocket : ProgramClass Host := Program.requesting fun operation => operation.onSocket = false

theorem offSocket_request {operation : HostOp} (h : operation.onSocket = false) :
    offSocket.Mem (request operation) := ⟨h, fun _ => trivial⟩

/-- Whatever the server does to its target, it does not do on the socket. -/
theorem offSocket_usb {α : Type} (program : Program Usb α) : (usbClass offSocket).Mem program := by
  induction program with
  | done value => trivial
  | cut => trivial
  | call operation next ih => exact offSocket.bind (offSocket_request rfl) ih

theorem offSocket_hasMemory : HasMemory offSocket where
  cuts := trivial
  malloc := fun _ => offSocket_request rfl
  accesses := fun _ => ⟨⟨fun _ _ => offSocket_usb _⟩, fun _ _ _ => offSocket_usb _⟩

theorem offSocket_onTarget {α : Type} (operation : Link → Fallible α) :
    offSocket.StateMem (onTarget operation) :=
  onTarget_mem offSocket fun _ => offSocket_usb _

/-- Exchanges without a send leave nothing on the wire and nothing owed. -/
theorem wirePackets_nil {made : List Host.Idx}
    (h : ∀ exchange ∈ made, ∀ bytes, exchange.1 ≠ .send bytes) : WirePackets made [] := by
  induction made with
  | nil => exact ⟨rfl, nofun, rfl⟩
  | cons exchange rest ih =>
      have hrest := ih fun exchange hmem => h exchange (List.mem_cons_of_mem _ hmem)
      have hexchange : WirePackets [exchange] [] := by
        obtain ⟨operation, reply⟩ := exchange
        cases operation with
        | send bytes => exact absurd rfl (h _ List.mem_cons_self bytes)
        | _ => exact ⟨rfl, nofun, rfl⟩
      exact hexchange.append hrest

/-- Programs that may listen but send nothing. -/
def unsent : ProgramClass Host :=
  Program.requesting fun operation => ∀ bytes, operation ≠ .send bytes

theorem unsent_request {operation : HostOp} (h : ∀ bytes, operation ≠ .send bytes) :
    unsent.Mem (request operation) := ⟨h, fun _ => trivial⟩

theorem Transmits.unsent {α : Type} {program : Gdb α} (h : unsent.StateMem program) :
    Transmits program fun _ _ packets _ _ => packets = [] := by
  intro conn
  refine (Program.Follows.requests (h conn).1).mono
    (fun _ _ hfit => inFrame_of_ne_send hfit) ?_
  rintro made outcome ⟨-, hfit⟩ _ value conn' -
  exact ⟨[], wirePackets_nil hfit, rfl⟩

theorem aside_eq_self {made : List Host.Idx}
    (h : ∀ exchange ∈ made, HostOp.onSocket exchange.1 = false) : aside made = made := by
  unfold aside
  rw [List.filter_eq_self]
  intro exchange hmem
  rw [h exchange hmem]
  rfl

/-- Such a program's exchanges are all aside. -/
theorem Transmits.silent {α : Type} {program : Gdb α} (h : offSocket.StateMem program) :
    Transmits program fun conn asked packets value conn' =>
      packets = [] ∧ (program.run conn).Yields asked (value, conn') := by
  intro conn
  refine (Program.Follows.requests (h conn).1).yields.mono (fun made operation hoff => ?_) ?_
  · exact inFrame_of_ne_send fun bytes hbytes => by subst hbytes; cases hoff
  · rintro made outcome ⟨⟨-, hoff⟩, hyields⟩ _ value conn' hvalue
    refine ⟨[], wirePackets_nil fun exchange hmem bytes hbytes => ?_, rfl, ?_⟩
    · have hexchange := hoff exchange hmem
      rw [hbytes] at hexchange
      cases hexchange
    · rw [aside_eq_self hoff]
      exact hyields _ hvalue

end WchLink
