import WchLink.DebugModule
import WchLink.Interaction.World

/-! # Replies that arrive late

The real transport is two bulk transfers: the request goes out on one endpoint
and a reply is collected from another. When the second transfer times out the
reply stays with the programmer and is what the next collection delivers.
-/

namespace WchLink

open Bytes Interaction

/-! ## The transport -/

/-- One bulk transfer. -/
inductive Transfer
  | command (request : List Byte)
  | reply
  deriving DecidableEq

/-- A transfer fails with a negative code, or the reply's bytes arrive. -/
abbrev Transfer.Result : Transfer → Type
  | command _ => Except Int Unit
  | reply => Except Int (List Byte)

abbrev Bulk : PFunctor.{0, 0} := ⟨Transfer, Transfer.Result⟩

def libusbBulkTransfer (transfer : Transfer) : Program Bulk transfer.Result :=
  @Program.perform Bulk transfer

/-- Send a request, then collect a reply. -/
def usbTransportCommand (request : List Byte) : Program Bulk (Except Int (List Byte)) := do
  match ← libusbBulkTransfer (.command request) with
  | .error code => return .error code
  | .ok () => libusbBulkTransfer .reply

/-- The request layer over the real transport. -/
def overBulk {α : Type} (program : Program Usb α) : Program Bulk α :=
  program.interpret usbTransportCommand

/-! ## A programmer that answers every request -/

/-- The replies not collected yet, oldest first, the programmer's answer to the
last request it took, and the reply collected last. -/
structure Wire where
  unread : List (List Byte)
  answer : List Byte
  collected : List Byte

/-- A reply repeats the request's command and register bytes. -/
structure Echoes (request answer : List Byte) : Prop where
  header : answer.getD 0 0 = wlReplyHeader
  command : answer.getD 1 0 = request.getD 1 0
  register : answer.getD 3 0 = request.getD 3 0

/-- Every request taken is answered once, any collection may time out, and a
collection that does not delivers the oldest reply there is. -/
def echoing : World Bulk Wire
  | wire, .command request, .ok (), next =>
      ∃ answer, Echoes request answer ∧
        next = { wire with unread := wire.unread ++ [answer], answer }
  | wire, .reply, .ok reply, next =>
      ∃ rest, wire.unread = reply :: rest ∧ next = { wire with unread := rest, collected := reply }
  | wire, .command _, .error _, next => next = wire
  | wire, .reply, .error _, next => next = wire

/-! ## Register accesses -/

/-- What an accepted register access has to do with the wire: the reply it
collected was the oldest one when its own answer had joined the others. -/
structure Accepted (request : List Byte) (before after : Wire) (word : Word) : Prop where
  length : after.collected.length = 9
  ok : replyOk after.collected = true
  value : word = replyValue after.collected
  echoes : Echoes request after.answer
  queue : before.unread ++ [after.answer] = after.collected :: after.unread

/-- A request answered, with its reply collected. -/
theorem usbTransportCommand_collects (request : List Byte) (before : Wire) :
    (usbTransportCommand request).wp echoing (fun _ _ => True)
      (fun status after => ∀ reply, status = some (.ok reply) →
        reply = after.collected ∧ Echoes request after.answer ∧
          before.unread ++ [after.answer] = after.collected :: after.unread) before := by
  refine ⟨trivial, fun sent middle hsent => ?_⟩
  cases sent with
  | error code =>
      intro reply hreply
      cases hreply
  | ok sent =>
      obtain ⟨answer, hechoes, rfl⟩ := hsent
      refine ⟨trivial, fun collected after hcollected => ?_⟩
      cases collected with
      | error code =>
          intro reply hreply
          cases hreply
      | ok collected =>
          obtain ⟨rest, hqueue, rfl⟩ := hcollected
          intro reply hreply
          cases hreply
          exact ⟨rfl, hechoes, hqueue⟩

theorem wlLinkeCommand_collects (link : Link) (request : List Byte) (before : Wire) :
    (overBulk (wlLinkeCommand link request).run).wp echoing (fun _ _ => True)
      (fun status after => ∀ reply, status = some (.ok reply) →
        reply = after.collected ∧ Echoes request after.answer ∧
          before.unread ++ [after.answer] = after.collected :: after.unread) before := by
  unfold wlLinkeCommand overBulk transportCommand
  dsimp only
  split
  · intro reply hreply
    cases hreply
  · show (usbTransportCommand request >>= _).wp _ _ _ _
    rw [Program.wp_bind]
    refine Program.wp_mono (usbTransportCommand_collects request before)
      fun answer after hcollects => ?_
    rcases answer with _ | _ | reply
    · intro reply hreply
      cases hreply
    · intro reply hreply
      cases hreply
    · intro reply' hreply
      cases hreply
      exact hcollects reply rfl

theorem regAccess_accepted (link : Link) (reg : Byte) (value : Word) (operation : Byte)
    (before : Wire) :
    (overBulk (regAccess link reg value operation).run).wp echoing (fun _ _ => True)
      (fun status after => ∀ word, status = some (.ok word) →
        Accepted (regRequest reg value operation) before after word) before := by
  unfold regAccess overBulk
  rw [ExceptT.run_bind, Program.interpret_bind, Program.wp_bind]
  refine Program.wp_mono (wlLinkeCommand_collects link _ before) fun status after hcollects => ?_
  rcases status with _ | _ | reply
  · intro word hword
    cases hword
  · intro word hword
    cases hword
  · obtain ⟨rfl, hechoes, hqueue⟩ := hcollects reply rfl
    dsimp only
    by_cases hlength : after.collected.length = 9
    · by_cases hok : replyOk after.collected = true
      · rw [if_neg (not_not_intro hlength)]
        simp only [hok, Bool.not_true, Bool.false_eq_true, if_false]
        intro word hword
        cases hword
        exact ⟨hlength, hok, rfl, hechoes, hqueue⟩
      · rw [if_neg (not_not_intro hlength)]
        rw [Bool.not_eq_true] at hok
        simp only [hok, Bool.not_false, if_true]
        intro word hword
        cases hword
    · rw [if_pos hlength]
      intro word hword
      cases hword

/-! ## Sequences of calls -/

/-- One call of the register interface. -/
inductive DmiCall
  | read (reg : Byte)
  | write (reg : Byte) (value : Word)
  deriving DecidableEq

/-- What the call runs; a write has no result. -/
def DmiCall.operation (link : Link) : DmiCall → Fallible Word
  | read reg => wlLinkeDmiRead link reg
  | write reg value => do
      wlLinkeDmiWrite link reg value
      return 0

/-- The call can return `status`, leaving the wire at `after`. -/
def DmiCall.Returns (link : Link) (call : DmiCall) (before : Wire) (status : Except WlErr Word)
    (after : Wire) : Prop :=
  ∃ trace, Program.Run echoing (overBulk (call.operation link).run) before trace (.done status)
    after

/-- A read returns what the programmer reported for that very request, from a
reply with the register command and the register asked for. -/
def DmiCall.Faithful (call : DmiCall) (status : Except WlErr Word) (after : Wire) : Prop :=
  ∀ reg word, call = .read reg → status = .ok word →
    word = replyValue after.answer ∧ after.collected.getD 1 0 = wlCmdReg ∧
      after.collected.getD 3 0 = reg

/-- The oldest uncollected reply, if there is one, is no nine-byte
acknowledgement. -/
def Wire.Settled (wire : Wire) : Prop :=
  ∀ stale rest, wire.unread = stale :: rest → ¬(stale.length = 9 ∧ replyOk stale = true)

/-- A finished call with the wire before and after it. -/
structure DmiExchange where
  call : DmiCall
  before : Wire
  status : Except WlErr Word
  after : Wire

/-- A run of calls, each from the wire the one before left. -/
inductive DmiRun (link : Link) : Wire → List DmiExchange → Wire → Prop
  | nil (wire : Wire) : DmiRun link wire [] wire
  | cons {call : DmiCall} {before after final : Wire} {status : Except WlErr Word}
      {exchanges : List DmiExchange} :
      call.Returns link before status after → DmiRun link after exchanges final →
      DmiRun link before (⟨call, before, status, after⟩ :: exchanges) final

theorem DmiCall.Returns.accepted {link : Link} {reg : Byte} {before after : Wire} {word : Word}
    (h : (DmiCall.read reg).Returns link before (.ok word) after) :
    Accepted (regRequest reg 0 wlRegOpRead) before after word := by
  obtain ⟨trace, hrun⟩ := h
  have hdone := Program.wp_of_run (regAccess_accepted link reg 0 wlRegOpRead before) hrun
  exact hdone word rfl

/-- One call from a settled wire. -/
theorem DmiCall.Returns.faithful {link : Link} {call : DmiCall} {before after : Wire}
    {status : Except WlErr Word} (hsettled : before.Settled)
    (h : call.Returns link before status after) : call.Faithful status after := by
  rintro reg word rfl rfl
  obtain ⟨hlength, hok, hvalue, hechoes, hqueue⟩ := h.accepted
  cases hunread : before.unread with
  | nil =>
      rw [hunread, List.nil_append] at hqueue
      have hown : after.answer = after.collected := (List.cons.inj hqueue).1
      rw [hown] at hechoes ⊢
      exact ⟨hvalue, hechoes.command, hechoes.register⟩
  | cons stale rest =>
      rw [hunread, List.cons_append] at hqueue
      have hstale : stale = after.collected := (List.cons.inj hqueue).1
      exact absurd ⟨hlength, hok⟩ (hstale ▸ hsettled stale rest hunread)

/-- The reply that reports a register's value. -/
def registerReply (reg : Byte) (value : Word) : List Byte :=
  [wlReplyHeader, wlCmdReg, 0x06, reg, byteOf value 3, byteOf value 2, byteOf value 1,
    byteOf value 0, 0x00]

theorem registerReply_echoes (reg : Byte) (value : Word) :
    Echoes (regRequest reg 0 wlRegOpRead) (registerReply reg value) := ⟨rfl, rfl, rfl⟩

theorem replyValue_registerReply (reg : Byte) (value : Word) :
    replyValue (registerReply reg value) = value := wordLe_byteOf value

section Returns

variable {link : Link} (hlink : link.Usable) {reg : Byte} {answer : List Byte}
  (hechoes : Echoes (regRequest reg 0 wlRegOpRead) answer)

include hlink hechoes

/-- The oldest reply is collected and, being an acknowledgement, accepted. -/
theorem DmiCall.returns_oldest {before : Wire} {oldest : List Byte} {rest : List (List Byte)}
    (hqueue : before.unread ++ [answer] = oldest :: rest) (hlength : oldest.length = 9)
    (hok : replyOk oldest = true) :
    (DmiCall.read reg).Returns link before (.ok (replyValue oldest)) ⟨rest, answer, oldest⟩ := by
  obtain ⟨transport, isOpen, chipId, configured⟩ := link
  obtain ⟨rfl, rfl⟩ := hlink
  have hsent : echoing before (.command (regRequest reg 0 wlRegOpRead)) (.ok ())
      ⟨before.unread ++ [answer], answer, before.collected⟩ := ⟨answer, hechoes, rfl⟩
  have hcollected : echoing ⟨before.unread ++ [answer], answer, before.collected⟩ .reply
      (.ok oldest) ⟨rest, answer, oldest⟩ := ⟨rest, hqueue, rfl⟩
  have hchecked : overBulk ((do
      if oldest.length ≠ 9 then
        throw .target
      if !replyOk oldest then
        throw .target
      return replyValue oldest : Fallible Word).run) = .done (.ok (replyValue oldest)) := by
    rw [if_neg (not_not_intro hlength)]
    simp only [hok, Bool.not_true, Bool.false_eq_true, if_false]
    rfl
  refine ⟨[⟨.command _, .ok ()⟩, ⟨.reply, .ok oldest⟩], .step hsent (.step hcollected ?_)⟩
  exact hchecked ▸ Program.Run.refl _ _

/-- The reply does not arrive in time and stays where it is. -/
theorem DmiCall.returns_timeout (before : Wire) :
    (DmiCall.read reg).Returns link before (.error .usb)
      ⟨before.unread ++ [answer], answer, before.collected⟩ := by
  obtain ⟨transport, isOpen, chipId, configured⟩ := link
  obtain ⟨rfl, rfl⟩ := hlink
  have hsent : echoing before (.command (regRequest reg 0 wlRegOpRead)) (.ok ())
      ⟨before.unread ++ [answer], answer, before.collected⟩ := ⟨answer, hechoes, rfl⟩
  have htimeout : echoing ⟨before.unread ++ [answer], answer, before.collected⟩ .reply
      (.error (-7)) ⟨before.unread ++ [answer], answer, before.collected⟩ := rfl
  exact ⟨_, .step hsent (.step htimeout (.refl _ _))⟩

end Returns

/-- A read is faithful whatever happens exactly when it starts from a settled
wire: from another one it can take an older reply for its own. -/
theorem DmiCall.faithful_iff {link : Link} (hlink : link.Usable) (before : Wire) (reg : Byte) :
    (∀ status after, (DmiCall.read reg).Returns link before status after →
      (DmiCall.read reg).Faithful status after) ↔ before.Settled := by
  constructor
  · intro hfaithful stale rest hunread hstale
    -- the programmer reports another value for this very request
    have hqueue : before.unread ++ [registerReply reg (replyValue stale + 1)] =
        stale :: (rest ++ [registerReply reg (replyValue stale + 1)]) := by
      rw [hunread, List.cons_append]
    have hvalue := (hfaithful _ _ (DmiCall.returns_oldest hlink (registerReply_echoes reg _)
      hqueue hstale.1 hstale.2) reg _ rfl rfl).1
    rw [replyValue_registerReply] at hvalue
    exact absurd (BitVec.self_eq_add_right.mp hvalue) (by decide)
  · intro hsettled status after hreturns
    exact hreturns.faithful hsettled

/-- In every run whose calls all start from a settled wire, every read is
answered with its own reply. -/
theorem wlLinkeDmiRead_faithful (link : Link) (start final : Wire)
    (exchanges : List DmiExchange) (hrun : DmiRun link start exchanges final)
    (hsettled : ∀ exchange ∈ exchanges, exchange.before.Settled) :
    ∀ exchange ∈ exchanges, exchange.call.Faithful exchange.status exchange.after := by
  induction hrun with
  | nil wire => exact fun exchange hmem => absurd hmem List.not_mem_nil
  | cons hreturns hrest ih =>
      intro exchange hmem
      rcases List.mem_cons.mp hmem with rfl | hmem
      · exact hreturns.faithful (hsettled _ List.mem_cons_self)
      · exact ih (fun other hother => hsettled other (List.mem_cons_of_mem _ hother)) exchange hmem

/-- A read that nothing is left over from. -/
theorem wlLinkeDmiRead_faithful_fresh :
    (DmiCall.read wlDmiDmstatus).Faithful (.ok 0x382)
      ⟨[], registerReply wlDmiDmstatus 0x382, registerReply wlDmiDmstatus 0x382⟩ :=
  wlLinkeDmiRead_faithful wlLinkeAttachTransport ⟨[], [], []⟩ _ _
    (.cons (DmiCall.returns_oldest ⟨rfl, rfl⟩ (registerReply_echoes wlDmiDmstatus 0x382) rfl rfl
      (by decide)) (.nil _))
    (by
      intro exchange hmem stale rest hunread
      rw [List.mem_singleton] at hmem
      subst hmem
      cases hunread)
    ⟨.read wlDmiDmstatus, ⟨[], [], []⟩, .ok 0x382, _⟩ List.mem_cons_self

/-- The reply to a status read that timed out is taken for DATA0. -/
theorem wlLinkeDmiRead_takes_late_reply :
    ¬ ∀ (link : Link) (final : Wire) (exchanges : List DmiExchange),
      DmiRun link ⟨[], [], []⟩ exchanges final →
      ∀ exchange ∈ exchanges, exchange.call.Faithful exchange.status exchange.after := by
  intro hclaim
  have hlink : wlLinkeAttachTransport.Usable := ⟨rfl, rfl⟩
  have hlate := DmiCall.returns_timeout hlink (registerReply_echoes wlDmiDmstatus 0x382)
    ⟨[], [], []⟩
  have hok : replyOk (registerReply wlDmiDmstatus 0x382) = true := by decide
  have htaken : (DmiCall.read wlDmiData0).Returns wlLinkeAttachTransport
      ⟨[] ++ [registerReply wlDmiDmstatus 0x382], registerReply wlDmiDmstatus 0x382, []⟩
      (.ok (replyValue (registerReply wlDmiDmstatus 0x382)))
      ⟨[registerReply wlDmiData0 0], registerReply wlDmiData0 0,
        registerReply wlDmiDmstatus 0x382⟩ :=
    DmiCall.returns_oldest hlink (registerReply_echoes wlDmiData0 0) rfl rfl hok
  have hfaithful := hclaim wlLinkeAttachTransport _ _ (.cons hlate (.cons htaken (.nil _))) _
    (List.mem_cons_of_mem _ List.mem_cons_self) wlDmiData0 _ rfl rfl
  exact absurd hfaithful.2.2 (by decide)

end WchLink
