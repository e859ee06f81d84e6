import WchLink.AccessTrace

/-! # Replies an operation takes for success

The programmer may answer any request with a refusal. The register accesses and
the interface setting look for one; the requests that hold a target, reset it
and let it run leave what the reply says to their callers, and detection checks
of it what it is about to use.
-/

namespace WchLink

open Bytes Interaction Interaction.Program

/-! ## Control requests -/

/-- A request on an open link, by its reply. -/
theorem wlLinkeCommand_eq {link : Link} (hlink : link.Usable) (request : List Byte) :
    (wlLinkeCommand link request).run = @Program.call Usb _ request fun reply =>
      .done (reply.mapError fun _ => WlErr.usb) := by
  unfold wlLinkeCommand
  rw [hlink.isOpen, hlink.transport]
  refine congrArg (@Program.call Usb _ request) (funext fun reply => ?_)
  cases reply with
  | error code => rfl
  | ok reply => rfl

/-- Requests sent one after another, whatever their replies say. -/
def commandEach (link : Link) : List (List Byte) → Fallible Unit
  | [] => return
  | request :: rest => do
      let _ ← wlLinkeCommand link request
      commandEach link rest

/-- The requests were sent in this order and each was answered. -/
def Answered (requests : List (List Byte)) (made : List Exchange) : Prop :=
  made.map Sigma.fst = requests ∧ ∀ exchange ∈ made, ∃ reply, exchange.2 = .ok reply

theorem answered_cons_iff {request : List Byte} {rest : List (List Byte)} {made : List Exchange} :
    Answered (request :: rest) made ↔
      ∃ (reply : List Byte) (more : List Exchange),
        made = (⟨request, .ok reply⟩ : Exchange) :: more ∧ Answered rest more := by
  constructor
  · rintro ⟨hrequests, hreplies⟩
    cases made with
    | nil => cases hrequests
    | cons exchange more =>
        obtain ⟨sent, answer⟩ := exchange
        obtain ⟨rfl, hmore⟩ := List.cons.inj hrequests
        obtain ⟨reply, hreply⟩ := hreplies _ List.mem_cons_self
        have hanswer : answer = .ok reply := hreply
        subst hanswer
        exact ⟨reply, more, rfl, hmore, fun other hother => hreplies other
          (List.mem_cons_of_mem _ hother)⟩
  · rintro ⟨reply, more, rfl, hrequests, hreplies⟩
    refine ⟨congrArg _ hrequests, fun other hother => ?_⟩
    rcases List.mem_cons.mp hother with rfl | hother
    · exact ⟨reply, rfl⟩
    · exact hreplies other hother

theorem commandEach_yields_iff {link : Link} (hlink : link.Usable) (requests : List (List Byte))
    (made : List Exchange) :
    (commandEach link requests).run.Yields made (.ok ()) ↔ Answered requests made := by
  induction requests generalizing made with
  | nil =>
      refine yields_done_iff.trans ⟨?_, ?_⟩
      · rintro ⟨rfl, -⟩
        exact ⟨rfl, fun _ hexchange => absurd hexchange List.not_mem_nil⟩
      · rintro ⟨hrequests, -⟩
        exact ⟨List.map_eq_nil_iff.mp hrequests, rfl⟩
  | cons request rest ih =>
      rw [commandEach, ExceptT.run_bind, wlLinkeCommand_eq hlink, call_bind, answered_cons_iff]
      refine yields_call_iff.trans ⟨?_, ?_⟩
      · rintro ⟨answer, more, rfl, hmore⟩
        cases answer with
        | error code =>
            cases (yields_done_iff.mp hmore).2
        | ok reply => exact ⟨reply, more, rfl, (ih more).mp hmore⟩
      · rintro ⟨reply, more, rfl, hmore⟩
        exact ⟨.ok reply, more, rfl, (ih more).mpr hmore⟩

/-- The requests of a halt, a resume and a reset. -/
def haltRequests : List (List Byte) := [controlRequest wlCmdControl wlCtlAttach]

def resumeRequests : List (List Byte) :=
  [controlRequest wlCmdRun 0x01, controlRequest wlCmdControl wlCtlAttach,
    controlRequest wlCmdControl wlCtlRelease]

def resetRequests : List (List Byte) :=
  haltRequests ++ [controlRequest wlCmdControl wlCtlResetLow] ++ resumeRequests

theorem wlLinkeHalt_eq (link : Link) : wlLinkeHalt link = commandEach link haltRequests := rfl

theorem wlLinkeResume_eq (link : Link) : wlLinkeResume link = commandEach link resumeRequests := rfl

theorem wlLinkeReset_eq (link : Link) : wlLinkeReset link = commandEach link resetRequests := by
  unfold wlLinkeReset
  rw [wlLinkeHalt_eq, wlLinkeResume_eq]
  simp only [resetRequests, haltRequests, commandEach, bind_assoc, pure_bind, List.cons_append,
    List.nil_append]
  rfl

/-! ## Settings and detections -/

/-- The generic setting was acknowledged, and the attach named the part. -/
def Detected (made : List Exchange) (part : Chip) : Prop :=
  ∃ (setting attach : List Byte),
    made = [(⟨interfaceRequest 0x01 0x02, .ok setting⟩ : Exchange),
      ⟨controlRequest wlCmdControl wlCtlAttach, .ok attach⟩] ∧
    replyOk setting = true ∧ 6 ≤ attach.length ∧ attach.getD 0 0 = wlReplyHeader ∧
    attach.getD 1 0 = wlCmdControl ∧
    wlChipByDetectId (attach.getD 3 0) (attach.getD 4 0 ++ attach.getD 5 0) = some part

section Settings

variable {link : Link} {allowed : List Exchange → List Byte → Prop}
  (hallowed : ∀ made request, allowed made request)

include hallowed

theorem setInterfaceRaw_establishes (familyId interfaceSpeed : Byte) :
    Establishes (setInterfaceRaw link familyId interfaceSpeed) allowed fun made _ =>
      ∃ reply : List Byte, made = [(⟨interfaceRequest familyId interfaceSpeed, .ok reply⟩ : Exchange)] ∧
        replyOk reply = true := by
  refine Establishes.andThen (wlLinkeCommand_establishes (hallowed [] _)) fun made reply hmade => ?_
  split
  · exact Establishes.throw _
  next hok =>
    refine Establishes.ok ⟨reply, (List.append_nil made).trans hmade, ?_⟩
    simpa using hok

theorem identifyChipOnce_establishes :
    EstablishesState identifyChipOnce allowed Detected := by
  unfold identifyChipOnce
  refine EstablishesState.read fun link => ?_
  refine EstablishesState.andThen (EstablishesState.lift (setInterfaceRaw_establishes hallowed _ _))
    fun made _ hmade => ?_
  obtain ⟨setting, rfl, hsetting⟩ := hmade
  have hupdate (allowed' : List Exchange → List Byte → Prop) :
      EstablishesState (modify fun link => { link with configured := false } : Linked Unit) allowed'
        fun made _ => made = [] := EstablishesState.update _ rfl
  refine EstablishesState.andThen (hupdate _) fun made _ hmade => ?_
  subst hmade
  refine EstablishesState.read fun link => ?_
  refine EstablishesState.andThen (EstablishesState.lift (wlLinkeCommand_establishes
    (hallowed _ _))) fun made attach hmade => ?_
  subst hmade
  dsimp only
  split
  · exact EstablishesState.throw _
  next hreply =>
    rw [not_or, not_or, Nat.not_lt, not_not, not_not] at hreply
    cases hpart : wlChipByDetectId (attach.getD 3 0) (attach.getD 4 0 ++ attach.getD 5 0) with
    | none => exact EstablishesState.throw _
    | some part =>
        exact EstablishesState.ok ⟨setting, attach, rfl, hsetting, hreply.1, hreply.2.1, hreply.2.2,
          hpart⟩

/-- A detection's last attempt is the one that named the part. -/
def DetectedLast (made : List Exchange) (part : Chip) : Prop :=
  ∃ earlier attempt, made = earlier ++ attempt ∧ Detected attempt part

theorem wlLinkeIdentifyChip_establishes :
    EstablishesState wlLinkeIdentifyChip allowed DetectedLast := by
  have hcontrol (link : Link) (command argument : Byte) (allowed' : List Exchange → List Byte → Prop)
      (hallowed' : ∀ made request, allowed' made request) :
      Establishes (ignore (sendControl link command argument)) allowed' fun _ _ => True :=
    ignore_establishes (wlLinkeCommand_establishes (hallowed' [] _))
  intro link
  refine Program.Follows.bind (identifyChipOnce_establishes hallowed link) (fun made result hresult => ?_)
    fun made _ value own' hvalue => by cases hvalue
  obtain ⟨status, own⟩ := result
  cases status with
  | ok part =>
      rintro value own' ⟨⟩
      exact ⟨[], made ++ [], rfl, by rw [List.append_nil]; exact hresult part own rfl⟩
  | error error =>
      refine EstablishesState.read (fun link => ?_) own
      refine EstablishesState.andThen (EstablishesState.lift (hcontrol link _ _ _ fun _ _ =>
        hallowed _ _)) fun first _ _ => ?_
      refine EstablishesState.read fun link => ?_
      refine EstablishesState.andThen (EstablishesState.lift (hcontrol link _ _ _ fun _ _ =>
        hallowed _ _)) fun second _ _ => ?_
      refine (identifyChipOnce_establishes fun _ _ => hallowed _ _).mono (fun _ _ h => h) ?_
      intro attempt part hattempt
      exact ⟨made ++ (first ++ second), attempt, by simp only [List.append_assoc], hattempt⟩

theorem wlLinkeSetInterface_establishes (part : Chip) :
    EstablishesState (wlLinkeSetInterface (some part)) allowed fun made _ =>
      made = [] ∨ ∃ reply : List Byte, made =
        [(⟨interfaceRequest part.linkeId part.interfaceSpeed, .ok reply⟩ : Exchange)] ∧
          replyOk reply = true := by
  refine EstablishesState.read fun link => ?_
  split
  · exact EstablishesState.ok (.inl rfl)
  · refine EstablishesState.andThen (EstablishesState.lift
      (setInterfaceRaw_establishes hallowed _ _)) fun made _ hmade => ?_
    refine EstablishesState.update _ (.inr ?_)
    rwa [List.append_nil]

end Settings

/-! ## What each operation's success means -/

/-- Every reply was an acknowledgement. -/
def AllAcknowledged (made : List Exchange) : Prop :=
  ∀ exchange ∈ made, ∃ reply, exchange.2 = .ok reply ∧ replyOk reply = true

/-- No operation on the link takes anything but acknowledgements for success. -/
structure TakesOnlyAcknowledgements (link : Link) : Prop where
  halt : ∀ made, (wlLinkeHalt link).run.Yields made (.ok ()) → AllAcknowledged made
  resume : ∀ made, (wlLinkeResume link).run.Yields made (.ok ()) → AllAcknowledged made
  reset : ∀ made, (wlLinkeReset link).run.Yields made (.ok ()) → AllAcknowledged made
  setInterface : ∀ chip made link',
    ((wlLinkeSetInterface chip).run.run link).Yields made (.ok (), link') → AllAcknowledged made
  identify : ∀ made part link', (wlLinkeIdentifyChip.run.run link).Yields made (.ok part, link') →
    ∃ earlier attempt, made = earlier ++ attempt ∧ attempt ≠ [] ∧ AllAcknowledged attempt
  dmiRead : ∀ reg made word, (wlLinkeDmiRead link reg).run.Yields made (.ok word) →
    AllAcknowledged made
  dmiWrite : ∀ reg value made, (wlLinkeDmiWrite link reg value).run.Yields made (.ok ()) →
    AllAcknowledged made

/-- The programmer's four-byte refusal of an attach. -/
def haltRefused : List Exchange :=
  [⟨controlRequest wlCmdControl wlCtlAttach, .ok [0x81, 0x55, 0x01, 0x00]⟩]

/-- A halt that is refused succeeds. -/
theorem wlLinkeHalt_takes_refusal : ¬∀ link : Link, TakesOnlyAcknowledgements link := by
  intro h
  have hyields : (wlLinkeHalt wlLinkeAttachTransport).run.Yields haltRefused (.ok ()) := by
    rw [wlLinkeHalt_eq, commandEach_yields_iff ⟨rfl, rfl⟩]
    refine ⟨rfl, fun exchange hexchange => ?_⟩
    rw [List.mem_singleton.mp hexchange]
    exact ⟨_, rfl⟩
  obtain ⟨reply, hreply, hok⟩ := (h _).halt haltRefused hyields _ List.mem_cons_self
  cases hreply
  exact absurd hok (by decide)

/-- Register accesses and the interface setting succeed on acknowledgements
alone. A detection succeeds on an attempt whose setting was acknowledged and
whose attach named a part of the table. Halting, resuming and resetting succeed
exactly when each of their requests was answered. -/
theorem linkeOperations_succeed (link : Link) (hlink : link.Usable) :
    (∀ made, (wlLinkeHalt link).run.Yields made (.ok ()) ↔ Answered haltRequests made) ∧
    (∀ made, (wlLinkeResume link).run.Yields made (.ok ()) ↔ Answered resumeRequests made) ∧
    (∀ made, (wlLinkeReset link).run.Yields made (.ok ()) ↔ Answered resetRequests made) ∧
    (∀ chip made link', ((wlLinkeSetInterface chip).run.run link).Yields made (.ok (), link') →
      AllAcknowledged made) ∧
    (∀ made part link', (wlLinkeIdentifyChip.run.run link).Yields made (.ok part, link') →
      DetectedLast made part) ∧
    (∀ reg made word, (wlLinkeDmiRead link reg).run.Yields made (.ok word) →
      AllAcknowledged made) ∧
    ∀ reg value made, (wlLinkeDmiWrite link reg value).run.Yields made (.ok ()) →
      AllAcknowledged made := by
  have hacknowledged {reg : Byte} {value : Word} {operation : Byte} {made : List Exchange}
      {exchange : Exchange} {word : Word} (hmade : made = [exchange])
      (h : Acknowledged reg value operation word exchange) : AllAcknowledged made := by
    obtain ⟨reply, rfl, -, hok, -⟩ := h
    subst hmade
    intro other hother
    rw [List.mem_singleton.mp hother]
    exact ⟨reply, rfl, hok⟩
  refine ⟨fun made => ?_, fun made => ?_, fun made => ?_, fun chip made link' hyields => ?_,
    fun made part link' hyields => ?_, fun reg made word hyields => ?_,
    fun reg value made hyields => ?_⟩
  · exact commandEach_yields_iff hlink haltRequests made
  · exact commandEach_yields_iff hlink resumeRequests made
  · rw [wlLinkeReset_eq]
    exact commandEach_yields_iff hlink resetRequests made
  · cases chip with
    | none => cases (yields_done_iff.mp hyields).2
    | some part =>
        rcases (@wlLinkeSetInterface_establishes (fun _ _ => True) (fun _ _ => trivial)
          part).of_yields hyields with rfl | ⟨reply, rfl, hok⟩
        · exact fun _ hexchange => absurd hexchange List.not_mem_nil
        · intro exchange hexchange
          rw [List.mem_singleton.mp hexchange]
          exact ⟨reply, rfl, hok⟩
  · exact (@wlLinkeIdentifyChip_establishes (fun _ _ => True) fun _ _ => trivial).of_yields hyields
  · obtain ⟨exchange, hmade, hread⟩ :=
      (@wlLinkeDmiRead_establishes link (fun _ _ => True) reg trivial).of_yields hyields
    exact hacknowledged hmade hread
  · obtain ⟨exchange, hmade, word, hwrote⟩ :=
      (@wlLinkeDmiWrite_establishes link (fun _ _ => True) reg value trivial).of_yields hyields
    exact hacknowledged hmade hwrote

theorem linkeOperations_succeed_halt :
    (wlLinkeHalt wlLinkeAttachTransport).run.Yields haltRefused (.ok ()) ↔
      Answered haltRequests haltRefused :=
  (linkeOperations_succeed wlLinkeAttachTransport ⟨rfl, rfl⟩).1 haltRefused

end WchLink
