import WchLink.Interaction.Reach
import WchLink.Layers

/-! # The cached interface setting

The link remembers for which part the programmer was last set and does not ask
again for the same one. The programmer applies the last setting it took, and
the answer to a setting it took may be lost on the way.
-/

namespace WchLink

open Bytes Interaction

/-! ## What the programmer applies -/

/-- A target family and its debug clock. -/
abbrev Setting : Type := Byte × Byte

/-- The setting a part is accessed with. -/
def Chip.setting (chip : Chip) : Setting := (chip.linkeId, chip.interfaceSpeed)

/-- The setting a target is detected with. -/
def genericSetting : Setting := (0x01, 0x02)

/-- What becomes of a set-interface request. -/
inductive Delivery
  | accepted
  | refused
  | undelivered
  /-- The setting was applied and the reply lost. -/
  | unanswered
  deriving DecidableEq, Repr

/-- Whether the programmer applies the setting. -/
def Delivery.applies (delivery : Delivery) : Bool :=
  delivery = .accepted ∨ delivery = .unanswered

/-- How the outcome shows at the transport. -/
def Delivery.Shows : Delivery → Except Int (List Byte) → Prop
  | accepted, .ok reply => replyOk reply = true
  | refused, .ok reply => replyOk reply = false
  | undelivered, .error _ => True
  | unanswered, .error _ => True
  | _, _ => False

/-- The setting in force, what became of the set-interface requests, and the
setting each register access was made with. -/
structure Programmer where
  applied : Option Setting
  deliveries : List Delivery
  accesses : List (Option Setting)

namespace Programmer

/-- One setting requested a number of times. -/
def deliver (programmer : Programmer) (setting : Setting) (deliveries : List Delivery) :
    Programmer :=
  { programmer with
    applied := if deliveries.any Delivery.applies then some setting else programmer.applied
    deliveries := programmer.deliveries ++ deliveries }

def access (programmer : Programmer) : Programmer :=
  { programmer with accesses := programmer.accesses ++ [programmer.applied] }

theorem deliver_deliver (programmer : Programmer) (setting : Setting)
    (first second : List Delivery) :
    (programmer.deliver setting first).deliver setting second =
      programmer.deliver setting (first ++ second) := by
  unfold deliver
  rw [List.any_append, List.append_assoc]
  cases first.any Delivery.applies <;> cases second.any Delivery.applies <;> rfl

end Programmer

/-- Set-interface requests have any outcome, and every other request any reply. -/
def applying : World Usb Programmer := fun programmer request reply next =>
  if request.getD 1 0 = wlCmdIface then
    ∃ delivery, Delivery.Shows delivery reply ∧
      next = programmer.deliver (request.getD 3 0, request.getD 4 0) [delivery]
  else if request.getD 1 0 = wlCmdReg then
    next = programmer.access
  else
    next = programmer

/-! ## The calls -/

/-- The calls that select a part or access it. -/
inductive ApiCall
  | identifyChip
  | setInterface (chip : Option Chip)
  | readMemory (chip : Option Chip) (address : Word) (length : Nat)
  | writeFlash (chip : Option Chip) (address : Word) (image : Option (List Byte))
      (length : BitVec 64) (verify : Bool)

namespace ApiCall

/-- The part a call is made for. -/
def chip : ApiCall → Option Chip
  | identifyChip => none
  | setInterface chip => chip
  | readMemory chip _ _ => chip
  | writeFlash chip _ _ _ _ => chip

def body : ApiCall → Linked Unit
  | identifyChip => do
      let _ ← wlLinkeIdentifyChip
  | setInterface chip => wlLinkeSetInterface chip
  | readMemory chip address length => do
      let _ ← wlLinkeReadMemory chip address length
  | writeFlash chip address image length verify =>
      wlLinkeWriteFlash chip address image length verify

end ApiCall

/-- One finished call: the link and the applied setting around it, what became
of its set-interface requests and the settings its accesses were made with. -/
structure ApiStep where
  call : ApiCall
  link : Link
  applied : Option Setting
  status : Except WlErr Unit
  link' : Link
  after : Programmer

/-- The call can end that way. -/
def ApiStep.Runs (step : ApiStep) : Prop :=
  ∃ made, Program.Run applying (step.call.body.run.run step.link) ⟨step.applied, [], []⟩ made
    (.done (step.status, step.link')) step.after

/-- Calls for parts of the table, one after the other on one link. -/
inductive ApiRun : Link → Option Setting → List ApiStep → Prop
  | nil (link : Link) (applied : Option Setting) : ApiRun link applied []
  | cons {step : ApiStep} {rest : List ApiStep} :
      step.Runs → (∀ chip, step.call.chip = some chip → chip ∈ chips) →
      ApiRun step.link' step.after.applied rest →
      ApiRun step.link step.applied (step :: rest)

/-- A link that says it is configured tells for which part. -/
def Link.Truthful (link : Link) (applied : Option Setting) : Prop :=
  link.configured = true → ∃ part ∈ chips, part.linkeId = link.chipId ∧ applied = some part.setting

/-- The cache is right after the call, and the part was accessed with its own
setting throughout. -/
structure ApiStep.Sound (step : ApiStep) : Prop where
  truthful : step.link'.Truthful step.after.applied
  inForce : ∀ chip, step.call.chip = some chip →
    ∀ setting ∈ step.after.accesses, setting = some chip.setting

/-- The link was configured, and some setting was applied without an answer
while none was accepted. -/
def ApiStep.Misled (step : ApiStep) : Prop :=
  step.link.configured = true ∧ .unanswered ∈ step.after.deliveries ∧
    .accepted ∉ step.after.deliveries

/-! ## One request for a setting -/

/-- How a request for one setting ends. -/
def Sends (setting : Setting) (before : Programmer) (status : Except WlErr Unit)
    (after : Programmer) : Prop :=
  (∃ error, status = .error error) ∧
      (∃ deliveries, Delivery.accepted ∉ deliveries ∧ after = before.deliver setting deliveries) ∨
    status = .ok () ∧ after = before.deliver setting [.accepted]

theorem Programmer.deliver_nil (programmer : Programmer) (setting : Setting) :
    programmer.deliver setting [] = programmer := by
  unfold deliver
  rw [List.append_nil]
  rfl

theorem Delivery.Shows.not_accepted {delivery : Delivery} {reply : Except Int (List Byte)}
    (hshows : delivery.Shows reply) (hreply : ∀ bytes, reply = .ok bytes → replyOk bytes = false) :
    .accepted ∉ [delivery] := by
  intro hmem
  rw [List.mem_singleton] at hmem
  subst hmem
  cases reply with
  | error code => exact hshows
  | ok bytes =>
      have hok : replyOk bytes = true := hshows
      rw [hreply bytes rfl] at hok
      cases hok

theorem Delivery.Shows.accepted_of_ok {delivery : Delivery} {reply : List Byte}
    (hshows : delivery.Shows (.ok reply)) (hok : replyOk reply = true) :
    delivery = .accepted := by
  cases delivery with
  | accepted => rfl
  | refused =>
      have hrefused : replyOk reply = false := hshows
      rw [hok] at hrefused
      cases hrefused
  | undelivered => exact absurd hshows not_false
  | unanswered => exact absurd hshows not_false

theorem setInterfaceRaw_sends (link : Link) (familyId interfaceSpeed : Byte)
    (before : Programmer) :
    (setInterfaceRaw link familyId interfaceSpeed).run.wp applying (fun _ _ => True)
      (fun result after => ∃ status, result = some status ∧
        Sends (familyId, interfaceSpeed) before status after) before := by
  unfold setInterfaceRaw wlLinkeCommand
  by_cases hclosed : (!link.isOpen || !link.transport) = true
  · rw [if_pos hclosed]
    exact ⟨_, rfl, .inl ⟨⟨_, rfl⟩, [], List.not_mem_nil, (before.deliver_nil _).symm⟩⟩
  · rw [if_neg hclosed]
    refine ⟨trivial, fun reply after hreply => ?_⟩
    obtain ⟨delivery, hshows, rfl⟩ : ∃ delivery, Delivery.Shows delivery reply ∧
        after = before.deliver (familyId, interfaceSpeed) [delivery] := hreply
    cases reply with
    | error code => exact ⟨_, rfl, .inl ⟨⟨_, rfl⟩, _, hshows.not_accepted nofun, rfl⟩⟩
    | ok reply =>
        show (if (!replyOk reply) = true then throw .target else pure () :
          Fallible Unit).run.wp _ _ _ _
        cases hok : replyOk reply with
        | false =>
            refine ⟨_, rfl, .inl ⟨⟨_, rfl⟩, _, hshows.not_accepted fun bytes hbytes => ?_, rfl⟩⟩
            cases hbytes
            exact hok
        | true =>
            cases hshows.accepted_of_ok hok
            exact ⟨_, rfl, .inr ⟨rfl, rfl⟩⟩

/-! ## Requests that leave the setting alone -/

/-- No setting was requested, and what was accessed was accessed with the
setting in force. -/
structure Programmer.Within (before after : Programmer) : Prop where
  applied : after.applied = before.applied
  deliveries : after.deliveries = before.deliveries
  accesses : ∀ setting ∈ after.accesses, setting ∈ before.accesses ∨ setting = before.applied

namespace Programmer.Within

theorem refl (programmer : Programmer) : programmer.Within programmer :=
  ⟨rfl, rfl, fun _ hmem => .inl hmem⟩

theorem trans {first second third : Programmer} (h : first.Within second)
    (h' : second.Within third) : first.Within third := by
  refine ⟨h'.applied.trans h.applied, h'.deliveries.trans h.deliveries, fun setting hmem => ?_⟩
  rcases h'.accesses setting hmem with hmem | rfl
  · exact h.accesses setting hmem
  · exact .inr h.applied

theorem access (programmer : Programmer) : programmer.Within programmer.access := by
  refine ⟨rfl, rfl, fun setting hmem => ?_⟩
  rcases List.mem_append.mp hmem with hmem | hmem
  · exact .inl hmem
  · exact .inr (List.mem_singleton.mp hmem)

end Programmer.Within

/-- The programs that request no setting. -/
def accessing : ProgramClass Usb :=
  Program.keeping applying (fun _ _ => True) Programmer.Within Programmer.Within.refl
    Programmer.Within.trans

theorem accessing_request {request : List Byte} (hrequest : request.getD 1 0 ≠ wlCmdIface) :
    accessing.Mem (transportCommand request) := by
  refine @Program.keeps_perform Usb _ applying _ _ request (fun _ => trivial) ?_
  intro programmer reply next hreply
  unfold applying at hreply
  rw [if_neg hrequest] at hreply
  split at hreply
  · rw [hreply]
    exact .access programmer
  · rw [hreply]
    exact .refl programmer

theorem accessing_controls : HasControls accessing where
  attach := accessing_request (by decide)
  run := accessing_request (by decide)
  release := accessing_request (by decide)

theorem accessing_hasAccesses (link : Link) : HasAccesses accessing link :=
  hasAccesses_of_requests accessing
    (fun _ _ _ => accessing_request (by exact (by decide : wlCmdReg ≠ wlCmdIface))) link

/-- A member run from a link it leaves alone. -/
theorem accessing_still {α : Type} {program : Linked α} {link : Link}
    (h : accessing.StillMem link program.run) (before : Programmer) :
    (program.run.run link).wp applying (fun _ _ => True) (fun result after =>
      before.Within after ∧ ∀ status link', result = some (status, link') → link' = link)
      before := by
  refine Program.wp_mono (Program.wp_always (h.mem before) h.always) fun result after hafter => ?_
  exact ⟨hafter.1, fun status link' hresult => hafter.2 (status, link') hresult⟩

/-! ## What a call does to the cache -/

/-- The setting was requested so many times since. -/
structure Tried (setting : Setting) (deliveries : List Delivery)
    (before after : Programmer) : Prop where
  applied : after.applied = (before.deliver setting deliveries).applied
  deliveries : after.deliveries = (before.deliver setting deliveries).deliveries

theorem Tried.append {setting : Setting} {first second : List Delivery}
    {before middle after : Programmer} (h : Tried setting first before middle)
    (h' : Tried setting second middle after) : Tried setting (first ++ second) before after := by
  have happlied : (middle.deliver setting second).applied =
      ((before.deliver setting first).deliver setting second).applied := by
    show (if second.any Delivery.applies then some setting else middle.applied) = _
    rw [h.applied]
    rfl
  have hdeliveries : (middle.deliver setting second).deliveries =
      ((before.deliver setting first).deliver setting second).deliveries := by
    show middle.deliveries ++ second = _
    rw [h.deliveries]
    rfl
  rw [Programmer.deliver_deliver] at happlied hdeliveries
  exact ⟨h'.applied.trans happlied, h'.deliveries.trans hdeliveries⟩

theorem Tried.of_within {setting : Setting} {before after : Programmer}
    (h : before.Within after) : Tried setting [] before after := by
  refine ⟨?_, ?_⟩
  · rw [Programmer.deliver_nil]
    exact h.applied
  · rw [Programmer.deliver_nil]
    exact h.deliveries

/-- Either nothing was accepted and the link is as it was, or the link was
brought up to date with what was. -/
inductive CacheMove (link : Link) (before : Programmer) : Link → Programmer → Prop
  | tried {after : Programmer} (setting : Setting) (deliveries : List Delivery) :
      .accepted ∉ deliveries → Tried setting deliveries before after →
      (link.configured = true → ∀ part ∈ chips, part.linkeId = link.chipId →
        part.setting ≠ setting) →
      CacheMove link before link after
  | renewed {link' : Link} {after : Programmer} :
      .accepted ∈ after.deliveries → link'.Truthful after.applied →
      CacheMove link before link' after

/-- No part is accessed with the setting targets are detected with. -/
theorem setting_ne_generic : ∀ part ∈ chips, part.setting ≠ genericSetting := by decide

/-- Parts of one family id have one debug clock. -/
theorem setting_eq_of_linkeId : ∀ part ∈ chips, ∀ other ∈ chips, part.linkeId = other.linkeId →
    part.setting = other.setting := by decide

theorem CacheMove.of_within {link : Link} {before after : Programmer} (h : before.Within after) :
    CacheMove link before link after :=
  .tried genericSetting [] List.not_mem_nil (.of_within h) fun _ part hpart _ =>
    setting_ne_generic part hpart

/-- A move followed by accesses. -/
theorem CacheMove.within {link link' : Link} {before middle after : Programmer}
    (h : CacheMove link before link' middle) (h' : middle.Within after) :
    CacheMove link before link' after := by
  cases h with
  | tried setting deliveries hnone htried hother =>
      refine .tried setting (deliveries ++ []) ?_ (htried.append (.of_within h')) hother
      rwa [List.append_nil]
  | renewed haccepted htruthful =>
      refine .renewed (h'.deliveries ▸ haccepted) ?_
      rwa [h'.applied]

/-- A call starts with no outcomes; it leaves the cache right exactly when it
was not misled. -/
theorem CacheMove.truthful_iff {link link' : Link} {before after : Programmer}
    (h : CacheMove link before link' after) (hbefore : before.deliveries = [])
    (htruthful : link.Truthful before.applied) :
    link'.Truthful after.applied ↔ ¬(link.configured = true ∧ .unanswered ∈ after.deliveries ∧
      .accepted ∉ after.deliveries) := by
  cases h with
  | renewed haccepted hrenewed =>
      exact ⟨fun _ hmisled => hmisled.2.2 haccepted, fun _ => hrenewed⟩
  | tried setting deliveries hnone htried hother =>
      have hdeliveries : after.deliveries = deliveries := by
        rw [htried.deliveries]
        show before.deliveries ++ deliveries = deliveries
        rw [hbefore, List.nil_append]
      have hany : deliveries.any Delivery.applies = true ↔ .unanswered ∈ deliveries := by
        rw [List.any_eq_true]
        constructor
        · rintro ⟨delivery, hmem, happlies⟩
          rcases of_decide_eq_true happlies with rfl | rfl
          · exact absurd hmem hnone
          · exact hmem
        · exact fun hmem => ⟨_, hmem, rfl⟩
      have happlied : after.applied =
          if deliveries.any Delivery.applies then some setting else before.applied :=
        htried.applied
      rw [hdeliveries]
      by_cases hunanswered : .unanswered ∈ deliveries
      · rw [if_pos (hany.mpr hunanswered)] at happlied
        constructor
        · rintro hafter ⟨hconfigured, -, -⟩
          obtain ⟨part, hpart, hid, hsetting⟩ := hafter hconfigured
          rw [happlied] at hsetting
          exact hother hconfigured part hpart hid (Option.some.inj hsetting).symm
        · intro hsound hconfigured
          exact absurd ⟨hconfigured, hunanswered, hnone⟩ hsound
      · rw [if_neg (mt hany.mp hunanswered)] at happlied
        rw [happlied]
        exact ⟨fun _ hmisled => hunanswered hmisled.2.1, fun _ => htruthful⟩

/-! ## The calls one by one -/

/-- What holds when a call returns. -/
def Concludes {α : Type} (post : Except WlErr α → Link → Programmer → Prop)
    (result : Option (Except WlErr α × Link)) (after : Programmer) : Prop :=
  ∀ status link', result = some (status, link') → post status link' after

theorem Concludes.some {α : Type} {post : Except WlErr α → Link → Programmer → Prop}
    {status : Except WlErr α} {link' : Link} {after : Programmer} (h : post status link' after) :
    Concludes post (.some (status, link')) after := by
  intro status' link'' hresult
  cases hresult
  exact h

theorem Concludes.none {α : Type} {post : Except WlErr α → Link → Programmer → Prop}
    {after : Programmer} : Concludes post .none after := nofun

section Calls

variable {link : Link} {before : Programmer}

/-- Selecting a part: after success the link and the programmer both have it. -/
theorem wlLinkeSetInterface_moves {chip : Chip} (hchip : chip ∈ chips)
    (htruthful : link.Truthful before.applied) :
    ((wlLinkeSetInterface (some chip)).run.run link).wp applying (fun _ _ => True)
      (Concludes fun status link' after => CacheMove link before link' after ∧
        after.accesses = before.accesses ∧
        (status = .ok () → link'.HasSet chip ∧ after.applied = some chip.setting)) before := by
  by_cases hset : link.HasSet chip
  · rw [wlLinkeSetInterface_cached hset]
    obtain ⟨part, hpart, hid, happlied⟩ := htruthful hset.1
    refine Concludes.some ⟨.of_within (.refl before), rfl, fun _ => ⟨hset, ?_⟩⟩
    rw [happlied, setting_eq_of_linkeId part hpart chip hchip (hid.trans hset.2)]
  · have hmiss : ¬(link.configured && link.chipId == chip.linkeId) = true := by
      intro hhit
      rw [Bool.and_eq_true, beq_iff_eq] at hhit
      exact hset hhit
    show (((if (link.configured && link.chipId == chip.linkeId) = true then _ else _ :
      Linked Unit)).run.run link).wp _ _ _ _
    rw [if_neg hmiss]
    refine Program.wp_own_lift (setInterfaceRaw_sends link chip.linkeId chip.interfaceSpeed before)
      (fun value after hafter => ?_) (fun error after hafter => ?_) fun after _ => Concludes.none
    · obtain ⟨status, hstatus, hsends⟩ := hafter
      cases hstatus
      rcases hsends with ⟨⟨error, herror⟩, -⟩ | ⟨-, rfl⟩
      · cases herror
      · refine Concludes.some ⟨.renewed ?_ fun _ => ⟨chip, hchip, rfl, rfl⟩, rfl,
          fun _ => ⟨⟨rfl, rfl⟩, rfl⟩⟩
        exact List.mem_append_right _ List.mem_cons_self
    · obtain ⟨status, hstatus, hsends⟩ := hafter
      cases hstatus
      rcases hsends with ⟨-, deliveries, hnone, rfl⟩ | ⟨hok, -⟩
      · refine Concludes.some ⟨.tried chip.setting deliveries hnone ⟨rfl, rfl⟩ ?_, rfl, nofun⟩
        intro hconfigured part _ hid hsetting
        exact hset ⟨hconfigured, hid.symm.trans (congrArg Prod.fst hsetting)⟩
      · cases hok

/-- A detection, once the target can be sampled. -/
def detectPart : Linked Chip := do
  let reply ← sendControl (← get) wlCmdControl wlCtlAttach
  if reply.length < 6 ∨ reply.getD 0 0 ≠ wlReplyHeader ∨ reply.getD 1 0 ≠ wlCmdControl then
    throw .target
  match wlChipByDetectId (reply.getD 3 0) (reply.getD 4 0 ++ reply.getD 5 0) with
  | none => throw .target
  | some found => return found

theorem detectPart_still (link : Link) : accessing.StillMem link detectPart.run := by
  refine accessing.readStill (accessing.andThenStill
    (accessing.stillLift (sendControl_mem accessing accessing_controls.attach)) fun reply => ?_)
  dsimp only
  split
  · exact accessing.stillDone _
  · split
    · exact accessing.stillDone _
    · exact accessing.stillDone _

/-- How one detection ends: the generic setting was not accepted and the link is
as it was, or it was accepted and the link is configured no more. -/
inductive Detects {α : Type} (link : Link) (before : Programmer) :
    Except WlErr α → Link → Programmer → Prop
  | missed {error : WlErr} {after : Programmer} (deliveries : List Delivery) :
      .accepted ∉ deliveries → Tried genericSetting deliveries before after →
      Detects link before (.error error) link after
  | sampled {status : Except WlErr α} {link' : Link} {after : Programmer} :
      link'.configured = false → .accepted ∈ after.deliveries →
      Detects link before status link' after

theorem identifyChipOnce_detects (link : Link) (before : Programmer) :
    (identifyChipOnce.run.run link).wp applying (fun _ _ => True) (Concludes (Detects link before))
      before := by
  refine Program.wp_own_lift (setInterfaceRaw_sends link 0x01 0x02 before)
    (fun value middle hmiddle => ?_) (fun error after hafter => ?_) fun after _ => Concludes.none
  · obtain ⟨status, hstatus, hsends⟩ := hmiddle
    cases hstatus
    rcases hsends with ⟨⟨error, herror⟩, -⟩ | ⟨-, rfl⟩
    · cases herror
    · have hdetect := accessing_still (detectPart_still { link with configured := false })
        (before.deliver genericSetting [.accepted])
      refine Program.wp_mono hdetect fun result after hafter status link' hresult => ?_
      rw [hafter.2 status link' hresult]
      refine .sampled rfl ?_
      rw [hafter.1.deliveries]
      exact List.mem_append_right _ List.mem_cons_self
  · obtain ⟨status, hstatus, hsends⟩ := hafter
    cases hstatus
    rcases hsends with ⟨-, deliveries, hnone, rfl⟩ | ⟨hok, -⟩
    · exact Concludes.some (.missed deliveries hnone ⟨rfl, rfl⟩)
    · cases hok

/-- Requests that leave link and setting alone, then the rest. -/
theorem accessing_then {α β : Type} {program : Linked α} {rest : α → Linked β}
    {post : Except WlErr β → Link → Programmer → Prop}
    (h : accessing.StillMem link program.run)
    (hok : ∀ value middle, before.Within middle →
      ((rest value).run.run link).wp applying (fun _ _ => True) (Concludes post) middle)
    (herror : ∀ error after, before.Within after → post (.error error) link after) :
    ((program >>= rest).run.run link).wp applying (fun _ _ => True) (Concludes post) before := by
  rw [ExceptT.run_bind, StateT.run_bind, Program.wp_bind]
  refine Program.wp_mono (accessing_still h before) fun result middle hmiddle => ?_
  cases result with
  | none => exact Concludes.none
  | some result =>
      obtain ⟨status, link'⟩ := result
      cases hmiddle.2 status link' rfl
      cases status with
      | ok value => exact hok value middle hmiddle.1
      | error error => exact Concludes.some (herror error middle hmiddle.1)

/-- A request on the link as it is, then the rest. -/
theorem accessing_lift {α β : Type} {operation : Link → Fallible α} {rest : α → Linked β}
    {post : Except WlErr β → Link → Programmer → Prop} (h : accessing.Mem (operation link).run)
    (hok : ∀ value middle, before.Within middle →
      ((rest value).run.run link).wp applying (fun _ _ => True) (Concludes post) middle)
    (herror : ∀ error after, before.Within after → post (.error error) link after) :
    ((do
      let value ← operation (← get)
      rest value : Linked β).run.run link).wp applying (fun _ _ => True) (Concludes post) before :=
  @accessing_then link before α β (ExceptT.mk (StateT.lift (operation link).run)) rest post
    (accessing.stillLift h) hok herror

theorem Detects.within {α : Type} {status : Except WlErr α} {link' : Link}
    {middle after : Programmer} (h : Detects link before status link' middle)
    (h' : middle.Within after) : Detects link before status link' after := by
  cases h with
  | missed deliveries hnone htried =>
      refine .missed (deliveries ++ []) ?_ (htried.append (.of_within h'))
      rwa [List.append_nil]
  | sampled hconfigured haccepted => exact .sampled hconfigured (h'.deliveries ▸ haccepted)

/-- What is not configured says nothing wrong. -/
theorem Link.truthful_of_unconfigured {applied : Option Setting}
    (h : link.configured = false) : link.Truthful applied := by
  intro hconfigured
  rw [h] at hconfigured
  cases hconfigured

theorem Detects.move {α : Type} {status : Except WlErr α} {link' : Link} {after : Programmer}
    (h : Detects link before status link' after) : CacheMove link before link' after := by
  cases h with
  | missed deliveries hnone htried =>
      exact .tried genericSetting deliveries hnone htried
        fun _ part hpart _ => setting_ne_generic part hpart
  | sampled hconfigured haccepted =>
      exact .renewed haccepted (Link.truthful_of_unconfigured hconfigured)

/-- Detections add up. -/
theorem Detects.again {α β : Type} {status : Except WlErr α} {status' : Except WlErr β}
    {link' link'' : Link} {middle after : Programmer}
    (h : Detects link before status link' middle)
    (h' : Detects link' middle status' link'' after) :
    Detects link before status' link'' after := by
  cases h' with
  | sampled hconfigured haccepted => exact .sampled hconfigured haccepted
  | missed more hmore htried' =>
      cases h with
      | missed deliveries hnone htried =>
          refine .missed (deliveries ++ more) ?_ (htried.append htried')
          rw [List.mem_append, not_or]
          exact ⟨hnone, hmore⟩
      | sampled hconfigured haccepted =>
          refine .sampled hconfigured ?_
          rw [htried'.deliveries]
          exact List.mem_append_left _ haccepted

theorem wlLinkeIdentifyChip_moves (link : Link) (before : Programmer) :
    (wlLinkeIdentifyChip.run.run link).wp applying (fun _ _ => True)
      (Concludes fun _ link' after => CacheMove link before link' after) before := by
  unfold wlLinkeIdentifyChip
  simp only [tryCatch, tryCatchThe, MonadExceptOf.tryCatch, ExceptT.tryCatch]
  refine Program.wp_own_bind (identifyChipOnce_detects link before)
    (fun status link' middle hmiddle => ?_) fun after _ => Concludes.none
  have hfirst := hmiddle status link' rfl
  cases status with
  | ok chip => exact Concludes.some hfirst.move
  | error error =>
      -- the target is let run, whatever the programmer says to it
      refine accessing_lift (ignore_mem accessing (sendControl_mem accessing
        accessing_controls.run)) (fun _ running hrunning => ?_)
        fun _ after hafter => (hfirst.within hafter).move
      refine accessing_lift (ignore_mem accessing (sendControl_mem accessing
        accessing_controls.release)) (fun _ released hreleased => ?_)
        fun _ after hafter => (hfirst.within (hrunning.trans hafter)).move
      refine Program.wp_mono (identifyChipOnce_detects link' released)
        fun result after hafter status link'' hresult => ?_
      exact ((hfirst.within (hrunning.trans hreleased)).again (hafter status link'' hresult)).move

/-- What a call for a part does: the cache moves, and every access is made with
the part's own setting. -/
def SetsUp (link : Link) (applied : Option Setting) (chip : Option Chip) (link' : Link)
    (after : Programmer) : Prop :=
  CacheMove link ⟨applied, [], []⟩ link' after ∧
    ∀ part, chip = some part → ∀ setting ∈ after.accesses, setting = some part.setting

variable {applied : Option Setting}

/-- A part is selected, and then accessed without another request for a setting. -/
theorem selecting_serves {α : Type} {chip : Chip} (hchip : chip ∈ chips)
    (htruthful : link.Truthful applied) {rest : Linked α}
    (hrest : ∀ own : Link, own.HasSet chip → accessing.StillMem own rest.run) :
    ((do
      wlLinkeSetInterface (some chip)
      rest : Linked α).run.run link).wp applying (fun _ _ => True)
      (Concludes fun _ link' after => SetsUp link applied (some chip) link' after)
      ⟨applied, [], []⟩ := by
  rw [ExceptT.run_bind]
  refine Program.wp_own_bind (wlLinkeSetInterface_moves hchip htruthful)
    (fun status link' middle hmiddle => ?_) fun after _ => Concludes.none
  obtain ⟨hmove, haccesses, hset⟩ := hmiddle status link' rfl
  cases status with
  | error error =>
      refine Concludes.some ⟨hmove, fun part _ setting hmem => ?_⟩
      rw [haccesses] at hmem
      exact absurd hmem List.not_mem_nil
  | ok value =>
      obtain ⟨hset, happlied⟩ := hset rfl
      refine Program.wp_mono (accessing_still (hrest link' hset) middle)
        fun result after hafter status link'' hresult => ?_
      obtain ⟨hwithin, hlink⟩ := hafter
      rw [hlink status link'' hresult]
      refine ⟨hmove.within hwithin, fun part hpart setting hmem => ?_⟩
      cases hpart
      rcases hwithin.accesses setting hmem with hmem | rfl
      · rw [haccesses] at hmem
        exact absurd hmem List.not_mem_nil
      · exact happlied

/-- A program for no part that leaves the link alone. -/
theorem still_serves {α : Type} {program : Linked α} (h : accessing.StillMem link program.run) :
    (program.run.run link).wp applying (fun _ _ => True)
      (Concludes fun _ link' after => SetsUp link applied none link' after) ⟨applied, [], []⟩ := by
  refine Program.wp_mono (accessing_still h _) fun result after hafter status link' hresult => ?_
  rw [hafter.2 status link' hresult]
  exact ⟨.of_within hafter.1, nofun⟩

/-- The value a call returns may be dropped. -/
theorem ends_discard {α : Type} {program : Linked α} {post : Link → Programmer → Prop}
    (h : (program.run.run link).wp applying (fun _ _ => True) (Concludes fun _ => post) before) :
    ((do
      let _ ← program : Linked Unit).run.run link).wp applying (fun _ _ => True)
      (Concludes fun _ => post) before := by
  rw [ExceptT.run_bind]
  refine Program.wp_own_bind h (fun status link' after hafter => ?_) fun after _ => Concludes.none
  cases status with
  | ok value => exact Concludes.some (hafter _ _ rfl)
  | error error => exact Concludes.some (hafter _ _ rfl)

theorem ApiCall.serves (call : ApiCall) (htable : ∀ chip, call.chip = some chip → chip ∈ chips)
    (htruthful : link.Truthful applied) :
    (call.body.run.run link).wp applying (fun _ _ => True)
      (Concludes fun _ link' after => SetsUp link applied call.chip link' after)
      ⟨applied, [], []⟩ := by
  cases call with
  | identifyChip =>
      refine ends_discard (Program.wp_mono (wlLinkeIdentifyChip_moves link _) ?_)
      intro result after hafter status link' hresult
      exact ⟨hafter status link' hresult, nofun⟩
  | setInterface chip =>
      cases chip with
      | none => exact Concludes.some ⟨.of_within (.refl _), nofun⟩
      | some chip =>
          refine Program.wp_mono (wlLinkeSetInterface_moves (htable chip rfl) htruthful)
            fun result after hafter status link' hresult => ?_
          obtain ⟨hmove, haccesses, -⟩ := hafter status link' hresult
          refine ⟨hmove, fun part _ setting hmem => ?_⟩
          rw [haccesses] at hmem
          exact absurd hmem List.not_mem_nil
  | readMemory chip address length =>
      cases chip with
      | none =>
          exact ends_discard (still_serves (accessing.readStill (accessing.stillLift
            (filled_mem (accessing_hasAccesses link).toHasLoads address length))))
      | some chip =>
          exact ends_discard (selecting_serves (htable chip rfl) htruthful fun own _ =>
            readSelected_still (accessing_hasAccesses own) accessing_controls address length)
  | writeFlash chip address image length verify =>
      cases chip with
      | none => exact Concludes.some ⟨.of_within (.refl _), nofun⟩
      | some chip =>
          exact selecting_serves (htable chip rfl) htruthful fun own hset =>
            writeSelected_still (accessing_hasAccesses own) accessing_controls hset
              Program.keeping_cuts address image length verify

end Calls

/-! ## Whole runs -/

/-- A call from a right cache leaves it right, and accesses its part with the
part's setting, exactly when it is not misled. -/
theorem ApiStep.sound_iff {step : ApiStep} (hruns : step.Runs)
    (htable : ∀ chip, step.call.chip = some chip → chip ∈ chips)
    (htruthful : step.link.Truthful step.applied) : step.Sound ↔ ¬step.Misled := by
  obtain ⟨made, hrun⟩ := hruns
  obtain ⟨hmove, haccesses⟩ := Program.wp_of_run (step.call.serves htable htruthful) hrun _ _ rfl
  have hiff := hmove.truthful_iff rfl htruthful
  exact ⟨fun hsound => hiff.mp hsound.truthful, fun hmisled => ⟨hiff.mpr hmisled, haccesses⟩⟩

theorem ApiRun.sound_iff {link : Link} {applied : Option Setting} {steps : List ApiStep}
    (hrun : ApiRun link applied steps) (htruthful : link.Truthful applied) :
    (∀ step ∈ steps, step.Sound) ↔ ∀ step ∈ steps, ¬step.Misled := by
  induction hrun with
  | nil link applied => exact ⟨fun _ _ hmem => absurd hmem List.not_mem_nil,
      fun _ _ hmem => absurd hmem List.not_mem_nil⟩
  | cons hruns htable hrest ih =>
      have hstep := ApiStep.sound_iff hruns htable htruthful
      simp only [List.forall_mem_cons]
      constructor
      · rintro ⟨hsound, hsounds⟩
        exact ⟨hstep.mp hsound, (ih hsound.truthful).mp hsounds⟩
      · rintro ⟨hmisled, hmisleds⟩
        have hsound := hstep.mpr hmisled
        exact ⟨hsound, (ih hsound.truthful).mpr hmisleds⟩

/-- On a fresh link, whatever the programmer was set to before: the cache is
right after every call, and every access is made with its part's setting,
exactly when no call on a configured link has a setting applied without an
answer and none accepted. -/
theorem apiRun_sound_iff (applied : Option Setting) (steps : List ApiStep)
    (hrun : ApiRun wlLinkeAttachTransport applied steps) :
    (∀ step ∈ steps, step.Sound) ↔ ∀ step ∈ steps, ¬step.Misled :=
  hrun.sound_iff (Link.truthful_of_unconfigured rfl)

/-- The link and the programmer after a part was selected. -/
def selecting (chip : Chip) (link : Link) (applied : Option Setting) : ApiStep where
  call := .setInterface (some chip)
  link := link
  applied := applied
  status := .ok ()
  link' := { link with chipId := chip.linkeId, configured := true }
  after := ⟨some chip.setting, [.accepted], []⟩

/-- The part's setting was applied, and the programmer's word for it was lost. -/
def losingAnswer (chip : Chip) (link : Link) (applied : Option Setting) : ApiStep where
  call := .setInterface (some chip)
  link := link
  applied := applied
  status := .error .usb
  link' := link
  after := ⟨some chip.setting, [.unanswered], []⟩

theorem selecting_runs (chip : Chip) (applied : Option Setting) :
    (selecting chip wlLinkeAttachTransport applied).Runs :=
  ⟨[⟨interfaceRequest chip.linkeId chip.interfaceSpeed, .ok [0x82, wlCmdIface, 0x01, 0x01]⟩],
    .step ⟨.accepted, rfl, rfl⟩ (.refl _ _)⟩

/-- One part is selected on a fresh link. -/
theorem apiRun_sound_selected :
    (∀ step ∈ [selecting ch32v003 wlLinkeAttachTransport none], step.Sound) ↔
      ∀ step ∈ [selecting ch32v003 wlLinkeAttachTransport none], ¬step.Misled :=
  apiRun_sound_iff none _ (.cons (selecting_runs ch32v003 none)
    (fun chip hchip => by
      cases hchip
      exact List.Mem.head _)
    (.nil _ _))

/-- The answer to a second part's selection is lost, and the link still speaks
of the first. -/
theorem apiRun_not_sound : ¬ ∀ (applied : Option Setting) (steps : List ApiStep),
    ApiRun wlLinkeAttachTransport applied steps → ∀ step ∈ steps, step.Sound := by
  intro hclaim
  let first := selecting ch32v003 wlLinkeAttachTransport none
  let other := chip "ch32v002" "ch32v0" 16 4 ramStd 0x4e 0x0020 0x01 fbV 64 2 .ch32v0
  let second := losingAnswer other first.link' (some ch32v003.setting)
  have hsecond : second.Runs :=
    ⟨[⟨interfaceRequest other.linkeId other.interfaceSpeed, .error (-7)⟩],
      .step ⟨.unanswered, trivial, rfl⟩ (.refl _ _)⟩
  have hrun : ApiRun wlLinkeAttachTransport none [first, second] := by
    refine .cons (selecting_runs ch32v003 none) (fun chip hchip => ?_)
      (.cons hsecond (fun chip hchip => ?_) (.nil _ _))
    · cases hchip
      exact List.Mem.head _
    · cases hchip
      exact .tail _ (List.Mem.head _)
  have hsound := hclaim none _ hrun second (List.mem_cons_of_mem _ List.mem_cons_self)
  obtain ⟨part, -, hid, happlied⟩ := hsound.truthful rfl
  -- the link's part has one id, the programmer's setting another
  have hother : other.setting = part.setting := Option.some.inj happlied
  have hids : ch32v003.linkeId = other.linkeId := hid.symm.trans (congrArg Prod.fst hother).symm
  exact absurd hids (by decide)

end WchLink
