import WchLink.Interaction.Reach
import WchLink.Interaction.Trace
import WchLink.Linke

/-! # Finding and opening a programmer

A bus may have several programmers on it, some of which cannot be opened or
present themselves in another mode. Opening picks one by a serial filter, and
reboots one that is in the wrong mode if there is no other.
-/

namespace WchLink

open Bytes Interaction

/-- How a programmer presents itself. -/
inductive UsbMode
  | rv
  | arm
  | iap
  | unknown
  deriving DecidableEq, Repr

/-- One programmer as found on the bus; texts are without their NUL. -/
structure UsbInfo where
  mode : UsbMode
  vid : BitVec 16
  pid : BitVec 16
  bus : Byte
  address : Byte
  accessible : Bool
  serial : List Byte
  product : List Byte
  deriving DecidableEq, Repr

/-- What `memset` leaves. -/
def UsbInfo.zero : UsbInfo where
  mode := .rv
  vid := 0
  pid := 0
  bus := 0
  address := 0
  accessible := false
  serial := []
  product := []

/-- The bootloader commands that make a programmer come back in another mode. -/
inductive BootCommand
  | switchArmToRv
  | ejectIap
  deriving DecidableEq, Repr

/-- The mode a bootloader command is for. -/
def BootCommand.mode : BootCommand → UsbMode
  | switchArmToRv => .arm
  | ejectIap => .iap

/-- One thing asked of the USB layer. -/
inductive BusOp
  | scan
  | boot (command : BootCommand) (info : UsbInfo)
  | open (info : UsbInfo)
  | sleep (ms : Nat)

/-- The replies; a failure is a libusb error code and an opened device a handle. -/
abbrev BusOp.Reply : BusOp → Type
  | scan => Except Int (List UsbInfo)
  | boot _ _ => Except Int Unit
  | «open» _ => Except Int Nat
  | sleep _ => Unit

abbrev Bus : PFunctor.{0, 0} := ⟨BusOp, BusOp.Reply⟩

def onBus (operation : BusOp) : Program Bus operation.Reply := @Program.perform Bus operation

/-- `LIBUSB_ERROR_ACCESS` -/
def libusbErrorAccess : Int := -3

/-- How a libusb error is reported. -/
def usbStatus (code : Int) : WlErr := if code = libusbErrorAccess then .access else .usb

namespace UsbLink

/-- Does a discovered programmer satisfy the serial filter? -/
def serialMatches (info : UsbInfo) (serialFilter : Option (List Byte)) : Bool :=
  match serialFilter with
  | none => true
  | some serial => serial = [] ∨ info.serial = serial

def wlModeSwitchWaitMs : Nat := 5000
def wlModeSwitchPollMs : Nat := 100

/-- Rescan the bus until a programmer in `mode` appears. -/
def waitForMode (mode : UsbMode) (serialFilter : Option (List Byte)) :
    Nat → ExceptT WlErr (Program Bus) UsbInfo
  | 0 => throw .noDevice
  | rounds + 1 => do
      let () ← ExceptT.lift (onBus (.sleep wlModeSwitchPollMs))
      match ← ExceptT.lift (onBus .scan) with
      | .error _ => throw .usb
      | .ok found =>
          match found.find? fun info =>
            info.accessible && info.mode == mode && serialMatches info serialFilter with
          | some info => return info
          | none => waitForMode mode serialFilter rounds

/-- A link with what belongs to the open programmer. -/
structure OpenLink where
  link : Link
  info : UsbInfo
  ctx : Option Nat
  deriving DecidableEq

/-- What `memset` leaves of it. -/
def OpenLink.zero : OpenLink where
  link := { transport := false, isOpen := false, chipId := 0, configured := false }
  info := .zero
  ctx := none

abbrev Opening : Type → Type := ExceptT WlErr (StateT OpenLink (Program Bus))

instance : MonadLift (ExceptT WlErr (Program Bus)) Opening :=
  ⟨fun operation => ExceptT.mk (StateT.lift operation.run)⟩

/-- What a scan is searched for: the first programmer of each mode, and how many
could be used as they are. -/
structure Candidates where
  usable : Nat
  info : UsbInfo
  arm : Option UsbInfo
  iap : Option UsbInfo

def Candidates.none : Candidates := ⟨0, .zero, .none, .none⟩

/-- Take one programmer of the scan into account. -/
def consider (serialFilter : Option (List Byte)) (candidates : Candidates) (info : UsbInfo) :
    Candidates :=
  if !info.accessible then
    candidates
  else if !serialMatches info serialFilter then
    candidates
  else
    match info.mode with
    | .rv =>
        { candidates with
          info := if candidates.usable = 0 then info else candidates.info
          usable := candidates.usable + 1 }
    | .arm => { candidates with arm := candidates.arm.or (some info) }
    | .iap => { candidates with iap := candidates.iap.or (some info) }
    | .unknown => candidates

/-- Reboot a candidate into RISC-V mode unless there is a usable programmer;
returns how many there are then. -/
def recover (usable : Nat) (command : BootCommand) (serialFilter : Option (List Byte))
    (candidate : Option UsbInfo) : Opening Nat := do
  match candidate with
  | none => return usable
  | some info =>
      if usable ≠ 0 then
        return usable
      match ← (ExceptT.lift (onBus (.boot command info)) : ExceptT WlErr (Program Bus) _) with
      | .error code => throw (usbStatus code)
      | .ok () =>
          let found ← waitForMode .rv serialFilter (wlModeSwitchWaitMs / wlModeSwitchPollMs)
          modify fun link => { link with info := found }
          return 1

/-- Open the programmer the link names, if there is a usable one. -/
def openUsable (usable : Nat) : Opening Unit := do
  if usable = 0 then
    throw .access
  let link ← get
  match ← (ExceptT.lift (onBus (.open link.info)) : ExceptT WlErr (Program Bus) _) with
  | .error code => throw (usbStatus code)
  | .ok handle =>
      modify fun link =>
        { link with
          link := { link.link with transport := true, isOpen := true }
          ctx := some handle }

/-- What is done with the candidates of the first scan. -/
def openFound (serialFilter : Option (List Byte)) (candidates : Candidates) : Opening Unit := do
  let usable ← recover candidates.usable .switchArmToRv serialFilter candidates.arm
  let usable ← recover usable .ejectIap serialFilter candidates.iap
  openUsable usable

/-- Fill the link with the first usable programmer and open it. -/
def wlLinkeOpen (serialFilter : Option (List Byte)) : Opening Unit := do
  set OpenLink.zero
  match ← (ExceptT.lift (onBus .scan) : ExceptT WlErr (Program Bus) _) with
  | .error _ => throw .usb
  | .ok found =>
      if found.length = 0 then
        throw .noDevice
      let candidates := found.foldl (consider serialFilter) .none
      modify fun link => { link with info := candidates.info }
      openFound serialFilter candidates

/-! ## What a programmer may be used for -/

/-- An accessible programmer in a mode that satisfies the filter. -/
def Candidate (serialFilter : Option (List Byte)) (mode : UsbMode) (info : UsbInfo) : Prop :=
  info.accessible = true ∧ info.mode = mode ∧ serialMatches info serialFilter = true

instance (serialFilter : Option (List Byte)) (mode : UsbMode) (info : UsbInfo) :
    Decidable (Candidate serialFilter mode info) := inferInstanceAs (Decidable (_ ∧ _ ∧ _))

/-- The first such programmer of a scan. -/
def first (serialFilter : Option (List Byte)) (mode : UsbMode) (found : List UsbInfo) :
    Option UsbInfo := found.find? fun info => Candidate serialFilter mode info

/-- The run began with a scan that found these. -/
def FirstScan (found : List UsbInfo) (made : List Bus.Idx) : Prop :=
  ∃ rest, made = ⟨.scan, .ok found⟩ :: rest

/-- A scan of the run reported the programmer. -/
def Reported (made : List Bus.Idx) (info : UsbInfo) : Prop :=
  ∃ found, ⟨.scan, .ok found⟩ ∈ made ∧ info ∈ found

/-- When a programmer may be rebooted: no other has been, it is the first
candidate of the first scan in its mode, and that scan had no candidate in
RISC-V mode, nor for an eject one in ARM mode. -/
def MayBoot (serialFilter : Option (List Byte)) (made : List Bus.Idx) (command : BootCommand)
    (info : UsbInfo) : Prop :=
  (∀ command' info' reply, ⟨.boot command' info', reply⟩ ∉ made) ∧
    ∃ found, FirstScan found made ∧ first serialFilter command.mode found = some info ∧
      first serialFilter .rv found = none ∧
        (command = .ejectIap → first serialFilter .arm found = none)

/-- When a programmer may be opened: a scan has reported it as a candidate in
RISC-V mode, and it is the first of the first scan if that had one. -/
def MayOpen (serialFilter : Option (List Byte)) (made : List Bus.Idx) (info : UsbInfo) : Prop :=
  Candidate serialFilter .rv info ∧ Reported made info ∧
    ∀ found, FirstScan found made → ∀ other, first serialFilter .rv found = some other →
      info = other

/-- What may be asked of the bus after the exchanges so far. -/
def Permits (serialFilter : Option (List Byte)) (made : List Bus.Idx) : BusOp → Prop
  | .boot command info => MayBoot serialFilter made command info
  | .open info => MayOpen serialFilter made info
  | .scan => True
  | .sleep _ => True

/-- A device was opened in the run. -/
def OpenedDevice (made : List Bus.Idx) (info : UsbInfo) (handle : Nat) : Prop :=
  ⟨.open info, .ok handle⟩ ∈ made

/-- How opening ends: with the programmer the link names open and nothing else,
or with no device open and a closed link. -/
def Ends (made : List Bus.Idx) : Except WlErr Unit × OpenLink → Prop
  | (.ok (), link) => link.link = wlLinkeAttachTransport ∧ ∃ handle, link.ctx = some handle ∧
      ∀ info handle', OpenedDevice made info handle' ↔ info = link.info ∧ handle' = handle
  | (.error _, link) => link.link.isOpen = false ∧ ∀ info handle, ¬OpenedDevice made info handle

/-! ## The candidates of a scan -/

theorem consider_eq (serialFilter : Option (List Byte)) (candidates : Candidates) (info : UsbInfo) :
    consider serialFilter candidates info = {
      usable := candidates.usable + if Candidate serialFilter .rv info then 1 else 0
      info := if Candidate serialFilter .rv info ∧ candidates.usable = 0 then info
        else candidates.info
      arm := candidates.arm.or (if Candidate serialFilter .arm info then some info else .none)
      iap := candidates.iap.or (if Candidate serialFilter .iap info then some info else .none) } := by
  unfold consider
  by_cases haccessible : info.accessible = true
  · by_cases hserial : serialMatches info serialFilter = true
    · have hmode (mode : UsbMode) : Candidate serialFilter mode info ↔ info.mode = mode := by
        simp [Candidate, haccessible, hserial]
      simp only [haccessible, hserial, hmode]
      cases info.mode <;> simp
    · simp [Candidate, haccessible, hserial]
  · simp [Candidate, haccessible]

theorem first_cons (serialFilter : Option (List Byte)) (mode : UsbMode) (info : UsbInfo)
    (found : List UsbInfo) :
    first serialFilter mode (info :: found) =
      (if Candidate serialFilter mode info then some info else none).or
        (first serialFilter mode found) := by
  unfold first
  rw [List.find?_cons]
  by_cases h : Candidate serialFilter mode info
  · simp [h]
  · simp [h]

theorem foldl_consider (serialFilter : Option (List Byte)) (found : List UsbInfo)
    (candidates : Candidates) :
    let all := found.foldl (consider serialFilter) candidates
    all.arm = candidates.arm.or (first serialFilter .arm found) ∧
      all.iap = candidates.iap.or (first serialFilter .iap found) ∧
      (all.usable = 0 ↔ candidates.usable = 0 ∧ first serialFilter .rv found = none) ∧
      all.info = if candidates.usable = 0 then (first serialFilter .rv found).getD candidates.info
        else candidates.info := by
  induction found generalizing candidates with
  | nil => simp [first]
  | cons info found ih =>
      obtain ⟨harm, hiap, husable, hinfo⟩ := ih (consider serialFilter candidates info)
      simp only [List.foldl_cons]
      rw [harm, hiap, husable, hinfo]
      simp only [first_cons, consider_eq]
      refine ⟨?_, ?_, ?_, ?_⟩
      · rw [Option.or_assoc]
      · rw [Option.or_assoc]
      · by_cases h : Candidate serialFilter .rv info
        · simp [h]
        · simp [h]
      · by_cases h : Candidate serialFilter .rv info
        · by_cases hnone : candidates.usable = 0
          · simp [h, hnone]
          · simp [h, hnone]
        · simp [h]

/-! ## Waiting for a programmer to come back -/

/-- Requests that leave every device alone. -/
def Passive : BusOp → Prop
  | .scan => True
  | .sleep _ => True
  | _ => False

theorem permits_passive {serialFilter : Option (List Byte)} {made : List Bus.Idx}
    {operation : BusOp} (h : Passive operation) : Permits serialFilter made operation := by
  cases operation with
  | scan => trivial
  | sleep ms => trivial
  | boot command info => exact h.elim
  | «open» info => exact h.elim

/-- One request of the bus and what follows it. -/
theorem onBus_follows {α : Type} {operation : BusOp}
    {rest : operation.Reply → ExceptT WlErr (Program Bus) α}
    {allowed : List Bus.Idx → BusOp → Prop}
    {outcome : List Bus.Idx → Option (Except WlErr α) → Prop} (hallowed : allowed [] operation)
    (hrest : ∀ reply, (rest reply).run.Follows
      (fun made => allowed (⟨operation, reply⟩ :: made))
      (fun made => outcome (⟨operation, reply⟩ :: made))) :
    (ExceptT.lift (onBus operation) >>= rest).run.Follows allowed outcome :=
  ⟨hallowed, hrest⟩

/-- The same in a computation with a link. -/
theorem onBus_opening {α : Type} {operation : BusOp} {rest : operation.Reply → Opening α}
    {own : OpenLink} {allowed : List Bus.Idx → BusOp → Prop}
    {outcome : List Bus.Idx → Option (Except WlErr α × OpenLink) → Prop}
    (hallowed : allowed [] operation)
    (hrest : ∀ reply, ((rest reply).run.run own).Follows
      (fun made => allowed (⟨operation, reply⟩ :: made))
      (fun made => outcome (⟨operation, reply⟩ :: made))) :
    (((liftM (ExceptT.lift (onBus operation) : ExceptT WlErr (Program Bus) _) : Opening _) >>=
      rest).run.run own).Follows allowed outcome :=
  ⟨hallowed, hrest⟩

/-- A part without the link in a computation with one. -/
theorem lift_opening {α β : Type} {operation : ExceptT WlErr (Program Bus) β}
    {rest : β → Opening α} {own : OpenLink} {allowed : List Bus.Idx → BusOp → Prop}
    {middle : List Bus.Idx → Option (Except WlErr β) → Prop}
    {outcome : List Bus.Idx → Option (Except WlErr α × OpenLink) → Prop}
    (h : operation.run.Follows allowed middle)
    (hok : ∀ made value, middle made (some (.ok value)) → ((rest value).run.run own).Follows
      (fun more => allowed (made ++ more)) (fun more => outcome (made ++ more)))
    (herror : ∀ made error, middle made (some (.error error)) →
      outcome made (some (.error error, own)))
    (hcut : ∀ made, middle made none → outcome made none) :
    (((liftM operation : Opening β) >>= rest).run.run own).Follows allowed outcome := by
  change (((StateT.lift operation.run).run own >>= fun result =>
    ExceptT.bindCont rest result.1 result.2 : Program Bus _)).Follows allowed outcome
  rw [StateT.run_lift, bind_assoc]
  refine Program.Follows.bind h (fun made status hstatus => ?_) hcut
  cases status with
  | ok value => exact hok made value hstatus
  | error error =>
      change outcome (made ++ []) (some (.error error, own))
      rw [List.append_nil]
      exact herror made error hstatus

/-- How the wait ends: with a candidate that a scan has reported, or an error. -/
def Awaited (serialFilter : Option (List Byte)) (mode : UsbMode) (made : List Bus.Idx)
    (outcome : Option (Except WlErr UsbInfo)) : Prop :=
  ∃ status, outcome = some status ∧ ∀ info, status = .ok info →
    Candidate serialFilter mode info ∧ Reported made info

theorem waitForMode_follows (mode : UsbMode) (serialFilter : Option (List Byte)) (rounds : Nat) :
    (waitForMode mode serialFilter rounds).run.Follows (fun _ operation => Passive operation)
      (Awaited serialFilter mode) := by
  induction rounds with
  | zero => exact ⟨_, rfl, nofun⟩
  | succ rounds ih =>
      unfold waitForMode
      refine onBus_follows trivial fun _ => onBus_follows trivial fun reply => ?_
      cases reply with
      | error code => exact ⟨_, rfl, nofun⟩
      | ok found =>
          dsimp only
          split
          next candidate hfound =>
            refine ⟨_, rfl, fun info hinfo => ?_⟩
            cases hinfo
            have hcandidate := List.find?_some hfound
            simp only [Bool.and_eq_true, beq_iff_eq] at hcandidate
            refine ⟨⟨hcandidate.1.1, hcandidate.1.2, hcandidate.2⟩, found, ?_,
              List.mem_of_find?_eq_some hfound⟩
            exact List.mem_cons_of_mem _ List.mem_cons_self
          next =>
            refine ih.mono (fun _ _ h => h) ?_
            rintro made outcome ⟨status, rfl, h⟩
            refine ⟨status, rfl, fun info hinfo => ?_⟩
            obtain ⟨hcandidate, found, hscan, hreported⟩ := h info hinfo
            exact ⟨hcandidate, found, List.mem_cons_of_mem _ (List.mem_cons_of_mem _ hscan),
              hreported⟩

/-- What a step of opening asks leaves every device closed. -/
def Unopened (made : List Bus.Idx) : Prop := ∀ info handle, ¬OpenedDevice made info handle

theorem unopened_of_requests {made : List Bus.Idx}
    (h : ∀ exchange ∈ made, ∀ info, exchange.1 ≠ BusOp.open info) : Unopened made :=
  fun info _ hopened => h _ hopened info rfl

/-- How a reboot ends: it is left out, or the link names a programmer that has
appeared since, or there is none. -/
inductive Recovered (serialFilter : Option (List Byte)) (usable : Nat) (candidate : Option UsbInfo)
    (own : OpenLink) : List Bus.Idx → Option (Except WlErr Nat × OpenLink) → Prop
  | skipped : (usable = 0 → candidate = none) →
      Recovered serialFilter usable candidate own [] (some (.ok usable, own))
  | appeared {made : List Bus.Idx} {info : UsbInfo} : usable = 0 → Unopened made →
      Candidate serialFilter .rv info → Reported made info →
      Recovered serialFilter usable candidate own made
        (some (.ok 1, { own with info := info }))
  | failed {made : List Bus.Idx} (error : WlErr) : Unopened made →
      Recovered serialFilter usable candidate own made (some (.error error, own))

theorem recover_follows {serialFilter : Option (List Byte)} {before : List Bus.Idx} {usable : Nat}
    {command : BootCommand} {candidate : Option UsbInfo} (own : OpenLink)
    (hboot : usable = 0 → ∀ info, candidate = some info →
      MayBoot serialFilter before command info) :
    ((recover usable command serialFilter candidate).run.run own).Follows
      (fun made operation => Permits serialFilter (before ++ made) operation)
      (Recovered serialFilter usable candidate own) := by
  unfold recover
  cases candidate with
  | none => exact .skipped fun _ => rfl
  | some info =>
      dsimp only
      split
      next husable => exact .skipped fun hnone => absurd hnone husable
      next husable =>
        have hnone : usable = 0 := not_not.mp husable
        have hallowed : Permits serialFilter (before ++ []) (.boot command info) := by
          rw [List.append_nil]
          exact hboot hnone info rfl
        refine onBus_opening hallowed fun reply => ?_
        cases reply with
        | error code =>
            refine .failed _ (unopened_of_requests fun exchange hmem info' => ?_)
            rw [List.mem_singleton.mp hmem]
            exact nofun
        | ok done =>
            have hquiet {made : List Bus.Idx} (hmade : ∀ exchange ∈ made, Passive exchange.1) :
                Unopened (⟨.boot command info, .ok done⟩ :: made) := by
              refine unopened_of_requests fun exchange hmem info' hopen => ?_
              rcases List.mem_cons.mp hmem with rfl | hmem
              · cases hopen
              · have hpassive := hmade exchange hmem
                rw [hopen] at hpassive
                exact hpassive
            refine lift_opening ((waitForMode_follows .rv serialFilter _).requests.mono
              (fun _ _ h => permits_passive h) fun _ _ h => h) (fun made found hmade => ?_)
              (fun made error hmade => ?_) fun made hmade => ?_
            · obtain ⟨⟨status, hstatus, hfound⟩, hpassive⟩ := hmade
              cases hstatus
              obtain ⟨hcandidate, scan, hscan, hinfo⟩ := hfound found rfl
              refine .appeared hnone ?_ hcandidate ⟨scan, ?_, hinfo⟩
              · rw [List.append_nil]
                exact hquiet hpassive
              · rw [List.append_nil]
                exact List.mem_cons_of_mem _ hscan
            · exact .failed error (hquiet hmade.2)
            · obtain ⟨⟨status, hstatus, -⟩, -⟩ := hmade
              cases hstatus

/-! ## Opening -/

theorem OpenedDevice.append {first second : List Bus.Idx} {info : UsbInfo} {handle : Nat} :
    OpenedDevice (first ++ second) info handle ↔
      OpenedDevice first info handle ∨ OpenedDevice second info handle := List.mem_append

theorem Unopened.append {first second : List Bus.Idx} (h : Unopened first) (h' : Unopened second) :
    Unopened (first ++ second) := by
  intro info handle hopened
  exact (OpenedDevice.append.mp hopened).elim (h info handle) (h' info handle)

/-- A step of opening, then the rest. -/
theorem recover_opening {α : Type} {serialFilter : Option (List Byte)} {before : List Bus.Idx}
    {usable : Nat} {command : BootCommand} {candidate : Option UsbInfo} {own : OpenLink}
    {rest : Nat → Opening α}
    {outcome : List Bus.Idx → Option (Except WlErr α × OpenLink) → Prop}
    (hboot : usable = 0 → ∀ info, candidate = some info →
      MayBoot serialFilter before command info)
    (hskipped : (usable = 0 → candidate = none) → ((rest usable).run.run own).Follows
      (fun made operation => Permits serialFilter (before ++ made) operation) outcome)
    (happeared : ∀ made info, usable = 0 → Unopened made → Candidate serialFilter .rv info →
      Reported made info → ((rest 1).run.run { own with info := info }).Follows
        (fun more operation => Permits serialFilter (before ++ (made ++ more)) operation)
        (fun more => outcome (made ++ more)))
    (hfailed : ∀ made error, Unopened made → outcome made (some (.error error, own))) :
    ((recover usable command serialFilter candidate >>= rest).run.run own).Follows
      (fun made operation => Permits serialFilter (before ++ made) operation) outcome := by
  rw [ExceptT.run_bind, StateT.run_bind]
  refine Program.Follows.bind (recover_follows own hboot) (fun made result hresult => ?_) ?_
  · cases hresult with
    | skipped hnone => exact hskipped hnone
    | appeared husable hunopened hcandidate hreported =>
        exact happeared made _ husable hunopened hcandidate hreported
    | failed error hunopened =>
        change outcome (made ++ []) (some (.error error, own))
        rw [List.append_nil]
        exact hfailed made error hunopened
  · intro made hmade
    cases hmade

/-- How the whole ends. -/
def EndsSome (made : List Bus.Idx) (outcome : Option (Except WlErr Unit × OpenLink)) : Prop :=
  ∃ result, outcome = some result ∧ Ends made result

theorem endsSome_error {made : List Bus.Idx} (error : WlErr) {own : OpenLink}
    (hclosed : own.link = OpenLink.zero.link) (hunopened : Unopened made) :
    EndsSome made (some (.error error, own)) := by
  refine ⟨_, rfl, ?_, hunopened⟩
  rw [hclosed]
  rfl

theorem openUsable_follows {serialFilter : Option (List Byte)} {before : List Bus.Idx}
    {usable : Nat} {own : OpenLink} (hclosed : own.link = OpenLink.zero.link)
    (hunopened : Unopened before) (hopen : usable ≠ 0 → MayOpen serialFilter before own.info) :
    ((openUsable usable).run.run own).Follows
      (fun made operation => Permits serialFilter (before ++ made) operation)
      (fun made => EndsSome (before ++ made)) := by
  unfold openUsable
  split
  · have hends := endsSome_error .access hclosed hunopened
    rwa [← List.append_nil before] at hends
  next husable =>
    have hallowed : Permits serialFilter (before ++ []) (.open own.info) := by
      rw [List.append_nil]
      exact hopen husable
    change (((liftM (ExceptT.lift (onBus (.open own.info)) : ExceptT WlErr (Program Bus) _) :
      Opening _) >>= _).run.run own).Follows _ _
    refine onBus_opening hallowed fun reply => ?_
    cases reply with
    | error code =>
        refine endsSome_error _ hclosed (hunopened.append fun info handle hopened => ?_)
        cases List.mem_singleton.mp hopened
    | ok handle =>
        refine ⟨_, rfl, ?_, handle, rfl, fun info handle' => ?_⟩
        · change { own.link with transport := true, isOpen := true } = wlLinkeAttachTransport
          rw [hclosed]
          rfl
        · change OpenedDevice (before ++ [⟨.open own.info, .ok handle⟩]) info handle' ↔
            info = own.info ∧ handle' = handle
          rw [OpenedDevice.append]
          constructor
          · rintro (hopened | hopened)
            · exact absurd hopened (hunopened info handle')
            · cases List.mem_singleton.mp hopened
              exact ⟨rfl, rfl⟩
          · rintro ⟨rfl, rfl⟩
            exact .inr (List.mem_singleton_self _)

/-- What the first scan of a run says of its candidates. -/
theorem firstScan_iff {found found' : List UsbInfo} {more : List Bus.Idx} :
    FirstScan found' (⟨.scan, .ok found⟩ :: more) ↔ found' = found := by
  constructor
  · rintro ⟨rest, hrest⟩
    cases hrest
    rfl
  · rintro rfl
    exact ⟨more, rfl⟩

/-- With a usable programmer nothing is rebooted. -/
theorem recover_one (command : BootCommand) (serialFilter : Option (List Byte))
    (candidate : Option UsbInfo) : recover 1 command serialFilter candidate = pure 1 := by
  cases candidate with
  | none => rfl
  | some info => rfl

theorem openFound_follows {serialFilter : Option (List Byte)} {found : List UsbInfo}
    {candidates : Candidates}
    (hcandidates : candidates = found.foldl (consider serialFilter) .none) :
    ((openFound serialFilter candidates).run.run
      { OpenLink.zero with info := candidates.info }).Follows
        (fun made operation => Permits serialFilter ([⟨.scan, .ok found⟩] ++ made) operation)
        (fun made => EndsSome ([⟨.scan, .ok found⟩] ++ made)) := by
  have hscan : Unopened [⟨.scan, .ok found⟩] := by
    intro info handle hopened
    cases List.mem_singleton.mp hopened
  have hnoBoot : ∀ command info reply,
      (⟨.boot command info, reply⟩ : Bus.Idx) ∉ [⟨.scan, .ok found⟩] := by
    intro command info reply hmem
    cases List.mem_singleton.mp hmem
  obtain ⟨harm, hiap, husable, hinfo⟩ := foldl_consider serialFilter found .none
  rw [← hcandidates] at harm hiap husable hinfo
  have husable : candidates.usable = 0 ↔ first serialFilter .rv found = none :=
    husable.trans ⟨fun h => h.2, fun h => ⟨rfl, h⟩⟩
  -- a programmer that appeared after a reboot is opened as it was reported
  have hreturned (more : List Bus.Idx) (info : UsbInfo) (hnone : candidates.usable = 0)
      (hunopened : Unopened more) (hcandidate : Candidate serialFilter .rv info)
      (hreported : Reported more info) :
      ((openUsable 1).run.run { OpenLink.zero with info := info }).Follows
        (fun made operation =>
          Permits serialFilter ([⟨.scan, .ok found⟩] ++ (more ++ made)) operation)
        (fun made => EndsSome ([⟨.scan, .ok found⟩] ++ (more ++ made))) := by
    have hopen := @openUsable_follows serialFilter ([⟨.scan, .ok found⟩] ++ more) 1
      { OpenLink.zero with info := info } rfl (hscan.append hunopened) fun _ => by
        obtain ⟨scan, hmem, hinfo⟩ := hreported
        refine ⟨hcandidate, ⟨scan, List.mem_append_right _ hmem, hinfo⟩, ?_⟩
        intro found' hfirst other hother
        rw [firstScan_iff.mp hfirst, husable.mp hnone] at hother
        cases hother
    simpa only [List.append_assoc] using hopen
  unfold openFound
  refine recover_opening (fun hnone info hinfo' => ?_) (fun hskipped => ?_)
    (fun more info hnone hunopened hcandidate hreported => ?_) fun more error hunopened => ?_
  · refine ⟨hnoBoot, found, ⟨[], rfl⟩, ?_, husable.mp hnone, nofun⟩
    exact harm.symm.trans hinfo'
  · refine recover_opening (fun hnone info hinfo' => ?_) (fun hnone => ?_)
      (fun more info hnone hunopened hcandidate hreported => ?_) fun more error hunopened => ?_
    · refine ⟨hnoBoot, found, ⟨[], rfl⟩, hiap.symm.trans hinfo', husable.mp hnone, fun _ => ?_⟩
      exact harm.symm.trans (hskipped hnone)
    · refine openUsable_follows rfl hscan fun hsome => ?_
      cases hrv : first serialFilter .rv found with
      | none => exact absurd (husable.mpr hrv) hsome
      | some info =>
          have hchosen : candidates.info = info := by
            have hzero : Candidates.none.usable = 0 := rfl
            rw [hinfo, if_pos hzero, hrv]
            rfl
          have hcandidate := List.find?_some hrv
          refine ⟨?_, ⟨found, List.mem_singleton_self _, ?_⟩, fun found' hfirst other hother => ?_⟩
          · rw [hchosen]
            exact of_decide_eq_true hcandidate
          · rw [hchosen]
            exact List.mem_of_find?_eq_some hrv
          · rw [firstScan_iff.mp hfirst, hrv] at hother
            exact hchosen.trans (Option.some.inj hother)
    · exact hreturned more info hnone hunopened hcandidate hreported
    · exact endsSome_error error rfl (hscan.append hunopened)
  · rw [recover_one, pure_bind]
    exact hreturned more info hnone hunopened hcandidate hreported
  · exact endsSome_error error rfl (hscan.append hunopened)

theorem wlLinkeOpen_follows (serialFilter : Option (List Byte)) (own : OpenLink) :
    ((wlLinkeOpen serialFilter).run.run own).Follows (Permits serialFilter) EndsSome := by
  have hclosed : OpenLink.zero.link = OpenLink.zero.link := rfl
  have hscanned (reply : BusOp.Reply .scan) : Unopened [⟨.scan, reply⟩] := by
    intro info handle hopened
    cases List.mem_singleton.mp hopened
  change (((liftM (ExceptT.lift (onBus .scan) : ExceptT WlErr (Program Bus) _) :
    Opening _) >>= _).run.run OpenLink.zero).Follows _ _
  refine onBus_opening trivial fun reply => ?_
  cases reply with
  | error code => exact endsSome_error _ hclosed (hscanned _)
  | ok found =>
      dsimp only
      split
      · exact endsSome_error _ hclosed (hscanned _)
      · exact openFound_follows rfl

/-- Whatever the bus holds and answers, a programmer is rebooted and one is opened
only when it may be, and at the end the programmer of the link alone is open, or
nothing is. -/
theorem wlLinkeOpen_selects {σ : Type} {world : World Bus σ} {serialFilter : Option (List Byte)}
    {own : OpenLink} {state final : σ} {made : List Bus.Idx}
    {residual : Program Bus (Except WlErr Unit × OpenLink)}
    (hrun : Program.Run world ((wlLinkeOpen serialFilter).run.run own) state made residual final) :
    (∀ before command info reply after,
      made = before ++ ⟨.boot command info, reply⟩ :: after →
        MayBoot serialFilter before command info) ∧
      (∀ before info reply after, made = before ++ ⟨.open info, reply⟩ :: after →
        MayOpen serialFilter before info) ∧
      ∀ result, residual = .done result → Ends made result := by
  have hfollows := wlLinkeOpen_follows serialFilter own
  have hpermits {before after : List Bus.Idx} {exchange : Bus.Idx}
      (hmade : made = before ++ exchange :: after) : Permits serialFilter before exchange.1 :=
    Program.Follows.allowed_of_split hfollows hrun hmade
  refine ⟨fun before command info reply after hmade => hpermits hmade,
    fun before info reply after hmade => hpermits hmade, ?_⟩
  rintro result rfl
  obtain ⟨result', heq, hends⟩ := Program.Follows.of_run hfollows hrun
  cases heq
  rwa [List.append_nil] at hends

/-- A programmer in ARM mode. -/
def armLink : UsbInfo :=
  { UsbInfo.zero with mode := .arm, bus := 1, address := 4, accessible := true }

/-- A bus with the programmer, which any bootloader command switches. -/
def armBus : Handler Bus Bool
  | .scan, switched =>
      (.ok [if switched then { armLink with mode := .rv, address := 5 } else armLink], switched)
  | .boot _ _, _ => (.ok (), true)
  | .open _, switched => (.ok 1, switched)
  | .sleep _, switched => ((), switched)

/-- Its programmer is switched, and then opened where it has come back. -/
theorem wlLinkeOpen_selects_arm :
    ∃ made link, Program.Run armBus.world ((wlLinkeOpen none).run.run .zero) false made
      (.done (.ok (), link)) true ∧ link.info.address = 5 ∧ Ends made (.ok (), link) := by
  have hreturns : Program.Returns armBus.world ((wlLinkeOpen none).run.run .zero) false
      (.ok (), ⟨wlLinkeAttachTransport, { armLink with mode := .rv, address := 5 }, some 1⟩)
      true := Program.returns_world_iff.mpr rfl
  obtain ⟨made, hrun⟩ := hreturns
  exact ⟨made, _, hrun, rfl, (wlLinkeOpen_selects hrun).2.2 _ rfl⟩

end UsbLink

end WchLink
