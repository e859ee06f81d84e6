import WchLink.Interaction.Completes
import WchLink.Layers
import WchLink.UsbDevices

/-! # What is held of the USB library

The library lends device lists, handles and interfaces. A ledger records what is
held; each call is proper only with what it needs on the ledger, and what was lent
is given back.
-/

namespace WchLink

open Bytes Interaction Program

namespace UsbLink

/-- What is held: the library itself, the number of devices of the list, the open
handles and those with their interface claimed. -/
structure Ledger where
  initialised : Bool
  list : Option Nat
  opened : Finset Nat
  claimed : Finset Nat
  deriving DecidableEq

/-- Nothing is held. -/
def Ledger.empty : Ledger where
  initialised := false
  list := none
  opened := ∅
  claimed := ∅

/-- The library can be asked for its devices: no list and no device is held. -/
structure Ledger.Ready (ledger : Ledger) : Prop where
  initialised : ledger.initialised = true
  list : ledger.list = none
  opened : ledger.opened = ∅

/-- The device is one of the list that is held. -/
def Ledger.Listed (ledger : Ledger) (device : Nat) : Prop :=
  ∃ count, ledger.list = some count ∧ device < count

/-- What each call needs. Only one device is open at a time, and only the bootloader is
written to without a claim. -/
def Proper (ledger : Ledger) : LibusbOp → Prop
  | .init => ledger.initialised = false
  | .exit => ledger.initialised = true ∧ ledger.list = none ∧ ledger.opened = ∅
  | .getDeviceList => ledger.initialised = true ∧ ledger.list = none
  | .getDeviceDescriptor device | .getBusNumber device | .getDeviceAddress device =>
      ledger.Listed device
  | .open device => ledger.Listed device ∧ ledger.opened = ∅
  | .getStringDescriptor handle _ _ | .setAutoDetachKernelDriver handle => handle ∈ ledger.opened
  | .bulkOut handle endpoint _ =>
      handle ∈ ledger.opened ∧ (endpoint ≠ wlUsbEpBoot → handle ∈ ledger.claimed)
  | .bulkIn handle _ _ => handle ∈ ledger.opened ∧ handle ∈ ledger.claimed
  | .claimInterface handle => handle ∈ ledger.opened ∧ handle ∉ ledger.claimed
  | .releaseInterface handle => handle ∈ ledger.claimed
  | .close handle => handle ∈ ledger.opened ∧ handle ∉ ledger.claimed
  | .freeDeviceList => ledger.list ≠ none
  | .calloc => True
  | .sleep _ => True

/-- Any reply, with a handle nobody holds for a device opened. -/
def lending : World Libusb Ledger
  | ledger, .init, .ok (), next => next = { ledger with initialised := true }
  | ledger, .exit, _, next => next = { ledger with initialised := false }
  | ledger, .getDeviceList, .ok count, next => next = { ledger with list := some count }
  | ledger, .freeDeviceList, _, next => next = { ledger with list := none }
  | ledger, .open _, .ok handle, next => handle ∉ ledger.opened ∧ handle ∉ ledger.claimed ∧
      next = { ledger with opened := insert handle ledger.opened }
  | ledger, .close handle, _, next => next = { ledger with opened := ledger.opened.erase handle }
  | ledger, .claimInterface handle, .ok _, next =>
      next = { ledger with claimed := insert handle ledger.claimed }
  | ledger, .releaseInterface handle, _, next =>
      next = { ledger with claimed := ledger.claimed.erase handle }
  | ledger, _, _, next => next = ledger

/-- A programmer that has been opened. -/
def Ledger.lend (ledger : Ledger) (handle : Nat) : Ledger :=
  { ledger with
    opened := insert handle ledger.opened
    claimed := insert handle ledger.claimed }

/-- The bus, as far as the ledger goes: opening lends a handle. -/
def busLending : World Bus Ledger
  | ledger, .open _, .ok handle, next =>
      handle ∉ ledger.opened ∧ handle ∉ ledger.claimed ∧ next = ledger.lend handle
  | ledger, _, _, next => next = ledger

/-- The calls of a program are proper, whatever the library replies. -/
abbrev Calls {α : Type} (program : Program Libusb α) (post : α → Ledger → Prop) (ledger : Ledger) :
    Prop := program.Completes lending Proper post ledger

variable {ledger : Ledger} {context : Bool}

/-! ## Scanning -/

theorem readString_calls {handle : Nat} (hopened : handle ∈ ledger.opened) (index : Byte)
    (length : Nat) :
    Calls (readString handle index length) (fun _ final => final = ledger) ledger := by
  unfold readString
  split
  · exact .done rfl
  · apply Completes.call
    · exact hopened
    intro reply next hnext
    have hsame : next = ledger := hnext
    subst hsame
    cases reply with
    | error code => exact .done rfl
    | ok text => exact .done rfl

/-- A device that is opened to be described is closed again. -/
theorem describe_calls {device count : Nat} (hlist : ledger.list = some count)
    (hidle : ledger.opened = ∅) (hdevice : device < count) (desc : UsbDescriptor) (mode : UsbMode) :
    Calls (describe device desc mode) (fun _ final => final = ledger) ledger := by
  have hlisted : ledger.Listed device := ⟨count, hlist, hdevice⟩
  unfold describe
  apply Completes.call
  · exact hlisted
  rintro bus next rfl
  apply Completes.call
  · exact hlisted
  rintro address held rfl
  apply Completes.call
  · exact ⟨hlisted, hidle⟩
  intro reply next hnext
  cases reply with
  | error code =>
      have hsame : next = held := hnext
      exact .done hsame
  | ok handle =>
      obtain ⟨hopened, hclaimed, rfl⟩ := hnext
      have hheld : handle ∈ insert handle held.opened := Finset.mem_insert_self _ _
      apply (readString_calls hheld _ _).bind
      rintro serial between rfl
      apply (readString_calls hheld _ _).bind
      rintro product between rfl
      apply Completes.call
      · exact ⟨hheld, hclaimed⟩
      rintro done next rfl
      apply Completes.done
      dsimp only
      rw [Finset.erase_insert hopened]

theorem scanDevices_calls {count : Nat} (hlist : ledger.list = some count)
    (hidle : ledger.opened = ∅) (maxLinks remaining : Nat)
    (device : Nat) (hremaining : device + remaining = count) (links : List UsbInfo) :
    Calls (scanDevices maxLinks remaining device links) (fun _ final => final = ledger) ledger := by
  induction remaining generalizing device links with
  | zero => exact .done rfl
  | succ remaining ih =>
      have hnext := ih (device + 1) (by omega)
      have hlisted : ledger.Listed device := ⟨count, hlist, by omega⟩
      unfold scanDevices
      apply Completes.call
      · exact hlisted
      rintro reply next rfl
      cases reply with
      | error code => exact hnext links
      | ok desc =>
          dsimp only
          split
          · exact hnext links
          · split
            · exact .done rfl
            · apply (describe_calls hlist hidle (by omega) desc _).bind
              rintro info between rfl
              exact hnext _

theorem wlUsbScan_calls (hready : context = true → ledger.Ready) (maxLinks : Nat) :
    Calls (wlUsbScan context maxLinks) (fun _ final => final = ledger) ledger := by
  unfold wlUsbScan
  split
  · exact .done rfl
  · next hcontext =>
    obtain ⟨hinitialised, hlist, hidle⟩ := hready (by simpa using hcontext)
    apply Completes.call
    · exact ⟨hinitialised, hlist⟩
    intro reply next hnext
    cases reply with
    | error code =>
        have hsame : next = ledger := hnext
        exact .done hsame
    | ok count =>
        have hfetched : next = { ledger with list := some count } := hnext
        subst hfetched
        have hheld : ({ ledger with list := some count } : Ledger).list = some count := rfl
        apply (scanDevices_calls hheld hidle maxLinks count 0 (Nat.zero_add count) []).bind
        rintro links between rfl
        apply Completes.call
        · exact Option.some_ne_none _
        rintro done next rfl
        apply Completes.done
        rw [← hlist]

/-! ## Opening and closing -/

/-- What opening lends: a handle nobody held, or nothing. -/
def Opens (ledger : Ledger) : Except Int Nat → Ledger → Prop
  | .error _, final => final = ledger
  | .ok handle, final => handle ∉ ledger.opened ∧ handle ∉ ledger.claimed ∧
      final = { ledger with opened := insert handle ledger.opened }

theorem openReported_calls {count : Nat} (hlist : ledger.list = some count)
    (hidle : ledger.opened = ∅) (info : UsbInfo)
    (remaining device : Nat) (hremaining : device + remaining = count) :
    Calls (openReported info remaining device) (Opens ledger) ledger := by
  induction remaining generalizing device with
  | zero => exact .done rfl
  | succ remaining ih =>
      have hnext := ih (device + 1) (by omega)
      have hlisted : ledger.Listed device := ⟨count, hlist, by omega⟩
      unfold openReported
      apply Completes.call
      · exact hlisted
      rintro bus next rfl
      split
      · exact hnext
      · apply Completes.call
        · exact hlisted
        rintro address next rfl
        split
        · exact hnext
        · refine ⟨⟨hlisted, hidle⟩, fun reply next hopened => ⟨reply, rfl, ?_⟩⟩
          cases reply with
          | error code => exact hopened
          | ok handle => exact hopened

theorem openListed_calls (hready : ledger.Ready) (info : UsbInfo) :
    Calls (openListed info) (Opens ledger) ledger := by
  obtain ⟨hinitialised, hlist, hidle⟩ := hready
  unfold openListed
  apply Completes.call
  · exact ⟨hinitialised, hlist⟩
  intro reply next hnext
  cases reply with
  | error code =>
      have hsame : next = ledger := hnext
      exact .done hsame
  | ok count =>
      have hfetched : next = { ledger with list := some count } := hnext
      subst hfetched
      have hheld : ({ ledger with list := some count } : Ledger).list = some count := rfl
      apply (openReported_calls hheld hidle info count 0 (Nat.zero_add count)).bind
      intro status between hopens
      cases status with
      | error code =>
          have hsame : between = { ledger with list := some count } := hopens
          subst hsame
          apply Completes.call
          · exact Option.some_ne_none _
          rintro done next rfl
          apply Completes.done
          unfold Opens
          rw [← hlist]
      | ok handle =>
          obtain ⟨hopened, hclaimed, rfl⟩ := hopens
          apply Completes.call
          · exact Option.some_ne_none _
          rintro done next rfl
          apply Completes.done
          refine ⟨hopened, hclaimed, ?_⟩
          rw [← hlist]

/-- Closing gives back what opening lent. -/
theorem wlUsbClose_calls {handle : Nat} (hopened : handle ∉ ledger.opened)
    (hclaimed : handle ∉ ledger.claimed) :
    Calls (wlUsbClose handle) (fun _ final => final = ledger) (ledger.lend handle) := by
  have hheld : handle ∈ insert handle ledger.opened := Finset.mem_insert_self _ _
  unfold wlUsbClose
  apply Completes.call
  · exact Finset.mem_insert_self _ _
  intro released next hnext
  have hreleased : next = { ledger with opened := insert handle ledger.opened } := by
    have hnext' : next = { ledger.lend handle with
        claimed := (insert handle ledger.claimed).erase handle } := by
      cases released <;> exact hnext
    rw [hnext', Finset.erase_insert hclaimed]
    rfl
  subst hreleased
  refine ⟨⟨hheld, hclaimed⟩, fun closed next hnext => ⟨closed, rfl, ?_⟩⟩
  have hclosed : next = { ledger with opened := (insert handle ledger.opened).erase handle } :=
    hnext
  rw [hclosed, Finset.erase_insert hopened]

theorem wlUsbOpen_calls (hready : context = true → ledger.Ready) (info : UsbInfo) :
    Calls (wlUsbOpen context info) (fun status final => busLending ledger (.open info) status final)
      ledger := by
  unfold wlUsbOpen
  split
  · exact .done rfl
  · next hcontext =>
    apply (openListed_calls (hready (by simpa using hcontext)) info).bind
    intro status between hopens
    cases status with
    | error code => exact .done hopens
    | ok handle =>
        obtain ⟨hopened, hclaimed, rfl⟩ := hopens
        have hheld : handle ∈ insert handle ledger.opened := Finset.mem_insert_self _ _
        apply Completes.call
        · exact hheld
        intro detached next hnext
        have hsame : next = { ledger with opened := insert handle ledger.opened } := by
          cases detached <;> exact hnext
        subst hsame
        apply Completes.call
        · exact ⟨hheld, hclaimed⟩
        intro claim next hnext
        cases claim with
        | error code =>
            have hsame : next = { ledger with opened := insert handle ledger.opened } := hnext
            subst hsame
            apply Completes.call
            · exact ⟨hheld, hclaimed⟩
            rintro closed next rfl
            apply Completes.done
            simp only [Finset.erase_insert hopened]
            rfl
        | ok done =>
            have hlent : next = ledger.lend handle := hnext
            subst hlent
            apply Completes.call
            · trivial
            rintro allocated next rfl
            cases allocated with
            | true => exact .done ⟨hopened, hclaimed, rfl⟩
            | false =>
                have hclosed : Calls
                    (wlUsbClose handle >>= fun _ => pure (.error libusbErrorNoMem))
                    (fun status final => busLending ledger (.open info) status final)
                    (ledger.lend handle) := by
                  apply (wlUsbClose_calls hopened hclaimed).bind
                  rintro closed final rfl
                  exact .done rfl
                exact hclosed

theorem wlUsbSendBootCommand_calls (hready : context = true → ledger.Ready)
    (info : UsbInfo) (command : List Byte) :
    Calls (wlUsbSendBootCommand context info command) (fun _ final => final = ledger) ledger := by
  unfold wlUsbSendBootCommand
  split
  · exact .done rfl
  · next hcontext =>
    apply (openListed_calls (hready (by simpa using hcontext)) info).bind
    intro status between hopens
    cases status with
    | error code => exact .done hopens
    | ok handle =>
        obtain ⟨hopened, hclaimed, rfl⟩ := hopens
        have hheld : handle ∈ insert handle ledger.opened := Finset.mem_insert_self _ _
        apply Completes.call
        · exact ⟨hheld, fun h => absurd rfl h⟩
        intro sent next hnext
        have hsame : next = { ledger with opened := insert handle ledger.opened } := by
          cases sent <;> exact hnext
        subst hsame
        apply Completes.call
        · exact ⟨hheld, hclaimed⟩
        rintro closed next rfl
        have hrestored : { ledger with opened := (insert handle ledger.opened).erase handle } =
            ledger := by rw [Finset.erase_insert hopened]
        cases sent with
        | error code => exact .done hrestored
        | ok transferred =>
            dsimp only
            split
            · exact .done hrestored
            · exact .done hrestored

/-- A request of an open programmer. -/
theorem usbTransportCommand_calls {handle : Nat} (hopened : handle ∈ ledger.opened)
    (hclaimed : handle ∈ ledger.claimed) (request : List Byte) :
    Calls (usbTransportCommand handle request) (fun _ final => final = ledger) ledger := by
  unfold usbTransportCommand
  apply Completes.call
  · exact ⟨hopened, fun _ => hclaimed⟩
  intro sent next hnext
  have hsame : next = ledger := by cases sent <;> exact hnext
  subst hsame
  cases sent with
  | error code => exact .done rfl
  | ok transferred =>
      refine ⟨⟨hopened, hclaimed⟩, fun reply next hnext => ⟨reply, rfl, ?_⟩⟩
      cases reply <;> exact hnext

/-! ## The link layer -/

/-- Between two requests of the bus no list is held and no programmer is open. -/
def Free (context : Bool) (ledger : Ledger) (_ : BusOp) : Prop := context = true → ledger.Ready

/-- What the bus does to the ledger is what it lends. -/
theorem usbBus_calls (operation : BusOp)
    (hfree : Free context ledger operation) :
    Calls (usbBus context operation) (busLending ledger operation) ledger := by
  cases operation with
  | scan =>
      apply (wlUsbScan_calls hfree wlMaxLinks).mono
      intro reply final hsame
      cases reply <;> exact hsame
  | boot command info =>
      cases command with
      | switchArmToRv =>
          apply (wlUsbSendBootCommand_calls hfree info _).mono
          intro reply final hsame
          cases reply <;> exact hsame
      | ejectIap =>
          apply (wlUsbSendBootCommand_calls hfree info _).mono
          intro reply final hsame
          cases reply <;> exact hsame
  | «open» info => exact wlUsbOpen_calls hfree info
  | sleep ms => exact ⟨trivial, fun reply next hnext => ⟨reply, rfl, hnext⟩⟩

/-- What is not an open lends nothing. -/
theorem busLending_same {operation : BusOp} (hopen : ∀ info, operation ≠ .open info)
    {reply : operation.Reply} {next : Ledger} (hnext : busLending ledger operation reply next) :
    next = ledger := by
  cases operation with
  | «open» info => exact absurd rfl (hopen info)
  | scan => cases reply <;> exact hnext
  | boot command info => cases reply <;> exact hnext
  | sleep ms => exact hnext

theorem keeps_of_follows {α : Type} {program : Program Bus α} {outcome : List Bus.Idx → α → Prop}
    (hfree : context = true → ledger.Ready)
    (h : program.Follows (fun _ operation => ∀ info, operation ≠ .open info)
      (fun made result => ∃ value, result = some value ∧ outcome made value)) :
    program.Completes busLending (Free context) (fun _ final => final = ledger) ledger :=
  .of_follows h fun _ hopen => ⟨hfree, fun _ _ hnext => busLending_same hopen hnext⟩

theorem wlProgrammerFind_keeps (hfree : context = true → ledger.Ready)
    (serialFilter : Option (List Byte)) :
    (wlProgrammerFind serialFilter).run.Completes busLending (Free context)
      (fun _ final => final = ledger)
      ledger := by
  apply keeps_of_follows hfree
  apply (wlProgrammerFind_follows serialFilter).mono
  · rintro made operation ⟨-, rfl⟩ info hinfo
    cases hinfo
  · intro made outcome h
    exact h

theorem reboot_keeps (hfree : context = true → ledger.Ready) (serialFilter : Option (List Byte))
    (command : BootCommand) :
    (reboot command serialFilter).run.Completes busLending (Free context)
      (fun _ final => final = ledger)
      ledger := by
  apply keeps_of_follows hfree
  apply (reboot_follows serialFilter command).mono
  · rintro made operation hmay info rfl
    exact hmay
  · intro made outcome h
    exact h

theorem waitForMode_keeps (hfree : context = true → ledger.Ready) (mode : UsbMode)
    (serialFilter : Option (List Byte)) (rounds : Nat) :
    (waitForMode mode serialFilter rounds).run.Completes busLending (Free context)
      (fun _ final => final = ledger) ledger := by
  apply keeps_of_follows hfree
  apply (waitForMode_ends mode serialFilter rounds).mono
  · rintro made operation hpassive info rfl
    exact hpassive
  · intro made outcome h
    exact h

/-- One request of the bus in a computation with a link. -/
theorem onBus_completes {α : Type} {operation : BusOp} {rest : operation.Reply → Opening α}
    {own : OpenLink} {post : Except WlErr α × OpenLink → Ledger → Prop}
    (hfree : context = true → ledger.Ready)
    (hrest : ∀ reply next, busLending ledger operation reply next →
      ((rest reply).run.run own).Completes busLending (Free context) post next) :
    (((liftM (ExceptT.lift (onBus operation) : ExceptT WlErr (Program Bus) _) : Opening _) >>=
      rest).run.run own).Completes busLending (Free context) post ledger :=
  ⟨hfree, hrest⟩

theorem recover_keeps (hfree : context = true → ledger.Ready) (usable : Nat) (command : BootCommand)
    (serialFilter : Option (List Byte)) (candidate : Option UsbInfo) (own : OpenLink) :
    ((recover usable command serialFilter candidate).run.run own).Completes busLending
      (Free context)
      (fun _ final => final = ledger) ledger := by
  cases candidate with
  | none => exact .done rfl
  | some info =>
      unfold recover
      dsimp only
      split
      · exact .done rfl
      · apply onBus_completes hfree
        intro reply next hnext
        have hsame : next = ledger := by cases reply <;> exact hnext
        subst hsame
        cases reply with
        | error code => exact .done rfl
        | ok done =>
            apply Completes.andThen (.lift (waitForMode_keeps hfree _ serialFilter _))
            · rintro found own' between ⟨rfl, -⟩
              exact .done rfl
            · rintro error own' between ⟨rfl, -⟩
              rfl

/-- What opening a link lends: the handle the link is left with, or nothing. -/
def Lends (ledger : Ledger) : Except WlErr Unit × OpenLink → Ledger → Prop
  | (.error _, _), final => final = ledger
  | (.ok (), opened), final => ∃ handle, opened.ctx = some handle ∧ handle ∉ ledger.opened ∧
      handle ∉ ledger.claimed ∧ final = ledger.lend handle

theorem openUsable_lends (hfree : context = true → ledger.Ready) (usable : Nat) (own : OpenLink) :
    ((openUsable usable).run.run own).Completes busLending (Free context)
      (Lends ledger) ledger := by
  unfold openUsable
  split
  · exact .done rfl
  · change (((liftM (ExceptT.lift (onBus (.open own.info)) : ExceptT WlErr (Program Bus) _) :
      Opening _) >>= _).run.run own).Completes busLending (Free context) _ _
    apply onBus_completes hfree
    intro reply next hnext
    cases reply with
    | error code => exact .done hnext
    | ok handle =>
        obtain ⟨hopened, hclaimed, hlent⟩ := hnext
        exact .done ⟨handle, rfl, hopened, hclaimed, hlent⟩

theorem openFound_lends (hfree : context = true → ledger.Ready) (serialFilter : Option (List Byte))
    (candidates : Candidates) (own : OpenLink) :
    ((openFound serialFilter candidates).run.run own).Completes busLending (Free context)
      (Lends ledger)
      ledger := by
  unfold openFound
  apply Completes.andThen (recover_keeps hfree _ _ serialFilter _ own)
  · rintro usable own' between rfl
    apply Completes.andThen (recover_keeps hfree _ _ serialFilter _ own')
    · rintro usable' own'' between' rfl
      exact openUsable_lends hfree usable' own''
    · rintro error own'' between' rfl
      rfl
  · rintro error own' between rfl
    rfl

theorem wlLinkeOpen_lends (hfree : context = true → ledger.Ready)
    (serialFilter : Option (List Byte)) :
    ((wlLinkeOpen serialFilter).run.run .zero).Completes busLending (Free context)
      (Lends ledger) ledger := by
  change (((liftM (ExceptT.lift (onBus .scan) : ExceptT WlErr (Program Bus) _) :
    Opening _) >>= _).run.run OpenLink.zero).Completes busLending (Free context) _ _
  apply onBus_completes hfree
  intro reply next hnext
  have hsame : next = ledger := by cases reply <;> exact hnext
  subst hsame
  cases reply with
  | error code => exact .done rfl
  | ok found =>
      dsimp only
      split
      · exact .done rfl
      · exact openFound_lends hfree serialFilter _ _

/-! ## Sessions and commands -/

theorem usbBus_completes {α : Type} {program : Program Bus α}
    {post : α → Ledger → Prop} (h : program.Completes busLending (Free context) post ledger) :
    Calls (program.interpret (usbBus context)) post ledger :=
  .interpret (fun operation _ hfree => usbBus_calls operation hfree) h

theorem wlLinkeGetVersion_total (link : Link) : (wlLinkeGetVersion link).run.Total := by
  apply (totalClass Usb).andThen
  · exact sendControl_mem (totalClass Usb) fun _ => trivial
  · intro reply
    dsimp only
    split
    · exact (totalClass Usb).throwThen _ _
    · exact (totalClass Usb).ok _

/-- The programmer is asked for its version, and nothing becomes of the ledger. -/
theorem wlLinkeGetVersion_calls {handle : Nat} (hopened : handle ∈ ledger.opened)
    (hclaimed : handle ∈ ledger.claimed) :
    Calls ((wlLinkeGetVersion wlLinkeAttachTransport).run.interpret (usbTransportCommand handle))
      (fun _ final => final = ledger) ledger := by
  have hasked : (wlLinkeGetVersion wlLinkeAttachTransport).run.Completes
      (fun held _ _ next => next = held)
      (fun held _ => handle ∈ held.opened ∧ handle ∈ held.claimed) (fun _ final => final = ledger)
      ledger :=
    .of_total (wlLinkeGetVersion_total _) fun _ => ⟨⟨hopened, hclaimed⟩, fun _ _ hnext => hnext⟩
  exact hasked.interpret fun request _ hheld => usbTransportCommand_calls hheld.1 hheld.2 request

theorem cmdProgrammerInfo_calls (hready : ledger.Ready) (serialFilter : Option (List Byte)) :
    Calls (cmdProgrammerInfo true serialFilter) (fun _ final => final = ledger) ledger := by
  have hfree : true = true → ledger.Ready := fun _ => hready
  apply (usbBus_completes (wlProgrammerFind_keeps hfree serialFilter)).bind
  rintro status between rfl
  cases status with
  | error status => exact .done rfl
  | ok info =>
      apply (wlUsbOpen_calls hfree info).bind
      intro opened next hlends
      cases opened with
      | error code => exact .done hlends
      | ok handle =>
          obtain ⟨hopened, hclaimed, rfl⟩ := hlends
          apply (wlLinkeGetVersion_calls (Finset.mem_insert_self _ _)
            (Finset.mem_insert_self _ _)).bind
          rintro version held rfl
          apply (wlUsbClose_calls hopened hclaimed).bind
          rintro closed final rfl
          exact .done rfl

theorem cmdProgrammerList_calls (hready : ledger.Ready) :
    Calls (cmdProgrammerList true) (fun _ final => final = ledger) ledger := by
  apply (wlUsbScan_calls (fun _ : true = true => hready) wlMaxProgrammers).bind
  rintro found between rfl
  cases found with
  | error code => exact .done rfl
  | ok found => exact .done rfl

theorem reboot_calls (hready : ledger.Ready) (serialFilter : Option (List Byte))
    (command : BootCommand) :
    Calls ((reboot command serialFilter).run.interpret (usbBus true))
      (fun _ final => final = ledger)
      ledger :=
  usbBus_completes (reboot_keeps (fun _ : true = true => hready) serialFilter command)

end UsbLink

end WchLink
