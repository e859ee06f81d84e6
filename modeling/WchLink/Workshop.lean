import WchLink.CommandTurns
import WchLink.ImageTransfer
import WchLink.Main

/-! # The program at the workshop

The desk's programmer stands on a USB bus, and the whole program is run there from its
arguments: it scans the bus, opens the programmer, carries the commands out over bulk
transfers and exits. To the user that is still the shelf.
-/

namespace WchLink

open Bytes Interaction Program UsbLink

/-! ## The bus -/

/-- The desk, and the answer the programmer holds ready. -/
structure Workshop where
  desk : Desk
  answer : List Byte

/-- A library with the one programmer, which answers each command with a reply to fetch. -/
def workshopLibrary (serial : List Byte) : Handler Libusb Workshop
  | .init, state => (.ok (), state)
  | .exit, state => ((), state)
  | .getDeviceList, state => (.ok 1, state)
  | .getDeviceDescriptor _, state => (.ok ⟨wlUsbVidWch, wlUsbPidLinkRv, 1, 0⟩, state)
  | .getBusNumber _, state => (1, state)
  | .getDeviceAddress _, state => (2, state)
  | .open _, state => (.ok 1, state)
  | .getStringDescriptor _ _ _, state => (.ok serial, state)
  | .setAutoDetachKernelDriver _, state => (.ok (), state)
  | .claimInterface _, state => (.ok (), state)
  | .releaseInterface _, state => (.ok (), state)
  | .close _, state => ((), state)
  | .freeDeviceList, state => ((), state)
  | .bulkOut _ _ data, state =>
      match simCommand data state.desk.sim with
      | (.error code, sim) => (.error code, { state with desk := { state.desk with sim } })
      | (.ok answer, sim) => (.ok data.length, ⟨{ state.desk with sim }, answer⟩)
  | .bulkIn _ _ length, state => (.ok (state.answer.take length), state)
  | .calloc, state => (true, state)
  | .sleep _, state => ((), state)

/-- The workshop: what is not asked of the library is asked of the desk. -/
def workshop (serial : List Byte) : Handler Station Workshop
  | .library operation, state => workshopLibrary serial operation state
  | .other operation, state =>
      ((desk operation state.desk).1, { state with desk := (desk operation state.desk).2 })

/-- The programmer as a scan reports it. -/
def workshopInfo (serial : List Byte) : UsbInfo where
  mode := .rv
  vid := wlUsbVidWch
  pid := wlUsbPidLinkRv
  bus := 1
  address := 2
  accessible := true
  serial := (serial.take (wlUsbSerialMax - 1)).takeWhile (· ≠ 0)
  product := []

variable {serial : List Byte}

theorem onLibrary_run {α : Type} (program : Program Libusb α) (state : Workshop) :
    (onLibrary program).run (workshop serial) state = program.run (workshopLibrary serial) state :=
  run_interpret (fun _ _ => rfl) program state

theorem wlUsbScan_workshop (state : Workshop) :
    (wlUsbScan true wlMaxLinks).run (workshopLibrary serial) state =
      (some (.ok [workshopInfo serial]), state) := rfl

theorem wlUsbOpen_workshop (state : Workshop) :
    (wlUsbOpen true (workshopInfo serial)).run (workshopLibrary serial) state =
      (some (.ok 1), state) := rfl

theorem wlLinkeOpen_workshop {serialFilter : Option (List Byte)}
    (hmatches : serialMatches (workshopInfo serial) serialFilter = true) (state : Workshop) :
    (((UsbLink.wlLinkeOpen serialFilter).run.run .zero).interpret (usbBus true)).run
        (workshopLibrary serial) state =
      (some (.ok (), ⟨wlLinkeAttachTransport, workshopInfo serial, some 1⟩), state) := by
  have hconsider : consider serialFilter .none (workshopInfo serial) =
      ⟨1, workshopInfo serial, none, none⟩ := by
    unfold consider
    rw [hmatches]
    rfl
  refine (run_bind_of_eq (wlUsbScan_workshop state)).trans ?_
  change (((openFound serialFilter (consider serialFilter .none (workshopInfo serial))).run.run
    { OpenLink.zero with
      info := (consider serialFilter .none (workshopInfo serial)).info }).interpret
        (usbBus true)).run (workshopLibrary serial) state = _
  rw [hconsider]
  exact (run_bind_of_eq (wlUsbOpen_workshop state)).trans rfl

/-! ## Requests -/

/-- What the programmer answers fits the buffer it is fetched into. -/
theorem simCommand_length {request answer : List Byte} {sim : Sim}
    (h : (simCommand request sim).1 = .ok answer) : answer.length ≤ wlReplyMax := by
  have hcontrol (sub : Byte) : (simControl sim sub).1.length ≤ wlReplyMax := by
    unfold simControl
    repeat' split
    all_goals exact Nat.le_of_ble_eq_true rfl
  have hregister (reg : Byte) (value : Word) (operation : Byte) :
      (simRegister sim reg value operation).1.length ≤ wlReplyMax := by
    unfold simRegister
    repeat' split
    all_goals exact Nat.le_of_ble_eq_true rfl
  have hrefuse : simRefuse.length ≤ wlReplyMax := Nat.le_of_ble_eq_true rfl
  unfold simCommand at h
  dsimp only at h
  split at h
  · cases h
  split at h
  · cases h
    exact hcontrol _
  split at h
  · split at h
    · cases h
      exact hrefuse
    · cases h
      exact Nat.le_of_ble_eq_true rfl
  split at h
  · cases h
    exact Nat.le_of_ble_eq_true rfl
  split at h
  · split at h
    · cases h
      exact hrefuse
    · cases h
      exact hregister _ _ _
  · cases h
    exact hrefuse

theorem usbTransportCommand_workshop (request : List Byte) (state : Workshop) :
    ∃ answer, (UsbLink.usbTransportCommand 1 request).run (workshopLibrary serial) state =
      (some (simCommand request state.desk.sim).1,
        ⟨{ state.desk with sim := (simCommand request state.desk.sim).2 }, answer⟩) := by
  unfold UsbLink.usbTransportCommand
  cases hcommand : simCommand request state.desk.sim with
  | mk status sim =>
      cases status with
      | error code =>
          have hout :
              (libusb (.bulkOut 1 wlUsbEpCommand request)).run (workshopLibrary serial) state =
              (some (.error code), { state with desk := { state.desk with sim } }) := by
            simp only [libusb, perform, run, workshopLibrary, hcommand]
          rw [run_bind_of_eq hout]
          exact ⟨state.answer, rfl⟩
      | ok answer =>
          have hout :
              (libusb (.bulkOut 1 wlUsbEpCommand request)).run (workshopLibrary serial) state =
              (some (.ok request.length), ⟨{ state.desk with sim }, answer⟩) := by
            simp only [libusb, perform, run, workshopLibrary, hcommand]
          have hwhole : answer.take wlReplyMax = answer :=
            List.take_of_length_le (simCommand_length (congrArg Prod.fst hcommand))
          rw [run_bind_of_eq hout]
          refine ⟨answer, ?_⟩
          change (some (Except.ok (answer.take wlReplyMax)), _) = _
          rw [hwhole]
          rfl

/-! ## Commands -/

/-- The serial filter lets the programmer through. -/
def Options.Admits (opts : Options) (serial : List Byte) : Prop :=
  serialMatches (workshopInfo serial) (opts.serial.map textBytes) = true

/-- A command at the workshop, with its programmer open or not. -/
def AtWork (held : Bool) (state : Desk) (ctx : Option Nat) (low : Workshop) : Prop :=
  low.desk = state ∧ (held = true → ctx = some 1)

theorem carryOut_workshop {opts : Options} (hadmits : opts.Admits serial) (operation : CliOp)
    (held : Bool) (state : Desk) (ctx : Option Nat) (low : Workshop)
    (hwork : AtWork held state ctx low) (hturn : inTurn opts.serial held operation) :
    ∃ ctx' low' next,
      (carryOut operation ctx).run (workshop serial) low =
        (some ((desk operation state).1, ctx'), low') ∧
      holding held operation (desk operation state).1 next ∧
        AtWork next (desk operation state).2 ctx' low' := by
  obtain ⟨rfl, hctx⟩ := hwork
  cases operation with
  | usbOpen asked =>
      obtain ⟨rfl, rfl⟩ := hturn
      have hopen := (onLibrary_run _ low).trans (wlLinkeOpen_workshop hadmits low)
      exact ⟨some 1, low, true, run_bind_of_eq hopen, rfl, rfl, fun _ => rfl⟩
  | usbClose =>
      have hopen : held = true := hturn
      rw [hctx hopen]
      exact ⟨none, low, false, rfl, rfl, rfl, nofun⟩
  | host operation =>
      cases operation with
      | usb request =>
          have hopen : held = true := hturn
          subst hopen
          rw [hctx rfl]
          obtain ⟨answer, hrun⟩ := @usbTransportCommand_workshop serial request low
          exact ⟨some 1, _, true, run_bind_of_eq ((onLibrary_run _ low).trans hrun), rfl, rfl,
            fun _ => rfl⟩
      | _ => exact ⟨ctx, _, held, rfl, rfl, rfl, hctx⟩
  | _ => exact ⟨ctx, _, held, rfl, rfl, rfl, hctx⟩

/-- A command that returns on the desk returns the same at the workshop. -/
theorem runSession_workshop {opts : Options} (hadmits : opts.Admits serial) {command : Command}
    {state : Workshop} {status : Except WlErr Unit} {final : Desk}
    (hrun : (command.run 0 [] opts).run desk state.desk = (some status, final)) :
    ∃ after, (runSession 0 [] opts command).run (workshop serial) state = (some status, after) ∧
      after.desk = final := by
  have hwork : AtWork false state.desk none state := ⟨rfl, nofun⟩
  obtain ⟨ctx, after, held, hsession, -, hafter, -⟩ := run_implement
    (carryOut_workshop hadmits) (command.balanced 0 [] opts) hwork hrun
  exact ⟨after, run_bind_of_eq hsession, hafter⟩

/-! ## Invocations -/

/-- The errand the arguments ask for. -/
def errandOf (args : List String) : Option Errand :=
  match parseArguments .initial args with
  | .exit _ => none
  | .commandLine line =>
      if line.command = some "flash" then some (.flash line.opts)
      else if line.command = some "read" then some (.read line.opts)
      else none

def Errand.opts : Errand → Options
  | flash opts => opts
  | read opts => opts

/-- The program, run once for each list of arguments. -/
def invocations : List (List String) → Program Station (List Nat)
  | [] => return []
  | args :: more => do
      let code ← main 0 [] args
      return code :: (← invocations more)

/-- The arguments ask for the errand, of this programmer and its part. -/
structure Invokes (chip : Chip) (serial : List Byte) (args : List String) (errand : Errand) :
    Prop where
  asked : errandOf args = some errand
  suits : errand.Suits chip
  admits : errand.opts.Admits serial

/-- Around its command the program brings the library up and down. -/
theorem main_run {args : List String} {line : CommandLine} {command : String}
    (hargs : parseArguments .initial args = .commandLine line)
    (hcommand : line.command = some command) {state after : Workshop} {status : Except WlErr Unit}
    (hrun : (mainCommand 0 [] line.opts command).run (workshop serial) state =
      (some status, after)) :
    (main 0 [] args).run (workshop serial) state = (some (statusToExit status), after) := by
  have hinit : (onLibrary (wlUsbGlobalInit false)).run (workshop serial) state =
      (some (.ok ()), state) := rfl
  unfold main
  rw [hargs]
  dsimp only
  rw [hcommand]
  dsimp only
  rw [run_bind_of_eq hinit]
  dsimp only
  rw [run_bind_of_eq hrun]
  rfl

/-- An errand that returns on the desk is done by the program at the workshop. -/
theorem main_workshop {args : List String} {errand : Errand} (herrand : errandOf args = some errand)
    (hadmits : errand.opts.Admits serial) {state : Workshop} {status : Except WlErr Unit}
      {final : Desk}
    (hrun : errand.command.run desk state.desk = (some status, final)) :
    ∃ after, (main 0 [] args).run (workshop serial) state = (some (statusToExit status), after) ∧
      after.desk = final := by
  unfold errandOf at herrand
  split at herrand
  · cases herrand
  · next line hargs =>
      split at herrand
      · next hcommand =>
          cases herrand
          have hadmits' : line.opts.Admits serial := hadmits
          have hrun' : (Command.flash.run 0 [] line.opts).run desk state.desk =
              (some status, final) :=
            hrun
          obtain ⟨after, hsession, hafter⟩ := runSession_workshop hadmits' hrun'
          refine ⟨after, main_run hargs hcommand ?_, hafter⟩
          simpa [mainCommand] using hsession
      split at herrand
      · next hcommand =>
          cases herrand
          have hadmits' : line.opts.Admits serial := hadmits
          have hrun' : (Command.read.run 0 [] line.opts).run desk state.desk =
              (some status, final) :=
            hrun
          obtain ⟨after, hsession, hafter⟩ := runSession_workshop hadmits' hrun'
          refine ⟨after, main_run hargs hcommand ?_, hafter⟩
          simpa [mainCommand] using hsession
      · cases herrand

/-- The program, run any number of times from its arguments with a programmer on the USB
bus, does to the part and to the files what the errands do to the shelf, and exits with
the codes of their statuses. -/
theorem invocations_refine (chip : Chip) (hchip : chip ∈ chips) (serial : List Byte)
    (runs : List (List String)) (errands : List Errand)
    (hasks : List.Forall₂ (Invokes chip serial) runs errands) (state : Workshop)
    (hsettled : state.desk.Settled chip) :
    ∃ final, (invocations runs).run (workshop serial) state =
        (some ((errandsOnShelf chip errands state.desk.shelf).1.map statusToExit), final) ∧
      final.desk.shelf = (errandsOnShelf chip errands state.desk.shelf).2 ∧
        final.desk.Settled chip := by
  induction hasks generalizing state with
  | nil => exact ⟨state, rfl, rfl, hsettled⟩
  | @cons args errand runs errands hask hasks ih =>
      obtain ⟨after, hcommand, hview, hkept⟩ :=
        errand_onShelf hchip hask.suits state.desk hsettled rfl
      obtain ⟨between, hmain, rfl⟩ := main_workshop hask.asked hask.admits hcommand
      obtain ⟨final, hrest, hshelf, hfinal⟩ := ih between (hkept hsettled)
      have hview' : between.desk.shelf = (errand.onShelf chip state.desk.shelf).2 := hview
      rw [hview'] at hrest hshelf
      refine ⟨final, ?_, hshelf, hfinal⟩
      unfold invocations
      rw [run_bind_of_eq hmain, run_bind_of_eq hrest]
      rfl

/-- The programmer with serial number W1, and its part and files as at the desk. -/
def workshopStart : Workshop := ⟨deskStart, []⟩

def flashNamed : Options := { flashOptions with serial := some "W1" }

/-- A detected part is flashed through the alias, by the programmer's number, and read
back under its name. -/
theorem invocations_refine_copy : ∃ final,
    (invocations [["flash", "-s", "W1", "image.bin", "--address", "62"],
      ["read", "copy.bin", "-a", "0x0800003e", "-c", "ch32v003", "-n", "3"]]).run
        (workshop [0x57, 0x31]) workshopStart = (some [0, 0], final) ∧
      final.desk.shelf =
        (errandsOnShelf ch32v003 [.flash flashNamed, .read readOptions] deskStart.shelf).2 ∧
      final.desk.Settled ch32v003 := by
  have hadmits : flashNamed.Admits [0x57, 0x31] :=
    (by decide +kernel : serialMatches (workshopInfo [0x57, 0x31]) (some (textBytes "W1")) = true)
  have hflash : Invokes ch32v003 [0x57, 0x31] ["flash", "-s", "W1", "image.bin", "--address", "62"]
      (.flash flashNamed) := ⟨by decide +kernel, .inl rfl, hadmits⟩
  have hread : Invokes ch32v003 [0x57, 0x31] ["read", "copy.bin", "-a", "0x0800003e", "-c",
      "ch32v003", "-n", "3"] (.read readOptions) := ⟨by decide +kernel, readOptions_suits, rfl⟩
  have hcodes : (errandsOnShelf ch32v003 [.flash flashNamed, .read readOptions]
      deskStart.shelf).1.map statusToExit = [0, 0] := by decide +kernel
  obtain ⟨final, hrun, hshelf, hfinal⟩ := invocations_refine ch32v003 (List.Mem.head _) [0x57, 0x31]
    _ _ (.cons hflash (.cons hread .nil)) workshopStart deskStart_settled
  have hstart : workshopStart.desk = deskStart := rfl
  rw [hstart] at hrun hshelf
  rw [hcodes] at hrun
  exact ⟨final, hrun, hshelf, hfinal⟩

end WchLink
