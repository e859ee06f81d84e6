import WchLink.CommandTurns
import WchLink.Main
import WchLink.UsbLedger

/-! # What the program holds of the USB library

A command takes its turns with the programmer, and what it asks is carried out by calls
that give back what they take. So the whole program, whatever its arguments and whatever
happens to it, makes only proper calls to the library and leaves nothing behind.
-/

namespace WchLink

open Bytes Interaction Program UsbLink

variable {α β : Type} {held : Bool}

/-! ## Carrying the requests out -/

/-- The library's calls; the rest of the world holds nothing of the library. -/
def stationLending : World Station Ledger
  | ledger, .library operation, reply, next => lending ledger operation reply next
  | ledger, .other _, _, next => next = ledger

def stationProper : Guard Station Ledger
  | ledger, .library operation => Proper ledger operation
  | _, .other _ => True

theorem onLibrary_completes {program : Program Libusb α} {post : α → Ledger → Prop}
    {ledger : Ledger} (h : Calls program post ledger) :
    (onLibrary program).Completes stationLending stationProper post ledger := by
  apply Completes.interpret _ h
  intro operation state hproper
  exact ⟨hproper, fun reply next hnext => ⟨reply, rfl, hnext⟩⟩

/-- While a programmer is open the link carries its handle, which the ledger has lent. -/
def Carried (base : Ledger) : Bool → Option Nat → Ledger → Prop
  | false, _, ledger => ledger = base
  | true, ctx, ledger => ∃ handle, ctx = some handle ∧ handle ∉ base.opened ∧
      handle ∉ base.claimed ∧ ledger = base.lend handle

/-- Whatever else is asked leaves the library alone. -/
theorem other_completes {base ledger : Ledger} {operation : CliOp} {ctx : Option Nat}
    (hcarried : Carried base held ctx ledger)
    (hsame : ∀ reply, holding held operation reply held) :
    (do
      let reply ← @Program.perform Station (.other operation)
      return (reply, ctx) : Program Station (operation.Reply × Option Nat)).Completes stationLending
        stationProper (fun result final => ∃ next, holding held operation result.1 next ∧
          Carried base next result.2 final) ledger := by
  refine ⟨trivial, ?_⟩
  rintro reply next rfl
  exact ⟨(reply, ctx), rfl, held, hsame reply, hcarried⟩

theorem carryOut_implements {base : Ledger} (hready : base.Ready) (serial : Option String) :
    Implements carryOut holding (inTurn serial) stationLending stationProper (Carried base) := by
  intro operation held ctx ledger hcarried hturn
  cases operation with
  | usbOpen asked =>
      obtain ⟨rfl, -⟩ := hturn
      have hbase : ledger = base := hcarried
      subst hbase
      have hopening := wlLinkeOpen_lends (fun _ : true = true => hready) (asked.map textBytes)
      apply (onLibrary_completes (usbBus_completes hopening)).bind
      rintro ⟨status, opened⟩ between hlends
      cases status with
      | error status => exact .done ⟨false, rfl, hlends⟩
      | ok done => exact .done ⟨true, rfl, hlends⟩
  | usbClose =>
      have hopen : held = true := hturn
      subst hopen
      obtain ⟨handle, rfl, hopened, hclaimed, rfl⟩ := hcarried
      apply (onLibrary_completes (wlUsbClose_calls hopened hclaimed)).bind
      rintro closed between rfl
      exact .done ⟨false, rfl, rfl⟩
  | host operation =>
      cases operation with
      | usb request =>
          have hopen : held = true := hturn
          subst hopen
          obtain ⟨handle, rfl, hopened, hclaimed, rfl⟩ := hcarried
          have hheld : handle ∈ (base.lend handle).opened := Finset.mem_insert_self _ _
          have hasked := usbTransportCommand_calls hheld (Finset.mem_insert_self _ _) request
          apply (onLibrary_completes hasked).bind
          rintro reply between rfl
          exact .done ⟨true, rfl, handle, rfl, hopened, hclaimed, rfl⟩
      | _ => exact other_completes hcarried fun _ => rfl
  | _ => exact other_completes hcarried fun _ => rfl

/-- What a program leaves when it returns. -/
def Restores (program : Program Station α) (ledger final : Ledger) : Prop :=
  program.wp stationLending stationProper (fun result after => result ≠ none → after = final) ledger

theorem Restores.done (value : α) (ledger : Ledger) :
    Restores (pure value : Program Station α) ledger ledger := fun _ => rfl

theorem Restores.bind {program : Program Station α} {rest : α → Program Station β}
    {ledger between final : Ledger} (h : Restores program ledger between)
    (hrest : ∀ value, Restores (rest value) between final) :
    Restores (program >>= rest) ledger final := by
  unfold Restores
  rw [wp_bind]
  apply wp_mono h
  intro result after hafter
  cases result with
  | none => exact fun hreturns => absurd rfl hreturns
  | some value =>
      rw [hafter (Option.some_ne_none value)]
      exact hrest value

theorem Restores.of_calls {program : Program Libusb α} {ledger final : Ledger}
    (h : Calls program (fun _ after => after = final) ledger) :
    Restores (onLibrary program) ledger final := by
  apply wp_mono (onLibrary_completes h)
  rintro _ after ⟨value, rfl, hafter⟩ _
  exact hafter

theorem runSession_restores {ledger : Ledger} (hready : ledger.Ready) (fuel : Nat)
    (packet : List Byte) (opts : Options) (command : Command) :
    Restores (runSession fuel packet opts command) ledger ledger := by
  have hcarried : Carried ledger false none ledger := rfl
  have hcommand :=
    wp_implement (carryOut_implements hready opts.serial) (command.balanced fuel packet opts)
    hcarried
  unfold Restores runSession
  rw [wp_bind]
  apply wp_mono hcommand
  rintro result after ⟨held, hclosed, hafter⟩
  cases result with
  | none => exact fun hreturns => absurd rfl hreturns
  | some result =>
      obtain ⟨status, ctx⟩ := result
      have hheld : held = false := hclosed (Option.some_ne_none status)
      subst hheld
      exact fun _ => hafter status ctx rfl

theorem cmdProgrammer_restores {ledger : Ledger} (hready : ledger.Ready) (opts : Options) :
    Restores (cmdProgrammer opts) ledger ledger := by
  unfold cmdProgrammer
  dsimp only
  split
  · apply (Restores.of_calls (cmdProgrammerInfo_calls hready _)).bind
    intro status
    exact .done _ _
  split
  · apply (Restores.of_calls (cmdProgrammerList_calls hready)).bind
    intro status
    exact .done _ _
  split
  · apply (Restores.of_calls (reboot_calls hready _ .switchArmToRv)).bind
    intro status
    exact .done _ _
  split
  · apply (Restores.of_calls (reboot_calls hready _ .ejectIap)).bind
    intro status
    exact .done _ _
  · exact .done _ _

theorem cmdTarget_restores {ledger : Ledger} (hready : ledger.Ready) (fuel : Nat)
    (packet : List Byte)
    (opts : Options) : Restores (cmdTarget fuel packet opts) ledger ledger := by
  unfold cmdTarget
  split
  · exact .done _ _
  · exact runSession_restores hready fuel packet opts _

theorem mainCommand_restores {ledger : Ledger} (hready : ledger.Ready) (fuel : Nat)
    (packet : List Byte) (opts : Options) (command : String) :
    Restores (mainCommand fuel packet opts command) ledger ledger := by
  have hsession := runSession_restores hready fuel packet opts
  unfold mainCommand
  split
  · exact .done _ _
  split
  · exact hsession .info
  split
  · exact hsession .flash
  split
  · exact hsession .read
  split
  · exact cmdProgrammer_restores hready opts
  split
  · exact cmdTarget_restores hready fuel packet opts
  split
  · exact hsession .reset
  split
  · exact hsession .unbrick
  split
  · exact hsession .gdbserver
  split
  · exact hsession .terminal
  · exact .done _ _

/-! ## The whole program -/

theorem main_restores (fuel : Nat) (packet : List Byte) (args : List String) :
    Restores (main fuel packet args) .empty .empty := by
  unfold main
  split
  · exact .done _ _
  · split
    · exact .done _ _
    · refine ⟨rfl, fun reply next hnext => ?_⟩
      cases reply with
      | error code =>
          have hsame : next = .empty := hnext
          subst hsame
          exact Restores.done 1 _
      | ok done =>
          have hinitialised : next = { Ledger.empty with initialised := true } := hnext
          have hready : next.Ready := by
            rw [hinitialised]
            exact ⟨rfl, rfl, rfl⟩
          apply (mainCommand_restores hready fuel packet _ _).bind
          intro status
          refine ⟨⟨hready.initialised, hready.list, hready.opened⟩, fun reply final hfinal => ?_⟩
          have hexited : final = { next with initialised := false } := hfinal
          rw [hexited, hinitialised]
          exact Restores.done _ _

/-- A library with one programmer, which takes every request. -/
def soleProgrammer : Handler Libusb Ledger
  | .init, ledger => (.ok (), { ledger with initialised := true })
  | .exit, ledger => ((), { ledger with initialised := false })
  | .getDeviceList, ledger => (.ok 1, { ledger with list := some 1 })
  | .getDeviceDescriptor _, ledger => (.ok ⟨wlUsbVidWch, wlUsbPidLinkRv, 0, 0⟩, ledger)
  | .getBusNumber _, ledger => (1, ledger)
  | .getDeviceAddress _, ledger => (2, ledger)
  | .open _, ledger =>
      if 7 ∈ ledger.opened ∨ 7 ∈ ledger.claimed then (.error libusbErrorIo, ledger)
      else (.ok 7, { ledger with opened := insert 7 ledger.opened })
  | .getStringDescriptor _ _ _, ledger => (.ok [], ledger)
  | .setAutoDetachKernelDriver _, ledger => (.ok (), ledger)
  | .claimInterface handle, ledger =>
      (.ok (), { ledger with claimed := insert handle ledger.claimed })
  | .releaseInterface handle, ledger =>
      (.ok (), { ledger with claimed := ledger.claimed.erase handle })
  | .close handle, ledger => ((), { ledger with opened := ledger.opened.erase handle })
  | .freeDeviceList, ledger => ((), { ledger with list := none })
  | .bulkOut _ _ data, ledger => (.ok data.length, ledger)
  | .bulkIn _ _ _, ledger => (.ok [0x82, 0x0d, 0x01, 0x00], ledger)
  | .calloc, ledger => (true, ledger)
  | .sleep _, ledger => ((), ledger)

/-- The rest of the world gives nothing. -/
def nothingElse : (operation : CliOp) → operation.Reply
  | .host (.usb _) => .error libusbErrorNoDevice
  | .host .recv => .closed
  | .host (.send _) => .failed
  | .host .poll => false
  | .host (.sleep _) => ()
  | .host (.malloc _) => false
  | .host (.listen _) => false
  | .host .accept => false
  | .usbOpen _ => .error .usb
  | .usbClose => ()
  | .stat _ => none
  | .openRead _ => false
  | .fread _ => []
  | .openWrite _ => false
  | .fwrite _ => 0
  | .fclose => false
  | .print _ => 0
  | .stopped => true

def soleStation : Handler Station Ledger
  | .library operation, ledger => soleProgrammer operation ledger
  | .other operation, ledger => (nothingElse operation, ledger)

theorem soleProgrammer_lends (ledger : Ledger) (operation : LibusbOp) :
    lending ledger operation (soleProgrammer operation ledger).1
    (soleProgrammer operation ledger).2 := by
  cases operation with
  | «open» device =>
      unfold soleProgrammer
      dsimp only
      split
      · rfl
      · next hfresh => exact ⟨fun h => hfresh (.inl h), fun h => hfresh (.inr h), rfl⟩
  | _ => rfl

theorem soleStation_lends (ledger : Ledger) (operation : StationOp) (reply : operation.Reply)
    (next : Ledger) (h : soleStation.world ledger operation reply next) :
    stationLending ledger operation reply next := by
  obtain ⟨rfl, rfl⟩ := Prod.mk.inj h
  cases operation with
  | library operation => exact soleProgrammer_lends ledger operation
  | other operation => rfl

end WchLink
