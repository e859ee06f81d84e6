import Mathlib.Data.List.Nodup
import WchLink.Interaction.Implement
import WchLink.UsbDevices

/-! # A bus that does not change

On a bus whose devices stay as they are, what a scan reports and what opening does can
be told from the table of devices: the programmer that is opened is the first of the
table that can be used, found again by its bus and address.
-/

namespace WchLink

open Bytes Interaction Program

namespace UsbLink

/-! ## The table -/

/-- A device on the bus, by what it answers. -/
structure UsbDevice where
  descriptor : Except Int UsbDescriptor
  bus : Byte
  address : Byte
  opens : Except Int Unit
  strings : Byte → Except Int (List Byte)
  claims : Except Int Unit
  boots : Except Int Nat

/-- A library with these devices; the handle of a device is its place in the table. -/
def staticLibrary (table : List UsbDevice) : Handler Libusb Unit
  | .init, _ => (.ok (), ())
  | .exit, _ => ((), ())
  | .getDeviceList, _ => (.ok table.length, ())
  | .getDeviceDescriptor device, _ =>
      ((table[device]?).elim (.error libusbErrorNoDevice) UsbDevice.descriptor, ())
  | .getBusNumber device, _ => ((table[device]?).elim 0 UsbDevice.bus, ())
  | .getDeviceAddress device, _ => ((table[device]?).elim 0 UsbDevice.address, ())
  | .open device, _ =>
      ((table[device]?).elim (.error libusbErrorNoDevice) fun found =>
        found.opens.map fun _ => device, ())
  | .getStringDescriptor handle index _, _ =>
      ((table[handle]?).elim (.error libusbErrorNoDevice) fun found => found.strings index, ())
  | .setAutoDetachKernelDriver _, _ => (.ok (), ())
  | .claimInterface handle, _ =>
      ((table[handle]?).elim (.error libusbErrorNoDevice) UsbDevice.claims, ())
  | .releaseInterface _, _ => (.ok (), ())
  | .close _, _ => ((), ())
  | .freeDeviceList, _ => ((), ())
  | .bulkOut handle _ _, _ =>
      ((table[handle]?).elim (.error libusbErrorNoDevice) UsbDevice.boots, ())
  | .bulkIn _ _ _, _ => (.error libusbErrorIo, ())
  | .calloc, _ => (true, ())
  | .sleep _, _ => ((), ())

/-- A text of the device. -/
def UsbDevice.text (device : UsbDevice) (index : Byte) (length : Nat) : List Byte :=
  if index = 0 then []
  else
    match device.strings index with
    | .error _ => []
    | .ok text => (text.take (length - 1)).takeWhile (· ≠ 0)

/-- What a scan says of a device; nothing of one that is no programmer. -/
def UsbDevice.report (device : UsbDevice) : Option UsbInfo :=
  match device.descriptor with
  | .error _ => none
  | .ok desc =>
      if classify desc.idVendor desc.idProduct = .unknown then none
      else
        let info : UsbInfo :=
          { UsbInfo.zero with
            mode := classify desc.idVendor desc.idProduct
            vid := desc.idVendor
            pid := desc.idProduct
            bus := device.bus
            address := device.address }
        match device.opens with
        | .error _ => some info
        | .ok () => some
            { info with
              accessible := true
              serial := device.text desc.iSerialNumber wlUsbSerialMax
              product := device.text desc.iProduct wlUsbProductMax }

/-- What a scan reports: the first programmers of the table. -/
def reported (table : List UsbDevice) : List UsbInfo :=
  (table.filterMap UsbDevice.report).take wlMaxLinks

variable {table : List UsbDevice}

/-! ## Scanning -/

theorem readString_static {device : UsbDevice} {place : Nat} (hdevice : table[place]? = some device)
    (index : Byte) (length : Nat) :
    (readString place index length).run (staticLibrary table) () =
      (some (device.text index length), ()) := by
  unfold readString UsbDevice.text
  split
  · rfl
  · have hread : (libusb (.getStringDescriptor place index length)).run (staticLibrary table) () =
        (some (device.strings index), ()) := by
      simp [libusb, perform, run, staticLibrary, hdevice]
    rw [run_bind_of_eq hread]
    cases device.strings index with
    | error code => rfl
    | ok text => rfl

theorem describe_static {device : UsbDevice} {place : Nat} {desc : UsbDescriptor}
    (hdevice : table[place]? = some device) (hdesc : device.descriptor = .ok desc)
    (hmode : classify desc.idVendor desc.idProduct ≠ .unknown) :
    ∃ info, device.report = some info ∧
      (describe place desc (classify desc.idVendor desc.idProduct)).run (staticLibrary table) () =
        (some info, ()) := by
  have hbus : (libusb (.getBusNumber place)).run (staticLibrary table) () =
      (some device.bus, ()) := by simp [libusb, perform, run, staticLibrary, hdevice]
  have haddress : (libusb (.getDeviceAddress place)).run (staticLibrary table) () =
      (some device.address, ()) := by simp [libusb, perform, run, staticLibrary, hdevice]
  have hopen : (libusb (.open place)).run (staticLibrary table) () =
      (some (device.opens.map fun _ => place), ()) := by
    simp [libusb, perform, run, staticLibrary, hdevice]
  unfold describe UsbDevice.report
  rw [hdesc]
  dsimp only
  rw [if_neg hmode, run_bind_of_eq hbus, run_bind_of_eq haddress, run_bind_of_eq hopen]
  cases device.opens with
  | error code => exact ⟨_, rfl, rfl⟩
  | ok done =>
      refine ⟨_, rfl, ?_⟩
      dsimp only [Except.map]
      rw [run_bind_of_eq (readString_static hdevice _ _),
        run_bind_of_eq (readString_static hdevice _ _)]
      rfl

/-- The loop reports what is left of the table, as far as there is room. -/
theorem scanDevices_static (maxLinks : Nat) (rest : List UsbDevice) (place : Nat)
    (hrest : table.drop place = rest) (links : List UsbInfo) (hlinks : links.length ≤ maxLinks) :
    (scanDevices maxLinks rest.length place links).run (staticLibrary table) () =
      (some (links ++ (rest.filterMap UsbDevice.report).take (maxLinks - links.length)), ()) := by
  induction rest generalizing place links with
  | nil =>
      rw [List.filterMap_nil, List.take_nil, List.append_nil]
      rfl
  | cons device rest ih =>
      have hdevice : table[place]? = some device := by
        rw [← Nat.add_zero place, ← List.getElem?_drop, hrest]
        rfl
      have hnext : table.drop (place + 1) = rest := by
        rw [← List.tail_drop, hrest]
        rfl
      have hread : (libusb (.getDeviceDescriptor place)).run (staticLibrary table) () =
          (some device.descriptor, ()) := by
        simp [libusb, perform, run, staticLibrary, hdevice]
      rw [List.length_cons]
      unfold scanDevices
      rw [run_bind_of_eq hread]
      cases hdesc : device.descriptor with
      | error code =>
          have hreport : device.report = none := by simp [UsbDevice.report, hdesc]
          rw [List.filterMap_cons_none hreport]
          exact ih (place + 1) hnext links hlinks
      | ok desc =>
          dsimp only
          by_cases hmode : classify desc.idVendor desc.idProduct = .unknown
          · have hreport : device.report = none := by simp [UsbDevice.report, hdesc, hmode]
            rw [if_pos hmode, List.filterMap_cons_none hreport]
            exact ih (place + 1) hnext links hlinks
          · obtain ⟨info, hreport, hdescribe⟩ := describe_static hdevice hdesc hmode
            rw [if_neg hmode, List.filterMap_cons_some hreport]
            by_cases hfull : links.length ≥ maxLinks
            · have hnone : maxLinks - links.length = 0 := Nat.sub_eq_zero_of_le hfull
              rw [if_pos hfull, hnone, List.take_zero, List.append_nil]
              rfl
            · have hroom : (links ++ [info]).length ≤ maxLinks := by
                rw [List.length_append, List.length_singleton]
                omega
              have hleft : maxLinks - links.length = maxLinks - (links ++ [info]).length + 1 := by
                rw [List.length_append, List.length_singleton]
                omega
              rw [if_neg hfull, run_bind_of_eq hdescribe, ih (place + 1) hnext _ hroom, hleft,
                List.take_succ_cons, List.append_assoc]
              rfl

theorem wlUsbScan_static (maxLinks : Nat) :
    (wlUsbScan true maxLinks).run (staticLibrary table) () =
      (some (.ok ((table.filterMap UsbDevice.report).take maxLinks)), ()) := by
  have hlist : (libusb .getDeviceList).run (staticLibrary table) () =
      (some (.ok table.length), ()) := rfl
  have hscan := scanDevices_static maxLinks table 0 rfl [] (Nat.zero_le maxLinks)
  unfold wlUsbScan
  simp only [Bool.not_true, Bool.false_eq_true, if_false]
  rw [run_bind_of_eq hlist]
  dsimp only
  rw [run_bind_of_eq hscan]
  rfl

/-! ## Opening -/

/-- The device at a bus and address, with its place. -/
def deviceAt (table : List UsbDevice) (bus address : Byte) : Option (Nat × UsbDevice) :=
  (table.zipIdx.find? fun entry => entry.1.bus = bus ∧ entry.1.address = address).map Prod.swap

theorem openReported_static (info : UsbInfo) (rest : List UsbDevice) (place : Nat)
    (hrest : table.drop place = rest) :
    (openReported info rest.length place).run (staticLibrary table) () =
      (some (match (rest.zipIdx place).find? fun entry =>
          entry.1.bus = info.bus ∧ entry.1.address = info.address with
        | none => .error libusbErrorNoDevice
        | some entry => entry.1.opens.map fun _ => entry.2), ()) := by
  induction rest generalizing place with
  | nil => rfl
  | cons device rest ih =>
      have hdevice : table[place]? = some device := by
        rw [← Nat.add_zero place, ← List.getElem?_drop, hrest]
        rfl
      have hnext : table.drop (place + 1) = rest := by
        rw [← List.tail_drop, hrest]
        rfl
      have hbus : (libusb (.getBusNumber place)).run (staticLibrary table) () =
          (some device.bus, ()) := by simp [libusb, perform, run, staticLibrary, hdevice]
      have haddress : (libusb (.getDeviceAddress place)).run (staticLibrary table) () =
          (some device.address, ()) := by simp [libusb, perform, run, staticLibrary, hdevice]
      rw [List.length_cons, List.zipIdx_cons, List.find?_cons]
      unfold openReported
      rw [run_bind_of_eq hbus]
      by_cases hsame : device.bus = info.bus
      · rw [if_neg (not_not.mpr hsame), run_bind_of_eq haddress]
        by_cases hplace : device.address = info.address
        · have hopen : (libusb (.open place)).run (staticLibrary table) () =
              (some (device.opens.map fun _ => place), ()) := by
            simp [libusb, perform, run, staticLibrary, hdevice]
          rw [if_neg (not_not.mpr hplace), hopen]
          simp [hsame, hplace]
        · rw [if_pos hplace, ih (place + 1) hnext]
          simp [hplace]
      · rw [if_pos hsame, ih (place + 1) hnext]
        simp [hsame]

/-- The handle of the device at the bus and address of a programmer. -/
def handleOf (table : List UsbDevice) (info : UsbInfo) : Except Int Nat :=
  match deviceAt table info.bus info.address with
  | none => .error libusbErrorNoDevice
  | some (place, device) => device.opens.map fun _ => place

theorem openListed_static (info : UsbInfo) :
    (openListed info).run (staticLibrary table) () = (some (handleOf table info), ()) := by
  have hlist : (libusb .getDeviceList).run (staticLibrary table) () =
      (some (.ok table.length), ()) := rfl
  have hopen := openReported_static info table 0 rfl
  unfold openListed
  rw [run_bind_of_eq hlist]
  dsimp only
  rw [run_bind_of_eq hopen]
  unfold handleOf deviceAt
  cases table.zipIdx.find? fun entry => entry.1.bus = info.bus ∧ entry.1.address = info.address with
  | none => rfl
  | some entry => rfl

theorem deviceAt_getElem? {bus address : Byte} {place : Nat} {device : UsbDevice}
    (h : deviceAt table bus address = some (place, device)) : table[place]? = some device := by
  unfold deviceAt at h
  obtain ⟨entry, hentry, hswap⟩ := Option.map_eq_some_iff.mp h
  cases hswap
  have hmem := List.mem_zipIdx_iff_getElem?.mp (List.mem_of_find?_eq_some hentry)
  exact hmem

/-- How opening a programmer ends. -/
def openStatus (table : List UsbDevice) (info : UsbInfo) : Except Int Nat :=
  match deviceAt table info.bus info.address with
  | none => .error libusbErrorNoDevice
  | some (place, device) =>
      match device.opens, device.claims with
      | .error code, _ => .error code
      | .ok (), .error code => .error code
      | .ok (), .ok () => .ok place

/-- How sending a bootloader command to a programmer ends. -/
def bootStatus (table : List UsbDevice) (info : UsbInfo) (command : List Byte) : Except Int Unit :=
  match deviceAt table info.bus info.address with
  | none => .error libusbErrorNoDevice
  | some (_, device) =>
      match device.opens, device.boots with
      | .error code, _ => .error code
      | .ok (), .error code => .error code
      | .ok (), .ok transferred =>
          if transferred ≠ command.length then .error libusbErrorIo else .ok ()

theorem wlUsbOpen_static (info : UsbInfo) :
    (wlUsbOpen true info).run (staticLibrary table) () = (some (openStatus table info), ()) := by
  unfold wlUsbOpen openStatus
  simp only [Bool.not_true, Bool.false_eq_true, if_false]
  rw [run_bind_of_eq (openListed_static info)]
  unfold handleOf
  cases hat : deviceAt table info.bus info.address with
  | none => rfl
  | some entry =>
      obtain ⟨place, device⟩ := entry
      have hdevice := deviceAt_getElem? hat
      dsimp only
      cases device.opens with
      | error code => rfl
      | ok done =>
          have hdetach : (libusb (.setAutoDetachKernelDriver place)).run (staticLibrary table) () =
              (some (.ok ()), ()) := rfl
          have hclaim : (libusb (.claimInterface place)).run (staticLibrary table) () =
              (some device.claims, ()) := by simp [libusb, perform, run, staticLibrary, hdevice]
          dsimp only [Except.map]
          rw [run_bind_of_eq hdetach, run_bind_of_eq hclaim]
          cases device.claims with
          | error code => rfl
          | ok done => rfl

theorem wlUsbSendBootCommand_static (info : UsbInfo) (command : List Byte) :
    (wlUsbSendBootCommand true info command).run (staticLibrary table) () =
      (some (bootStatus table info command), ()) := by
  unfold wlUsbSendBootCommand bootStatus
  simp only [Bool.not_true, Bool.false_eq_true, if_false]
  rw [run_bind_of_eq (openListed_static info)]
  unfold handleOf
  cases hat : deviceAt table info.bus info.address with
  | none => rfl
  | some entry =>
      obtain ⟨place, device⟩ := entry
      have hdevice := deviceAt_getElem? hat
      dsimp only
      cases device.opens with
      | error code => rfl
      | ok done =>
          have hsend : (libusb (.bulkOut place wlUsbEpBoot command)).run (staticLibrary table) () =
              (some device.boots, ()) := by simp [libusb, perform, run, staticLibrary, hdevice]
          have hclose : (libusb (.close place)).run (staticLibrary table) () = (some (), ()) := rfl
          dsimp only [Except.map]
          rw [run_bind_of_eq hsend, run_bind_of_eq hclose]
          cases device.boots with
          | error code => rfl
          | ok transferred =>
              by_cases hsent : transferred = command.length
              · simp [hsent]
              · simp [hsent]

/-! ## The bus of the table -/

/-- The bytes of a bootloader command. -/
def bootBytes : BootCommand → List Byte
  | .switchArmToRv => [0x81, 0xff, 0x01, 0x52]
  | .ejectIap => [0x83]

/-- A bus whose devices stay as the table has them. -/
def staticBus (table : List UsbDevice) : Handler Bus Unit
  | .scan, _ => (.ok (reported table), ())
  | .boot command info, _ => (bootStatus table info (bootBytes command), ())
  | .open info, _ => (openStatus table info, ())
  | .sleep _, _ => ((), ())

/-- What the link layer asks of the bus is answered by the library as by the table. -/
theorem usbBus_static (operation : BusOp) (state : Unit) :
    (usbBus true operation).run (staticLibrary table) state =
      (some (staticBus table operation state).1, (staticBus table operation state).2) := by
  cases operation with
  | scan => exact wlUsbScan_static wlMaxLinks
  | boot command info =>
      cases command with
      | switchArmToRv => exact wlUsbSendBootCommand_static info _
      | ejectIap => exact wlUsbSendBootCommand_static info _
  | «open» info => exact wlUsbOpen_static info
  | sleep ms => rfl

/-! ## What is sighted -/

/-- A programmer of the table, by its place, its device and what a scan says of it. -/
structure Sighting where
  place : Nat
  device : UsbDevice
  info : UsbInfo

/-- The programmers a scan reports, with their devices. -/
def sighted (table : List UsbDevice) : List Sighting :=
  (table.zipIdx.filterMap fun entry => entry.1.report.map (Sighting.mk entry.2 entry.1)).take
    wlMaxLinks

/-- The first of them in a mode that can be used under the filter. -/
def sight (serialFilter : Option (List Byte)) (mode : UsbMode) (table : List UsbDevice) :
    Option Sighting :=
  (sighted table).find? fun sighting => Candidate serialFilter mode sighting.info

theorem filterMap_report (rest : List UsbDevice) (place : Nat) :
    ((rest.zipIdx place).filterMap fun entry =>
      entry.1.report.map (Sighting.mk entry.2 entry.1)).map Sighting.info =
        rest.filterMap UsbDevice.report := by
  induction rest generalizing place with
  | nil => rfl
  | cons device rest ih =>
      rw [List.zipIdx_cons]
      cases hreport : device.report with
      | none =>
          rw [List.filterMap_cons_none hreport, List.filterMap_cons_none (by simp [hreport]), ih]
      | some info =>
          rw [List.filterMap_cons_some hreport, List.filterMap_cons_some (by simp [hreport]; rfl),
            List.map_cons, ih]

theorem reported_eq_map (table : List UsbDevice) :
    reported table = (sighted table).map Sighting.info := by
  unfold reported sighted
  rw [List.map_take, filterMap_report]

theorem first_reported (serialFilter : Option (List Byte)) (mode : UsbMode) :
    first serialFilter mode (reported table) =
      (sight serialFilter mode table).map Sighting.info := by
  rw [reported_eq_map]
  exact List.find?_map

/-- A programmer that is sighted is a device of the table, and its own report. -/
theorem sight_reports {serialFilter : Option (List Byte)} {mode : UsbMode} {sighting : Sighting}
    (h : sight serialFilter mode table = some sighting) :
    table[sighting.place]? = some sighting.device ∧
      sighting.device.report = some sighting.info ∧
        Candidate serialFilter mode sighting.info := by
  have hcandidate := List.find?_some h
  have hmem := List.mem_of_mem_take (List.mem_of_find?_eq_some h)
  obtain ⟨⟨device, place⟩, hentry, hreport⟩ := List.mem_filterMap.mp hmem
  obtain ⟨info, hinfo, rfl⟩ := Option.map_eq_some_iff.mp hreport
  exact ⟨List.mem_zipIdx_iff_getElem?.mp hentry, hinfo, of_decide_eq_true hcandidate⟩

/-- What a report keeps of its device. -/
theorem report_fields {device : UsbDevice} {info : UsbInfo} (h : device.report = some info) :
    info.bus = device.bus ∧ info.address = device.address ∧
      (info.accessible = true → device.opens = .ok ()) := by
  unfold UsbDevice.report at h
  split at h
  · cases h
  · next desc hdesc =>
      split at h
      · cases h
      · dsimp only at h
        split at h
        · cases h
          exact ⟨rfl, rfl, nofun⟩
        · next hopens =>
            cases h
            exact ⟨rfl, rfl, fun _ => hopens⟩

/-- No two devices share a bus and address. -/
def PlacesDistinct (table : List UsbDevice) : Prop :=
  (table.map fun device => (device.bus, device.address)).Nodup

/-- A device is found by its own bus and address. -/
theorem deviceAt_of_nodup
    (hdistinct : PlacesDistinct table) {place : Nat}
    {device : UsbDevice} (hdevice : table[place]? = some device) :
    deviceAt table device.bus device.address = some (place, device) := by
  have hmem : (device, place) ∈ table.zipIdx := List.mem_zipIdx_iff_getElem?.mpr hdevice
  unfold deviceAt
  cases hfound : table.zipIdx.find? fun entry =>
      entry.1.bus = device.bus ∧ entry.1.address = device.address with
  | none =>
      have hmissed := List.find?_eq_none.mp hfound _ hmem
      simp at hmissed
  | some entry =>
      obtain ⟨other, place'⟩ := entry
      have hsame : other.bus = device.bus ∧ other.address = device.address :=
        of_decide_eq_true (by simpa only using List.find?_some hfound)
      have hother : table[place']? = some other :=
        List.mem_zipIdx_iff_getElem?.mp (List.mem_of_find?_eq_some hfound)
      have hplace : place' = place := by
        obtain ⟨hlt, -⟩ := List.getElem?_eq_some_iff.mp hother
        apply (List.getElem?_inj (by rwa [List.length_map]) hdistinct).mp
        rw [List.getElem?_map, List.getElem?_map, hother, hdevice, Option.map_some, Option.map_some,
          hsame.1, hsame.2]
      subst hplace
      rw [hdevice] at hother
      cases hother
      rfl

/-! ## Opening on the bus -/

/-- A programmer that is sighted is opened by its own device. -/
theorem openStatus_sight
    (hdistinct : PlacesDistinct table)
    {serialFilter : Option (List Byte)} {mode : UsbMode} {sighting : Sighting}
    (h : sight serialFilter mode table = some sighting) :
    openStatus table sighting.info = sighting.device.claims.map fun _ => sighting.place := by
  obtain ⟨hdevice, hreport, hcandidate⟩ := sight_reports h
  obtain ⟨hbus, haddress, hopens⟩ := report_fields hreport
  have hat := deviceAt_of_nodup hdistinct hdevice
  unfold openStatus
  rw [hbus, haddress, hat]
  dsimp only
  rw [hopens hcandidate.1]
  cases sighting.device.claims with
  | error code => rfl
  | ok done => rfl

/-- What rebooting a programmer comes to, if nothing changes on the bus: a device that
takes the command is waited for in vain. -/
def rebootError (device : UsbDevice) (command : BootCommand) : WlErr :=
  match device.boots with
  | .error code => usbStatus code
  | .ok transferred => if transferred = (bootBytes command).length then .noDevice else .usb

theorem bootStatus_sight
    (hdistinct : PlacesDistinct table)
    {serialFilter : Option (List Byte)} {mode : UsbMode} {sighting : Sighting}
    (h : sight serialFilter mode table = some sighting) (command : BootCommand) :
    match bootStatus table sighting.info (bootBytes command) with
    | .error code => usbStatus code = rebootError sighting.device command
    | .ok () => rebootError sighting.device command = .noDevice := by
  obtain ⟨hdevice, hreport, hcandidate⟩ := sight_reports h
  obtain ⟨hbus, haddress, hopens⟩ := report_fields hreport
  have hat := deviceAt_of_nodup hdistinct hdevice
  unfold bootStatus rebootError
  rw [hbus, haddress, hat]
  dsimp only
  rw [hopens hcandidate.1]
  cases sighting.device.boots with
  | error code => rfl
  | ok transferred =>
      by_cases hsent : transferred = (bootBytes command).length
      · simp [hsent]
      · simp [hsent]
        rfl

/-- A request of the bus in a computation without a link. -/
theorem run_askBus {σ α : Type} {handler : Handler Bus σ} {operation : BusOp}
    {rest : operation.Reply → ExceptT WlErr (Program Bus) α} {state : σ} :
    (ExceptT.lift (onBus operation) >>= rest).run.run handler state =
      (rest (handler operation state).1).run.run handler (handler operation state).2 :=
  rfl

/-- Nothing appears on the bus while it is waited for. -/
theorem waitForMode_static {serialFilter : Option (List Byte)} {mode : UsbMode}
    (hnone : sight serialFilter mode table = none) (rounds : Nat) :
    (waitForMode mode serialFilter rounds).run.run (staticBus table) () =
      (some (.error .noDevice), ()) := by
  have hfirst : first serialFilter mode (reported table) = none := by
    rw [first_reported, hnone]
    rfl
  induction rounds with
  | zero => rfl
  | succ rounds ih =>
      unfold waitForMode
      rw [run_askBus, run_askBus]
      dsimp only [staticBus]
      rw [find_candidate, hfirst]
      exact ih

/-- How opening ends on the bus: with the first programmer in RISC-V mode if there is
one, or else with what rebooting another one comes to. -/
def openOutcome (serialFilter : Option (List Byte)) (table : List UsbDevice) :
    Except WlErr Unit × OpenLink :=
  match sight serialFilter .rv table with
  | some sighting =>
      match sighting.device.claims with
      | .error code => (.error (usbStatus code), { OpenLink.zero with info := sighting.info })
      | .ok () => (.ok (), ⟨wlLinkeAttachTransport, sighting.info, some sighting.place⟩)
  | none =>
      let error : WlErr :=
        match sight serialFilter .arm table, sight serialFilter .iap table with
        | some arm, _ => rebootError arm.device .switchArmToRv
        | none, some iap => rebootError iap.device .ejectIap
        | none, none => if reported table = [] then .noDevice else .access
      (.error error, .zero)

/-- A request of the bus in a computation with a link. -/
theorem run_onBus {σ α : Type} {handler : Handler Bus σ} {operation : BusOp}
    {rest : operation.Reply → Opening α} {own : OpenLink} {state : σ} :
    (((liftM (ExceptT.lift (onBus operation) : ExceptT WlErr (Program Bus) _) : Opening _) >>=
      rest).run.run own).run handler state =
        ((rest (handler operation state).1).run.run own).run handler (handler operation state).2 :=
  rfl

/-- A programmer that is rebooted is not seen again. -/
theorem recover_static
    (hdistinct : PlacesDistinct table)
    {serialFilter : Option (List Byte)} {mode : UsbMode} {sighting : Sighting}
    (h : sight serialFilter mode table = some sighting)
    (hnone : sight serialFilter .rv table = none) (command : BootCommand) (own : OpenLink) :
    ((recover 0 command serialFilter (some sighting.info)).run.run own).run (staticBus table) () =
      (some (.error (rebootError sighting.device command), own), ()) := by
  have hboot := bootStatus_sight hdistinct h command
  unfold recover
  simp only [ne_eq, not_true_eq_false, if_false]
  rw [run_onBus]
  dsimp only [staticBus]
  cases hstatus : bootStatus table sighting.info (bootBytes command) with
  | error code =>
      rw [hstatus] at hboot
      rw [← hboot]
      rfl
  | ok done =>
      rw [hstatus] at hboot
      have hwait := waitForMode_static hnone (wlModeSwitchWaitMs / wlModeSwitchPollMs)
      have hlifted := Program.run_liftState own hwait
      rw [hboot]
      dsimp only
      rw [ExceptT.run_bind, StateT.run_bind]
      exact Program.run_bind_of_eq hlifted

/-- With no candidate nothing is rebooted. -/
theorem recover_none (usable : Nat) (command : BootCommand) (serialFilter : Option (List Byte)) :
    recover usable command serialFilter none = pure usable := rfl

/-- What is done with the candidates of the bus. -/
theorem openFound_static
    (hdistinct : PlacesDistinct table)
    (serialFilter : Option (List Byte)) (hsome : reported table ≠ []) :
    ((openFound serialFilter ((reported table).foldl (consider serialFilter) .none)).run.run
      { OpenLink.zero with
        info := ((reported table).foldl (consider serialFilter) .none).info }).run
          (staticBus table) () = (some (openOutcome serialFilter table), ()) := by
  obtain ⟨harm, hiap, husable, hinfo⟩ := foldl_consider serialFilter (reported table) .none
  generalize (reported table).foldl (consider serialFilter) .none = candidates at *
  rw [first_reported] at harm hiap husable hinfo
  have hzero : Candidates.none.usable = 0 := rfl
  unfold openFound openOutcome
  cases hrv : sight serialFilter .rv table with
  | some sighting =>
      have hmany : candidates.usable ≠ 0 := by
        rw [hrv] at husable
        simp [husable]
      have hchosen : candidates.info = sighting.info := by
        rw [hinfo, if_pos hzero, hrv]
        rfl
      have hskip (command : BootCommand) (candidate : Option UsbInfo) :
          recover candidates.usable command serialFilter candidate = pure candidates.usable := by
        cases candidate with
        | none => rfl
        | some info => simp [recover, hmany]
      rw [hskip, pure_bind, hskip, pure_bind, hchosen]
      unfold openUsable
      rw [if_neg hmany]
      change (((liftM (ExceptT.lift (onBus (.open sighting.info)) : ExceptT WlErr (Program Bus) _) :
        Opening _) >>= _).run.run _).run _ _ = _
      rw [run_onBus]
      dsimp only [staticBus]
      rw [openStatus_sight hdistinct hrv]
      cases sighting.device.claims with
      | error code => rfl
      | ok done => rfl
  | none =>
      have hnone : candidates.usable = 0 := by
        rw [hrv] at husable
        simp [husable, hzero]
      have hunset : candidates.info = UsbInfo.zero := by
        rw [hinfo, if_pos hzero, hrv]
        rfl
      rw [harm, hiap, hnone, hunset]
      cases harm' : sight serialFilter .arm table with
      | some arm =>
          have hrebooted := recover_static hdistinct harm' hrv .switchArmToRv OpenLink.zero
          rw [ExceptT.run_bind, StateT.run_bind]
          exact Program.run_bind_of_eq hrebooted
      | none =>
          rw [Option.map_none, Option.or_none, Candidates.none, recover_none, pure_bind]
          cases hiap' : sight serialFilter .iap table with
          | some iap =>
              have hrebooted := recover_static hdistinct hiap' hrv .ejectIap OpenLink.zero
              rw [ExceptT.run_bind, StateT.run_bind]
              exact Program.run_bind_of_eq hrebooted
          | none =>
              rw [if_neg hsome]
              rfl

/-- On a bus whose devices stay as they are and have different places, opening over the
USB library opens the first programmer among those a scan reports that can be used, by
the handle of the very device that was reported, and otherwise fails as rebooting does. -/
theorem wlLinkeOpen_static
    (hdistinct : PlacesDistinct table)
    (serialFilter : Option (List Byte)) (own : OpenLink) :
    (((wlLinkeOpen serialFilter).run.run own).interpret (usbBus true)).run
        (staticLibrary table) () = (some (openOutcome serialFilter table), ()) ∧
      ∀ handle, (openOutcome serialFilter table).2.ctx = some handle → ∃ device,
        table[handle]? = some device ∧
          device.report = some (openOutcome serialFilter table).2.info := by
  constructor
  · rw [run_interpret usbBus_static]
    unfold wlLinkeOpen
    change (((liftM (ExceptT.lift (onBus .scan) : ExceptT WlErr (Program Bus) _) :
      Opening _) >>= _).run.run OpenLink.zero).run _ _ = _
    rw [run_onBus]
    dsimp only [staticBus]
    by_cases hempty : reported table = []
    · have hnothing (mode : UsbMode) : sight serialFilter mode table = none := by
        have hfirst := @first_reported table serialFilter mode
        rw [hempty] at hfirst
        exact Option.map_eq_none_iff.mp hfirst.symm
      unfold openOutcome
      rw [hnothing, hnothing, hnothing, hempty]
      rfl
    · rw [if_neg (mt List.length_eq_zero_iff.mp hempty)]
      exact openFound_static hdistinct serialFilter hempty
  · intro handle hhandle
    unfold openOutcome at hhandle ⊢
    cases hsight : sight serialFilter .rv table with
    | none =>
        rw [hsight] at hhandle
        cases hhandle
    | some sighting =>
        obtain ⟨hdevice, hreport, -⟩ := sight_reports hsight
        rw [hsight] at hhandle
        dsimp only at hhandle ⊢
        cases hclaims : sighting.device.claims with
        | error code =>
            rw [hclaims] at hhandle
            cases hhandle
        | ok done =>
            rw [hclaims] at hhandle
            cases hhandle
            exact ⟨_, hdevice, hreport⟩

/-- A programmer at an address that answers everything. -/
def presentDevice (product : BitVec 16) (address : Byte) : UsbDevice where
  descriptor := .ok ⟨wlUsbVidWch, product, 1, 0⟩
  bus := 1
  address := address
  opens := .ok ()
  strings := fun _ => .ok [0x41, address]
  claims := .ok ()
  boots := .ok 4

/-- Of three devices the middle one is opened under a filter that leaves out the last. -/
theorem wlLinkeOpen_static_middle :
    let table := [presentDevice wlUsbPidLinkArm 4, presentDevice wlUsbPidLinkRv 5,
      presentDevice wlUsbPidLinkRv 6]
    let info : UsbInfo :=
      ⟨.rv, wlUsbVidWch, wlUsbPidLinkRv, 1, 5, true, [0x41, 5], []⟩
    (((wlLinkeOpen (some [0x41, 5])).run.run .zero).interpret (usbBus true)).run
        (staticLibrary table) () =
      (some (.ok (), ⟨wlLinkeAttachTransport, info, some 1⟩), ()) := by
  intro table info
  have hdistinct : PlacesDistinct table := by
    unfold PlacesDistinct
    decide
  have houtcome : openOutcome (some [0x41, 5]) table =
      (.ok (), ⟨wlLinkeAttachTransport, info, some 1⟩) := rfl
  rw [← houtcome]
  exact (wlLinkeOpen_static hdistinct _ _).1

end UsbLink

end WchLink
