import Mathlib.Data.Finset.Insert
import WchLink.ProgrammerModes

/-! # The USB library

Scanning, opening and rebooting programmers are short sequences of calls to the
USB library: a device list is fetched and freed, devices of it are opened and
closed, the debug interface is claimed and released.
-/

namespace WchLink

open Bytes Interaction

namespace UsbLink

/-! ## The library's calls -/

/-- What a device says of itself. -/
structure UsbDescriptor where
  idVendor : BitVec 16
  idProduct : BitVec 16
  iSerialNumber : Byte
  iProduct : Byte

/-- One call; a device is its place in the list fetched last. -/
inductive LibusbOp
  | init
  | exit
  | getDeviceList
  | getDeviceDescriptor (device : Nat)
  | getBusNumber (device : Nat)
  | getDeviceAddress (device : Nat)
  | open (device : Nat)
  | getStringDescriptor (handle : Nat) (index : Byte) (length : Nat)
  | setAutoDetachKernelDriver (handle : Nat)
  | claimInterface (handle : Nat)
  | releaseInterface (handle : Nat)
  | close (handle : Nat)
  | freeDeviceList
  | bulkOut (handle : Nat) (endpoint : Byte) (data : List Byte)
  | bulkIn (handle : Nat) (endpoint : Byte) (length : Nat)
  | calloc
  | sleep (ms : Nat)

/-- The replies: a failure is a libusb error code, and an outgoing transfer tells how
much was sent. -/
abbrev LibusbOp.Reply : LibusbOp → Type
  | init => Except Int Unit
  | exit => Unit
  | getDeviceList => Except Int Nat
  | getDeviceDescriptor _ => Except Int UsbDescriptor
  | getBusNumber _ => Byte
  | getDeviceAddress _ => Byte
  | «open» _ => Except Int Nat
  | getStringDescriptor _ _ _ => Except Int (List Byte)
  | setAutoDetachKernelDriver _ => Except Int Unit
  | claimInterface _ => Except Int Unit
  | releaseInterface _ => Except Int Unit
  | close _ => Unit
  | freeDeviceList => Unit
  | bulkOut _ _ _ => Except Int Nat
  | bulkIn _ _ _ => Except Int (List Byte)
  | calloc => Bool
  | sleep _ => Unit

abbrev Libusb : PFunctor.{0, 0} := ⟨LibusbOp, LibusbOp.Reply⟩

def libusb (operation : LibusbOp) : Program Libusb operation.Reply :=
  @Program.perform Libusb operation

def libusbErrorIo : Int := -1
def libusbErrorNoDevice : Int := -4
def libusbErrorNoMem : Int := -11
def libusbErrorOther : Int := -99

/-! ## The context -/

/-- Initialise the library, unless it has been; `context` says whether it has. -/
def wlUsbGlobalInit (context : Bool) : Program Libusb (Except Int Unit) :=
  if context then return .ok () else libusb .init

def wlUsbGlobalExit (context : Bool) : Program Libusb Unit :=
  if context then libusb .exit else return

/-! ## Scanning -/

def wlUsbVidWch : BitVec 16 := 0x1a86
def wlUsbPidLinkRv : BitVec 16 := 0x8010
def wlUsbPidLinkArm : BitVec 16 := 0x8012
def wlUsbVidIap : BitVec 16 := 0x4348
def wlUsbPidIap : BitVec 16 := 0x55e0

def wlUsbSerialMax : Nat := 64
def wlUsbProductMax : Nat := 128

def classify (vid pid : BitVec 16) : UsbMode :=
  if vid = wlUsbVidWch ∧ pid = wlUsbPidLinkRv then .rv
  else if vid = wlUsbVidWch ∧ pid = wlUsbPidLinkArm then .arm
  else if vid = wlUsbVidIap ∧ pid = wlUsbPidIap then .iap
  else if vid = wlUsbVidWch ∧ pid = wlUsbPidIap then .iap
  else .unknown

/-- A text of the device, up to its NUL; one that cannot be read is empty. -/
def readString (handle : Nat) (index : Byte) (length : Nat) : Program Libusb (List Byte) := do
  if index = 0 then
    return []
  match ← libusb (.getStringDescriptor handle index length) with
  | .error _ => return []
  | .ok text => return (text.take (length - 1)).takeWhile (· ≠ 0)

/-- Look at one device: opening it tells whether it may be opened. -/
def describe (device : Nat) (desc : UsbDescriptor) (mode : UsbMode) : Program Libusb UsbInfo := do
  let bus ← libusb (.getBusNumber device)
  let address ← libusb (.getDeviceAddress device)
  let info : UsbInfo :=
    { UsbInfo.zero with mode, vid := desc.idVendor, pid := desc.idProduct, bus, address }
  match ← libusb (.open device) with
  | .error _ => return info
  | .ok handle =>
      let serial ← readString handle desc.iSerialNumber wlUsbSerialMax
      let product ← readString handle desc.iProduct wlUsbProductMax
      libusb (.close handle)
      return { info with accessible := true, serial, product }

/-- The loop over the device list, from `device` on. -/
def scanDevices (maxLinks : Nat) : Nat → Nat → List UsbInfo → Program Libusb (List UsbInfo)
  | 0, _, links => return links
  | remaining + 1, device, links => do
      match ← libusb (.getDeviceDescriptor device) with
      | .error _ => scanDevices maxLinks remaining (device + 1) links
      | .ok desc =>
          let mode := classify desc.idVendor desc.idProduct
          if mode = .unknown then
            scanDevices maxLinks remaining (device + 1) links
          else if links.length ≥ maxLinks then
            return links
          else
            let info ← describe device desc mode
            scanDevices maxLinks remaining (device + 1) (links ++ [info])

/-- Enumerate the bus; `context` says whether the library has been initialised. -/
def wlUsbScan (context : Bool) (maxLinks : Nat) : Program Libusb (Except Int (List UsbInfo)) := do
  if !context then
    return .error libusbErrorOther
  match ← libusb .getDeviceList with
  | .error code => return .error code
  | .ok count =>
      let links ← scanDevices maxLinks count 0 []
      libusb .freeDeviceList
      return .ok links

/-! ## Opening and closing -/

/-- Open the device a scan has reported, by its bus and address. -/
def openReported (info : UsbInfo) : Nat → Nat → Program Libusb (Except Int Nat)
  | 0, _ => return .error libusbErrorNoDevice
  | remaining + 1, device => do
      if (← libusb (.getBusNumber device)) ≠ info.bus then
        openReported info remaining (device + 1)
      else if (← libusb (.getDeviceAddress device)) ≠ info.address then
        openReported info remaining (device + 1)
      else
        libusb (.open device)

/-- Fetch the list, open the device and free the list. -/
def openListed (info : UsbInfo) : Program Libusb (Except Int Nat) := do
  match ← libusb .getDeviceList with
  | .error code => return .error code
  | .ok count =>
      let status ← openReported info count 0
      libusb .freeDeviceList
      return status

/-- Open a programmer and claim its interface. -/
def wlUsbOpen (context : Bool) (info : UsbInfo) : Program Libusb (Except Int Nat) := do
  if !context then
    return .error libusbErrorOther
  match ← openListed info with
  | .error code => return .error code
  | .ok handle =>
      let _ ← libusb (.setAutoDetachKernelDriver handle)
      match ← libusb (.claimInterface handle) with
      | .error code =>
          libusb (.close handle)
          return .error code
      | .ok () =>
          if !(← libusb .calloc) then
            let _ ← libusb (.releaseInterface handle)
            libusb (.close handle)
            return .error libusbErrorNoMem
          return .ok handle

/-- Release the interface and close a programmer. -/
def wlUsbClose (handle : Nat) : Program Libusb Unit := do
  let _ ← libusb (.releaseInterface handle)
  libusb (.close handle)

def wlUsbEpBoot : Byte := 0x02

/-- Send a bootloader command; the interface is not claimed for it. -/
def wlUsbSendBootCommand (context : Bool) (info : UsbInfo) (command : List Byte) :
    Program Libusb (Except Int Unit) := do
  if !context then
    return .error libusbErrorOther
  match ← openListed info with
  | .error code => return .error code
  | .ok handle =>
      let sent ← libusb (.bulkOut handle wlUsbEpBoot command)
      libusb (.close handle)
      match sent with
      | .error code => return .error code
      | .ok transferred =>
          if transferred ≠ command.length then
            return .error libusbErrorIo
          return .ok ()

def wlUsbSwitchArmToRv (context : Bool) (info : UsbInfo) : Program Libusb (Except Int Unit) :=
  wlUsbSendBootCommand context info [0x81, 0xff, 0x01, 0x52]

def wlUsbEjectIap (context : Bool) (info : UsbInfo) : Program Libusb (Except Int Unit) :=
  wlUsbSendBootCommand context info [0x83]

/-! ## Requests to an open programmer -/

def wlUsbEpCommand : Byte := 0x01
def wlUsbEpReply : Byte := 0x81
def wlReplyMax : Nat := 64

/-- The transport's command over an open handle. -/
def usbTransportCommand (handle : Nat) (request : List Byte) :
    Program Libusb (Except Int (List Byte)) := do
  match ← libusb (.bulkOut handle wlUsbEpCommand request) with
  | .error code => return .error code
  | .ok _ => libusb (.bulkIn handle wlUsbEpReply wlReplyMax)

/-- The most programmers a scan of the link layer takes. -/
def wlMaxLinks : Nat := 8

/-- What the link layer asks of the bus, over the library. -/
def usbBus (context : Bool) : (operation : BusOp) → Program Libusb operation.Reply
  | .scan => wlUsbScan context wlMaxLinks
  | .boot .switchArmToRv info => wlUsbSwitchArmToRv context info
  | .boot .ejectIap info => wlUsbEjectIap context info
  | .open info => wlUsbOpen context info
  | .sleep ms => libusb (.sleep ms)

/-! ## Commands on the programmer itself -/

/-- The programmer models, by what they report. -/
def programmerName (type : Byte) : String :=
  if type = 1 then "WCH-Link (CH549)"
  else if type = 2 then "WCH-Link (CH32V307)"
  else if type = 3 then "WCH-Link (CH32V203)"
  else if type = 4 then "WCH-LinkB"
  else if type = 5 then "WCH-LinkW"
  else if type = 18 then "WCH-LinkE"
  else "WCH programmer"

/-- The programmer's model and firmware version. -/
def wlLinkeGetVersion (link : Link) : Fallible String := do
  let reply ← sendControl link wlCmdControl wlCtlStatus
  if reply.length < 6 then
    throw .io
  return programmerName (reply.getD 5 0) ++ " " ++ toString (reply.getD 3 0).toNat ++ "." ++
    toString (reply.getD 4 0).toNat

/-- `programmer info`: the programmer found, and its version if it can be opened. -/
def cmdProgrammerInfo (context : Bool) (serialFilter : Option (List Byte)) :
    Program Libusb (Except WlErr (UsbInfo × Option (Except WlErr String))) := do
  match ← (wlProgrammerFind serialFilter).run.interpret (usbBus context) with
  | .error status => return .error status
  | .ok info =>
      match ← wlUsbOpen context info with
      | .error _ => return .ok (info, none)
      | .ok handle =>
          let version ← (wlLinkeGetVersion wlLinkeAttachTransport).run.interpret
            (usbTransportCommand handle)
          wlUsbClose handle
          return .ok (info, some version)

def wlMaxProgrammers : Nat := 16

/-- `programmer list` -/
def cmdProgrammerList (context : Bool) : Program Libusb (Except WlErr (List UsbInfo)) := do
  match ← wlUsbScan context wlMaxProgrammers with
  | .error _ => return .error .usb
  | .ok found => return if found.length = 0 then .error .noDevice else .ok found

/-- `programmer rv` -/
def cmdProgrammerRv (context : Bool) (serialFilter : Option (List Byte)) :
    Program Libusb (Except WlErr UsbInfo) :=
  (wlProgrammerSwitchRv serialFilter).run.interpret (usbBus context)

/-- `programmer iap` -/
def cmdProgrammerIap (context : Bool) (serialFilter : Option (List Byte)) :
    Program Libusb (Except WlErr UsbInfo) :=
  (wlProgrammerEjectIap serialFilter).run.interpret (usbBus context)

end UsbLink

end WchLink
