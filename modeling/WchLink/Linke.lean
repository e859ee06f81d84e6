import WchLink.Interaction.Program
import WchLink.Target

/-! # The programmer's request layer

The WCH-LinkE answers every request with one reply. This module is the part of
the tool that builds those requests, decides which replies are acknowledgements
and keeps the interface setting of the open link.
-/

namespace WchLink

open Bytes Interaction

/-- The results of an operation other than `WL_OK`. -/
inductive WlErr
  | usage
  | noDevice
  | access
  | usb
  | io
  | target
  | verify
  | notImplemented
  deriving DecidableEq, Repr

/-- The transport: one request is sent and its reply collected, unless the
transport fails with a negative code. -/
abbrev Usb : PFunctor.{0, 0} := ⟨List Byte, fun _ => Except Int (List Byte)⟩

/-- Operations on the open programmer that leave the link's own fields alone. -/
abbrev Fallible : Type → Type := ExceptT WlErr (Program Usb)

/-- C's `(void)` call: the operation is run and its status dropped. -/
def ignore {α : Type} (operation : Fallible α) : Fallible Unit :=
  ExceptT.lift (operation.run >>= fun _ => pure ())

/-- Run `body`, then `cleanup` whatever `body` returned; the status is `body`'s. -/
def cleaning {α : Type} (body : Fallible α) (cleanup : Fallible Unit) : Fallible α :=
  ExceptT.mk (body.run >>= fun status => cleanup.run >>= fun _ => pure status)

/-- One open programmer. The transport itself is the environment; the link
only records whether one is set. -/
structure Link where
  transport : Bool
  isOpen : Bool
  chipId : Byte
  configured : Bool
  deriving DecidableEq, Repr

/-- A link that requests can be sent on. -/
structure Link.Usable (link : Link) : Prop where
  isOpen : link.isOpen = true
  transport : link.transport = true

/-- Operations that may update the link. An error keeps the link as it is then. -/
abbrev Linked : Type → Type := ExceptT WlErr (StateT Link (Program Usb))

instance : MonadLift Fallible Linked :=
  ⟨fun operation => ExceptT.mk (StateT.lift operation.run)⟩

/-! ## Command bytes -/

def wlCmdReg : Byte := 0x08
def wlCmdIface : Byte := 0x0c
def wlCmdControl : Byte := 0x0d
def wlCmdRun : Byte := 0x0b

def wlCtlStatus : Byte := 0x01
def wlCtlAttach : Byte := 0x02
def wlCtlResetLow : Byte := 0x13
def wlCtlRelease : Byte := 0xff

def wlRegOpRead : Byte := 0x01
def wlRegOpWrite : Byte := 0x02

def wlReplyHeader : Byte := 0x82

/-! ## Requests -/

/-- The transport's own operation. -/
def transportCommand (request : List Byte) : Program Usb (Except Int (List Byte)) :=
  @Program.perform Usb request

/-- Send one request on an open link and collect its reply. -/
def wlLinkeCommand (link : Link) (request : List Byte) : Fallible (List Byte) := do
  if !link.isOpen || !link.transport then
    throw .usb
  match ← transportCommand request with
  | .error _ => throw .usb
  | .ok reply => return reply

/-- Whether a reply is the programmer's acknowledgement rather than an error. -/
def replyOk (reply : List Byte) : Bool :=
  if reply.length = 0 then
    false
  else if reply.getD 0 0 ≠ wlReplyHeader then
    false
  else if reply.length = 9 ∧ (reply.getD 8 0 = 0x02 ∨ reply.getD 8 0 = 0x03) then
    false
  else
    true

/-- The bytes of a one-argument control request. -/
def controlRequest (command argument : Byte) : List Byte :=
  [0x81, command, 0x01, argument]

/-- Send a one-argument control command; what the reply says is the caller's
business. -/
def sendControl (link : Link) (command argument : Byte) : Fallible (List Byte) :=
  wlLinkeCommand link (controlRequest command argument)

/-- Hold the target in reset and stop its core. -/
def wlLinkeHalt (link : Link) : Fallible Unit := do
  let _ ← sendControl link wlCmdControl wlCtlAttach

/-- Leave reset, attach, release: the sequence that lets the part run. -/
def wlLinkeResume (link : Link) : Fallible Unit := do
  let _ ← sendControl link wlCmdRun 0x01
  let _ ← sendControl link wlCmdControl wlCtlAttach
  let _ ← sendControl link wlCmdControl wlCtlRelease

/-- Reset the target and let it run. -/
def wlLinkeReset (link : Link) : Fallible Unit := do
  -- the programmer only drives the reset line while it is attached
  wlLinkeHalt link
  let _ ← sendControl link wlCmdControl wlCtlResetLow
  wlLinkeResume link

/-- Recovering a part that does not answer is a reset. -/
def wlLinkeUnbrick (link : Link) : Fallible Unit := wlLinkeReset link

/-! ## The interface setting -/

/-- The bytes of a "select target family and debug clock" request. -/
def interfaceRequest (familyId interfaceSpeed : Byte) : List Byte :=
  [0x81, wlCmdIface, 0x02, familyId, interfaceSpeed]

/-- Send the raw interface setting; the caller owns the link's cached state. -/
def setInterfaceRaw (link : Link) (familyId interfaceSpeed : Byte) : Fallible Unit := do
  let reply ← wlLinkeCommand link (interfaceRequest familyId interfaceSpeed)
  if !replyOk reply then
    throw .target

/-- One detection: the generic setting, an attach, and the part its reply names. -/
def identifyChipOnce : Linked Chip := do
  setInterfaceRaw (← get) 0x01 0x02
  modify fun link => { link with configured := false }
  let reply ← sendControl (← get) wlCmdControl wlCtlAttach
  if reply.length < 6 ∨ reply.getD 0 0 ≠ wlReplyHeader ∨ reply.getD 1 0 ≠ wlCmdControl then
    throw .target
  match wlChipByDetectId (reply.getD 3 0) (reply.getD 4 0 ++ reply.getD 5 0) with
  | none => throw .target
  | some found => return found

/-- Detect the part; after a failure the target is let run and the whole
detection is tried once more. -/
def wlLinkeIdentifyChip : Linked Chip :=
  tryCatch identifyChipOnce fun _ => do
    ignore (sendControl (← get) wlCmdRun 0x01)
    ignore (sendControl (← get) wlCmdControl wlCtlRelease)
    identifyChipOnce

/-- Tell the programmer which part it is talking to, unless the link already
has. -/
def wlLinkeSetInterface (chip : Option Chip) : Linked Unit := do
  match chip with
  | none => throw .usage
  | some chip =>
      let link ← get
      if link.configured && link.chipId == chip.linkeId then
        return
      setInterfaceRaw link chip.linkeId chip.interfaceSpeed
      modify fun link => { link with chipId := chip.linkeId, configured := true }

/-! ## Debug-module registers -/

/-- The nine bytes of a register access; the value travels most significant
byte first. -/
def regRequest (reg : Byte) (value : Word) (operation : Byte) : List Byte :=
  [0x81, wlCmdReg, 0x06, reg, byteOf value 3, byteOf value 2, byteOf value 1, byteOf value 0,
    operation]

/-- The register value a nine-byte reply carries. -/
def replyValue (reply : List Byte) : Word :=
  wordLe (reply.getD 7 0) (reply.getD 6 0) (reply.getD 5 0) (reply.getD 4 0)

/-- One register access: the reply must be nine bytes long and an
acknowledgement. -/
def regAccess (link : Link) (reg : Byte) (value : Word) (operation : Byte) : Fallible Word := do
  let reply ← wlLinkeCommand link (regRequest reg value operation)
  if reply.length ≠ 9 then
    throw .target
  if !replyOk reply then
    throw .target
  return replyValue reply

/-- Read one debug-module register. -/
def wlLinkeDmiRead (link : Link) (reg : Byte) : Fallible Word :=
  regAccess link reg 0 wlRegOpRead

/-- Write one debug-module register. -/
def wlLinkeDmiWrite (link : Link) (reg : Byte) (value : Word) : Fallible Unit := do
  let _ ← regAccess link reg value wlRegOpWrite

/-! ## Attaching and detaching -/

/-- A link fresh on a chosen transport. -/
def wlLinkeAttachTransport : Link :=
  { transport := true, isOpen := true, chipId := 0, configured := false }

/-- Let the target run and forget the transport. -/
def wlLinkeDetach : StateT Link (Program Usb) Unit := do
  let link ← get
  if link.isOpen && link.transport then
    let _ ← (sendControl link wlCmdControl wlCtlRelease).run
  set { link with isOpen := false, transport := false }

end WchLink
