import WchLink.DebugModule

/-! # Register accesses as requests

A register access is one request on an open link. Its nine bytes say what is
accessed, and the tool tells accepted replies from the others by their length
and their first and last bytes.
-/

namespace WchLink

open Bytes Interaction

/-- A register access: which register, the value sent and the operation. -/
structure RegisterAccess where
  reg : Byte
  value : Word
  operation : Byte
  deriving DecidableEq

/-- The register access a request asks for. -/
def registerAccess (request : List Byte) : Option RegisterAccess :=
  if request.length = 9 ∧ request.getD 1 0 = wlCmdReg then
    some
      { reg := request.getD 3 0
        value := wordLe (request.getD 7 0) (request.getD 6 0) (request.getD 5 0) (request.getD 4 0)
        operation := request.getD 8 0 }
  else
    none

theorem registerAccess_regRequest (reg : Byte) (value : Word) (operation : Byte) :
    registerAccess (regRequest reg value operation) = some ⟨reg, value, operation⟩ := by
  show some (RegisterAccess.mk reg
    (wordLe (byteOf value 0) (byteOf value 1) (byteOf value 2) (byteOf value 3)) operation) = _
  rw [wordLe_byteOf]

/-- What a register access makes of a reply. -/
def regAnswer : Except Int (List Byte) → Except WlErr Word
  | .ok reply =>
      if reply.length ≠ 9 then .error .target
      else if !replyOk reply then .error .target
      else .ok (replyValue reply)
  | .error _ => .error .usb

/-- On an open link a register access is one request. -/
theorem regAccess_eq {link : Link} (hlink : link.Usable) (reg : Byte) (value : Word)
    (operation : Byte) :
    (regAccess link reg value operation).run =
      @Program.call Usb _ (regRequest reg value operation) fun reply =>
        .done (regAnswer reply) := by
  unfold regAccess wlLinkeCommand
  rw [hlink.isOpen, hlink.transport]
  refine congrArg (@Program.call Usb _ (regRequest reg value operation)) (funext fun reply => ?_)
  cases reply with
  | error code => rfl
  | ok reply =>
      show (if reply.length ≠ 9 then _ else _ : Fallible Word).run = _
      unfold regAnswer
      dsimp only
      split
      · rfl
      · split
        · rfl
        · rfl

theorem wlLinkeDmiWrite_eq {link : Link} (hlink : link.Usable) (reg : Byte) (value : Word) :
    (wlLinkeDmiWrite link reg value).run =
      @Program.call Usb _ (regRequest reg value wlRegOpWrite) fun reply =>
        .done ((regAnswer reply).map fun _ => ()) := by
  unfold wlLinkeDmiWrite
  rw [ExceptT.run_bind, regAccess_eq hlink]
  refine congrArg (@Program.call Usb _ (regRequest reg value wlRegOpWrite))
    (funext fun reply => ?_)
  dsimp only
  generalize regAnswer reply = answer
  cases answer with
  | ok word => rfl
  | error error => rfl

/-- The value of a reply that a register access takes for an acknowledgement. -/
def acknowledged (reply : Except Int (List Byte)) : Option Word := (regAnswer reply).toOption

theorem regAnswer_ok {reply : Except Int (List Byte)} {word : Word}
    (h : acknowledged reply = some word) : regAnswer reply = .ok word := by
  unfold acknowledged at h
  cases hanswer : regAnswer reply with
  | error error =>
      rw [hanswer] at h
      cases h
  | ok value =>
      rw [hanswer] at h
      cases h
      rfl

end WchLink
