import WchLink.Cli
import WchLink.Gdb.Session

/-! # What a command leaves behind

A command is observed on the line to the programmer: when it was opened and
closed, which request was the last one, whether an attach was answered and
whether the target was let go. A command either lets the target go at its end
or keeps it as soon as it has it.
-/

namespace WchLink

open Bytes Interaction

/-! ## The line to the programmer -/

/-- What the line has shown so far. -/
structure Line where
  opened : Bool
  closes : Nat
  /-- A request was made after a close. -/
  late : Bool
  last : Option (List Byte)
  /-- An attach request was answered. -/
  attached : Bool
  /-- A RELEASE or a RUN request was made. -/
  letGo : Bool
  deriving DecidableEq

namespace Line

def start : Line :=
  { opened := false, closes := 0, late := false, last := none, attached := false, letGo := false }

/-- A request on the line; `answered` says whether a reply came back. -/
def request (line : Line) (request : List Byte) (answered : Bool) : Line :=
  { line with
    late := line.late || decide (line.closes > 0)
    last := some request
    attached := line.attached ||
      (decide (request = controlRequest wlCmdControl wlCtlAttach) && answered)
    letGo := line.letGo || decide (request = controlRequest wlCmdControl wlCtlRelease) ||
      decide (request.getD 1 0 = wlCmdRun) }

/-- What one exchange adds. -/
def step (line : Line) : (operation : CliOp) → operation.Reply → Line
  | .host (.usb request), .ok _ => line.request request true
  | .host (.usb request), .error _ => line.request request false
  | .usbOpen _, .ok () => { line with opened := true }
  | .usbClose, () => { line with closes := line.closes + 1 }
  | _, _ => line

end Line

/-- Every reply is possible. -/
def observing : World Cli Line := World.tracking Line.step

/-- The commands that keep the target as they have it. -/
def Command.keepsTarget : Command → Bool
  | targetHalt | targetPc | targetRegs | targetRead32 | targetWrite32 => true
  | _ => false

/-- How a session ends: once open, the line is closed once, and nothing is
requested later. The last request is the release, unless the command keeps the
target: then an attached target is not let go at all. -/
structure Line.Settled (line : Line) (command : Command) : Prop where
  closed : line.opened = true → line.closes = 1
  quiet : line.late = false
  releases : command.keepsTarget = false → line.opened = true →
    line.last = some (controlRequest wlCmdControl wlCtlRelease)
  keeps : command.keepsTarget = true → line.attached = true → line.letGo = false

/-! ## Requests on an open line -/

/-- Opened, not closed, and nothing was requested out of turn. -/
structure Line.Open (line : Line) : Prop where
  opened : line.opened = true
  closes : line.closes = 0
  late : line.late = false

theorem Line.Open.request {line : Line} (h : line.Open) (bytes : List Byte) (answered : Bool) :
    (line.request bytes answered).Open := by
  refine ⟨h.opened, h.closes, ?_⟩
  show (line.late || decide (line.closes > 0)) = false
  rw [h.late, h.closes]
  rfl

theorem Line.Open.host {line : Line} (h : line.Open) (operation : HostOp)
    (reply : operation.Reply) : (line.step (.host operation) reply).Open := by
  cases operation with
  | usb bytes =>
      cases reply with
      | ok answer => exact h.request bytes true
      | error code => exact h.request bytes false
  | _ => exact h

/-- Whatever the machine is asked, the line stays open. -/
theorem onMachine_open {α : Type} (program : Program Host α) {line : Line} (hline : line.Open) :
    (onMachine program).wp observing (fun _ _ => True) (fun _ final => final.Open) line := by
  induction program generalizing line with
  | done value => exact hline
  | cut => exact hline
  | call operation next ih =>
      refine ⟨trivial, fun reply final hfinal => ?_⟩
      have hstep : final = line.step (.host operation) reply := hfinal
      subst hstep
      exact ih reply (hline.host operation reply)

/-- The same, with what is known of the values. -/
theorem onMachine_returns {α : Type} {program : Program Host α} {post : α → Prop} {line : Line}
    (hline : line.Open) (hpost : program.Always post) :
    (onMachine program).wp observing (fun _ _ => True)
      (fun result final => final.Open ∧ ∀ value, result = some value → post value) line :=
  Program.wp_always (onMachine_open program hline) (hpost.interpret _)

/-! ## The link stays usable -/

/-- Operations on an open programmer leave it open. -/
instance : Framed Link where
  keeps := fun before after => after.isOpen = before.isOpen ∧ after.transport = before.transport
  refl := fun _ => ⟨rfl, rfl⟩
  trans := fun h h' => ⟨h'.1.trans h.1, h'.2.trans h.2⟩

/-- Every request there is. -/
abbrev anyUsb : ProgramClass Usb := ProgramClass.everything Usb

/-- An operation that cannot touch the link. -/
theorem lift_frame {α : Type} (operation : Fallible α) :
    anyUsb.StateMem (ExceptT.mk (StateT.lift operation.run) : Linked α).run :=
  anyUsb.stateLift trivial

theorem wlLinkeSetInterface_frame (chip : Option Chip) :
    anyUsb.StateMem (wlLinkeSetInterface chip).run := by
  cases chip with
  | none => exact anyUsb.stateDone _
  | some chip =>
      refine anyUsb.andThenState (anyUsb.stateLiftOk anyUsb.stateGet) fun link => ?_
      split
      · exact anyUsb.stateDone _
      · exact anyUsb.andThenState (lift_frame _) fun _ =>
          anyUsb.stateLiftOk (anyUsb.stateModify fun _ => ⟨rfl, rfl⟩)

theorem identifyChipOnce_frame : anyUsb.StateMem identifyChipOnce.run := by
  refine anyUsb.andThenState (anyUsb.stateLiftOk anyUsb.stateGet) fun link => ?_
  refine anyUsb.andThenState (lift_frame _) fun _ => ?_
  refine anyUsb.andThenState (anyUsb.stateLiftOk (anyUsb.stateModify fun _ => ⟨rfl, rfl⟩))
    fun _ => ?_
  refine anyUsb.andThenState (anyUsb.stateLiftOk anyUsb.stateGet) fun link => ?_
  refine anyUsb.andThenState (lift_frame _) fun reply => ?_
  dsimp only
  split
  · exact anyUsb.stateDone _
  · split
    · exact anyUsb.stateDone _
    · exact anyUsb.stateDone _

theorem wlLinkeIdentifyChip_frame : anyUsb.StateMem wlLinkeIdentifyChip.run := by
  unfold wlLinkeIdentifyChip
  simp only [tryCatch, tryCatchThe, MonadExceptOf.tryCatch, ExceptT.tryCatch]
  refine anyUsb.stateBind identifyChipOnce_frame fun status => ?_
  cases status with
  | ok chip => exact anyUsb.stateDone _
  | error error =>
      refine anyUsb.andThenState (anyUsb.stateLiftOk anyUsb.stateGet) fun link => ?_
      refine anyUsb.andThenState (lift_frame _) fun _ => ?_
      refine anyUsb.andThenState (anyUsb.stateLiftOk anyUsb.stateGet) fun link => ?_
      exact anyUsb.andThenState (lift_frame _) fun _ => identifyChipOnce_frame

theorem wlLinkeReadMemory_frame (chip : Chip) (address : Word) (length : Nat) :
    anyUsb.StateMem (wlLinkeReadMemory (some chip) address length).run := by
  rw [wlLinkeReadMemory_eq]
  refine anyUsb.andThenState (wlLinkeSetInterface_frame _) fun _ => ?_
  refine anyUsb.andThenState (anyUsb.stateLiftOk anyUsb.stateGet) fun link => ?_
  refine anyUsb.andThenState (lift_frame _) fun _ => ?_
  exact anyUsb.andThenState (anyUsb.stateLiftOk anyUsb.stateGet) fun link => lift_frame _

theorem verifyChunks_frame (chip : Chip) (start : Word) (expected : List Byte)
    (length rounds done : Nat) :
    anyUsb.StateMem (verifyChunks chip start expected length rounds done).run := by
  induction rounds generalizing done with
  | zero => exact anyUsb.stateDone _
  | succ rounds ih =>
      rw [verifyChunks]
      split
      · refine anyUsb.andThenState (wlLinkeReadMemory_frame chip _ _) fun buffer => ?_
        dsimp only
        split
        · exact anyUsb.stateDone _
        · exact ih _
      · exact anyUsb.stateDone _

theorem wlFlashVerify_frame (chip : Chip) (address : Word) (image : Option (List Byte))
    (length : BitVec 64) :
    anyUsb.StateMem (wlFlashVerify (some chip) address image length).run := by
  cases image with
  | none => exact anyUsb.stateDone _
  | some image => exact verifyChunks_frame chip _ _ _ _ _

theorem wlLinkeWriteFlash_frame (chip : Chip) (address : Word) (image : Option (List Byte))
    (length : BitVec 64) (verify : Bool) :
    anyUsb.StateMem (wlLinkeWriteFlash (some chip) address image length verify).run := by
  rw [wlLinkeWriteFlash_eq]
  refine anyUsb.andThenState (wlLinkeSetInterface_frame _) fun _ => ?_
  refine anyUsb.andThenState (anyUsb.stateLiftOk anyUsb.stateGet) fun link => ?_
  refine anyUsb.andThenState (lift_frame _) fun _ => ?_
  refine anyUsb.andThenState (anyUsb.stateLiftOk anyUsb.stateGet) fun link => ?_
  refine anyUsb.andThenState (lift_frame _) fun _ => ?_
  refine anyUsb.andThenState (anyUsb.stateLiftOk ?_) fun status => ?_
  · split
    · exact wlFlashVerify_frame chip _ _ _
    · exact anyUsb.stateDone _
  · refine anyUsb.andThenState (anyUsb.stateLiftOk anyUsb.stateGet) fun link => ?_
    refine anyUsb.andThenState (lift_frame _) fun _ => ?_
    cases status with
    | ok value => exact anyUsb.stateDone _
    | error error => exact anyUsb.stateDone _

/-! ## Sessions -/

/-- A session that returns is settled. -/
def Settles {α : Type} (command : Command) (result : Option α) (line : Line) : Prop :=
  result ≠ none → line.Settled command

/-- The line once the programmer is open. -/
def Line.ready : Line := { Line.start with opened := true }

theorem Line.ready_open : Line.ready.Open := ⟨rfl, rfl, rfl⟩

theorem Line.start_settled (command : Command) : Line.start.Settled command :=
  ⟨nofun, rfl, nofun, nofun⟩

section Steps

variable {α β : Type} {command : Command} {link : Link} {line : Line}

theorem machine_then {program : Program Host α} {rest : α → Program Cli β} {post : α → Prop}
    (hline : line.Open) (hpost : program.Always post)
    (hrest : ∀ value final, post value → final.Open →
      (rest value).wp observing (fun _ _ => True) (Settles command) final) :
    (onMachine program >>= rest).wp observing (fun _ _ => True) (Settles command) line := by
  rw [Program.wp_bind]
  refine Program.wp_mono (onMachine_returns hline hpost) fun result final hfinal => ?_
  cases result with
  | none => exact fun hreturns => absurd rfl hreturns
  | some value => exact hrest value final (hfinal.2 value rfl) hfinal.1

/-- An operation of the request layer on the open programmer. -/
theorem linked_then {program : Linked α} {rest : Except WlErr α × Link → Program Cli β}
    (h : anyUsb.StateMem program.run) (hlink : link.Usable) (hline : line.Open)
    (hrest : ∀ status link' final, link'.Usable → final.Open →
      (rest (status, link')).wp observing (fun _ _ => True) (Settles command) final) :
    (onProgrammer (program.run.run link) >>= rest).wp observing (fun _ _ => True)
      (Settles command) line := by
  have husable : (onHost (program.run.run link)).Always fun result => result.2.Usable := by
    refine ((h link).2.mono fun result hkeeps => ?_).interpret viaUsb
    exact ⟨hkeeps.1.trans hlink.isOpen, hkeeps.2.trans hlink.transport⟩
  exact machine_then hline husable fun result final hresult hfinal =>
    hrest result.1 result.2 final hresult hfinal

theorem machine_any {program : Program Host α} {rest : α → Program Cli β} (hline : line.Open)
    (hrest : ∀ value final, final.Open →
      (rest value).wp observing (fun _ _ => True) (Settles command) final) :
    (onMachine program >>= rest).wp observing (fun _ _ => True) (Settles command) line :=
  machine_then hline (Program.always_true program) fun value final _ => hrest value final

theorem wlLinkeOpen_then {rest : Except WlErr Link → Program Cli β} (serial : Option String)
    (hok : (rest (.ok wlLinkeAttachTransport)).wp observing (fun _ _ => True) (Settles command)
      Line.ready)
    (herror : ∀ status, (rest (.error status)).wp observing (fun _ _ => True) (Settles command)
      Line.start) :
    (wlLinkeOpen serial >>= rest).wp observing (fun _ _ => True) (Settles command) Line.start := by
  refine ⟨trivial, fun reply final hfinal => ?_⟩
  cases reply with
  | error status =>
      have hstep : final = Line.start := hfinal
      subst hstep
      exact herror status
  | ok value =>
      have hstep : final = Line.ready := hfinal
      subst hstep
      exact hok

/-- Closed after a release, with nothing requested since. -/
structure Line.Released (line : Line) : Prop where
  closes : line.closes = 1
  late : line.late = false
  last : line.last = some (controlRequest wlCmdControl wlCtlRelease)

theorem Line.Released.settled {command : Command} (h : line.Released)
    (hlets : command.keepsTarget = false) : line.Settled command := by
  refine ⟨fun _ => h.closes, h.late, fun _ _ => h.last, fun hkeeps => ?_⟩
  rw [hlets] at hkeeps
  cases hkeeps

/-- The close that lets the target run. -/
theorem wlLinkeClose_then {rest : Unit → Program Cli β} (hlink : link.Usable) (hline : line.Open)
    (hrest : ∀ final, final.Released → final.attached = line.attached →
      (rest ()).wp observing (fun _ _ => True) (Settles command) final) :
    (wlLinkeClose link >>= rest).wp observing (fun _ _ => True) (Settles command) line := by
  obtain ⟨transport, isOpen, chipId, configured⟩ := link
  obtain ⟨rfl, rfl⟩ := hlink
  refine ⟨trivial, fun reply middle hmiddle => ?_⟩
  have hdetached : ∃ answered, middle = line.request (controlRequest wlCmdControl wlCtlRelease)
      answered := by
    cases reply with
    | ok answer => exact ⟨true, hmiddle⟩
    | error code => exact ⟨false, hmiddle⟩
  obtain ⟨answered, rfl⟩ := hdetached
  have hclosing : (ask .usbClose >>= rest).wp observing (fun _ _ => True) (Settles command)
      (line.request (controlRequest wlCmdControl wlCtlRelease) answered) := by
    refine ⟨trivial, fun reply final hfinal => ?_⟩
    have hstep : final = (line.request (controlRequest wlCmdControl wlCtlRelease) answered).step
      .usbClose () := hfinal
    subst hstep
    refine hrest _ ⟨?_, (hline.request (controlRequest wlCmdControl wlCtlRelease) answered).late,
      rfl⟩ ?_
    · show line.closes + 1 = 1
      rw [hline.closes]
    · show (line.attached || (decide (controlRequest wlCmdControl wlCtlRelease =
        controlRequest wlCmdControl wlCtlAttach) && answered)) = line.attached
      rw [decide_eq_false (by decide), Bool.false_and, Bool.or_false]
  cases reply with
  | ok answer => exact hclosing
  | error code => exact hclosing

/-- A command that closes so and returns. -/
theorem wlLinkeClose_settles (hlets : command.keepsTarget = false) (hlink : link.Usable)
    (hline : line.Open) (value : β) :
    (wlLinkeClose link >>= fun _ => pure value).wp observing (fun _ _ => True) (Settles command)
      line :=
  wlLinkeClose_then hlink hline fun _ hreleased _ _ => hreleased.settled hlets

end Steps

/-! ## Commands that let the target go -/

/-- A command that returns before it opened anything. -/
theorem pure_settles {α : Type} (command : Command) (value : α) :
    (pure value : Program Cli α).wp observing (fun _ _ => True) (Settles command) Line.start :=
  fun _ => Line.start_settled command

theorem cmdOperation_settles {command : Command} (hlets : command.keepsTarget = false)
    (operation : Link → Fallible Unit) (opts : Options) :
    (cmdOperation operation opts).wp observing (fun _ _ => True) (Settles command) Line.start := by
  refine wlLinkeOpen_then opts.serial ?_ fun status => pure_settles command _
  exact machine_any Line.ready_open fun status line hline =>
    wlLinkeClose_settles hlets ⟨rfl, rfl⟩ hline status

theorem cmdInfo_settles (opts : Options) :
    (cmdInfo opts).wp observing (fun _ _ => True) (Settles .info) Line.start := by
  unfold cmdInfo
  split
  · split
    · exact pure_settles .info _
    · exact pure_settles .info _
  · refine wlLinkeOpen_then opts.serial ?_ fun status => pure_settles .info _
    refine linked_then wlLinkeIdentifyChip_frame ⟨rfl, rfl⟩ Line.ready_open
      fun status link line hlink hline => ?_
    cases status with
    | error status => exact wlLinkeClose_settles rfl hlink hline _
    | ok chip => exact wlLinkeClose_settles rfl hlink hline _

section Resolve

variable {command : Command} {link : Link} {line : Line} {β : Type}

theorem resolveChip_then {rest : Except WlErr Chip × Link → Program Cli β} (chip : Option Chip)
    (hlink : link.Usable) (hline : line.Open)
    (hrest : ∀ status link' final, link'.Usable → final.Open →
      (rest (status, link')).wp observing (fun _ _ => True) (Settles command) final) :
    (resolveChip chip link >>= rest).wp observing (fun _ _ => True) (Settles command) line := by
  cases chip with
  | some chip => exact hrest (.ok chip) link line hlink hline
  | none => exact linked_then wlLinkeIdentifyChip_frame hlink hline hrest

end Resolve

theorem flashImage_settles (opts : Options) (chip : Option Chip) (image : List Byte) :
    (flashImage opts chip image).wp observing (fun _ _ => True) (Settles .flash) Line.start := by
  refine wlLinkeOpen_then opts.serial ?_ fun status => pure_settles .flash _
  refine resolveChip_then chip ⟨rfl, rfl⟩ Line.ready_open fun status link line hlink hline => ?_
  cases status with
  | error status => exact wlLinkeClose_settles rfl hlink hline _
  | ok chip =>
      by_cases hcan : (!wlLinkeCanFlash (some chip)) = true
      · dsimp only
        rw [if_pos hcan]
        exact wlLinkeClose_settles rfl hlink hline _
      · by_cases hrange : (!wlFlashRangeOk (some chip)
            (if opts.addressGiven then opts.address else chip.flashBase)
            (BitVec.ofNat 64 image.length)) = true
        · dsimp only
          rw [if_neg hcan, if_pos hrange]
          exact wlLinkeClose_settles rfl hlink hline _
        · dsimp only
          rw [if_neg hcan, if_neg hrange]
          refine linked_then (wlLinkeWriteFlash_frame chip _ _ _ _) hlink hline
            fun status link line hlink hline => ?_
          exact wlLinkeClose_settles rfl hlink hline status

/-- A file operation that leaves the line as it is. -/
def OffLine {α : Type} (program : Program Cli α) : Prop :=
  ∀ line : Line, program.wp observing (fun _ _ => True) (fun _ final => final = line) line

theorem OffLine.done {α : Type} (value : α) : OffLine (pure value : Program Cli α) := fun _ => rfl

theorem OffLine.bind {α β : Type} {program : Program Cli α} {rest : α → Program Cli β}
    (h : OffLine program) (hrest : ∀ value, OffLine (rest value)) : OffLine (program >>= rest) := by
  intro line
  rw [Program.wp_bind]
  refine Program.wp_mono (h line) fun result final hfinal => ?_
  cases result with
  | none => exact hfinal
  | some value =>
      subst hfinal
      exact hrest value final

theorem OffLine.ask {operation : CliOp} (h : ∀ line reply, Line.step line operation reply = line) :
    OffLine (ask operation) :=
  fun line => ⟨trivial, fun reply _ hfinal => Eq.trans hfinal (h line reply)⟩

theorem OffLine.ite {α : Type} {condition : Prop} [Decidable condition]
    {first second : Program Cli α} (hfirst : OffLine first) (hsecond : OffLine second) :
    OffLine (if condition then first else second) := by
  split
  · exact hfirst
  · exact hsecond

theorem readFile_offLine (path : String) : OffLine (readFile path) := by
  refine (OffLine.ask fun _ _ => rfl).bind fun found => ?_
  cases found with
  | none => exact .done _
  | some found =>
      refine .ite (.done _) (.ite (.done _) ?_)
      refine OffLine.bind (OffLine.ask fun _ _ => rfl) fun allocated => .ite (.done _) ?_
      refine OffLine.bind (OffLine.ask fun _ _ => rfl) fun opened => .ite (.done _) ?_
      refine OffLine.bind (OffLine.ask fun _ _ => rfl) fun data => ?_
      refine OffLine.bind (OffLine.ask fun _ _ => rfl) fun _ => .ite (.done _) (.done _)

theorem writeFile_offLine (path : String) (data : List Byte) : OffLine (writeFile path data) := by
  refine OffLine.bind (OffLine.ask fun _ _ => rfl) fun opened => .ite (.done _) ?_
  refine OffLine.bind (OffLine.ask fun _ _ => rfl) fun written => .ite ?_ ?_
  · exact OffLine.bind (OffLine.ask fun _ _ => rfl) fun _ => .done _
  · exact OffLine.bind (OffLine.ask fun _ _ => rfl) fun closed => .ite (.done _) (.done _)

theorem offLine_then {α β : Type} {command : Command} {line : Line} {program : Program Cli α}
    {rest : α → Program Cli β} (h : OffLine program)
    (hrest : ∀ value, (rest value).wp observing (fun _ _ => True) (Settles command) line) :
    (program >>= rest).wp observing (fun _ _ => True) (Settles command) line := by
  rw [Program.wp_bind]
  refine Program.wp_mono (h line) fun result final hfinal => ?_
  cases result with
  | none => exact fun hreturns => absurd rfl hreturns
  | some value =>
      subst hfinal
      exact hrest value

theorem cmdFlash_settles (opts : Options) (file : String) :
    (cmdFlash opts file).wp observing (fun _ _ => True) (Settles .flash) Line.start := by
  unfold cmdFlash
  split
  · exact pure_settles .flash _
  · next chip =>
      dsimp only
      split
      · exact pure_settles .flash _
      · refine offLine_then (readFile_offLine file) fun image => ?_
        cases image with
        | error status => exact pure_settles .flash _
        | ok image =>
            cases hchip : requireChip opts with
            | none => exact flashImage_settles opts none image
            | some part =>
                by_cases hrange : (!wlFlashRangeOk (some part)
                    (if opts.addressGiven then opts.address else part.flashBase)
                    (BitVec.ofNat 64 image.length)) = true
                · dsimp only
                  rw [if_pos hrange]
                  exact pure_settles .flash _
                · dsimp only
                  rw [if_neg hrange]
                  exact flashImage_settles opts (some part) image

theorem cmdRead_settles (opts : Options) (file : String) :
    (cmdRead opts file).wp observing (fun _ _ => True) (Settles .read) Line.start := by
  unfold cmdRead
  dsimp only
  split
  · exact pure_settles .read _
  · split
    · exact pure_settles .read _
    · refine wlLinkeOpen_then opts.serial ?_ fun status => pure_settles .read _
      refine resolveChip_then (requireChip opts) ⟨rfl, rfl⟩ Line.ready_open
        fun status link line hlink hline => ?_
      cases status with
      | error status => exact wlLinkeClose_settles rfl hlink hline _
      | ok chip =>
          refine machine_any hline fun allocated line hline => ?_
          cases allocated with
          | false => exact wlLinkeClose_settles rfl hlink hline _
          | true =>
              refine linked_then (wlLinkeReadMemory_frame chip _ _) hlink hline
                fun status link line hlink hline => ?_
              refine wlLinkeClose_then hlink hline fun final hreleased _ => ?_
              cases status with
              | error status => exact fun _ => hreleased.settled rfl
              | ok buffer =>
                  refine Program.wp_mono (writeFile_offLine file buffer final) ?_
                  rintro result after rfl _
                  exact hreleased.settled rfl

/-- The programs that keep an open line open. -/
def onLine : ProgramClass Cli := Program.preserving observing (fun _ _ => True) Line.Open

theorem onLine_machine {α : Type} (program : Program Host α) : onLine.Mem (onMachine program) :=
  fun _ hline => onMachine_open program hline

theorem onLine_offLine {α : Type} {program : Program Cli α} (h : OffLine program) :
    onLine.Mem program := by
  intro line hline
  refine Program.wp_mono (h line) ?_
  rintro result final rfl
  exact hline

theorem terminalLoop_mem (link : Link) (fuel : Nat) : onLine.Mem (terminalLoop link fuel) := by
  induction fuel with
  | zero => exact fun _ hline => hline
  | succ fuel ih =>
      unfold terminalLoop
      refine onLine.bind (onLine_offLine (OffLine.ask fun _ _ => rfl)) fun stopped => ?_
      split
      · exact onLine.done _
      · refine onLine.bind (onLine_machine _) fun status => ?_
        cases status with
        | error status => exact onLine.done _
        | ok data0 =>
            dsimp only
            split
            · exact onLine.bind (onLine_machine _) fun _ => onLine.bind (onLine_machine _) fun _ => ih
            · exact onLine.bind (onLine_machine _) fun _ => ih
            · next length _ =>
              have hprint (data1 : Word) : onLine.Mem (do
                  let _ ← onProgrammer (wlLinkeDmiWrite link wlDmiData0 0).run
                  if (← ask (.print (terminalBytes data0 data1 length))) ≠ length then
                    return .ok ()
                  terminalLoop link fuel : Program Cli (Except WlErr Unit)) := by
                refine onLine.bind (onLine_machine _) fun _ => ?_
                refine onLine.bind (onLine_offLine (OffLine.ask fun _ _ => rfl)) fun written => ?_
                split
                · exact onLine.done _
                · exact ih
              split
              · refine onLine.bind (onLine_machine _) fun data1 => ?_
                cases data1 with
                | error status => exact onLine.done _
                | ok data1 => exact onLine.bind (onLine_machine _) fun _ => hprint data1
              · exact hprint 0

/-- Polling, and then the end of the command. -/
theorem terminalLoop_then {β : Type} {command : Command} {link : Link} {line : Line} {fuel : Nat}
    {rest : Except WlErr Unit → Program Cli β} (hline : line.Open)
    (hrest : ∀ status final, final.Open →
      (rest status).wp observing (fun _ _ => True) (Settles command) final) :
    (terminalLoop link fuel >>= rest).wp observing (fun _ _ => True) (Settles command) line := by
  rw [Program.wp_bind]
  refine Program.wp_mono (terminalLoop_mem link fuel line hline) fun result final hfinal => ?_
  cases result with
  | none => exact fun hreturns => absurd rfl hreturns
  | some status => exact hrest status final hfinal

theorem cmdTerminal_settles (fuel : Nat) (opts : Options) :
    (cmdTerminal fuel opts).wp observing (fun _ _ => True) (Settles .terminal) Line.start := by
  unfold cmdTerminal
  split
  · exact pure_settles .terminal _
  · refine wlLinkeOpen_then opts.serial ?_ fun status => pure_settles .terminal _
    refine resolveChip_then (requireChip opts) ⟨rfl, rfl⟩ Line.ready_open
      fun status link line hlink hline => ?_
    cases status with
    | error status => exact wlLinkeClose_settles rfl hlink hline _
    | ok chip =>
        refine linked_then (wlLinkeSetInterface_frame _) hlink hline
          fun status link line hlink hline => ?_
        cases status with
        | error status => exact wlLinkeClose_settles rfl hlink hline _
        | ok value =>
            have hpolling (line : Line) (hline : line.Open) : (do
                let status ← terminalLoop link fuel
                wlLinkeClose link
                return status : Program Cli (Except WlErr Unit)).wp observing (fun _ _ => True)
                (Settles .terminal) line :=
              terminalLoop_then hline fun status final hfinal =>
                wlLinkeClose_settles rfl hlink hfinal status
            dsimp only
            split
            · refine machine_any hline fun status line hline => ?_
              cases status with
              | error status => exact wlLinkeClose_settles rfl hlink hline _
              | ok value => exact hpolling line hline
            · exact hpolling line hline

theorem gdbServerOpened_settles (fuel : Nat) {link : Link} (hlink : link.Usable) (chip : Chip)
    (port : BitVec 16) (packet : List Byte) {line : Line} (hline : line.Open) :
    (gdbServerOpened fuel link chip port packet).wp observing (fun _ _ => True)
      (Settles .gdbserver) line := by
  refine linked_then (wlLinkeSetInterface_frame _) hlink hline fun status link line hlink hline => ?_
  cases status with
  | error status => exact wlLinkeClose_settles rfl hlink hline _
  | ok value =>
      refine machine_any hline fun status line hline => ?_
      cases status with
      | error status => exact wlLinkeClose_settles rfl hlink hline _
      | ok value =>
          refine machine_any hline fun _ line hline => ?_
          refine machine_any hline fun listening line hline => ?_
          cases listening with
          | false => exact wlLinkeClose_settles rfl hlink hline _
          | true =>
              refine machine_any hline fun accepted line hline => ?_
              cases accepted with
              | false => exact wlLinkeClose_settles rfl hlink hline _
              | true =>
                  exact machine_any hline fun _ line hline =>
                    wlLinkeClose_settles rfl hlink hline _

theorem cmdGdbserver_settles (fuel : Nat) (packet : List Byte) (opts : Options) :
    (cmdGdbserver fuel packet opts).wp observing (fun _ _ => True) (Settles .gdbserver)
      Line.start := by
  unfold cmdGdbserver
  split
  · exact pure_settles .gdbserver _
  · refine wlLinkeOpen_then opts.serial ?_ fun status => pure_settles .gdbserver _
    exact gdbServerOpened_settles fuel ⟨rfl, rfl⟩ _ opts.port packet Line.ready_open

/-! ## Commands that keep the target -/

/-- Open, with the target not let go. -/
structure Line.Held (line : Line) : Prop extends line.Open where
  letGo : line.letGo = false

/-- The programs that keep a target held. -/
def keepingTarget : ProgramClass Cli :=
  Program.preserving observing (fun _ _ => True) Line.Held

/-- The same of the request layer's programs. -/
def keepingUsb : ProgramClass Usb :=
  @ProgramClass.comap Usb Host (@ProgramClass.comap Host Cli keepingTarget
    fun operation => ask (.host operation)) viaUsb

/-- A request that lets nothing go. -/
theorem Line.Held.request {line : Line} (h : line.Held) {bytes : List Byte} (answered : Bool)
    (hrelease : bytes ≠ controlRequest wlCmdControl wlCtlRelease)
    (hrun : bytes.getD 1 0 ≠ wlCmdRun) : (line.request bytes answered).Held := by
  refine ⟨h.toOpen.request bytes answered, ?_⟩
  show (line.letGo || decide (bytes = controlRequest wlCmdControl wlCtlRelease) ||
    decide (bytes.getD 1 0 = wlCmdRun)) = false
  rw [h.letGo, decide_eq_false hrelease, decide_eq_false hrun]
  rfl

theorem keepingUsb_request {bytes : List Byte}
    (hrelease : bytes ≠ controlRequest wlCmdControl wlCtlRelease)
    (hrun : bytes.getD 1 0 ≠ wlCmdRun) : keepingUsb.Mem (transportCommand bytes) := by
  intro line hline
  refine ⟨trivial, fun reply final hfinal => ?_⟩
  cases reply with
  | ok answer =>
      have hstep : final = line.request bytes true := hfinal
      subst hstep
      exact hline.request true hrelease hrun
  | error code =>
      have hstep : final = line.request bytes false := hfinal
      subst hstep
      exact hline.request false hrelease hrun

/-- Requests of other lengths than a control request's. -/
theorem regRequest_ne_control (reg : Byte) (value : Word) (operation command argument : Byte) :
    regRequest reg value operation ≠ controlRequest command argument := by
  intro h
  exact absurd (congrArg List.length h) (Nat.ne_of_gt (by exact (by decide : 4 < 9)))

theorem interfaceRequest_ne_control (familyId interfaceSpeed command argument : Byte) :
    interfaceRequest familyId interfaceSpeed ≠ controlRequest command argument := by
  intro h
  exact absurd (congrArg List.length h) (Nat.ne_of_gt (by exact (by decide : 4 < 5)))

theorem keepingUsb_register (reg : Byte) (value : Word) (operation : Byte) :
    keepingUsb.Mem (transportCommand (regRequest reg value operation)) :=
  keepingUsb_request (regRequest_ne_control reg value operation _ _)
    (by exact (by decide : wlCmdReg ≠ wlCmdRun))

theorem readRegs_mem (link : Link) (reg count : Nat) :
    keepingUsb.Mem (readRegs link reg count).run := by
  induction count generalizing reg with
  | zero => exact keepingUsb.ok ()
  | succ count ih =>
      exact keepingUsb.andThen
        (wlDmGprRead_mem (hasCommands_of_requests keepingUsb keepingUsb_register link) _)
        fun _ => ih (reg + 1)

section Keep

variable {command : Command} {link : Link} {line : Line} {β : Type}

/-- Nothing is requested after a close, and an attached target was kept. -/
theorem Line.settled_of_kept (hkeeps : command.keepsTarget = true) (hcloses : line.closes = 1)
    (hlate : line.late = false) (hkept : line.attached = true → line.letGo = false) :
    line.Settled command := by
  refine ⟨fun _ => hcloses, hlate, fun hlets => ?_, fun _ => hkept⟩
  rw [hkeeps] at hlets
  cases hlets

/-- The close that keeps the target. -/
theorem wlLinkeCloseKeepTarget_settles (hkeeps : command.keepsTarget = true) (hline : line.Held)
    (value : β) :
    (wlLinkeCloseKeepTarget >>= fun _ => pure value).wp observing (fun _ _ => True)
      (Settles command) line := by
  refine ⟨trivial, fun reply final hfinal _ => ?_⟩
  have hstep : final = line.step .usbClose () := hfinal
  subst hstep
  refine Line.settled_of_kept hkeeps ?_ hline.late fun _ => hline.letGo
  show line.closes + 1 = 1
  rw [hline.closes]

/-- Where no attach was answered the target may be let go. -/
theorem wlLinkeClose_unattached (hkeeps : command.keepsTarget = true) (hlink : link.Usable)
    (hline : line.Open) (hunattached : line.attached = false) (value : β) :
    (wlLinkeClose link >>= fun _ => pure value).wp observing (fun _ _ => True) (Settles command)
      line := by
  refine wlLinkeClose_then hlink hline fun final hreleased hattached _ => ?_
  refine Line.settled_of_kept hkeeps hreleased.closes hreleased.late fun h => ?_
  rw [hattached, hunattached] at h
  cases h

/-- An attach that fails on the way was not answered. -/
theorem wlLinkeHalt_line (hlink : link.Usable) (hline : line.Held)
    (hunattached : line.attached = false) :
    (onProgrammer (wlLinkeHalt link).run).wp observing (fun _ _ => True) (fun result final =>
      final.Held ∧ ∀ error, result = some (.error error) → final.attached = false) line := by
  obtain ⟨transport, isOpen, chipId, configured⟩ := link
  obtain ⟨rfl, rfl⟩ := hlink
  refine ⟨trivial, fun reply final hfinal => ?_⟩
  cases reply with
  | ok answer =>
      have hstep : final = line.request (controlRequest wlCmdControl wlCtlAttach) true := hfinal
      subst hstep
      exact ⟨hline.request true (by decide) (by decide), fun error herror => by cases herror⟩
  | error code =>
      have hstep : final = line.request (controlRequest wlCmdControl wlCtlAttach) false := hfinal
      subst hstep
      refine ⟨hline.request false (by decide) (by decide), fun _ _ => ?_⟩
      show (line.attached || (_ && false)) = false
      rw [hunattached, Bool.and_false, Bool.or_false]

end Keep

theorem Line.ready_held : Line.ready.Held := ⟨Line.ready_open, rfl⟩

theorem cmdTargetHalt_settles (opts : Options) :
    (cmdTargetHalt opts).wp observing (fun _ _ => True) (Settles .targetHalt) Line.start := by
  refine wlLinkeOpen_then opts.serial ?_ fun status => pure_settles .targetHalt _
  rw [Program.wp_bind]
  refine Program.wp_mono (wlLinkeHalt_line ⟨rfl, rfl⟩ Line.ready_held rfl) fun result line hline => ?_
  cases result with
  | none => exact fun hreturns => absurd rfl hreturns
  | some status => exact wlLinkeCloseKeepTarget_settles rfl hline.1 status

/-- Held, with no attach answered yet. -/
def Line.Unattached (line : Line) : Prop := line.Held ∧ line.attached = false

/-- The request layer's programs that attach nothing. -/
def unattachedUsb : ProgramClass Usb :=
  @ProgramClass.comap Usb Host (@ProgramClass.comap Host Cli
    (Program.preserving observing (fun _ _ => True) Line.Unattached)
    fun operation => ask (.host operation)) viaUsb

theorem unattachedUsb_interface (familyId interfaceSpeed : Byte) :
    unattachedUsb.Mem (transportCommand (interfaceRequest familyId interfaceSpeed)) := by
  intro line hline
  refine ⟨trivial, fun reply final hfinal => ?_⟩
  have hrequest (answered : Bool) :
      (line.request (interfaceRequest familyId interfaceSpeed) answered).Unattached := by
    refine ⟨hline.1.request answered (interfaceRequest_ne_control _ _ _ _)
      (by exact (by decide : wlCmdIface ≠ wlCmdRun)), ?_⟩
    show (line.attached || (decide (interfaceRequest familyId interfaceSpeed =
      controlRequest wlCmdControl wlCtlAttach) && answered)) = false
    rw [hline.2, decide_eq_false (interfaceRequest_ne_control _ _ _ _)]
    rfl
  cases reply with
  | ok answer =>
      have hstep : final = line.request (interfaceRequest familyId interfaceSpeed) true := hfinal
      subst hstep
      exact hrequest true
  | error code =>
      have hstep : final = line.request (interfaceRequest familyId interfaceSpeed) false := hfinal
      subst hstep
      exact hrequest false

section Debug

variable {command : Command} (hkeeps : command.keepsTarget = true)

include hkeeps

/-- The part is held, or the session is over. -/
theorem openTargetDebug_then {β : Type} (opts : Options)
    {rest : Except WlErr (Link × Chip) → Program Cli β}
    (hok : ∀ link chip line, line.Held →
      (rest (.ok (link, chip))).wp observing (fun _ _ => True) (Settles command) line)
    (herror : ∀ status, ∃ value, rest (.error status) = pure value) :
    (openTargetDebug opts >>= rest).wp observing (fun _ _ => True) (Settles command)
      Line.start := by
  have hfailed (status : WlErr) (line : Line) (hline : line.Settled command) :
      (rest (.error status)).wp observing (fun _ _ => True) (Settles command) line := by
    obtain ⟨value, hvalue⟩ := herror status
    rw [hvalue]
    exact fun _ => hline
  unfold openTargetDebug
  cases requireChip opts with
  | none => exact hfailed _ _ (Line.start_settled command)
  | some resolved =>
      dsimp only
      rw [bind_assoc]
      refine wlLinkeOpen_then opts.serial ?_ fun status =>
        hfailed status _ (Line.start_settled command)
      have hselect : (onProgrammer ((wlLinkeSetInterface (some resolved)).run.run
          wlLinkeAttachTransport)).wp observing (fun _ _ => True) (fun result final =>
            final.Unattached ∧ ∀ value, result = some value → value.2.Usable) Line.ready := by
        refine Program.wp_always (wlLinkeSetInterface_mem unattachedUsb
          (unattachedUsb_interface _ _) Line.ready ⟨Line.ready_held, rfl⟩) ?_
        have hframe : ((wlLinkeSetInterface (some resolved)).run.run
            wlLinkeAttachTransport).Always fun result => result.2.Usable :=
          ((wlLinkeSetInterface_frame (some resolved)) wlLinkeAttachTransport).2.mono
            fun result hkeeps => ⟨hkeeps.1, hkeeps.2⟩
        exact (hframe.interpret viaUsb).interpret fun operation => ask (.host operation)
      dsimp only
      rw [bind_assoc, Program.wp_bind]
      refine Program.wp_mono hselect fun result line hline => ?_
      obtain ⟨⟨hheld, hunattached⟩, husable⟩ := hline
      cases result with
      | none => exact fun hreturns => absurd rfl hreturns
      | some result =>
          obtain ⟨status, link⟩ := result
          have hlink := husable _ rfl
          have hreleased (status : WlErr) {line : Line} (hheld : line.Held)
              (hunattached : line.attached = false) :
              ((wlLinkeClose link >>= fun _ => pure (.error status)) >>= rest).wp observing
                (fun _ _ => True) (Settles command) line := by
            rw [bind_assoc]
            refine wlLinkeClose_then hlink hheld.toOpen fun final hclosed hattached => ?_
            refine hfailed status final (Line.settled_of_kept hkeeps hclosed.closes hclosed.late
              fun h => ?_)
            rw [hattached, hunattached] at h
            cases h
          cases status with
          | error status => exact hreleased status hheld hunattached
          | ok value =>
              dsimp only
              rw [bind_assoc, Program.wp_bind]
              refine Program.wp_mono (wlLinkeHalt_line hlink hheld hunattached)
                fun result line hline => ?_
              cases result with
              | none => exact fun hreturns => absurd rfl hreturns
              | some status =>
                  cases status with
                  | error status => exact hreleased status hline.1 (hline.2 status rfl)
                  | ok value => exact hok link resolved line hline.1

theorem cmdDebug_settles {α : Type} {operation : Link → Chip → Fallible α}
    (hoperation : ∀ link chip, keepingUsb.Mem (operation link chip).run) (opts : Options) :
    (cmdDebug operation opts).wp observing (fun _ _ => True) (Settles command) Line.start := by
  refine openTargetDebug_then hkeeps opts (fun link chip line hline => ?_) fun status => ⟨_, rfl⟩
  dsimp only
  rw [Program.wp_bind]
  refine Program.wp_mono (hoperation link chip line hline) fun result line hline => ?_
  cases result with
  | none => exact fun hreturns => absurd rfl hreturns
  | some status => exact wlLinkeCloseKeepTarget_settles hkeeps hline _

end Debug

/-! ## Every command -/

theorem Command.settles (fuel : Nat) (packet : List Byte) (opts : Options) (command : Command) :
    (command.run fuel packet opts).wp observing (fun _ _ => True) (Settles command) Line.start := by
  have hcommands := hasCommands_of_requests keepingUsb keepingUsb_register
  have haccesses := hasAccesses_of_requests keepingUsb keepingUsb_register
  cases command with
  | info => exact cmdInfo_settles opts
  | flash =>
      unfold Command.run
      dsimp only
      cases opts.file with
      | none => exact pure_settles .flash _
      | some file => exact cmdFlash_settles opts file
  | read =>
      unfold Command.run
      dsimp only
      cases opts.file with
      | none => exact pure_settles .read _
      | some file => exact cmdRead_settles opts file
  | reset => exact cmdOperation_settles rfl _ opts
  | unbrick => exact cmdOperation_settles rfl _ opts
  | targetHalt => exact cmdTargetHalt_settles opts
  | targetResume => exact cmdOperation_settles rfl _ opts
  | targetReset => exact cmdOperation_settles rfl _ opts
  | targetPc => exact cmdDebug_settles rfl (fun link _ => wlDmPcRead_mem (hcommands link)) opts
  | targetRegs =>
      exact cmdDebug_settles rfl (fun link chip => keepingUsb.andThen
        (wlDmPcRead_mem (hcommands link)) fun _ => readRegs_mem link 0 _) opts
  | targetRead32 =>
      show (cmdTargetRead32 opts).wp _ _ _ _
      unfold cmdTargetRead32
      split
      · split
        · exact pure_settles .targetRead32 _
        · exact cmdDebug_settles rfl (fun link _ => wlDmRead32_mem (haccesses link).toHasLoads _) opts
      · exact pure_settles .targetRead32 _
  | targetWrite32 =>
      show (cmdTargetWrite32 opts).wp _ _ _ _
      unfold cmdTargetWrite32
      split
      · split
        · exact cmdDebug_settles rfl (fun link _ => wlDmWrite32_mem (haccesses link) _ _) opts
        · exact pure_settles .targetWrite32 _
      · exact pure_settles .targetWrite32 _
  | terminal => exact cmdTerminal_settles fuel opts
  | gdbserver => exact cmdGdbserver_settles fuel packet opts

end WchLink
