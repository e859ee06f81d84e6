import WchLink.Cli
import WchLink.Interaction.ProgramClass

/-! # The turns of a command

Every command opens the programmer its options name at most once, asks it for something
only while it is open, and closes it, on every way out.
-/

namespace WchLink

open Bytes Interaction Program

/-- Whether a command has a programmer open. -/
def holding : World Cli Bool
  | _, .usbOpen _, .ok (), next => next = true
  | _, .usbClose, _, next => next = false
  | held, _, _, next => next = held

/-- The programmer named is opened when none is, and asked and closed when one is. -/
def inTurn (serial : Option String) : Guard Cli Bool
  | held, .usbOpen asked => held = false ∧ asked = serial
  | held, .usbClose => held = true
  | held, .host (.usb _) => held = true
  | _, _ => True

/-- The programs that leave a programmer open or closed as they find it. -/
abbrev keepingOpen (serial : Option String) (held : Bool) : ProgramClass Cli :=
  preserving holding (inTurn serial) fun state => state = held

/-- Requests in turn, to the close. -/
def Balanced {α : Type} (serial : Option String) (program : Program Cli α) (held : Bool) :
    Prop :=
  program.wp holding (inTurn serial) (fun result final => result ≠ none → final = false) held

variable {α β : Type} {serial : Option String} {held : Bool}

theorem Balanced.done (value : α) : Balanced serial (pure value) false := fun _ => rfl

theorem Balanced.after {program : Program Cli α} {rest : α → Program Cli β}
    (h : (keepingOpen serial held).Mem program)
    (hrest : ∀ value, Balanced serial (rest value) held) :
    Balanced serial (program >>= rest) held := by
  unfold Balanced
  rw [wp_bind]
  apply wp_mono (h held rfl)
  rintro result _ rfl
  cases result with
  | none => exact fun hreturns => absurd rfl hreturns
  | some value => exact hrest value

/-- What is asked of the open programmer and of the machine. -/
theorem onMachine_keepsOpen (program : Program Host α) :
    (keepingOpen serial true).Mem (onMachine program) := by
  rintro _ rfl
  induction program with
  | done value => rfl
  | cut => rfl
  | call operation next ih =>
      have hallowed : inTurn serial true (.host operation) := by
        cases operation <;> trivial
      refine ⟨hallowed, fun reply final hfinal => ?_⟩
      have hsame : final = true := hfinal
      subst hsame
      exact ih reply

theorem Balanced.opening {rest : Except WlErr Link → Program Cli β}
    (hok : Balanced serial (rest (.ok wlLinkeAttachTransport)) true)
    (herror : ∀ status, Balanced serial (rest (.error status)) false) :
    Balanced serial (wlLinkeOpen serial >>= rest) false := by
  refine ⟨⟨rfl, rfl⟩, fun reply final hfinal => ?_⟩
  cases reply with
  | ok done =>
      have hopened : final = true := hfinal
      subst hopened
      exact hok
  | error status =>
      have hsame : final = false := hfinal
      subst hsame
      exact herror status

theorem Balanced.closing {rest : Unit → Program Cli β} (link : Link)
    (hrest : Balanced serial (rest ()) false) :
    Balanced serial (wlLinkeClose link >>= rest) true := by
  unfold wlLinkeClose
  rw [bind_assoc]
  apply Balanced.after (onMachine_keepsOpen _)
  intro result
  refine ⟨rfl, fun reply final hfinal => ?_⟩
  have hclosed : final = false := hfinal
  subst hclosed
  exact hrest

theorem Balanced.closed (link : Link) (value : α) :
    Balanced serial (wlLinkeClose link >>= fun _ => pure value) true := .closing link (.done value)

theorem Balanced.closedKeepTarget (value : α) :
    Balanced serial (wlLinkeCloseKeepTarget >>= fun _ => pure value) true := by
  refine ⟨rfl, fun reply final hfinal => ?_⟩
  have hclosed : final = false := hfinal
  subst hclosed
  exact Balanced.done value

/-! ## Files -/

/-- A request that has nothing to do with the programmer. -/
def Aside : CliOp → Prop
  | .usbOpen _ | .usbClose | .host _ => False
  | _ => True

theorem ask_keepsOpen {operation : CliOp} (haside : Aside operation) :
    (keepingOpen serial held).Mem (ask operation) := by
  rintro _ rfl
  cases operation with
  | usbOpen serial => exact haside.elim
  | usbClose => exact haside.elim
  | host operation => exact haside.elim
  | _ => exact ⟨trivial, fun _ _ hfinal => hfinal⟩

theorem asking_keepsOpen {operation : CliOp} {rest : operation.Reply → Program Cli α}
    (haside : Aside operation) (hrest : ∀ reply, (keepingOpen serial held).Mem (rest reply)) :
    (keepingOpen serial held).Mem (ask operation >>= rest) :=
  (keepingOpen serial held).bind (ask_keepsOpen haside) hrest

theorem malloc_keepsOpen (size : Nat) :
    (keepingOpen serial held).Mem (onMachine (request (.malloc size))) := by
  rintro _ rfl
  exact ⟨trivial, fun _ _ hfinal => hfinal⟩

theorem readFile_keepsOpen (path : String) : (keepingOpen serial held).Mem (readFile path) := by
  have hdone (status : Except WlErr (List Byte)) : (keepingOpen serial held).Mem (pure status) :=
    (keepingOpen serial held).done status
  apply asking_keepsOpen
  · trivial
  intro found
  cases found with
  | none => exact hdone _
  | some found =>
      dsimp only
      split
      · exact hdone _
      split
      · exact hdone _
      apply (keepingOpen serial held).bind (malloc_keepsOpen _)
      intro allocated
      split
      · exact hdone _
      apply asking_keepsOpen
      · trivial
      intro opened
      split
      · exact hdone _
      apply asking_keepsOpen
      · trivial
      intro data
      apply asking_keepsOpen
      · trivial
      intro closed
      split
      · exact hdone _
      · exact hdone _

theorem writeFile_keepsOpen (path : String) (data : List Byte) :
    (keepingOpen serial held).Mem (writeFile path data) := by
  have hdone (status : Except WlErr Unit) : (keepingOpen serial held).Mem (pure status) :=
    (keepingOpen serial held).done status
  apply asking_keepsOpen
  · trivial
  intro opened
  split
  · exact hdone _
  apply asking_keepsOpen
  · trivial
  intro written
  split
  · apply asking_keepsOpen
    · trivial
    intro closed
    exact hdone _
  · apply asking_keepsOpen
    · trivial
    intro closed
    split
    · exact hdone _
    · exact hdone _

/-! ## Every command -/

theorem Balanced.resolving {rest : Except WlErr Chip × Link → Program Cli β} (chip : Option Chip)
    (link : Link) (hrest : ∀ result, Balanced serial (rest result) true) :
    Balanced serial (resolveChip chip link >>= rest) true := by
  cases chip with
  | some chip => exact hrest (.ok chip, link)
  | none => exact .after (onMachine_keepsOpen _) hrest

theorem Balanced.machine {program : Program Host α} {rest : α → Program Cli β}
    (hrest : ∀ value, Balanced serial (rest value) true) :
    Balanced serial (onMachine program >>= rest) true :=
  .after (onMachine_keepsOpen program) hrest

theorem cmdOperation_balanced (operation : Link → Fallible Unit) (opts : Options) :
    Balanced opts.serial (cmdOperation operation opts) false := by
  apply Balanced.opening
  · apply Balanced.machine
    intro status
    exact .closed _ _
  · intro status
    exact Balanced.done _

theorem cmdInfo_balanced (opts : Options) : Balanced opts.serial (cmdInfo opts) false := by
  unfold cmdInfo
  split
  · split
    · exact .done _
    · exact .done _
  · apply Balanced.opening
    · apply Balanced.machine
      rintro ⟨status, link⟩
      cases status with
      | error status => exact .closed _ _
      | ok chip => exact .closed _ _
    · intro status
      exact Balanced.done _

theorem flashImage_balanced (opts : Options) (chip : Option Chip) (image : List Byte) :
    Balanced opts.serial (flashImage opts chip image) false := by
  apply Balanced.opening
  · apply Balanced.resolving
    rintro ⟨status, link⟩
    cases status with
    | error status => exact .closed _ _
    | ok chip =>
        dsimp only
        split
        · exact .closed _ _
        generalize (if opts.addressGiven then opts.address else chip.flashBase) = address
        split
        · exact .closed _ _
        apply Balanced.machine
        rintro ⟨status, link⟩
        exact .closed _ _
  · intro status
    exact Balanced.done _

theorem cmdFlash_balanced (opts : Options) (file : String) :
    Balanced opts.serial (cmdFlash opts file) false := by
  unfold cmdFlash
  split
  · exact .done _
  · dsimp only
    split
    · exact .done _
    apply Balanced.after (readFile_keepsOpen file)
    intro image
    cases image with
    | error status => exact .done _
    | ok image =>
        cases requireChip opts with
        | none => exact flashImage_balanced opts none image
        | some part =>
            dsimp only
            generalize (if opts.addressGiven then opts.address else part.flashBase) = address
            split
            · exact .done _
            · exact flashImage_balanced opts (some part) image

theorem cmdRead_balanced (opts : Options) (file : String) :
    Balanced opts.serial (cmdRead opts file) false := by
  unfold cmdRead
  dsimp only
  split
  · exact .done _
  split
  · exact .done _
  apply Balanced.opening
  · apply Balanced.resolving
    rintro ⟨status, link⟩
    cases status with
    | error status => exact .closed _ _
    | ok chip =>
        apply Balanced.machine
        intro allocated
        cases allocated with
        | false => exact .closed _ _
        | true =>
            apply Balanced.machine
            rintro ⟨status, link⟩
            apply Balanced.closing
            cases status with
            | error status => exact .done _
            | ok buffer =>
                apply wp_mono (writeFile_keepsOpen file buffer false rfl)
                rintro result final rfl _
                rfl
  · intro status
    exact Balanced.done _

theorem cmdTargetHalt_balanced (opts : Options) :
    Balanced opts.serial (cmdTargetHalt opts) false := by
  apply Balanced.opening
  · apply Balanced.machine
    intro status
    exact .closedKeepTarget _
  · intro status
    exact Balanced.done _

/-- A part to debug is halted with the programmer open, or the command is over. -/
theorem Balanced.debugging {rest : Except WlErr (Link × Chip) → Program Cli β} (opts : Options)
    (hok : ∀ link chip, Balanced opts.serial (rest (.ok (link, chip))) true)
    (herror : ∀ status, Balanced opts.serial (rest (.error status)) false) :
    Balanced opts.serial (openTargetDebug opts >>= rest) false := by
  unfold openTargetDebug
  cases requireChip opts with
  | none => exact herror _
  | some resolved =>
      dsimp only
      rw [bind_assoc]
      apply Balanced.opening
      · dsimp only
        rw [bind_assoc]
        apply Balanced.machine
        rintro ⟨status, link⟩
        cases status with
        | error status =>
            dsimp only
            rw [bind_assoc]
            exact .closing _ (herror _)
        | ok done =>
            dsimp only
            rw [bind_assoc]
            apply Balanced.machine
            intro status
            cases status with
            | error status =>
                dsimp only
                rw [bind_assoc]
                exact .closing _ (herror _)
            | ok done => exact hok _ _
      · exact herror

theorem cmdDebug_balanced {γ : Type} (operation : Link → Chip → Fallible γ) (opts : Options) :
    Balanced opts.serial (cmdDebug operation opts) false := by
  apply Balanced.debugging
  · intro link chip
    apply Balanced.machine
    intro status
    exact .closedKeepTarget _
  · intro status
    exact Balanced.done _

theorem terminalLoop_keepsOpen (link : Link) (fuel : Nat) :
    (keepingOpen serial true).Mem (terminalLoop link fuel) := by
  have hmachine {γ δ : Type} {program : Program Host γ} {rest : γ → Program Cli δ}
      (hrest : ∀ value, (keepingOpen serial true).Mem (rest value)) :
      (keepingOpen serial true).Mem (onMachine program >>= rest) :=
    (keepingOpen serial true).bind (onMachine_keepsOpen program) hrest
  induction fuel with
  | zero => exact fun _ hstate => hstate
  | succ fuel ih =>
      unfold terminalLoop
      apply asking_keepsOpen
      · trivial
      intro stopped
      split
      · exact (keepingOpen serial true).done _
      apply hmachine
      intro status
      cases status with
      | error status => exact (keepingOpen serial true).done _
      | ok data0 =>
          dsimp only
          split
          · apply hmachine
            intro status
            exact hmachine fun _ => ih
          · exact hmachine fun _ => ih
          · next length _ =>
            have hprint (data1 : Word) : (keepingOpen serial true).Mem (do
                let _ ← onProgrammer (wlLinkeDmiWrite link wlDmiData0 0).run
                if (← ask (.print (terminalBytes data0 data1 length))) ≠ length then
                  return .ok ()
                terminalLoop link fuel : Program Cli (Except WlErr Unit)) := by
              apply hmachine
              intro status
              apply asking_keepsOpen
              · trivial
              intro written
              split
              · exact (keepingOpen serial true).done _
              · exact ih
            split
            · apply hmachine
              intro data1
              cases data1 with
              | error status => exact (keepingOpen serial true).done _
              | ok data1 => exact hmachine fun _ => hprint data1
            · exact hprint 0

theorem cmdTerminal_balanced (fuel : Nat) (opts : Options) :
    Balanced opts.serial (cmdTerminal fuel opts) false := by
  unfold cmdTerminal
  split
  · exact .done _
  apply Balanced.opening
  · apply Balanced.resolving
    rintro ⟨status, link⟩
    cases status with
    | error status => exact .closed _ _
    | ok chip =>
        apply Balanced.machine
        rintro ⟨status, link⟩
        cases status with
        | error status => exact .closed _ _
        | ok done =>
            have hpolling : Balanced opts.serial (do
                let status ← terminalLoop link fuel
                wlLinkeClose link
                return status : Program Cli (Except WlErr Unit)) true := by
              apply Balanced.after (terminalLoop_keepsOpen link fuel)
              intro status
              exact .closed _ _
            dsimp only
            split
            · apply Balanced.machine
              intro status
              cases status with
              | error status => exact .closed _ _
              | ok done => exact hpolling
            · exact hpolling
  · intro status
    exact Balanced.done _

theorem gdbServerOpened_balanced (fuel : Nat) (link : Link) (chip : Chip) (port : BitVec 16)
    (packet : List Byte) : Balanced serial (gdbServerOpened fuel link chip port packet) true := by
  apply Balanced.machine
  rintro ⟨status, link⟩
  cases status with
  | error status => exact .closed _ _
  | ok done =>
      apply Balanced.machine
      intro status
      cases status with
      | error status => exact .closed _ _
      | ok done =>
          apply Balanced.machine
          intro prepared
          apply Balanced.machine
          intro listening
          cases listening with
          | false => exact .closed _ _
          | true =>
              apply Balanced.machine
              intro accepted
              cases accepted with
              | false => exact .closed _ _
              | true =>
                  apply Balanced.machine
                  intro served
                  exact .closed _ _

theorem cmdGdbserver_balanced (fuel : Nat) (packet : List Byte) (opts : Options) :
    Balanced opts.serial (cmdGdbserver fuel packet opts) false := by
  unfold cmdGdbserver
  split
  · exact .done _
  · apply Balanced.opening
    · exact gdbServerOpened_balanced fuel _ _ opts.port packet
    · intro status
      exact Balanced.done _

theorem Command.balanced (fuel : Nat) (packet : List Byte) (opts : Options) (command : Command) :
    Balanced opts.serial (command.run fuel packet opts) false := by
  cases command with
  | info => exact cmdInfo_balanced opts
  | flash =>
      unfold Command.run
      dsimp only
      split
      · exact .done _
      · exact cmdFlash_balanced opts _
  | read =>
      unfold Command.run
      dsimp only
      split
      · exact .done _
      · exact cmdRead_balanced opts _
  | reset => exact cmdOperation_balanced _ opts
  | unbrick => exact cmdOperation_balanced _ opts
  | targetHalt => exact cmdTargetHalt_balanced opts
  | targetResume => exact cmdOperation_balanced _ opts
  | targetReset => exact cmdOperation_balanced _ opts
  | targetPc => exact cmdDebug_balanced _ opts
  | targetRegs => exact cmdDebug_balanced _ opts
  | targetRead32 =>
      unfold Command.run cmdTargetRead32
      dsimp only
      split
      · split
        · exact .done _
        · exact cmdDebug_balanced _ opts
      · exact .done _
  | targetWrite32 =>
      unfold Command.run cmdTargetWrite32
      dsimp only
      split
      · split
        · exact cmdDebug_balanced _ opts
        · exact .done _
      · exact .done _
  | terminal => exact cmdTerminal_balanced fuel opts
  | gdbserver => exact cmdGdbserver_balanced fuel packet opts

end WchLink
