import WchLink.Cli
import WchLink.LossyFlash

/-! # The part and the files, as the user sees them

`flash` takes an image from a file to the part and `read` takes memory from the
part to a file. To their user the part and the files are a shelf; the desk is the
simulated programmer and a file system, and each thing a command does there is
known by its effect on the shelf.
-/

namespace WchLink

open Bytes Interaction

/-! ## The shelf -/

/-- What the user keeps: the part's memories and the files. -/
structure Shelf where
  flash : Nat → Byte
  ram : Nat → Byte
  files : String → Option (List Byte)

deriving instance DecidableEq for Options

/-- One command of the user's. -/
inductive Errand
  | flash (opts : Options)
  | read (opts : Options)
  deriving DecidableEq

def Errand.command : Errand → Program Cli (Except WlErr Unit)
  | flash opts => Command.flash.run 0 [] opts
  | read opts => Command.read.run 0 [] opts

/-- One command after another, with the status of each. -/
def runErrands : List Errand → Program Cli (List (Except WlErr Unit))
  | [] => return []
  | errand :: errands => do
      let status ← errand.command
      return status :: (← runErrands errands)

/-- The byte at an address, in flash through either of its mappings or in RAM. -/
def Shelf.byteAt (chip : Chip) (shelf : Shelf) (address : Word) : Byte :=
  if simIsFlash address then shelf.flash (simFlashOffset address)
  else shelf.ram (simRamOffset chip address)

/-- A range that lies in the part's flash, as the programmer addresses it. -/
def Chip.Holds (chip : Chip) (address : Word) (count : Nat) : Prop :=
  chip.flashBase.toNat ≤ (normalise chip address).toNat ∧
    (normalise chip address).toNat + count ≤ chip.flashBase.toNat + chip.flashSize.toNat

instance (chip : Chip) (address : Word) (count : Nat) : Decidable (chip.Holds address count) :=
  inferInstanceAs (Decidable (_ ∧ _))

/-- Where `flash` puts an image. -/
def flashAddress (chip : Chip) (opts : Options) : Word :=
  if opts.addressGiven then opts.address else chip.flashBase

/-- An image is put in its place, if the part can be flashed and has the place. -/
def Shelf.imaged (chip : Chip) (opts : Options) (image : List Byte) (shelf : Shelf) :
    Except WlErr Unit × Shelf :=
  if chip.algo = .unsupported then
    (.error .notImplemented, shelf)
  else if chip.Holds (flashAddress chip opts) image.length then
    (.ok (), { shelf with
      flash := overlay shelf.flash (imageStart chip (flashAddress chip opts)) image })
  else
    (.error .usage, shelf)

/-- `flash`, to the user: a part named that cannot be flashed is refused before
the file is looked at, a detected one after. -/
def Shelf.flashed (chip : Chip) (opts : Options) (shelf : Shelf) : Except WlErr Unit × Shelf :=
  match opts.file with
  | none => (.error .usage, shelf)
  | some file =>
      if opts.chip ≠ none ∧ chip.algo = .unsupported then
        (.error .notImplemented, shelf)
      else
        match shelf.files file with
        | none => (.error .usage, shelf)
        | some image =>
            if image = [] then (.error .usage, shelf) else shelf.imaged chip opts image

/-- Neither an address nor a size is given: the whole flash is read. -/
def Options.wholeFlash (opts : Options) : Bool := !opts.addressGiven && !opts.sizeGiven

/-- The range `read` reads. -/
def readRange (chip : Chip) (opts : Options) : Word × Nat :=
  (if opts.wholeFlash then chip.flashBase else opts.address,
    if opts.wholeFlash then chip.flashSize.toNat else opts.size)

/-- The options name the whole flash, or an address and a size. -/
def Options.NamesRange (opts : Options) : Prop :=
  opts.wholeFlash = true ∨ opts.addressGiven = true ∧ opts.sizeGiven = true ∧ opts.size ≠ 0

instance (opts : Options) : Decidable opts.NamesRange :=
  inferInstanceAs (Decidable (_ ∨ _))

/-- `read`, to the user. -/
def Shelf.copied (chip : Chip) (opts : Options) (shelf : Shelf) : Except WlErr Unit × Shelf :=
  match opts.file with
  | none => (.error .usage, shelf)
  | some file =>
      if opts.NamesRange then
        (.ok (), { shelf with
          files := Function.update shelf.files file (some (bytesFrom (shelf.byteAt chip)
            (readRange chip opts).1 (readRange chip opts).2)) })
      else
        (.error .usage, shelf)

def Errand.onShelf (chip : Chip) : Errand → Shelf → Except WlErr Unit × Shelf
  | flash opts, shelf => shelf.flashed chip opts
  | read opts, shelf => shelf.copied chip opts

/-- The commands one after another. -/
def errandsOnShelf (chip : Chip) : List Errand → Shelf → List (Except WlErr Unit) × Shelf
  | [], shelf => ([], shelf)
  | errand :: errands, shelf =>
      let first := errand.onShelf chip shelf
      let rest := errandsOnShelf chip errands first.2
      (first.1 :: rest.1, rest.2)

/-- The part is the one named, or is detected. -/
def Options.Names (opts : Options) (chip : Chip) : Prop :=
  opts.chip = none ∨ requireChip opts = some chip

/-- The command is meant for the part; what is read lies in its flash or RAM. -/
def Errand.Suits (chip : Chip) : Errand → Prop
  | flash opts => opts.Names chip
  | read opts => opts.Names chip ∧ (opts.NamesRange → opts.wholeFlash = false →
      chip.InFlash opts.address opts.size ∨ chip.InRam opts.address opts.size)

/-! ## The desk -/

/-- The programmer with its part, and the files, one of which may be open. -/
structure Desk where
  sim : Sim
  files : String → Option (List Byte)
  opened : Option String

/-- The surroundings of a command: memory is available, and files can be written. -/
def desk : Handler Cli Desk
  | .host (.usb request), state =>
      ((simCommand request state.sim).1, { state with sim := (simCommand request state.sim).2 })
  | .host .recv, state => (.closed, state)
  | .host (.send _), state => (.failed, state)
  | .host .poll, state => (false, state)
  | .host (.sleep _), state => ((), state)
  | .host (.malloc _), state => (true, state)
  | .host (.listen _), state => (false, state)
  | .host .accept, state => (false, state)
  | .usbOpen _, state => (.ok (), state)
  | .usbClose, state => ((), state)
  | .stat path, state => ((state.files path).map fun data => (true, data.length), state)
  | .openRead path, state =>
      ((state.files path).isSome, { state with opened := some path })
  | .fread size, state =>
      (((state.opened.bind state.files).getD []).take size, state)
  | .openWrite path, state =>
      (true, { state with
        files := Function.update state.files path (some [])
        opened := some path })
  | .fwrite data, state =>
      match state.opened with
      | none => (0, state)
      | some path =>
          (data.length, { state with
            files := Function.update state.files path (some ((state.files path).getD [] ++ data)) })
  | .fclose, state => (true, { state with opened := none })
  | .print data, state => (data.length, state)
  | .stopped, state => (false, state)

/-- The shelf on the desk. -/
def Desk.shelf (state : Desk) : Shelf :=
  ⟨state.sim.target.flash, state.sim.target.ram, state.files⟩

/-- The part is in working order: nothing has failed and no operation is under way. -/
structure Sim.Settled (chip : Chip) (sim : Sim) : Prop where
  chip : sim.target.chip = chip
  cmderr : sim.dm.cmderr = 0
  programErrors : sim.target.programErrors = 0
  busyReads : sim.target.busyReads ≤ simBusyReads
  mode : sim.target.ctlr &&& modeMask = 0

/-- The part is in working order and no file is longer than a file can be. -/
structure Desk.Settled (chip : Chip) (state : Desk) : Prop where
  sim : state.sim.Settled chip
  files : ∀ path data, state.files path = some data → data.length < 2 ^ 63

/-- The desk, as its user sees it. -/
def shelfSurface (chip : Chip) : Surface Desk Shelf where
  view := Desk.shelf
  ready := Desk.Settled chip
  frame := fun before after => before.Settled chip → after.Settled chip
  frame_refl := fun _ => id
  frame_trans := fun h h' => h' ∘ h
  ready_of_frame := fun h => h

/-- A run on the desk, by its effect on the shelf. -/
abbrev OnShelf {α : Type} (chip : Chip) (program : Program Cli α) (before : Shelf) (value : α)
    (after : Shelf) : Prop :=
  Drives desk (shelfSurface chip) program before value after

/-! ## Files -/

section Files

variable {chip : Chip} {shelf : Shelf}

/-- What `readFile` makes of a file. -/
def Shelf.contents (shelf : Shelf) (path : String) : Except WlErr (List Byte) :=
  match shelf.files path with
  | none => .error .usage
  | some data => if data = [] then .error .usage else .ok data

theorem ask_run {α : Type} (operation : CliOp) (rest : operation.Reply → Program Cli α)
    (state : Desk) :
    (ask operation >>= rest).run desk state =
      (rest (desk operation state).1).run desk (desk operation state).2 := rfl

theorem malloc_run {α : Type} (size : Nat) (rest : (HostOp.malloc size).Reply → Program Cli α)
    (state : Desk) :
    (onMachine (request (.malloc size)) >>= rest).run desk state = (rest true).run desk state := rfl

theorem readFile_onShelf (path : String) :
    OnShelf chip (readFile path) shelf (shelf.contents path) shelf := by
  intro state _ hview
  have hfiles : shelf.files = state.files := by
    rw [← hview]
    rfl
  unfold readFile Shelf.contents
  rw [ask_run, hfiles]
  cases hfile : state.files path with
  | none =>
      refine ⟨state, ?_, hview, id⟩
      simp [desk, hfile]
  | some data =>
      by_cases hempty : data = []
      · refine ⟨state, ?_, hview, id⟩
        simp [desk, hfile, hempty]
      · have hlength : data.length ≠ 0 := fun h => hempty (List.length_eq_zero_iff.mp h)
        refine ⟨{ state with opened := none }, ?_, hview, fun h => ⟨h.sim, h.files⟩⟩
        simp only [desk, hfile, hempty, Option.map_some, Bool.not_true, Bool.false_eq_true,
          if_false, hlength]
        rw [malloc_run]
        simp only [Bool.not_true, Bool.false_eq_true, if_false]
        rw [ask_run]
        simp only [desk, hfile, Option.isSome_some, Bool.not_true, Bool.false_eq_true, if_false]
        rw [ask_run, ask_run]
        simp [desk, hfile]

theorem writeFile_onShelf (path : String) {data : List Byte} (hlength : data.length < 2 ^ 63) :
    OnShelf chip (writeFile path data) shelf (.ok ())
      { shelf with files := Function.update shelf.files path (some data) } := by
  intro state _ hview
  subst hview
  refine ⟨⟨state.sim, Function.update state.files path (some data), none⟩, ?_, rfl, fun h => ?_⟩
  · unfold writeFile
    rw [ask_run]
    simp only [desk, Bool.not_true, Bool.false_eq_true, if_false]
    rw [ask_run]
    simp only [desk, Function.update_self, Option.getD_some, List.nil_append, ne_eq, not_true,
      if_false, Function.update_idem]
    rw [ask_run]
    rfl
  · refine ⟨h.sim, fun path' data' hfile => ?_⟩
    by_cases hpath : path' = path
    · subst hpath
      dsimp only at hfile
      rw [Function.update_self] at hfile
      cases hfile
      exact hlength
    · dsimp only at hfile
      rw [Function.update_of_ne hpath] at hfile
      exact h.files path' data' hfile

end Files

/-! ## The programmer -/

section Programmer

variable {chip : Chip} {shelf : Shelf}

/-- What the programmer is asked reaches the simulated one. -/
theorem onProgrammer_run {α : Type} (program : Program Usb α) (state : Desk) :
    (onProgrammer program).run desk state =
      ((program.run simulator state.sim).1,
        { state with sim := (program.run simulator state.sim).2 }) := by
  induction program generalizing state with
  | done value => rfl
  | cut => rfl
  | call request next ih => exact ih _ _

/-- An operation of the programmer by its effect on the shelf. -/
theorem onProgrammer_onShelf {α : Type} {program : Program Usb α} {value : α} {after : Shelf}
    (h : ∀ sim : Sim, sim.Settled chip → sim.target.flash = shelf.flash →
      sim.target.ram = shelf.ram →
      ∃ final, program.run simulator sim = (some value, final) ∧ final.Settled chip ∧
        final.target.flash = after.flash ∧ final.target.ram = after.ram)
    (hfiles : after.files = shelf.files) :
    OnShelf chip (onProgrammer program) shelf value after := by
  intro state hready hview
  subst hview
  obtain ⟨final, hrun, hsettled, hflash, hram⟩ := h state.sim hready.sim rfl rfl
  refine ⟨{ state with sim := final }, ?_, ?_, fun h => ⟨hsettled, h.files⟩⟩
  · rw [onProgrammer_run, hrun]
  · obtain ⟨flash, ram, files⟩ := after
    subst hflash hram hfiles
    rfl

/-- The requests that move neither the debug module nor the target. -/
structure Sim.Parked (before after : Sim) : Prop where
  dm : after.dm = before.dm
  target : after.target = before.target

theorem Sim.Parked.trans {first second third : Sim} (h : first.Parked second)
    (h' : second.Parked third) : first.Parked third :=
  ⟨h'.dm.trans h.dm, h'.target.trans h.target⟩

theorem Sim.Parked.settled {before after : Sim} (h : before.Parked after)
    (hsettled : before.Settled chip) : after.Settled chip where
  chip := by rw [h.target, hsettled.chip]
  cmderr := by rw [h.dm, hsettled.cmderr]
  programErrors := by rw [h.target, hsettled.programErrors]
  busyReads := by
    rw [h.target]
    exact hsettled.busyReads
  mode := by rw [h.target, hsettled.mode]

/-- An operation that parks the target moves nothing on the shelf. -/
theorem parked_onShelf {α : Type} {program : Program Usb α} {value : α}
    (h : ∀ sim : Sim, sim.target.chip = chip →
      ∃ final, program.run simulator sim = (some value, final) ∧ sim.Parked final) :
    OnShelf chip (onProgrammer program) shelf value shelf := by
  apply onProgrammer_onShelf _ rfl
  intro sim hsettled hflash hram
  obtain ⟨final, hrun, hparked⟩ := h sim hsettled.chip
  refine ⟨final, hrun, hparked.settled hsettled, ?_, ?_⟩
  · rw [hparked.target, hflash]
  · rw [hparked.target, hram]

theorem wlLinkeOpen_onShelf (serial : Option String) :
    OnShelf chip (wlLinkeOpen serial) shelf (.ok wlLinkeAttachTransport) shelf := by
  intro state _ hview
  exact ⟨state, rfl, hview, id⟩

theorem wlLinkeDetach_run {link : Link} (hlink : link.Usable) (sim : Sim) :
    (wlLinkeDetach.run link).run simulator sim =
      (some ((), { link with isOpen := false, transport := false }),
        { sim with attached := false }) := by
  obtain ⟨transport, isOpen, chipId, configured⟩ := link
  obtain ⟨rfl, rfl⟩ := hlink
  rfl

/-- Closing lets the target run. -/
theorem wlLinkeClose_onShelf {link : Link} (hlink : link.Usable) :
    OnShelf chip (wlLinkeClose link) shelf () shelf := by
  have hdetach : OnShelf chip (onProgrammer (wlLinkeDetach.run link)) shelf
      ((), { link with isOpen := false, transport := false }) shelf := by
    apply parked_onShelf
    intro sim _
    exact ⟨_, wlLinkeDetach_run hlink sim, rfl, rfl⟩
  apply hdetach.bind
  intro state _ hview
  exact ⟨state, rfl, hview, id⟩

/-- The generic setting is accepted. -/
theorem setInterfaceRaw_run {link : Link} (hlink : link.Usable) (familyId speed : Byte)
    (sim : Sim) :
    (setInterfaceRaw link familyId speed).run.run simulator sim = (some (.ok ()),
      { sim with chipId := familyId, interfaceSpeed := speed, configured := true }) := by
  have hcommand := wlLinkeCommand_run hlink (interfaceRequest familyId speed) sim
  have hanswer : simCommand (interfaceRequest familyId speed) sim =
      (.ok [0x82, 0x0c, 0x02, familyId],
        { sim with chipId := familyId, interfaceSpeed := speed, configured := true }) := rfl
  rw [hanswer] at hcommand
  unfold setInterfaceRaw
  rw [Program.run_except_ok hcommand]
  rfl

theorem wlChipByDetectId_self : ∀ part ∈ chips,
    wlChipByDetectId part.linkeId ((part.modelId >>> 8).setWidth 8 ++ part.modelId.setWidth 8) =
      some part := by
  decide

/-- A detection that the programmer does not refuse names the part. -/
theorem identifyChipOnce_run {sim : Sim} (hchip : sim.target.chip ∈ chips)
    (hfree : (sim.attached && sim.failAttachWhileAttached) = false) :
    (identifyChipOnce.run.run wlLinkeAttachTransport).run simulator sim =
      (some (.ok sim.target.chip, wlLinkeAttachTransport),
        { sim with
          chipId := 0x01, interfaceSpeed := 0x02, configured := true, attached := true }) := by
  have hlink : wlLinkeAttachTransport.Usable := ⟨rfl, rfl⟩
  let selected : Sim := { sim with chipId := 0x01, interfaceSpeed := 0x02, configured := true }
  have hanswer : simCommand (controlRequest wlCmdControl wlCtlAttach) selected =
      (.ok [0x82, 0x0d, 0x05, sim.target.chip.linkeId, (sim.target.chip.modelId >>> 8).setWidth 8,
        sim.target.chip.modelId.setWidth 8, 0x05, 0x00], { selected with attached := true }) := by
    have hattach : simControl selected 0x02 = ([0x82, 0x0d, 0x05, sim.target.chip.linkeId,
        (sim.target.chip.modelId >>> 8).setWidth 8, sim.target.chip.modelId.setWidth 8, 0x05, 0x00],
        { selected with attached := true }) := by
      unfold simControl
      rw [if_neg (by decide), if_pos rfl, if_neg (by rw [hfree]; decide)]
    exact congrArg (fun answer => (Except.ok answer.1, answer.2)) hattach
  have hmodify : ((modify fun link => { link with configured := false } : Linked Unit).run.run
      wlLinkeAttachTransport).run simulator selected =
        (some (.ok (), wlLinkeAttachTransport), selected) := rfl
  unfold identifyChipOnce
  rw [Program.run_state_get, Program.run_state_ok (liftLinked_run _
    (setInterfaceRaw_run hlink 0x01 0x02 sim)), Program.run_state_ok hmodify, Program.run_state_get,
    Program.run_state_ok (liftLinked_run _ (sendControl_run hlink _ _ hanswer))]
  simp only [List.length_cons, List.length_nil, List.getD_cons_zero, List.getD_cons_succ]
  rw [if_neg (by decide), wlChipByDetectId_self _ hchip]
  rfl

/-- A detection that the programmer refuses fails. -/
theorem identifyChipOnce_refused {sim : Sim}
    (hrefused : (sim.attached && sim.failAttachWhileAttached) = true) :
    (identifyChipOnce.run.run wlLinkeAttachTransport).run simulator sim =
      (some (.error .target, wlLinkeAttachTransport),
        { sim with chipId := 0x01, interfaceSpeed := 0x02, configured := true }) := by
  have hlink : wlLinkeAttachTransport.Usable := ⟨rfl, rfl⟩
  let selected : Sim := { sim with chipId := 0x01, interfaceSpeed := 0x02, configured := true }
  have hanswer : simCommand (controlRequest wlCmdControl wlCtlAttach) selected =
      (.ok [0x82, 0x0d, 0x05, 0x09], selected) := by
    have hattach : simControl selected 0x02 = ([0x82, 0x0d, 0x05, 0x09], selected) := by
      unfold simControl
      rw [if_neg (by decide), if_pos rfl, if_pos hrefused]
    exact congrArg (fun answer => (Except.ok answer.1, answer.2)) hattach
  have hmodify : ((modify fun link => { link with configured := false } : Linked Unit).run.run
      wlLinkeAttachTransport).run simulator selected =
        (some (.ok (), wlLinkeAttachTransport), selected) := rfl
  unfold identifyChipOnce
  rw [Program.run_state_get, Program.run_state_ok (liftLinked_run _
    (setInterfaceRaw_run hlink 0x01 0x02 sim)), Program.run_state_ok hmodify, Program.run_state_get,
    Program.run_state_ok (liftLinked_run _ (sendControl_run hlink _ _ hanswer))]
  rfl

/-- Detection names the part: where the programmer refuses to attach again it is
released and asked once more. -/
theorem wlLinkeIdentifyChip_run {sim : Sim} (hchip : sim.target.chip ∈ chips) :
    ∃ final, (wlLinkeIdentifyChip.run.run wlLinkeAttachTransport).run simulator sim =
        (some (.ok sim.target.chip, wlLinkeAttachTransport), final) ∧ sim.Parked final := by
  have hlink : wlLinkeAttachTransport.Usable := ⟨rfl, rfl⟩
  unfold wlLinkeIdentifyChip
  simp only [tryCatch, tryCatchThe, MonadExceptOf.tryCatch, ExceptT.tryCatch]
  by_cases hfree : (sim.attached && sim.failAttachWhileAttached) = false
  · exact ⟨_, Program.run_own_bind (identifyChipOnce_run hchip hfree), rfl, rfl⟩
  · rw [Bool.not_eq_false] at hfree
    let selected : Sim := { sim with chipId := 0x01, interfaceSpeed := 0x02, configured := true }
    have hfirst := identifyChipOnce_refused hfree
    have hrun : (sendControl wlLinkeAttachTransport wlCmdRun 0x01).run.run simulator selected =
        (some (.ok [0x82, 0x0b, 0x01]), { selected with attached := false }) :=
      sendControl_run hlink _ _ rfl
    have hrelease : (sendControl wlLinkeAttachTransport wlCmdControl wlCtlRelease).run.run simulator
        { selected with attached := false } =
          (some (.ok [0x82, 0x0d, 0x05, 0x09]), { selected with attached := false }) :=
      sendControl_run hlink _ _ rfl
    have hagain := @identifyChipOnce_run { selected with attached := false } hchip rfl
    refine ⟨{ selected with attached := true }, ?_, rfl, rfl⟩
    have hsecond : (((do
        ignore (sendControl (← get) wlCmdRun 0x01)
        ignore (sendControl (← get) wlCmdControl wlCtlRelease)
        identifyChipOnce : Linked Chip)).run.run wlLinkeAttachTransport).run simulator selected =
          (some (.ok sim.target.chip, wlLinkeAttachTransport),
            { selected with attached := true }) := by
      rw [Program.run_state_get, Program.run_state_ok (liftLinked_run _ (ignore_run hrun)),
        Program.run_state_get, Program.run_state_ok (liftLinked_run _ (ignore_run hrelease))]
      exact hagain
    exact (Program.run_own_bind hfirst).trans hsecond

theorem wlLinkeIdentifyChip_onShelf (hchip : chip ∈ chips) :
    OnShelf chip (onProgrammer (wlLinkeIdentifyChip.run.run wlLinkeAttachTransport)) shelf
      (.ok chip, wlLinkeAttachTransport) shelf := by
  apply parked_onShelf
  intro sim hsim
  subst hsim
  exact wlLinkeIdentifyChip_run hchip

/-- The part is the one named or the one detected. -/
theorem resolveChip_onShelf (hchip : chip ∈ chips) {given : Option Chip}
    (hgiven : given = none ∨ given = some chip) :
    OnShelf chip (resolveChip given wlLinkeAttachTransport) shelf
      (.ok chip, wlLinkeAttachTransport) shelf := by
  rcases hgiven with rfl | rfl
  · exact wlLinkeIdentifyChip_onShelf hchip
  · exact Drives.pure _

/-- A flash request on a part in working order. -/
theorem wlLinkeWriteFlash_onShelf (hchip : chip ∈ chips) (halgo : chip.algo = .ch32v0)
    {address : Word} {image : List Byte} (himage : image ≠ [])
    (hholds : chip.Holds address image.length) (verify : Bool) :
    OnShelf chip (onProgrammer ((wlLinkeWriteFlash (some chip) address (some image)
      (BitVec.ofNat 64 image.length) verify).run.run wlLinkeAttachTransport)) shelf
      (.ok (), wlLinkeAttachTransport.set chip)
      { shelf with flash := overlay shelf.flash (imageStart chip address) image } := by
  refine onProgrammer_onShelf (fun sim hsettled hflash hram => ?_) rfl
  obtain ⟨rfl, hcmderr, hprogramErrors, hbusy, hmode⟩ := hsettled
  have hpart := ch32v0_of_mem hchip halgo
  have hsize := hpart.flashSize
  obtain ⟨haddress, hstop⟩ := normalise_inside hpart hholds.1 hholds.2
  have hlength : (BitVec.ofNat 64 image.length).toNat = image.length := by
    rw [BitVec.toNat_ofNat]
    exact Nat.mod_eq_of_lt (by omega)
  let link := wlLinkeAttachTransport.set sim.target.chip
  have hlink : link.SetFor sim.target.chip := ⟨⟨rfl, rfl⟩, rfl, rfl⟩
  let selected : Sim := { sim with
    configured := true
    chipId := sim.target.chip.linkeId
    interfaceSpeed := sim.target.chip.interfaceSpeed }
  have hset : _ = (_, selected) := wlLinkeSetInterface_fresh sim.target.chip sim
  obtain ⟨attached, hhalt⟩ := wlLinkeHalt_run hlink.toUsable selected
  obtain ⟨written, hwrite, hframe, hunlocked, hchip', hmode', hflash', hram'⟩ :=
    @wlFlashWrite_run _ _ _ (simulatorPort hlink.toUsable) { selected with attached }
      ⟨rfl, hcmderr⟩ hpart hprogramErrors hbusy hmode address _ image _ haddress hlength himage
        hstop
      (fun _ _ _ => trivial)
  have hready : written.Ready := ⟨hframe.configured, hframe.cmderr.trans hcmderr⟩
  have hlink' : link.SetFor written.target.chip := by
    rw [hchip']
    exact hlink
  obtain ⟨checked, hverify, hview, hframe', hunlocked'⟩ := @verify_run _ written hlink' hready
    hunlocked (by rw [hchip']; exact hpart) address _ sim.target.flash image
    (BitVec.ofNat 64 image.length) (by rw [hchip']; exact haddress) hlength
    (by rw [hchip']; exact hstop) hflash' verify
  rw [hchip'] at hverify
  have hresume := wlLinkeResume_run hlink.toUsable checked
  refine ⟨{ checked with attached := false }, ?_, ⟨?_, ?_, ?_, ?_, ?_⟩, ?_, ?_⟩
  · rw [wlLinkeWriteFlash_parts, Program.run_state_ok hset, Program.run_state_get,
      Program.run_state_ok (liftLinked_run _ hhalt), Program.run_state_get,
      Program.run_state_ok (liftLinked_run _ hwrite)]
    unfold verifyThenResume
    rw [Program.run_state_ok (Program.run_state_lift hverify), Program.run_state_get,
      Program.run_state_ok (liftLinked_run _ (ignore_run hresume))]
    rfl
  · exact (congrArg Flasher.chip hview).trans hchip'
  · exact hframe'.cmderr.trans (hframe.cmderr.trans hcmderr)
  · exact hunlocked'.programErrors
  · exact hunlocked'.busyReads
  · exact (congrArg Flasher.mode hview).trans hmode'
  · have hchecked : checked.target.flash = written.target.flash := congrArg Flasher.flash hview
    rw [hchecked, hflash']
    exact congrArg (overlay · _ image) hflash
  · have hchecked : checked.target.ram = written.target.ram := congrArg Flasher.ram hview
    rw [hchecked, hram']
    exact hram

/-- A range of the part that can be read. -/
def Chip.Readable (chip : Chip) (address : Word) (count : Nat) : Prop :=
  chip.InFlash address count ∨ chip.InRam address count

theorem Chip.Readable.length {address : Word} {count : Nat} (h : chip.Readable address count) :
    count < 2 ^ 32 := by
  have hflash := chip.flashSize.isLt
  have hram := chip.ramSize.isLt
  rcases h with h | h
  · have hinside := h.inside
    omega
  · have hinside := h.inside
    have hstart := h.start
    omega

theorem bytesFrom_congr {memory memory' : Word → Byte} {address : Word} {count : Nat}
    (h : ∀ i < count, memory (address + BitVec.ofNat 32 i) =
        memory' (address + BitVec.ofNat 32 i)) :
    bytesFrom memory address count = bytesFrom memory' address count := by
  apply List.ext_getElem
  · rw [bytesFrom_length, bytesFrom_length]
  · intro i hi hi'
    have hi : i < count := by rwa [bytesFrom_length] at hi
    have hread := bytesFrom_getD memory address hi
    have hread' := bytesFrom_getD memory' address hi
    rw [List.getD_eq_getElem _ _ (by rwa [bytesFrom_length])] at hread hread'
    rw [hread, hread', h i hi]

/-- A block read of the range reads the shelf's bytes. -/
theorem Chip.Readable.reads {link : Link} (hlink : link.Usable) {target : SimTarget} {shelf : Shelf}
    (hflash : target.flash = shelf.flash) (hram : target.ram = shelf.ram) {address : Word}
    {count : Nat} (h : target.chip.Readable address count) :
    OnTarget (filled (wlDmReadBlock link address count)).run target
      (.ok (bytesFrom (shelf.byteAt target.chip) address count)) target := by
  rcases h with h | h
  · have hbytes : bytesFrom (shelf.byteAt target.chip) address count =
        bytesFrom (fun a => target.flash (simFlashOffset a)) address count := by
      apply bytesFrom_congr
      intro i hi
      have hin : target.chip.InFlash address (i + 1) := h.mono hi
      rw [Shelf.byteAt, if_pos (hin.add one_pos).window, hflash]
    rw [hbytes]
    exact filled_wlDmReadBlock_drives count (readable_flash (simulatorPort hlink) h)
  · have hbytes : bytesFrom (shelf.byteAt target.chip) address count =
        bytesFrom (fun a => target.ram (simRamOffset target.chip a)) address count := by
      apply bytesFrom_congr
      intro i hi
      have hin : target.chip.InRam address (i + 1) := h.mono hi
      rw [Shelf.byteAt, if_neg (by rw [hin.add.notFlash]; decide), hram]
    rw [hbytes]
    exact filled_wlDmReadBlock_drives count (readable_ram hlink h)

theorem wlLinkeReadMemory_onShelf {address : Word} {count : Nat}
    (hreadable : chip.Readable address count) :
    OnShelf chip (onProgrammer ((wlLinkeReadMemory (some chip) address count).run.run
      wlLinkeAttachTransport)) shelf
      (.ok (bytesFrom (shelf.byteAt chip) address count),
        wlLinkeAttachTransport.set chip) shelf := by
  refine onProgrammer_onShelf (fun sim hsettled hflash hram => ?_) rfl
  obtain ⟨rfl, hcmderr, hprogramErrors, hbusy, hmode⟩ := hsettled
  have hlink : (wlLinkeAttachTransport.set sim.target.chip).Usable := ⟨rfl, rfl⟩
  let selected : Sim := { sim with
    configured := true
    chipId := sim.target.chip.linkeId
    interfaceSpeed := sim.target.chip.interfaceSpeed }
  have hset : _ = (_, selected) := wlLinkeSetInterface_fresh sim.target.chip sim
  obtain ⟨attached, hhalt⟩ := wlLinkeHalt_run hlink selected
  obtain ⟨final, hrun, hview, hframe⟩ := hreadable.reads hlink hflash hram
    { selected with attached } ⟨rfl, hcmderr⟩ rfl
  have htarget : final.target = sim.target := hview
  refine ⟨final, ?_, ⟨?_, ?_, ?_, ?_, ?_⟩, ?_, ?_⟩
  · rw [wlLinkeReadMemory_eq, Program.run_state_ok hset]
    unfold readSelected
    rw [Program.run_state_get, Program.run_state_ok (liftLinked_run _ hhalt), Program.run_state_get]
    exact liftLinked_run _ hrun
  · rw [htarget]
  · exact hframe.cmderr.trans hcmderr
  · rw [htarget, hprogramErrors]
  · rw [htarget]
    exact hbusy
  · rw [htarget, hmode]
  · rw [htarget, hflash]
  · rw [htarget, hram]

end Programmer

end WchLink
