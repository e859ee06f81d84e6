import WchLink.ImageTransfer
import WchLink.Refusals

/-! # Errands when anything may fail

The programmer's transport may lose any request and any answer, a file may be read or
written short, and every other call may fail. What a command may do to the part and the
files is bounded all the same, and a command that reports success has done its errand.
-/

namespace WchLink

open Bytes Interaction Program

/-! ## The desk -/

/-- A file that is open, to be read or to be written. -/
structure OpenedFile where
  path : String
  writing : Bool

/-- The desk, with any programmer of the part's. -/
structure LossyDesk (chip : Chip) where
  sim : {sim : Sim // sim.Of chip}
  files : String → Option (List Byte)
  opened : Option OpenedFile

/-- Files of which one may have lost its end. -/
def Shortened (path : String) (before after : String → Option (List Byte)) : Prop :=
  ∃ kept, kept <+: (before path).getD [] ∧ after = Function.update before path (some kept)

/-- What the calls of a command may come to. -/
def unreliableDesk (chip : Chip) : World Cli (LossyDesk chip)
  | state, .host (.usb request), reply, next =>
      ∃ sim, unreliablePart chip state.sim request reply sim ∧ next = { state with sim }
  | state, .stat path, reply, next => state = next ∧ ∀ size, reply = some (true, size) →
      size < 2 ^ 63 ∧ ∃ data, state.files path = some data ∧ data.length = size
  | state, .openRead path, reply, next => (reply = false ∧ state = next) ∨
      (reply = true ∧ next = { state with opened := some ⟨path, false⟩ })
  | state, .fread size, reply, next => state = next ∧
      reply <+: ((state.opened.bind fun file => state.files file.path).getD []).take size
  | state, .openWrite path, reply, next => (reply = false ∧ state = next) ∨
      (reply = true ∧ next = { state with
        files := Function.update state.files path (some [])
        opened := some ⟨path, true⟩ })
  | state, .fwrite data, written, next =>
      match state.opened with
      | none => written = 0 ∧ state = next
      | some file => written ≤ data.length ∧ next = { state with
          files := Function.update state.files file.path
            (some ((state.files file.path).getD [] ++ data.take written)) }
  | state, .fclose, reply, next =>
      -- What was written is flushed here at the latest, so a close that fails may lose its end.
      next = { state with opened := none } ∨ ∃ file files, reply = false ∧
        state.opened = some file ∧ file.writing = true ∧ Shortened file.path state.files files ∧
          next = { state with files, opened := none }
  | state, _, _, next => state = next

/-- The shelf on the desk. -/
def LossyDesk.shelf {chip : Chip} (state : LossyDesk chip) : Shelf :=
  ⟨state.sim.1.target.flash, state.sim.1.target.ram, state.files⟩

/-! ## What may come of a command -/

/-- The pages of the image a `flash` names. -/
def Shelf.imagePages (chip : Chip) (opts : Options) (shelf : Shelf) (index : Nat) : Prop :=
  ∃ image, opts.file.bind shelf.files = some image ∧
    ImagePage (imageStart chip (flashAddress chip opts)) image.length index

/-- What may come of `flash`: pages that may be changed are, and if it verifies and succeeds
the image is there. -/
structure MayFlash (chip : Chip) (opts : Options) (pages : Nat → Prop) (before : Shelf)
    (status : Except WlErr Unit) (after : Shelf) : Prop where
  files : after.files = before.files
  ram : after.ram = before.ram
  flash : ∀ offset, ¬pages (offset / 64) → after.flash offset = before.flash offset
  verified : status = .ok () → opts.verify = true →
    ∃ image, opts.file.bind before.files = some image ∧
      bytesFrom (after.byteAt chip) (normalise chip (flashAddress chip opts)) image.length = image

/-- What may come of `read`: the file it names is changed, and if it succeeds the bytes of
the range are there. -/
structure MayRead (chip : Chip) (opts : Options) (before : Shelf) (status : Except WlErr Unit)
    (after : Shelf) : Prop where
  flash : after.flash = before.flash
  ram : after.ram = before.ram
  files : ∀ path, opts.file ≠ some path → after.files path = before.files path
  copied : status = .ok () → ∃ file, opts.file = some file ∧ opts.NamesRange ∧
    after.files file = some (bytesFrom (before.byteAt chip) (readRange chip opts).1
      (readRange chip opts).2)

theorem MayRead.untouched {chip : Chip} {opts : Options} {before after : Shelf}
    {status : Except WlErr Unit} (h : after = before) (hstatus : status ≠ .ok ()) :
    MayRead chip opts before status after := by
  subst h
  exact ⟨rfl, rfl, fun _ _ => rfl, fun hok => absurd hok hstatus⟩

/-- The pages an errand puts at risk. -/
def Errand.pages (chip : Chip) : Errand → Shelf → Nat → Prop
  | flash opts, shelf => shelf.imagePages chip opts
  | read _, _ => fun _ => False

/-- What may come of an errand when some pages are at risk. -/
def Errand.May (chip : Chip) (pages : Nat → Prop) : Errand → Shelf → Except WlErr Unit → Shelf →
    Prop
  | flash opts => MayFlash chip opts pages
  | read opts => MayRead chip opts

/-- What may come of errands one after another: a page once at risk stays so. -/
inductive ErrandsMay (chip : Chip) : (Nat → Prop) → List Errand → Shelf →
    List (Except WlErr Unit) → Shelf → Prop
  | nil (risked : Nat → Prop) (shelf : Shelf) : ErrandsMay chip risked [] shelf [] shelf
  | cons {risked : Nat → Prop} {errand : Errand} {errands : List Errand}
      {before between after : Shelf} {status : Except WlErr Unit}
      {statuses : List (Except WlErr Unit)}
      (first : errand.May chip (fun index => risked index ∨ errand.pages chip before index) before
        status between)
      (rest : ErrandsMay chip (fun index => risked index ∨ errand.pages chip before index) errands
        between statuses after) :
      ErrandsMay chip risked (errand :: errands) before (status :: statuses) after

variable {chip : Chip}

/-! ## Runs of commands -/

theorem ask_returns {α : Type} {operation : CliOp} {rest : operation.Reply → Program Cli α}
    {world : World Cli (LossyDesk chip)} {state final : LossyDesk chip} {value : α} :
    Returns world (ask operation >>= rest) state value final ↔
      ∃ reply next, world state operation reply next ∧ Returns world (rest reply) next value final := by
  rw [returns_bind_iff]
  constructor
  · rintro ⟨reply, next, hreply, hrest⟩
    exact ⟨reply, next, returns_perform_iff.mp hreply, hrest⟩
  · rintro ⟨reply, next, hreply, hrest⟩
    exact ⟨reply, next, returns_perform_iff.mpr hreply, hrest⟩

/-- What the programmer is asked is answered by its part, the files left alone. -/
theorem onProgrammer_returns {α : Type} {program : Program Usb α} {state final : LossyDesk chip}
    {value : α} (h : Returns (unreliableDesk chip) (onProgrammer program) state value final) :
    Returns (unreliablePart chip) program state.sim value final.sim ∧ final.files = state.files := by
  induction program generalizing state with
  | done result =>
      obtain ⟨rfl, rfl⟩ := returns_done_iff.mp h
      exact ⟨.done _ _, rfl⟩
  | cut =>
      obtain ⟨trace, hrun⟩ := h
      cases hrun
  | call request next ih =>
      have hcall : Returns (unreliableDesk chip) (ask (.host (.usb request)) >>= fun reply =>
          onProgrammer (next reply)) state value final := h
      obtain ⟨reply, between, ⟨sim, hanswer, rfl⟩, hrest⟩ := ask_returns.mp hcall
      obtain ⟨hpart, hfiles⟩ := ih reply hrest
      refine ⟨?_, hfiles⟩
      obtain ⟨trace, hrun⟩ := hpart
      exact ⟨_, .step hanswer hrun⟩

/-! ## Files -/

theorem readFile_returns {path : String} {state final : LossyDesk chip}
    {status : Except WlErr (List Byte)}
    (h : Returns (unreliableDesk chip) (readFile path) state status final) :
    final.sim = state.sim ∧ final.files = state.files ∧ ∀ image, status = .ok image →
      state.files path = some image ∧ image ≠ [] ∧ image.length < 2 ^ 63 := by
  unfold readFile at h
  obtain ⟨found, _, ⟨rfl, hfound⟩, h⟩ := ask_returns.mp h
  cases found with
  | none =>
      obtain ⟨rfl, rfl⟩ := returns_done_iff.mp h
      exact ⟨rfl, rfl, nofun⟩
  | some entry =>
      obtain ⟨regular, size⟩ := entry
      dsimp only at h
      cases regular with
      | false =>
          obtain ⟨rfl, rfl⟩ := returns_done_iff.mp h
          exact ⟨rfl, rfl, nofun⟩
      | true =>
          obtain ⟨hsmall, data, hdata, hsize⟩ := hfound size rfl
          simp only [Bool.not_true, Bool.false_eq_true, if_false] at h
          by_cases hempty : size = 0
          · rw [if_pos hempty] at h
            obtain ⟨rfl, rfl⟩ := returns_done_iff.mp h
            exact ⟨rfl, rfl, nofun⟩
          rw [if_neg hempty] at h
          obtain ⟨allocated, _, rfl, h⟩ := ask_returns.mp h
          cases allocated with
          | false =>
              obtain ⟨rfl, rfl⟩ := returns_done_iff.mp h
              exact ⟨rfl, rfl, nofun⟩
          | true =>
              simp only [Bool.not_true, Bool.false_eq_true, if_false] at h
              obtain ⟨found, next, hopen, h⟩ := ask_returns.mp h
              rcases hopen with ⟨rfl, rfl⟩ | ⟨rfl, rfl⟩
              · obtain ⟨rfl, rfl⟩ := returns_done_iff.mp h
                exact ⟨rfl, rfl, nofun⟩
              · simp only [Bool.not_true, Bool.false_eq_true, if_false] at h
                obtain ⟨read, _, ⟨rfl, hread⟩, h⟩ := ask_returns.mp h
                obtain ⟨closed, next, hclose, h⟩ := ask_returns.mp h
                have hkept : next.sim = state.sim ∧ next.files = state.files := by
                  rcases hclose with rfl | ⟨file, files, -, hfile, hwriting, -⟩
                  · exact ⟨rfl, rfl⟩
                  · cases hfile
                    cases hwriting
                by_cases hshort : read.length = size
                · rw [if_neg (not_not.mpr hshort)] at h
                  obtain ⟨rfl, rfl⟩ := returns_done_iff.mp h
                  refine ⟨hkept.1, hkept.2, ?_⟩
                  rintro image ⟨⟩
                  -- A prefix as long as the file is the file.
                  have hprefix : read <+: data.take size := by simpa [hdata] using hread
                  have hwhole : read = data := by
                    rw [← hsize, List.take_length] at hprefix
                    exact hprefix.eq_of_length (hshort.trans hsize.symm)
                  subst hwhole
                  refine ⟨hdata, ?_, by omega⟩
                  rintro rfl
                  exact hempty hshort.symm
                · rw [if_pos hshort] at h
                  obtain ⟨rfl, rfl⟩ := returns_done_iff.mp h
                  exact ⟨hkept.1, hkept.2, nofun⟩

theorem writeFile_returns {path : String} {data : List Byte} {state final : LossyDesk chip}
    {status : Except WlErr Unit}
    (h : Returns (unreliableDesk chip) (writeFile path data) state status final) :
    final.sim = state.sim ∧ (∀ other, other ≠ path → final.files other = state.files other) ∧
      (status = .ok () → final.files path = some data) := by
  unfold writeFile at h
  obtain ⟨created, next, hopen, h⟩ := ask_returns.mp h
  rcases hopen with ⟨rfl, rfl⟩ | ⟨rfl, rfl⟩
  · obtain ⟨rfl, rfl⟩ := returns_done_iff.mp h
    exact ⟨rfl, fun _ _ => rfl, nofun⟩
  simp only [Bool.not_true, Bool.false_eq_true, if_false] at h
  obtain ⟨written, next, ⟨hwritten, rfl⟩, h⟩ := ask_returns.mp h
  dsimp only at h
  rw [Function.update_idem, Function.update_self, Option.getD_some, List.nil_append] at h
  have hother (files : Option (List Byte)) (other : String) (hne : other ≠ path) :
      Function.update state.files path files other = state.files other :=
    Function.update_of_ne hne _ _
  by_cases hshort : written = data.length
  · rw [if_neg (not_not.mpr hshort)] at h
    obtain ⟨closed, next, hclose, h⟩ := ask_returns.mp h
    subst hshort
    rcases hclose with rfl | ⟨file, files, rfl, hfile, -, hcut, rfl⟩
    · rw [List.take_length] at h
      cases closed with
      | false =>
          obtain ⟨rfl, rfl⟩ := returns_done_iff.mp h
          exact ⟨rfl, hother _, nofun⟩
      | true =>
          obtain ⟨rfl, rfl⟩ := returns_done_iff.mp h
          exact ⟨rfl, hother _, fun _ => Function.update_self _ _ _⟩
    · obtain ⟨rfl, rfl⟩ := returns_done_iff.mp h
      cases hfile
      obtain ⟨kept, -, rfl⟩ := hcut
      refine ⟨rfl, fun other hne => ?_, nofun⟩
      exact (Function.update_of_ne hne _ _).trans (hother _ other hne)
  · rw [if_pos hshort] at h
    obtain ⟨closed, next, hclose, h⟩ := ask_returns.mp h
    obtain ⟨rfl, rfl⟩ := returns_done_iff.mp h
    rcases hclose with rfl | ⟨file, files, -, hfile, -, hcut, rfl⟩
    · exact ⟨rfl, hother _, nofun⟩
    · cases hfile
      obtain ⟨kept, -, rfl⟩ := hcut
      refine ⟨rfl, fun other hne => ?_, nofun⟩
      exact (Function.update_of_ne hne _ _).trans (hother _ other hne)

/-! ## The programmer -/

/-- No sector erase is set, and if an operation is under way it is on a page that may be
changed. -/
structure Exposed (pages : Nat → Prop) (target : SimTarget) : Prop where
  ctlr : target.ctlr &&& simCtlrPer = 0
  started : target.ctlr &&& simCtlrStrt ≠ 0 → PageOf pages target.addr

theorem Exposed.holds {pages : Nat → Prop} {target : SimTarget} (h : Exposed pages target) :
    (pageRules target.memories pages).Holds target :=
  ⟨⟨rfl, rfl, fun _ _ => rfl⟩, h.ctlr, h.started⟩

theorem Exposed.mono {pages pages' : Nat → Prop} {target : SimTarget} (h : Exposed pages target)
    (hpages : ∀ index, pages index → pages' index) : Exposed pages' target where
  ctlr := h.ctlr
  started := fun hstarted => ⟨(h.started hstarted).aligned, hpages _ (h.started hstarted).page⟩

/-- Of the part only pages that may be changed have been, and no file has. -/
structure Spared (pages : Nat → Prop) (before after : LossyDesk chip) : Prop where
  files : after.files = before.files
  ram : after.sim.1.target.ram = before.sim.1.target.ram
  flash : ∀ offset, ¬pages (offset / 64) →
    after.sim.1.target.flash offset = before.sim.1.target.flash offset
  exposed : Exposed pages after.sim.1.target

theorem Spared.trans {pages : Nat → Prop} {first second third : LossyDesk chip}
    (h : Spared pages first second) (h' : Spared pages second third) : Spared pages first third where
  files := h'.files.trans h.files
  ram := h'.ram.trans h.ram
  flash := fun offset hoffset => (h'.flash offset hoffset).trans (h.flash offset hoffset)
  exposed := h'.exposed

theorem Spared.refl {pages : Nat → Prop} {state : LossyDesk chip}
    (h : Exposed pages state.sim.1.target) : Spared pages state state :=
  ⟨rfl, rfl, fun _ _ => rfl, h⟩

/-- A program that keeps to the pages, whatever is lost. -/
theorem Spared.of_programs {α : Type} {pages : Nat → Prop} {program : Program Usb α}
    {state final : LossyDesk chip} {value : α}
    (hprogram : ∀ before, (pageRules before pages).programs.Mem program)
    (hexposed : Exposed pages state.sim.1.target)
    (h : Returns (unreliableDesk chip) (onProgrammer program) state value final) :
    Spared pages state final := by
  obtain ⟨hpart, hfiles⟩ := onProgrammer_returns h
  have hholds := hpart.of_wp (wp_refines (unreliablePart_refines chip)
    (hprogram _ state.sim.1 hexposed.holds))
  exact ⟨hfiles, hholds.fact.ram, hholds.fact.flash, hholds.ctlr, hholds.started⟩

section Reading

variable {C : ProgramClass Usb} (h : HasReading C)

include h

theorem setInterfaceRaw_reading (link : Link) (familyId interfaceSpeed : Byte) :
    C.Mem (setInterfaceRaw link familyId interfaceSpeed).run := by
  apply C.andThen (wlLinkeCommand_mem C (h.select _ _))
  intro reply
  split
  · exact C.throws _
  · exact C.ok _

theorem identifyChipOnce_reading : C.StateMem identifyChipOnce.run := by
  apply C.andThenState (C.stateLiftOk C.stateGet)
  intro link
  apply C.andThenState (C.stateLift (setInterfaceRaw_reading h link _ _))
  intro _
  refine C.andThenState (C.stateLiftOk (C.stateModify fun _ => ⟨rfl, rfl⟩)) fun _ => ?_
  apply C.andThenState (C.stateLiftOk C.stateGet)
  intro link
  apply C.andThenState (C.stateLift (sendControl_mem C h.attach))
  intro reply
  dsimp only
  split
  · exact C.stateDone _
  · split
    · exact C.stateDone _
    · exact C.stateDone _

theorem wlLinkeIdentifyChip_reading : C.StateMem wlLinkeIdentifyChip.run := by
  unfold wlLinkeIdentifyChip
  simp only [tryCatch, tryCatchThe, MonadExceptOf.tryCatch, ExceptT.tryCatch]
  apply C.stateBind (identifyChipOnce_reading h)
  intro status
  cases status with
  | ok chip => exact C.stateDone _
  | error error =>
      apply C.andThenState (C.stateLiftOk C.stateGet)
      intro link
      apply C.andThenState (C.stateLift (ignore_mem C (sendControl_mem C h.run)))
      intro _
      apply C.andThenState (C.stateLiftOk C.stateGet)
      intro link
      apply C.andThenState (C.stateLift (ignore_mem C (sendControl_mem C h.release)))
      intro _
      exact identifyChipOnce_reading h

end Reading

/-- What a programmer of the part answers, some programmer of the part would. -/
theorem unreliablePart_answers {α : Type} {program residual : Program Usb α}
    {state final : {sim : Sim // sim.Of chip}} {made : List Usb.Idx}
    (h : Run (unreliablePart chip) program state made residual final) {request reply : List Byte}
    (hmem : (⟨request, .ok reply⟩ : Usb.Idx) ∈ made) :
    ∃ sim : Sim, sim.target.chip = chip ∧ (simCommand request sim).1 = .ok reply := by
  induction h with
  | refl => cases hmem
  | @step operation answer next state between trace residual final hanswer _ ih =>
      rcases List.mem_cons.mp hmem with heq | hmem
      · cases heq
        rcases hanswer with ⟨hreply, -⟩ | ⟨code, hcode, -⟩
        · exact ⟨state.1, state.2.chip, hreply.symm⟩
        · cases hcode
      · exact ih hmem

/-- The answer to an attach names the part. -/
theorem simCommand_names {sim : Sim} {reply : List Byte} (hchip : sim.target.chip ∈ chips)
    (h : (simCommand (controlRequest wlCmdControl wlCtlAttach) sim).1 = .ok reply)
    (hlength : 6 ≤ reply.length) :
    wlChipByDetectId (reply.getD 3 0) (reply.getD 4 0 ++ reply.getD 5 0) = some sim.target.chip := by
  have hcontrol : simCommand (controlRequest wlCmdControl wlCtlAttach) sim =
      (.ok (simControl sim 0x02).1, (simControl sim 0x02).2) := rfl
  rw [hcontrol] at h
  cases h
  unfold simControl at hlength ⊢
  rw [if_neg (by decide), if_pos rfl] at hlength ⊢
  split at hlength
  · change 6 ≤ 4 at hlength
    omega
  · next hfree =>
      rw [if_neg hfree]
      exact wlChipByDetectId_self _ hchip

/-- A detection that succeeds names the part, whatever is lost. -/
theorem wlLinkeIdentifyChip_names (hchip : chip ∈ chips) {link link' : Link} {part : Chip}
    {state final : {sim : Sim // sim.Of chip}}
    (h : Returns (unreliablePart chip) (wlLinkeIdentifyChip.run.run link) state (.ok part, link')
      final) : part = chip := by
  obtain ⟨made, hrun⟩ := h
  have hfollows := @wlLinkeIdentifyChip_establishes (fun _ _ => True) (fun _ _ => trivial) link
  obtain ⟨earlier, attempt, hmade, setting, attach, rfl, -, hlength, -, -, hnamed⟩ :=
    hfollows.of_run hrun part link' rfl
  have hmem : (⟨controlRequest wlCmdControl wlCtlAttach, .ok attach⟩ : Usb.Idx) ∈ made := by
    rw [List.append_nil] at hmade
    rw [hmade]
    exact List.mem_append_right _ (List.mem_cons_of_mem _ List.mem_cons_self)
  obtain ⟨sim, hsim, hanswer⟩ := unreliablePart_answers hrun hmem
  have hself := simCommand_names (by rwa [hsim]) hanswer hlength
  rw [hsim] at hself
  exact Option.some.inj (hnamed.symm.trans hself)

/-! ## Reading -/

/-- The byte of the part at an address. -/
def partByte (sim : {sim : Sim // sim.Of chip}) (address : Word) : Byte :=
  if simIsFlash address then sim.1.target.flash (simFlashOffset address)
  else sim.1.target.ram (simRamOffset chip address)

/-- A load inside a RAM range. -/
theorem Chip.InRam.of_load {start : Word} {length : Nat} (h : chip.InRam start length) {load : Load}
    (hload : ∀ address ∈ load.addresses, address ∈ addressesFrom start length) :
    chip.InRam load.address load.size.bytes := by
  have hpositive : 0 < load.size.bytes ∧ load.size.bytes ≤ 4 := by
    cases load.size <;> decide
  have hindex : ∀ j < load.size.bytes, ∃ i < length,
      start + BitVec.ofNat 32 i = load.address + BitVec.ofNat 32 j := by
    intro j hj
    have hmem := hload _ (List.mem_map_of_mem (List.mem_range.mpr hj))
    obtain ⟨i, hi, hcell⟩ := List.mem_map.mp hmem
    exact ⟨i, List.mem_range.mp hi, hcell⟩
  obtain ⟨first, hfirst, hfirstCell⟩ := hindex 0 hpositive.1
  obtain ⟨last, hlast, hlastCell⟩ := hindex (load.size.bytes - 1) (by omega)
  have hstart := h.start
  have hinside := h.inside
  have hbelow := h.below
  have hlow := congrArg BitVec.toNat hfirstCell
  have hhigh := congrArg BitVec.toNat hlastCell
  simp only [BitVec.toNat_add, BitVec.toNat_ofNat] at hlow hhigh
  exact ⟨h.above, h.below, by omega, by omega⟩

/-- A load of the part reports its bytes. -/
theorem Chip.Readable.load_holds {target : SimTarget} {load : Load} {memory : Word → Byte}
    (h : target.chip.Readable load.address load.size.bytes)
    (hmemory : ∀ address, memory address = if simIsFlash address then
      target.flash (simFlashOffset address) else target.ram (simRamOffset target.chip address)) :
    load.Holds memory (target.loaded load.size load.address) := by
  unfold Load.Holds Load.addresses addressesFrom
  rcases h with h | h
  · have hfrom := SimTarget.loadsFrom_flash (by rwa [Width.bytes_eq] at h)
    rw [hfrom.bytes, List.map_map]
    apply List.map_congr_left
    intro i hi
    have hin : target.chip.InFlash load.address (i + 1) := h.mono (List.mem_range.mp hi)
    rw [Function.comp_apply, hmemory, if_pos (hin.add one_pos).window, hin.offset_add one_pos]
  · have hfrom := SimTarget.loadsFrom_ram (by rwa [Width.bytes_eq] at h)
    rw [hfrom.bytes, List.map_map]
    apply List.map_congr_left
    intro i hi
    have hin : target.chip.InRam load.address (i + 1) := h.mono (List.mem_range.mp hi)
    rw [Function.comp_apply, hmemory, if_neg (by rw [hin.add.notFlash]; decide), hin.offset_add]

/-- The programs that leave the part's memories as they are. -/
def undisturbed (chip : Chip) : ProgramClass Usb :=
  keeping (unreliablePart chip) (fun _ _ => True)
    (fun before after => after.1.target.flash = before.1.target.flash ∧
      after.1.target.ram = before.1.target.ram)
    (fun _ => ⟨rfl, rfl⟩) fun h h' => ⟨h'.1.trans h.1, h'.2.trans h.2⟩

/-- A load leaves the memories alone, and reports what it succeeds to read. -/
theorem load_undisturbed (link : Link) (load : Load) (state : {sim : Sim // sim.Of chip}) :
    (load.request link).run.wp (unreliablePart chip) (fun _ _ => True) (fun status final =>
      (final.1.target.flash = state.1.target.flash ∧ final.1.target.ram = state.1.target.ram) ∧
        (chip.Readable load.address load.size.bytes →
          ∀ word, status = some (.ok word) → load.Holds (partByte state) word)) state := by
  have hread : TargetTriple (fun target => target.chip = chip ∧
        target.flash = state.1.target.flash ∧ target.ram = state.1.target.ram) (fun _ => True)
      (load.request link) fun word _ => chip.Readable load.address load.size.bytes →
        load.Holds (partByte state) word := by
    apply dmReadSized_target
    rintro target ⟨rfl, hflash, hram⟩ -
    have hunmoved := SimTarget.Unmoved.afterLoad target load.size load.address
    refine ⟨⟨hunmoved.chip, hunmoved.flash.trans hflash, hunmoved.ram.trans hram⟩, fun hin => ?_⟩
    apply hin.load_holds
    intro address
    rw [partByte, hflash, hram]
  have hloaded := wp_refines (unreliablePart_refines chip)
    (hread state.1 ⟨state.2.chip, rfl, rfl⟩ trivial)
  apply wp_mono (wp_allow (fun _ _ _ => trivial) hloaded)
  rintro status final ⟨⟨-, hflash, hram⟩, hword⟩
  exact ⟨⟨hflash, hram⟩, fun hin word hstatus => hword word hstatus hin⟩

theorem undisturbed_request {request : List Byte}
    (h : ∀ sim, (simCommand request sim).2.target = sim.target) :
    (undisturbed chip).Mem (transportCommand request) := by
  apply keeps_perform fun _ => trivial
  intro state reply next hnext
  rcases hnext.next with hsame | hdone
  · rw [hsame]
    exact ⟨rfl, rfl⟩
  · rw [hdone, h]
    exact ⟨rfl, rfl⟩

theorem undisturbed_reading (chip : Chip) : HasReading (undisturbed chip) where
  attach := undisturbed_request (simCommand_control_target _ _)
  run := undisturbed_request (simCommand_control_target _ _)
  release := undisturbed_request (simCommand_control_target _ _)
  loads link := ⟨fun size address state => wp_mono (load_undisturbed link ⟨size, address⟩ state)
    fun _ _ h => h.1⟩
  select _ _ := undisturbed_request fun _ => rfl

theorem partByte_undisturbed {α : Type} {program : Program Usb α}
    {state final : {sim : Sim // sim.Of chip}} {value : α} (hprogram : (undisturbed chip).Mem program)
    (h : Returns (unreliablePart chip) program state value final) :
    partByte final = partByte state := by
  obtain ⟨hflash, hram⟩ := h.of_wp (hprogram state)
  funext address
  rw [partByte, partByte, hflash, hram]

/-- Whatever is lost, what loads of a range that can be read report is there. -/
theorem Chip.Readable.truthful {start : Word} {length : Nat} (h : chip.Readable start length) :
    Truthful (unreliablePart chip) partByte (addressesFrom start length) where
  load := by
    intro link load state final status hload hreturns
    have hin : chip.Readable load.address load.size.bytes :=
      h.imp (fun h => h.of_load hload) fun h => h.of_load hload
    obtain ⟨⟨hflash, hram⟩, hholds⟩ := hreturns.of_wp (load_undisturbed link load state)
    refine ⟨?_, fun word hword => hholds hin word (congrArg some hword)⟩
    funext address
    rw [partByte, partByte, hflash, hram]
  attach := by
    intro state reply next hnext
    apply partByte_undisturbed (undisturbed_reading chip).attach
    exact returns_perform_iff.mpr hnext
  select := by
    intro familyId interfaceSpeed state reply next hnext
    apply partByte_undisturbed ((undisturbed_reading chip).select familyId interfaceSpeed)
    exact returns_perform_iff.mpr hnext

/-! ## What the commands do -/

/-- A program that only reads, in what it leaves. -/
theorem Spared.of_reading {α : Type} {pages : Nat → Prop} {program : Program Usb α}
    {state final : LossyDesk chip} {value : α}
    (hprogram : ∀ C : ProgramClass Usb, HasReading C → C.Mem program)
    (hexposed : Exposed pages state.sim.1.target)
    (h : Returns (unreliableDesk chip) (onProgrammer program) state value final) :
    Spared pages state final ∧ final.shelf = state.shelf := by
  obtain ⟨hpart, hfiles⟩ := onProgrammer_returns h
  obtain ⟨hflash, hram⟩ := hpart.of_wp (hprogram _ (undisturbed_reading chip) state.sim)
  refine ⟨.of_programs (fun _ => hprogram _ (supervised_reading _)) hexposed h, ?_⟩
  unfold LossyDesk.shelf
  rw [hflash, hram, hfiles]

theorem wlLinkeOpen_returns {serial : Option String} {state final : LossyDesk chip}
    {opened : Except WlErr Link}
    (h : Returns (unreliableDesk chip) (wlLinkeOpen serial) state opened final) : final = state := by
  obtain ⟨reply, _, rfl, h⟩ := ask_returns.mp h
  cases reply with
  | error status => exact (returns_done_iff.mp h).2
  | ok done => exact (returns_done_iff.mp h).2

theorem wlLinkeClose_returns {pages : Nat → Prop} {link : Link} {state final : LossyDesk chip}
    (hexposed : Exposed pages state.sim.1.target)
    (h : Returns (unreliableDesk chip) (wlLinkeClose link) state () final) :
    Spared pages state final ∧ final.shelf = state.shelf := by
  obtain ⟨detached, next, hdetach, h⟩ := returns_bind_iff.mp h
  have hsame : next = final := returns_perform_iff.mp h
  rw [← hsame]
  exact Spared.of_reading (fun C hC => wlLinkeDetach_mem C hC.release) hexposed hdetach

/-- The part a command works on is the part, whatever is lost. -/
theorem resolveChip_returns (hchip : chip ∈ chips) {given : Option Chip}
    (hgiven : given = none ∨ given = some chip) {pages : Nat → Prop} {link link' : Link}
    {state final : LossyDesk chip} {status : Except WlErr Chip}
    (hexposed : Exposed pages state.sim.1.target)
    (h : Returns (unreliableDesk chip) (resolveChip given link) state (status, link') final) :
    (Spared pages state final ∧ final.shelf = state.shelf) ∧
      ∀ part, status = .ok part → part = chip := by
  rcases hgiven with rfl | rfl
  · refine ⟨Spared.of_reading (fun C hC => (wlLinkeIdentifyChip_reading hC link).1) hexposed h, ?_⟩
    rintro part rfl
    exact wlLinkeIdentifyChip_names hchip (onProgrammer_returns h).1
  · obtain ⟨hstatus, rfl⟩ := returns_done_iff.mp h
    obtain ⟨rfl, rfl⟩ := Prod.mk.inj hstatus
    refine ⟨⟨.refl hexposed, rfl⟩, ?_⟩
    rintro part ⟨⟩
    rfl

/-- The end of a command that has opened the programmer. -/
theorem closing_returns {pages : Nat → Prop} {link : Link} {start state final : LossyDesk chip}
    {result status : Except WlErr Unit} (hspared : Spared pages start state)
    (h : Returns (unreliableDesk chip) (wlLinkeClose link >>= fun _ => pure result) state status
      final) :
    Spared pages start final ∧ final.shelf = state.shelf ∧ status = result := by
  obtain ⟨closed, next, hclose, h⟩ := returns_bind_iff.mp h
  obtain ⟨rfl, rfl⟩ := returns_done_iff.mp h
  obtain ⟨hkept, hshelf⟩ := wlLinkeClose_returns hspared.exposed hclose
  exact ⟨hspared.trans hkept, hshelf, rfl⟩

theorem flashImage_returns (hchip : chip ∈ chips) {opts : Options} {given : Option Chip}
    (hgiven : given = none ∨ given = some chip) {image : List Byte} (hlength : image.length < 2 ^ 63)
    {pages : Nat → Prop}
    (hpages : ∀ index, ImagePage (imageStart chip (flashAddress chip opts)) image.length index →
      pages index) {state final : LossyDesk chip} {status : Except WlErr Unit}
    (hexposed : Exposed pages state.sim.1.target)
    (h : Returns (unreliableDesk chip) (flashImage opts given image) state status final) :
    Spared pages state final ∧ (status = .ok () → opts.verify = true →
      bytesFrom (final.shelf.byteAt chip) (normalise chip (flashAddress chip opts)) image.length =
        image) := by
  have hcount : (BitVec.ofNat 64 image.length).toNat = image.length := by
    rw [BitVec.toNat_ofNat]
    exact Nat.mod_eq_of_lt (by omega)
  have hsmall : (BitVec.ofNat 64 image.length).toNat ≤ 2 ^ 63 - 1 := by omega
  unfold flashImage at h
  obtain ⟨opened, _, hopen, h⟩ := returns_bind_iff.mp h
  obtain rfl := wlLinkeOpen_returns hopen
  cases opened with
  | error error =>
      obtain ⟨rfl, rfl⟩ := returns_done_iff.mp h
      exact ⟨.refl hexposed, nofun⟩
  | ok link =>
      obtain ⟨⟨resolved, link'⟩, named, hresolve, h⟩ := returns_bind_iff.mp h
      obtain ⟨⟨hnamed, hshelf⟩, hpart⟩ := resolveChip_returns hchip hgiven hexposed hresolve
      cases resolved with
      | error error =>
          obtain ⟨hclosed, -, rfl⟩ := closing_returns hnamed h
          exact ⟨hclosed, nofun⟩
      | ok part =>
          obtain rfl := hpart part rfl
          dsimp only at h
          split at h
          · obtain ⟨hclosed, -, rfl⟩ := closing_returns hnamed h
            exact ⟨hclosed, nofun⟩
          · have haddress : (if opts.addressGiven then opts.address else part.flashBase) =
                flashAddress part opts := rfl
            rw [haddress] at h
            split at h
            · obtain ⟨hclosed, -, rfl⟩ := closing_returns hnamed h
              exact ⟨hclosed, nofun⟩
            · obtain ⟨⟨written, link''⟩, flashed, hwrite, h⟩ := returns_bind_iff.mp h
              have hflashed : Spared pages named flashed := by
                apply Spared.of_programs (fun before => ?_) hnamed.exposed hwrite
                refine (wlLinkeWriteFlash_reading (supervised_reading _) part _ image _ _
                  (fun link => ?_) link').1
                exact wlFlashWrite_imagePages link hchip _ image hsmall (by rwa [hcount])
              obtain ⟨hclosed, hlast, rfl⟩ := closing_returns (hnamed.trans hflashed) h
              refine ⟨hclosed, ?_⟩
              rintro rfl hverify
              rw [hverify] at hwrite
              obtain ⟨hin, hbytes⟩ := wlLinkeWriteFlash_verified hchip _ image hsmall
                (onProgrammer_returns hwrite).1
              rw [hcount] at hin hbytes
              rw [hlast]
              exact bytesFrom_inFlash hin hbytes

/-- A file read leaves the part alone. -/
theorem Spared.of_readFile {pages : Nat → Prop} {path : String} {state final : LossyDesk chip}
    {status : Except WlErr (List Byte)} (hexposed : Exposed pages state.sim.1.target)
    (h : Returns (unreliableDesk chip) (readFile path) state status final) :
    Spared pages state final := by
  obtain ⟨hsim, hfiles, -⟩ := readFile_returns h
  exact ⟨hfiles, by rw [hsim], fun _ _ => by rw [hsim], by rwa [hsim]⟩

/-- A `flash` that does not succeed. -/
theorem Spared.refused {opts : Options} {pages : Nat → Prop} {before after : LossyDesk chip}
    {status : Except WlErr Unit} (h : Spared pages before after) (hstatus : status ≠ .ok ()) :
    MayFlash chip opts pages before.shelf status after.shelf ∧ Exposed pages after.sim.1.target :=
  ⟨⟨h.files, h.ram, h.flash, fun hok => absurd hok hstatus⟩, h.exposed⟩

/-- The image that has been read from a file is flashed. -/
theorem readThenFlash_returns (hchip : chip ∈ chips) {opts : Options} {given : Option Chip}
    (hgiven : given = none ∨ given = some chip) {file : String} (hfile : opts.file = some file)
    {image : List Byte} {pages : Nat → Prop} {state next final : LossyDesk chip}
    {status : Except WlErr Unit}
    (hpages : ∀ index, state.shelf.imagePages chip opts index → pages index)
    (hexposed : Exposed pages state.sim.1.target)
    (hread : Returns (unreliableDesk chip) (readFile file) state (.ok image) next)
    (hwrite : Returns (unreliableDesk chip) (flashImage opts given image) next status final) :
    MayFlash chip opts pages state.shelf status final.shelf ∧ Exposed pages final.sim.1.target := by
  have hnext := Spared.of_readFile hexposed hread
  obtain ⟨-, -, himage⟩ := readFile_returns hread
  obtain ⟨hcontents, -, hlength⟩ := himage image rfl
  have hnamed : opts.file.bind state.files = some image := by
    rw [hfile, Option.bind_some, hcontents]
  obtain ⟨hspared, hverified⟩ := flashImage_returns hchip hgiven hlength
    (fun index hindex => hpages index ⟨image, hnamed, hindex⟩) hnext.exposed hwrite
  have hwhole := hnext.trans hspared
  exact ⟨⟨hwhole.files, hwhole.ram, hwhole.flash, fun hok hverify =>
    ⟨image, hnamed, hverified hok hverify⟩⟩, hwhole.exposed⟩

theorem cmdFlash_returns (hchip : chip ∈ chips) {opts : Options} (hnames : opts.Names chip)
    {file : String} (hfile : opts.file = some file) {pages : Nat → Prop}
    {state final : LossyDesk chip} {status : Except WlErr Unit}
    (hpages : ∀ index, state.shelf.imagePages chip opts index → pages index)
    (hexposed : Exposed pages state.sim.1.target)
    (h : Returns (unreliableDesk chip) (cmdFlash opts file) state status final) :
    MayFlash chip opts pages state.shelf status final.shelf ∧ Exposed pages final.sim.1.target := by
  unfold cmdFlash at h
  -- A detected part is checked once it is known, a named one before the file is read.
  rcases hnames.given with ⟨hnone, hrequired⟩ | ⟨⟨name, hsome⟩, hrequired⟩
  · rw [hnone, hrequired] at h
    simp only [Option.isSome_none, Bool.false_and, Bool.false_eq_true, if_false] at h
    obtain ⟨read, next, hread, h⟩ := returns_bind_iff.mp h
    cases read with
    | error error =>
        obtain ⟨rfl, rfl⟩ := returns_done_iff.mp h
        exact (Spared.of_readFile hexposed hread).refused nofun
    | ok image => exact readThenFlash_returns hchip (.inl rfl) hfile hpages hexposed hread h
  · rw [hsome, hrequired] at h
    dsimp only at h
    by_cases hcan : (Option.isSome (some chip) && !wlLinkeCanFlash (some chip)) = true
    · rw [if_pos hcan] at h
      obtain ⟨rfl, rfl⟩ := returns_done_iff.mp h
      exact (Spared.refl hexposed).refused nofun
    rw [if_neg hcan] at h
    obtain ⟨read, next, hread, h⟩ := returns_bind_iff.mp h
    cases read with
    | error error =>
        obtain ⟨rfl, rfl⟩ := returns_done_iff.mp h
        exact (Spared.of_readFile hexposed hread).refused nofun
    | ok image =>
        have haddress : (if opts.addressGiven then opts.address else chip.flashBase) =
            flashAddress chip opts := rfl
        dsimp only at h
        rw [haddress] at h
        split at h
        · obtain ⟨rfl, rfl⟩ := returns_done_iff.mp h
          exact (Spared.of_readFile hexposed hread).refused nofun
        · exact readThenFlash_returns hchip (.inr rfl) hfile hpages hexposed hread h

/-- What `read` does with the programmer leaves the part as it is, and if it succeeds the
file holds what was read. -/
theorem readOpened_returns (hchip : chip ∈ chips) {opts : Options} {given : Option Chip}
    (hgiven : given = none ∨ given = some chip) (hrange : opts.NamesRange)
    (hreadable : opts.NamesRange → opts.wholeFlash = false →
      chip.Readable opts.address opts.size)
    {file : String} (hfile : opts.file = some file) {pages : Nat → Prop}
    {state final : LossyDesk chip} {status : Except WlErr Unit}
    (hexposed : Exposed pages state.sim.1.target)
    (h : Returns (unreliableDesk chip) (readOpened opts given file) state status final) :
    MayRead chip opts state.shelf status final.shelf ∧ Exposed pages final.sim.1.target := by
  have hin := readRange_readable hchip hrange hreadable
  unfold readOpened at h
  obtain ⟨opened, start, hopen, h⟩ := returns_bind_iff.mp h
  obtain rfl := wlLinkeOpen_returns hopen
  cases opened with
  | error error =>
      obtain ⟨rfl, rfl⟩ := returns_done_iff.mp h
      exact ⟨.untouched rfl nofun, hexposed⟩
  | ok link =>
      obtain ⟨⟨resolved, link'⟩, named, hresolve, h⟩ := returns_bind_iff.mp h
      obtain ⟨⟨hnamed, hshelf⟩, hpart⟩ := resolveChip_returns hchip hgiven hexposed hresolve
      cases resolved with
      | error error =>
          obtain ⟨hclosed, hlast, rfl⟩ := closing_returns hnamed h
          exact ⟨.untouched (hlast.trans hshelf) nofun, hclosed.exposed⟩
      | ok part =>
          obtain rfl := hpart part rfl
          obtain ⟨allocated, _, rfl, h⟩ := ask_returns.mp h
          cases allocated with
          | false =>
              obtain ⟨hclosed, hlast, rfl⟩ := closing_returns hnamed h
              exact ⟨.untouched (hlast.trans hshelf) nofun, hclosed.exposed⟩
          | true =>
              obtain ⟨⟨read, link''⟩, copied, hread, h⟩ := returns_bind_iff.mp h
              obtain ⟨hcopied, hsame⟩ := Spared.of_reading
                (fun C hC => (wlLinkeReadMemory_reading hC part _ _ link').1) hnamed.exposed hread
              obtain ⟨closed, next, hclose, h⟩ := returns_bind_iff.mp h
              obtain ⟨hkept, hlast⟩ := wlLinkeClose_returns hcopied.exposed hclose
              have hnext : next.shelf = start.shelf := (hlast.trans hsame).trans hshelf
              cases read with
              | error error =>
                  obtain ⟨rfl, rfl⟩ := returns_done_iff.mp h
                  exact ⟨.untouched hnext nofun, hkept.exposed⟩
              | ok buffer =>
                  have hbytes := (wlLinkeReadMemory_readsBack hin.truthful (fun _ h => h)
                    (onProgrammer_returns hread).1).bytes buffer rfl
                  have hmemory : partByte named.sim = start.shelf.byteAt part := by
                    rw [← hshelf]
                    rfl
                  rw [hmemory] at hbytes
                  subst hbytes
                  obtain ⟨hsim, hother, hwritten⟩ := writeFile_returns h
                  refine ⟨⟨?_, ?_, ?_, ?_⟩, by rw [hsim]; exact hkept.exposed⟩
                  · exact (congrArg (fun sim => sim.1.target.flash) hsim).trans
                      (congrArg Shelf.flash hnext)
                  · exact (congrArg (fun sim => sim.1.target.ram) hsim).trans
                      (congrArg Shelf.ram hnext)
                  · intro path hpath
                    have hne : path ≠ file := fun heq => hpath (by rw [hfile, heq])
                    exact (hother path hne).trans (congrFun (congrArg Shelf.files hnext) path)
                  · exact fun hok => ⟨file, hfile, hrange, hwritten hok⟩

theorem cmdRead_returns (hchip : chip ∈ chips) {opts : Options} (hnames : opts.Names chip)
    (hreadable : opts.NamesRange → opts.wholeFlash = false →
      chip.Readable opts.address opts.size)
    {file : String} (hfile : opts.file = some file) {pages : Nat → Prop}
    {state final : LossyDesk chip} {status : Except WlErr Unit}
    (hexposed : Exposed pages state.sim.1.target)
    (h : Returns (unreliableDesk chip) (cmdRead opts file) state status final) :
    MayRead chip opts state.shelf status final.shelf ∧ Exposed pages final.sim.1.target := by
  rw [cmdRead_eq] at h
  by_cases hrange : opts.NamesRange
  · rw [if_neg fun hrefused => (refuses_range opts).mp hrefused hrange] at h
    rcases hnames.given with ⟨hnone, hrequired⟩ | ⟨⟨name, hsome⟩, hrequired⟩
    · rw [hnone, hrequired] at h
      exact readOpened_returns hchip (.inl rfl) hrange hreadable hfile hexposed h
    · rw [hsome, hrequired] at h
      exact readOpened_returns hchip (.inr rfl) hrange hreadable hfile hexposed h
  · rw [if_pos ((refuses_range opts).mpr hrange)] at h
    obtain ⟨rfl, rfl⟩ := returns_done_iff.mp h
    exact ⟨.untouched rfl nofun, hexposed⟩

/-! ## Errands -/

/-- What one command leaves. -/
theorem errand_returns (hchip : chip ∈ chips) {errand : Errand} (hsuits : errand.Suits chip)
    {pages : Nat → Prop} {state final : LossyDesk chip} {status : Except WlErr Unit}
    (hpages : ∀ index, errand.pages chip state.shelf index → pages index)
    (hexposed : Exposed pages state.sim.1.target)
    (h : Returns (unreliableDesk chip) errand.command state status final) :
    errand.May chip pages state.shelf status final.shelf ∧ Exposed pages final.sim.1.target := by
  have hrefused : (.error .usage : Except WlErr Unit) ≠ .ok () := by
    intro hok
    cases hok
  cases errand with
  | flash opts =>
      cases hfile : opts.file with
      | none =>
          simp only [Errand.command, Command.run, hfile] at h
          obtain ⟨rfl, rfl⟩ := returns_done_iff.mp h
          exact (Spared.refl hexposed).refused hrefused
      | some file =>
          simp only [Errand.command, Command.run, hfile] at h
          exact cmdFlash_returns hchip hsuits hfile hpages hexposed h
  | read opts =>
      cases hfile : opts.file with
      | none =>
          simp only [Errand.command, Command.run, hfile] at h
          obtain ⟨rfl, rfl⟩ := returns_done_iff.mp h
          exact ⟨.untouched rfl hrefused, hexposed⟩
      | some file =>
          simp only [Errand.command, Command.run, hfile] at h
          exact cmdRead_returns hchip hsuits.1 hsuits.2 hfile hexposed h

theorem runErrands_returns (hchip : chip ∈ chips) (errands : List Errand)
    (hsuits : ∀ errand ∈ errands, errand.Suits chip) {risked : Nat → Prop}
    {state final : LossyDesk chip} {statuses : List (Except WlErr Unit)}
    (hexposed : Exposed risked state.sim.1.target)
    (h : Returns (unreliableDesk chip) (runErrands errands) state statuses final) :
    ErrandsMay chip risked errands state.shelf statuses final.shelf := by
  induction errands generalizing risked state statuses with
  | nil =>
      obtain ⟨rfl, rfl⟩ := returns_done_iff.mp h
      exact .nil risked _
  | cons errand errands ih =>
      obtain ⟨status, between, hfirst, h⟩ := returns_bind_iff.mp h
      obtain ⟨rest, last, hrest, h⟩ := returns_bind_iff.mp h
      obtain ⟨rfl, rfl⟩ := returns_done_iff.mp h
      obtain ⟨hmay, hbetween⟩ := errand_returns hchip (hsuits errand List.mem_cons_self)
        (fun _ hindex => Or.inr hindex) (hexposed.mono fun _ hindex => Or.inl hindex) hfirst
      -- The first command may leave an operation under way, so its pages stay at risk.
      exact .cons hmay (ih (fun other hother => hsuits other (List.mem_cons_of_mem errand hother))
        hbetween hrest)

/-- Whatever is lost or fails, commands that flash files and read memory into files change
of the part only the pages of the images they have flashed, and of the files only those
they have read into; one that verifies and succeeds has put its image there, and a read
that succeeds has the bytes that were there. -/
theorem runErrands_unreliable (chip : Chip) (hchip : chip ∈ chips) (errands : List Errand)
    (hsuits : ∀ errand ∈ errands, errand.Suits chip) (state : LossyDesk chip)
    (hidle : state.sim.1.target.ctlr &&& (simCtlrPer ||| simCtlrStrt) = 0)
    (statuses : List (Except WlErr Unit)) (final : LossyDesk chip)
    (h : Returns (unreliableDesk chip) (runErrands errands) state statuses final) :
    ErrandsMay chip (fun _ => False) errands state.shelf statuses final.shelf := by
  have hexposed : Exposed (fun _ => False) state.sim.1.target :=
    ⟨clear_bits hidle (by decide), fun hstarted => absurd (clear_bits hidle (by decide)) hstarted⟩
  exact runErrands_returns hchip errands hsuits hexposed h

/-- The desk where nothing fails. -/
def steadyDesk (chip : Chip) : Handler Cli (LossyDesk chip)
  | .host (.usb request), state =>
      ((simulatorOf chip request state.sim).1,
        { state with sim := (simulatorOf chip request state.sim).2 })
  | .stat path, state =>
      (((state.files path).filter fun data => data.length < 2 ^ 63).map fun data =>
        (true, data.length), state)
  | .openRead path, state =>
      if (state.files path).isSome then
        (true, { state with opened := some ⟨path, false⟩ })
      else
        (false, state)
  | .openWrite path, state =>
      (true, { state with
        files := Function.update state.files path (some [])
        opened := some ⟨path, true⟩ })
  | .fwrite data, state =>
      match state.opened with
      | none => (0, state)
      | some file =>
          (data.length, { state with
            files := Function.update state.files file.path
              (some ((state.files file.path).getD [] ++ data)) })
  | .fclose, state => (true, { state with opened := none })
  | operation, state =>
      ((desk operation ⟨state.sim.1, state.files, state.opened.map OpenedFile.path⟩).1, state)

theorem steadyDesk_unreliable (state : LossyDesk chip) (operation : CliOp)
    (reply : operation.Reply) (next : LossyDesk chip)
    (h : (steadyDesk chip).world state operation reply next) :
    unreliableDesk chip state operation reply next := by
  have hreply : (steadyDesk chip operation state).1 = reply := congrArg Prod.fst h
  have hnext : (steadyDesk chip operation state).2 = next := congrArg Prod.snd h
  cases operation with
  | host operation =>
      cases operation with
      | usb request =>
          refine ⟨_, .inl ⟨hreply.symm, ?_⟩, hnext.symm⟩
          rfl
      | _ => exact hnext
  | stat path =>
      refine ⟨hnext, ?_⟩
      intro size hsize
      rw [← hreply] at hsize
      obtain ⟨data, hdata, hcount⟩ := Option.map_eq_some_iff.mp hsize
      obtain ⟨hfile, hsmall⟩ := Option.filter_eq_some_iff.mp hdata
      obtain ⟨-, rfl⟩ := Prod.mk.inj hcount
      exact ⟨of_decide_eq_true hsmall, data, hfile, rfl⟩
  | openRead path =>
      unfold steadyDesk at h
      dsimp only [Handler.world] at h
      split at h
      · obtain ⟨rfl, rfl⟩ := Prod.mk.inj h
        exact .inr ⟨rfl, rfl⟩
      · obtain ⟨rfl, rfl⟩ := Prod.mk.inj h
        exact .inl ⟨rfl, rfl⟩
  | fread size =>
      refine ⟨hnext, ?_⟩
      have hread : (steadyDesk chip (.fread size) state).1 =
          ((state.opened.bind fun file => state.files file.path).getD []).take size := by
        unfold steadyDesk
        dsimp only [desk]
        rw [Option.bind_map]
        rfl
      rw [← hreply, hread]
  | openWrite path => exact .inr ⟨hreply.symm, hnext.symm⟩
  | fwrite data =>
      unfold steadyDesk at h
      unfold unreliableDesk
      dsimp only [Handler.world] at h ⊢
      cases hopened : state.opened with
      | none =>
          rw [hopened] at h
          obtain ⟨rfl, rfl⟩ := Prod.mk.inj h
          exact ⟨rfl, rfl⟩
      | some file =>
          rw [hopened] at h
          obtain ⟨rfl, rfl⟩ := Prod.mk.inj h
          refine ⟨le_rfl, ?_⟩
          rw [List.take_length]
  | fclose => exact .inl hnext.symm
  | _ => exact hnext

/-- A part at rest, and one file. -/
def lossyDesk : LossyDesk ch32v003 where
  sim := lossyStart
  files := fun path => if path = "image.bin" then some [0x13, 0x05, 0x10] else none
  opened := none

/-- On a desk where nothing fails a part that is named is flashed, and read into a file. -/
theorem runErrands_unreliable_steady : ∃ final,
    Returns (unreliableDesk ch32v003) (runErrands [.flash { flashOptions with
      chip := some "ch32v003", address := 0 }, .read readOptions]) lossyDesk [.ok (), .ok ()] final ∧
    ErrandsMay ch32v003 (fun _ => False) [.flash { flashOptions with
      chip := some "ch32v003", address := 0 }, .read readOptions] lossyDesk.shelf [.ok (), .ok ()]
      final.shelf := by
  have hok : ((runErrands [.flash { flashOptions with chip := some "ch32v003", address := 0 },
      .read readOptions]).run (steadyDesk ch32v003) lossyDesk).1 = some [.ok (), .ok ()] := by
    decide +kernel
  have hreturns := (returns_of_fst hok).mono steadyDesk_unreliable
  refine ⟨_, hreturns, runErrands_unreliable ch32v003 (List.Mem.head _) _ ?_ lossyDesk (by decide)
    _ _ hreturns⟩
  intro errand herrand
  simp only [List.mem_cons, List.not_mem_nil, or_false] at herrand
  rcases herrand with rfl | rfl
  · exact .inr (by decide)
  · exact readOptions_suits

end WchLink
