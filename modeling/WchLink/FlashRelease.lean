import WchLink.FlashStores
import WchLink.Interaction.Reach

/-! # Whether a flash request lets the target go

Halting the target attaches the programmer, and the sequence that lets the part
run detaches it again. Between the two the write has many ways to fail, and the
release stands only behind one of them.
-/

namespace WchLink

open Bytes Interaction

/-! ## Requests refused for their arguments -/

/-- The argument checks of a flash write. -/
def wlFlashWriteRefuses (chip : Option Chip) (address : Word) (image : Option (List Byte))
    (length : BitVec 64) : Prop :=
  image = none ∨ length = 0 ∨ (∀ part, chip = some part → part.algo = .unsupported) ∨
    wlFlashRangeOk chip address length = false

/-- A refused write asks nothing of the programmer. -/
theorem wlFlashWrite_refuses (link : Link) {chip : Option Chip} {address : Word}
    {image : Option (List Byte)} {length : BitVec 64}
    (h : wlFlashWriteRefuses chip address image length) :
    ∃ error, wlFlashWrite link chip address image length = throw error := by
  cases chip with
  | none => exact ⟨_, rfl⟩
  | some part =>
      cases image with
      | none => exact ⟨_, rfl⟩
      | some image =>
          unfold wlFlashWrite
          dsimp only
          by_cases hlength : length = 0
          · rw [if_pos hlength]
            exact ⟨_, rfl⟩
          · rw [if_neg hlength]
            by_cases halgo : part.algo = .unsupported
            · rw [if_pos halgo]
              exact ⟨_, rfl⟩
            · rw [if_neg halgo]
              rcases h with himage | hzero | hunsupported | hrange
              · cases himage
              · exact absurd hzero hlength
              · exact absurd (hunsupported part rfl) halgo
              · rw [hrange]
                exact ⟨_, rfl⟩

/-! ## The programmer around the write -/

/-- The programs that leave the programmer attached as it was. -/
def attachKeeping : ProgramClass Usb :=
  Program.keeping simulator.world (fun _ _ => True) (fun before after => after.attached = before.attached)
    (fun _ => rfl) fun h h' => h'.trans h

theorem attachKeeping_cuts : attachKeeping.Cuts := fun _ => rfl

theorem attachKeeping_hasAccesses (link : Link) : HasAccesses attachKeeping link := by
  refine hasAccesses_of_requests attachKeeping (fun reg value operation => ?_) link
  refine @Program.keeps_perform Usb _ simulator.world _ _ (regRequest reg value operation)
    (fun _ => trivial) fun sim reply next hreply => ?_
  have hnext : next = (simCommand (regRequest reg value operation) sim).2 :=
    (congrArg Prod.snd hreply).symm
  rw [hnext]
  show (simRegister sim reg _ operation).2.attached = sim.attached
  unfold simRegister
  split
  · rfl
  · split
    · rfl
    · split
      · rfl
      · rfl

/-- The simulator once the link has seen to the part's setting. -/
def Sim.selected (sim : Sim) (link : Link) (part : Chip) : Sim :=
  if link.configured && link.chipId == part.linkeId then sim
  else { sim with
    configured := true
    chipId := part.linkeId
    interfaceSpeed := part.interfaceSpeed }

theorem wlLinkeSetInterface_run {link : Link} (hlink : link.Usable) (part : Chip) (sim : Sim) :
    ((wlLinkeSetInterface (some part)).run.run link).run simulator sim =
      (some (.ok (), link.set part), sim.selected link part) := by
  obtain ⟨transport, isOpen, chipId, configured⟩ := link
  obtain ⟨rfl, rfl⟩ := hlink
  show ((if (configured && chipId == part.linkeId) = true then _ else _ :
    Linked Unit).run.run _).run simulator sim = _
  unfold Sim.selected
  dsimp only
  by_cases hset : (configured && chipId == part.linkeId) = true
  · rw [if_pos hset, if_pos hset]
    rw [Bool.and_eq_true, beq_iff_eq] at hset
    obtain ⟨rfl, rfl⟩ := hset
    rfl
  · rw [if_neg hset, if_neg hset]
    rfl

/-- The simulator once the part has been halted. -/
def Sim.held (sim : Sim) (link : Link) (part : Chip) : Sim :=
  { sim.selected link part with attached := true }

theorem wlLinkeHalt_holds {link : Link} (hlink : link.Usable) (sim : Sim) :
    (wlLinkeHalt link).run.run simulator sim = (some (.ok ()), { sim with attached := true }) := by
  have hattached : (simControl sim 0x02).2.attached = true := by
    unfold simControl
    rw [if_neg (by decide), if_pos rfl]
    by_cases hrefused : (sim.attached && sim.failAttachWhileAttached) = true
    · rw [if_pos hrefused]
      exact (Bool.and_eq_true _ _ ▸ hrefused).1
    · rw [if_neg hrefused]
  have hcommand := simCommand_attach sim
  rw [hattached] at hcommand
  exact Program.run_except_ok (sendControl_run hlink _ _ hcommand)

/-! ## The whole request -/

/-- On return the programmer is detached, and a request refused for its
arguments was not sent at all. -/
def ReleasesTarget (link : Link) (chip : Option Chip) (address : Word)
    (image : Option (List Byte)) (length : BitVec 64) (verify : Bool) (sim : Sim) : Prop :=
  ∀ made status link' sim',
    Program.Run simulator.world ((wlLinkeWriteFlash chip address image length verify).run.run link)
      sim made (.done (status, link')) sim' →
    sim'.attached = false ∧ (wlFlashWriteRefuses chip address image length → made = [])

/-- The write fails on the halted part. -/
def WriteFails (link : Link) (part : Chip) (address : Word) (image : Option (List Byte))
    (length : BitVec 64) (sim : Sim) : Prop :=
  ∃ error sim', (wlFlashWrite (link.set part) (some part) address image length).run.run simulator
    (sim.held link part) = (some (.error error), sim')

theorem writeFails_of_refused {link : Link} {part : Chip} {address : Word}
    {image : Option (List Byte)} {length : BitVec 64} (sim : Sim)
    (h : wlFlashWriteRefuses (some part) address image length) :
    WriteFails link part address image length sim := by
  obtain ⟨error, hthrow⟩ := wlFlashWrite_refuses (link.set part) h
  rw [WriteFails, hthrow]
  exact ⟨error, _, rfl⟩

theorem attachKeeping_run {α : Type} {program : Program Usb α} (h : attachKeeping.Mem program)
    (sim : Sim) : (program.run simulator sim).2.attached = sim.attached :=
  (Program.wp_handler_iff simulator program _ sim).mp (h sim)

section Whole

variable {link : Link} (hlink : link.Usable) {part : Chip} {address : Word}
  {image : Option (List Byte)} {length : BitVec 64} (verify : Bool) {sim : Sim}

include hlink

/-- What remains to be run when the part has been halted. -/
theorem wlLinkeWriteFlash_held :
    ((wlLinkeWriteFlash (some part) address image length verify).run.run link).run simulator sim =
      ((do
        wlFlashWrite (← get) part address image length
        let status ← ExceptT.lift
          (if verify then (wlFlashVerify part address image length).run else pure (.ok ()))
        ignore (wlLinkeResume (← get))
        ofExcept status : Linked Unit).run.run (link.set part)).run simulator
          (sim.held link part) := by
  have husable : (link.set part).Usable := ⟨hlink.isOpen, hlink.transport⟩
  unfold wlLinkeWriteFlash
  rw [if_neg (by simp), Program.run_state_ok (wlLinkeSetInterface_run hlink part sim),
    Program.run_state_get, Program.run_state_ok (liftLinked_run _ (wlLinkeHalt_holds husable _))]
  rfl

/-- A write that fails is the end of the request: the part stays held. -/
theorem wlLinkeWriteFlash_fails (hfails : WriteFails link part address image length sim) :
    ∃ error sim',
      ((wlLinkeWriteFlash (some part) address image length verify).run.run link).run simulator
        sim = (some (.error error, link.set part), sim') ∧ sim'.attached = true := by
  obtain ⟨error, sim', hwrite⟩ := hfails
  refine ⟨error, sim', ?_, ?_⟩
  · rw [wlLinkeWriteFlash_held hlink, Program.run_state_get, ExceptT.run_bind, StateT.run_bind,
      Program.run_bind_of_eq (liftLinked_run _ hwrite)]
    rfl
  · have hkeeps := attachKeeping_run (wlFlashWrite_mem (attachKeeping_hasAccesses (link.set part))
      attachKeeping_cuts (some part) address image length) (sim.held link part)
    rw [hwrite] at hkeeps
    exact hkeeps

omit hlink in
/-- Verifying returns, and leaves the link as it is. -/
theorem verify_returns (written : Sim) :
    ∃ status sim', ((if verify then (wlFlashVerify (some part) address image length).run
      else pure (.ok ()) : StateT Link (Program Usb) (Except WlErr Unit)).run (link.set part)).run
        simulator written = (some (status, link.set part), sim') := by
  have hstill : (Program.totalClass Usb).StillMem (link.set part)
      (if verify then (wlFlashVerify (some part) address image length).run else pure (.ok ()) :
        StateT Link (Program Usb) (Except WlErr Unit)) := by
    split
    · exact wlFlashVerify_still (total_hasAccesses _) ⟨fun _ => trivial, fun _ => trivial,
        fun _ => trivial⟩ ⟨rfl, rfl⟩ address image length
    · exact (Program.totalClass Usb).stillDone _
  obtain ⟨body, hbody, htotal⟩ := hstill
  obtain ⟨status, sim', hrun, -⟩ := (Program.Total.finishes htotal).run simulator written
  refine ⟨status, sim', ?_⟩
  rw [hbody, Program.run_bind_of_eq hrun]
  rfl

/-- After a write that did not fail the part is released, whatever became of
the verification. -/
theorem wlLinkeWriteFlash_released (hwritten : ¬WriteFails link part address image length sim)
    {status : Except WlErr Unit} {link' : Link} {sim' : Sim}
    (hrun : ((wlLinkeWriteFlash (some part) address image length verify).run.run link).run
      simulator sim = (some (status, link'), sim')) : sim'.attached = false := by
  have husable : (link.set part).Usable := ⟨hlink.isOpen, hlink.transport⟩
  rw [wlLinkeWriteFlash_held hlink, Program.run_state_get] at hrun
  rcases hwrite : (wlFlashWrite (link.set part) (some part) address image length).run.run simulator
    (sim.held link part) with ⟨outcome, written⟩
  cases outcome with
  | none =>
      have hcut : ((wlFlashWrite (link.set part) (some part) address image length :
          Linked Unit).run.run (link.set part)).run simulator (sim.held link part) =
          (none, written) := by
        show ((wlFlashWrite (link.set part) (some part) address image length).run >>= fun status =>
          pure (status, link.set part)).run simulator (sim.held link part) = _
        rw [Program.run_bind, hwrite]
      rw [ExceptT.run_bind, StateT.run_bind, Program.run_bind, hcut] at hrun
      cases hrun
  | some outcome =>
      cases outcome with
      | error error => exact absurd ⟨error, written, hwrite⟩ hwritten
      | ok value =>
          obtain ⟨checked, verified, hverify⟩ := @verify_returns link part address image length
            verify written
          have hresume := wlLinkeResume_run husable verified
          rw [Program.run_state_ok (liftLinked_run _ hwrite),
            Program.run_state_ok (Program.run_state_lift hverify), Program.run_state_get,
            Program.run_state_ok (liftLinked_run _ (ignore_run hresume))] at hrun
          have hdetached : sim' = { verified with attached := false } := by
            cases checked with
            | ok value => exact (congrArg Prod.snd hrun).symm
            | error error => exact (congrArg Prod.snd hrun).symm
          rw [hdetached]

end Whole

end WchLink
