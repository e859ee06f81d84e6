import Mathlib.Tactic.Common
import WchLink.Interaction.World

/-! # Programs seen through a surface

A handler's state often has a part a program is about and a part it only
passes through. A surface names the first part, says when the second is fit
for use and how far a run may move it; `Drives` is then a run described by its
effect on the first part alone.
-/

namespace Interaction

variable {P : PFunctor.{0, 0}} {σ τ α β ε ρ : Type}

/-- The visible part of a state and the frame every run keeps. -/
structure Surface (σ τ : Type) where
  view : σ → τ
  ready : σ → Prop
  frame : σ → σ → Prop
  frame_refl : ∀ state, frame state state
  frame_trans : ∀ {first second third}, frame first second → frame second third →
    frame first third
  ready_of_frame : ∀ {first second}, frame first second → ready first → ready second

/-- From every ready state that shows `before`, the run returns `value`, shows
`after` and stays within the frame. -/
def Drives (handler : Handler P σ) (surface : Surface σ τ) (program : Program P α)
    (before : τ) (value : α) (after : τ) : Prop :=
  ∀ state, surface.ready state → surface.view state = before →
    ∃ final, program.run handler state = (some value, final) ∧ surface.view final = after ∧
      surface.frame state final

namespace Drives

variable {handler : Handler P σ} {surface : Surface σ τ} {before middle after : τ}

theorem pure (value : α) : Drives handler surface (pure value) before value before :=
  fun state _ hview => ⟨state, rfl, hview, surface.frame_refl state⟩

theorem bind {program : Program P α} {rest : α → Program P β} {value : α} {result : β}
    (hfirst : Drives handler surface program before value middle)
    (hrest : Drives handler surface (rest value) middle result after) :
    Drives handler surface (program >>= rest) before result after := by
  intro state hready hview
  obtain ⟨between, hrun, hbetween, hframe⟩ := hfirst state hready hview
  obtain ⟨final, hrun', hfinal, hframe'⟩ :=
    hrest between (surface.ready_of_frame hframe hready) hbetween
  refine ⟨final, ?_, hfinal, surface.frame_trans hframe hframe'⟩
  rw [Program.run_bind_of_eq hrun]
  exact hrun'

/-- The effect on the visible part is determined. -/
theorem of_run {program : Program P α} {value : α}
    (hrun : ∀ state, surface.ready state → surface.view state = before →
      ∃ final, program.run handler state = (some value, final) ∧
        surface.view final = after ∧ surface.frame state final) :
    Drives handler surface program before value after := hrun

/-! ### Fallible programs -/

theorem ok (value : α) :
    Drives handler surface (Pure.pure value : ExceptT ε (Program P) α).run before
      (.ok value) before :=
  Drives.pure (Except.ok value)

theorem throw (error : ε) :
    Drives handler surface (throw error : ExceptT ε (Program P) α).run before
      (.error error) before :=
  Drives.pure (Except.error error)

theorem andThen {program : ExceptT ε (Program P) α} {rest : α → ExceptT ε (Program P) β}
    {value : α} {status : Except ε β}
    (hfirst : Drives handler surface program.run before (.ok value) middle)
    (hrest : Drives handler surface (rest value).run middle status after) :
    Drives handler surface (program >>= rest).run before status after := by
  rw [ExceptT.run_bind]
  exact hfirst.bind hrest

theorem fail {program : ExceptT ε (Program P) α} {rest : α → ExceptT ε (Program P) β}
    {error : ε} (hfirst : Drives handler surface program.run before (.error error) after) :
    Drives handler surface (program >>= rest).run before (.error error) after := by
  rw [ExceptT.run_bind]
  exact hfirst.bind (Drives.pure (Except.error error))

/-! ### Fallible programs with a state of their own -/

/-- A program that may fail and carries a state, by its underlying program. -/
theorem andThenState {program : ExceptT ε (StateT ρ (Program P)) α}
    {rest : α → ExceptT ε (StateT ρ (Program P)) β} {own own' : ρ} {value : α}
    {result : Except ε β × ρ}
    (hfirst : Drives handler surface (program.run.run own) before (.ok value, own') middle)
    (hrest : Drives handler surface ((rest value).run.run own') middle result after) :
    Drives handler surface ((program >>= rest).run.run own) before result after := by
  rw [ExceptT.run_bind, StateT.run_bind]
  exact hfirst.bind hrest

/-- Reading the own state moves nothing. -/
theorem readState {rest : ρ → ExceptT ε (StateT ρ (Program P)) β} {own : ρ}
    {result : Except ε β × ρ}
    (hrest : Drives handler surface ((rest own).run.run own) before result after) :
    Drives handler surface ((get >>= rest).run.run own) before result after :=
  hrest

/-- A program without the state, lifted to one with it. -/
theorem liftState {program : ExceptT ε (Program P) α} {status : Except ε α} (own : ρ)
    (hprogram : Drives handler surface program.run before status after) :
    Drives handler surface
      ((ExceptT.mk (StateT.lift program.run) : ExceptT ε (StateT ρ (Program P)) α).run.run own)
      before (status, own) after := by
  rw [ExceptT.run_mk, StateT.run_lift]
  exact hprogram.bind (Drives.pure _)

/-! ### Programs with a state of their own -/

theorem thenOwn {program : StateT ρ (Program P) α} {rest : α → StateT ρ (Program P) β}
    {own own' : ρ} {value : α} {result : β × ρ}
    (hfirst : Drives handler surface (program.run own) before (value, own') middle)
    (hrest : Drives handler surface ((rest value).run own') middle result after) :
    Drives handler surface ((program >>= rest).run own) before result after := by
  rw [StateT.run_bind]
  exact hfirst.bind hrest

theorem liftOwn {program : Program P α} {value : α} (own : ρ)
    (hprogram : Drives handler surface program before value after) :
    Drives handler surface ((StateT.lift program : StateT ρ (Program P) α).run own) before
      (value, own) after := by
  rw [StateT.run_lift]
  exact hprogram.bind (Drives.pure _)

theorem pureOwn (value : α) (own : ρ) :
    Drives handler surface ((Pure.pure value : StateT ρ (Program P) α).run own) before (value, own)
      before :=
  Drives.pure (value, own)

theorem modifyOwn (update : ρ → ρ) (own : ρ) :
    Drives handler surface ((modify update : StateT ρ (Program P) PUnit).run own) before
      (PUnit.unit, update own) before :=
  Drives.pure (PUnit.unit, update own)

end Drives

end Interaction
