import Mathlib.Tactic.Common
import WchLink.Interaction.Trace

/-! # Classes of programs

Facts that hold of a program because they hold of everything it calls: a class
closed under sequencing has a layered program as a member as soon as it has the
primitives. The programs that only make allowed requests and move the state
within a preorder form such a class.
-/

namespace Interaction

variable {P Q : PFunctor.{0, 0}} {σ ε ρ α β : Type}

/-- How far programs may move a state of their own. -/
class Framed (ρ : Type) where
  keeps : ρ → ρ → Prop
  refl : ∀ own, keeps own own
  trans : ∀ {first second third}, keeps first second → keeps second third → keeps first third

/-- A class of programs of every result type, closed under sequencing. -/
structure ProgramClass (P : PFunctor.{0, 0}) where
  Mem : ∀ {α : Type}, Program P α → Prop
  done : ∀ {α : Type} (value : α), Mem (pure value : Program P α)
  bind : ∀ {α β : Type} {program : Program P α} {rest : α → Program P β},
    Mem program → (∀ value, Mem (rest value)) → Mem (program >>= rest)

namespace ProgramClass

/-- Every program. -/
def everything (P : PFunctor.{0, 0}) : ProgramClass P where
  Mem := fun _ => True
  done := fun _ => trivial
  bind := fun _ _ => trivial

variable (C : ProgramClass P)

/-- Spent budgets are in the class as well. -/
def Cuts : Prop := ∀ {α : Type}, C.Mem (.cut : Program P α)

/-- The programs whose implementations belong to a class. -/
def comap (C : ProgramClass Q) (implementation : (operation : P.A) → Program Q (P.B operation)) :
    ProgramClass P where
  Mem := fun program => C.Mem (program.interpret implementation)
  done := fun value => C.done value
  bind := fun h hrest => by
    rw [Program.interpret_bind]
    exact C.bind h hrest

theorem map {program : Program P α} (f : α → β) (h : C.Mem program) : C.Mem (f <$> program) := by
  rw [map_eq_pure_bind]
  exact C.bind h fun value => C.done (f value)

/-! ### Fallible programs -/

theorem ok (value : α) : C.Mem (pure value : ExceptT ε (Program P) α).run :=
  C.done (Except.ok value)

theorem throws (error : ε) : C.Mem (throw error : ExceptT ε (Program P) α).run :=
  C.done (Except.error error)

theorem andThen {program : ExceptT ε (Program P) α} {rest : α → ExceptT ε (Program P) β}
    (h : C.Mem program.run) (hrest : ∀ value, C.Mem (rest value).run) :
    C.Mem (program >>= rest).run := by
  rw [ExceptT.run_bind]
  refine C.bind h fun status => ?_
  cases status with
  | ok value => exact hrest value
  | error error => exact C.done _

/-- A guard that fails: what follows is not run. -/
theorem throwThen (error : ε) (rest : α → ExceptT ε (Program P) β) :
    C.Mem ((throw error : ExceptT ε (Program P) α) >>= rest).run :=
  C.done (Except.error error)

/-! ### Programs with a state of their own -/

section Framed

variable [Framed ρ]

/-- Membership whatever the program's own state is, which stays in its frame. -/
def StateMem (program : StateT ρ (Program P) α) : Prop :=
  ∀ own, C.Mem (program.run own) ∧
    (program.run own).Always fun result => Framed.keeps own result.2

theorem stateDone (value : α) : C.StateMem (pure value : StateT ρ (Program P) α) :=
  fun own => ⟨C.done (value, own), Framed.refl own⟩

theorem stateBind {program : StateT ρ (Program P) α} {rest : α → StateT ρ (Program P) β}
    (h : C.StateMem program) (hrest : ∀ value, C.StateMem (rest value)) :
    C.StateMem (program >>= rest) := by
  intro own
  rw [StateT.run_bind]
  refine ⟨C.bind (h own).1 fun result => (hrest result.1 result.2).1, ?_⟩
  refine (h own).2.bind fun result hresult => ?_
  exact (hrest result.1 result.2).2.mono fun final hfinal => Framed.trans hresult hfinal

theorem stateLift {program : Program P α} (h : C.Mem program) :
    C.StateMem (StateT.lift program : StateT ρ (Program P) α) := by
  intro own
  rw [StateT.run_lift]
  refine ⟨C.bind h fun value => C.done (value, own), ?_⟩
  exact (Program.always_true program).bind fun value _ => Framed.refl own

theorem stateGet : C.StateMem (get : StateT ρ (Program P) ρ) :=
  fun own => ⟨C.done (own, own), Framed.refl own⟩

theorem stateModify {update : ρ → ρ} (hupdate : ∀ own, Framed.keeps own (update own)) :
    C.StateMem (modify update : StateT ρ (Program P) PUnit) :=
  fun own => ⟨C.done (PUnit.unit, update own), hupdate own⟩

theorem stateIte {condition : Prop} [Decidable condition] {first second : StateT ρ (Program P) α}
    (hfirst : condition → C.StateMem first) (hsecond : ¬condition → C.StateMem second) :
    C.StateMem (if condition then first else second) := by
  split
  · next h => exact hfirst h
  · next h => exact hsecond h

/-! ### Fallible programs with a state of their own -/

theorem andThenState {program : ExceptT ε (StateT ρ (Program P)) α}
    {rest : α → ExceptT ε (StateT ρ (Program P)) β}
    (h : C.StateMem program.run) (hrest : ∀ value, C.StateMem (rest value).run) :
    C.StateMem (program >>= rest).run := by
  rw [ExceptT.run_bind]
  refine C.stateBind h fun status => ?_
  cases status with
  | ok value => exact hrest value
  | error error => exact C.stateDone _

/-- A step that cannot fail, in a program that can. -/
theorem stateLiftOk {program : StateT ρ (Program P) α} (h : C.StateMem program) :
    C.StateMem (ExceptT.lift program : ExceptT ε (StateT ρ (Program P)) α).run :=
  C.stateBind h fun _ => C.stateDone _

end Framed

/-! ### Programs that leave a state of their own alone -/

section Still

variable {own : ρ}

/-- From `own` the program is one without a state, and that one is a member. -/
def StillMem (own : ρ) (program : StateT ρ (Program P) α) : Prop :=
  ∃ body : Program P α, program.run own = (body >>= fun value => pure (value, own)) ∧ C.Mem body

theorem stillDone (value : α) : C.StillMem own (pure value : StateT ρ (Program P) α) :=
  ⟨pure value, rfl, C.done value⟩

theorem stillBind {program : StateT ρ (Program P) α} {rest : α → StateT ρ (Program P) β}
    (h : C.StillMem own program) (hrest : ∀ value, C.StillMem own (rest value)) :
    C.StillMem own (program >>= rest) := by
  obtain ⟨body, hbody, hmem⟩ := h
  choose bodies hbodies hmems using hrest
  refine ⟨body >>= bodies, ?_, C.bind hmem hmems⟩
  rw [StateT.run_bind, hbody, bind_assoc, bind_assoc]
  refine congrArg (body >>= ·) (funext fun value => ?_)
  rw [pure_bind]
  exact hbodies value

theorem stillLift {program : Program P α} (h : C.Mem program) :
    C.StillMem own (StateT.lift program : StateT ρ (Program P) α) :=
  ⟨program, rfl, h⟩

theorem stillGet {rest : ρ → StateT ρ (Program P) β} (h : C.StillMem own (rest own)) :
    C.StillMem own (get >>= rest) := by
  obtain ⟨body, hbody, hmem⟩ := h
  exact ⟨body, hbody, hmem⟩

theorem andThenStill {program : ExceptT ε (StateT ρ (Program P)) α}
    {rest : α → ExceptT ε (StateT ρ (Program P)) β} (h : C.StillMem own program.run)
    (hrest : ∀ value, C.StillMem own (rest value).run) : C.StillMem own (program >>= rest).run := by
  rw [ExceptT.run_bind]
  refine C.stillBind h fun status => ?_
  cases status with
  | ok value => exact hrest value
  | error error => exact C.stillDone _

/-- A step that cannot fail, in a program that can. -/
theorem stillLiftOk {program : StateT ρ (Program P) α} (h : C.StillMem own program) :
    C.StillMem own (ExceptT.lift program : ExceptT ε (StateT ρ (Program P)) α).run :=
  C.stillBind h fun _ => C.stillDone _

theorem readStill {rest : ρ → ExceptT ε (StateT ρ (Program P)) β}
    (h : C.StillMem own (rest own).run) : C.StillMem own (get >>= rest).run := by
  obtain ⟨body, hbody, hmem⟩ := h
  exact ⟨body, hbody, hmem⟩

variable {C}

theorem StillMem.mem {program : StateT ρ (Program P) α} (h : C.StillMem own program) :
    C.Mem (program.run own) := by
  obtain ⟨body, hbody, hmem⟩ := h
  rw [hbody]
  exact C.bind hmem fun value => C.done (value, own)

theorem StillMem.always {program : StateT ρ (Program P) α} (h : C.StillMem own program) :
    (program.run own).Always fun result => result.2 = own := by
  obtain ⟨body, hbody, -⟩ := h
  rw [hbody]
  exact (Program.always_true body).bind fun _ _ => rfl

end Still

end ProgramClass

namespace Program

variable {world : World P σ} {guard : Guard P σ} {relation : σ → σ → Prop}

/-- Every request is allowed and every outcome is related to the start. -/
def Keeps (world : World P σ) (guard : Guard P σ) (relation : σ → σ → Prop)
    (program : Program P α) : Prop :=
  ∀ state, program.wp world guard (fun _ final => relation state final) state

/-- Keeping within a preorder is a class of programs. -/
def keeping (world : World P σ) (guard : Guard P σ) (relation : σ → σ → Prop)
    (hrefl : ∀ state, relation state state)
    (htrans : ∀ {first second third}, relation first second → relation second third →
      relation first third) : ProgramClass P where
  Mem := fun program => program.Keeps world guard relation
  done := fun _ state => hrefl state
  bind := by
    intro α β program rest h hrest state
    rw [wp_bind]
    refine wp_mono (h state) fun value middle hmiddle => ?_
    cases value with
    | none => exact hmiddle
    | some value => exact wp_mono (hrest value middle) fun _ final hfinal => htrans hmiddle hfinal

theorem keeping_cuts {hrefl : ∀ state, relation state state}
    {htrans : ∀ {first second third}, relation first second → relation second third →
      relation first third} : (keeping world guard relation hrefl htrans).Cuts :=
  fun state => hrefl state

/-- One request, from what is allowed and what replies may do. -/
theorem keeps_perform {operation : P.A} (hguard : ∀ state, guard state operation)
    (hworld : ∀ state reply next, world state operation reply next → relation state next) :
    (perform operation).Keeps world guard relation :=
  fun state => ⟨hguard state, fun reply next hreply => hworld state reply next hreply⟩

/-- Preserving an invariant is a class of programs. -/
def preserving (world : World P σ) (guard : Guard P σ) (invariant : σ → Prop) : ProgramClass P where
  Mem := fun program => ∀ state, invariant state →
    program.wp world guard (fun _ final => invariant final) state
  done := fun _ _ hstate => hstate
  bind := by
    intro α β program rest h hrest state hstate
    rw [wp_bind]
    refine wp_mono (h state hstate) fun value middle hmiddle => ?_
    cases value with
    | none => exact hmiddle
    | some value => exact hrest value middle hmiddle

theorem preserving_cuts {invariant : σ → Prop} : (preserving world guard invariant).Cuts :=
  fun _ hstate => hstate

/-- One request that is allowed while the invariant holds and answered within it. -/
theorem preserving_perform {invariant : σ → Prop} {operation : P.A}
    (hguard : ∀ state, invariant state → guard state operation)
    (hworld : ∀ state reply next, invariant state → world state operation reply next →
      invariant next) : (preserving world guard invariant).Mem (perform operation) :=
  fun state hstate => ⟨hguard state hstate, fun reply next hreply =>
    hworld state reply next hstate hreply⟩

/-- Requesting only what fits is a class of programs. -/
def requesting (fit : P.A → Prop) : ProgramClass P where
  Mem := fun program => program.Follows (fun _ operation => fit operation) fun _ _ => True
  done := fun _ => trivial
  bind := fun h hrest => h.bind (fun _ value _ => hrest value) fun _ _ => trivial

/-- Running the same under two handlers is a class of programs. -/
def agreeing (handler handler' : Handler P σ) : ProgramClass P where
  Mem := fun program => ∀ state, program.run handler state = program.run handler' state
  done := fun _ _ => rfl
  bind := by
    intro α β program rest h hrest state
    rw [run_bind, run_bind, h state]
    obtain ⟨value, final⟩ := program.run handler' state
    cases value with
    | none => rfl
    | some value => exact hrest value final

theorem agreeing_perform {handler handler' : Handler P σ} {operation : P.A}
    (h : ∀ state, handler operation state = handler' operation state) :
    (agreeing handler handler').Mem (perform operation) := by
  intro state
  simp only [perform, run, h state]

/-! ### Programs without cuts -/

/-- No reply leads to a spent budget. -/
def Total : Program P α → Prop
  | done _ => True
  | cut => False
  | call _ next => ∀ reply, (next reply).Total

/-- The programs without cuts are a class. -/
def totalClass (P : PFunctor.{0, 0}) : ProgramClass P where
  Mem := Total
  done := fun _ => trivial
  bind := by
    intro α β program rest h hrest
    induction program with
    | done value => exact hrest value
    | cut => exact absurd h not_false
    | call operation next ih => exact fun reply => ih reply (h reply)

theorem Total.of_run {program residual : Program P α} {state final : σ} {trace : List P.Idx}
    (h : program.Total) (hrun : Run world program state trace residual final) :
    residual.Total := by
  induction hrun with
  | refl program state => exact h
  | step _ _ ih => exact ih (h _)

/-- Whatever the replies, the program returns a value that satisfies `post`. -/
def Finishes (post : α → Prop) : Program P α → Prop
  | done value => post value
  | cut => False
  | call _ next => ∀ reply, (next reply).Finishes post

theorem Finishes.bind {program : Program P α} {rest : α → Program P β} {middle : α → Prop}
    {post : β → Prop} (h : program.Finishes middle)
    (hrest : ∀ value, middle value → (rest value).Finishes post) :
    (program >>= rest).Finishes post := by
  induction program with
  | done value => exact hrest value h
  | cut => exact absurd h not_false
  | call operation next ih => exact fun reply => ih reply (h reply)

/-- Sequencing of programs with a state of their own. -/
theorem Finishes.thenOwn {program : StateT ρ (Program P) α} {rest : α → StateT ρ (Program P) β}
    {own : ρ} {middle : α × ρ → Prop} {post : β × ρ → Prop} (h : (program.run own).Finishes middle)
    (hrest : ∀ value own', middle (value, own') → ((rest value).run own').Finishes post) :
    ((program >>= rest).run own).Finishes post := by
  rw [StateT.run_bind]
  exact h.bind fun result hresult => hrest result.1 result.2 hresult

theorem Finishes.mono {program : Program P α} {post post' : α → Prop} (h : program.Finishes post)
    (hpost : ∀ value, post value → post' value) : program.Finishes post' := by
  induction program with
  | done value => exact hpost value h
  | cut => exact h
  | call operation next ih => exact fun reply => ih reply (h reply)

theorem Total.finishes {program : Program P α} (h : program.Total) :
    program.Finishes fun _ => True := by
  induction program with
  | done value => trivial
  | cut => exact h
  | call operation next ih => exact fun reply => ih reply (h reply)

theorem Finishes.run {program : Program P α} {post : α → Prop} (h : program.Finishes post)
    (handler : Handler P σ) (state : σ) :
    ∃ value final, program.run handler state = (some value, final) ∧ post value := by
  induction program generalizing state with
  | done value => exact ⟨value, state, rfl, h⟩
  | cut => exact absurd h not_false
  | call operation next ih => exact ih _ (h _) _

theorem Total.ne_cut {program : Program P α} (h : program.Total) : program ≠ .cut := by
  rintro rfl
  exact h

end Program

end Interaction
