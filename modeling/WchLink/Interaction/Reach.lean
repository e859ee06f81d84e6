import WchLink.Interaction.ProgramClass

/-! # Where runs get to

A run returns a value or comes to make a request; either splits along a
sequence into what the first part does and what the rest does after it.
-/

namespace Interaction

variable {P : PFunctor.{0, 0}} {σ τ α β ρ : Type}

/-- The world that admits every reply and follows the exchanges with `update`. -/
def World.tracking (update : σ → (operation : P.A) → P.B operation → σ) : World P σ :=
  fun state operation reply next => next = update state operation reply

/-- The part of a world with these replies. -/
def World.when (world : World P σ) (replies : σ → (operation : P.A) → P.B operation → Prop) :
    World P σ :=
  fun state operation reply next => world state operation reply next ∧ replies state operation reply

/-- A handler on the states of an invariant it keeps. -/
def Handler.within (handler : Handler P σ) (invariant : σ → Prop)
    (hkeeps : ∀ operation state, invariant state → invariant (handler operation state).2) :
    Handler P {state : σ // invariant state} :=
  fun operation state => ((handler operation state.1).1,
    ⟨(handler operation state.1).2, hkeeps operation state.1 state.2⟩)

namespace Program

variable {world world' : World P σ} {program : Program P α} {rest : α → Program P β}
  {state middle final : σ} {value : α} {operation : P.A}

/-- Some run returns `value`. -/
def Returns (world : World P σ) (program : Program P α) (state : σ) (value : α) (final : σ) :
    Prop :=
  ∃ trace, Run world program state trace (done value) final

/-- Some run comes to request `operation`. -/
def Reaches (world : World P σ) (program : Program P α) (state : σ) (operation : P.A) (final : σ) :
    Prop :=
  ∃ trace next, Run world program state trace (call operation next) final

theorem Run.mono {residual : Program P α} {trace : List P.Idx}
    (h : Run world program state trace residual final)
    (hworld : ∀ state operation reply next, world state operation reply next →
      world' state operation reply next) : Run world' program state trace residual final := by
  induction h with
  | refl program state => exact .refl _ _
  | step hanswer _ ih => exact .step (hworld _ _ _ _ hanswer) ih

theorem Returns.mono (h : Returns world program state value final)
    (hworld : ∀ state operation reply next, world state operation reply next →
      world' state operation reply next) : Returns world' program state value final :=
  h.imp fun _ hrun => hrun.mono hworld

theorem Reaches.mono (h : Reaches world program state operation final)
    (hworld : ∀ state operation reply next, world state operation reply next →
      world' state operation reply next) : Reaches world' program state operation final :=
  h.imp fun _ hnext => hnext.imp fun _ hrun => hrun.mono hworld

theorem Returns.done (value : α) (state : σ) : Returns world (pure value) state value state :=
  ⟨[], .refl _ _⟩

/-! ### Against the weakest precondition -/

theorem Returns.of_wp {guard : Guard P σ} {post : Option α → σ → Prop}
    (h : Returns world program state value final) (hwp : program.wp world guard post state) :
    post (some value) final := by
  obtain ⟨trace, hrun⟩ := h
  exact wp_of_run hwp hrun

theorem Reaches.of_wp {guard : Guard P σ} {post : Option α → σ → Prop}
    (h : Reaches world program state operation final) (hwp : program.wp world guard post state) :
    guard final operation := by
  obtain ⟨trace, next, hrun⟩ := h
  exact (wp_of_run hwp hrun).1

theorem Returns.of_always {post : α → Prop} (h : Returns world program state value final)
    (hpost : program.Always post) : post value := by
  obtain ⟨trace, hrun⟩ := h
  generalize hdone : (Program.done value : Program P α) = finished at hrun
  induction hrun with
  | refl program state =>
      subst hdone
      exact hpost
  | step _ _ ih => exact ih (hpost _) hdone

/-! ### Sequences -/

/-- A run of a sequence is still in its first part or has left it. -/
theorem Run.of_bind {trace : List P.Idx} {residual : Program P β}
    (h : Run world (program >>= rest) state trace residual final) :
    (∃ first, Run world program state trace first final ∧ residual = first >>= rest) ∨
      ∃ value middle more, Returns world program state value middle ∧
        Run world (rest value) middle more residual final := by
  induction program generalizing state trace with
  | done value => exact .inr ⟨value, state, trace, ⟨[], .refl _ _⟩, h⟩
  | cut => exact .inl ⟨.cut, by cases h; exact .refl _ _, by cases h; rfl⟩
  | call operation next ih =>
      cases h with
      | refl => exact .inl ⟨_, .refl _ _, rfl⟩
      | step hanswer hrun =>
          rcases ih _ hrun with ⟨first, hfirst, rfl⟩ | ⟨value, middle, more, hfirst, hmore⟩
          · exact .inl ⟨first, .step hanswer hfirst, rfl⟩
          · obtain ⟨made, hmade⟩ := hfirst
            exact .inr ⟨value, middle, more, ⟨_, .step hanswer hmade⟩, hmore⟩

theorem returns_bind_iff {result : β} :
    Returns world (program >>= rest) state result final ↔
      ∃ value middle, Returns world program state value middle ∧
        Returns world (rest value) middle result final := by
  constructor
  · rintro ⟨trace, hrun⟩
    rcases hrun.of_bind with ⟨first, hfirst, hresidual⟩ | ⟨value, middle, more, hfirst, hmore⟩
    · cases first with
      | done value => exact ⟨value, final, ⟨trace, hfirst⟩, ⟨[], hresidual ▸ .refl _ _⟩⟩
      | cut => cases hresidual
      | call operation next => cases hresidual
    · exact ⟨value, middle, hfirst, ⟨more, hmore⟩⟩
  · rintro ⟨value, middle, ⟨made, hmade⟩, ⟨more, hmore⟩⟩
    exact ⟨made ++ more, hmade.bind hmore⟩

/-- A request of the first part is one of the sequence. -/
theorem Run.then {trace : List P.Idx} {residual : Program P α} (rest : α → Program P β)
    (h : Run world program state trace residual final) :
    Run world (program >>= rest) state trace (residual >>= rest) final := by
  induction h with
  | refl program state => exact .refl _ _
  | step hanswer _ ih => exact .step hanswer ih

theorem reaches_bind_iff :
    Reaches world (program >>= rest) state operation final ↔
      Reaches world program state operation final ∨
        ∃ value middle, Returns world program state value middle ∧
          Reaches world (rest value) middle operation final := by
  constructor
  · rintro ⟨trace, next, hrun⟩
    rcases hrun.of_bind with ⟨first, hfirst, hresidual⟩ | ⟨value, middle, more, hfirst, hmore⟩
    · cases first with
      | done value =>
          exact .inr ⟨value, final, ⟨trace, hfirst⟩, ⟨[], next, hresidual ▸ .refl _ _⟩⟩
      | cut => cases hresidual
      | call other next' =>
          cases hresidual
          exact .inl ⟨trace, next', hfirst⟩
    · exact .inr ⟨value, middle, hfirst, ⟨more, next, hmore⟩⟩
  · rintro (⟨trace, next, hrun⟩ | ⟨value, middle, ⟨made, hmade⟩, ⟨more, next, hmore⟩⟩)
    · exact ⟨trace, fun reply => next reply >>= rest, hrun.then rest⟩
    · exact ⟨made ++ more, next, hmade.bind hmore⟩

theorem not_reaches_done : ¬Reaches world (done value) state operation final := by
  rintro ⟨trace, next, hrun⟩
  cases hrun

theorem not_reaches_cut : ¬Reaches world (cut : Program P α) state operation final := by
  rintro ⟨trace, next, hrun⟩
  cases hrun

theorem returns_done_iff {result : α} :
    Returns world (done value) state result final ↔ result = value ∧ final = state := by
  constructor
  · rintro ⟨trace, hrun⟩
    cases hrun
    exact ⟨rfl, rfl⟩
  · rintro ⟨rfl, rfl⟩
    exact ⟨[], .refl _ _⟩

theorem returns_perform_iff {reply : P.B operation} :
    Returns world (perform operation) state reply final ↔ world state operation reply final := by
  constructor
  · rintro ⟨trace, hrun⟩
    cases hrun with
    | step hanswer hrest =>
        cases hrest
        exact hanswer
  · intro hanswer
    exact ⟨_, .step hanswer (.refl _ _)⟩

/-- A fallible step that came to success, and what followed it. -/
theorem Returns.ok_bind {ε : Type} {program : ExceptT ε (StateT ρ (Program P)) α}
    {rest : α → ExceptT ε (StateT ρ (Program P)) β} {own own' : ρ} {result : β}
    (h : Returns world ((program >>= rest).run.run own) state (.ok result, own') final) :
    ∃ value between middle, Returns world (program.run.run own) state (.ok value, between) middle ∧
      Returns world ((rest value).run.run between) middle (.ok result, own') final := by
  rw [ExceptT.run_bind, StateT.run_bind, returns_bind_iff] at h
  obtain ⟨⟨status, between⟩, middle, hfirst, hrest⟩ := h
  cases status with
  | ok value => exact ⟨value, between, middle, hfirst, hrest⟩
  | error error =>
      obtain ⟨hvalue, -⟩ := returns_done_iff.mp hrest
      cases hvalue

/-- Reading the own state is no step. -/
theorem Returns.ok_get {ε : Type} {rest : ρ → ExceptT ε (StateT ρ (Program P)) β} {own : ρ}
    {result : Except ε β × ρ} (h : Returns world ((get >>= rest).run.run own) state result final) :
    Returns world ((rest own).run.run own) state result final := h

/-- Returning with an invariant that held at the start is a class of programs. -/
def restoring (world : World P σ) (invariant : σ → Prop) : ProgramClass P where
  Mem := fun program => ∀ state value final, invariant state →
    Returns world program state value final → invariant final
  done := by
    intro α value state result final hstate h
    obtain ⟨-, rfl⟩ := returns_done_iff.mp h
    exact hstate
  bind := by
    intro α β program rest h hrest state result final hstate hreturns
    obtain ⟨value, middle, hfirst, hmore⟩ := returns_bind_iff.mp hreturns
    exact hrest value middle result final (h state value middle hstate hfirst) hmore

theorem restoring_cuts {invariant : σ → Prop} : (restoring world invariant).Cuts := by
  rintro α state value final hstate ⟨trace, hrun⟩
  cases hrun

/-- In sequence, with what is known of the first part's value. -/
theorem restoring_andThen {ε : Type} {invariant : σ → Prop} {post : α → Prop}
    {program : ExceptT ε (Program P) α} {rest : α → ExceptT ε (Program P) β}
    (h : (restoring world invariant).Mem program.run)
    (hpost : program.run.Always fun status => ∀ value, status = .ok value → post value)
    (hrest : ∀ value, post value → (restoring world invariant).Mem (rest value).run) :
    (restoring world invariant).Mem (program >>= rest).run := by
  intro state result final hstate hreturns
  rw [ExceptT.run_bind] at hreturns
  obtain ⟨status, middle, hfirst, hmore⟩ := returns_bind_iff.mp hreturns
  have hmiddle := h state status middle hstate hfirst
  cases status with
  | ok value =>
      exact hrest value (hfirst.of_always hpost value rfl) middle result final hmiddle hmore
  | error error =>
      obtain ⟨-, rfl⟩ := returns_done_iff.mp hmore
      exact hmiddle

/-! ### Runs against a handler -/

theorem run_of_run {handler : Handler P σ} {trace : List P.Idx} {residual : Program P α}
    (h : Run handler.world program state trace residual final) :
    program.run handler state = residual.run handler final := by
  induction h with
  | refl program state => rfl
  | step hanswer _ ih =>
      rw [← ih]
      unfold Handler.world at hanswer
      rw [run, hanswer]

/-- A handler's world has the one run the handler makes. -/
theorem returns_world_iff {handler : Handler P σ} :
    Returns handler.world program state value final ↔
      program.run handler state = (some value, final) := by
  constructor
  · rintro ⟨trace, hrun⟩
    exact run_of_run hrun
  · intro hrun
    induction program generalizing state with
    | done result =>
        cases hrun
        exact ⟨[], .refl _ _⟩
    | cut => cases hrun
    | call operation next ih =>
        obtain ⟨trace, hmore⟩ := ih _ hrun
        exact ⟨_, .step rfl hmore⟩

theorem returns_of_fst {handler : Handler P σ}
    (h : (program.run handler state).1 = some value) :
    Returns handler.world program state value (program.run handler state).2 := by
  rw [returns_world_iff, ← h]

section Within

variable {handler : Handler P σ} {invariant : σ → Prop}
  (hkeeps : ∀ operation state, invariant state → invariant (handler operation state).2)

include hkeeps

theorem run_within (program : Program P α) (state : {state : σ // invariant state}) :
    program.run handler state.1 = ((program.run (handler.within invariant hkeeps) state).1,
      (program.run (handler.within invariant hkeeps) state).2.1) := by
  induction program generalizing state with
  | done value => rfl
  | cut => rfl
  | call operation next ih =>
      exact ih _ ⟨(handler operation state.1).2, hkeeps operation state.1 state.2⟩

/-- What a handler returns on such states, it returns. -/
theorem Returns.run_within {state final : {state : σ // invariant state}}
    (h : Returns (handler.within invariant hkeeps).world program state value final) :
    program.run handler state.1 = (some value, final.1) := by
  rw [Program.run_within hkeeps program state, returns_world_iff.mp h]

end Within

/-- What the requests of a run against a handler leave on record. -/
def record {δ : Type} (handler : Handler P σ) (note : σ → P.A → List δ) :
    Program P α → σ → List δ
  | done _, _ => []
  | cut, _ => []
  | call operation next, state =>
      note state operation ++
        (next (handler operation state).1).record handler note (handler operation state).2

section Record

variable {δ : Type} {handler : Handler P σ} {note : σ → P.A → List δ}

theorem record_bind_of_eq (hrun : program.run handler state = (some value, final)) :
    (program >>= rest).record handler note state =
      program.record handler note state ++ (rest value).record handler note final := by
  induction program generalizing state with
  | done result =>
      cases hrun
      rfl
  | cut => cases hrun
  | call operation next ih =>
      simp only [call_bind, record, ih _ hrun, List.append_assoc]

theorem record_except_ok {ε : Type} {program : ExceptT ε (Program P) α}
    {rest : α → ExceptT ε (Program P) β}
    (hrun : program.run.run handler state = (some (.ok value), final)) :
    (program >>= rest).run.record handler note state =
      program.run.record handler note state ++ (rest value).run.record handler note final := by
  rw [ExceptT.run_bind, record_bind_of_eq hrun]

theorem record_bind_nil (h : program.record handler note state = [])
    (hrest : ∀ value state, (rest value).record handler note state = []) :
    (program >>= rest).record handler note state = [] := by
  induction program generalizing state with
  | done value => exact hrest value state
  | cut => rfl
  | call operation next ih =>
      obtain ⟨hnote, hnext⟩ := List.append_eq_nil_iff.mp h
      simp only [call_bind, record, hnote, List.nil_append]
      exact ih _ hnext

/-- The programs that leave no record are a class. -/
def unrecorded (handler : Handler P σ) (note : σ → P.A → List δ) : ProgramClass P where
  Mem := fun program => ∀ state, program.record handler note state = []
  done := fun _ _ => rfl
  bind := fun h hrest _ => record_bind_nil (h _) hrest

/-- What is on record accounts for a part of the state, if each request's part does. -/
theorem replay_record {τ : Type} {view : σ → τ} {replay : τ → δ → τ}
    (hstep : ∀ state operation,
      view (handler operation state).2 = (note state operation).foldl replay (view state)) :
    view (program.run handler state).2 =
      (program.record handler note state).foldl replay (view state) := by
  induction program generalizing state with
  | done value => rfl
  | cut => rfl
  | call operation next ih =>
      rw [record, List.foldl_append, ← hstep]
      exact ih _

end Record

/-- The exchanges and the rest of the program after some requests of a handler's. -/
def follow (handler : Handler P τ) : Nat → Program P α → τ → List P.Idx × Program P α
  | rounds + 1, call operation next, state =>
      let answer := handler operation state
      let later := (next answer.1).follow handler rounds answer.2
      (⟨operation, answer.1⟩ :: later.1, later.2)
  | _, program, _ => ([], program)

theorem run_follow (handler : Handler P τ) (update : σ → (operation : P.A) → P.B operation → σ)
    (rounds : Nat) (program : Program P α) (other : τ) (state : σ) :
    Run (World.tracking update) program state (program.follow handler rounds other).1
      (program.follow handler rounds other).2
      ((program.follow handler rounds other).1.foldl (fun state made => update state made.1 made.2)
        state) := by
  induction rounds generalizing program other state with
  | zero =>
      cases program with
      | done value => exact .refl _ _
      | cut => exact .refl _ _
      | call operation next => exact .refl _ _
  | succ rounds ih =>
      cases program with
      | done value => exact .refl _ _
      | cut => exact .refl _ _
      | call operation next => exact .step rfl (ih _ _ _)

/-- The request a program is about to make. -/
def pending : Program P α → Option P.A
  | call operation _ => some operation
  | _ => none

/-- A sequence begins with what its first part asks for. -/
theorem pending_bind (h : program.pending = some operation) (rest : α → Program P β) :
    (program >>= rest).pending = some operation := by
  cases program with
  | done value => cases h
  | cut => cases h
  | call asked next => exact h

theorem reaches_of_follow (handler : Handler P τ)
    (update : σ → (operation : P.A) → P.B operation → σ) (rounds : Nat) (other : τ)
    (hpending : (program.follow handler rounds other).2.pending = some operation) :
    Reaches (World.tracking update) program state operation
      ((program.follow handler rounds other).1.foldl
        (fun state made => update state made.1 made.2) state) := by
  have hrun := run_follow handler update rounds program other state
  refine ⟨(program.follow handler rounds other).1, ?_⟩
  generalize (program.follow handler rounds other).2 = residual at hpending hrun
  cases residual with
  | done value => cases hpending
  | cut => cases hpending
  | call operation' next =>
      cases hpending
      exact ⟨next, hrun⟩

theorem returns_of_follow (handler : Handler P τ)
    (update : σ → (operation : P.A) → P.B operation → σ) (rounds : Nat) (other : τ)
    (hdone : (program.follow handler rounds other).2 = done value) :
    Returns (World.tracking update) program state value
      ((program.follow handler rounds other).1.foldl
        (fun state made => update state made.1 made.2) state) :=
  ⟨_, hdone ▸ run_follow handler update rounds program other state⟩

/-- The value of a program that is done. -/
def returned : Program P α → Option α
  | done value => some value
  | _ => none

/-- The exchanges a handler answered to the end. -/
theorem yields_of_follow (handler : Handler P τ) (rounds : Nat) (other : τ)
    (hreturned : (program.follow handler rounds other).2.returned = some value) :
    program.Yields (program.follow handler rounds other).1 value := by
  induction rounds generalizing program other with
  | zero =>
      cases program with
      | done result =>
          cases hreturned
          exact .refl _ _
      | cut => cases hreturned
      | call operation next => cases hreturned
  | succ rounds ih =>
      cases program with
      | done result =>
          cases hreturned
          exact .refl _ _
      | cut => cases hreturned
      | call operation next => exact yields_call_iff.mpr ⟨_, _, rfl, ih _ hreturned⟩

end Program

end Interaction
