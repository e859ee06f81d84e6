import Mathlib.Tactic.Common
import WchLink.Interaction.Program

/-! # Programs in a world

A world answers requests: in a state it admits, for an operation, some replies
together with the states they lead to. A deterministic handler is the world
with one answer. A guard says which operations may be requested in which
state; `wp` collects the guard's obligations over every admitted reply and is
exactly what every run satisfies.
-/

namespace Interaction

variable {P Q : PFunctor.{0, 0}} {σ τ α β : Type}

/-- The replies admitted in a state, with the states they lead to. -/
abbrev World (P : PFunctor.{0, 0}) (σ : Type) : Type :=
  σ → (operation : P.A) → P.B operation → σ → Prop

/-- The operations that may be requested in a state. -/
abbrev Guard (P : PFunctor.{0, 0}) (σ : Type) : Type := σ → P.A → Prop

/-- One answer in every state. -/
abbrev Handler (P : PFunctor.{0, 0}) (σ : Type) : Type :=
  (operation : P.A) → σ → P.B operation × σ

/-- A handler as the world that admits exactly its answers. -/
def Handler.world (handler : Handler P σ) : World P σ :=
  fun state operation reply next => handler operation state = (reply, next)

/-- The world that admits every reply and keeps the history of exchanges. -/
def anyReply (P : PFunctor.{0, 0}) : World P (List P.Idx) :=
  fun history operation reply next => next = history ++ [⟨operation, reply⟩]

/-- Every exchange of a world is one of another, as far as its states are viewed. -/
def World.Refines (world : World P τ) (abstract : World P σ) (view : τ → σ) : Prop :=
  ∀ state operation reply next, world state operation reply next →
    abstract (view state) operation reply (view next)

namespace Program

/-- The value (if the run was not cut) and the final state under a handler. -/
def run (handler : Handler P σ) : Program P α → σ → Option α × σ
  | done value, state => (some value, state)
  | cut, state => (none, state)
  | call operation next, state =>
      (next (handler operation state).1).run handler (handler operation state).2

@[simp] theorem run_pure (handler : Handler P σ) (value : α) (state : σ) :
    (pure value : Program P α).run handler state = (some value, state) := rfl

theorem run_bind (handler : Handler P σ) (program : Program P α)
    (rest : α → Program P β) (state : σ) :
    (program >>= rest).run handler state =
      match program.run handler state with
      | (some value, next) => (rest value).run handler next
      | (none, next) => (none, next) := by
  induction program generalizing state with
  | done value => rfl
  | cut => rfl
  | call operation next ih => exact ih _ _

theorem run_bind_of_eq {handler : Handler P σ} {program : Program P α}
    {rest : α → Program P β} {state next : σ} {value : α}
    (hrun : program.run handler state = (some value, next)) :
    (program >>= rest).run handler state = (rest value).run handler next := by
  rw [run_bind, hrun]

theorem run_except_ok {ε : Type} {handler : Handler P σ} {program : ExceptT ε (Program P) α}
    {rest : α → ExceptT ε (Program P) β} {state next : σ} {value : α}
    (hrun : program.run.run handler state = (some (.ok value), next)) :
    (program >>= rest).run.run handler state = (rest value).run.run handler next := by
  rw [ExceptT.run_bind, run_bind_of_eq hrun]

theorem run_except_error {ε : Type} {handler : Handler P σ} {program : ExceptT ε (Program P) α}
    {rest : α → ExceptT ε (Program P) β} {state next : σ} {error : ε}
    (hrun : program.run.run handler state = (some (.error error), next)) :
    (program >>= rest).run.run handler state = (some (.error error), next) := by
  rw [ExceptT.run_bind, run_bind_of_eq hrun]
  rfl

theorem run_state_ok {ε ρ : Type} {handler : Handler P σ}
    {program : ExceptT ε (StateT ρ (Program P)) α}
    {rest : α → ExceptT ε (StateT ρ (Program P)) β} {own own' : ρ} {state next : σ} {value : α}
    (hrun : (program.run.run own).run handler state = (some (.ok value, own'), next)) :
    ((program >>= rest).run.run own).run handler state =
      ((rest value).run.run own').run handler next := by
  rw [ExceptT.run_bind, StateT.run_bind, run_bind_of_eq hrun]

theorem run_state_get {ε ρ : Type} {handler : Handler P σ}
    {rest : ρ → ExceptT ε (StateT ρ (Program P)) β} {own : ρ} {state : σ} :
    ((get >>= rest).run.run own).run handler state =
      ((rest own).run.run own).run handler state := rfl

theorem run_state_lift {ε ρ : Type} {handler : Handler P σ} {program : StateT ρ (Program P) α}
    {own own' : ρ} {state next : σ} {value : α}
    (hrun : (program.run own).run handler state = (some (value, own'), next)) :
    ((ExceptT.lift program : ExceptT ε (StateT ρ (Program P)) α).run.run own).run handler state =
      (some (.ok value, own'), next) := by
  rw [ExceptT.run_lift, StateT.run_map, map_eq_pure_bind, run_bind_of_eq hrun]
  rfl

theorem run_liftState {ε ρ : Type} {handler : Handler P σ} {program : ExceptT ε (Program P) α}
    (own : ρ) {state next : σ} {status : Except ε α}
    (hrun : program.run.run handler state = (some status, next)) :
    ((ExceptT.mk (StateT.lift program.run) : ExceptT ε (StateT ρ (Program P)) α).run.run
      own).run handler state = (some (status, own), next) := by
  rw [ExceptT.run_mk, StateT.run_lift, run_bind_of_eq hrun]
  rfl

/-! ### Programs with a state of their own -/

theorem run_own_bind {ρ : Type} {handler : Handler P σ} {program : StateT ρ (Program P) α}
    {rest : α → StateT ρ (Program P) β} {own own' : ρ} {state next : σ} {value : α}
    (hrun : (program.run own).run handler state = (some (value, own'), next)) :
    ((program >>= rest).run own).run handler state =
      ((rest value).run own').run handler next := by
  rw [StateT.run_bind, run_bind_of_eq hrun]

theorem run_own_lift {ρ : Type} {handler : Handler P σ} {program : Program P α} (own : ρ)
    {state next : σ} {value : α} (hrun : program.run handler state = (some value, next)) :
    ((StateT.lift program : StateT ρ (Program P) α).run own).run handler state =
      (some (value, own), next) := by
  rw [StateT.run_lift, run_bind_of_eq hrun]
  rfl

/-- Weakest precondition: every requested operation is allowed by the guard,
and every outcome (`none` for a cut run) satisfies the postcondition. -/
def wp (world : World P σ) (guard : Guard P σ) :
    Program P α → (Option α → σ → Prop) → σ → Prop
  | done value, post, state => post (some value) state
  | cut, post, state => post none state
  | call operation next, post, state =>
      guard state operation ∧ ∀ reply after, world state operation reply after →
        (next reply).wp world guard post after

/-- Finite executions: the exchanges made, the program left and the state. -/
inductive Run (world : World P σ) :
    Program P α → σ → List P.Idx → Program P α → σ → Prop
  | refl (program : Program P α) (state : σ) : Run world program state [] program state
  | step {operation : P.A} {next : P.B operation → Program P α} {reply : P.B operation}
      {state middle final : σ} {trace : List P.Idx} {residual : Program P α} :
      world state operation reply middle →
      Run world (next reply) middle trace residual final →
      Run world (call operation next) state (⟨operation, reply⟩ :: trace) residual final

/-- What a residual program owes in a state. -/
def Owes (guard : Guard P σ) (post : Option α → σ → Prop) : Program P α → σ → Prop
  | done value, state => post (some value) state
  | cut, state => post none state
  | call operation _, state => guard state operation

variable {world : World P σ} {guard : Guard P σ}

theorem wp_of_run {program residual : Program P α} {post : Option α → σ → Prop}
    {state final : σ} {trace : List P.Idx} (hwp : program.wp world guard post state)
    (hrun : Run world program state trace residual final) :
    residual.wp world guard post final := by
  induction hrun with
  | refl program state => exact hwp
  | step hanswer _ ih => exact ih (hwp.2 _ _ hanswer)

theorem owes_of_wp {program : Program P α} {post : Option α → σ → Prop} {state : σ}
    (hwp : program.wp world guard post state) : program.Owes guard post state := by
  cases program with
  | done value => exact hwp
  | cut => exact hwp
  | call operation next => exact hwp.1

/-- The weakest precondition is what every finite execution satisfies. -/
theorem wp_iff_run (program : Program P α) (post : Option α → σ → Prop) (state : σ) :
    program.wp world guard post state ↔
      ∀ trace residual final, Run world program state trace residual final →
        residual.Owes guard post final := by
  constructor
  · intro hwp trace residual final hrun
    exact owes_of_wp (wp_of_run hwp hrun)
  · intro hruns
    induction program generalizing state with
    | done value => exact hruns [] _ _ (.refl _ _)
    | cut => exact hruns [] _ _ (.refl _ _)
    | call operation next ih =>
        refine ⟨hruns [] _ _ (.refl _ _), ?_⟩
        intro reply after hanswer
        exact ih reply after fun trace residual final hrun =>
          hruns _ residual final (.step hanswer hrun)

theorem wp_mono {program : Program P α} {post post' : Option α → σ → Prop} {state : σ}
    (hwp : program.wp world guard post state)
    (himp : ∀ value final, post value final → post' value final) :
    program.wp world guard post' state := by
  induction program generalizing state with
  | done value => exact himp _ _ hwp
  | cut => exact himp _ _ hwp
  | call operation next ih =>
      exact ⟨hwp.1, fun reply after hanswer => ih reply (hwp.2 reply after hanswer)⟩

@[simp] theorem wp_pure (value : α) (post : Option α → σ → Prop) (state : σ) :
    (pure value : Program P α).wp world guard post state = post (some value) state := rfl

@[simp] theorem wp_done (value : α) (post : Option α → σ → Prop) (state : σ) :
    (done value : Program P α).wp world guard post state = post (some value) state := rfl

@[simp] theorem wp_cut (post : Option α → σ → Prop) (state : σ) :
    (cut : Program P α).wp world guard post state = post none state := rfl

theorem wp_call (operation : P.A) (next : P.B operation → Program P α)
    (post : Option α → σ → Prop) (state : σ) :
    (call operation next).wp world guard post state ↔
      guard state operation ∧ ∀ reply after, world state operation reply after →
        (next reply).wp world guard post after := Iff.rfl

/-- Sequencing: a cut of the first part cuts the whole. -/
@[simp] theorem wp_bind (program : Program P α) (rest : α → Program P β)
    (post : Option β → σ → Prop) (state : σ) :
    (program >>= rest).wp world guard post state =
      program.wp world guard
        (fun value middle =>
          match value with
          | some value => (rest value).wp world guard post middle
          | none => post none middle) state := by
  induction program generalizing state with
  | done value => rfl
  | cut => rfl
  | call operation next ih => simp only [call_bind, wp, ih]

/-- Sequencing of programs with a state of their own. -/
theorem wp_own_bind {ρ : Type} {program : StateT ρ (Program P) α}
    {rest : α → StateT ρ (Program P) β} {own : ρ} {middle : Option (α × ρ) → σ → Prop}
    {post : Option (β × ρ) → σ → Prop} {state : σ}
    (h : (program.run own).wp world guard middle state)
    (hrest : ∀ value own' between, middle (some (value, own')) between →
      ((rest value).run own').wp world guard post between)
    (hcut : ∀ between, middle none between → post none between) :
    ((program >>= rest).run own).wp world guard post state := by
  rw [StateT.run_bind, wp_bind]
  refine wp_mono h fun result final hfinal => ?_
  cases result with
  | none => exact hcut final hfinal
  | some result => exact hrest result.1 result.2 final hfinal

/-- Sequencing of fallible programs. -/
theorem wp_except_bind {ε : Type} {program : ExceptT ε (Program P) α}
    {rest : α → ExceptT ε (Program P) β} {middle : Option (Except ε α) → σ → Prop}
    {post : Option (Except ε β) → σ → Prop} {state : σ}
    (h : program.run.wp world guard middle state)
    (hok : ∀ value between, middle (some (.ok value)) between →
      (rest value).run.wp world guard post between)
    (herror : ∀ error between, middle (some (.error error)) between →
      post (some (.error error)) between)
    (hcut : ∀ between, middle none between → post none between) :
    (program >>= rest).run.wp world guard post state := by
  rw [ExceptT.run_bind, wp_bind]
  refine wp_mono h fun result between hbetween => ?_
  cases result with
  | none => exact hcut between hbetween
  | some status =>
      cases status with
      | ok value => exact hok value between hbetween
      | error error => exact herror error between hbetween

/-- A fallible step without the state, in a program that has one. -/
theorem wp_own_lift {ε ρ : Type} {operation : ExceptT ε (Program P) α}
    {rest : α → ExceptT ε (StateT ρ (Program P)) β} {own : ρ}
    {middle : Option (Except ε α) → σ → Prop} {post : Option (Except ε β × ρ) → σ → Prop} {state : σ}
    (h : operation.run.wp world guard middle state)
    (hok : ∀ value between, middle (some (.ok value)) between →
      ((rest value).run.run own).wp world guard post between)
    (herror : ∀ error between, middle (some (.error error)) between →
      post (some (.error error, own)) between)
    (hcut : ∀ between, middle none between → post none between) :
    (((ExceptT.mk (StateT.lift operation.run) : ExceptT ε (StateT ρ (Program P)) α) >>=
      rest).run.run own).wp world guard post state := by
  rw [ExceptT.run_bind, StateT.run_bind, ExceptT.run_mk, StateT.run_lift, wp_bind, wp_bind]
  refine wp_mono h fun result between hbetween => ?_
  cases result with
  | none => exact hcut between hbetween
  | some status =>
      cases status with
      | ok value => exact hok value between hbetween
      | error error => exact herror error between hbetween

/-- What holds in a world holds in every world that is one of its, as far as the
states are viewed. -/
theorem wp_refines {world' : World P τ} {view : τ → σ} (h : world'.Refines world view)
    {program : Program P α} {post : Option α → σ → Prop} {state : τ}
    (hwp : program.wp world guard post (view state)) :
    program.wp world' (fun state operation => guard (view state) operation)
      (fun result final => post result (view final)) state := by
  induction program generalizing state with
  | done value => exact hwp
  | cut => exact hwp
  | call operation next ih =>
      exact ⟨hwp.1, fun reply after hnext => ih reply (hwp.2 reply _ (h _ _ _ _ hnext))⟩

/-- A program over another interface does what it does on its own, when each
implementation does, as far as the states are viewed. -/
theorem wp_interpret {world' : World Q τ} {guard' : Guard Q τ}
    {view : τ → σ} {implementation : (operation : P.A) → Program Q (P.B operation)}
    (h : ∀ operation state, guard (view state) operation →
      (implementation operation).wp world' guard' (fun reply final => ∃ value, reply = some value ∧
        world (view state) operation value (view final)) state)
    {program : Program P α} {post : Option α → σ → Prop} {state : τ}
    (hwp : program.wp world guard post (view state)) :
    (program.interpret implementation).wp world' guard'
      (fun result final => post result (view final)) state := by
  induction program generalizing state with
  | done value => exact hwp
  | cut => exact hwp
  | call operation next ih =>
      show (implementation operation >>= fun reply =>
        (next reply).interpret implementation).wp world' guard' _ state
      rw [wp_bind]
      refine wp_mono (h operation state hwp.1) ?_
      rintro _ final ⟨value, rfl, hnext⟩
      exact ih value (hwp.2 value _ hnext)

/-- Under a handler the weakest precondition speaks about the run's outcome. -/
theorem wp_handler_iff (handler : Handler P σ) (program : Program P α)
    (post : Option α → σ → Prop) (state : σ) :
    program.wp handler.world (fun _ _ => True) post state ↔
      post (program.run handler state).1 (program.run handler state).2 := by
  induction program generalizing state with
  | done value => exact Iff.rfl
  | cut => exact Iff.rfl
  | call operation next ih =>
      simp only [wp, true_and, run, ← ih]
      constructor
      · intro hnext
        exact hnext _ _ rfl
      · intro hnext reply after hanswer
        obtain ⟨rfl, rfl⟩ := Prod.mk.inj hanswer
        exact hnext

end Program

end Interaction
