import WchLink.Interaction.ProgramClass

/-! # Triples of fallible programs

A triple says what a fallible program makes of a state when it succeeds. An
invariant holds throughout: in every state the program makes a request in and,
however it ends, in the state it leaves.
-/

namespace Interaction.Program

variable {P : PFunctor.{0, 0}} {σ ε α β : Type}

/-- What is guaranteed of every request is so of weaker guarantees. -/
theorem wp_allow {world : World P σ} {guard guard' : Guard P σ} {program : Program P α}
    {post : Option α → σ → Prop} {state : σ}
    (h : ∀ state operation, guard state operation → guard' state operation)
    (hwp : program.wp world guard post state) : program.wp world guard' post state := by
  induction program generalizing state with
  | done value => exact hwp
  | cut => exact hwp
  | call operation next ih =>
      exact ⟨h _ _ hwp.1, fun reply after hnext => ih reply (hwp.2 reply after hnext)⟩

/-- From states with `before` a success leads to `after`, within the invariant. -/
def Triple (world : World P σ) (invariant before : σ → Prop) (program : ExceptT ε (Program P) α)
    (after : α → σ → Prop) : Prop :=
  ∀ state, invariant state → before state →
    program.run.wp world (fun state _ => invariant state) (fun status final =>
      invariant final ∧ ∀ value, status = some (.ok value) → after value final) state

namespace Triple

variable {world : World P σ} {invariant before : σ → Prop} {program : ExceptT ε (Program P) α}
  {after : α → σ → Prop}

theorem ok {value : α} (h : ∀ state, invariant state → before state → after value state) :
    Triple world invariant before (pure value : ExceptT ε (Program P) α) after := by
  intro state hinvariant hbefore
  refine ⟨hinvariant, fun result hresult => ?_⟩
  cases hresult
  exact h state hinvariant hbefore

theorem throw (error : ε) :
    Triple world invariant before (throw error : ExceptT ε (Program P) α) after :=
  fun _ hinvariant _ => ⟨hinvariant, nofun⟩

theorem andThen {rest : α → ExceptT ε (Program P) β} {final : β → σ → Prop}
    (h : Triple world invariant before program after)
    (hrest : ∀ value, Triple world invariant (after value) (rest value) final) :
    Triple world invariant before (program >>= rest) final := by
  intro state hinvariant hbefore
  apply wp_except_bind (h state hinvariant hbefore)
  · intro value between hbetween
    exact hrest value between hbetween.1 (hbetween.2 value rfl)
  · intro error between hbetween
    exact ⟨hbetween.1, nofun⟩
  · intro between hbetween
    exact ⟨hbetween.1, nofun⟩

theorem throwThen (error : ε) (rest : α → ExceptT ε (Program P) β) {final : β → σ → Prop} :
    Triple world invariant before ((MonadExcept.throw error : ExceptT ε (Program P) α) >>= rest)
      final :=
  fun _ hinvariant _ => ⟨hinvariant, nofun⟩

theorem weaken {before' : σ → Prop} {after' : α → σ → Prop}
    (h : Triple world invariant before program after)
    (hbefore : ∀ state, invariant state → before' state → before state)
    (hafter : ∀ value state, invariant state → after value state → after' value state) :
    Triple world invariant before' program after' := by
  intro state hinvariant hstate
  refine wp_mono (h state hinvariant (hbefore state hinvariant hstate))
    fun status final hfinal => ?_
  exact ⟨hfinal.1, fun value hstatus => hafter value final hfinal.1 (hfinal.2 value hstatus)⟩

/-- A triple may be assumed of states of which more is known. -/
theorem assuming {fact : Prop} (h : fact → Triple world invariant before program after)
    (hfact : ∀ state, invariant state → before state → fact) :
    Triple world invariant before program after :=
  fun state hinvariant hbefore => h (hfact state hinvariant hbefore) state hinvariant hbefore

/-- A triple from each state it may start in, with an invariant of that run's own. -/
theorem each (h : ∀ start, invariant start → before start → ∃ within : σ → Prop, within start ∧
      (∀ state, within state → invariant state) ∧
      Triple world within (fun state => state = start) program after) :
    Triple world invariant before program after := by
  intro start hinvariant hbefore
  obtain ⟨within, hstart, hwithin, htriple⟩ := h start hinvariant hbefore
  apply wp_allow fun state _ => hwithin state
  refine wp_mono (htriple start hstart rfl) fun status final hfinal => ?_
  exact ⟨hwithin final hfinal.1, hfinal.2⟩

/-- What preserves a fact besides the invariant has it before and after. -/
theorem of_preserving {fact : σ → Prop}
    (h : (preserving world (fun state _ => invariant state) fun state =>
      invariant state ∧ fact state).Mem program.run) :
    Triple world invariant fact program fun _ => fact :=
  fun state hinvariant hfact => wp_mono (h state ⟨hinvariant, hfact⟩) fun _ _ hfinal =>
    ⟨hfinal.1, fun _ _ => hfinal.2⟩

/-- What is known of every value a program may return. -/
theorem known {post : α → Prop} (h : Triple world invariant before program after)
    (hpost : program.run.Always fun status => ∀ value, status = .ok value → post value) :
    Triple world invariant before program fun value state => after value state ∧ post value := by
  intro state hinvariant hbefore
  refine wp_mono (wp_always (h state hinvariant hbefore) hpost) fun status final hfinal => ?_
  obtain ⟨⟨hfinal, hafter⟩, hknown⟩ := hfinal
  exact ⟨hfinal, fun value hvalue => ⟨hafter value hvalue, hknown _ hvalue value rfl⟩⟩

/-- A program of the class that keeps the invariant, before and after anything. -/
theorem of_mem
    (h : (preserving world (fun state _ => invariant state) invariant).Mem program.run) :
    Triple world invariant before program fun _ _ => True :=
  fun state hinvariant _ => wp_mono (h state hinvariant) fun _ _ hfinal =>
    ⟨hfinal, fun _ _ => trivial⟩

/-- A program that keeps the invariant from every state belongs to the class of those. -/
theorem mem (h : Triple world invariant (fun _ => True) program after) :
    (preserving world (fun state _ => invariant state) invariant).Mem program.run :=
  fun state hinvariant => wp_mono (h state hinvariant trivial) fun _ _ hfinal => hfinal.1

end Triple

end Interaction.Program
