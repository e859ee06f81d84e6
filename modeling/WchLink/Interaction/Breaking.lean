import WchLink.Interaction.World

/-! # Worlds that break off

A world may break off at any exchange. The request is then lost or carried out,
its reply is a failure either way, and from there on every request fails and
nothing happens. What a program keeps at every request of the whole world it
keeps at every moment of the world that breaks off.
-/

namespace Interaction

variable {P : PFunctor.{0, 0}} {σ α : Type}

/-- The world, until it breaks off. -/
def World.breaking (world : World P σ) (failure : (operation : P.A) → P.B operation → Prop) :
    World P (σ × Bool) :=
  fun state operation reply next =>
    if state.2 then
      world state.1 operation reply next.1 ∧ next.2 = true ∨
        failure operation reply ∧ next.2 = false ∧
          (next.1 = state.1 ∨ ∃ answer, world state.1 operation answer next.1)
    else
      failure operation reply ∧ next = state

namespace Program

variable {world : World P σ} {failure : (operation : P.A) → P.B operation → Prop}
  {invariant : σ → Prop} {program : Program P α}

/-- What holds at every request of a program holds where it starts. -/
theorem invariant_of_wp {state : σ}
    (h : program.wp world (fun state _ => invariant state) (fun _ final => invariant final) state) :
    invariant state := by
  cases program with
  | done value => exact h
  | cut => exact h
  | call operation next => exact h.1

/-- Once the world has broken off nothing changes. -/
theorem wp_broken {state : σ} (h : invariant state) :
    program.wp (world.breaking failure) (fun state _ => invariant state.1)
      (fun _ final => invariant final.1) (state, false) := by
  induction program with
  | done value => exact h
  | cut => exact h
  | call operation next ih =>
      refine ⟨h, ?_⟩
      rintro reply after ⟨-, rfl⟩
      exact ih reply

theorem wp_breaking {state : σ}
    (h : program.wp world (fun state _ => invariant state) (fun _ final => invariant final) state) :
    program.wp (world.breaking failure) (fun state _ => invariant state.1)
      (fun _ final => invariant final.1) (state, true) := by
  induction program generalizing state with
  | done value => exact h
  | cut => exact h
  | call operation next ih =>
      refine ⟨h.1, fun reply after hafter => ?_⟩
      obtain ⟨final, whole⟩ := after
      rcases hafter with ⟨hanswered, hwhole⟩ | ⟨-, hwhole, hkept | ⟨answer, hdone⟩⟩
      · subst hwhole
        exact ih reply (h.2 reply final hanswered)
      · subst hwhole
        subst hkept
        exact wp_broken h.1
      · subst hwhole
        exact wp_broken (invariant_of_wp (h.2 answer final hdone))

/-- What is known of a run, besides what holds at its requests. -/
theorem wp_run {handler : Handler P σ} {guard : Guard P σ} {post : Option α → σ → Prop}
    {state final : σ} {result : Option α} (h : program.wp handler.world guard post state)
    (hrun : program.run handler state = (result, final)) :
    program.wp handler.world guard
      (fun outcome last => (outcome = result ∧ last = final) ∧ post outcome last) state := by
  induction program generalizing state with
  | done value =>
      obtain ⟨rfl, rfl⟩ := Prod.mk.inj hrun
      exact ⟨⟨rfl, rfl⟩, h⟩
  | cut =>
      obtain ⟨rfl, rfl⟩ := Prod.mk.inj hrun
      exact ⟨⟨rfl, rfl⟩, h⟩
  | call operation next ih =>
      refine ⟨h.1, fun reply after hanswer => ?_⟩
      apply ih reply (h.2 reply after hanswer)
      rw [← hrun, Program.run, hanswer]

/-- What is left of a program when its handler stops answering, and the state then. -/
def breakOff (handler : Handler P σ) : Nat → Program P α → σ → Program P α × σ
  | rounds + 1, call operation next, state =>
      (next (handler operation state).1).breakOff handler rounds (handler operation state).2
  | _, program, state => (program, state)

theorem run_breakOff (handler : Handler P σ)
    (failure : (operation : P.A) → P.B operation → Prop) (rounds : Nat) (program : Program P α)
    (state : σ) :
    ∃ trace, Run (handler.world.breaking failure) program (state, true) trace
      (program.breakOff handler rounds state).1
        ((program.breakOff handler rounds state).2, true) := by
  induction rounds generalizing program state with
  | zero =>
      cases program with
      | done value => exact ⟨_, .refl _ _⟩
      | cut => exact ⟨_, .refl _ _⟩
      | call operation next => exact ⟨_, .refl _ _⟩
  | succ rounds ih =>
      cases program with
      | done value => exact ⟨_, .refl _ _⟩
      | cut => exact ⟨_, .refl _ _⟩
      | call operation next =>
          obtain ⟨trace, hrun⟩ := ih (next (handler operation state).1) (handler operation state).2
          have hanswer : (handler.world.breaking failure) (state, true) operation
              (handler operation state).1 ((handler operation state).2, true) :=
            .inl ⟨rfl, rfl⟩
          exact ⟨_, .step hanswer hrun⟩

end Program

end Interaction
