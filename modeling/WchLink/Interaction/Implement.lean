import WchLink.Interaction.Completes

/-! # Implementations with a state

A program runs over another interface when each of its operations is implemented
there, with a state that the implementation carries from one operation to the next. A
relation between the program's world and what the implementation keeps lifts what is
known of the program.
-/

namespace Interaction.Program

variable {P Q : PFunctor.{0, 0}} {σ τ ρ α β : Type}

/-- The same program over another interface, with the implementation's state. -/
def implement (implementation : (operation : P.A) → ρ → Program Q (P.B operation × ρ)) :
    Program P α → ρ → Program Q (α × ρ)
  | done value, own => done (value, own)
  | cut, _ => cut
  | call operation next, own =>
      (implementation operation own).bind fun result =>
        (next result.1).implement implementation result.2

/-- Each operation of the implementation is one step of the program's world, as far as
the relation goes. -/
def Implements (implementation : (operation : P.A) → ρ → Program Q (P.B operation × ρ))
    (world : World P σ) (guard : Guard P σ) (world' : World Q τ) (guard' : Guard Q τ)
    (relation : σ → ρ → τ → Prop) : Prop :=
  ∀ operation state own low, relation state own low → guard state operation →
    (implementation operation own).Completes world' guard' (fun result final =>
      ∃ next, world state operation result.1 next ∧ relation next result.2 final) low

/-- What is known of a program, of an implemented one. -/
theorem wp_implement {implementation : (operation : P.A) → ρ → Program Q (P.B operation × ρ)}
    {world : World P σ} {guard : Guard P σ} {world' : World Q τ} {guard' : Guard Q τ}
    {relation : σ → ρ → τ → Prop}
    (h : Implements implementation world guard world' guard' relation) {program : Program P α}
    {post : Option α → σ → Prop} {state : σ} {own : ρ} {low : τ}
    (hwp : program.wp world guard post state) (hrelated : relation state own low) :
    (program.implement implementation own).wp world' guard' (fun result final =>
      ∃ next, post (result.map Prod.fst) next ∧
        ∀ value own', result = some (value, own') → relation next own' final) low := by
  induction program generalizing state own low with
  | done value =>
      refine ⟨state, hwp, ?_⟩
      rintro _ own' ⟨⟩
      exact hrelated
  | cut => exact ⟨state, hwp, nofun⟩
  | call operation next ih =>
      have hstep := h operation state own low hrelated hwp.1
      change (implementation operation own >>= fun result =>
        (next result.1).implement implementation result.2).wp world' guard' _ low
      rw [wp_bind]
      apply wp_mono hstep
      rintro _ between ⟨result, rfl, after, hworld, hafter⟩
      exact ih result.1 (hwp.2 result.1 after hworld) hafter

/-! ## Under handlers -/

/-- A program over another interface runs as on its own, when each operation does. -/
theorem run_interpret {implementation : (operation : P.A) → Program Q (P.B operation)}
    {handler : Handler P σ} {handler' : Handler Q σ}
    (h : ∀ operation state, (implementation operation).run handler' state =
      (some (handler operation state).1, (handler operation state).2))
    (program : Program P α) (state : σ) :
    (program.interpret implementation).run handler' state = program.run handler state := by
  induction program generalizing state with
  | done value => rfl
  | cut => rfl
  | call operation next ih =>
      change (implementation operation >>= fun reply =>
        (next reply).interpret implementation).run handler' state = _
      rw [run_bind_of_eq (h operation state)]
      exact ih _ _

/-- An implemented program runs as the program, where what the program asks in turn is
answered as its handler answers it. -/
theorem run_implement {ν : Type}
    {implementation : (operation : P.A) → ρ → Program Q (P.B operation × ρ)}
    {handler : Handler P σ} {handler' : Handler Q τ} {world : World P ν} {guard : Guard P ν}
    {relation : ν → σ → ρ → τ → Prop}
    (h : ∀ operation turn state own low, relation turn state own low → guard turn operation →
      ∃ own' low' next,
        (implementation operation own).run handler' low =
          (some ((handler operation state).1, own'), low') ∧
        world turn operation (handler operation state).1 next ∧
          relation next (handler operation state).2 own' low')
    {program : Program P α} {post : Option α → ν → Prop} {turn : ν} {state final : σ} {own : ρ}
    {low : τ} {value : α} (hwp : program.wp world guard post turn)
    (hrelated : relation turn state own low)
    (hrun : program.run handler state = (some value, final)) :
    ∃ own' low' next, (program.implement implementation own).run handler' low =
        (some (value, own'), low') ∧ post (some value) next ∧ relation next final own' low' := by
  induction program generalizing turn state own low with
  | done result =>
      cases hrun
      exact ⟨own, low, turn, rfl, hwp, hrelated⟩
  | cut => cases hrun
  | call operation next ih =>
      obtain ⟨own', low', after, hstep, hworld, hafter⟩ :=
        h operation turn state own low hrelated hwp.1
      obtain ⟨own'', low'', last, hrest, hpost, hlast⟩ := ih _ (hwp.2 _ after hworld) hafter hrun
      refine ⟨own'', low'', last, ?_, hpost, hlast⟩
      change (implementation operation own >>= fun result =>
        (next result.1).implement implementation result.2).run handler' low = _
      rw [run_bind_of_eq hstep]
      exact hrest

end Interaction.Program
