import WchLink.Interaction.ProgramClass

/-! # Programs that complete

A program completes when every run of it in a world makes only allowed requests and
ends with a value, which satisfies a postcondition with the state it leaves.
-/

namespace Interaction.Program

variable {P Q : PFunctor.{0, 0}} {σ ε ρ α β : Type}

/-- Every run ends with a value that satisfies the postcondition. -/
def Completes (world : World P σ) (guard : Guard P σ) (program : Program P α)
    (post : α → σ → Prop) (state : σ) : Prop :=
  program.wp world guard (fun result final => ∃ value, result = some value ∧ post value final) state

namespace Completes

variable {world : World P σ} {guard : Guard P σ} {state : σ}

theorem done {value : α} {post : α → σ → Prop} (h : post value state) :
    Completes world guard (pure value) post state := ⟨value, rfl, h⟩

theorem call {operation : P.A} {rest : P.B operation → Program P α} {post : α → σ → Prop}
    (hallowed : guard state operation)
    (hrest : ∀ reply next, world state operation reply next →
      Completes world guard (rest reply) post next) :
    Completes world guard (perform operation >>= rest) post state := ⟨hallowed, hrest⟩

theorem mono {program : Program P α} {post post' : α → σ → Prop}
    (h : Completes world guard program post state)
    (himp : ∀ value final, post value final → post' value final) :
    Completes world guard program post' state := by
  apply wp_mono h
  rintro _ final ⟨value, rfl, hpost⟩
  exact ⟨value, rfl, himp value final hpost⟩

theorem bind {program : Program P α} {rest : α → Program P β} {middle : α → σ → Prop}
    {post : β → σ → Prop} (h : Completes world guard program middle state)
    (hrest : ∀ value between, middle value between →
      Completes world guard (rest value) post between) :
    Completes world guard (program >>= rest) post state := by
  unfold Completes
  rw [wp_bind]
  apply wp_mono h
  rintro _ between ⟨value, rfl, hmiddle⟩
  exact hrest value between hmiddle

/-- Sequencing of fallible programs with a state of their own. -/
theorem andThen {program : ExceptT ε (StateT ρ (Program P)) α}
    {rest : α → ExceptT ε (StateT ρ (Program P)) β} {own : ρ}
    {middle : Except ε α × ρ → σ → Prop} {post : Except ε β × ρ → σ → Prop}
    (h : Completes world guard (program.run.run own) middle state)
    (hok : ∀ value own' between, middle (.ok value, own') between →
      Completes world guard ((rest value).run.run own') post between)
    (herror : ∀ error own' between, middle (.error error, own') between →
      post (.error error, own') between) :
    Completes world guard ((program >>= rest).run.run own) post state := by
  rw [ExceptT.run_bind, StateT.run_bind]
  apply h.bind
  intro result between hbetween
  obtain ⟨status, own'⟩ := result
  cases status with
  | ok value => exact hok value own' between hbetween
  | error error => exact done (herror error own' between hbetween)

/-- A fallible program without the state, in one that has it. -/
theorem lift {program : ExceptT ε (Program P) α} {own : ρ} {post : Except ε α → σ → Prop}
    (h : Completes world guard program.run post state) :
    Completes world guard
      ((ExceptT.mk (StateT.lift program.run) : ExceptT ε (StateT ρ (Program P)) α).run.run own)
      (fun result final => post result.1 final ∧ result.2 = own) state := by
  rw [ExceptT.run_mk, StateT.run_lift]
  apply h.bind
  intro status between hbetween
  exact done ⟨hbetween, rfl⟩

/-- A program that is not cut leaves a state that no request of it changes. -/
theorem of_total {program : Program P α} (h : program.Total)
    (hsame : ∀ operation, guard state operation ∧
      ∀ reply next, world state operation reply next → next = state) :
    Completes world guard program (fun _ final => final = state) state := by
  induction program with
  | done value => exact ⟨value, rfl, rfl⟩
  | cut => exact h.elim
  | call operation next ih =>
      refine ⟨(hsame operation).1, fun reply after hafter => ?_⟩
      rw [(hsame operation).2 reply after hafter]
      exact ih reply (h reply)

/-- A program whose requests change nothing leaves the state as it was. -/
theorem of_follows {fit : P.A → Prop} {program : Program P α} {outcome : List P.Idx → α → Prop}
    (h : program.Follows (fun _ operation => fit operation)
      (fun made result => ∃ value, result = some value ∧ outcome made value))
    (hfit : ∀ operation, fit operation → guard state operation ∧
      ∀ reply next, world state operation reply next → next = state) :
    Completes world guard program (fun _ final => final = state) state := by
  induction program generalizing outcome with
  | done value => exact ⟨value, rfl, rfl⟩
  | cut =>
      obtain ⟨value, hvalue, -⟩ := h
      cases hvalue
  | call operation next ih =>
      obtain ⟨hallowed, hsame⟩ := hfit operation h.1
      refine ⟨hallowed, fun reply after hafter => ?_⟩
      rw [hsame reply after hafter]
      exact @ih reply (fun made => outcome (⟨operation, reply⟩ :: made)) (h.2 reply)

/-- A program over another interface completes when each implementation does. -/
theorem interpret {world' : World Q σ} {guard' : Guard Q σ}
    {implementation : (operation : P.A) → Program Q (P.B operation)}
    (h : ∀ operation state, guard state operation →
      Completes world' guard' (implementation operation) (world state operation) state)
    {program : Program P α} {post : α → σ → Prop}
    (hprogram : Completes world guard program post state) :
    Completes world' guard' (program.interpret implementation) post state :=
  @wp_interpret P Q σ σ α world guard world' guard' id implementation h program _ state hprogram

end Completes

end Interaction.Program
