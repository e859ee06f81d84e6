import WchLink.Interaction.ProgramClass

/-! # The labelled requests of a fallible program

Some of a program's requests carry a label. A fallible program whose labels do
not depend on the replies issues them in one order, all of them when it succeeds
and the first of them otherwise.
-/

namespace Interaction

variable {P : PFunctor.{0, 0}} {σ ε α β γ : Type}

namespace Program

/-- Whatever the replies, the labelled requests are the given ones in order; a
program that fails or is cut may leave the last of them out. -/
def Issues (label : P.A → Option γ) : Program P (Except ε α) → List γ → Prop
  | done (.ok _), labels => labels = []
  | done (.error _), _ => True
  | cut, _ => True
  | call operation next, labels =>
      match label operation with
      | none => ∀ reply, (next reply).Issues label labels
      | some first => ∃ rest, labels = first :: rest ∧ ∀ reply, (next reply).Issues label rest

/-- The labels of a run's requests. -/
def labelsOf (label : P.A → Option γ) (made : List P.Idx) : List γ :=
  made.filterMap fun exchange => label exchange.1

theorem labelsOf_cons (label : P.A → Option γ) (operation : P.A) (reply : P.B operation)
    (made : List P.Idx) :
    labelsOf label (⟨operation, reply⟩ :: made) =
      (label operation).toList ++ labelsOf label made := by
  cases hlabel : label operation with
  | none => exact List.filterMap_cons_none hlabel
  | some first => exact List.filterMap_cons_some hlabel

variable {label : P.A → Option γ} {labels : List γ}

/-- A run has issued a first part of the labels, and what is left of the program
issues the rest. -/
theorem Issues.of_run {program residual : Program P (Except ε α)} {world : World P σ}
    {state final : σ} {made : List P.Idx} (h : program.Issues label labels)
    (hrun : Run world program state made residual final) :
    ∃ left, labels = labelsOf label made ++ left ∧ residual.Issues label left := by
  induction hrun generalizing labels with
  | refl program state => exact ⟨labels, rfl, h⟩
  | @step operation next reply _ _ _ _ _ _ _ ih =>
      unfold Issues at h
      cases hlabel : label operation with
      | none =>
          rw [hlabel] at h
          obtain ⟨left, hleft, hresidual⟩ := ih (h reply)
          refine ⟨left, ?_, hresidual⟩
          rw [hleft, labelsOf_cons, hlabel]
          rfl
      | some first =>
          rw [hlabel] at h
          obtain ⟨rest, rfl, hnext⟩ := h
          obtain ⟨left, hleft, hresidual⟩ := ih (hnext reply)
          refine ⟨left, ?_, hresidual⟩
          rw [hleft, labelsOf_cons, hlabel]
          rfl

theorem Issues.prefix_of_run {program residual : Program P (Except ε α)} {world : World P σ}
    {state final : σ} {made : List P.Idx} (h : program.Issues label labels)
    (hrun : Run world program state made residual final) : labelsOf label made <+: labels := by
  obtain ⟨left, hleft, -⟩ := h.of_run hrun
  exact ⟨left, hleft.symm⟩

/-- A run that succeeds has issued all of them. -/
theorem Issues.all_of_run {program : Program P (Except ε α)} {world : World P σ}
    {state final : σ} {made : List P.Idx} {value : α} (h : program.Issues label labels)
    (hrun : Run world program state made (done (.ok value)) final) :
    labelsOf label made = labels := by
  obtain ⟨left, hleft, hdone⟩ := h.of_run hrun
  have hnone : left = [] := hdone
  rw [hleft, hnone, List.append_nil]

/-- A program without labelled requests. -/
theorem issues_nil {program : Program P (Except ε α)}
    (h : (requesting fun operation => label operation = none).Mem program) :
    program.Issues label [] := by
  induction program with
  | done status =>
      cases status with
      | ok value => rfl
      | error error => trivial
  | cut => trivial
  | call operation next ih =>
      have hlabel : label operation = none := h.1
      unfold Issues
      rw [hlabel]
      exact fun reply => ih reply (h.2 reply)

/-- The rest of a sequence is reached by success alone. -/
theorem Issues.bind {program : Program P (Except ε α)}
    {rest : Except ε α → Program P (Except ε β)} {first second : List γ}
    (h : program.Issues label first)
    (hok : ∀ value, (rest (.ok value)).Issues label second)
    (herror : ∀ error labels, (rest (.error error)).Issues label labels) :
    (program >>= rest).Issues label (first ++ second) := by
  induction program generalizing first with
  | done status =>
      cases status with
      | ok value =>
          have hnone : first = [] := h
          rw [hnone]
          exact hok value
      | error error => exact herror error _
  | cut => trivial
  | call operation next ih =>
      unfold Issues at h
      rw [call_bind]
      unfold Issues
      cases hlabel : label operation with
      | none =>
          rw [hlabel] at h
          exact fun reply => ih reply (h reply)
      | some issued =>
          rw [hlabel] at h
          obtain ⟨others, rfl, hnext⟩ := h
          exact ⟨others ++ second, rfl, fun reply => ih reply (hnext reply)⟩

end Program

open Program

variable {label : P.A → Option γ}

/-- The labelled requests of a fallible program. -/
def IssuesOf (label : P.A → Option γ) (program : ExceptT ε (Program P) α) (labels : List γ) :
    Prop := program.run.Issues label labels

namespace IssuesOf

theorem ok (value : α) : IssuesOf label (pure value : ExceptT ε (Program P) α) [] := rfl

theorem throw (error : ε) (labels : List γ) :
    IssuesOf label (throw error : ExceptT ε (Program P) α) labels := trivial

theorem andThen (first second : List γ) {program : ExceptT ε (Program P) α}
    {rest : α → ExceptT ε (Program P) β} (h : IssuesOf label program first) (hrest : ∀ value, IssuesOf label (rest value) second) :
    IssuesOf label (program >>= rest) (first ++ second) := by
  unfold IssuesOf
  rw [ExceptT.run_bind]
  exact Issues.bind h hrest fun _ _ => trivial

end IssuesOf

end Interaction
