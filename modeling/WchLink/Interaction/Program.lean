import Mathlib.Data.PFunctor.Univariate.Basic

/-! # Programs that exchange requests and replies with an environment

An interface is a polynomial functor: its positions are the operations a
program may request and its directions are the replies it may be resumed with.
A program is a well-founded tree of such requests. Nothing here fixes who
answers them; handlers and worlds do that.
-/

namespace Interaction

/-- A program over the interface `P`. The leaf `cut` is no result: it marks
the point where the observation budget of an unbounded loop was spent. -/
inductive Program (P : PFunctor.{0, 0}) (α : Type) : Type
  | done (value : α)
  | cut
  | call (operation : P.A) (next : P.B operation → Program P α)

namespace Program

variable {P Q : PFunctor.{0, 0}} {α β γ : Type}

/-- Run `program`, then the rest on its value. -/
protected def bind (program : Program P α) (rest : α → Program P β) : Program P β :=
  match program with
  | done value => rest value
  | cut => cut
  | call operation next => call operation fun reply => (next reply).bind rest

instance : Monad (Program P) where
  pure := done
  bind := Program.bind

theorem pure_eq_done (value : α) : (pure value : Program P α) = done value := rfl

@[simp] theorem done_bind (value : α) (rest : α → Program P β) :
    (done value >>= rest) = rest value := rfl

@[simp] theorem cut_bind (rest : α → Program P β) :
    ((cut : Program P α) >>= rest) = cut := rfl

@[simp] theorem call_bind (operation : P.A) (next : P.B operation → Program P α)
    (rest : α → Program P β) :
    (call operation next >>= rest) = call operation fun reply => next reply >>= rest := rfl

theorem bind_done (program : Program P α) : (program >>= done) = program := by
  induction program with
  | done value => rfl
  | cut => rfl
  | call operation next ih =>
      rw [call_bind]
      exact congrArg (call operation) (funext ih)

theorem bind_assoc' (program : Program P α) (middle : α → Program P β)
    (rest : β → Program P γ) :
    (program >>= middle >>= rest) = program >>= fun value => middle value >>= rest := by
  induction program with
  | done value => rfl
  | cut => rfl
  | call operation next ih =>
      simp only [call_bind]
      exact congrArg (call operation) (funext ih)

instance : LawfulMonad (Program P) :=
  LawfulMonad.mk' (Program P) (fun program => bind_done program)
    (fun _ _ => rfl) bind_assoc'

/-- Request one operation and return its reply. -/
def perform (operation : P.A) : Program P (P.B operation) :=
  call operation done

@[simp] theorem perform_bind (operation : P.A) (rest : P.B operation → Program P α) :
    (perform operation >>= rest) = call operation rest := rfl

end Program

namespace Program

variable {P Q : PFunctor.{0, 0}} {α β : Type}

/-- The same program over another interface: each operation is carried out by
the program that implements it there. -/
def interpret (implementation : (operation : P.A) → Program Q (P.B operation)) :
    Program P α → Program Q α
  | done value => done value
  | cut => cut
  | call operation next =>
      (implementation operation).bind fun reply => (next reply).interpret implementation

@[simp] theorem interpret_bind (implementation : (operation : P.A) → Program Q (P.B operation))
    (program : Program P α) (rest : α → Program P β) :
    (program >>= rest).interpret implementation =
      program.interpret implementation >>= fun value =>
        (rest value).interpret implementation := by
  induction program with
  | done value => rfl
  | cut => rfl
  | call operation next ih =>
      simp only [call_bind, interpret, ih]
      exact (bind_assoc' (implementation operation) _ _).symm

end Program

end Interaction
