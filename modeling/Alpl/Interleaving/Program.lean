import Mathlib.Logic.Function.Basic

/-!
# Sequential programs over atomic actions

A thread of a multi-threaded program is a tree of *atomic actions*: the thread performs one
action, receives its answer, and goes on with the continuation chosen by that answer.  The
meaning of an action is not part of the program; it is supplied later by a machine
(`Interleaving/Machine.lean`), so one text can be run under any interleaving and any outcome of
the calls it makes.

`Prog A R α` is that tree for an action type `A` in which action `a` answers with an `R a`.
Besides a normal return it has `throw`, the point at which an exception leaves the program: no
continuation runs after it.
-/

namespace Interleaving

/-- A sequential program over the atomic actions `A`; action `a` answers with an `R a`. -/
inductive Prog (A : Type) (R : A → Type) (α : Type) : Type
  /-- The program returns. -/
  | ret (x : α)
  /-- An exception leaves the program. -/
  | throw
  /-- The program performs `a` and goes on with the answer. -/
  | act (a : A) (k : R a → Prog A R α)

namespace Prog

variable {A : Type} {R : A → Type} {α β : Type}

/-- Sequencing: the second program starts where the first returns, and never after a throw. -/
def bind : Prog A R α → (α → Prog A R β) → Prog A R β
  | .ret x, f => f x
  | .throw, _ => .throw
  | .act a k, f => .act a fun r => (k r).bind f

instance : Monad (Prog A R) where
  pure := .ret
  bind := .bind

/-- One action, its answer returned. -/
def perform (a : A) : Prog A R (R a) := .act a .ret

@[simp] lemma pure_eq_ret (x : α) : (pure x : Prog A R α) = .ret x := rfl

@[simp] lemma ret_bind (x : α) (f : α → Prog A R β) : (Prog.ret x >>= f) = f x := rfl

@[simp] lemma throw_bind (f : α → Prog A R β) : ((Prog.throw : Prog A R α) >>= f) = .throw := rfl

@[simp] lemma act_bind (a : A) (k : R a → Prog A R α) (f : α → Prog A R β) :
    (Prog.act a k >>= f) = .act a fun r => k r >>= f := rfl

@[simp] lemma perform_bind (a : A) (f : R a → Prog A R β) : (perform a >>= f) = .act a f := rfl

end Prog

end Interleaving
