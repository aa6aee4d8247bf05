import Alpl.Interleaving.Machine

/-!
# What a thread performs

`Machine.Alone` says where a thread gets that runs a program by itself.  `Machine.Performs` names
the actions on the way as well, each with its answer, so that a property of a call can speak of
what the environment answered in it.
-/

namespace Interleaving

/-- Actions with their answers. -/
abbrev Trace {A : Type} (R : A → Type) := List (Σ a, R a)

namespace Machine

variable {A : Type} {R : A → Type} {S T L C E α β : Type}
variable {M : Machine A R S T L C E} {t : T}

/-- Thread `t` runs `p` from `s` while nobody else moves, performs the actions of `tr` with their
answers, and returns `x` in `s'`. -/
inductive Performs (M : Machine A R S T L C E) (t : T) :
    Prog A R α → S → Trace R → α → S → Prop
  | ret (x : α) (s : S) : Performs M t (.ret x) s [] x s
  | act {a : A} {k : R a → Prog A R α} {c : C} {r : R a} {s s₁ s₂ : S} {tr : Trace R}
      {x : α} : M.exec t a c s = some (r, s₁) → Performs M t (k r) s₁ tr x s₂ →
        Performs M t (.act a k) s (⟨a, r⟩ :: tr) x s₂

lemma Performs.perform {a : A} {f : R a → Prog A R α} {c : C} {r : R a} {s s₁ s' : S}
    {tr : Trace R} {x : α} (he : M.exec t a c s = some (r, s₁))
    (h : M.Performs t (f r) s₁ tr x s') :
    M.Performs t (Prog.perform a >>= f) s (⟨a, r⟩ :: tr) x s' :=
  .act he h

lemma performs_ret {x y : α} {s s' : S} {tr : Trace R} :
    M.Performs t (.ret x) s tr y s' ↔ tr = [] ∧ y = x ∧ s' = s := by
  constructor
  · rintro ⟨⟩
    exact ⟨rfl, rfl, rfl⟩
  · rintro ⟨rfl, rfl, rfl⟩
    exact .ret _ _

/-- The first action, and the rest. -/
lemma performs_act {a : A} {k : R a → Prog A R α} {s s' : S} {tr : Trace R} {x : α} :
    M.Performs t (.act a k) s tr x s' ↔ ∃ c r s₁ rest, M.exec t a c s = some (r, s₁) ∧
      tr = ⟨a, r⟩ :: rest ∧ M.Performs t (k r) s₁ rest x s' := by
  constructor
  · rintro (_ | ⟨he, hk⟩)
    exact ⟨_, _, _, _, he, rfl, hk⟩
  · rintro ⟨c, r, s₁, rest, he, rfl, hk⟩
    exact .act he hk

lemma performs_perform {a : A} {f : R a → Prog A R α} {s s' : S} {tr : Trace R} {x : α} :
    M.Performs t (Prog.perform a >>= f) s tr x s' ↔ ∃ c r s₁ rest, M.exec t a c s = some (r, s₁) ∧
      tr = ⟨a, r⟩ :: rest ∧ M.Performs t (f r) s₁ rest x s' :=
  performs_act

/-- A sequence performs its parts one after the other. -/
lemma performs_bind {p : Prog A R α} {f : α → Prog A R β} {s s' : S} {tr : Trace R}
    {y : β} :
    M.Performs t (p >>= f) s tr y s' ↔ ∃ x s₁ tr₁ tr₂, tr = tr₁ ++ tr₂ ∧
      M.Performs t p s tr₁ x s₁ ∧ M.Performs t (f x) s₁ tr₂ y s' := by
  induction p generalizing s tr with
  | ret x =>
      constructor
      · intro h
        exact ⟨x, s, [], tr, rfl, .ret x s, h⟩
      · rintro ⟨x', s₁, tr₁, tr₂, rfl, ⟨⟩, h⟩
        exact h
  | throw =>
      constructor
      · rintro ⟨⟩
      · rintro ⟨x, s₁, tr₁, tr₂, -, ⟨⟩, -⟩
  | act a k ih =>
      rw [Prog.act_bind, performs_act]
      constructor
      · rintro ⟨c, r, s₁, rest, he, rfl, hk⟩
        obtain ⟨x, s₂, tr₁, tr₂, rfl, h₁, h₂⟩ := (ih r).mp hk
        exact ⟨x, s₂, ⟨a, r⟩ :: tr₁, tr₂, rfl, .act he h₁, h₂⟩
      · rintro ⟨x, s₂, tr₁, tr₂, rfl, h₁, h₂⟩
        obtain ⟨c, r, s₁, rest, he, rfl, hk⟩ := performs_act.mp h₁
        exact ⟨c, r, s₁, rest ++ tr₂, he, rfl, (ih r).mpr ⟨x, s₂, rest, tr₂, rfl, hk, h₂⟩⟩

lemma Performs.bind {p : Prog A R α} {f : α → Prog A R β} {s s₁ s' : S}
    {tr₁ tr₂ : Trace R} {x : α} {y : β} (h₁ : M.Performs t p s tr₁ x s₁)
    (h₂ : M.Performs t (f x) s₁ tr₂ y s') : M.Performs t (p >>= f) s (tr₁ ++ tr₂) y s' :=
  performs_bind.mpr ⟨x, s₁, tr₁, tr₂, rfl, h₁, h₂⟩

end Machine

end Interleaving
