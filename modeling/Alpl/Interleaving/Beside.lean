import Alpl.Interleaving.Machine

/-!
# A machine beside data that it does not touch

A program may own data that none of the modelled actions reads or writes.  `Machine.beside` puts
such data next to the state of a machine: what it can do is what the machine can do, and the data
stays as it was (`beside_reaches`).
-/

namespace Interleaving

variable {A : Type} {R : A → Type} {S T L C E X : Type}

/-- The machine `M`, and data of type `X` that no move changes. -/
def Machine.beside (M : Machine A R S T L C E) (X : Type) : Machine A R (S × X) T L C E where
  exec t a c s := (M.exec t a c s.1).map fun rs => (rs.1, (rs.2, s.2))
  env e s := (M.env e s.1).map fun s' => (s', s.2)
  enter t l s := (M.enter t l s.1).map fun s' => (s', s.2)
  code := M.code

/-- A configuration beside the data `x`. -/
def Config.beside (G : Config A R S T L) (x : X) : Config A R (S × X) T L :=
  ⟨G.threads, (G.state, x)⟩

namespace Machine

variable {M : Machine A R S T L C E}

@[simp] lemma settle_beside (p : Prog A R (Option L)) : (M.beside X).settle p = M.settle p := by
  cases p with
  | ret x => cases x <;> rfl
  | throw => rfl
  | act a k => rfl

variable [DecidableEq T] {G : Config A R S T L} {x : X}

lemma step_beside (e : Event T L C E) :
    (M.beside X).step (G.beside x) e = (M.step G e).map fun G' => G'.beside x := by
  cases e with
  | enter t l =>
      simp only [Machine.step, Config.beside, settle_beside]
      cases G.threads t with
      | idle => simp [Machine.beside, Function.comp_def]
      | running p => rfl
      | dead => rfl
  | step t c =>
      simp only [Machine.step, Config.beside, settle_beside]
      cases G.threads t with
      | idle => rfl
      | running p => cases p <;> simp [Machine.beside, Function.comp_def]
      | dead => rfl
  | env v => simp [Machine.step, Config.beside, Machine.beside, Function.comp_def]

lemma run_beside (es : List (Event T L C E)) :
    (M.beside X).run (G.beside x) es = (M.run G es).map fun G' => G'.beside x := by
  induction es generalizing G with
  | nil => rfl
  | cons e es ih =>
      rw [run, run, step_beside]
      cases M.step G e with
      | none => rfl
      | some G' => exact ih

/-- **Beside a machine nothing happens.**  Its runs are those of the machine, with the data as it
was. -/
theorem beside_reaches {H : Config A R (S × X) T L} :
    (M.beside X).Reaches (G.beside x) H ↔ ∃ G', M.Reaches G G' ∧ H = G'.beside x := by
  constructor
  · rintro ⟨es, hes⟩
    rw [run_beside] at hes
    obtain ⟨G', hG', rfl⟩ := Option.map_eq_some_iff.mp hes
    exact ⟨G', ⟨es, hG'⟩, rfl⟩
  · rintro ⟨G', ⟨es, hes⟩, rfl⟩
    exact ⟨es, by rw [run_beside, hes]; rfl⟩

end Machine

end Interleaving
