import Alpl.Interleaving.Machine

/-!
# Typestates

What a thread may do next often depends only on what it has done before, whatever the shared state
is and whatever the others do.  A `Typestate` says so with an automaton beside each thread: it moves
on with every action of the thread and its answer, and in each of its states some actions are
allowed.  That a program follows it (`Typestate.Follows`) is a fact about the text of the program
alone, and needs neither invariant nor rely.

`Typestate.Keeps.sound` brings the automata into the runs of a machine.  An invariant may speak of
them and of the shared state, so it can count the threads that are in some phase of their code.
-/

namespace Interleaving

variable {A : Type} {R : A → Type} {S T L C E Q : Type} {α β : Type}

/-- The automaton that goes along with a thread. -/
structure Typestate (A : Type) (R : A → Type) (L Q : Type) where
  allowed : Q → A → Prop
  next : Q → (a : A) → R a → Q
  /-- Where it is when the thread enters the code at a label. -/
  entry : L → Q

namespace Typestate

variable (D : Typestate A R L Q)

/-- Started in `q`, the program performs allowed actions only, and returns where `P` holds. -/
def Follows : Prog A R α → Q → (α → Q → Prop) → Prop
  | .ret x, q, P => P x q
  | .throw, _, _ => True
  | .act a k, q, P => D.allowed q a ∧ ∀ r, Follows (k r) (D.next q a r) P

/-- The program may be run in `q` and stays there. -/
def Stays (p : Prog A R α) (q : Q) : Prop := D.Follows p q fun _ q' => q' = q

variable {D}

@[simp] lemma follows_ret {x : α} {q : Q} {P : α → Q → Prop} :
    D.Follows (.ret x) q P ↔ P x q := Iff.rfl

@[simp] lemma follows_throw {q : Q} {P : α → Q → Prop} : D.Follows .throw q P ↔ True := Iff.rfl

@[simp] lemma follows_act {a : A} {k : R a → Prog A R α} {q : Q} {P : α → Q → Prop} :
    D.Follows (.act a k) q P ↔ D.allowed q a ∧ ∀ r, D.Follows (k r) (D.next q a r) P := Iff.rfl

@[simp] lemma follows_perform {a : A} {q : Q} {P : R a → Q → Prop} :
    D.Follows (Prog.perform a) q P ↔ D.allowed q a ∧ ∀ r, P r (D.next q a r) := Iff.rfl

@[simp] lemma follows_ite {φ : Prop} [Decidable φ] {p p' : Prog A R α} {q : Q}
    {P : α → Q → Prop} :
    D.Follows (if φ then p else p') q P ↔ (φ → D.Follows p q P) ∧ (¬ φ → D.Follows p' q P) := by
  by_cases h : φ <;> simp [h]

lemma Follows.post {p : Prog A R α} {q : Q} {P P' : α → Q → Prop} (hp : D.Follows p q P)
    (h : ∀ x q', P x q' → P' x q') : D.Follows p q P' := by
  induction p generalizing q with
  | ret x => exact h x q hp
  | throw => trivial
  | act a k ih => exact ⟨hp.1, fun r => ih r (hp.2 r)⟩

lemma Follows.bind {p : Prog A R α} {f : α → Prog A R β} {q : Q} {N : α → Q → Prop}
    {P : β → Q → Prop} (hp : D.Follows p q N) (hf : ∀ x q', N x q' → D.Follows (f x) q' P) :
    D.Follows (p >>= f) q P := by
  induction p generalizing q with
  | ret x => exact hf x q hp
  | throw => trivial
  | act a k ih => exact ⟨hp.1, fun r => ih r (hp.2 r)⟩

lemma Stays.bind {p : Prog A R α} {f : α → Prog A R β} {q : Q} {P : β → Q → Prop}
    (hp : D.Stays p q) (hf : ∀ x, D.Follows (f x) q P) : D.Follows (p >>= f) q P :=
  Follows.bind hp fun x _ hq => hq ▸ hf x

/-- One action, then the rest. -/
lemma Follows.step {a : A} {k : R a → Prog A R α} {q : Q} {P : α → Q → Prop}
    (ha : D.allowed q a) (hk : ∀ r, D.Follows (k r) (D.next q a r) P) :
    D.Follows (Prog.perform a >>= k) q P :=
  ⟨ha, hk⟩

/-- Every action that the program can come to is one of these. -/
def Every (φ : A → Prop) : Prog A R α → Prop
  | .ret _ => True
  | .throw => True
  | .act a k => φ a ∧ ∀ r, Every φ (k r)

@[simp] lemma every_ret {φ : A → Prop} (x : α) : Every φ (.ret x : Prog A R α) := trivial

@[simp] lemma every_throw {φ : A → Prop} : Every φ (.throw : Prog A R α) := trivial

@[simp] lemma every_act {φ : A → Prop} {a : A} {k : R a → Prog A R α} :
    Every φ (.act a k) ↔ φ a ∧ ∀ r, Every φ (k r) := Iff.rfl

@[simp] lemma every_perform {φ : A → Prop} {a : A} :
    Every φ (Prog.perform a : Prog A R (R a)) ↔ φ a := by
  simp [Prog.perform]

@[simp] lemma every_ite {φ : A → Prop} {ψ : Prop} [Decidable ψ] {p p' : Prog A R α} :
    Every φ (if ψ then p else p') ↔ (ψ → Every φ p) ∧ (¬ ψ → Every φ p') := by
  by_cases h : ψ <;> simp [h]

lemma Every.bind {φ : A → Prop} {p : Prog A R α} {f : α → Prog A R β} (hp : Every φ p)
    (hf : ∀ x, Every φ (f x)) : Every φ (p >>= f) := by
  induction p with
  | ret x => exact hf x
  | throw => trivial
  | act a k ih => exact ⟨hp.1, fun r => ih r (hp.2 r)⟩

/-- One action, then the rest. -/
lemma Every.step {φ : A → Prop} {a : A} {k : R a → Prog A R α} (ha : φ a)
    (hk : ∀ r, Every φ (k r)) : Every φ (Prog.perform a >>= k) :=
  ⟨ha, hk⟩

/-- What every action of a program leaves of the state is left by a run of it alone. -/
lemma Every.alone {M : Machine A R S T L C E} {φ : A → Prop} {W : S → S → Prop} {t : T}
    (hrefl : ∀ s, W s s) (htrans : ∀ s₁ s₂ s₃, W s₁ s₂ → W s₂ s₃ → W s₁ s₃)
    (hact : ∀ a c s r s', φ a → M.exec t a c s = some (r, s') → W s s') {p : Prog A R α} {s s' : S}
    {x : α} (hp : Every φ p) (h : M.Alone t p s x s') : W s s' := by
  induction h with
  | ret x s => exact hrefl s
  | act he _ ih => exact htrans _ _ _ (hact _ _ _ _ _ hp.1 he) (ih (hp.2 _))

/-- A program of actions that the automaton lets pass in `q` leaves it there. -/
lemma Every.stays {φ : A → Prop} {p : Prog A R α} {q : Q} (hp : Every φ p)
    (hφ : ∀ a, φ a → D.allowed q a ∧ ∀ r, D.next q a r = q) : D.Stays p q := by
  induction p with
  | ret x => rfl
  | throw => trivial
  | act a k ih =>
      obtain ⟨ha, hk⟩ := hp
      obtain ⟨hallowed, hnext⟩ := hφ a ha
      exact ⟨hallowed, fun r => (hnext r).symm ▸ ih r (hk r)⟩

/-! ## Threads with their automata -/

variable (D)

/-- Where a piece of code ends, the automaton is ready for the next piece. -/
def Ends : Option L → Q → Prop
  | none, _ => True
  | some l, q => q = D.entry l

/-- What is left of the code of a thread follows its automaton. -/
def OnTrack : Control A R L → Q → Prop
  | .running p, q => D.Follows p q D.Ends
  | _, _ => True

variable [DecidableEq T]

/-- The code follows the automata, and an invariant of automata and state is kept by every move
from a configuration with `K`. -/
structure Keeps (M : Machine A R S T L C E) (K : Config A R S T L → Prop)
    (I : (T → Q) → S → Prop) : Prop where
  code : ∀ l, D.Follows (M.code l) (D.entry l) D.Ends
  act : ∀ G t a k c r s' σ, K G → G.threads t = .running (.act a k) → D.allowed (σ t) a →
    M.exec t a c G.state = some (r, s') → I σ G.state →
    I (Function.update σ t (D.next (σ t) a r)) s'
  env : ∀ G e s' σ, K G → M.env e G.state = some s' → I σ G.state → I σ s'
  enter : ∀ G t l s' σ, K G → G.threads t = .idle → M.enter t l G.state = some s' →
    I σ G.state → I (Function.update σ t (D.entry l)) s'

variable {D} {M : Machine A R S T L C E} {K : Config A R S T L → Prop} {I : (T → Q) → S → Prop}
variable {G G' : Config A R S T L} {σ : T → Q}

omit [DecidableEq T] in
lemma onTrack_settle {p : Prog A R (Option L)} {q : Q}
    (hcode : ∀ l, D.Follows (M.code l) (D.entry l) D.Ends) (hp : D.Follows p q D.Ends) :
    D.OnTrack (M.settle p) q := by
  cases p with
  | ret x =>
      cases x with
      | none => trivial
      | some l =>
          obtain rfl : q = D.entry l := hp
          exact hcode l
  | throw => trivial
  | act a k => exact hp

lemma onTrack_update {t : T} {x : Control A R L} {q : Q}
    (hσ : ∀ u, D.OnTrack (G.threads u) (σ u)) (hx : D.OnTrack x q) (u : T) :
    D.OnTrack (Function.update G.threads t x u) (Function.update σ t q u) := by
  by_cases hu : u = t
  · subst hu
    simpa using hx
  · simpa only [Function.update_of_ne hu] using hσ u

/-- One move of a machine, with its automata. -/
lemma Keeps.move (hK : D.Keeps M K I) {e : Event T L C E} (he : M.step G e = some G')
    (hG : K G) (hσ : ∀ t, D.OnTrack (G.threads t) (σ t)) (hI : I σ G.state) :
    ∃ σ', (∀ t, D.OnTrack (G'.threads t) (σ' t)) ∧ I σ' G'.state := by
  rcases Machine.step_inv he with ⟨t, l, s', -, hx, hs', rfl⟩ |
    ⟨t, c, a, k, r, s', -, hx, hs', rfl⟩ | ⟨v, s', -, hs', rfl⟩
  · exact ⟨_, onTrack_update hσ (onTrack_settle hK.code (hK.code l)),
      hK.enter G t l s' σ hG hx hs' hI⟩
  · have ht := hσ t
    rw [hx] at ht
    exact ⟨_, onTrack_update hσ (onTrack_settle hK.code (ht.2 r)),
      hK.act G t a k c r s' σ hG hx ht.1 hs' hI⟩
  · exact ⟨σ, hσ, hK.env G v s' σ hG hs' hI⟩

/-- **Soundness.** Along every run the automata can be moved on with their threads, and the
invariant holds of them and the state. -/
theorem Keeps.sound (hK : D.Keeps M K I) (hk : ∀ G', M.Reaches G G' → K G')
    (hr : M.Reaches G G') (hσ : ∀ t, D.OnTrack (G.threads t) (σ t)) (hI : I σ G.state) :
    ∃ σ', (∀ t, D.OnTrack (G'.threads t) (σ' t)) ∧ I σ' G'.state := by
  have hstep : ∀ G₁ e G₂, M.step G₁ e = some G₂ →
      (M.Reaches G G₁ ∧ ∃ σ', (∀ t, D.OnTrack (G₁.threads t) (σ' t)) ∧ I σ' G₁.state) →
      M.Reaches G G₂ ∧ ∃ σ', (∀ t, D.OnTrack (G₂.threads t) (σ' t)) ∧ I σ' G₂.state := by
    rintro G₁ e G₂ he ⟨hr₁, σ', hσ', hI'⟩
    exact ⟨hr₁.trans (.step he), hK.move he (hk G₁ hr₁) hσ' hI'⟩
  exact (Machine.run_invariant hstep hr ⟨.refl G, σ, hσ, hI⟩).2

end Typestate

end Interleaving
