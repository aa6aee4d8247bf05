import Alpl.Interleaving.Program
import Mathlib.Data.Option.Basic

/-!
# Threads that interleave

A `Machine` gives the actions of `Interleaving/Program.lean` their meaning on a shared state
and adds the two other ways in which a run goes on: an idle thread enters a piece of code, and
the environment changes the state by itself.  Every outcome the state leaves open (what a
system call answers, which thread moves next) is named in the event, so `Machine.step` is a
function and a run is a list of events: "for every run" is a quantifier over lists.

An action that cannot happen now (a lock that another thread owns, an empty queue) has no
successor state.  The thread then simply does not move.
-/

namespace Interleaving

/-- What the threads of a system can do.  `T` are the threads, `C` the outcomes an action can
have, `L` the labels code can be entered at, `E` the moves of the environment. -/
structure Machine (A : Type) (R : A → Type) (S T L C E : Type) where
  /-- Thread `t` performs `a` with outcome `c`. -/
  exec : T → (a : A) → C → S → Option (R a × S)
  /-- The environment moves. -/
  env : E → S → Option S
  /-- The idle thread `t` enters the code at a label. -/
  enter : T → L → S → Option S
  /-- The code at a label; it ends by naming the label to go on at, or none. -/
  code : L → Prog A R (Option L)

/-- Where a thread stands. -/
inductive Control (A : Type) (R : A → Type) (L : Type) : Type
  /-- Between two pieces of code. -/
  | idle
  /-- Inside a piece of code, with this much of it left. -/
  | running (p : Prog A R (Option L))
  /-- An exception has left the code. -/
  | dead

/-- Inside a piece of code. -/
def Control.isRunning {A : Type} {R : A → Type} {L : Type} : Control A R L → Bool
  | .running _ => true
  | _ => false

/-- The action that a thread is about to perform. -/
def Control.next {A : Type} {R : A → Type} {L : Type} : Control A R L → Option A
  | .running (.act a _) => some a
  | _ => none

lemma Control.eq_of_next {A : Type} {R : A → Type} {L : Type} {x : Control A R L} {a : A}
    (h : x.next = some a) : ∃ k, x = .running (.act a k) := by
  cases x with
  | running p =>
      cases p with
      | act b k => cases h; exact ⟨k, rfl⟩
      | ret y => cases h
      | throw => cases h
  | idle => cases h
  | dead => cases h

/-- All threads and the state they share. -/
structure Config (A : Type) (R : A → Type) (S T L : Type) where
  threads : T → Control A R L
  state : S

/-- One move of a run. -/
inductive Event (T L C E : Type)
  /-- Thread `t` enters the code at `l`. -/
  | enter (t : T) (l : L)
  /-- Thread `t` performs its next action, with outcome `c`. -/
  | step (t : T) (c : C)
  /-- The environment moves. -/
  | env (e : E)
  deriving DecidableEq

/-- The thread that moves, or none. -/
def Event.mover {T L C E : Type} : Event T L C E → Option T
  | .enter t _ => some t
  | .step t _ => some t
  | .env _ => none

namespace Machine

variable {A : Type} {R : A → Type} {S T L C E : Type}
variable (M : Machine A R S T L C E)

/-- Where a thread stands once its remaining program is `p`. -/
def settle : Prog A R (Option L) → Control A R L
  | .ret none => .idle
  | .ret (some l) => .running (M.code l)
  | .throw => .dead
  | .act a k => .running (.act a k)

variable [DecidableEq T]

/-- The next configuration, if the event can happen. -/
def step (G : Config A R S T L) : Event T L C E → Option (Config A R S T L)
  | .enter t l =>
    match G.threads t with
    | .idle => (M.enter t l G.state).map fun s =>
        ⟨Function.update G.threads t (M.settle (M.code l)), s⟩
    | _ => none
  | .step t c =>
    match G.threads t with
    | .running (.act a k) => (M.exec t a c G.state).map fun rs =>
        ⟨Function.update G.threads t (M.settle (k rs.1)), rs.2⟩
    | _ => none
  | .env e => (M.env e G.state).map fun s => ⟨G.threads, s⟩

/-- The configuration after a list of events. -/
def run (G : Config A R S T L) : List (Event T L C E) → Option (Config A R S T L)
  | [] => some G
  | e :: es => (M.step G e).bind fun G' => run G' es

/-- `G'` is reached from `G` by some run. -/
def Reaches (G G' : Config A R S T L) : Prop := ∃ es, M.run G es = some G'

variable {M}

lemma step_enter {G : Config A R S T L} {t : T} {l : L} {s : S} (hx : G.threads t = .idle)
    (h : M.enter t l G.state = some s) : M.step G (.enter t l) =
      some ⟨Function.update G.threads t (M.settle (M.code l)), s⟩ := by
  rw [step, hx, h]
  rfl

lemma step_act {G : Config A R S T L} {t : T} {a : A} {k : R a → Prog A R (Option L)} {c : C}
    {r : R a} {s : S} (hx : G.threads t = .running (.act a k))
    (h : M.exec t a c G.state = some (r, s)) : M.step G (.step t c) =
      some ⟨Function.update G.threads t (M.settle (k r)), s⟩ := by
  rw [step, hx]
  simp only [h, Option.map_some]

lemma step_env {G : Config A R S T L} {e : E} {s : S} (h : M.env e G.state = some s) :
    M.step G (.env e : Event T L C E) = some ⟨G.threads, s⟩ := by
  rw [step, h]
  rfl

/-- A move is one of three: an idle thread enters, a thread performs its next action, or the
environment moves. -/
lemma step_inv {G G' : Config A R S T L} {e : Event T L C E} (h : M.step G e = some G') :
    (∃ t l s', e = .enter t l ∧ G.threads t = .idle ∧ M.enter t l G.state = some s' ∧
      G' = ⟨Function.update G.threads t (M.settle (M.code l)), s'⟩) ∨
    (∃ t c a k r s', e = .step t c ∧ G.threads t = .running (.act a k) ∧
      M.exec t a c G.state = some (r, s') ∧
      G' = ⟨Function.update G.threads t (M.settle (k r)), s'⟩) ∨
    ∃ v s', e = .env v ∧ M.env v G.state = some s' ∧ G' = ⟨G.threads, s'⟩ := by
  cases e with
  | enter t l =>
      rw [Machine.step] at h
      split at h
      · rename_i hx
        obtain ⟨s', hs', rfl⟩ := Option.map_eq_some_iff.mp h
        exact .inl ⟨t, l, s', rfl, hx, hs', rfl⟩
      · cases h
  | step t c =>
      rw [Machine.step] at h
      split at h
      · rename_i a k hx
        obtain ⟨⟨r, s'⟩, hs', rfl⟩ := Option.map_eq_some_iff.mp h
        exact .inr (.inl ⟨t, c, a, k, r, s', rfl, hx, hs', rfl⟩)
      · cases h
  | env v =>
      obtain ⟨s', hs', rfl⟩ := Option.map_eq_some_iff.mp h
      exact .inr (.inr ⟨v, s', rfl, hs', rfl⟩)

lemma run_append {G : Config A R S T L} (es fs : List (Event T L C E)) :
    M.run G (es ++ fs) = (M.run G es).bind fun G' => M.run G' fs := by
  induction es generalizing G with
  | nil => rfl
  | cons e es ih =>
      simp only [List.cons_append, run, Option.bind_assoc]
      exact congrArg _ (funext fun G' => ih)

lemma Reaches.refl (G : Config A R S T L) : M.Reaches G G := ⟨[], rfl⟩

/-- A run of one move. -/
lemma Reaches.step {G G' : Config A R S T L} {e : Event T L C E} (h : M.step G e = some G') :
    M.Reaches G G' :=
  ⟨[e], by rw [run, h]; rfl⟩

/-- A run that goes through `G'` and on to `G''`. -/
lemma Reaches.trans {G G' G'' : Config A R S T L} (h : M.Reaches G G') (h' : M.Reaches G' G'') :
    M.Reaches G G'' := by
  obtain ⟨es, hes⟩ := h
  obtain ⟨fs, hfs⟩ := h'
  exact ⟨es ++ fs, by rw [run_append, hes, Option.bind_some, hfs]⟩

/-- **The run rule.** What every event preserves holds along every run. -/
theorem run_invariant {I : Config A R S T L → Prop}
    (hstep : ∀ G e G', M.step G e = some G' → I G → I G')
    {G G' : Config A R S T L} (hr : M.Reaches G G') (h0 : I G) : I G' := by
  obtain ⟨es, hes⟩ := hr
  induction es generalizing G with
  | nil => obtain rfl : G = G' := Option.some.inj hes; exact h0
  | cons e es ih =>
      obtain ⟨G₁, h1, h2⟩ := Option.bind_eq_some_iff.mp hes
      exact ih (hstep G e G₁ h1 h0) h2

/-- **The run rule for what is said of the state alone.**  What holds in every configuration that
is reached may be used. -/
theorem run_state {K : Config A R S T L → Prop} {I : S → Prop} {G G' : Config A R S T L}
    (henter : ∀ G t l s', K G → M.enter t l G.state = some s' → I G.state → I s')
    (hact : ∀ G t a k c r s', K G → G.threads t = .running (.act a k) →
      M.exec t a c G.state = some (r, s') → I G.state → I s')
    (henv : ∀ G e s', K G → M.env e G.state = some s' → I G.state → I s')
    (hk : ∀ G', M.Reaches G G' → K G') (hr : M.Reaches G G') (h0 : I G.state) : I G'.state := by
  have hstep : ∀ G₁ e G₂, M.step G₁ e = some G₂ → M.Reaches G G₁ ∧ I G₁.state →
      M.Reaches G G₂ ∧ I G₂.state := by
    rintro G₁ e G₂ he ⟨hr₁, h₁⟩
    refine ⟨hr₁.trans (.step he), ?_⟩
    rcases step_inv he with ⟨t, l, s', -, -, hs', rfl⟩ | ⟨t, c, a, k, r, s', -, hx, hs', rfl⟩ |
      ⟨v, s', -, hs', rfl⟩
    · exact henter G₁ t l s' (hk G₁ hr₁) hs' h₁
    · exact hact G₁ t a k c r s' (hk G₁ hr₁) hx hs' h₁
    · exact henv G₁ v s' (hk G₁ hr₁) hs' h₁
  exact (run_invariant hstep hr ⟨.refl G, h0⟩).2

/-- A thread that no event of a run is about stands where it stood. -/
lemma run_threads {G G' : Config A R S T L} {es : List (Event T L C E)} {t : T}
    (hr : M.run G es = some G') (ht : ∀ e ∈ es, e.mover ≠ some t) :
    G'.threads t = G.threads t := by
  induction es generalizing G with
  | nil => obtain rfl : G = G' := Option.some.inj hr; rfl
  | cons e es ih =>
      obtain ⟨G₁, h1, h2⟩ := Option.bind_eq_some_iff.mp hr
      refine (ih h2 fun e' he' => ht e' (List.mem_cons_of_mem e he')).trans ?_
      have hne := ht e List.mem_cons_self
      rcases step_inv h1 with ⟨u, l, s', rfl, -, -, rfl⟩ | ⟨u, c, a, k, r, s', rfl, -, -, rfl⟩ |
        ⟨v, s', -, -, rfl⟩
      · exact Function.update_of_ne (fun h => hne (congrArg some h.symm)) _ _
      · exact Function.update_of_ne (fun h => hne (congrArg some h.symm)) _ _
      · rfl

/-! ## One thread by itself -/

/-- Thread `t` runs `p` from `s` while nobody else moves, and returns `x` in `s'`. -/
inductive Alone (M : Machine A R S T L C E) (t : T) {α : Type} : Prog A R α → S → α → S → Prop
  | ret (x : α) (s : S) : Alone M t (.ret x) s x s
  | act {a : A} {k : R a → Prog A R α} {c : C} {r : R a} {s s₁ s₂ : S} {x : α} :
      M.exec t a c s = some (r, s₁) → Alone M t (k r) s₁ x s₂ → Alone M t (.act a k) s x s₂

omit [DecidableEq T] in
/-- A sequence runs its parts one after the other. -/
lemma alone_bind {α β : Type} {t : T} {p : Prog A R α} {f : α → Prog A R β} {s s' : S} {y : β}
    (h : M.Alone t (p >>= f) s y s') :
    ∃ x s₁, M.Alone t p s x s₁ ∧ M.Alone t (f x) s₁ y s' := by
  induction p generalizing s with
  | ret x => exact ⟨x, s, .ret x s, h⟩
  | throw => cases h
  | act a k ih =>
      cases h with
      | act he hk =>
          obtain ⟨x, s₁, h₁, h₂⟩ := ih _ hk
          exact ⟨x, s₁, .act he h₁, h₂⟩

omit [DecidableEq T] in
/-- The first action, and the rest. -/
lemma alone_act {α : Type} {t : T} {a : A} {k : R a → Prog A R α} {s s' : S} {x : α}
    (h : M.Alone t (Prog.perform a >>= k) s x s') :
    ∃ c r s₁, M.exec t a c s = some (r, s₁) ∧ M.Alone t (k r) s₁ x s' := by
  cases h with
  | act he hk => exact ⟨_, _, _, he, hk⟩

end Machine

end Interleaving
