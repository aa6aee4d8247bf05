import Alpl.Interleaving.Machine

/-!
# Actions that take time

A machine performs each action in one step.  An operation on a data structure takes time, and while
one thread is inside it another may enter one as well.  `Machine.intervals` gives the chosen actions
a begin and an end: the begin changes nothing, and at the end the action takes effect.  Between the
two the thread is `Control.inside` the action.

A run with intervals is a run of the machine with some steps that change nothing
(`Machine.erases_of_reaches`).
-/

namespace Interleaving

variable {A : Type} {R : A → Type} {S T L C E : Type} {α β : Type}

/-- The steps of a thread whose actions may take time. -/
inductive Interval (A : Type) : Type
  | start (a : A)
  | finish (a : A)
  deriving DecidableEq

/-- The answer comes at the end. -/
abbrev Interval.Res (R : A → Type) : Interval A → Type
  | .start _ => Unit
  | .finish a => R a

/-- The program with a begin before each action that takes time. -/
def Prog.intervals (φ : A → Bool) : Prog A R α → Prog (Interval A) (Interval.Res R) α
  | .ret x => .ret x
  | .throw => .throw
  | .act a k =>
    if φ a then .act (.start a) fun _ => .act (.finish a) fun r => (k r).intervals φ
    else .act (.finish a) fun r => (k r).intervals φ

/-- The machine whose actions `φ` take time. -/
def Machine.intervals (φ : A → Bool) (M : Machine A R S T L C E) :
    Machine (Interval A) (Interval.Res R) S T L C E where
  exec t
    | .start _, _, s => some ((), s)
    | .finish a, c, s => M.exec t a c s
  env := M.env
  enter := M.enter
  code l := (M.code l).intervals φ

/-- The same control point, with all actions still to begin. -/
def Control.intervals (φ : A → Bool) : Control A R L → Control (Interval A) (Interval.Res R) L
  | .idle => .idle
  | .running p => .running (p.intervals φ)
  | .dead => .dead

def Config.intervals (φ : A → Bool) (G : Config A R S T L) :
    Config (Interval A) (Interval.Res R) S T L where
  threads t := (G.threads t).intervals φ
  state := G.state

/-- The action whose begin the thread has performed, and whose end it has not. -/
def Control.inside (φ : A → Bool) : Control (Interval A) (Interval.Res R) L → Option A
  | .running (.act (.finish a) _) => if φ a then some a else none
  | _ => none

/-! ## Without the begins -/

/-- The thread stands as in the run without intervals, or is inside its next action. -/
inductive Control.Erases (φ : A → Bool) : Control A R L →
    Control (Interval A) (Interval.Res R) L → Prop
  | same (x : Control A R L) : Erases φ x (x.intervals φ)
  | inside (a : A) (k : R a → Prog A R (Option L)) :
      Erases φ (.running (.act a k)) (.running (.act (.finish a) fun r => (k r).intervals φ))

/-- `G'` without its begins is `G`. -/
structure Config.Erases (φ : A → Bool) (G : Config A R S T L)
    (G' : Config (Interval A) (Interval.Res R) S T L) : Prop where
  threads : ∀ t, (G.threads t).Erases φ (G'.threads t)
  state : G'.state = G.state

variable {φ : A → Bool} {M : Machine A R S T L C E}

lemma Config.erases_intervals (G : Config A R S T L) : G.Erases φ (G.intervals φ) :=
  ⟨fun t => .same (G.threads t), rfl⟩

lemma intervals_settle (p : Prog A R (Option L)) :
    (M.settle p).intervals φ = (M.intervals φ).settle (p.intervals φ) := by
  cases p with
  | ret x => cases x <;> rfl
  | throw => rfl
  | act a k =>
      simp only [Machine.settle, Control.intervals, Prog.intervals]
      split <;> rfl

lemma intervals_act (a : A) (k : R a → Prog A R (Option L)) :
    (Prog.act a k).intervals φ = (if φ a then
      .act (.start a) fun _ => .act (.finish a) fun r => (k r).intervals φ
      else .act (.finish a) fun r => (k r).intervals φ) := rfl

lemma Control.Erases.of_idle {x : Control A R L} (h : x.Erases φ .idle) : x = .idle := by
  generalize hy : Control.idle = y at h
  cases h with
  | same =>
      cases x with
      | idle => rfl
      | running p => cases hy
      | dead => cases hy
  | inside a k => cases hy

/-- Where the next step is a begin, the action is still to come. -/
lemma Control.Erases.of_start {x : Control A R L} {a : A}
    {k' : Unit → Prog (Interval A) (Interval.Res R) (Option L)}
    (h : x.Erases φ (.running (.act (.start a) k'))) :
    ∃ k, x = .running (.act a k) ∧ k' () = .act (.finish a) fun r => (k r).intervals φ := by
  generalize hy : (Control.running (.act (.start a) k') :
    Control (Interval A) (Interval.Res R) L) = y at h
  cases h with
  | same =>
      cases x with
      | idle => cases hy
      | dead => cases hy
      | running p =>
          cases p with
          | ret x => cases hy
          | throw => cases hy
          | act b k =>
              rw [Control.intervals, intervals_act] at hy
              split at hy <;> cases hy
              exact ⟨k, rfl, rfl⟩
  | inside b k => cases hy

/-- Where the next step is an end, it is the step of the action. -/
lemma Control.Erases.of_finish {x : Control A R L} {a : A}
    {k' : R a → Prog (Interval A) (Interval.Res R) (Option L)}
    (h : x.Erases φ (.running (.act (.finish a) k'))) :
    ∃ k, x = .running (.act a k) ∧ k' = fun r => (k r).intervals φ := by
  generalize hy : (Control.running (.act (.finish a) k') :
    Control (Interval A) (Interval.Res R) L) = y at h
  cases h with
  | same =>
      cases x with
      | idle => cases hy
      | dead => cases hy
      | running p =>
          cases p with
          | ret x => cases hy
          | throw => cases hy
          | act b k =>
              rw [Control.intervals, intervals_act] at hy
              split at hy <;> cases hy
              exact ⟨k, rfl, rfl⟩
  | inside b k =>
      cases hy
      exact ⟨k, rfl, rfl⟩

/-- A thread that is inside an action is about to perform it in the run without intervals. -/
lemma Control.Erases.next_of_inside {x : Control A R L}
    {y : Control (Interval A) (Interval.Res R) L} {a : A} (h : x.Erases φ y)
    (ha : y.inside φ = some a) : x.next = some a := by
  unfold Control.inside at ha
  split at ha
  · split at ha <;> cases ha
    obtain ⟨k, rfl, -⟩ := h.of_finish
    rfl
  · cases ha

lemma erases_settle (p : Prog A R (Option L)) :
    (M.settle p).Erases φ ((M.intervals φ).settle (p.intervals φ)) := by
  rw [← intervals_settle]
  exact .same _

variable [DecidableEq T] {G : Config A R S T L}
variable {G' G'' : Config (Interval A) (Interval.Res R) S T L}

lemma erases_update {t : T} {x : Control A R L} {y : Control (Interval A) (Interval.Res R) L}
    (h : G.Erases φ G') (hx : x.Erases φ y) (u : T) :
    (Function.update G.threads t x u).Erases φ (Function.update G'.threads t y u) := by
  by_cases hu : u = t
  · subst hu
    simpa using hx
  · simpa only [Function.update_of_ne hu] using h.threads u

/-- A step with intervals is a step without, or a begin. -/
lemma Config.Erases.step {e : Event T L C E} (h : G.Erases φ G')
    (he : (M.intervals φ).step G' e = some G'') : ∃ G₁, M.Reaches G G₁ ∧ G₁.Erases φ G'' := by
  have hstate := h.state
  rcases Machine.step_inv he with ⟨t, l, s', -, hidle, hs', rfl⟩ |
    ⟨t, c, b, k', r, s', -, hx, hs', rfl⟩ | ⟨v, s', -, hs', rfl⟩
  · have ht := h.threads t
    replace hs' : M.enter t l G'.state = some s' := hs'
    rw [hstate] at hs'
    rw [hidle] at ht
    exact ⟨_, .step (Machine.step_enter ht.of_idle hs'),
      erases_update h (erases_settle (M.code l)), rfl⟩
  · have ht := h.threads t
    rw [hx] at ht
    cases b with
    | start a =>
        obtain ⟨rfl, rfl⟩ := Prod.mk.inj (Option.some.inj hs')
        obtain ⟨k, hk, hk'⟩ := ht.of_start
        refine ⟨G, .refl G, fun u => ?_, hstate⟩
        rw [hk', ← Function.update_eq_self t G.threads, hk]
        exact erases_update h (.inside a k) u
    | finish a =>
        replace hs' : M.exec t a c G'.state = some (r, s') := hs'
        rw [hstate] at hs'
        obtain ⟨k, hk, rfl⟩ := ht.of_finish
        exact ⟨_, .step (Machine.step_act hk hs'),
          erases_update h (erases_settle (k r)), rfl⟩
  · replace hs' : M.env v G'.state = some s' := hs'
    rw [hstate] at hs'
    exact ⟨_, .step (Machine.step_env hs'), h.threads, rfl⟩

/-- **A run with intervals is a run of the machine**, once the begins are left out. -/
theorem Machine.erases_of_reaches (h : G.Erases φ G') (hr : (M.intervals φ).Reaches G' G'') :
    ∃ G₁, M.Reaches G G₁ ∧ G₁.Erases φ G'' := by
  have hstep : ∀ G₁ e G₂, (M.intervals φ).step G₁ e = some G₂ →
      (∃ G₃, M.Reaches G G₃ ∧ G₃.Erases φ G₁) → ∃ G₃, M.Reaches G G₃ ∧ G₃.Erases φ G₂ := by
    rintro G₁ e G₂ he ⟨G₃, hr₃, h₃⟩
    obtain ⟨G₄, hr₄, h₄⟩ := h₃.step he
    exact ⟨G₄, hr₃.trans hr₄, h₄⟩
  exact Machine.run_invariant hstep hr ⟨G, .refl G, h⟩

end Interleaving
