import Mathlib.Data.List.Basic
import Mathlib.Logic.Function.Basic
import Mathlib.Tactic.Common

/-!
# Linearizable objects

`Atomic` is the reference: an object whose calls take effect one at a time, each at one instant
between its call and its return.  A history of calls and returns is linearizable if the reference
has it.

An implementation does not always know the instant while it runs.  A call that gives up after a
time-out took effect when it last looked at the object, and at that moment it might still have
succeeded.  `Observed` allows for this: a call may look as often as it likes, each look at which it
could have ended without a change is kept, and the last one counts.  `Observed.atomic` finds the
instants afterwards, by a backward simulation.
-/

namespace Interleaving

variable {T Op Res σ : Type}

/-- A sequential object: `step op s res s'` says that `op` may take `s` to `s'` and answer
`res`. -/
structure SeqObject (Op Res σ : Type) where
  step : Op → σ → Res → σ → Prop

/-- What the clients see. -/
inductive ClientEvent (T Op Res : Type)
  | call (t : T) (op : Op)
  | ret (t : T) (res : Res)
  deriving DecidableEq

/-- Where a thread stands with the reference object. -/
inductive Phase (Op Res : Type)
  | idle
  | called (op : Op)
  /-- The call has taken effect, and will return this. -/
  | done (op : Op) (res : Res)

/-- Where a thread stands with an implementation. -/
inductive Seen (Op Res : Type)
  | idle
  | called (op : Op)
  /-- At the last look the call could have ended with this answer, changing nothing. -/
  | missed (op : Op) (res : Res)
  | done (op : Op) (res : Res)
  deriving DecidableEq

/-- Inside a call that has not changed the object. -/
def Seen.Calling (op : Op) (x : Seen Op Res) : Prop := x = .called op ∨ ∃ res, x = .missed op res

variable [DecidableEq T]

/-- The reference object: histories (the newest event first), with the calls that have taken
effect, in order, and the state they have brought about. -/
inductive Atomic (obj : SeqObject Op Res σ) (s₀ : σ) :
    List (ClientEvent T Op Res) → List (Op × Res) → σ → (T → Phase Op Res) → Prop
  | start : Atomic obj s₀ [] [] s₀ fun _ => .idle
  | call {h es s ph t op} : Atomic obj s₀ h es s ph → ph t = .idle →
      Atomic obj s₀ (.call t op :: h) es s (Function.update ph t (.called op))
  | effect {h es s s' ph t op res} : Atomic obj s₀ h es s ph → ph t = .called op →
      obj.step op s res s' →
      Atomic obj s₀ h (es ++ [(op, res)]) s' (Function.update ph t (.done op res))
  | ret {h es s ph t op res} : Atomic obj s₀ h es s ph → ph t = .done op res →
      Atomic obj s₀ (.ret t res :: h) es s (Function.update ph t .idle)

/-- The history is one of the reference object, which it leaves in state `s`. -/
def Linearizable (obj : SeqObject Op Res σ) (s₀ : σ) (h : List (ClientEvent T Op Res)) (s : σ) :
    Prop :=
  ∃ es ph, Atomic obj s₀ h es s ph

/-- A history of an implementation. -/
inductive Observed (obj : SeqObject Op Res σ) (s₀ : σ) :
    List (ClientEvent T Op Res) → σ → (T → Seen Op Res) → Prop
  | start : Observed obj s₀ [] s₀ fun _ => .idle
  | call {h s ph t} (op : Op) : Observed obj s₀ h s ph → ph t = .idle →
      Observed obj s₀ (.call t op :: h) s (Function.update ph t (.called op))
  | miss {h s ph t op res} : Observed obj s₀ h s ph → (ph t).Calling op → obj.step op s res s →
      Observed obj s₀ h s (Function.update ph t (.missed op res))
  | hit {h s s' ph t op res} : Observed obj s₀ h s ph → (ph t).Calling op →
      obj.step op s res s' → Observed obj s₀ h s' (Function.update ph t (.done op res))
  | ret {h s ph t op res} : Observed obj s₀ h s ph → ph t = .missed op res ∨ ph t = .done op res →
      Observed obj s₀ (.ret t res :: h) s (Function.update ph t .idle)

/-! ## The backward simulation -/

/-- The phases that the reference may be in: at a miss, the call may have taken effect or not. -/
inductive Explains : Seen Op Res → Phase Op Res → Prop
  | idle : Explains .idle .idle
  | called (op) : Explains (.called op) (.called op)
  | missed (op res) : Explains (.missed op res) (.done op res)
  | undecided (op res) : Explains (.missed op res) (.called op)
  | done (op res) : Explains (.done op res) (.done op res)

lemma Explains.eq_idle {y : Phase Op Res} (h : Explains .idle y) : y = .idle := by
  cases h
  rfl

lemma Explains.eq_called {op : Op} {y : Phase Op Res} (h : Explains (.called op) y) :
    y = .called op := by
  cases h
  rfl

lemma Explains.eq_done {op : Op} {res : Res} {y : Phase Op Res} (h : Explains (.done op res) y) :
    y = .done op res := by
  cases h
  rfl

lemma Explains.of_calling {op : Op} {x : Seen Op Res} (h : x.Calling op) :
    Explains x (.called op) := by
  obtain rfl | ⟨res, rfl⟩ := h
  · exact .called op
  · exact .undecided op res

lemma explains_self {ph : T → Seen Op Res} {ph' : T → Phase Op Res} {t : T} {x : Seen Op Res}
    (h : ∀ u, Explains (Function.update ph t x u) (ph' u)) : Explains x (ph' t) := by
  have ht := h t
  rwa [Function.update_self] at ht

/-- Explanations of all threads, but for what is said of `t`. -/
lemma explains_update {ph : T → Seen Op Res} {ph' : T → Phase Op Res} {t : T} {x : Seen Op Res}
    {y : Phase Op Res} (h : ∀ u, Explains (Function.update ph t x u) (ph' u))
    (hy : Explains (ph t) y) : ∀ u, Explains (ph u) (Function.update ph' t y u) := by
  intro u
  by_cases hu : u = t
  · rw [hu, Function.update_self]
    exact hy
  · have hx := h u
    rw [Function.update_of_ne hu] at hx
    rwa [Function.update_of_ne hu]

lemma update_back {ph : T → Phase Op Res} {t : T} {x : Phase Op Res} (y : Phase Op Res)
    (h : ph t = x) : Function.update (Function.update ph t y) t x = ph := by
  rw [Function.update_idem, ← h, Function.update_eq_self]

/-- **The reference has every observed history**, and can be in any phases that explain what was
observed. -/
theorem Observed.atomic {obj : SeqObject Op Res σ} {s₀ s : σ} {h : List (ClientEvent T Op Res)}
    {ph : T → Seen Op Res} (ho : Observed obj s₀ h s ph) {ph' : T → Phase Op Res}
    (hph : ∀ t, Explains (ph t) (ph' t)) : ∃ es, Atomic obj s₀ h es s ph' := by
  induction ho generalizing ph' with
  | start =>
      obtain rfl : ph' = fun _ => .idle := by
        funext t
        exact (hph t).eq_idle
      exact ⟨[], .start⟩
  | @call h s ph t op _ hidle ih =>
      have ht : ph' t = .called op := (explains_self hph).eq_called
      have hy : Explains (ph t) Phase.idle := by
        rw [hidle]
        exact .idle
      obtain ⟨es, ha⟩ := ih (explains_update hph hy)
      refine ⟨es, ?_⟩
      have hc : Atomic obj s₀ (.call t op :: h) es s _ := .call ha (Function.update_self ..)
      rwa [update_back _ ht] at hc
  | @miss h s ph t op res _ hcalling hstep ih =>
      have ht := explains_self hph
      generalize hy : ph' t = y at ht
      cases ht with
      | missed =>
          -- this look is the instant at which the call took effect
          obtain ⟨es, ha⟩ := ih (explains_update hph (.of_calling hcalling))
          have he := Atomic.effect ha (Function.update_self ..) hstep
          rw [update_back _ hy] at he
          exact ⟨_, he⟩
      | undecided =>
          -- the instant is still to come
          apply ih
          intro u
          by_cases hu : u = t
          · rw [hu, hy]
            exact .of_calling hcalling
          · have hx := hph u
            rwa [Function.update_of_ne hu] at hx
  | @hit h s s' ph t op res _ hcalling hstep ih =>
      have ht : ph' t = .done op res := (explains_self hph).eq_done
      obtain ⟨es, ha⟩ := ih (explains_update hph (.of_calling hcalling))
      have he := Atomic.effect ha (Function.update_self ..) hstep
      rw [update_back _ ht] at he
      exact ⟨_, he⟩
  | @ret h s ph t op res _ hdone ih =>
      have ht : ph' t = .idle := (explains_self hph).eq_idle
      have hy : Explains (ph t) (.done op res) := by
        rcases hdone with hd | hd <;> rw [hd]
        · exact .missed op res
        · exact .done op res
      obtain ⟨es, ha⟩ := ih (explains_update hph hy)
      refine ⟨es, ?_⟩
      have hr := Atomic.ret ha (Function.update_self ..)
      rwa [update_back _ ht] at hr

/-- Some phases of the reference explain any observation. -/
lemma exists_explains (x : Seen Op Res) : ∃ y, Explains x y := by
  cases x with
  | idle => exact ⟨_, .idle⟩
  | called op => exact ⟨_, .called op⟩
  | missed op res => exact ⟨_, .missed op res⟩
  | done op res => exact ⟨_, .done op res⟩

/-- **Every observed history is linearizable.** -/
theorem Observed.linearizable {obj : SeqObject Op Res σ} {s₀ s : σ}
    {h : List (ClientEvent T Op Res)} {ph : T → Seen Op Res} (ho : Observed obj s₀ h s ph) :
    Linearizable obj s₀ h s := by
  choose y hy using fun t => exists_explains (ph t)
  obtain ⟨es, ha⟩ := ho.atomic hy
  exact ⟨es, y, ha⟩

end Interleaving
