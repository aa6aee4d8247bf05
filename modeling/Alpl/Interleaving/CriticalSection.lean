import Mathlib.Data.List.Basic
import Mathlib.Tactic.Common

/-!
# Critical sections

A recursive lock, as `EnterCriticalSection` and `LeaveCriticalSection` implement it: the owner
may enter again, and the section is free once it has left as often as it entered.  A thread that
leaves a section it does not own has no defined successor state, so `leave` is partial.
-/

namespace Interleaving

/-- A recursive lock over the threads `T`. -/
structure CriticalSection (T : Type) where
  owner : Option T
  count : ℕ
  deriving DecidableEq

namespace CriticalSection

variable {T : Type}

/-- Nobody is inside. -/
def free : CriticalSection T := ⟨none, 0⟩

variable [DecidableEq T]

/-- How often `t` has entered without leaving. -/
def heldBy (cs : CriticalSection T) (t : T) : ℕ := if cs.owner = some t then cs.count else 0

/-- `t` enters, or waits while another thread is inside. -/
def enter (t : T) (cs : CriticalSection T) : Option (CriticalSection T) :=
  match cs.owner with
  | none => some ⟨some t, 1⟩
  | some u => if u = t then some ⟨some t, cs.count + 1⟩ else none

/-- The owner leaves once. -/
def leave (t : T) (cs : CriticalSection T) : Option (CriticalSection T) :=
  if cs.owner = some t then
    some (if cs.count ≤ 1 then free else ⟨some t, cs.count - 1⟩)
  else none

@[simp] lemma heldBy_free (t : T) : (free : CriticalSection T).heldBy t = 0 := by
  simp [heldBy, free]

lemma enter_owner {t : T} {cs cs' : CriticalSection T} (h : cs.enter t = some cs') :
    cs'.owner = some t := by
  unfold enter at h
  split at h
  · cases h; rfl
  · split at h
    · cases h; rfl
    · cases h

/-- Entering counts for the thread that enters. -/
lemma heldBy_enter {t : T} {cs cs' : CriticalSection T} (h : cs.enter t = some cs') :
    cs'.heldBy t = cs.heldBy t + 1 := by
  unfold enter at h
  split at h
  · rename_i ho; cases h; simp [heldBy, ho]
  · rename_i u ho
    split at h
    · rename_i hu; cases h; simp [heldBy, ho, hu]
    · cases h

/-- Entering changes nothing for the others. -/
lemma heldBy_enter_of_ne {t u : T} {cs cs' : CriticalSection T} (h : cs.enter t = some cs')
    (hu : u ≠ t) : cs'.heldBy u = cs.heldBy u := by
  unfold enter at h
  split at h
  · rename_i ho; cases h; simp [heldBy, ho, hu.symm]
  · rename_i v ho
    split at h
    · rename_i hv; cases h; subst hv; simp [heldBy, ho, hu.symm]
    · cases h

lemma heldBy_leave {t : T} {cs cs' : CriticalSection T} (h : cs.leave t = some cs') :
    cs'.heldBy t = cs.heldBy t - 1 := by
  unfold leave at h
  split at h
  · rename_i ho
    cases h
    by_cases hc : cs.count ≤ 1
    · simp only [heldBy, ho, hc, if_pos]
      simp [free]; omega
    · simp [heldBy, ho, hc]
  · cases h

lemma heldBy_leave_of_ne {t u : T} {cs cs' : CriticalSection T} (h : cs.leave t = some cs')
    (hu : u ≠ t) : cs'.heldBy u = cs.heldBy u := by
  unfold leave at h
  split at h
  · rename_i ho
    cases h
    by_cases hc : cs.count ≤ 1
    · simp [heldBy, ho, hc, free, hu.symm]
    · simp [heldBy, ho, hc, hu.symm]
  · cases h

lemma owner_of_heldBy {t : T} {cs : CriticalSection T} (h : cs.heldBy t ≠ 0) :
    cs.owner = some t := by
  unfold heldBy at h
  split at h
  · assumption
  · exact absurd rfl h

/-- A section that is owned has been entered. -/
def Entered (cs : CriticalSection T) : Prop := ∀ t, cs.owner = some t → cs.count ≠ 0

omit [DecidableEq T] in
lemma entered_free : (free : CriticalSection T).Entered := nofun

lemma entered_enter {t : T} {cs cs' : CriticalSection T} (h : cs.enter t = some cs') :
    cs'.Entered := by
  unfold enter at h
  split at h
  · cases h
    exact fun _ _ => Nat.one_ne_zero
  · split at h <;> cases h
    exact fun _ _ => Nat.succ_ne_zero _

lemma entered_leave {t : T} {cs cs' : CriticalSection T} (h : cs.leave t = some cs') :
    cs'.Entered := by
  unfold leave at h
  split at h
  · cases h
    by_cases hc : cs.count ≤ 1
    · rw [if_pos hc]
      exact entered_free
    · rw [if_neg hc]
      exact fun _ _ => by simp only; omega
  · cases h

lemma heldBy_of_owner {t : T} {cs : CriticalSection T} (h : cs.Entered)
    (ht : cs.owner = some t) : cs.heldBy t ≠ 0 := by
  rw [heldBy, if_pos ht]
  exact h t ht

end CriticalSection

end Interleaving
