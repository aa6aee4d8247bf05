import Alpl.Containers.Functions

/-!
# The lock of a queue with events

`q_` belongs to the thread inside `sync_`.  On the event path the loop of a call leaves `sync_` by
hand before it waits, and enters it again only after a wait that was signalled.  The destructor of
`sync_t` leaves it once more on every way out.  So the discipline holds in a run in which every wait
is signalled (`lock_kept`), and a wait that times out breaks it at once (`lock_broken`).
-/

namespace Alpl.Containers

open Interleaving

variable {T : Type} {path : Path} {max : ℕ} {q₀ : List T} {t : Tid} {s s' : State T}
variable {cs : CriticalSection Tid}
variable {G G' : Config (Action T) Action.Res (State T) Tid (Label T)}

/-! ## Entering and leaving -/

/-- Every thread has left `sync_` as often as it has entered it, but for the times that it is
inside. -/
structure Balanced (s : State T) : Prop where
  counted : ∀ u, s.entered u = s.left u + s.sync.heldBy u
  held : s.sync.owner ≠ none → s.sync.count ≠ 0

lemma Balanced.enter (h : Balanced s) (he : s.sync.enter t = some cs) :
    Balanced (s.enter t cs) := by
  constructor
  · intro u
    have hc := h.counted u
    by_cases hu : u = t
    · subst hu
      have hcs := CriticalSection.heldBy_enter he
      simp only [State.enter, Function.update_self]
      omega
    · have hcs := CriticalSection.heldBy_enter_of_ne he hu
      simp only [State.enter, Function.update_of_ne hu]
      omega
  · intro _
    have hcs := CriticalSection.heldBy_enter he
    simp only [CriticalSection.heldBy, CriticalSection.enter_owner he, if_pos] at hcs
    simp only [State.enter]
    omega

lemma Balanced.leave (h : Balanced s) (he : s.sync.leave t = some cs) :
    Balanced (s.leave t cs) := by
  have howner : s.sync.owner = some t := by
    unfold CriticalSection.leave at he
    split at he
    · assumption
    · cases he
  have hheld := h.held (by rw [howner]; exact nofun)
  constructor
  · intro u
    have hc := h.counted u
    by_cases hu : u = t
    · subst hu
      have hcs := CriticalSection.heldBy_leave he
      have hpos : s.sync.heldBy u = s.sync.count := if_pos howner
      simp only [State.leave, Function.update_self]
      omega
    · have hcs := CriticalSection.heldBy_leave_of_ne he hu
      simp only [State.leave, Function.update_of_ne hu]
      omega
  · simp only [CriticalSection.leave, if_pos howner] at he
    simp only [State.leave]
    split at he
    · cases he
      exact fun hne => absurd rfl hne
    · cases he
      intro _
      change s.sync.count - 1 ≠ 0
      omega

lemma balanced_exec {a : Action T} {c : Outcome} {r : a.Res}
    (he : exec max t a c s = some (r, s')) (h : Balanced s) : Balanced s' := by
  have hsame : ∀ s' : State T, s'.entered = s.entered → s'.left = s.left →
      s'.sync = s.sync → Balanced s' := fun s' h1 h2 h3 =>
    ⟨by rw [h1, h2, h3]; exact h.counted, by rw [h3]; exact h.held⟩
  cases a <;> cases c <;> simp only [exec, reduceCtorEq, Option.map_eq_some_iff] at he
  case enterCriticalSection.ok =>
    obtain ⟨cs, hcs, he⟩ := he
    cases he
    exact h.enter hcs
  case leaveCriticalSection.ok =>
    obtain ⟨cs, hcs, he⟩ := he
    cases he
    exact ⟨(h.leave hcs).counted, (h.leave hcs).held⟩
  case sleep.ok =>
    obtain ⟨cs, hcs, he⟩ := he
    cases he
    exact ⟨(h.leave hcs).counted, (h.leave hcs).held⟩
  all_goals apply hsame <;> grind [State.release, State.giveUp]

lemma reachable_balanced (h : Reachable path max q₀ G) : Balanced G.state := by
  refine Machine.run_state (K := fun _ => True) (fun G t l s' _ hs' hb => ?_)
    (fun G t a k c r s' _ _ hs' hb => balanced_exec hs' hb) (fun _ e => nomatch e)
    (fun _ _ => trivial) h ⟨fun _ => rfl, fun hne => absurd rfl hne⟩
  cases l <;> cases hs' <;> exact hb

/-- Outside, a thread has left as often as it has entered. -/
lemma Balanced.eq_of_outside (h : Balanced s) (ho : Outside t s) : s.entered t = s.left t := by
  have hc := h.counted t
  rwa [CriticalSection.heldBy, if_neg ho] at hc

/-! ## The discipline -/

/-- The action reads or changes `q_`. -/
def Action.usesQueue : Action T → Bool
  | .size | .pushBack _ | .front | .popFront => true
  | _ => false

/-- The threads keep to the rules of `sync_`, in what they are about to do and in what they have
done. -/
structure LockDiscipline (G : Config (Action T) Action.Res (State T) Tid (Label T)) : Prop where
  queue : ∀ t a, (G.threads t).next = some a → a.usesQueue = true → G.state.sync.owner = some t
  exclusive : ∀ t u, G.state.sync.heldBy t ≠ 0 → G.state.sync.heldBy u ≠ 0 → t = u
  leave : ∀ t ev, (G.threads t).next = some (.leaveCriticalSection ev) →
    G.state.sync.owner = some t
  return_balanced : ∀ t ok, (G.threads t).next = some (.ret ok) → G.state.entered t = G.state.left t
  idle_balanced : ∀ t, G.threads t = .idle → G.state.entered t = G.state.left t

/-- Whatever a thread does inside, it does as the owner, unless a wait has timed out. -/
lemma owner_of_isInside {a : Action T} (hG : (contract path max q₀).Good (machine path max) G)
    (hw : ∀ t, (t, .timeout) ∉ G.state.waits) (hx : (G.threads t).next = some a)
    (ha : a.isInside = true) : G.state.sync.owner = some t := by
  rcases hG.allowed_next hx with hallowed | hallowed
  · rw [if_pos ha] at hallowed
    exact hallowed.1
  · exact absurd hallowed.2.2.1 (hw t)

/-- **The discipline is kept in every run in which no wait has timed out or failed.** -/
theorem lock_kept (h : Reachable .event max q₀ G) (hq₀ : q₀.length ≤ max)
    (hw : G.state.waits = []) : LockDiscipline G := by
  have hnone : ∀ w, w ∉ G.state.waits := by
    rw [hw]
    exact fun _ => List.not_mem_nil
  have hG := reachable_good h hq₀ fun _ t => hnone _
  have hbalanced := reachable_balanced h
  constructor
  · intro t a hx ha
    apply owner_of_isInside hG (fun _ => hnone _) hx
    cases a <;> first | rfl | cases ha
  · intro t u ht hu
    have howner := CriticalSection.owner_of_heldBy ht
    rw [CriticalSection.owner_of_heldBy hu] at howner
    exact (Option.some.inj howner).symm
  · intro t ev hx
    exact owner_of_isInside hG (fun _ => hnone _) hx rfl
  · intro t ok hx
    apply hbalanced.eq_of_outside
    rcases hG.allowed_next hx with ha | ha
    · exact ha
    · cases ha.1
  · intro t hx
    have hok := hG.threads t
    rw [hx] at hok
    exact hbalanced.eq_of_outside hok.outside

/-- A pop that waits, is signalled, and returns. -/
theorem lock_kept_pop : ∃ G, Reachable .event 1 ([] : List ℕ) G ∧ G.state.popped = [7] ∧
    LockDiscipline G := by
  obtain ⟨G, hG, hx⟩ : ∃ G, Reachable .event 1 ([] : List ℕ) G ∧
      (G.state.popped, G.state.waits) = ([7], []) :=
    reachable_of_run
      (script 0 (.tryPopFront 5) 5 ++ script 1 (.tryPushBack 7 0) 4 ++
        [.step 1 (.release 0), .step 1 .ok, .step 1 .ok] ++ List.replicate 9 (.step 0 .ok))
      (fun G => (G.state.popped, G.state.waits)) rfl
  simp only [Prod.mk.injEq] at hx
  exact ⟨G, hG, hx.1, lock_kept hG (by decide) hx.2⟩

/-- A pop that times out calls `LeaveCriticalSection` a second time, while nobody is inside. -/
theorem lock_broken : ∃ G, Reachable .event 1 ([] : List ℕ) G ∧
    (G.threads 0).next = some (.leaveCriticalSection none) ∧ G.state.sync = .free ∧
    ¬ LockDiscipline G := by
  obtain ⟨G, hG, hx⟩ : ∃ G, Reachable .event 1 ([] : List ℕ) G ∧
      ((G.threads 0).next, G.state.sync) = (some (.leaveCriticalSection none), .free) :=
    reachable_of_run (script 0 (.tryPopFront 5) 5 ++ [.step 0 .timeout])
      (fun G => ((G.threads 0).next, G.state.sync)) rfl
  simp only [Prod.mk.injEq] at hx
  refine ⟨G, hG, hx.1, hx.2, fun hlock => ?_⟩
  have howner := hlock.leave 0 none hx.1
  rw [hx.2] at howner
  cases howner

end Alpl.Containers
