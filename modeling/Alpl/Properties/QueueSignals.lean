import Alpl.Containers.Functions

/-!
# No lost wake-up

A thread that waits for an item or a free slot should not wait while there is one that nobody else
is about to take.  With condition variables that is so: `no_lost_wakeup`.  What there is to take
exceeds the woken threads by one at most, and only while the thread inside `sync_` is on its way to
take it or to signal it.

With events it is so as long as no two signals are merged.  An event that is set remembers one
signal.  Two consumers that have left the critical section and do not wait yet need two; the second
`SetEvent` is lost, and one of them is not woken: `wakeup_lost`.
-/

namespace Alpl.Containers

open Interleaving

variable {T : Type} {path : Path} {max : ℕ} {q₀ : List T} {sig : Signal}
variable {G : Config (Action T) Action.Res (State T) Tid (Label T)}

/-- The releases of `sig` that are due from the thread inside `sync_`, by what it does next: one
while it is on its way to take what it was admitted for, and one while it is on its way to signal
what it has put into the queue or taken out. -/
def overdue (G : Config (Action T) Action.Res (State T) Tid (Label T)) (sig : Signal) : ℕ :=
  match G.state.sync.owner with
  | none => 0
  | some t => match (G.threads t).next with
    | some a => a.debt sig
    | none => 0

lemma overdue_of_next {t : Tid} {a : Action T} (ho : G.state.sync.owner = some t)
    (hx : (G.threads t).next = some a) : overdue G sig = a.debt sig := by
  simp only [overdue, ho, hx]

/-- The thread inside `sync_` owes what it owes at its next action. -/
lemma covered_of_next {t : Tid} {a : Action T}
    (hG : (contract path max q₀).Good (machine path max) G) (ho : G.state.sync.owner = some t)
    (hx : (G.threads t).next = some a) : Covered max (a.debt sig) G.state sig := by
  rcases hG.allowed_next hx with ha | ha
  · by_cases hinside : a.isInside = true
    · rw [if_pos hinside] at ha
      exact ha.2 sig
    · rw [if_neg hinside] at ha
      exact absurd ho ha
  · exact absurd ho ha.2.2.2

/-- A thread that is not about to perform an action owes nothing, where the contract knows it. -/
lemma covered_of_exit {t : Tid} {x : Option (Label T)} {s : State T}
    (h : (contract path max q₀).Exit t x s) (ho : s.sync.owner = some t) :
    Covered max 0 s sig := by
  have hrest : ¬ AtRest t s := fun hr => hr.outside ho
  cases x with
  | none => exact absurd h hrest
  | some l =>
      cases l with
      | tryPushBack item ms => exact absurd h hrest
      | tryPopFront ms => exact absurd h hrest
      | pushLoop item ms =>
          have hloop : AtLoop max (.push item) t s := h
          exact hloop.inside.covered sig
      | popLoop ms =>
          have hloop : AtLoop max .pop t s := h
          exact hloop.inside.covered sig

/-- **At any moment the account of wake-ups is off by what the owner of `sync_` owes.** -/
theorem covered_overdue (hG : (contract path max q₀).Good (machine path max) G) (sig : Signal) :
    Covered max (overdue G sig) G.state sig := by
  cases ho : G.state.sync.owner with
  | none =>
      have hc := hG.ok.inv.covered sig
      rw [if_pos ho] at hc
      exact hc.mono (Nat.zero_le _)
  | some t =>
      cases hx : (G.threads t).next with
      | some a =>
          rw [overdue_of_next ho hx]
          exact covered_of_next hG ho hx
      | none =>
          apply Covered.mono _ (Nat.zero_le _)
          have hok := hG.threads t
          cases hctl : G.threads t with
          | idle =>
              rw [hctl] at hok
              exact absurd ho hok.outside
          | dead =>
              rw [hctl] at hok
              exact hok.elim
          | running p =>
              rw [hctl] at hok hx
              obtain ⟨P, -, hP, hsafe⟩ := hok
              cases p with
              | ret y => exact covered_of_exit (hsafe _ hG.ok hP) ho
              | throw => exact (hsafe _ hG.ok hP).elim
              | act a k => cases hx

/-! ## Condition variables -/

/-- **No wake-up is lost with condition variables**: if threads sleep, there is no more to take than
woken threads that have not looked yet, and what is overdue. -/
theorem no_lost_wakeup (h : Reachable .conditionVariable max q₀ G) (hq₀ : q₀.length ≤ max)
    (hw : G.state.waiting sig ≠ []) :
    supply max G.state sig ≤ (G.state.released sig).length + overdue G sig := by
  have hG := reachable_good h hq₀ nofun
  obtain ⟨hset, -, hmerged⟩ := hG.ok.inv.conditionVariable rfl sig
  have htoken : token G.state sig = 0 := by simp [token, hset]
  have hlength := List.length_pos_iff.mpr hw
  rcases covered_overdue hG sig with hm | hs | hn
  · rw [hmerged] at hm
    cases hm
  · omega
  · omega

/-- Two consumers sleep, and one of them is woken by a push. -/
theorem no_lost_wakeup_push : ∃ G, Reachable .conditionVariable 2 ([] : List ℕ) G ∧
    G.state.waiting .queueIsEmpty = [0] ∧ supply 2 G.state .queueIsEmpty = 1 ∧
    supply 2 G.state .queueIsEmpty ≤
      (G.state.released .queueIsEmpty).length + overdue G .queueIsEmpty := by
  obtain ⟨G, hG, hx⟩ : ∃ G, Reachable .conditionVariable 2 ([] : List ℕ) G ∧
      (G.state.waiting .queueIsEmpty, G.state.q) = ([0], [7]) :=
    reachable_of_run (script 0 (.tryPopFront infinite) 4 ++ script 1 (.tryPopFront 5) 4 ++
        script 2 (.tryPushBack 7 0) 4 ++ [.step 2 (.release 1), .step 2 .ok])
      (fun G => (G.state.waiting .queueIsEmpty, G.state.q)) rfl
  simp only [Prod.mk.injEq] at hx
  obtain ⟨hwaiting, hq⟩ := hx
  refine ⟨G, hG, hwaiting, ?_, no_lost_wakeup hG (by decide) ?_⟩
  · simp [supply, hq]
  · rw [hwaiting]
    exact List.cons_ne_nil _ _

/-- A producer has put an item into the queue and not called `WakeConditionVariable` yet. -/
theorem wakeup_pending : ∃ G, Reachable .conditionVariable 2 ([] : List ℕ) G ∧
    G.state.waiting .queueIsEmpty ≠ [] ∧
    ¬ supply 2 G.state .queueIsEmpty ≤ (G.state.released .queueIsEmpty).length := by
  obtain ⟨G, hG, hx⟩ : ∃ G, Reachable .conditionVariable 2 ([] : List ℕ) G ∧
      (G.state.waiting .queueIsEmpty, G.state.q, G.state.released .queueIsEmpty) =
        ([0], [7], []) :=
    reachable_of_run (script 0 (.tryPopFront infinite) 4 ++ script 2 (.tryPushBack 7 0) 4)
      (fun G => (G.state.waiting .queueIsEmpty, G.state.q, G.state.released .queueIsEmpty)) rfl
  simp only [Prod.mk.injEq] at hx
  obtain ⟨hwaiting, hq, hreleased⟩ := hx
  refine ⟨G, hG, ?_, ?_⟩
  · rw [hwaiting]
    exact List.cons_ne_nil _ _
  · simp [supply, hq, hreleased]

/-! ## Events -/

/-- A thread is blocked in an `INFINITE` wait for `sig` while the event is not set, although there
is something for it to take and no other thread was released to take it. -/
structure LostWakeUp (max : ℕ) (G : Config (Action T) Action.Res (State T) Tid (Label T))
    (sig : Signal) (t : Tid) : Prop where
  blocked : t ∈ G.state.waiting sig ∧ (G.threads t).next = some (.endWait sig infinite)
  unset : G.state.isSet sig = false
  supply : 0 < supply max G.state sig
  nobody : G.state.released sig = []

/-- **No wake-up is lost with events, as long as no two signals are merged** and no wait has failed.
A thread whose wait has timed out leaves a critical section that it does not own, for which Windows
documents no result; it makes no further move here. -/
theorem no_lost_wakeup_event (h : Reachable .event max q₀ G) (hq₀ : q₀.length ≤ max)
    (hk : ∀ t, (t, .failed) ∉ G.state.waits) (hm : G.state.merged sig = false)
    (ho : overdue G sig = 0) (t : Tid) : ¬ LostWakeUp max G sig t := by
  intro hlost
  have hG := reachable_good h hq₀ fun _ => hk
  have htoken : token G.state sig = 0 := by simp [token, hlost.unset]
  have hlength := List.length_pos_of_mem hlost.blocked.1
  have hsupply := hlost.supply
  have hc := covered_overdue hG sig
  rw [ho, Covered, hm, htoken, hlost.nobody] at hc
  rcases hc with hc | hc | hc
  · cases hc
  · simp only [List.length_nil] at hc
    omega
  · omega

/-- Two consumers are blocked, a push releases one of them, and the other stays blocked while the
item is in the queue. -/
theorem no_lost_wakeup_event_push : ∃ G, Reachable .event 2 ([] : List ℕ) G ∧
    G.state.waiting .queueIsEmpty = [1] ∧
    (G.threads 1).next = some (.endWait .queueIsEmpty infinite) ∧
    G.state.isSet .queueIsEmpty = false ∧ G.state.q = [7] ∧
    G.state.released .queueIsEmpty = [0] ∧ ¬ LostWakeUp 2 G .queueIsEmpty 1 := by
  obtain ⟨G, hG, hx⟩ : ∃ G, Reachable .event 2 ([] : List ℕ) G ∧
      (G.state.waiting .queueIsEmpty, (G.threads 1).next, G.state.isSet .queueIsEmpty, G.state.q,
        G.state.released .queueIsEmpty, G.state.waits, G.state.merged .queueIsEmpty,
        overdue G .queueIsEmpty) =
        ([1], some (.endWait .queueIsEmpty infinite), false, [7], [0], [], false, 0) :=
    reachable_of_run
      (script 0 (.tryPopFront infinite) 5 ++ script 1 (.tryPopFront infinite) 5 ++
        script 2 (.tryPushBack 7 infinite) 4 ++ [.step 2 (.release 0), .step 2 .ok, .step 2 .ok])
      (fun G => (G.state.waiting .queueIsEmpty, (G.threads 1).next, G.state.isSet .queueIsEmpty,
        G.state.q, G.state.released .queueIsEmpty, G.state.waits, G.state.merged .queueIsEmpty,
        overdue G .queueIsEmpty)) rfl
  simp only [Prod.mk.injEq] at hx
  obtain ⟨hwaiting, hnext, hset, hq, hreleased, hwaits, hmerged, hdue⟩ := hx
  refine ⟨G, hG, hwaiting, hnext, hset, hq, hreleased,
    no_lost_wakeup_event hG (by decide) (fun t => ?_) hmerged hdue 1⟩
  rw [hwaits]
  exact List.not_mem_nil

/-- Two consumers, `0` and `1`, are about to wait when two items are pushed.  The event remembers
one signal.  Consumer `0` passes and takes an item; consumer `1` stays blocked before the other, and
everybody else is gone. -/
theorem wakeup_lost : ∃ G, Reachable .event 2 (constructed 2 : List ℕ) G ∧
    LostWakeUp 2 G .queueIsEmpty 1 ∧ G.state.sync = .free ∧ overdue G .queueIsEmpty = 0 ∧
    (G.threads 0).next = none ∧ (G.threads 2).next = none := by
  obtain ⟨G, hG, hx⟩ : ∃ G, Reachable .event 2 (constructed 2 : List ℕ) G ∧
      (G.state.waiting .queueIsEmpty, (G.threads 1).next, G.state.isSet .queueIsEmpty, G.state.q,
        G.state.released .queueIsEmpty, G.state.sync, overdue G .queueIsEmpty,
        (G.threads 0).next, (G.threads 2).next) =
        ([1], some (.endWait .queueIsEmpty infinite), false, [8], [], .free, 0, none, none) :=
    reachable_of_run
      (script 0 (.tryPopFront infinite) 9 ++ script 0 (.tryPopFront infinite) 9 ++
        script 0 (.tryPopFront infinite) 4 ++ script 1 (.tryPopFront infinite) 4 ++
        script 2 (.tryPushBack 7 infinite) 7 ++ script 2 (.tryPushBack 8 infinite) 7 ++
        [.step 0 .ok, .step 1 .ok] ++ List.replicate 9 (.step 0 .ok))
      (fun G => (G.state.waiting .queueIsEmpty, (G.threads 1).next, G.state.isSet .queueIsEmpty,
        G.state.q, G.state.released .queueIsEmpty, G.state.sync, overdue G .queueIsEmpty,
        (G.threads 0).next, (G.threads 2).next)) rfl
  simp only [Prod.mk.injEq] at hx
  obtain ⟨hwaiting, hnext, hset, hq, hreleased, hsync, hdue, h0, h2⟩ := hx
  refine ⟨G, hG, ⟨⟨?_, hnext⟩, hset, ?_, hreleased⟩, hsync, hdue, h0, h2⟩
  · rw [hwaiting]
    exact List.mem_singleton_self 1
  · simp [supply, hq]

end Alpl.Containers
