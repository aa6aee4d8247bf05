import Alpl.Containers.Waiting

/-!
# The functions of a blocking queue

Every function of the queue keeps the contract, so every run does: `reachable_good`.  On the event
path that is so for the runs in which no wait has failed.
-/

namespace Alpl.Containers

open Interleaving

variable {T : Type} {path : Path} {max : ℕ} {q₀ : List T} {t : Tid} {sig : Signal} {op : Op T}
variable {φ : Seen (Op T) (Answer T) → Prop} {i : Option T} {ψ : List T → Prop}

/-! ## The pieces -/

/-- The end of a call that has its answer. -/
lemma safe_leaveAndReturn {ok : Bool} : (contract path max q₀).Safe (machine path max) t
    (leaveAndReturn ok) (Holding max (fun _ => 0) ψ t (Answered ok i) i)
    ((contract path max q₀).Exit t) := by
  apply Contract.Safe.step _ leave_atomic
  intro _
  apply Contract.Safe.step _ ret_atomic
  intro _ s _ h
  exact h

/-- The end of a call whose wait for an event has timed out. -/
lemma safe_leave_timeout (hp : path = .event) : (contract path max q₀).Safe (machine path max) t
    (leaveAndReturn false) (fun s => Outside t s ∧ (t, .timeout) ∈ s.waits)
    ((contract path max q₀).Exit t) := by
  apply Contract.Safe.step _ (leave_timeout_atomic hp)
  exact fun _ => Contract.Safe.vacuous _ fun _ _ h => h

/-- How a turn of the loop ends: the loop goes on, or the call has timed out. -/
def Turned (path : Path) (max : ℕ) (op : Op T) (t : Tid) (again : Bool) (s : State T) : Prop :=
  match again with
  | true => AtLoop max op t s
  | false => match path with
    | .conditionVariable => Holding max (fun _ => 0) (fun _ => True) t
        (Answered false none) none s
    | .event => Outside t s ∧ (t, .timeout) ∈ s.waits

/-- One turn of the loop, for a call that has found nothing to take. -/
lemma safe_waitTurn (op : Op T) {ms : Milliseconds} :
    (contract path max q₀).Safe (machine path max) t (waitTurn path op.signal ms)
    (Holding max (fun _ => 0) (fun q => op.RefusedAt max q.length) t
      (· = .missed op ⟨false, none⟩) none)
    (Turned path max op t) := by
  have hwoken : ∀ r (s : State T) cs, Woken op.signal r t s → Woken op.signal r t (s.enter t cs) :=
    fun _ _ _ h => h
  cases path with
  | conditionVariable =>
      apply Contract.Safe.step _ (sleep_atomic rfl)
      intro _
      apply Contract.Safe.step _ awake_atomic
      intro r
      apply Contract.Safe.step _ (enter_atomic stable_woken (hwoken r))
      intro _
      cases r with
      | timeout =>
          intro s _ h
          exact ⟨⟨⟨op, .inl h.1.seen⟩, h.1.item⟩, h.2.1, h.2.2.2 rfl⟩
      | signaled =>
          intro s _ h
          exact ⟨⟨.inr ⟨_, h.1.seen⟩, h.1.item⟩, h.2.1, h.2.2.1⟩
      | failed =>
          intro s _ h
          exact ⟨⟨.inr ⟨_, h.1.seen⟩, h.1.item⟩, h.2.1, h.2.2.1⟩
  | event =>
      apply Contract.Safe.step _ (part_atomic rfl)
      intro _
      apply Contract.Safe.step _ (beginWait_atomic rfl)
      intro begun
      apply Contract.Safe.pure
      intro hbegun
      subst hbegun
      apply Contract.Safe.step _ endWait_atomic
      intro r
      cases r with
      | timeout =>
          intro s _ h
          exact ⟨h.1.outside, h.2 rfl⟩
      | signaled =>
          apply Contract.Safe.pre _ fun s _ h => h.1
          apply Contract.Safe.step _ (enter_atomic stable_woken (hwoken _))
          intro _ s _ h
          exact ⟨⟨.inr ⟨_, h.1.seen⟩, h.1.item⟩, h.2.1, h.2.2.1⟩
      | failed =>
          apply Contract.Safe.pre _ fun s _ h => h.1
          apply Contract.Safe.step _ (enter_atomic stable_woken (hwoken _))
          intro _ s _ h
          exact ⟨⟨.inr ⟨_, h.1.seen⟩, h.1.item⟩, h.2.1, h.2.2.1⟩

lemma safe_giveUp : (contract path max q₀).Safe (machine path max) t (leaveAndReturn false)
    (Turned path max op t false) ((contract path max q₀).Exit t) := by
  cases path with
  | conditionVariable => exact safe_leaveAndReturn
  | event => exact safe_leave_timeout rfl

/-! ## The loops -/

lemma safe_pushLoop {x : T} {ms : Milliseconds} :
    (contract path max q₀).Safe (machine path max) t (pushLoop path max x ms)
      (AtLoop max (.push x) t) ((contract path max q₀).Exit t) := by
  apply Contract.Safe.step _ size_atomic
  intro n
  apply Contract.Safe.or
  · apply Contract.Safe.pure
    intro (hfull : max ≤ n)
    rw [if_pos hfull]
    apply (safe_waitTurn (.push x)).bind
    intro again
    cases again with
    | true => exact fun s _ h => h
    | false => exact safe_giveUp
  · apply Contract.Safe.pure
    intro (hroom : ¬ max ≤ n)
    rw [if_neg hroom]
    apply Contract.Safe.pre _ fun s _ h => h.mono (fun _ hx => hx) fun q (hq : q.length = n) =>
      show q.length < max by omega
    apply Contract.Safe.step _ (pushBack_atomic x)
    intro _
    apply safe_condWake.bind
    exact fun _ => safe_leaveAndReturn

lemma safe_popLoop {ms : Milliseconds} :
    (contract path max q₀).Safe (machine path max) t (popLoop path ms)
      (AtLoop max .pop t) ((contract path max q₀).Exit t) := by
  apply Contract.Safe.step _ size_atomic
  intro n
  apply Contract.Safe.or
  · apply Contract.Safe.pure
    intro (hempty : n = 0)
    rw [if_pos hempty]
    apply (safe_waitTurn .pop).bind
    intro again
    cases again with
    | true => exact fun s _ h => h
    | false => exact safe_giveUp
  · apply Contract.Safe.pure
    intro (hitem : ¬ n = 0)
    rw [if_neg hitem]
    apply Contract.Safe.step _ front_atomic
    intro x
    apply Contract.Safe.step _ (assign_atomic x)
    intro _
    apply Contract.Safe.step _ (popFront_atomic x)
    intro _
    apply safe_condWake.bind
    exact fun _ => safe_leaveAndReturn

/-- A call comes to its loop. -/
lemma safe_enterQueue {loop : Label T}
    (hloop : ∀ s, AtLoop max op t s → (contract path max q₀).Entry t loop s) :
    (contract path max q₀).Safe (machine path max) t (enterQueue op loop) (AtRest t)
      ((contract path max q₀).Exit t) := by
  apply Contract.Safe.step _ call_atomic
  intro _
  apply Contract.Safe.step _ (enter_atomic stable_away fun s cs h => h)
  intro _ s _ h
  exact hloop s ⟨⟨.inl h.1.seen, h.1.item⟩, h.2.1, h.2.2.looking _⟩

/-! ## The contract holds -/

/-- **Every function of the queue keeps the contract.** -/
theorem contract_holds : (contract path max q₀).Holds (machine path max) where
  idle_stable _ := stable_atRest
  entry_stable t l := by
    cases l with
    | tryPushBack item ms => exact stable_atRest
    | tryPopFront ms => exact stable_atRest
    | pushLoop item ms => exact stable_atLoop
    | popLoop ms => exact stable_atLoop
  died_stable _ _ _ _ _ _ h := h
  env e := nomatch e
  enter t l s s' hok h he _ := by
    cases l with
    | tryPushBack item ms =>
        cases he
        exact ⟨(move_refl hok.inv).guarantee, h⟩
    | tryPopFront ms =>
        cases he
        exact ⟨(move_refl hok.inv).guarantee, h⟩
    | pushLoop item ms => cases he
    | popLoop ms => cases he
  code t l := by
    cases l with
    | tryPushBack item ms => exact safe_enterQueue fun _ h => h
    | tryPopFront ms => exact safe_enterQueue fun _ h => h
    | pushLoop item ms => exact safe_pushLoop
    | popLoop ms => exact safe_popLoop

/-! ## Runs -/

/-- What waits have answered stays on record. -/
lemma waits_kept {a : Action T} {c : Outcome} {r : a.Res} {s s' : State T} {w : Tid × WaitResult}
    (he : exec max t a c s = some (r, s')) (hw : w ∈ s.waits) : w ∈ s'.waits := by
  cases a <;> cases c <;> simp only [exec, reduceCtorEq, Option.map_eq_some_iff] at he
  all_goals grind [State.enter, State.leave, State.release, State.giveUp]

lemma known_of_step {G G' : Config (Action T) Action.Res (State T) Tid (Label T)}
    {e : Event Tid (Label T) Outcome Empty} (he : (machine path max).step G e = some G')
    (hk : (contract path max q₀).Known G'.state) : (contract path max q₀).Known G.state := by
  intro hp t hfailed
  apply hk hp t
  rcases Machine.step_inv he with ⟨u, l, s', -, -, hs', rfl⟩ |
    ⟨u, c, a, k, r, s', -, -, hs', rfl⟩ | ⟨e, -⟩
  · cases l <;> cases hs' <;> exact hfailed
  · exact waits_kept hs' hfailed
  · exact nomatch e

lemma inv_init (h : q₀.length ≤ max) : Inv path max q₀ (State.init q₀) where
  length := h
  fifo := List.append_nil q₀
  observed := .start
  lock := .inl rfl
  covered _ := .inr (.inr (Nat.zero_le _))
  once _ := Nat.zero_le _
  unset _ _ := rfl
  conditionVariable _ _ := ⟨rfl, rfl, rfl⟩

lemma atRest_init : AtRest t (State.init q₀) := ⟨rfl, nofun, fun _ => rfl⟩

/-- **Every reachable configuration keeps the contract**, on the event path if no wait has
failed. -/
theorem reachable_good {G : Config (Action T) Action.Res (State T) Tid (Label T)}
    (h : Reachable path max q₀ G) (hq₀ : q₀.length ≤ max)
    (hk : path = .event → ∀ t, (t, .failed) ∉ G.state.waits) :
    (contract path max q₀).Good (machine path max) G :=
  contract_holds.sound_of_end (fun _ _ _ => known_of_step) h hk
    ⟨⟨fun _ _ => List.not_mem_nil, inv_init hq₀⟩, fun _ => atRest_init⟩

/-! ## Scripts -/

/-- A thread enters the code at `l` and makes `n` moves. -/
def script (t : Tid) (l : Label T) (n : ℕ) : List (Event Tid (Label T) Outcome Empty) :=
  .enter t l :: List.replicate n (.step t .ok)

/-- What a list of events leads to is reachable. -/
lemma reachable_of_run {β : Type} (es : List (Event Tid (Label T) Outcome Empty))
    (f : Config (Action T) Action.Res (State T) Tid (Label T) → β) {x : β}
    (h : ((machine path max).run ⟨fun _ => .idle, State.init q₀⟩ es).map f = some x) :
    ∃ G, Reachable path max q₀ G ∧ f G = x := by
  obtain ⟨G, hG, hx⟩ := Option.map_eq_some_iff.mp h
  exact ⟨G, ⟨es, hG⟩, hx⟩

end Alpl.Containers
