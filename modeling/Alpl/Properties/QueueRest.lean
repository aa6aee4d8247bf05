import Alpl.Properties.QueueProgress
import Mathlib.Algebra.Order.BigOperators.Group.Finset

/-!
# A queue comes to rest

A call of the queue that is never kept waiting is over after at most `callCost` actions, and each
time it sleeps in vain costs it one more turn of its loop.  Such a turn is paid by whoever woke the
sleeper: a call wakes at most one, and can put a turn aside for it.  A wake-up that comes from
nowhere is paid by nobody, so each of them makes a run longer by one turn.

So, if nobody calls and nobody wakes up spuriously, the threads of a queue come to rest, and where
they stand then is known: consumers sleep on an empty queue, and producers on a full one.
-/

namespace Alpl.Containers

open Interleaving Typestate

variable {T : Type} {max : ℕ} {q₀ : List T}

/-! ## Accounts -/

/-- A turn of the loop: to wake up, enter `sync_`, look at the queue, and fall asleep. -/
def turnCost : ℕ := 4

/-- What a call costs that finds what it is looking for, with the turn it puts aside for the thread
it wakes. -/
def callCost : ℕ := 13

/-- What a thread has for the rest of its call.  Asleep it has what it takes to end the call. -/
inductive Purse
  | up (n : ℕ)
  | asleep (cv : Signal)
  deriving DecidableEq, Repr

@[simp] def Purse.allows : Purse → Action T → Bool
  | .up n, .sleep _ => 10 ≤ n
  | .up n, .wakeConditionVariable _ => 5 ≤ n
  | .up _, .awake _ _ => false
  | .up _, .beginWait _ => false
  | .up _, .endWait _ _ => false
  | .up _, .setEvent _ => false
  | .up n, _ => 1 ≤ n
  | .asleep cv, .awake cv' _ => cv = cv'
  | .asleep _, _ => false

@[simp] def Purse.next : Purse → (a : Action T) → a.Res → Purse
  | .up _, .sleep cv, _ => .asleep cv
  | .up n, .wakeConditionVariable _, _ => .up (n - 5)
  | .up n, _, _ => .up (n - 1)
  | .asleep _, .awake _ _, r => if r = .timeout then .up 8 else .up 12
  | .asleep cv, _, _ => .asleep cv

/-- What a thread begins a piece of code with. -/
def Label.purse : Label T → Purse
  | .tryPushBack _ _ => .up 13
  | .tryPopFront _ => .up 13
  | .pushLoop _ _ => .up 11
  | .popLoop _ => .up 11

/-- The automaton of the accounts. -/
def purses : Typestate (Action T) Action.Res (Label T) Purse where
  allowed q a := q.allows a = true
  next := Purse.next
  entry := Label.purse

@[simp] lemma purses_allowed (q : Purse) (a : Action T) :
    purses.allowed q a ↔ q.allows a = true := Iff.rfl

@[simp] lemma purses_next (q : Purse) (a : Action T) (r : a.Res) : purses.next q a r = q.next a r :=
  rfl

lemma pays_loop (sig : Signal) (ms : Milliseconds) {loop : Label T} (hloop : loop.purse = .up 11) :
    purses.Follows (do
      let again ← waitTurn .conditionVariable sig ms
      if again then return some loop else leaveAndReturn false) (.up 10) purses.Ends := by
  refine .step rfl fun _ => .step (by simp) fun r => .step ?_ fun _ => ?_
  · by_cases hr : r = .timeout <;> simp [hr]
  · cases r with
    | signaled => exact hloop.symm
    | failed => exact hloop.symm
    | timeout => exact ⟨rfl, fun _ => ⟨rfl, fun _ => trivial⟩⟩

/-- All code of the queue pays for itself. -/
lemma code_pays (l : Label T) :
    purses.Follows (code .conditionVariable max l) (purses.entry l) purses.Ends := by
  cases l with
  | tryPushBack item ms => exact ⟨rfl, fun _ => ⟨rfl, fun _ => rfl⟩⟩
  | tryPopFront ms => exact ⟨rfl, fun _ => ⟨rfl, fun _ => rfl⟩⟩
  | pushLoop item ms =>
      refine .step rfl fun n => ?_
      split
      · exact pays_loop .queueIsFull ms rfl
      · exact ⟨rfl, fun _ => ⟨rfl, fun _ => ⟨rfl, fun _ => ⟨rfl, fun _ => trivial⟩⟩⟩⟩
  | popLoop ms =>
      refine .step rfl fun n => ?_
      split
      · exact pays_loop .queueIsEmpty ms rfl
      · exact ⟨rfl, fun _ => ⟨rfl, fun _ => ⟨rfl, fun _ => ⟨rfl, fun _ => ⟨rfl, fun _ =>
          ⟨rfl, fun _ => trivial⟩⟩⟩⟩⟩⟩

/-! ## What a thread has -/

/-- The account of thread `t`; a sleeper that was woken has the turn that was put aside for it. -/
def Purse.worth (s : State T) (t : Tid) : Purse → ℕ
  | .up n => n
  | .asleep cv => 9 + if t ∈ s.released cv then turnCost else 0

/-- What a wake-up from nowhere brings in. -/
def Outcome.gift : Outcome → ℕ
  | .spurious => turnCost
  | .failed => turnCost
  | _ => 0

/-- What a signal puts aside for the thread it wakes. -/
def Outcome.price : Outcome → ℕ
  | .release _ => turnCost
  | _ => 0

section

variable {s s' : State T} {t u : Tid} {a : Action T} {c : Outcome} {r : a.Res} {q : Purse}

/-- The actions that move threads into the list of the released or out of it. -/
@[simp] def Action.isReleasing : Action T → Bool
  | .size => true
  | .wakeConditionVariable _ => true
  | .beginWait _ => true
  | .setEvent _ => true
  | _ => false

lemma released_of_exec (ha : a.isReleasing = false) (he : exec max t a c s = some (r, s')) :
    s'.released = s.released := by
  cases a <;> simp at ha <;> cases c <;>
    simp only [exec, reduceCtorEq, Option.map_eq_some_iff] at he
  all_goals grind [State.enter, State.leave, State.giveUp]

/-- Only a signal releases another thread. -/
lemma released_of_others (ha : q.allows a = true) (hc : c ≠ .release u)
    (he : exec max t a c s = some (r, s')) {cv : Signal} (h : u ∈ s'.released cv) :
    u ∈ s.released cv := by
  by_cases hr : a.isReleasing = false
  · rwa [released_of_exec hr he] at h
  cases a <;> simp at hr
  case size =>
    cases c <;> cases he
    exact List.mem_of_mem_erase h
  case wakeConditionVariable sig =>
    cases c <;> simp [exec] at he
    case ok => rwa [← he.2] at h
    case release v =>
      rw [← he.2] at h
      by_cases hcv : cv = sig
      · simp [State.release, hcv] at h ⊢
        exact h.resolve_left fun hv => hc (by rw [hv])
      · simpa [State.release, hcv] using h
  all_goals cases q <;> cases ha

/-- What another thread has grows only by being woken. -/
lemma worth_of_others (ha : q.allows a = true) (he : exec max t a c s = some (r, s'))
    (q' : Purse) :
    q'.worth s' u ≤ q'.worth s u + if c = .release u then turnCost else 0 := by
  cases q' with
  | up n => exact Nat.le_add_right _ _
  | asleep cv =>
      have hreleased (hc : c ≠ .release u) (h : u ∈ s'.released cv) : u ∈ s.released cv :=
        released_of_others ha hc he h
      simp only [Purse.worth]
      split <;> split <;> split <;> first | omega | exact absurd (hreleased ‹_› ‹_›) ‹_›

lemma not_released_of_asleep {cv : Signal} (h : t ∈ s.waiting cv)
    (honce : placed s .queueIsFull t + placed s .queueIsEmpty t ≤ 1) : t ∉ s.released cv := by
  intro hr
  have hw := List.count_pos_iff.mpr h
  have hr' := List.count_pos_iff.mpr hr
  cases cv <;> simp only [placed] at honce <;> omega

/-- A thread pays for its action, and for the thread that it wakes. -/
lemma worth_of_own (ha : q.allows a = true) (he : exec max t a c s = some (r, s'))
    (honce : placed s' .queueIsFull t + placed s' .queueIsEmpty t ≤ 1) :
    (q.next a r).worth s' t + 1 + c.price ≤ q.worth s t + c.gift := by
  have hprice : (∀ sig, a ≠ .wakeConditionVariable sig) → (∀ sig, a ≠ .setEvent sig) →
      c.price = 0 := by
    intro hwake hset
    cases c <;> first | rfl | skip
    cases a <;> first
      | cases he
      | exact absurd rfl (hwake _)
      | exact absurd rfl (hset _)
  cases q with
  | up n =>
      cases a <;> simp at ha
      case sleep cv =>
        have hnot := not_released_of_asleep (mem_waiting_of_sleep he) honce
        simp [Purse.worth, hnot, hprice]
        omega
      case wakeConditionVariable sig =>
        have hle : c.price ≤ 4 := by cases c <;> simp [Outcome.price, turnCost]
        simp [Purse.worth]
        omega
      all_goals
        simp [Purse.worth, hprice]
        omega
  | asleep cv =>
      cases a <;> simp at ha
      subst ha
      cases c <;> simp [exec] at he
      case ok =>
        obtain ⟨hr, rfl, rfl⟩ := he
        simp [Purse.worth, hr, turnCost, Outcome.price]
      case spurious =>
        obtain ⟨-, rfl, -⟩ := he
        simp [Purse.worth, Outcome.gift, turnCost, Outcome.price]
      case timeout =>
        obtain ⟨-, rfl, -⟩ := he
        simp [Purse.worth, Outcome.price]
        omega
      case failed =>
        obtain ⟨-, rfl, -⟩ := he
        simp [Purse.worth, Outcome.gift, turnCost, Outcome.price]

/-- A signal wakes one thread. -/
lemma sum_price_le (F : Finset Tid) (c : Outcome) :
    ∑ u ∈ F, (if c = .release u then turnCost else 0) ≤ c.price := by
  cases c <;> simp [Outcome.price]
  case release v => split <;> simp

/-- The fund of the threads in `F`. -/
def fund (F : Finset Tid) (σ : Tid → Purse) (s : State T) : ℕ := ∑ t ∈ F, (σ t).worth s t

end

lemma purses_amortised (max : ℕ) (q₀ : List T) (F : Finset Tid) :
    purses.Amortised (machine .conditionVariable max)
      (fun G => (contract .conditionVariable max q₀).Good (machine .conditionVariable max) G) F
      Outcome.gift (fund F) where
  code := code_pays
  act G t a k c r s' σ hG hG' ht hx ha he := by
    have hown := worth_of_own ha he (hG'.ok.inv.once t)
    have hothers : ∑ u ∈ F.erase t, (Function.update σ t ((σ t).next a r) u).worth s' u ≤
        ∑ u ∈ F.erase t, (σ u).worth G.state u + c.price := by
      calc ∑ u ∈ F.erase t, (Function.update σ t ((σ t).next a r) u).worth s' u
          ≤ ∑ u ∈ F.erase t, ((σ u).worth G.state u +
              if c = .release u then turnCost else 0) := by
            refine Finset.sum_le_sum fun u hu => ?_
            rw [Function.update_of_ne (Finset.ne_of_mem_erase hu)]
            exact worth_of_others ha he (σ u)
        _ ≤ ∑ u ∈ F.erase t, (σ u).worth G.state u + c.price := by
            rw [Finset.sum_add_distrib]
            exact Nat.add_le_add_left (sum_price_le _ c) _
    have hsum := Finset.add_sum_erase F (fun u => (σ u).worth G.state u) ht
    have hsum' := Finset.add_sum_erase F
      (fun u => (Function.update σ t ((σ t).next a r) u).worth s' u) ht
    simp only [Function.update_self] at hsum'
    simp only [fund, purses_next]
    omega

/-! ## Runs -/

variable {G : Config (Action T) Action.Res (State T) Tid (Label T)}

/-- No account is larger than that of a call. -/
lemma worth_le {q : Purse} (hq : ∀ n, q = .up n → n ≤ callCost) (s : State T) (t : Tid) :
    q.worth s t ≤ callCost := by
  cases q with
  | up n => exact hq n rfl
  | asleep cv =>
      simp only [Purse.worth, turnCost, callCost]
      split <;> omega

lemma next_le {q : Purse} {a : Action T} {r : a.Res} {n : ℕ} (hq : ∀ n, q = .up n → n ≤ callCost)
    (ha : q.allows a = true) (hn : q.next a r = .up n) : n ≤ callCost := by
  cases q with
  | up m =>
      have hm := hq m rfl
      cases a <;> simp at hn <;> omega
  | asleep cv =>
      cases a <;> simp at ha
      rw [Purse.next] at hn
      split at hn <;> cases hn <;> decide

lemma purses_keeps (max : ℕ) :
    purses.Keeps (machine .conditionVariable max) (fun _ => True)
      fun σ (_ : State T) => ∀ t n, σ t = .up n → n ≤ callCost where
  code := code_pays
  act G t a k c r s' σ _ hx ha he hI u n hn := by
    by_cases hu : u = t
    · subst hu
      rw [Function.update_self] at hn
      exact next_le (hI u) ha hn
    · rw [Function.update_of_ne hu] at hn
      exact hI u n hn
  env G e := nomatch e
  enter G t l s' σ _ hx he hI u n hn := by
    by_cases hu : u = t
    · subst hu
      rw [Function.update_self] at hn
      cases l <;> cases hn <;> decide
    · rw [Function.update_of_ne hu] at hn
      exact hI u n hn

/-- A wake-up from nowhere. -/
def isSpontaneous : Event Tid (Label T) Outcome Empty → Bool
  | .step _ .spurious => true
  | .step _ .failed => true
  | _ => false

lemma sum_gift (es : List (Event Tid (Label T) Outcome Empty)) :
    (es.map (Event.gift Outcome.gift)).sum = turnCost * es.countP isSpontaneous := by
  induction es with
  | nil => rfl
  | cons e es ih =>
      have he : Event.gift Outcome.gift e = if isSpontaneous e then turnCost else 0 := by
        cases e with
        | step t c => cases c <;> rfl
        | enter t l => rfl
        | env v => cases v
      rw [List.map_cons, List.sum_cons, List.countP_cons, ih, he, Nat.mul_add]
      split <;> omega

lemma Reachable.running (hG : Reachable .conditionVariable max q₀ G) :
    ∃ F : Finset Tid, ∀ t, t ∈ F ↔ (G.threads t).isRunning = true :=
  Machine.exists_running (code_begins _ _) hG (fun _ _ h => by cases h) ∅
    fun _ h => absurd rfl h

lemma Reachable.bounded (hG : Reachable .conditionVariable max q₀ G) (hq₀ : q₀.length ≤ max) :
    ∃ F : Finset Tid, (∀ t, t ∈ F ↔ (G.threads t).isRunning = true) ∧
      ∀ es G', (∀ e ∈ es, e.isStep = true) →
        (machine .conditionVariable max).run G es = some G' →
        es.length ≤ F.card * callCost + turnCost * es.countP isSpontaneous := by
  obtain ⟨F, hF⟩ := hG.running
  refine ⟨F, hF, fun es G' hes hrun => ?_⟩
  obtain ⟨σ, hσ, hle⟩ := (purses_keeps max).sound (fun _ _ => trivial) hG
    (σ := fun _ => .up 0) (fun _ => trivial) fun _ n hn => by cases hn; exact Nat.zero_le _
  calc es.length
      ≤ fund F σ G.state + (es.map (Event.gift Outcome.gift)).sum :=
        (purses_amortised max q₀ F).length_le
          (fun _ hr => reachable_good (hG.trans hr) hq₀ nofun) (Config.runsIn_of_running hF) hσ hes
          hrun
    _ ≤ F.card * callCost + turnCost * es.countP isSpontaneous := by
        rw [sum_gift]
        exact Nat.add_le_add_right
          (Finset.sum_le_card_nsmul F _ _ fun t _ => worth_le (hle t) _ t) _

/-- **A queue comes to rest.**  If nobody calls, the threads in the middle of a call have a bounded
number of steps left, and one more turn of the loop for each wake-up that comes from nowhere. -/
theorem queue_comes_to_rest (hG : Reachable .conditionVariable max q₀ G)
    (hq₀ : q₀.length ≤ max) : ∃ F : Finset Tid, (∀ t, t ∈ F ↔ (G.threads t).isRunning = true) ∧
      ∀ es G', (∀ e ∈ es, e.isStep = true) →
        (machine .conditionVariable max).run G es = some G' →
        es.length ≤ F.card * callCost + turnCost * es.countP isSpontaneous :=
  hG.bounded hq₀

/-- A consumer sleeps, and a producer is about to wake it. -/
lemma exists_waking : ∃ G, Reachable .conditionVariable 2 ([] : List ℕ) G ∧
    (G.state.waiting .queueIsEmpty, G.state.q) = ([0], [7]) :=
  reachable_of_run (script 0 (.tryPopFront infinite) 4 ++ script 2 (.tryPushBack 7 0) 4)
    (fun G => (G.state.waiting .queueIsEmpty, G.state.q)) rfl

theorem queue_comes_to_rest_waking : ∃ G, Reachable .conditionVariable 2 ([] : List ℕ) G ∧
    G.state.q = [7] ∧ ∃ F : Finset Tid, (∀ t, t ∈ F ↔ (G.threads t).isRunning = true) ∧
      ∀ es G', (∀ e ∈ es, e.isStep = true) → (machine .conditionVariable 2).run G es = some G' →
        es.length ≤ F.card * callCost + turnCost * es.countP isSpontaneous := by
  obtain ⟨G, hG, hx⟩ := exists_waking
  exact ⟨G, hG, congrArg Prod.snd hx, queue_comes_to_rest hG (by decide)⟩

/-! ## Where the runs end -/

/-- A thread goes on by itself: it is not woken from nowhere, and its wait does not time out. -/
def isOwn : Event Tid (Label T) Outcome Empty → Bool
  | .step _ .ok => true
  | .step _ (.release _) => true
  | _ => false

lemma isStep_of_isOwn {e : Event Tid (Label T) Outcome Empty} (h : isOwn e = true) :
    e.isStep = true ∧ isSpontaneous e = false := by
  cases e with
  | step t c => cases c <;> first | exact ⟨rfl, rfl⟩ | cases h
  | enter t l => cases h
  | env v => cases h

/-- A thread that proceeds makes a run longer. -/
lemma exists_own_step {t : Tid} {a : Action T} (ha : (G.threads t).next = some a)
    (hp : Proceeds max t a G.state) :
    ∃ e G', isOwn e = true ∧ (machine .conditionVariable max).step G e = some G' := by
  obtain ⟨k, hk⟩ := Control.eq_of_next ha
  rcases hp with h | ⟨u, h⟩
  · obtain ⟨⟨r, s'⟩, hs'⟩ := Option.isSome_iff_exists.mp h
    exact ⟨.step t .ok, _, rfl, Machine.step_act hk hs'⟩
  · obtain ⟨⟨r, s'⟩, hs'⟩ := Option.isSome_iff_exists.mp h
    exact ⟨.step t (.release u), _, rfl, Machine.step_act hk hs'⟩

/-- **From every state a queue can come to rest**: its threads go on by themselves until `sync_` is
free, consumers sleep on an empty queue only, and producers on a full one. -/
theorem queue_rest_reached (hG : Reachable .conditionVariable max q₀ G)
    (hq₀ : q₀.length ≤ max) : ∃ es G', (∀ e ∈ es, isOwn e = true) ∧
      (machine .conditionVariable max).run G es = some G' ∧ Quiet max G' := by
  obtain ⟨F, -, hbound⟩ := hG.bounded hq₀
  have hbound' : ∀ es G', (∀ e ∈ es, isOwn e = true) →
      (machine .conditionVariable max).run G es = some G' → es.length ≤ F.card * callCost := by
    intro es G' hes hrun
    have hle := hbound es G' (fun e he => (isStep_of_isOwn (hes e he)).1) hrun
    have hnone : es.countP isSpontaneous = 0 :=
      List.countP_eq_zero.mpr fun e he => by simp [(isStep_of_isOwn (hes e he)).2]
    simpa [hnone] using hle
  refine Machine.exists_run_of_bounded hbound' fun es G' _ hrun => ?_
  have hG' : Reachable .conditionVariable max q₀ G' := hG.trans ⟨es, hrun⟩
  by_cases hnone : ∀ t a, (G'.threads t).next = some a → ¬ Proceeds max t a G'.state
  · exact .inl ((hG'.deadlockFree hq₀).quiet hnone)
  · simp only [not_forall, not_not] at hnone
    obtain ⟨t, a, ha, hp⟩ := hnone
    exact .inr (exists_own_step ha hp)

/-- The producer wakes the consumer, which takes the item. -/
theorem queue_rest_reached_waking : ∃ (G G' : Config (Action ℕ) Action.Res (State ℕ) Tid (Label ℕ))
    (es : List (Event Tid (Label ℕ) Outcome Empty)),
    Reachable .conditionVariable 2 [] G ∧ G.state.q = [7] ∧ (∀ e ∈ es, isOwn e = true) ∧
      (machine .conditionVariable 2).run G es = some G' ∧ Quiet 2 G' := by
  obtain ⟨G, hG, hx⟩ := exists_waking
  obtain ⟨es, G', hes, hrun, hquiet⟩ := queue_rest_reached hG (by decide)
  exact ⟨G, G', es, hG, congrArg Prod.snd hx, hes, hrun, hquiet⟩

end Alpl.Containers
