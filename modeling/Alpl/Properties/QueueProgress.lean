import Alpl.Containers.Functions
import Alpl.Interleaving.Quiescence

/-!
# A queue with condition variables does not lock up

The code of the queue goes through four phases: outside `sync_`, inside, inside with an item known
to be in the queue, and asleep.  An automaton keeps them, and shows that no thread ever comes to an
action that has no meaning: `front` of an empty deque, a lock left by a thread that does not own it.

So the owner of `sync_` can always go on, and a thread that cannot go on waits for `sync_` or
sleeps.  Together with the account of wake-ups this tells where the queue stands when nobody can go
on: `sync_` is free, consumers sleep on an empty queue, and producers on a full one.
-/

namespace Alpl.Containers

open Interleaving Typestate

variable {T : Type} {max : ℕ} {q₀ : List T}

/-! ## The phases of the code -/

inductive Phase
  | outside
  | inside
  /-- Inside, past the test that there is an item. -/
  | stocked
  | asleep (cv : Signal)
  deriving DecidableEq, Repr

/-- What a thread may do in a phase. -/
@[simp] def Phase.allows : Phase → Action T → Bool
  | .outside, .call _ => true
  | .outside, .ret _ => true
  | .outside, .enterCriticalSection => true
  | .inside, .size => true
  | .inside, .pushBack _ => true
  | .inside, .sleep _ => true
  | .inside, .wakeConditionVariable _ => true
  | .inside, .leaveCriticalSection _ => true
  | .stocked, .pushBack _ => true
  | .stocked, .front => true
  | .stocked, .assign _ => true
  | .stocked, .popFront => true
  | .stocked, .sleep _ => true
  | .stocked, .wakeConditionVariable _ => true
  | .stocked, .leaveCriticalSection _ => true
  | .asleep cv, .awake cv' _ => cv = cv'
  | _, _ => false

/-- The phase after an action. -/
@[simp] def Phase.next (q : Phase) : (a : Action T) → a.Res → Phase
  | .enterCriticalSection, _ => .inside
  | .leaveCriticalSection _, _ => .outside
  | .size, n => if n = 0 then .inside else .stocked
  | .popFront, _ => .inside
  | .sleep cv, _ => .asleep cv
  | .awake _ _, _ => .outside
  | _, _ => q

/-- The thread owns `sync_`. -/
@[simp] def Phase.isInside : Phase → Bool
  | .inside => true
  | .stocked => true
  | _ => false

/-- Where a piece of code begins. -/
def Label.phase : Label T → Phase
  | .tryPushBack _ _ => .outside
  | .tryPopFront _ => .outside
  | .pushLoop _ _ => .inside
  | .popLoop _ => .inside

/-- The automaton of the phases. -/
def phases : Typestate (Action T) Action.Res (Label T) Phase where
  allowed q a := q.allows a = true
  next := Phase.next
  entry := Label.phase

@[simp] lemma phases_allowed (q : Phase) (a : Action T) :
    phases.allowed q a ↔ q.allows a = true := Iff.rfl

@[simp] lemma phases_next (q : Phase) (a : Action T) (r : a.Res) : phases.next q a r = q.next a r :=
  rfl

@[simp] lemma phases_entry (l : Label T) : phases.entry l = l.phase := rfl

section

variable {q : Phase}

lemma follows_leaveAndReturn (hq : q.isInside = true) (ok : Bool) :
    phases.Follows (leaveAndReturn ok : P T _) q phases.Ends := by
  cases q <;> simp_all [leaveAndReturn, Typestate.Ends]

lemma follows_waitTurn (hq : q.isInside = true) (sig : Signal) (ms : Milliseconds) :
    phases.Follows (waitTurn .conditionVariable sig ms : P T Bool) q
      fun _ q' => q' = .inside := by
  have hsleep : q.allows (.sleep sig : Action T) = true := by cases q <;> simp_all
  refine .step hsleep fun _ => .step (by simp) fun r => .step (by simp) fun _ => ?_
  cases r <;> simp

lemma follows_loop (hq : q.isInside = true) (sig : Signal) (ms : Milliseconds) {loop : Label T}
    (hloop : loop.phase = .inside) :
    phases.Follows (do
      let again ← waitTurn .conditionVariable sig ms
      if again then return some loop else leaveAndReturn false) q phases.Ends := by
  refine (follows_waitTurn hq sig ms).bind fun again q' hq' => ?_
  subst hq'
  cases again with
  | true => simp [Typestate.Ends, hloop]
  | false => exact follows_leaveAndReturn rfl false

/-- All code of the queue goes through the phases. -/
lemma code_phases (l : Label T) :
    phases.Follows (code .conditionVariable max l) (phases.entry l) phases.Ends := by
  have hsize : ∀ n : ℕ, (if n = 0 then Phase.inside else .stocked).isInside = true := by
    intro n
    split <;> rfl
  cases l with
  | tryPushBack item ms => simp [code, enterQueue, Label.phase, Typestate.Ends]
  | tryPopFront ms => simp [code, enterQueue, Label.phase, Typestate.Ends]
  | pushLoop item ms =>
      refine .step rfl fun n => ?_
      split
      · exact follows_loop (hsize n) .queueIsFull ms rfl
      · have hpush : ∀ q : Phase, q.isInside = true →
            phases.Follows (do
              act (.pushBack item)
              condWake .conditionVariable .queueIsEmpty
              leaveAndReturn true) q phases.Ends := by
          intro q hq
          cases q <;> simp_all [condWake, leaveAndReturn, Typestate.Ends]
        exact hpush _ (hsize n)
  | popLoop ms =>
      refine .step rfl fun n => ?_
      split
      · exact follows_loop (hsize n) .queueIsEmpty ms rfl
      · rename_i hn
        simp [hn, condWake, leaveAndReturn, Typestate.Ends]

end

/-! ## What the phases say of the state -/

/-- What a phase of thread `t` says. -/
def Phase.At (t : Tid) (s : State T) : Phase → Prop
  | .outside => True
  | .inside => s.sync.owner = some t
  | .stocked => s.sync.owner = some t ∧ s.q ≠ []
  | .asleep cv => t ∈ s.waiting cv ∨ t ∈ s.released cv

section

variable {s s' : State T} {t u : Tid} {a : Action T} {c : Outcome} {r : a.Res} {q : Phase}

/-- The actions that enter and leave `sync_`. -/
@[simp] def Action.isLocking : Action T → Bool
  | .enterCriticalSection => true
  | .leaveCriticalSection _ => true
  | .sleep _ => true
  | _ => false

lemma sync_of_exec (ha : a.isLocking = false) (he : exec max t a c s = some (r, s')) :
    s'.sync = s.sync := by
  cases a <;> simp at ha <;> cases c <;>
    simp only [exec, reduceCtorEq] at he
  all_goals grind [State.release, State.giveUp]

lemma queue_of_exec (ha : a ≠ .popFront) (he : exec max t a c s = some (r, s')) (hq : s.q ≠ []) :
    s'.q ≠ [] := by
  cases a <;> cases c <;> simp only [exec, reduceCtorEq, Option.map_eq_some_iff] at he
  case pushBack.ok item =>
    cases he
    simp
  all_goals grind [State.enter, State.leave, State.release, State.giveUp]

lemma mem_waiting_of_sleep {cv : Signal} {r : Unit}
    (he : exec max t (.sleep cv) c s = some (r, s')) : t ∈ s'.waiting cv := by
  cases c <;> try cases he
  obtain ⟨cs, -, he⟩ := Option.map_eq_some_iff.mp he
  cases he
  simp

/-- It holds again after an action of the thread. -/
lemma Phase.at_own (ha : q.allows a = true) (he : exec max t a c s = some (r, s'))
    (hq : q.At t s) : (q.next a r).At t s' := by
  have hsync := fun h => sync_of_exec (a := a) h he
  have hqueue := fun h => queue_of_exec (a := a) h he
  cases q <;> cases a <;> simp at ha
  case outside.enterCriticalSection =>
    cases c <;> try cases he
    obtain ⟨cs, hcs, he⟩ := Option.map_eq_some_iff.mp he
    cases he
    exact CriticalSection.enter_owner hcs
  case inside.size =>
    cases c <;> first | (cases he; done) | skip
    cases he
    by_cases hn : s.q.length = 0
    · simpa [At, hn] using hq
    · simp_all [At]
  all_goals first
    | trivial
    | exact (congrArg _ (hsync rfl)).trans hq
    | exact (congrArg _ (hsync rfl)).trans hq.1
    | exact ⟨(congrArg _ (hsync rfl)).trans hq.1, hqueue (by simp) hq.2⟩
    | exact .inl (mem_waiting_of_sleep he)

lemma sync_of_owner (hI : Inv .conditionVariable max q₀ s) (h : s.sync.owner = some t) :
    s.sync = ⟨some t, 1⟩ := by
  rcases hI.lock with hfree | ⟨v, hv⟩
  · rw [hfree] at h
    cases h
  · rw [hv] at h ⊢
    cases h
    rfl

lemma listed_iff (hI : Inv .conditionVariable max q₀ s) (sig : Signal) :
    t ∈ s.waiting sig ∨ t ∈ s.released sig ↔ placed s sig t ≠ 0 := by
  rw [placed, (hI.conditionVariable rfl sig).2.1, ← List.count_pos_iff, ← List.count_pos_iff]
  simp only [List.count_nil]
  omega

/-- The others leave it as it is. -/
lemma Phase.at_others (hI : Inv .conditionVariable max q₀ s)
    (hI' : Inv .conditionVariable max q₀ s') (hR : Rely max t s s') (hq : q.At t s) :
    q.At t s' := by
  cases q with
  | outside => trivial
  | inside => exact congrArg _ (hR.inside (sync_of_owner hI hq)).1
  | stocked =>
      obtain ⟨hsync, hqueue, -⟩ := hR.inside (sync_of_owner hI hq.1)
      exact ⟨congrArg _ hsync, hqueue ▸ hq.2⟩
  | asleep cv =>
      refine (listed_iff hI' cv).mpr ?_
      rw [hR.place.placed]
      exact (listed_iff hI cv).mp hq

end

/-! ## Runs -/

variable {G : Config (Action T) Action.Res (State T) Tid (Label T)}

lemma phases_keeps (max : ℕ) (q₀ : List T) :
    phases.Keeps (machine .conditionVariable max)
      (fun G => (contract .conditionVariable max q₀).Good (machine .conditionVariable max) G)
      fun σ s => ∀ t, (σ t).At t s where
  code := code_phases
  act G t a k c r s' σ hG hx ha he hI u := by
    have hg := hG.guarantee hx he nofun
    by_cases hu : u = t
    · subst hu
      rw [Function.update_self]
      exact Phase.at_own ha he (hI u)
    · rw [Function.update_of_ne hu]
      exact Phase.at_others hG.ok.inv hg.inv (hg.rely u (by simpa using Ne.symm hu)) (hI u)
  env G e := nomatch e
  enter G t l s' σ hG hx he hI u := by
    obtain rfl : s' = G.state := by cases l <;> cases he <;> rfl
    by_cases hu : u = t
    · subst hu
      rw [Function.update_self]
      cases l <;> first | (cases he; done) | trivial
    · rw [Function.update_of_ne hu]
      exact hI u

/-- Every thread is in a phase of its code, and what the phase says holds. -/
lemma Reachable.phased (hG : Reachable .conditionVariable max q₀ G) (hq₀ : q₀.length ≤ max) :
    ∃ σ : Tid → Phase, (∀ t, phases.OnTrack (G.threads t) (σ t)) ∧ ∀ t, (σ t).At t G.state :=
  (phases_keeps max q₀).sound (fun _ hr => reachable_good hr hq₀ nofun) hG (σ := fun _ => .outside)
    (fun _ => trivial) fun _ => trivial

lemma code_begins (path : Path) (max : ℕ) (l : Label T) : ∃ a k, code path max l = .act a k := by
  cases l <;> exact ⟨_, _, rfl⟩

/-- A thread that is in the middle of a call has a next action. -/
lemma Reachable.next_of_not_atRest (hG : Reachable .conditionVariable max q₀ G)
    (hq₀ : q₀.length ≤ max) {t : Tid} (ht : ¬ AtRest t G.state) :
    ∃ a, (G.threads t).next = some a := by
  have hok := (reachable_good hG hq₀ nofun).threads t
  cases hx : G.threads t with
  | idle =>
      rw [hx] at hok
      exact absurd hok ht
  | dead =>
      rw [hx] at hok
      exact hok.elim
  | running p =>
      have hne := Machine.next_of_running (M := machine .conditionVariable max)
        (code_begins _ _) hG (fun _ _ h => by cases h) t p hx
      rw [hx] at hne
      exact Option.ne_none_iff_exists'.mp hne

/-! ## Going on -/

/-- Thread `t` can perform `a` now, and if it is a wait, it was released. -/
def Proceeds (max : ℕ) (t : Tid) (a : Action T) (s : State T) : Prop :=
  (exec max t a .ok s).isSome = true ∨ ∃ u, (exec max t a (.release u) s).isSome = true

/-- Thread `t` is about to enter `sync_`, and another thread owns it. -/
def WaitsForSync (t : Tid) (a : Action T) (s : State T) : Prop :=
  a = .enterCriticalSection ∧ ∃ v, v ≠ t ∧ s.sync.owner = some v

/-- Thread `t` sleeps. -/
def Sleeps (t : Tid) (a : Action T) (s : State T) : Prop :=
  ∃ cv ms, a = .awake cv ms ∧ t ∈ s.waiting cv

/-- An action that the phase of the thread allows can be performed, or waits. -/
lemma Phase.proceeds_or {s : State T} {t : Tid} {a : Action T} {q : Phase}
    (ha : q.allows a = true) (hq : q.At t s) :
    Proceeds max t a s ∨ WaitsForSync t a s ∨ Sleeps t a s := by
  have hleave : q.isInside = true → (s.sync.leave t).isSome = true := fun h => by
    have ho : s.sync.owner = some t := by
      cases q <;> first | exact hq | exact hq.1 | cases h
    simp [CriticalSection.leave, ho]
  cases a
  case enterCriticalSection =>
    cases ho : s.sync.owner with
    | none => exact .inl (.inl (by simp [exec, CriticalSection.enter, ho]))
    | some v =>
        by_cases hv : v = t
        · exact .inl (.inl (by simp [exec, CriticalSection.enter, ho, hv]))
        · exact .inr (.inl ⟨rfl, v, hv, ho⟩)
  case leaveCriticalSection next =>
    have := hleave (by cases q <;> first | rfl | cases ha)
    exact .inl (.inl (by simpa [exec] using this))
  case sleep cv =>
    have := hleave (by cases q <;> first | rfl | cases ha)
    exact .inl (.inl (by simpa [exec] using this))
  case front =>
    cases q <;> simp at ha
    cases hs : s.q with
    | nil => exact absurd hs hq.2
    | cons x xs => exact .inl (.inl (by simp [exec, hs]))
  case popFront =>
    cases q <;> simp at ha
    cases hs : s.q with
    | nil => exact absurd hs hq.2
    | cons x xs => exact .inl (.inl (by simp [exec, hs]))
  case wakeConditionVariable cv =>
    by_cases hw : s.waiting cv = []
    · exact .inl (.inl (by simp [exec, hw]))
    · obtain ⟨u, hu⟩ := List.exists_mem_of_ne_nil _ hw
      exact .inl (.inr ⟨u, by simp [exec, hu]⟩)
  case awake cv ms =>
    cases q <;> simp at ha
    subst ha
    rcases hq with hw | hr
    · exact .inr (.inr ⟨_, ms, rfl, hw⟩)
    · exact .inl (.inl (by simp [exec, hr]))
  all_goals first
    | exact .inl (.inl rfl)
    | (cases q <;> cases ha)

/-- Nobody can go on, because there is nothing to do. -/
structure Quiet (max : ℕ) (G : Config (Action T) Action.Res (State T) Tid (Label T)) : Prop where
  free : G.state.sync = CriticalSection.free
  asleep : ∀ t a, (G.threads t).next = some a → Sleeps t a G.state
  /-- Consumers sleep on an empty queue. -/
  empty : G.state.waiting .queueIsEmpty ≠ [] → G.state.q = []
  /-- Producers sleep on a full queue. -/
  full : G.state.waiting .queueIsFull ≠ [] → G.state.q.length = max

/-- What can keep the threads of a queue from going on. -/
structure DeadlockFree (max : ℕ)
    (G : Config (Action T) Action.Res (State T) Tid (Label T)) : Prop where
  /-- The owner of `sync_` can go on. -/
  owner : ∀ t, G.state.sync.owner = some t →
    ∃ a, (G.threads t).next = some a ∧ Proceeds max t a G.state
  quiet : (∀ t a, (G.threads t).next = some a → ¬ Proceeds max t a G.state) → Quiet max G

section

variable (hG : Reachable .conditionVariable max q₀ G) (hq₀ : q₀.length ≤ max)
include hG hq₀

lemma Reachable.proceeds_or {t : Tid} {a : Action T} (ha : (G.threads t).next = some a) :
    Proceeds max t a G.state ∨ WaitsForSync t a G.state ∨ Sleeps t a G.state := by
  obtain ⟨σ, hσ, hat⟩ := hG.phased hq₀
  obtain ⟨k, hk⟩ := Control.eq_of_next ha
  have htrack := hσ t
  rw [hk] at htrack
  exact Phase.proceeds_or htrack.1 (hat t)

lemma Reachable.owner_proceeds {t : Tid} (ht : G.state.sync.owner = some t) :
    ∃ a, (G.threads t).next = some a ∧ Proceeds max t a G.state := by
  obtain ⟨a, ha⟩ := hG.next_of_not_atRest hq₀ fun hrest => hrest.outside ht
  refine ⟨a, ha, ?_⟩
  have hinside : a.isInside = true := by
    rcases (reachable_good hG hq₀ nofun).allowed_next ha with h | ⟨rfl, -⟩
    · by_contra hnot
      rw [if_neg hnot] at h
      exact h ht
    · rfl
  rcases hG.proceeds_or hq₀ ha with h | ⟨rfl, -⟩ | ⟨cv, ms, rfl, -⟩
  · exact h
  · cases hinside
  · cases hinside

/-- Where everybody waits, what they wait for is not there. -/
lemma Reachable.supply_eq_zero (hfree : G.state.sync.owner = none)
    (hasleep : ∀ t a, (G.threads t).next = some a → Sleeps t a G.state) {sig : Signal}
    (hw : G.state.waiting sig ≠ []) : supply max G.state sig = 0 := by
  have hI := (reachable_good hG hq₀ nofun).ok.inv
  obtain ⟨hset, -, hmerged⟩ := hI.conditionVariable rfl sig
  have hreleased : G.state.released sig = [] := by
    refine List.eq_nil_iff_forall_not_mem.mpr fun t ht => ?_
    have hcount := List.count_pos_iff.mpr ht
    have hplaced : placed G.state sig t ≠ 0 := (listed_iff hI sig).mp (.inr ht)
    obtain ⟨a, ha⟩ := hG.next_of_not_atRest hq₀ fun hrest => hplaced (hrest.away sig)
    obtain ⟨cv, -, -, hcv⟩ := hasleep t a ha
    have hcount' := List.count_pos_iff.mpr hcv
    -- released and asleep
    have honce := hI.once t
    cases sig <;> cases cv <;> simp only [placed] at honce <;> omega
  have hcovered := hI.covered sig
  have hlength := List.length_pos_iff.mpr hw
  have htoken : token G.state sig = 0 := by simp [token, hset]
  simp only [Covered, if_pos hfree, hreleased, hmerged, htoken, List.length_nil] at hcovered
  rcases hcovered with h | h | h
  · cases h
  · exact Nat.le_zero.mp h
  · omega

lemma Reachable.deadlockFree : DeadlockFree max G := by
  refine ⟨fun t => hG.owner_proceeds hq₀, fun hnone => ?_⟩
  have hI := (reachable_good hG hq₀ nofun).ok.inv
  have howner : G.state.sync.owner = none := by
    cases ho : G.state.sync.owner with
    | none => rfl
    | some t =>
        obtain ⟨a, ha, hproceeds⟩ := hG.owner_proceeds hq₀ ho
        exact absurd hproceeds (hnone t a ha)
  have hasleep : ∀ t a, (G.threads t).next = some a → Sleeps t a G.state := fun t a ha => by
    rcases hG.proceeds_or hq₀ ha with h | ⟨-, v, -, hv⟩ | h
    · exact absurd h (hnone t a ha)
    · rw [howner] at hv
      cases hv
    · exact h
  refine ⟨?_, hasleep, fun hw => ?_, fun hw => ?_⟩
  · rcases hI.lock with h | ⟨t, ht⟩
    · exact h
    · rw [ht] at howner
      cases howner
  · exact List.length_eq_zero_iff.mp (hG.supply_eq_zero hq₀ howner hasleep hw)
  · have hzero : max - G.state.q.length = 0 := hG.supply_eq_zero hq₀ howner hasleep hw
    have hlength := hI.length
    omega

/-- **A queue with condition variables does not lock up.** -/
theorem queue_no_deadlock : DeadlockFree max G := hG.deadlockFree hq₀

end

/-- Two consumers of an empty queue sleep. -/
theorem queue_no_deadlock_empty : ∃ G, Reachable .conditionVariable 2 ([] : List ℕ) G ∧
    G.state.waiting .queueIsEmpty = [1, 0] ∧ DeadlockFree 2 G := by
  obtain ⟨G, hG, hx⟩ : ∃ G, Reachable .conditionVariable 2 ([] : List ℕ) G ∧
      G.state.waiting .queueIsEmpty = [1, 0] :=
    reachable_of_run (script 0 (.tryPopFront infinite) 4 ++ script 1 (.tryPopFront 5) 4)
      (fun G => G.state.waiting .queueIsEmpty) rfl
  exact ⟨G, hG, hx, queue_no_deadlock hG (by decide)⟩

end Alpl.Containers
