import Alpl.Containers.BlockingQueue
import Alpl.Interleaving.RelyGuarantee

/-!
# The contract of a blocking queue

One contract serves both versions of the queue.  Its core is an account of wake-ups
(`Covered`): as long as threads wait for a signal, or are about to, what they wait for is matched
by threads that were released and by an event that is set.  The thread inside `sync_` may owe one
release, for the item it has just pushed or the slot it has just freed.

On the event path the account breaks when a `SetEvent` meets an event that is set while two threads
are about to wait for it; `State.merged` keeps that, and the account is only claimed without it.  A
wait that fails breaks the lock, so the contract takes as known that none has.
-/

namespace Alpl.Containers

open Interleaving

variable {T : Type}

/-! ## The account of wake-ups -/

/-- What the threads that wait for a signal could take: items, or free slots. -/
def supply (max : ℕ) (s : State T) : Signal → ℕ
  | .queueIsEmpty => s.q.length
  | .queueIsFull => max - s.q.length

/-- The release that an event that is set stands for. -/
def token (s : State T) (sig : Signal) : ℕ := if s.isSet sig then 1 else 0

/-- Everything that the threads waiting for `sig` could take, but for `n`, is matched by a release;
or nobody needs one. -/
def Covered (max n : ℕ) (s : State T) (sig : Signal) : Prop :=
  s.merged sig = true ∨ supply max s sig ≤ token s sig + (s.released sig).length + n ∨
    (s.waiting sig).length + (s.leaving sig).length ≤ token s sig

lemma Covered.mono {max m n : ℕ} {s : State T} {sig : Signal} (h : Covered max m s sig)
    (hmn : m ≤ n) : Covered max n s sig := by
  rcases h with h | h | h
  · exact .inl h
  · exact .inr (.inl (by omega))
  · exact .inr (.inr h)

/-- How often thread `t` is in the lists of a signal. -/
def placed (s : State T) (sig : Signal) (t : Tid) : ℕ :=
  (s.waiting sig).count t + (s.released sig).count t + (s.leaving sig).count t

/-- The signal that a refused call waits for. -/
def Op.signal : Op T → Signal
  | .push _ => .queueIsFull
  | .pop => .queueIsEmpty

/-- One release of `sig` is due. -/
def due (sig : Signal) : Signal → ℕ := fun sig' => if sig' = sig then 1 else 0

/-! ## The contract -/

/-- The invariant of a queue that held `q₀` when it was first used. -/
structure Inv (path : Path) (max : ℕ) (q₀ : List T) (s : State T) : Prop where
  length : s.q.length ≤ max
  fifo : q₀ ++ s.pushed = s.popped ++ s.q
  observed : Observed (boundedQueue max) q₀ s.history s.q s.seen
  lock : s.sync = CriticalSection.free ∨ ∃ t, s.sync = ⟨some t, 1⟩
  covered : ∀ sig, Covered max (if s.sync.owner = none then 0 else 1) s sig
  once : ∀ t, placed s .queueIsFull t + placed s .queueIsEmpty t ≤ 1
  unset : ∀ sig, s.waiting sig ≠ [] → s.isSet sig = false
  conditionVariable : path = .conditionVariable → ∀ sig, s.isSet sig = false ∧
    s.leaving sig = [] ∧ s.merged sig = false

/-- The others do not move thread `t` between the lists, but for a release. -/
structure KeepsPlace (t : Tid) (s s' : State T) : Prop where
  placed : ∀ sig, placed s' sig t = placed s sig t
  waiting : ∀ sig, (s'.waiting sig).count t ≤ (s.waiting sig).count t
  leaving : ∀ sig, (s'.leaving sig).count t = (s.leaving sig).count t

/-- What the others may do while `t` runs. -/
structure Rely (max : ℕ) (t : Tid) (s s' : State T) : Prop where
  seen : s'.seen t = s.seen t
  item : s'.item t = s.item t
  waits : ∀ r, (t, r) ∈ s.waits → (t, r) ∈ s'.waits
  outside : s.sync.owner ≠ some t → s'.sync.owner ≠ some t
  inside : s.sync = ⟨some t, 1⟩ → s'.sync = ⟨some t, 1⟩ ∧ s'.q = s.q ∧
    ∀ n sig, Covered max n s sig → Covered max n s' sig
  place : KeepsPlace t s s'

/-- An action that only the owner of `sync_` may perform. -/
def Action.isInside : Action T → Bool
  | .size | .pushBack _ | .front | .popFront | .assign _ => true
  | .sleep _ | .wakeConditionVariable _ | .setEvent _ | .leaveCriticalSection _ => true
  | _ => false

/-- The releases that are due while a thread is about to perform an action. -/
def Action.debt : Action T → Signal → ℕ
  | .pushBack _ => due .queueIsFull
  | .front | .assign _ | .popFront => due .queueIsEmpty
  | .wakeConditionVariable sig | .setEvent sig => due sig
  | _ => fun _ => 0

/-- Inside `sync_` everything is done by its owner, outside by the others.  A thread whose wait for
an event has timed out is the exception: it leaves a section that it has left before. -/
def Allowed (path : Path) (max : ℕ) (t : Tid) (a : Action T) (s : State T) : Prop :=
  (if a.isInside then s.sync.owner = some t ∧ ∀ sig, Covered max (a.debt sig) s sig
    else s.sync.owner ≠ some t) ∨
  a = .leaveCriticalSection none ∧ path = .event ∧ (t, .timeout) ∈ s.waits ∧
    s.sync.owner ≠ some t

/-! ### What a thread knows -/

/-- Where the call of thread `t` stands, and its argument `item`. -/
structure Mine (t : Tid) (φ : Seen (Op T) (Answer T) → Prop) (i : Option T) (s : State T) :
    Prop where
  seen : φ (s.seen t)
  item : s.item t = i

/-- Thread `t` is inside `sync_`, with these releases due, and has seen this of the queue. -/
structure Inside (max : ℕ) (n : Signal → ℕ) (ψ : List T → Prop) (t : Tid) (s : State T) : Prop where
  own : s.sync = ⟨some t, 1⟩
  covered : ∀ sig, Covered max (n sig) s sig
  queue : ψ s.q

def Outside (t : Tid) (s : State T) : Prop := s.sync.owner ≠ some t

/-- Thread `t` is in no list. -/
def Away (t : Tid) (s : State T) : Prop := ∀ sig, placed s sig t = 0

/-- Thread `t` is in no list, but perhaps among those that `sig` has released. -/
def Looking (sig : Signal) (t : Tid) (s : State T) : Prop :=
  (∀ sig', (s.waiting sig').count t = 0 ∧ (s.leaving sig').count t = 0) ∧
    ∀ sig', sig' ≠ sig → placed s sig' t = 0

/-- Thread `t` is at the `while` of its call. -/
structure AtLoop (max : ℕ) (op : Op T) (t : Tid) (s : State T) : Prop where
  mine : Mine t (Seen.Calling op) none s
  inside : Inside max (fun _ => 0) (fun _ => True) t s
  looking : Looking op.signal t s

/-- Thread `t` is in no call. -/
structure AtRest (t : Tid) (s : State T) : Prop where
  idle : s.seen t = .idle
  outside : Outside t s
  away : Away t s

/-- The assertions of the contract. -/
def contract (path : Path) (max : ℕ) (q₀ : List T) :
    Contract (State T) Tid (Label T) (Action T) where
  Known s := path = .event → ∀ t, (t, .failed) ∉ s.waits
  Inv := Inv path max q₀
  Rely := Rely max
  Guar _ _ _ := True
  Allowed := Allowed path max
  Idle := AtRest
  Entry t l s := match l with
    | .tryPushBack _ _ => AtRest t s
    | .tryPopFront _ => AtRest t s
    | .pushLoop item _ => AtLoop max (.push item) t s
    | .popLoop _ => AtLoop max .pop t s
  Died _ _ := False

/-! ## What a thread knows, it goes on knowing -/

variable {path : Path} {max : ℕ} {q₀ : List T} {t u : Tid} {s s' : State T} {sig : Signal}
variable {op : Op T} {φ : Seen (Op T) (Answer T) → Prop} {i : Option T} {n : Signal → ℕ}
variable {ψ : List T → Prop}

lemma KeepsPlace.of_eq (hw : s'.waiting = s.waiting) (hr : s'.released = s.released)
    (hl : s'.leaving = s.leaving) : KeepsPlace t s s' := by
  constructor <;> intro sig <;> simp [Containers.placed, hw, hr, hl]

lemma stable_mine : (contract path max q₀).Stable t (Mine t φ i) := fun _ _ _ _ hR h =>
  ⟨hR.seen ▸ h.seen, hR.item.trans h.item⟩

lemma stable_inside : (contract path max q₀).Stable t (Inside max n ψ t) := by
  intro s s' _ _ hR h
  obtain ⟨hown, hq, hcovered⟩ := hR.inside h.own
  refine ⟨hown, fun sig => hcovered _ _ (h.covered sig), ?_⟩
  rw [hq]
  exact h.queue

lemma stable_outside : (contract path max q₀).Stable t (Outside t) := fun _ _ _ _ hR h =>
  hR.outside h

lemma stable_away : (contract path max q₀).Stable t (Away t) := fun _ _ _ _ hR h sig =>
  (hR.place.placed sig).trans (h sig)

lemma stable_looking : (contract path max q₀).Stable t (Looking sig t) := by
  rintro s s' _ _ hR ⟨hnone, helse⟩
  refine ⟨fun sig' => ⟨?_, (hR.place.leaving sig').trans (hnone sig').2⟩, fun sig' hne =>
    (hR.place.placed sig').trans (helse sig' hne)⟩
  have hle := hR.place.waiting sig'
  rw [(hnone sig').1] at hle
  exact Nat.le_zero.mp hle

lemma stable_waits {r : WaitResult} :
    (contract path max q₀).Stable t fun s => (t, r) ∈ s.waits := fun _ _ _ _ hR h =>
  hR.waits r h

lemma stable_atLoop : (contract path max q₀).Stable t (AtLoop max op t) :=
  fun s s' hI hI' hR h => ⟨stable_mine s s' hI hI' hR h.mine,
    stable_inside s s' hI hI' hR h.inside, stable_looking s s' hI hI' hR h.looking⟩

lemma stable_atRest : (contract path max q₀).Stable t (AtRest t) := fun s s' hI hI' hR h =>
  ⟨hR.seen.trans h.idle, hR.outside h.outside, stable_away s s' hI hI' hR h.away⟩

lemma Away.looking (h : Away t s) (sig : Signal) : Looking sig t s := by
  refine ⟨fun sig' => ?_, fun sig' _ => h sig'⟩
  have h0 := h sig'
  rw [placed] at h0
  omega

/-! ## Moves -/

/-- A move of thread `t` that keeps the invariant and what the others count on. -/
structure Move (path : Path) (max : ℕ) (q₀ : List T) (t : Tid) (s s' : State T) : Prop where
  inv : Inv path max q₀ s'
  rely : ∀ u, u ≠ t → Rely max u s s'

lemma Move.guarantee (h : Move path max q₀ t s s') :
    (contract path max q₀).Guarantee (some t) s s' :=
  ⟨h.inv, fun u hu => h.rely u fun he => hu (congrArg some he.symm), trivial⟩

/-- The lists stay in order if nobody but the mover is moved. -/
lemma once_of_keepsPlace (hI : Inv path max q₀ s) (hk : ∀ u, u ≠ t → KeepsPlace u s s')
    (ht : placed s' .queueIsFull t + placed s' .queueIsEmpty t ≤ 1) (u : Tid) :
    placed s' .queueIsFull u + placed s' .queueIsEmpty u ≤ 1 := by
  by_cases hu : u = t
  · rwa [hu]
  · rw [(hk u hu).placed, (hk u hu).placed]
    exact hI.once u

lemma Inside.owner (h : Inside max n ψ t s) : s.sync.owner = some t := by rw [h.own]

end Alpl.Containers
