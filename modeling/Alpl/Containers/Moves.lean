import Alpl.Containers.Contract

/-!
# The moves of a blocking queue

One triple for each action of `Containers/BlockingQueue.lean`.  The moves come in two kinds.  The
thread that owns `sync_` may change everything but the places of the others; a thread that does not
own it moves in and out of the lists of a signal, and keeps the account of wake-ups as it is.
-/

namespace Alpl.Containers

open Interleaving

variable {T : Type} {path : Path} {max : ℕ} {q₀ : List T} {t u v : Tid} {s s' : State T}
variable {sig : Signal} {op : Op T} {φ : Seen (Op T) (Answer T) → Prop} {i : Option T}
variable {n : Signal → ℕ} {ψ : List T → Prop} {cs : CriticalSection Tid}

/-! ## What a move leaves alone -/

/-- A move of `t` is nothing to the other threads, but for a release. -/
structure Apart (t : Tid) (s s' : State T) : Prop where
  seen : ∀ u, u ≠ t → s'.seen u = s.seen u
  item : ∀ u, u ≠ t → s'.item u = s.item u
  waits : ∀ w, w ∈ s.waits → w ∈ s'.waits
  place : ∀ u, u ≠ t → KeepsPlace u s s'

/-- The lists of the signals and the events stay as they are. -/
structure SameLists (s s' : State T) : Prop where
  waiting : s'.waiting = s.waiting
  released : s'.released = s.released
  leaving : s'.leaving = s.leaving
  isSet : s'.isSet = s.isSet
  merged : s'.merged = s.merged

/-- What the invariant says of the lists. -/
structure ListsOk (path : Path) (s : State T) : Prop where
  once : ∀ t, placed s .queueIsFull t + placed s .queueIsEmpty t ≤ 1
  unset : ∀ sig, s.waiting sig ≠ [] → s.isSet sig = false
  conditionVariable : path = .conditionVariable → ∀ sig, s.isSet sig = false ∧
    s.leaving sig = [] ∧ s.merged sig = false

lemma Inv.listsOk (h : Inv path max q₀ s) : ListsOk path s :=
  ⟨h.once, h.unset, h.conditionVariable⟩

lemma SameLists.placed_eq (h : SameLists s s') : placed s' sig t = placed s sig t := by
  simp only [placed, h.waiting, h.released, h.leaving]

lemma SameLists.listsOk (h : SameLists s s') (hs : ListsOk path s) : ListsOk path s' := by
  constructor
  · intro t
    rw [h.placed_eq, h.placed_eq]
    exact hs.once t
  · rw [h.waiting, h.isSet]
    exact hs.unset
  · rw [h.isSet, h.leaving, h.merged]
    exact hs.conditionVariable

lemma SameLists.keepsPlace (h : SameLists s s') : KeepsPlace u s s' :=
  .of_eq h.waiting h.released h.leaving

/-- With the lists as they were, the account follows the supply. -/
lemma SameLists.covered {m k : ℕ} (h : SameLists s s') (hc : Covered max m s sig)
    (hs : supply max s' sig + m ≤ supply max s sig + k) : Covered max k s' sig := by
  simp only [Covered, token, h.waiting, h.released, h.leaving, h.isSet, h.merged] at hc ⊢
  rcases hc with hm | hr | hw
  · exact .inl hm
  · exact .inr (.inl (by omega))
  · exact .inr (.inr hw)

lemma SameLists.covered_of_eq {m : ℕ} (h : SameLists s s') (hq : s'.q = s.q)
    (hc : Covered max m s sig) : Covered max m s' sig := by
  apply h.covered hc
  cases sig <;> simp [supply, hq]

lemma covered_of_supply_eq_zero {m : ℕ} (h : supply max s sig = 0) : Covered max m s sig :=
  .inr (.inl (by omega))

lemma due_le_one {sig' : Signal} : due sig sig' ≤ 1 := by
  unfold due
  split <;> omega

/-- The account of a thread that stays inside. -/
lemma covered_inside {m : Signal → ℕ} (hs : s.sync = ⟨some t, 1⟩)
    (h : ∀ sig, Covered max (m sig) s sig) (hm : ∀ sig, m sig ≤ 1) (sig : Signal) :
    Covered max (if s.sync.owner = none then 0 else 1) s sig := by
  rw [hs]
  exact (h sig).mono (hm sig)

/-! ## The two kinds of moves -/

/-- A move of the owner of `sync_`. -/
lemma move_inside (h : Inside max n ψ t s) (ha : Apart t s s')
    (hsync : s'.sync = ⟨some t, 1⟩ ∨ s'.sync = .free) (hlength : s'.q.length ≤ max)
    (hfifo : q₀ ++ s'.pushed = s'.popped ++ s'.q)
    (hobserved : Observed (boundedQueue max) q₀ s'.history s'.q s'.seen)
    (hcovered : ∀ sig, Covered max (if s'.sync.owner = none then 0 else 1) s' sig)
    (hlists : ListsOk path s') : Move path max q₀ t s s' := by
  constructor
  · refine ⟨hlength, hfifo, hobserved, ?_, hcovered, hlists.once, hlists.unset,
      hlists.conditionVariable⟩
    exact hsync.symm.imp id fun ht => ⟨t, ht⟩
  · intro u hu
    refine ⟨ha.seen u hu, ha.item u hu, fun r => ha.waits _, fun _ => ?_, fun hown => ?_,
      ha.place u hu⟩
    · rcases hsync with hs | hs <;> rw [hs]
      · exact fun he => hu (Option.some.inj he).symm
      · exact nofun
    · rw [h.own] at hown
      cases hown
      exact absurd rfl hu

/-- A move of a thread that does not own `sync_`, but may enter it if it is free. -/
lemma move_outside (hI : Inv path max q₀ s) (ha : Apart t s s')
    (hsync : s'.sync = s.sync ∨ s.sync = .free ∧ s'.sync = ⟨some t, 1⟩) (hq : s'.q = s.q)
    (hpushed : s'.pushed = s.pushed) (hpopped : s'.popped = s.popped)
    (hobserved : Observed (boundedQueue max) q₀ s'.history s'.q s'.seen)
    (hcovered : ∀ k sig, Covered max k s sig → Covered max k s' sig)
    (hlists : ListsOk path s') : Move path max q₀ t s s' := by
  constructor
  · refine ⟨hq ▸ hI.length, ?_, hobserved, ?_, fun sig => ?_, hlists.once, hlists.unset,
      hlists.conditionVariable⟩
    · rw [hpushed, hpopped, hq]
      exact hI.fifo
    · rcases hsync with hs | ⟨-, hs⟩ <;> rw [hs]
      · exact hI.lock
      · exact .inr ⟨t, rfl⟩
    · apply (hcovered _ sig (hI.covered sig)).mono
      rcases hsync with hs | ⟨hs, -⟩
      · exact Nat.le_of_eq (by rw [hs])
      · rw [hs]
        exact Nat.zero_le _
  · intro u hu
    refine ⟨ha.seen u hu, ha.item u hu, fun r => ha.waits _, fun hne => ?_, fun hown => ?_,
      ha.place u hu⟩
    · rcases hsync with hs | ⟨-, hs⟩ <;> rw [hs]
      · exact hne
      · exact fun he => hu (Option.some.inj he).symm
    · rcases hsync with hs | ⟨hs, -⟩
      · exact ⟨hs.trans hown, hq, hcovered⟩
      · rw [hs] at hown
        cases hown

/-- A triple from what its moves do. -/
lemma atomic_of_move {P : State T → Prop} {a : Action T} {N : a.Res → State T → Prop}
    (hstable : ∀ r, (contract path max q₀).Stable t (N r))
    (hallowed : ∀ s, P s → Allowed path max t a s)
    (hmove : ∀ s c r s', Inv path max q₀ s → P s → exec max t a c s = some (r, s') →
      (contract path max q₀).Known s' → Move path max q₀ t s s' ∧ N r s') :
    (contract path max q₀).Atomic (machine path max) t P a N := by
  refine ⟨hstable, fun s _ => hallowed s, fun s c r s' hok hP he hk => ?_⟩
  obtain ⟨hm, hN⟩ := hmove s c r s' hok.inv hP he hk
  exact ⟨hm.guarantee, hN⟩

/-! ## What a thread knows inside and outside -/

/-- Thread `t` is inside `sync_` and in no list. -/
structure Holding (max : ℕ) (n : Signal → ℕ) (ψ : List T → Prop) (t : Tid)
    (φ : Seen (Op T) (Answer T) → Prop) (i : Option T) (s : State T) : Prop where
  mine : Mine t φ i s
  inside : Inside max n ψ t s
  away : Away t s

/-- Thread `t` is outside `sync_`, at the place `χ`. -/
structure Left (t : Tid) (χ : State T → Prop) (φ : Seen (Op T) (Answer T) → Prop) (i : Option T)
    (s : State T) : Prop where
  mine : Mine t φ i s
  outside : Outside t s
  place : χ s

/-- Thread `t` is about to wait for the event `sig`. -/
structure Window (sig : Signal) (t : Tid) (s : State T) : Prop where
  leaving : (s.leaving sig).count t = 1
  placed : placed s sig t = 1
  others : ∀ sig', sig' ≠ sig → Containers.placed s sig' t = 0

/-- Thread `t` waits for `sig`, or has been released. -/
structure Asleep (sig : Signal) (t : Tid) (s : State T) : Prop where
  leaving : ∀ sig', (s.leaving sig').count t = 0
  others : ∀ sig', sig' ≠ sig → placed s sig' t = 0

/-- The call of thread `t` has its answer. -/
def Answered (ok : Bool) (i : Option T) (x : Seen (Op T) (Answer T)) : Prop :=
  ∃ op, x = .missed op ⟨ok, i⟩ ∨ x = .done op ⟨ok, i⟩

lemma stable_holding : (contract path max q₀).Stable t (Holding max n ψ t φ i) :=
  fun s s' hI hI' hR h => ⟨stable_mine s s' hI hI' hR h.mine,
    stable_inside s s' hI hI' hR h.inside, stable_away s s' hI hI' hR h.away⟩

lemma stable_left {χ : State T → Prop} (hχ : (contract path max q₀).Stable t χ) :
    (contract path max q₀).Stable t (Left t χ φ i) :=
  fun s s' hI hI' hR h => ⟨stable_mine s s' hI hI' hR h.mine,
    stable_outside s s' hI hI' hR h.outside, hχ s s' hI hI' hR h.place⟩

lemma stable_window : (contract path max q₀).Stable t (Window sig t) := fun _ _ _ _ hR h =>
  ⟨(hR.place.leaving sig).trans h.leaving, (hR.place.placed sig).trans h.placed,
    fun sig' hne => (hR.place.placed sig').trans (h.others sig' hne)⟩

lemma stable_asleep : (contract path max q₀).Stable t (Asleep sig t) := fun _ _ _ _ hR h =>
  ⟨fun sig' => (hR.place.leaving sig').trans (h.leaving sig'),
    fun sig' hne => (hR.place.placed sig').trans (h.others sig' hne)⟩

/-- Inside, all but the wake-ups may be weakened. -/
lemma Holding.mono {φ' : Seen (Op T) (Answer T) → Prop} {ψ' : List T → Prop}
    (h : Holding max n ψ t φ i s) (hφ : ∀ x, φ x → φ' x) (hψ : ∀ q, ψ q → ψ' q) :
    Holding max n ψ' t φ' i s :=
  ⟨⟨hφ _ h.mine.seen, h.mine.item⟩, ⟨h.inside.own, h.inside.covered, hψ _ h.inside.queue⟩,
    h.away⟩

/-- The owner is allowed to do what only the owner may do, if it owes what it owes. -/
lemma Inside.allowed {a : Action T} (h : Inside max n ψ t s) (ha : a.isInside = true)
    (hn : n = a.debt) : Allowed path max t a s := by
  left
  rw [if_pos ha, ← hn]
  exact ⟨h.owner, h.covered⟩

lemma allowed_outside {a : Action T} (h : Outside t s) (ha : a.isInside = false) :
    Allowed path max t a s := by
  left
  rw [if_neg (by simp [ha])]
  exact h

/-! ## The lock -/

lemma leave_own (h : s.sync = ⟨some t, 1⟩) (he : s.sync.leave t = some cs) : cs = .free := by
  rw [h] at he
  simpa [CriticalSection.leave] using he.symm

lemma enter_outside (hI : Inv path max q₀ s) (h : Outside t s) (he : s.sync.enter t = some cs) :
    s.sync = .free ∧ cs = ⟨some t, 1⟩ := by
  rcases hI.lock with hs | ⟨u, hs⟩
  · rw [hs] at he
    exact ⟨hs, (Option.some.inj he).symm⟩
  · rw [Outside, hs] at h
    rw [hs] at he
    have hu : u ≠ t := fun hu => h (congrArg some hu)
    simp [CriticalSection.enter, hu] at he

/-! ## Actions on `q_` -/

/-- A call that is refused at this length of the queue. -/
def Op.RefusedAt (max k : ℕ) : Op T → Prop
  | .push _ => max ≤ k
  | .pop => k = 0

lemma refuses_iff : s.refuses max op = true ↔ op.RefusedAt max s.q.length := by
  cases op with
  | push x => simp [State.refuses, Op.RefusedAt]
  | pop => simp [State.refuses, Op.RefusedAt]

lemma supply_eq_zero (h : op.RefusedAt max s.q.length) : supply max s op.signal = 0 := by
  cases op with
  | push x => exact Nat.sub_eq_zero_of_le h
  | pop => exact h

lemma step_refused {q : List T} (h : op.RefusedAt max q.length) :
    (boundedQueue max).step op q ⟨false, none⟩ q := by
  cases op with
  | push x => exact .inr ⟨h, rfl, rfl⟩
  | pop => exact .inr ⟨List.length_eq_zero_iff.mp h, rfl, rfl⟩

lemma look_of_refused (h : (s.seen t).Calling op) (hr : op.RefusedAt max s.q.length) :
    s.look max t = .missed op ⟨false, none⟩ := by
  rw [← refuses_iff] at hr
  rcases h with hs | ⟨a, hs⟩ <;> simp [State.look, hs, hr]

lemma look_of_not_refused (h : (s.seen t).Calling op) (hr : ¬ op.RefusedAt max s.q.length) :
    s.look max t = s.seen t := by
  rw [← refuses_iff] at hr
  rcases h with hs | ⟨a, hs⟩ <;> simp [State.look, hs, hr]

lemma finish_eq (h : (s.seen t).Calling op) : s.finish t = .done op ⟨true, s.item t⟩ := by
  rcases h with hs | ⟨a, hs⟩ <;> simp [State.finish, hs]

/-- The state after a look at `q_.size()`. -/
def State.sized (s : State T) (max : ℕ) (t : Tid) : State T :=
  { s with
    released := fun sig => (s.released sig).erase t
    seen := Function.update s.seen t (s.look max t) }

lemma placed_sized_of_ne (h : u ≠ t) : placed (s.sized max t) sig u = placed s sig u := by
  simp [placed, State.sized, List.count_erase_of_ne h]

lemma placed_sized_le : placed (s.sized max t) sig u ≤ placed s sig u := by
  have hle := List.Sublist.count_le u (List.erase_sublist (a := t) (l := s.released sig))
  simp only [placed, State.sized]
  omega

/-- Looking at the queue uses up a release, if the thread had one. -/
lemma covered_sized {m : ℕ} (h : Covered max m s sig) :
    Covered max (m + (s.released sig).count t) (s.sized max t) sig := by
  rcases h with hm | hr | hw
  · exact .inl hm
  · right; left
    have hlen : (s.released sig).length ≤
        ((s.released sig).erase t).length + (s.released sig).count t := by
      by_cases ht : t ∈ s.released sig
      · have hc := List.count_pos_iff.mpr ht
        have hl := List.length_erase_of_mem ht
        omega
      · rw [List.erase_of_not_mem ht]
        omega
    have hsupply : supply max (s.sized max t) sig = supply max s sig := by cases sig <;> rfl
    have htoken : token (s.sized max t) sig = token s sig := rfl
    rw [hsupply, htoken]
    refine Nat.le_trans hr ?_
    simp only [State.sized]
    omega
  · exact .inr (.inr hw)

/-- After the look the call is refused, or admitted with a release due. -/
def Looked (max : ℕ) (op : Op T) (t : Tid) (k : ℕ) (s : State T) : Prop :=
  op.RefusedAt max k ∧ Holding max (fun _ => 0) (fun q => op.RefusedAt max q.length) t
      (· = .missed op ⟨false, none⟩) none s ∨
    ¬ op.RefusedAt max k ∧ Holding max (due op.signal) (fun q => q.length = k) t
      (Seen.Calling op) none s

lemma apart_sized : Apart t s (s.sized max t) where
  seen _ hu := Function.update_of_ne hu _ _
  item _ _ := rfl
  waits _ hw := hw
  place _ hu := ⟨fun _ => placed_sized_of_ne hu, fun _ => Nat.le_refl _, fun _ => rfl⟩

lemma listsOk_sized (h : ListsOk path s) : ListsOk path (s.sized max t) := by
  refine ⟨fun u => ?_, h.unset, h.conditionVariable⟩
  exact Nat.le_trans (Nat.add_le_add placed_sized_le placed_sized_le) (h.once u)

/-- A thread that was released for `sig` alone is in no list after the look. -/
lemma away_sized (h : ListsOk path s) (hl : Looking sig t s) : Away t (s.sized max t) := by
  intro sig'
  have hnone := hl.1 sig'
  have honce := h.once t
  simp only [placed] at honce
  simp only [placed, State.sized, List.count_erase_self, hnone.1, hnone.2]
  cases sig' <;> omega

lemma covered_sized_of_looking {op : Op T} (h : ListsOk path s) (hl : Looking op.signal t s)
    (hc : ∀ sig, Covered max 0 s sig) (sig : Signal) :
    Covered max (due op.signal sig) (s.sized max t) sig := by
  apply (covered_sized (t := t) (hc sig)).mono
  by_cases hs : sig = op.signal
  · have honce := h.once t
    simp only [placed] at honce
    simp only [due, if_pos hs]
    cases sig <;> omega
  · have h0 := hl.2 sig hs
    simp only [placed] at h0
    simp only [due, if_neg hs]
    omega

lemma size_atomic : (contract path max q₀).Atomic (machine path max) t (AtLoop max op t) .size
    (Looked max op t) := by
  apply atomic_of_move
  · exact fun k => ((Contract.Stable.const _).and stable_holding).or
      ((Contract.Stable.const _).and stable_holding)
  · exact fun s h => h.inside.allowed rfl rfl
  intro s c k s' hI h he _
  cases c with
  | ok =>
      obtain ⟨rfl, rfl⟩ : k = s.q.length ∧ s' = s.sized max t := by
        cases he
        exact ⟨rfl, rfl⟩
      have hcovered := covered_sized_of_looking hI.listsOk h.looking h.inside.covered
      have haway : Away t (s.sized max t) := away_sized hI.listsOk h.looking
      by_cases hr : op.RefusedAt max s.q.length
      · have hlook := look_of_refused h.mine.seen hr
        have hcovered' : ∀ sig, Covered max 0 (s.sized max t) sig := by
          intro sig
          by_cases hs : sig = op.signal
          · rw [hs]
            exact covered_of_supply_eq_zero (supply_eq_zero hr)
          · simpa only [due, if_neg hs] using hcovered sig
        constructor
        · refine move_inside h.inside apart_sized (.inl h.inside.own) hI.length hI.fifo ?_
            (covered_inside h.inside.own hcovered' fun _ => Nat.zero_le _)
            (listsOk_sized hI.listsOk)
          simp only [State.sized, hlook]
          exact hI.observed.miss h.mine.seen (step_refused hr)
        · refine .inl ⟨hr, ⟨?_, h.mine.item⟩, ⟨h.inside.own, hcovered', hr⟩, haway⟩
          simp only [State.sized, hlook, Function.update_self]
      · have hlook := look_of_not_refused h.mine.seen hr
        have hseen : (s.sized max t).seen = s.seen := by
          simp only [State.sized, hlook, Function.update_eq_self]
        constructor
        · refine move_inside h.inside apart_sized (.inl h.inside.own) hI.length hI.fifo ?_
            (covered_inside h.inside.own hcovered fun _ => due_le_one) (listsOk_sized hI.listsOk)
          rw [hseen]
          exact hI.observed
        · refine .inr ⟨hr, ⟨?_, h.mine.item⟩, ⟨h.inside.own, hcovered, rfl⟩, haway⟩
          rw [hseen]
          exact h.mine.seen
  | _ => cases he

/-- A move that changes only what `t` has seen and its argument, among what the others know. -/
lemma apart_of_sameLists (h : SameLists s s') (hseen : ∀ u, u ≠ t → s'.seen u = s.seen u)
    (hitem : ∀ u, u ≠ t → s'.item u = s.item u) (hwaits : s'.waits = s.waits) : Apart t s s' :=
  ⟨hseen, hitem, fun _ hw => hwaits ▸ hw, fun _ _ => h.keepsPlace⟩

lemma SameLists.away (h : SameLists s s') (ha : Away t s) : Away t s' := by
  intro sig
  rw [h.placed_eq]
  exact ha sig

lemma pushBack_atomic (x : T) : (contract path max q₀).Atomic (machine path max) t
    (Holding max (due .queueIsFull) (fun q => q.length < max) t (Seen.Calling (.push x)) none)
    (.pushBack x)
    fun _ => Holding max (due .queueIsEmpty) (fun _ => True) t (Answered true none) none := by
  apply atomic_of_move
  · exact fun _ => stable_holding
  · exact fun s h => h.inside.allowed rfl rfl
  intro s c _ s' hI h he _
  cases c with
  | ok =>
      cases he
      have hfinish := finish_eq h.mine.seen
      have hroom := h.inside.queue
      rw [h.mine.item] at hfinish
      set s' : State T := { s with
        q := s.q ++ [x]
        pushed := s.pushed ++ [x]
        seen := Function.update s.seen t (s.finish t) } with hs'
      have hsame : SameLists s s' := ⟨rfl, rfl, rfl, rfl, rfl⟩
      have hlen : s'.q.length = s.q.length + 1 := by simp [hs']
      have hcovered : ∀ sig, Covered max (due .queueIsEmpty sig) s' sig := by
        intro sig
        apply hsame.covered (h.inside.covered sig)
        cases sig <;> simp only [supply, due, hlen, if_pos, if_neg, reduceCtorEq,
          not_false_eq_true] <;> omega
      constructor
      · refine move_inside h.inside (apart_of_sameLists hsame
          (fun u hu => Function.update_of_ne hu _ _) (fun _ _ => rfl) rfl) (.inl h.inside.own) ?_ ?_
          ?_ (covered_inside h.inside.own hcovered fun _ => due_le_one)
          (hsame.listsOk hI.listsOk)
        · omega
        · rw [← List.append_assoc, hI.fifo, List.append_assoc]
        · simp only [hs', hfinish]
          exact hI.observed.hit h.mine.seen (.inl ⟨hroom, rfl, rfl⟩)
      · refine ⟨⟨⟨.push x, .inr ?_⟩, h.mine.item⟩, ⟨h.inside.own, hcovered, trivial⟩,
          hsame.away h.away⟩
        simp only [hs', hfinish, Function.update_self]
  | _ => cases he

lemma move_refl (hI : Inv path max q₀ s) : Move path max q₀ t s s :=
  ⟨hI, fun _ _ => ⟨rfl, rfl, fun _ hr => hr, id, fun hs => ⟨hs, rfl, fun _ _ h => h⟩,
    .of_eq rfl rfl rfl⟩⟩

lemma front_atomic : (contract path max q₀).Atomic (machine path max) t
    (Holding max (due .queueIsEmpty) ψ t φ i) .front
    fun x => Holding max (due .queueIsEmpty) (fun q => q.head? = some x) t φ i := by
  apply atomic_of_move
  · exact fun _ => stable_holding
  · exact fun s h => h.inside.allowed rfl rfl
  intro s c x s' hI h he _
  cases c with
  | ok =>
      have hinside := h.inside
      cases hq : s.q with
      | nil => simp [exec, hq] at he
      | cons y q =>
          simp only [exec, hq, Option.some.injEq, Prod.mk.injEq] at he
          obtain ⟨rfl, rfl⟩ := he
          refine ⟨move_refl hI, h.mine, ⟨hinside.own, hinside.covered, ?_⟩, h.away⟩
          rw [hq]
          rfl
  | _ => cases he

lemma assign_atomic (x : T) : (contract path max q₀).Atomic (machine path max) t
    (Holding max (due .queueIsEmpty) ψ t φ i) (.assign x)
    fun _ => Holding max (due .queueIsEmpty) ψ t φ (some x) := by
  apply atomic_of_move
  · exact fun _ => stable_holding
  · exact fun s h => h.inside.allowed rfl rfl
  intro s c _ s' hI h he _
  cases c with
  | ok =>
      cases he
      set s' : State T := { s with item := Function.update s.item t (some x) }
      have hsame : SameLists s s' := ⟨rfl, rfl, rfl, rfl, rfl⟩
      have hcovered := fun sig => hsame.covered_of_eq rfl (h.inside.covered sig)
      constructor
      · exact move_inside h.inside (apart_of_sameLists hsame (fun _ _ => rfl)
          (fun u hu => Function.update_of_ne hu _ _) rfl) (.inl h.inside.own) hI.length hI.fifo
          hI.observed (covered_inside h.inside.own hcovered fun _ => due_le_one)
          (hsame.listsOk hI.listsOk)
      · exact ⟨⟨h.mine.seen, Function.update_self ..⟩, ⟨h.inside.own, hcovered, h.inside.queue⟩,
          hsame.away h.away⟩
  | _ => cases he

lemma popFront_atomic (x : T) : (contract path max q₀).Atomic (machine path max) t
    (Holding max (due .queueIsEmpty) (fun q => q.head? = some x) t (Seen.Calling .pop) (some x))
    .popFront
    fun _ =>
      Holding max (due .queueIsFull) (fun _ => True) t (Answered true (some x)) (some x) := by
  apply atomic_of_move
  · exact fun _ => stable_holding
  · exact fun s h => h.inside.allowed rfl rfl
  intro s c _ s' hI h he _
  cases c with
  | ok =>
      have hfinish := finish_eq h.mine.seen
      rw [h.mine.item] at hfinish
      have hhead := h.inside.queue
      cases hq : s.q with
      | nil => simp [exec, hq] at he
      | cons y q =>
          simp only [hq, List.head?_cons, Option.some.injEq] at hhead
          subst hhead
          simp only [exec, hq, Option.some.injEq, Prod.mk.injEq] at he
          obtain ⟨-, rfl⟩ := he
          set s' : State T := { s with
            q := q
            popped := s.popped ++ (s.item t).toList
            seen := Function.update s.seen t (s.finish t) } with hs'
          have hsame : SameLists s s' := ⟨rfl, rfl, rfl, rfl, rfl⟩
          have hlen : s.q.length = s'.q.length + 1 := by simp [hs', hq]
          have hlength := hI.length
          have hcovered : ∀ sig, Covered max (due .queueIsFull sig) s' sig := by
            intro sig
            apply hsame.covered (h.inside.covered sig)
            cases sig <;> simp only [supply, due, hlen, if_pos, if_neg, reduceCtorEq,
              not_false_eq_true] <;> omega
          constructor
          · refine move_inside h.inside (apart_of_sameLists hsame
              (fun u hu => Function.update_of_ne hu _ _) (fun _ _ => rfl) rfl) (.inl h.inside.own)
              ?_ ?_ ?_ (covered_inside h.inside.own hcovered fun _ => due_le_one)
              (hsame.listsOk hI.listsOk)
            · omega
            · rw [hI.fifo, hq, hs', h.mine.item]
              simp
            · have hobserved := hI.observed
              rw [hq] at hobserved
              simp only [hs', hfinish]
              exact hobserved.hit h.mine.seen (.inl ⟨y, rfl, rfl⟩)
          · refine ⟨⟨⟨.pop, .inr ?_⟩, h.mine.item⟩, ⟨h.inside.own, hcovered, trivial⟩,
              hsame.away h.away⟩
            simp only [hs', hfinish, Function.update_self]
  | _ => cases he

end Alpl.Containers
