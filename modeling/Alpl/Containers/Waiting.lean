import Alpl.Containers.Moves

/-!
# Waiting and waking

The triples of the actions that move threads between the lists of a signal, and in and out of
`sync_`.  A signal releases one thread, or finds nobody to release; either way the release that was
due is paid.  A thread goes to sleep only where it has found nothing to take, so its going to sleep
owes nothing.
-/

namespace Alpl.Containers

open Interleaving

variable {T : Type} {path : Path} {max : ℕ} {q₀ : List T} {t u v : Tid} {s s' : State T}
variable {sig sig' : Signal} {op : Op T} {φ : Seen (Op T) (Answer T) → Prop} {i : Option T}
variable {n : Signal → ℕ} {ψ : List T → Prop} {cs : CriticalSection Tid}

/-! ## A release -/

lemma keepsPlace_release (hu : u ∈ s.waiting sig) : KeepsPlace v s (s.release sig u) := by
  have hcount := List.count_pos_iff.mpr hu
  constructor
  · intro sig'
    by_cases hs : sig' = sig
    · subst hs
      simp only [placed, State.release, Function.update_self, List.count_erase, List.count_cons]
      by_cases hv : u = v
      · subst hv
        simp only [beq_self_eq_true, if_pos]
        omega
      · simp [hv]
    · simp only [placed, State.release, Function.update_of_ne hs]
  · intro sig'
    by_cases hs : sig' = sig
    · subst hs
      simp only [State.release, Function.update_self]
      exact (List.erase_sublist).count_le v
    · simp only [State.release, Function.update_of_ne hs]
      exact Nat.le_refl _
  · exact fun _ => rfl

lemma apart_release (hu : u ∈ s.waiting sig) : Apart t s (s.release sig u) :=
  ⟨fun _ _ => rfl, fun _ _ => rfl, fun _ hw => hw, fun _ _ => keepsPlace_release hu⟩

lemma listsOk_release (h : ListsOk path s) (hu : u ∈ s.waiting sig) :
    ListsOk path (s.release sig u) := by
  refine ⟨fun v => ?_, fun sig' hw => h.unset sig' fun hnil => hw ?_, h.conditionVariable⟩
  · rw [(keepsPlace_release hu).placed, (keepsPlace_release hu).placed]
    exact h.once v
  · by_cases hs : sig' = sig
    · subst hs
      simp [State.release, hnil]
    · simpa [State.release, Function.update_of_ne hs] using hnil

/-- A release pays one that is due. -/
lemma covered_release {m : ℕ} (hu : u ∈ s.waiting sig) (h : Covered max (m + due sig sig') s sig') :
    Covered max m (s.release sig u) sig' := by
  have hsupply : supply max (s.release sig u) sig' = supply max s sig' := by cases sig' <;> rfl
  have htoken : token (s.release sig u) sig' = token s sig' := rfl
  rw [Covered, hsupply, htoken]
  by_cases hs : sig' = sig
  · subst hs
    have hlen := List.length_erase_of_mem hu
    have hpos := List.length_pos_of_mem hu
    simp only [State.release, Function.update_self, List.length_cons]
    simp only [due, if_pos] at h
    rcases h with hm | hr | hw
    · exact .inl hm
    · right; left
      omega
    · right; right
      omega
  · simp only [State.release, Function.update_of_ne hs]
    simp only [due, if_neg hs] at h
    exact h

/-- The signal is given while `sig` is due: what is due is paid. -/
lemma release_move (hI : Inv path max q₀ s)
    (h : Holding max (due sig) (fun _ => True) t φ i s) (hu : u ∈ s.waiting sig) :
    Move path max q₀ t s (s.release sig u) ∧
      Holding max (fun _ => 0) (fun _ => True) t φ i (s.release sig u) := by
  have hcovered : ∀ sig', Covered max 0 (s.release sig u) sig' := fun sig' =>
    covered_release hu ((h.inside.covered sig').mono (by omega))
  constructor
  · exact move_inside h.inside (apart_release hu) (.inl h.inside.own) hI.length hI.fifo hI.observed
      (covered_inside h.inside.own hcovered fun _ => Nat.zero_le _) (listsOk_release hI.listsOk hu)
  · refine ⟨⟨h.mine.seen, h.mine.item⟩, ⟨h.inside.own, hcovered, trivial⟩, fun sig' => ?_⟩
    rw [(keepsPlace_release hu).placed]
    exact h.away sig'

lemma wakeConditionVariable_atomic (hp : path = .conditionVariable) :
    (contract path max q₀).Atomic (machine path max) t
      (Holding max (due sig) (fun _ => True) t φ i) (.wakeConditionVariable sig)
      fun _ => Holding max (fun _ => 0) (fun _ => True) t φ i := by
  apply atomic_of_move
  · exact fun _ => stable_holding
  · exact fun s h => h.inside.allowed rfl rfl
  intro s c _ s' hI h he _
  cases c with
  | ok =>
      simp only [exec] at he
      split at he
      · rename_i hnobody
        cases he
        refine ⟨move_refl hI, h.mine, ⟨h.inside.own, fun sig' => ?_, trivial⟩, h.away⟩
        have hc := h.inside.covered sig'
        by_cases hs : sig' = sig
        · subst hs
          have hleaving := (hI.conditionVariable hp sig').2.1
          exact .inr (.inr (by simp [hnobody, hleaving]))
        · simpa only [due, if_neg hs] using hc
      · cases he
  | release u =>
      simp only [exec] at he
      split at he
      · rename_i hu
        cases he
        exact release_move hI h hu
      · cases he
  | _ => cases he

/-- The event is set while nobody waits for it. -/
def State.signalled (s : State T) (ev : Signal) : State T :=
  { s with
    isSet := Function.update s.isSet ev true
    merged := Function.update s.merged ev
      (s.merged ev || (s.isSet ev && decide (2 ≤ (s.leaving ev).length))) }

/-- Setting the event pays the release that is due, or it is merged. -/
lemma covered_signalled (hnobody : s.waiting sig = [])
    (h : ∀ sig', Covered max (due sig sig') s sig') (sig' : Signal) :
    Covered max 0 (s.signalled sig) sig' := by
  have hc := h sig'
  have hsupply : supply max (s.signalled sig) sig' = supply max s sig' := by cases sig' <;> rfl
  by_cases hs : sig' = sig
  · subst hs
    have htoken : token (s.signalled sig') sig' = 1 := by simp [token, State.signalled]
    simp only [due, if_pos] at hc
    cases hset : s.isSet sig' with
    | false =>
        have htoken' : token s sig' = 0 := by simp [token, hset]
        rcases hc with hm | hr | hw
        · exact .inl (by simp [State.signalled, hm])
        · right; left
          rw [hsupply, htoken]
          simp only [State.signalled]
          omega
        · right; right
          rw [htoken]
          simp only [State.signalled]
          omega
    | true =>
        by_cases htwo : 2 ≤ (s.leaving sig').length
        · exact .inl (by simp [State.signalled, hset, htwo])
        · right; right
          rw [htoken]
          simp only [State.signalled, hnobody, List.length_nil]
          omega
  · rw [Covered, hsupply]
    simp only [token, State.signalled, Function.update_of_ne hs]
    simp only [due, if_neg hs] at hc
    exact hc

lemma listsOk_signalled (hp : path = .event) (h : ListsOk path s) (hnobody : s.waiting sig = []) :
    ListsOk path (s.signalled sig) := by
  refine ⟨h.once, fun sig' hw => ?_, fun hcv => ?_⟩
  · by_cases hs : sig' = sig
    · subst hs
      exact absurd hnobody hw
    · simpa only [State.signalled, Function.update_of_ne hs] using h.unset sig' hw
  · rw [hp] at hcv
    cases hcv

lemma setEvent_atomic (hp : path = .event) :
    (contract path max q₀).Atomic (machine path max) t
      (Holding max (due sig) (fun _ => True) t φ i) (.setEvent sig)
      fun _ => Holding max (fun _ => 0) (fun _ => True) t φ i := by
  apply atomic_of_move
  · exact fun _ => stable_holding
  · exact fun s h => h.inside.allowed rfl rfl
  intro s c _ s' hI h he _
  cases c with
  | ok =>
      simp only [exec] at he
      split at he
      · rename_i hnobody
        obtain rfl : s' = s.signalled sig := by
          cases he
          rfl
        have hcovered := covered_signalled hnobody h.inside.covered
        constructor
        · exact move_inside h.inside
            ⟨fun _ _ => rfl, fun _ _ => rfl, fun _ hw => hw, fun _ _ => .of_eq rfl rfl rfl⟩
            (.inl h.inside.own) hI.length hI.fifo hI.observed
            (covered_inside h.inside.own hcovered fun _ => Nat.zero_le _)
            (listsOk_signalled hp hI.listsOk hnobody)
        · exact ⟨⟨h.mine.seen, h.mine.item⟩, ⟨h.inside.own, hcovered, trivial⟩, h.away⟩
      · cases he
  | release u =>
      simp only [exec] at he
      split at he
      · rename_i hu
        cases he
        exact release_move hI h hu
      · cases he
  | _ => cases he

/-- `cond_wake` pays what is due. -/
lemma safe_condWake : (contract path max q₀).Safe (machine path max) t (condWake path sig)
    (Holding max (due sig) (fun _ => True) t φ i)
    fun _ => Holding max (fun _ => 0) (fun _ => True) t φ i := by
  cases path with
  | conditionVariable => exact .perform (wakeConditionVariable_atomic rfl)
  | event => exact .perform (setEvent_atomic rfl)

/-! ## In and out of `sync_` -/

lemma enter_atomic {χ : State T → Prop} (hχ : (contract path max q₀).Stable t χ)
    (hplace : ∀ s cs, χ s → χ (s.enter t cs)) :
    (contract path max q₀).Atomic (machine path max) t (Left t χ φ i) .enterCriticalSection
      fun _ s => Mine t φ i s ∧ Inside max (fun _ => 0) (fun _ => True) t s ∧ χ s := by
  apply atomic_of_move
  · exact fun _ => stable_mine.and (stable_inside.and hχ)
  · exact fun s h => allowed_outside h.outside rfl
  intro s c _ s' hI h he _
  cases c with
  | ok =>
      obtain ⟨cs, hcs, he⟩ := Option.map_eq_some_iff.mp he
      cases he
      obtain ⟨hfree, rfl⟩ := enter_outside hI h.outside hcs
      have hsame : SameLists s (s.enter t ⟨some t, 1⟩) := ⟨rfl, rfl, rfl, rfl, rfl⟩
      constructor
      · exact move_outside hI (apart_of_sameLists hsame (fun _ _ => rfl) (fun _ _ => rfl) rfl)
          (.inr ⟨hfree, rfl⟩) rfl rfl rfl hI.observed (fun _ _ hc => hsame.covered_of_eq rfl hc)
          (hsame.listsOk hI.listsOk)
      · refine ⟨⟨h.mine.seen, h.mine.item⟩, ⟨rfl, fun sig => ?_, trivial⟩, hplace s _ h.place⟩
        have hc := hI.covered sig
        rw [hfree] at hc
        exact hsame.covered_of_eq rfl hc
  | _ => cases he

lemma leave_atomic : (contract path max q₀).Atomic (machine path max) t
    (Holding max (fun _ => 0) ψ t φ i) (.leaveCriticalSection none)
    fun _ => Left t (Away t) φ i := by
  apply atomic_of_move
  · exact fun _ => stable_left stable_away
  · exact fun s h => h.inside.allowed rfl rfl
  intro s c _ s' hI h he _
  cases c with
  | ok =>
      obtain ⟨cs, hcs, he⟩ := Option.map_eq_some_iff.mp he
      cases he
      obtain rfl := leave_own h.inside.own hcs
      simp only [reduceCtorEq, if_false]
      have hsame : SameLists s (s.leave t .free) := ⟨rfl, rfl, rfl, rfl, rfl⟩
      constructor
      · exact move_inside h.inside (apart_of_sameLists hsame (fun _ _ => rfl) (fun _ _ => rfl) rfl)
          (.inr rfl) hI.length hI.fifo hI.observed
          (fun sig => hsame.covered_of_eq rfl (h.inside.covered sig)) (hsame.listsOk hI.listsOk)
      · exact ⟨⟨h.mine.seen, h.mine.item⟩, nofun, hsame.away h.away⟩
  | _ => cases he

/-- After a wait that has timed out, `LeaveCriticalSection` has no meaning. -/
lemma leave_timeout_atomic (hp : path = .event) : (contract path max q₀).Atomic (machine path max) t
    (fun s => Outside t s ∧ (t, .timeout) ∈ s.waits) (.leaveCriticalSection none)
    fun _ _ => False := by
  apply atomic_of_move
  · exact fun _ _ _ _ _ _ h => h
  · exact fun s h => .inr ⟨rfl, hp, h.2, h.1⟩
  intro s c _ s' _ h he _
  cases c with
  | ok =>
      obtain ⟨cs, hcs, -⟩ := Option.map_eq_some_iff.mp he
      rw [CriticalSection.leave, if_neg h.1] at hcs
      cases hcs
  | _ => cases he

/-! ## Calls and returns -/

lemma call_atomic : (contract path max q₀).Atomic (machine path max) t (AtRest t) (.call op)
    fun _ => Left t (Away t) (· = .called op) none := by
  apply atomic_of_move
  · exact fun _ => stable_left stable_away
  · exact fun s h => allowed_outside h.outside rfl
  intro s c _ s' hI h he _
  cases c with
  | ok =>
      cases he
      set s' : State T := { s with
        item := Function.update s.item t none
        seen := Function.update s.seen t (.called op)
        history := .call t op :: s.history }
      have hsame : SameLists s s' := ⟨rfl, rfl, rfl, rfl, rfl⟩
      constructor
      · exact move_outside hI (apart_of_sameLists hsame (fun u hu => Function.update_of_ne hu _ _)
          (fun u hu => Function.update_of_ne hu _ _) rfl) (.inl rfl) rfl rfl rfl
          (hI.observed.call op h.idle) (fun _ _ hc => hsame.covered_of_eq rfl hc)
          (hsame.listsOk hI.listsOk)
      · exact ⟨⟨Function.update_self .., Function.update_self ..⟩, h.outside, hsame.away h.away⟩
  | _ => cases he

lemma ret_atomic {ok : Bool} : (contract path max q₀).Atomic (machine path max) t
    (Left t (Away t) (Answered ok i) i) (.ret ok) fun _ => AtRest t := by
  apply atomic_of_move
  · exact fun _ => stable_atRest
  · exact fun s h => allowed_outside h.outside rfl
  intro s c _ s' hI h he _
  cases c with
  | ok =>
      cases he
      obtain ⟨op, hop⟩ := h.mine.seen
      have hobserved := hI.observed.ret hop
      rw [← h.mine.item] at hobserved
      set s' : State T := { s with
        seen := Function.update s.seen t .idle
        history := .ret t ⟨ok, s.item t⟩ :: s.history }
      have hsame : SameLists s s' := ⟨rfl, rfl, rfl, rfl, rfl⟩
      constructor
      · exact move_outside hI (apart_of_sameLists hsame (fun u hu => Function.update_of_ne hu _ _)
          (fun _ _ => rfl) rfl) (.inl rfl) rfl rfl rfl hobserved
          (fun _ _ hc => hsame.covered_of_eq rfl hc) (hsame.listsOk hI.listsOk)
      · exact ⟨Function.update_self .., h.outside, hsame.away h.place⟩
  | _ => cases he

/-! ## Going to sleep -/

lemma count_update_cons {f : Signal → List Tid} (hu : u ≠ t) :
    (Function.update f sig (t :: f sig) sig').count u = (f sig').count u := by
  by_cases hs : sig' = sig
  · subst hs
    rw [Function.update_self, List.count_cons_of_ne hu.symm]
  · rw [Function.update_of_ne hs]

lemma count_update_erase {f : Signal → List Tid} (hu : u ≠ t) :
    (Function.update f sig ((f sig).erase t) sig').count u = (f sig').count u := by
  by_cases hs : sig' = sig
  · subst hs
    rw [Function.update_self, List.count_erase_of_ne hu]
  · rw [Function.update_of_ne hs]

lemma count_update_cons_self {f : Signal → List Tid} :
    (Function.update f sig (t :: f sig) sig').count t =
      (f sig').count t + if sig' = sig then 1 else 0 := by
  by_cases hs : sig' = sig
  · subst hs
    rw [Function.update_self, List.count_cons_self, if_pos rfl]
  · rw [Function.update_of_ne hs, if_neg hs, Nat.add_zero]

lemma count_update_erase_self {f : Signal → List Tid} :
    (Function.update f sig ((f sig).erase t) sig').count t =
      (f sig').count t - if sig' = sig then 1 else 0 := by
  by_cases hs : sig' = sig
  · subst hs
    rw [Function.update_self, List.count_erase_self, if_pos rfl]
  · rw [Function.update_of_ne hs, if_neg hs, Nat.sub_zero]

lemma KeepsPlace.of_count (hw : ∀ sig, (s'.waiting sig).count u = (s.waiting sig).count u)
    (hr : ∀ sig, (s'.released sig).count u = (s.released sig).count u)
    (hl : ∀ sig, (s'.leaving sig).count u = (s.leaving sig).count u) : KeepsPlace u s s' :=
  ⟨fun sig => by simp only [Containers.placed, hw, hr, hl], fun sig => Nat.le_of_eq (hw sig), hl⟩

/-- In one place of one signal. -/
lemma once_of_others (h : ∀ sig', sig' ≠ sig → placed s sig' t = 0) (h1 : placed s sig t ≤ 1) :
    placed s .queueIsFull t + placed s .queueIsEmpty t ≤ 1 := by
  cases sig with
  | queueIsFull =>
      have h0 := h .queueIsEmpty nofun
      omega
  | queueIsEmpty =>
      have h0 := h .queueIsFull nofun
      omega

/-- The thread has left `sync_` and waits for `sig`. -/
def State.asleep (s : State T) (sig : Signal) (t : Tid) : State T :=
  { s.leave t .free with waiting := Function.update s.waiting sig (t :: s.waiting sig) }

/-- The thread has left `sync_` and is about to wait for `sig`. -/
def State.parted (s : State T) (sig : Signal) (t : Tid) : State T :=
  { s.leave t .free with leaving := Function.update s.leaving sig (t :: s.leaving sig) }

lemma placed_asleep (h : Away t s) :
    placed (s.asleep sig t) sig' t = if sig' = sig then 1 else 0 := by
  have h0 := h sig'
  simp only [placed] at h0
  simp only [placed, State.asleep, State.leave, count_update_cons_self]
  omega

lemma placed_parted (h : Away t s) :
    placed (s.parted sig t) sig' t = if sig' = sig then 1 else 0 := by
  have h0 := h sig'
  simp only [placed] at h0
  simp only [placed, State.parted, State.leave, count_update_cons_self]
  omega

lemma keepsPlace_asleep (hu : u ≠ t) : KeepsPlace u s (s.asleep sig t) :=
  .of_count (fun _ => count_update_cons hu) (fun _ => rfl) (fun _ => rfl)

lemma keepsPlace_parted (hu : u ≠ t) : KeepsPlace u s (s.parted sig t) :=
  .of_count (fun _ => rfl) (fun _ => rfl) (fun _ => count_update_cons hu)

/-- The account of a signal depends on its own lists only. -/
lemma Covered.congr {m : ℕ} (h : Covered max m s sig) (hq : s'.q = s.q)
    (hmerged : s'.merged sig = s.merged sig) (hset : s'.isSet sig = s.isSet sig)
    (hreleased : s'.released sig = s.released sig) (hwaiting : s'.waiting sig = s.waiting sig)
    (hleaving : s'.leaving sig = s.leaving sig) : Covered max m s' sig := by
  have hsupply : supply max s' sig = supply max s sig := by cases sig <;> simp only [supply, hq]
  rwa [Covered, token, hsupply, hmerged, hset, hreleased, hwaiting, hleaving]

/-- Nothing is due from a thread that has found nothing to take. -/
lemma covered_asleep (h0 : supply max s sig = 0) (h : ∀ sig', Covered max 0 s sig')
    (sig' : Signal) : Covered max 0 (s.asleep sig t) sig' := by
  by_cases hs : sig' = sig
  · subst hs
    apply covered_of_supply_eq_zero
    cases sig' <;> exact h0
  · exact (h sig').congr rfl rfl rfl rfl (Function.update_of_ne hs _ _) rfl

lemma covered_parted (h0 : supply max s sig = 0) (h : ∀ sig', Covered max 0 s sig')
    (sig' : Signal) : Covered max 0 (s.parted sig t) sig' := by
  by_cases hs : sig' = sig
  · subst hs
    apply covered_of_supply_eq_zero
    cases sig' <;> exact h0
  · exact (h sig').congr rfl rfl rfl rfl rfl (Function.update_of_ne hs _ _)

lemma sleep_atomic (hp : path = .conditionVariable) :
    (contract path max q₀).Atomic (machine path max) t
      (Holding max (fun _ => 0) (fun q => op.RefusedAt max q.length) t φ i) (.sleep op.signal)
      fun _ => Left t (Asleep op.signal t) φ i := by
  apply atomic_of_move
  · exact fun _ => stable_left stable_asleep
  · exact fun s h => h.inside.allowed rfl rfl
  intro s c _ s' hI h he _
  cases c with
  | ok =>
      obtain ⟨cs, hcs, he⟩ := Option.map_eq_some_iff.mp he
      cases he
      obtain rfl := leave_own h.inside.own hcs
      change Move path max q₀ t s (s.asleep op.signal t) ∧
        Left t (Asleep op.signal t) φ i (s.asleep op.signal t)
      have hothers : ∀ sig', sig' ≠ op.signal → placed (s.asleep op.signal t) sig' t = 0 :=
        fun sig' hs => by rw [placed_asleep h.away, if_neg hs]
      have honce := once_of_others hothers
        (Nat.le_of_eq (by rw [placed_asleep h.away, if_pos rfl]))
      constructor
      · exact move_inside h.inside ⟨fun _ _ => rfl, fun _ _ => rfl, fun _ hw => hw,
            fun _ hu => keepsPlace_asleep hu⟩ (.inr rfl) hI.length hI.fifo hI.observed
          (covered_asleep (supply_eq_zero h.inside.queue) h.inside.covered)
          ⟨once_of_keepsPlace hI (fun _ hu => keepsPlace_asleep hu) honce,
            fun sig' _ => (hI.conditionVariable hp sig').1, hI.conditionVariable⟩
      · refine ⟨⟨h.mine.seen, h.mine.item⟩, nofun, fun sig' => ?_, hothers⟩
        have h0 := h.away sig'
        simp only [placed] at h0
        simp only [State.asleep, State.leave]
        omega
  | _ => cases he

lemma part_atomic (hp : path = .event) :
    (contract path max q₀).Atomic (machine path max) t
      (Holding max (fun _ => 0) (fun q => op.RefusedAt max q.length) t φ i)
      (.leaveCriticalSection (some op.signal)) fun _ => Left t (Window op.signal t) φ i := by
  apply atomic_of_move
  · exact fun _ => stable_left stable_window
  · exact fun s h => h.inside.allowed rfl rfl
  intro s c _ s' hI h he _
  cases c with
  | ok =>
      obtain ⟨cs, hcs, he⟩ := Option.map_eq_some_iff.mp he
      obtain rfl := leave_own h.inside.own hcs
      obtain rfl : s' = s.parted op.signal t := by
        cases he
        simp only [State.parted, Option.some.injEq, State.mk.injEq, true_and, and_true]
        funext sig'
        by_cases hs : sig' = op.signal
        · subst hs
          simp
        · simp [hs, Ne.symm hs]
      have hothers : ∀ sig', sig' ≠ op.signal → placed (s.parted op.signal t) sig' t = 0 :=
        fun sig' hs => by rw [placed_parted h.away, if_neg hs]
      have hplaced : placed (s.parted op.signal t) op.signal t = 1 := by
        rw [placed_parted h.away, if_pos rfl]
      constructor
      · refine move_inside h.inside ⟨fun _ _ => rfl, fun _ _ => rfl, fun _ hw => hw,
            fun _ hu => keepsPlace_parted hu⟩ (.inr rfl) hI.length hI.fifo hI.observed
          (covered_parted (supply_eq_zero h.inside.queue) h.inside.covered)
          ⟨once_of_keepsPlace hI (fun _ hu => keepsPlace_parted hu)
            (once_of_others hothers (Nat.le_of_eq hplaced)), hI.unset, fun hcv => ?_⟩
        rw [hp] at hcv
        cases hcv
      · refine ⟨⟨h.mine.seen, h.mine.item⟩, nofun, ?_, hplaced, hothers⟩
        have h0 := h.away op.signal
        simp only [placed] at h0
        simp only [State.parted, State.leave, Function.update_self, List.count_cons_self]
        omega
  | _ => cases he

/-! ## Waking up -/

/-- Thread `t` has been released, or has given up waiting. -/
def Woken (sig : Signal) (r : WaitResult) (t : Tid) (s : State T) : Prop :=
  Looking sig t s ∧ (r = .timeout → Away t s)

lemma stable_woken {r : WaitResult} : (contract path max q₀).Stable t (Woken sig r t) :=
  stable_looking.and fun s s' hI hI' hR h hr => stable_away s s' hI hI' hR (h hr)

lemma woken_of_released {r : WaitResult} (hlists : ListsOk path s) (h : Asleep sig t s)
    (ht : t ∈ s.released sig) (hr : r ≠ .timeout) : Woken sig r t s := by
  have hcount := List.count_pos_iff.mpr ht
  have honce := hlists.once t
  refine ⟨⟨fun sig' => ⟨?_, h.leaving sig'⟩, h.others⟩, fun he => absurd he hr⟩
  by_cases hs : sig' = sig
  · subst hs
    simp only [placed] at honce
    cases sig' <;> omega
  · have h0 := h.others sig' hs
    simp only [placed] at h0
    omega

lemma keepsPlace_giveUp (hu : u ≠ t) : KeepsPlace u s (s.giveUp sig t) :=
  .of_count (fun _ => count_update_erase hu) (fun _ => rfl) (fun _ => rfl)

lemma away_giveUp (hlists : ListsOk path s) (h : Asleep sig t s) (ht : t ∈ s.waiting sig) :
    Away t (s.giveUp sig t) := by
  have hcount := List.count_pos_iff.mpr ht
  have honce := hlists.once t
  intro sig'
  simp only [placed] at honce
  simp only [placed, State.giveUp, count_update_erase_self]
  by_cases hs : sig' = sig
  · subst hs
    rw [if_pos rfl]
    cases sig' <;> omega
  · have h0 := h.others sig' hs
    simp only [placed] at h0
    omega

/-- One thread less that waits. -/
lemma covered_giveUp {m : ℕ} (h : Covered max m s sig') :
    Covered max m (s.giveUp sig t) sig' := by
  by_cases hs : sig' = sig
  · subst hs
    have hsupply : supply max (s.giveUp sig' t) sig' = supply max s sig' := by
      cases sig' <;> rfl
    have hlen := (@List.erase_sublist _ _ t (s.waiting sig')).length_le
    rw [Covered, hsupply]
    simp only [token, State.giveUp, Function.update_self]
    rcases h with hm | hr | hw
    · exact .inl hm
    · exact .inr (.inl hr)
    · exact .inr (.inr (Nat.le_trans (Nat.add_le_add_right hlen _) hw))
  · exact h.congr rfl rfl rfl rfl (Function.update_of_ne hs _ _) rfl

lemma listsOk_giveUp (h : ListsOk path s) : ListsOk path (s.giveUp sig t) := by
  have hplaced : ∀ sig' u, placed (s.giveUp sig t) sig' u ≤ placed s sig' u := by
    intro sig' u
    by_cases hs : sig' = sig
    · subst hs
      have hle := List.Sublist.count_le u (List.erase_sublist (a := t) (l := s.waiting sig'))
      simp only [placed, State.giveUp, Function.update_self]
      omega
    · simp only [placed, State.giveUp, Function.update_of_ne hs]
      exact Nat.le_refl _
  refine ⟨fun u => ?_, fun sig' hw => h.unset sig' fun hnil => hw ?_, h.conditionVariable⟩
  · exact Nat.le_trans (Nat.add_le_add (hplaced _ u) (hplaced _ u)) (h.once u)
  · by_cases hs : sig' = sig
    · subst hs
      simp [State.giveUp, hnil]
    · simpa only [State.giveUp, Function.update_of_ne hs] using hnil

lemma giveUp_move (hI : Inv path max q₀ s) (h : Left t (Asleep sig t) φ i s)
    (ht : t ∈ s.waiting sig) : Move path max q₀ t s (s.giveUp sig t) ∧
      Left t (Away t) φ i (s.giveUp sig t) := by
  constructor
  · exact move_outside hI ⟨fun _ _ => rfl, fun _ _ => rfl, fun _ hw => hw,
      fun _ hu => keepsPlace_giveUp hu⟩ (.inl rfl) rfl rfl rfl hI.observed
      (fun _ _ => covered_giveUp) (listsOk_giveUp hI.listsOk)
  · exact ⟨⟨h.mine.seen, h.mine.item⟩, h.outside, away_giveUp hI.listsOk h.place ht⟩

lemma Left.woken {r : WaitResult} (h : Left t (Away t) φ i s) : Left t (Woken sig r t) φ i s :=
  ⟨h.mine, h.outside, h.place.looking sig, fun _ => h.place⟩

lemma awake_atomic {ms : Milliseconds} : (contract path max q₀).Atomic (machine path max) t
    (Left t (Asleep sig t) φ i) (.awake sig ms) fun r => Left t (Woken sig r t) φ i := by
  apply atomic_of_move
  · exact fun _ => stable_left stable_woken
  · exact fun s h => allowed_outside h.outside rfl
  intro s c r s' hI h he _
  cases c with
  | ok =>
      simp only [exec] at he
      split at he
      · rename_i ht
        cases he
        exact ⟨move_refl hI, h.mine, h.outside,
          woken_of_released hI.listsOk h.place ht (by decide)⟩
      · cases he
  | release u => cases he
  | spurious =>
      simp only [exec] at he
      split at he
      · rename_i ht
        cases he
        exact (giveUp_move hI h ht).imp id Left.woken
      · cases he
  | timeout =>
      simp only [exec] at he
      split at he
      · rename_i ht
        cases he
        exact (giveUp_move hI h ht.1).imp id Left.woken
      · cases he
  | failed =>
      simp only [exec] at he
      split at he
      · rename_i ht
        cases he
        exact (giveUp_move hI h ht).imp id Left.woken
      · cases he

/-! ## Waiting for an event -/

/-- The event was set: thread `t` passes, and unsets it. -/
def State.passed (s : State T) (ev : Signal) (t : Tid) : State T :=
  { s with
    leaving := Function.update s.leaving ev ((s.leaving ev).erase t)
    isSet := Function.update s.isSet ev false
    released := Function.update s.released ev (t :: s.released ev) }

/-- The event was not set: thread `t` waits. -/
def State.queued (s : State T) (ev : Signal) (t : Tid) : State T :=
  { s with
    leaving := Function.update s.leaving ev ((s.leaving ev).erase t)
    waiting := Function.update s.waiting ev (t :: s.waiting ev) }

lemma keepsPlace_passed (hu : u ≠ t) : KeepsPlace u s (s.passed sig t) :=
  .of_count (fun _ => rfl) (fun _ => count_update_cons hu) (fun _ => count_update_erase hu)

lemma keepsPlace_queued (hu : u ≠ t) : KeepsPlace u s (s.queued sig t) :=
  .of_count (fun _ => count_update_cons hu) (fun _ => rfl) (fun _ => count_update_erase hu)

/-- The event that lets a thread pass was the release of that thread. -/
lemma covered_passed {m : ℕ} (hset : s.isSet sig = true) (ht : t ∈ s.leaving sig)
    (h : Covered max m s sig') : Covered max m (s.passed sig t) sig' := by
  by_cases hs : sig' = sig
  · subst hs
    have hsupply : supply max (s.passed sig' t) sig' = supply max s sig' := by
      cases sig' <;> rfl
    have hlen := List.length_erase_of_mem ht
    have hpos := List.length_pos_of_mem ht
    rw [Covered, hsupply]
    simp only [Covered, token, hset, if_pos] at h
    simp only [token, State.passed, Function.update_self, List.length_cons, Bool.false_eq_true,
      if_false]
    rcases h with hm | hr | hw
    · exact .inl hm
    · exact .inr (.inl (by omega))
    · exact .inr (.inr (by omega))
  · exact h.congr rfl rfl (Function.update_of_ne hs _ _) (Function.update_of_ne hs _ _) rfl
      (Function.update_of_ne hs _ _)

/-- Being about to wait and waiting count the same. -/
lemma covered_queued {m : ℕ} (ht : t ∈ s.leaving sig) (h : Covered max m s sig') :
    Covered max m (s.queued sig t) sig' := by
  by_cases hs : sig' = sig
  · subst hs
    have hsupply : supply max (s.queued sig' t) sig' = supply max s sig' := by
      cases sig' <;> rfl
    have hlen := List.length_erase_of_mem ht
    have hpos := List.length_pos_of_mem ht
    rw [Covered, hsupply]
    simp only [State.queued, Function.update_self, List.length_cons]
    rcases h with hm | hr | hw
    · exact .inl hm
    · exact .inr (.inl hr)
    · exact .inr (.inr (Nat.le_trans (by omega) hw))
  · exact h.congr rfl rfl rfl rfl (Function.update_of_ne hs _ _) (Function.update_of_ne hs _ _)

lemma placed_passed (ht : t ∈ s.leaving sig) :
    placed (s.passed sig t) sig' t = placed s sig' t := by
  have hpos := List.count_pos_iff.mpr ht
  simp only [placed, State.passed, count_update_cons_self, count_update_erase_self]
  by_cases hs : sig' = sig
  · subst hs
    rw [if_pos rfl]
    omega
  · rw [if_neg hs]
    omega

lemma placed_queued (ht : t ∈ s.leaving sig) :
    placed (s.queued sig t) sig' t = placed s sig' t := by
  have hpos := List.count_pos_iff.mpr ht
  simp only [placed, State.queued, count_update_cons_self, count_update_erase_self]
  by_cases hs : sig' = sig
  · subst hs
    rw [if_pos rfl]
    omega
  · rw [if_neg hs]
    omega

/-- Whoever is taken from the window into another list of the signal waits for it, or has been
released. -/
lemma asleep_of_window (h : Window sig t s)
    (hl : s'.leaving = Function.update s.leaving sig ((s.leaving sig).erase t))
    (hp : ∀ sig', placed s' sig' t = placed s sig' t) :
    Asleep sig t s' ∧ placed s' sig t ≤ 1 := by
  refine ⟨⟨fun sig' => ?_, fun sig' hs => (hp sig').trans (h.others sig' hs)⟩, ?_⟩
  · rw [hl, count_update_erase_self]
    by_cases hs : sig' = sig
    · rw [hs, h.leaving, if_pos rfl]
    · have h0 := h.others sig' hs
      simp only [placed] at h0
      omega
  · exact Nat.le_of_eq ((hp sig).trans h.placed)

lemma Window.mem_leaving (h : Window sig t s) : t ∈ s.leaving sig := by
  apply List.count_pos_iff.mp
  rw [h.leaving]
  exact Nat.one_pos

lemma asleep_passed (h : Window sig t s) : Asleep sig t (s.passed sig t) ∧
    placed (s.passed sig t) sig t ≤ 1 :=
  asleep_of_window h rfl fun _ => placed_passed h.mem_leaving

lemma asleep_queued (h : Window sig t s) : Asleep sig t (s.queued sig t) ∧
    placed (s.queued sig t) sig t ≤ 1 :=
  asleep_of_window h rfl fun _ => placed_queued h.mem_leaving

lemma listsOk_passed (hp : path = .event) (hI : Inv path max q₀ s) (h : Window sig t s)
    (hset : s.isSet sig = true) : ListsOk path (s.passed sig t) := by
  obtain ⟨hasleep, hplaced⟩ := asleep_passed h
  refine ⟨once_of_keepsPlace hI (fun _ hu => keepsPlace_passed hu)
    (once_of_others hasleep.others hplaced), fun sig' hw => ?_, fun hcv => ?_⟩
  · by_cases hs : sig' = sig
    · subst hs
      exact Function.update_self ..
    · simpa only [State.passed, Function.update_of_ne hs] using hI.unset sig' hw
  · rw [hp] at hcv
    cases hcv

lemma listsOk_queued (hp : path = .event) (hI : Inv path max q₀ s) (h : Window sig t s)
    (hset : s.isSet sig = false) : ListsOk path (s.queued sig t) := by
  obtain ⟨hasleep, hplaced⟩ := asleep_queued h
  refine ⟨once_of_keepsPlace hI (fun _ hu => keepsPlace_queued hu)
    (once_of_others hasleep.others hplaced), fun sig' hw => ?_, fun hcv => ?_⟩
  · by_cases hs : sig' = sig
    · subst hs
      exact hset
    · simp only [State.queued, Function.update_of_ne hs] at hw
      exact hI.unset sig' hw
  · rw [hp] at hcv
    cases hcv

lemma beginWait_atomic (hp : path = .event) : (contract path max q₀).Atomic (machine path max) t
    (Left t (Window sig t) φ i) (.beginWait sig)
    fun begun s => begun = true ∧ Left t (Asleep sig t) φ i s := by
  apply atomic_of_move
  · exact fun _ => (Contract.Stable.const _).and (stable_left stable_asleep)
  · exact fun s h => allowed_outside h.outside rfl
  intro s c begun s' hI h he hk
  have ht : t ∈ s.leaving sig := h.place.mem_leaving
  cases c with
  | ok =>
      cases hset : s.isSet sig with
      | true =>
          simp only [exec, hset, if_pos, Option.some.injEq, Prod.mk.injEq] at he
          obtain ⟨rfl, rfl⟩ := he
          change Move path max q₀ t s (s.passed sig t) ∧
            true = true ∧ Left t (Asleep sig t) φ i (s.passed sig t)
          constructor
          · exact move_outside hI ⟨fun _ _ => rfl, fun _ _ => rfl, fun _ hw => hw,
              fun _ hu => keepsPlace_passed hu⟩ (.inl rfl) rfl rfl rfl hI.observed
              (fun _ _ => covered_passed hset ht) (listsOk_passed hp hI h.place hset)
          · exact ⟨rfl, ⟨h.mine.seen, h.mine.item⟩, h.outside, (asleep_passed h.place).1⟩
      | false =>
          simp only [exec, hset, Bool.false_eq_true, if_false, Option.some.injEq,
            Prod.mk.injEq] at he
          obtain ⟨rfl, rfl⟩ := he
          change Move path max q₀ t s (s.queued sig t) ∧
            true = true ∧ Left t (Asleep sig t) φ i (s.queued sig t)
          constructor
          · exact move_outside hI ⟨fun _ _ => rfl, fun _ _ => rfl, fun _ hw => hw,
              fun _ hu => keepsPlace_queued hu⟩ (.inl rfl) rfl rfl rfl hI.observed
              (fun _ _ => covered_queued ht) (listsOk_queued hp hI h.place hset)
          · exact ⟨rfl, ⟨h.mine.seen, h.mine.item⟩, h.outside, (asleep_queued h.place).1⟩
  | failed =>
      cases he
      exact absurd List.mem_cons_self (hk hp t)
  | _ => cases he

lemma endWait_atomic {ms : Milliseconds} : (contract path max q₀).Atomic (machine path max) t
    (Left t (Asleep sig t) φ i) (.endWait sig ms)
    fun r s => Left t (Woken sig r t) φ i s ∧ (r = .timeout → (t, .timeout) ∈ s.waits) := by
  apply atomic_of_move
  · exact fun r => (stable_left stable_woken).and fun s s' hI hI' hR h hr =>
      stable_waits s s' hI hI' hR (h hr)
  · exact fun s h => allowed_outside h.outside rfl
  intro s c r s' hI h he _
  cases c with
  | ok =>
      simp only [exec] at he
      split at he
      · rename_i ht
        cases he
        exact ⟨move_refl hI, ⟨h.mine, h.outside,
          woken_of_released hI.listsOk h.place ht (by decide)⟩, WaitResult.noConfusion⟩
      · cases he
  | timeout =>
      simp only [exec] at he
      split at he
      · rename_i ht
        cases he
        obtain ⟨-, hleft⟩ := giveUp_move hI h ht.1
        have hplace : ∀ u, u ≠ t → KeepsPlace u s (s.giveUp sig t) := fun u hu =>
          keepsPlace_giveUp hu
        have hlists : ListsOk path (s.giveUp sig t) := listsOk_giveUp hI.listsOk
        have hwoken : Left t (Woken sig .timeout t) φ i (s.giveUp sig t) := hleft.woken
        constructor
        · exact move_outside hI ⟨fun _ _ => rfl, fun _ _ => rfl, fun _ => List.mem_cons_of_mem _,
            fun u hu => ⟨(hplace u hu).placed, (hplace u hu).waiting, (hplace u hu).leaving⟩⟩
            (.inl rfl) rfl rfl rfl hI.observed (fun _ _ => covered_giveUp)
            ⟨hlists.once, hlists.unset, hlists.conditionVariable⟩
        · exact ⟨⟨⟨hwoken.mine.seen, hwoken.mine.item⟩, hwoken.outside, hwoken.place⟩,
            fun _ => List.mem_cons_self⟩
      · cases he
  | _ => cases he

end Alpl.Containers
