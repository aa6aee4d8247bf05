import Alpl.Containers.Functions

/-!
# What a queue hands out

Against a bounded queue that holds what `q_` held at first, every history of a `blocking_queue` is
linearizable: `queue_linearizable`.  The constructor, however, does not make `q_` empty.
`std::deque<T>(max_size)` holds `max_size` default-constructed elements, and these are handed out
before anything that was pushed.  So the queue is first-in-first-out from its construction on just
as long as nobody can tell the difference: `fifo_iff`.
-/

namespace Alpl.Containers

open Interleaving

variable {T : Type} {path : Path} {max : ℕ} {q₀ : List T}
variable {G : Config (Action T) Action.Res (State T) Tid (Label T)}

/-! ## Linearizability -/

/-- **The calls of the queue take effect one at a time**, whatever it held at first, whatever the
threads do and however their waits end. -/
theorem queue_linearizable (h : Reachable .conditionVariable max q₀ G) (hq₀ : q₀.length ≤ max) :
    Linearizable (boundedQueue max) q₀ G.state.history G.state.q ∧ G.state.q.length ≤ max ∧
      q₀ ++ G.state.pushed = G.state.popped ++ G.state.q := by
  have hG := reachable_good h hq₀ nofun
  refine ⟨?_, ?_, ?_⟩
  · exact hG.ok.inv.observed.linearizable
  · exact hG.ok.inv.length
  · exact hG.ok.inv.fifo

/-- A pop finds the queue empty and sleeps; a push that begins later ends first, and the pop gets
its item. -/
theorem queue_linearizable_overlap : ∃ G, Reachable .conditionVariable 1 ([] : List ℕ) G ∧
    G.state.history = [.ret 0 ⟨true, some 8⟩, .ret 1 ⟨true, none⟩, .call 1 (.push 8),
      .call 0 .pop] ∧
    Linearizable (boundedQueue 1) [] G.state.history G.state.q := by
  obtain ⟨G, hG, hhistory⟩ : ∃ G, Reachable .conditionVariable 1 ([] : List ℕ) G ∧
      G.state.history = [.ret 0 ⟨true, some 8⟩, .ret 1 ⟨true, none⟩, .call 1 (.push 8),
        .call 0 .pop] :=
    reachable_of_run
      (script 0 (.tryPopFront infinite) 4 ++ script 1 (.tryPushBack 8 infinite) 4 ++
        [.step 1 (.release 0), .step 1 .ok, .step 1 .ok] ++ List.replicate 9 (.step 0 .ok))
      (fun G => G.state.history) rfl
  exact ⟨G, hG, hhistory, (queue_linearizable hG (by decide)).1⟩

/-! ## First in, first out -/

/-- What was popped is what was pushed, in the same order. -/
def State.Fifo (s : State T) : Prop := s.popped <+: s.pushed ∧ ∀ x ∈ s.popped, x ∈ s.pushed

lemma State.fifo_iff_prefix {s : State T} : s.Fifo ↔ s.popped <+: s.pushed := by
  constructor
  · exact fun h => h.1
  · exact fun h => ⟨h, fun _ hx => h.subset hx⟩

/-- A list that goes on as it began, after some copies of `d`, is made of `d` only. -/
lemma eq_replicate_of_prefix {xs : List T} {m : ℕ} {d : T} (hm : 0 < m)
    (h : xs <+: List.replicate m d ++ xs) : xs = List.replicate xs.length d := by
  have hget : ∀ i (hi : i < xs.length), xs[i] = d := by
    intro i
    induction i using Nat.strongRecOn with
    | _ i ih =>
        intro hi
        rw [h.getElem hi]
        by_cases him : i < m
        · rw [List.getElem_append_left (by simpa using him), List.getElem_replicate]
        · rw [List.getElem_append_right (by simpa using him)]
          exact ih _ (by simp; omega) _
  apply List.eq_replicate_iff.mpr
  refine ⟨rfl, fun x hx => ?_⟩
  obtain ⟨i, hi, rfl⟩ := List.mem_iff_getElem.mp hx
  exact hget i hi

/-- Handed out after `m` copies of `d`, the pushed items seem to come in order if and only if the
first of them are copies of `d` as well. -/
lemma prefix_iff_replicate {pushed popped rest : List T} {m : ℕ} {d : T} (hm : 0 < m)
    (h : List.replicate m d ++ pushed = popped ++ rest) :
    popped <+: pushed ↔ pushed.take popped.length = List.replicate popped.length d := by
  constructor
  · intro hprefix
    have hpopped : popped <+: List.replicate m d ++ popped := by
      have hlong : List.replicate m d ++ popped <+: List.replicate m d ++ pushed :=
        (List.prefix_append_right_inj _).mpr hprefix
      have hshort : popped <+: List.replicate m d ++ pushed := h ▸ List.prefix_append popped rest
      exact List.prefix_of_prefix_length_le hshort hlong (by simp)
    rw [← List.prefix_iff_eq_take.mp hprefix]
    exact eq_replicate_of_prefix hm hpopped
  · intro htake
    have hpopped : popped = (List.replicate m d ++ pushed).take popped.length := by
      rw [h, List.take_left']
      rfl
    have hsame : (List.replicate m d ++ pushed).take popped.length =
        pushed.take popped.length := by
      have hle := congrArg List.length htake
      simp only [List.length_take, List.length_replicate] at hle
      rw [htake, List.take_append, List.take_replicate, List.length_replicate]
      have hrest : pushed.take (popped.length - m) = List.replicate (popped.length - m) d := by
        have htt := congrArg (List.take (popped.length - m)) htake
        rwa [List.take_take, List.take_replicate, Nat.min_eq_left (Nat.sub_le _ _)] at htt
      rw [hrest, ← List.replicate_add]
      congr 1
      omega
    rw [hpopped, hsame]
    exact List.take_prefix _ _

/-- **A new queue is first-in-first-out if and only if the items that were popped so far number no
more than those that were pushed, and as many pushed items, the first ones, equal `T()`.**  With
events no wait may have failed.  A wait may time out: the thread then leaves a critical section that
it does not own, for which Windows documents no result, and it makes no further move here. -/
theorem fifo_iff [Inhabited T] (h : Reachable path max (constructed max) G) (hmax : 1 ≤ max)
    (hk : path = .event → ∀ t, (t, .failed) ∉ G.state.waits) :
    G.state.Fifo ↔ G.state.pushed.take G.state.popped.length =
      List.replicate G.state.popped.length default := by
  have hG := reachable_good h (by simp [constructed]) hk
  rw [State.fifo_iff_prefix]
  exact prefix_iff_replicate hmax hG.ok.inv.fifo

/-- An item that equals `T()` is pushed, after the one the constructor has put there was popped. -/
theorem fifo_iff_default : ∃ G, Reachable .conditionVariable 1 (constructed 1) G ∧
    G.state.popped = [0] ∧ G.state.Fifo := by
  obtain ⟨G, hG, hx⟩ : ∃ G, Reachable .conditionVariable 1 (constructed 1) G ∧
      (G.state.popped, G.state.pushed) = ([0], [0]) :=
    reachable_of_run (script 0 (.tryPopFront 0) 9 ++ script 1 (.tryPushBack 0 0) 7)
      (fun G => (G.state.popped, G.state.pushed)) rfl
  simp only [Prod.mk.injEq] at hx
  obtain ⟨hpopped, hpushed⟩ := hx
  refine ⟨G, hG, hpopped, (fifo_iff hG (by decide) nofun).mpr ?_⟩
  rw [hpopped, hpushed]
  rfl

/-- The first thing that a new queue hands out was not pushed by anybody. -/
theorem fifo_violated : ∃ G, Reachable .conditionVariable 1 (constructed 1) G ∧
    G.state.history = [.ret 0 ⟨true, some 0⟩, .call 0 .pop] ∧ ¬ G.state.Fifo := by
  obtain ⟨G, hG, hx⟩ : ∃ G, Reachable .conditionVariable 1 (constructed 1) G ∧
      (G.state.history, G.state.popped, G.state.pushed) =
        ([.ret 0 ⟨true, some 0⟩, .call 0 .pop], [0], []) :=
    reachable_of_run (script 0 (.tryPopFront 0) 9)
      (fun G => (G.state.history, G.state.popped, G.state.pushed)) rfl
  simp only [Prod.mk.injEq] at hx
  obtain ⟨hhistory, hpopped, hpushed⟩ := hx
  refine ⟨G, hG, hhistory, fun hfifo => ?_⟩
  have hle := hfifo.1.length_le
  rw [hpopped, hpushed] at hle
  exact absurd hle (by decide)

end Alpl.Containers
