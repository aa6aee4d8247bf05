import Alpl.Interleaving.Typestate
import Mathlib.Algebra.BigOperators.Group.Finset.Piecewise
import Mathlib.Algebra.GroupWithZero.Nat

/-!
# Runs that come to rest

A system comes to rest if its threads cannot go on for ever by themselves: when no thread enters a
piece of code and the environment does not move, a run ends after finitely many steps.  To show it,
automata and state are given a *potential* that every action lowers, unless its outcome brings
something in (`Typestate.Amortised`): the length of a run is then bounded by the potential at its
beginning and what it is given on the way.  Often the potential is the sum of the credits of the
threads, the states of an automaton with values in `ℕ`, and a price of the state (`Typestate.Pays`).

A thread that stands inside a piece of code has a next action, provided that no piece of code is
empty (`Machine.next_of_running`).
-/

namespace Interleaving

variable {A : Type} {R : A → Type} {S T L C E Q : Type}

/-- The event is a step of a thread inside its code. -/
def Event.isStep : Event T L C E → Bool
  | .step _ _ => true
  | _ => false

/-- What an event brings in, if an outcome brings in `gift`. -/
def Event.gift (gift : C → ℕ) : Event T L C E → ℕ
  | .step _ c => gift c
  | _ => 0

/-- Only threads of `F` are inside a piece of code. -/
def Config.RunsIn (G : Config A R S T L) (F : Finset T) : Prop :=
  ∀ t, (G.threads t).next ≠ none → t ∈ F

/-- A thread with a next action is inside a piece of code. -/
lemma Control.isRunning_of_next {x : Control A R L} (h : x.next ≠ none) : x.isRunning = true := by
  cases x <;> first | rfl | exact absurd rfl h

lemma Config.runsIn_of_running {G : Config A R S T L} {F : Finset T}
    (hF : ∀ t, t ∈ F ↔ (G.threads t).isRunning = true) : G.RunsIn F := fun t ht =>
  (hF t).mpr (Control.isRunning_of_next ht)

namespace Machine

variable {M : Machine A R S T L C E}

lemma settle_next (hM : ∀ l, ∃ a k, M.code l = .act a k) {x : Prog A R (Option L)}
    {p : Prog A R (Option L)} (h : M.settle x = .running p) : (M.settle x).next ≠ none := by
  cases x with
  | ret y =>
      cases y with
      | none => cases h
      | some l =>
          obtain ⟨a, k, hl⟩ := hM l
          simp [settle, hl, Control.next]
  | throw => cases h
  | act a k => exact nofun

variable [DecidableEq T] {G G' : Config A R S T L} {es : List (Event T L C E)}

/-- Where no piece of code is empty, a thread inside one has a next action. -/
theorem next_of_running (hM : ∀ l, ∃ a k, M.code l = .act a k) (hr : M.Reaches G G')
    (h0 : ∀ t p, G.threads t = .running p → (G.threads t).next ≠ none) (t : T)
    (p : Prog A R (Option L)) (hp : G'.threads t = .running p) : (G'.threads t).next ≠ none := by
  have hupdate : ∀ (H : Config A R S T L) (v : T) (x : Prog A R (Option L)),
      (∀ t p, H.threads t = .running p → (H.threads t).next ≠ none) → ∀ t p,
        Function.update H.threads v (M.settle x) t = .running p →
          (Function.update H.threads v (M.settle x) t).next ≠ none := by
    intro H v x hH t p hp
    by_cases ht : t = v
    · subst ht
      rw [Function.update_self] at hp ⊢
      exact settle_next hM hp
    · rw [Function.update_of_ne ht] at hp ⊢
      exact hH t p hp
  have hstep : ∀ H e H', M.step H e = some H' →
      (∀ t p, H.threads t = .running p → (H.threads t).next ≠ none) →
        ∀ t p, H'.threads t = .running p → (H'.threads t).next ≠ none := by
    intro H e H' he hH
    rcases step_inv he with ⟨v, l, s', -, -, -, rfl⟩ | ⟨v, c, a, k, r, s', -, -, -, rfl⟩ |
      ⟨v, s', -, -, rfl⟩
    · exact hupdate H v (M.code l) hH
    · exact hupdate H v (k r) hH
    · exact hH
  exact run_invariant hstep hr h0 t p hp

/-- A run moves finitely many threads. -/
lemma exists_runsIn (hr : M.Reaches G G') {F : Finset T} (hF : G.RunsIn F) :
    ∃ F', G'.RunsIn F' := by
  have hstep : ∀ H e H', M.step H e = some H' → (∃ F, H.RunsIn F) → ∃ F, H'.RunsIn F := by
    rintro H e H' he ⟨F, hF⟩
    have hupdate : ∀ v x, (⟨Function.update H.threads v x, H'.state⟩ :
        Config A R S T L).RunsIn (insert v F) := by
      intro v x t ht
      by_cases hv : t = v
      · exact hv ▸ Finset.mem_insert_self v F
      · simp only [Function.update_of_ne hv] at ht
        exact Finset.mem_insert_of_mem (hF t ht)
    rcases step_inv he with ⟨v, l, s', -, -, -, rfl⟩ | ⟨v, c, a, k, r, s', -, -, -, rfl⟩ |
      ⟨v, s', -, -, rfl⟩
    · exact ⟨_, hupdate v _⟩
    · exact ⟨_, hupdate v _⟩
    · exact ⟨F, hF⟩
  exact run_invariant hstep hr ⟨F, hF⟩

omit [DecidableEq T] in
lemma forall_append_singleton {P : Event T L C E → Prop} {e : Event T L C E}
    (hes : ∀ e ∈ es, P e) (he : P e) : ∀ e' ∈ es ++ [e], P e' := by
  intro e' he'
  rcases List.mem_append.mp he' with h | h
  · exact hes e' h
  · rwa [List.mem_singleton.mp h]

lemma run_append_step {e : Event T L C E} {G'' : Config A R S T L} (hrun : M.run G es = some G')
    (hstep : M.step G' e = some G'') : M.run G (es ++ [e]) = some G'' := by
  rw [run_append, hrun, Option.bind_some, run, hstep]
  rfl

/-- The threads inside a piece of code are finitely many. -/
lemma exists_running (hM : ∀ l, ∃ a k, M.code l = .act a k) (hr : M.Reaches G G')
    (h0 : ∀ t p, G.threads t = .running p → (G.threads t).next ≠ none) (F₀ : Finset T)
    (hF₀ : G.RunsIn F₀) : ∃ F : Finset T, ∀ t, t ∈ F ↔ (G'.threads t).isRunning = true := by
  obtain ⟨F, hF⟩ := exists_runsIn hr hF₀
  refine ⟨F.filter fun t => (G'.threads t).isRunning = true, fun t => ?_⟩
  rw [Finset.mem_filter, and_iff_right_iff_imp]
  intro ht
  cases hx : G'.threads t with
  | running p => exact hF t (next_of_running hM hr h0 t p hx)
  | idle => simp [hx, Control.isRunning] at ht
  | dead => simp [hx, Control.isRunning] at ht

/-- Where runs are bounded and each can be made longer until all is done, some run comes to an
end. -/
theorem exists_run_of_bounded {P : Event T L C E → Prop} {Done : Config A R S T L → Prop} {B : ℕ}
    (hbound : ∀ es G', (∀ e ∈ es, P e) → M.run G es = some G' → es.length ≤ B)
    (hmore : ∀ es G', (∀ e ∈ es, P e) → M.run G es = some G' →
      Done G' ∨ ∃ e G'', P e ∧ M.step G' e = some G'') :
    ∃ es G', (∀ e ∈ es, P e) ∧ M.run G es = some G' ∧ Done G' := by
  -- by induction on the number of steps that are left
  have hleft : ∀ k es G', (∀ e ∈ es, P e) → M.run G es = some G' → B - es.length ≤ k →
      ∃ es' G'', (∀ e ∈ es', P e) ∧ M.run G es' = some G'' ∧ Done G'' := by
    intro k
    induction k with
    | zero =>
        intro es G' hes hrun hk
        rcases hmore es G' hes hrun with hdone | ⟨e, G'', he, hstep⟩
        · exact ⟨es, G', hes, hrun, hdone⟩
        · have hlength := hbound _ _ (forall_append_singleton hes he) (run_append_step hrun hstep)
          rw [List.length_append, List.length_singleton] at hlength
          omega
    | succ k ih =>
        intro es G' hes hrun hk
        rcases hmore es G' hes hrun with hdone | ⟨e, G'', he, hstep⟩
        · exact ⟨es, G', hes, hrun, hdone⟩
        · refine ih _ G'' (forall_append_singleton hes he) (run_append_step hrun hstep) ?_
          rw [List.length_append, List.length_singleton]
          omega
  exact hleft B [] G (fun _ h => absurd h List.not_mem_nil) rfl (Nat.sub_le _ _)

end Machine

namespace Typestate

/-- The steps of the threads in `F` are paid for: each costs more of the potential of automata and
state than it leaves behind, but for the gift that its outcome brings. -/
structure Amortised (D : Typestate A R L Q) [DecidableEq T] (M : Machine A R S T L C E)
    (K : Config A R S T L → Prop) (F : Finset T) (gift : C → ℕ) (potential : (T → Q) → S → ℕ) :
    Prop where
  code : ∀ l, D.Follows (M.code l) (D.entry l) D.Ends
  act : ∀ G t a k c r s' σ, K G → K ⟨Function.update G.threads t (M.settle (k r)), s'⟩ → t ∈ F →
    G.threads t = .running (.act a k) → D.allowed (σ t) a → M.exec t a c G.state = some (r, s') →
    potential (Function.update σ t (D.next (σ t) a r)) s' + 1 ≤ potential σ G.state + gift c

variable {D : Typestate A R L Q} [DecidableEq T] {M : Machine A R S T L C E}
variable {K : Config A R S T L → Prop} {gift : C → ℕ} {potential : (T → Q) → S → ℕ}
variable {G G' : Config A R S T L} {σ : T → Q} {F : Finset T} {es : List (Event T L C E)}

/-- **A run of steps alone is no longer than what is there at its beginning, and what it is
given.** -/
theorem Amortised.length_le (hD : D.Amortised M K F gift potential)
    (hk : ∀ G', M.Reaches G G' → K G') (hF : G.RunsIn F)
    (hσ : ∀ t, D.OnTrack (G.threads t) (σ t)) (hes : ∀ e ∈ es, e.isStep = true)
    (hrun : M.run G es = some G') :
    es.length ≤ potential σ G.state + (es.map (Event.gift gift)).sum := by
  induction es generalizing G σ with
  | nil => exact Nat.zero_le _
  | cons e es ih =>
      obtain ⟨G₁, he, hrun'⟩ := Option.bind_eq_some_iff.mp hrun
      have hreach : M.Reaches G G₁ := .step he
      have hstep := hes e List.mem_cons_self
      rcases Machine.step_inv he with ⟨t, l, s', rfl, -, -, -⟩ |
        ⟨t, c, a, k, r, s', rfl, hx, hs', rfl⟩ | ⟨v, s', rfl, -, -⟩
      · cases hstep
      · have ht := hσ t
        rw [hx] at ht
        have hmem : t ∈ F := hF t (by simp [hx, Control.next])
        have hpay := hD.act G t a k c r s' σ (hk G (.refl G)) (hk _ hreach) hmem hx ht.1 hs'
        have hle := ih (fun G'' h => hk G'' (hreach.trans h)) (fun u hu => ?_)
          (onTrack_update hσ (onTrack_settle hD.code (ht.2 r)))
          (fun e' he' => hes e' (List.mem_cons_of_mem _ he')) hrun'
        · replace hle : es.length ≤ potential _ s' + (es.map (Event.gift gift)).sum := hle
          simp only [List.length_cons, List.map_cons, List.sum_cons, Event.gift]
          omega
        · by_cases hu' : u = t
          · exact hu' ▸ hmem
          · simp only [Function.update_of_ne hu'] at hu
            exact hF u hu
      · cases hstep

/-! ## Credits -/

/-- Every action costs more than it leaves, counted in the credit of the thread and the price of
the state. -/
structure Pays (D : Typestate A R L ℕ) (M : Machine A R S T L C E)
    (K : Config A R S T L → Prop) (price : S → ℕ) : Prop where
  code : ∀ l, D.Follows (M.code l) (D.entry l) D.Ends
  act : ∀ G t a k c r s' q, K G → G.threads t = .running (.act a k) → D.allowed q a →
    M.exec t a c G.state = some (r, s') → D.next q a r + price s' + 1 ≤ q + price G.state

variable {D : Typestate A R L ℕ} {price : S → ℕ} {σ : T → ℕ}

lemma sum_update_add {t : T} (ht : t ∈ F) (q : ℕ) :
    ∑ u ∈ F, Function.update σ t q u + σ t = ∑ u ∈ F, σ u + q := by
  rw [Finset.sum_update_of_mem ht, Finset.sum_eq_add_sum_sdiff_singleton_of_mem ht σ]
  omega

lemma Pays.amortised (hD : D.Pays M K price) (F : Finset T) :
    D.Amortised M K F (fun _ => 0) fun σ s => ∑ t ∈ F, σ t + price s where
  code := hD.code
  act G t a k c r s' σ hG _ ht hx ha hs' := by
    have hpay := hD.act G t a k c r s' (σ t) hG hx ha hs'
    have hsum := sum_update_add (σ := σ) ht (D.next (σ t) a r)
    omega

/-- **A run of steps alone is no longer than what is there at its beginning.** -/
theorem Pays.length_le (hD : D.Pays M K price) (hk : ∀ G', M.Reaches G G' → K G')
    (hF : G.RunsIn F) (hσ : ∀ t, D.OnTrack (G.threads t) (σ t))
    (hes : ∀ e ∈ es, e.isStep = true) (hrun : M.run G es = some G') :
    es.length ≤ ∑ t ∈ F, σ t + price G.state := by
  have h := (hD.amortised F).length_le hk hF hσ hes hrun
  have hzero : (es.map (Event.gift fun _ => 0)).sum = 0 := by
    refine List.sum_eq_zero fun n hn => ?_
    obtain ⟨e, -, rfl⟩ := List.mem_map.mp hn
    cases e <;> rfl
  omega

end Typestate

end Interleaving
