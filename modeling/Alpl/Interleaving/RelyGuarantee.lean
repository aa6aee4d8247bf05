import Alpl.Interleaving.Machine
import Mathlib.Tactic.Choose

/-!
# Rely and guarantee

The proof rules for programs that interleave.  A `Contract` names what is shared and what each
thread may count on:

* `Known`, facts about every reachable state that another contract has established;
* `Inv`, the invariant of the shared state, true between any two moves;
* `Rely t`, what the moves of everybody else may do to the state as thread `t` sees it;
* `Guar m`, what every move of `m` does, where `m` is a thread or the environment;
* `Allowed t a`, what has to hold when thread `t` is about to perform `a`;
* assertions for a thread between two pieces of code (`Idle`), at the start of a piece of code
  (`Entry`) and after an exception has left it (`Died`).

`Safe K t P p Q` is the triple for one thread: started in `P`, the program `p` keeps its own
side of the contract at every action and returns in `Q`.  Between two of its actions it may
only assert what is *stable*, that is, what survives the moves of the others.  `Holds.sound`
puts the threads together: if every piece of code is safe, every reachable configuration
satisfies the invariant and every pending action is allowed.  Contracts can be stacked: what one
of them proves of all reachable states, the next one takes as known.
-/

namespace Interleaving

variable {A : Type} {R : A → Type} {S T L C E : Type}

/-- The assertions of a rely-guarantee proof. -/
structure Contract (S T L A : Type) where
  Known : S → Prop
  Inv : S → Prop
  Rely : T → S → S → Prop
  Guar : Option T → S → S → Prop
  Allowed : T → A → S → Prop
  Idle : T → S → Prop
  Entry : T → L → S → Prop
  Died : T → S → Prop

namespace Contract

variable (K : Contract S T L A) (M : Machine A R S T L C E) (t : T)
variable {α β : Type}

/-- What holds between any two moves. -/
structure Ok (s : S) : Prop where
  known : K.Known s
  inv : K.Inv s

/-- `P` survives whatever the others do. -/
def Stable (P : S → Prop) : Prop := ∀ s s', K.Ok s → K.Ok s' → K.Rely t s s' → P s → P s'

/-- A move of `m` from `s` to `s'` that keeps the invariant and every other thread's rely. -/
structure Guarantee (m : Option T) (s s' : S) : Prop where
  inv : K.Inv s'
  rely : ∀ u, m ≠ some u → K.Rely u s s'
  guar : K.Guar m s s'

/-- From `P`, action `a` is allowed, keeps the contract, and leads to `N r` on answer `r`. -/
structure Atomic (P : S → Prop) (a : A) (N : R a → S → Prop) : Prop where
  stable : ∀ r, K.Stable t (N r)
  allowed : ∀ s, K.Ok s → P s → K.Allowed t a s
  step : ∀ s c r s', K.Ok s → P s → M.exec t a c s = some (r, s') → K.Known s' →
    K.Guarantee (some t) s s' ∧ N r s'

/-- From `P`, thread `t` runs `p` within the contract and returns in `Q`. -/
def Safe : Prog A R α → (S → Prop) → (α → S → Prop) → Prop
  | .ret x, P, Q => ∀ s, K.Ok s → P s → Q x s
  | .throw, P, _ => ∀ s, K.Ok s → P s → K.Died t s
  | .act a k, P, Q => ∃ N : R a → S → Prop,
      K.Atomic M t P a N ∧ ∀ r, Safe (k r) (N r) Q

variable {K M t}

/-! ## The stable assertions -/

lemma Stable.and {P Q : S → Prop} (hP : K.Stable t P) (hQ : K.Stable t Q) :
    K.Stable t fun s => P s ∧ Q s :=
  fun s s' hI hI' hR h => ⟨hP s s' hI hI' hR h.1, hQ s s' hI hI' hR h.2⟩

lemma Stable.or {P Q : S → Prop} (hP : K.Stable t P) (hQ : K.Stable t Q) :
    K.Stable t fun s => P s ∨ Q s :=
  fun s s' hI hI' hR h => h.imp (hP s s' hI hI' hR) (hQ s s' hI hI' hR)

lemma Stable.exists {ι : Type} {P : ι → S → Prop} (hP : ∀ i, K.Stable t (P i)) :
    K.Stable t fun s => ∃ i, P i s :=
  fun s s' hI hI' hR ⟨i, h⟩ => ⟨i, hP i s s' hI hI' hR h⟩

lemma Stable.const (φ : Prop) : K.Stable t fun _ => φ := fun _ _ _ _ _ h => h

/-! ## The rules of the triple -/

/-- Weaken the precondition, with the invariant at hand. -/
lemma Safe.pre {p : Prog A R α} {P N : S → Prop} {Q : α → S → Prop}
    (hp : K.Safe M t p N Q) (h : ∀ s, K.Ok s → P s → N s) : K.Safe M t p P Q := by
  cases p with
  | ret x => exact fun s hI hP => hp s hI (h s hI hP)
  | throw => exact fun s hI hP => hp s hI (h s hI hP)
  | act a k =>
      obtain ⟨M', hN, hk⟩ := hp
      exact ⟨M', ⟨hN.stable, fun s hI hP => hN.allowed s hI (h s hI hP),
        fun s c r s' hI hP he hk' => hN.step s c r s' hI (h s hI hP) he hk'⟩, hk⟩

/-- Weaken the postcondition. -/
lemma Safe.post {p : Prog A R α} {P : S → Prop} {Q Q' : α → S → Prop}
    (hp : K.Safe M t p P Q) (h : ∀ x s, K.Ok s → Q x s → Q' x s) : K.Safe M t p P Q' := by
  induction p generalizing P with
  | ret x => exact fun s hI hP => h x s hI (hp s hI hP)
  | throw => exact hp
  | act a k ih =>
      obtain ⟨N, hN, hk⟩ := hp
      exact ⟨N, hN, fun r => ih r (hk r)⟩

/-- Run one program after another. -/
lemma Safe.bind {p : Prog A R α} {f : α → Prog A R β} {P : S → Prop} {N : α → S → Prop}
    {Q : β → S → Prop} (hp : K.Safe M t p P N) (hf : ∀ x, K.Safe M t (f x) (N x) Q) :
    K.Safe M t (p >>= f) P Q := by
  induction p generalizing P with
  | ret x => exact (hf x).pre hp
  | throw => exact hp
  | act a k ih =>
      obtain ⟨M', hM, hk⟩ := hp
      exact ⟨M', hM, fun r => ih r (hk r)⟩

/-- The precondition may be an existential. -/
lemma Safe.exists {ι : Type} {p : Prog A R α} {P : ι → S → Prop} {Q : α → S → Prop}
    (h : ∀ i, K.Safe M t p (P i) Q) : K.Safe M t p (fun s => ∃ i, P i s) Q := by
  induction p generalizing ι with
  | ret x => exact fun s hI ⟨i, hi⟩ => h i s hI hi
  | throw => exact fun s hI ⟨i, hi⟩ => h i s hI hi
  | act a k ih =>
      choose N hN hk using h
      refine ⟨fun r s => ∃ i, N i r s, ⟨fun r => Stable.exists fun i => (hN i).stable r,
        fun s hI ⟨i, hi⟩ => (hN i).allowed s hI hi, fun s c r s' hI ⟨i, hi⟩ he hk' => ?_⟩,
        fun r => ih r fun i => hk i r⟩
      obtain ⟨hG, hr⟩ := (hN i).step s c r s' hI hi he hk'
      exact ⟨hG, i, hr⟩

/-- Split a disjunction in the precondition. -/
lemma Safe.or {p : Prog A R α} {P P' : S → Prop} {Q : α → S → Prop}
    (h : K.Safe M t p P Q) (h' : K.Safe M t p P' Q) :
    K.Safe M t p (fun s => P s ∨ P' s) Q := by
  have hb : ∀ b : Bool, K.Safe M t p (bif b then P else P') Q := by
    intro b
    cases b
    · exact h'
    · exact h
  refine (Safe.exists hb).pre fun s _ hs => ?_
  rcases hs with hs | hs
  · exact ⟨true, hs⟩
  · exact ⟨false, hs⟩

/-- Nothing is to be shown from an impossible precondition. -/
lemma Safe.vacuous (p : Prog A R α) {P : S → Prop} {Q : α → S → Prop}
    (h : ∀ s, K.Ok s → ¬ P s) : K.Safe M t p P Q := by
  have hfalse : K.Safe M t p (fun _ => False) Q := by
    induction p with
    | ret x => exact fun _ _ hs => hs.elim
    | throw => exact fun _ _ hs => hs.elim
    | act a k ih =>
        exact ⟨fun _ _ => False, ⟨fun _ _ _ _ _ _ hs => hs, fun _ _ hs => hs.elim,
          fun _ _ _ _ _ hs => hs.elim⟩, ih⟩
  exact hfalse.pre h

/-- A part of the precondition that does not speak of the state may be assumed outside. -/
lemma Safe.pure {φ : Prop} {p : Prog A R α} {P : S → Prop} {Q : α → S → Prop}
    (h : φ → K.Safe M t p P Q) : K.Safe M t p (fun s => φ ∧ P s) Q := by
  by_cases hφ : φ
  · exact (h hφ).pre fun s _ hs => hs.2
  · exact Safe.vacuous p fun s _ hs => hφ hs.1

/-- One action, then the rest. -/
lemma Safe.step {a : A} {k : R a → Prog A R α} {P : S → Prop} {Q : α → S → Prop}
    (N : R a → S → Prop) (hN : K.Atomic M t P a N) (hk : ∀ r, K.Safe M t (k r) (N r) Q) :
    K.Safe M t (Prog.perform a >>= k) P Q :=
  ⟨N, hN, hk⟩

/-- One action alone. -/
lemma Safe.perform {a : A} {P : S → Prop} {N : R a → S → Prop} (hN : K.Atomic M t P a N) :
    K.Safe M t (Prog.perform a) P N :=
  ⟨N, hN, fun _ _ _ h => h⟩

/-! ## From the triples of the threads to the runs of the machine -/

/-- What a thread has to establish where a piece of code ends. -/
def Exit (K : Contract S T L A) (t : T) : Option L → S → Prop
  | none => K.Idle t
  | some l => K.Entry t l

/-- The obligations of a rely-guarantee proof. -/
structure Holds (K : Contract S T L A) (M : Machine A R S T L C E) : Prop where
  idle_stable : ∀ t, K.Stable t (K.Idle t)
  entry_stable : ∀ t l, K.Stable t (K.Entry t l)
  died_stable : ∀ t, K.Stable t (K.Died t)
  env : ∀ e s s', K.Ok s → M.env e s = some s' → K.Known s' → K.Guarantee none s s'
  enter : ∀ t l s s', K.Ok s → K.Idle t s → M.enter t l s = some s' → K.Known s' →
    K.Guarantee (some t) s s' ∧ K.Entry t l s'
  code : ∀ t l, K.Safe M t (M.code l) (K.Entry t l) (K.Exit t)

/-- What is known of a thread that stands at a control point. -/
def ThreadOk (K : Contract S T L A) (M : Machine A R S T L C E) (t : T) :
    Control A R L → S → Prop
  | .idle, s => K.Idle t s
  | .running p, s => ∃ P, K.Stable t P ∧ P s ∧ K.Safe M t p P (K.Exit t)
  | .dead, s => K.Died t s

/-- The invariant, and every thread at a point its proof knows. -/
structure Good (K : Contract S T L A) (M : Machine A R S T L C E) (G : Config A R S T L) :
    Prop where
  ok : K.Ok G.state
  threads : ∀ t, K.ThreadOk M t (G.threads t) G.state

lemma Holds.settle (hK : K.Holds M) {p : Prog A R (Option L)} {P : S → Prop} {s : S}
    (hI : K.Ok s) (hst : K.Stable t P) (hs : P s) (hp : K.Safe M t p P (K.Exit t)) :
    K.ThreadOk M t (M.settle p) s := by
  cases p with
  | ret x =>
      cases x with
      | none => exact hp s hI hs
      | some l => exact ⟨K.Entry t l, hK.entry_stable t l, hp s hI hs, hK.code t l⟩
  | throw => exact hp s hI hs
  | act a k => exact ⟨P, hst, hs, hp⟩

lemma Holds.threadOk_rely (hK : K.Holds M) {x : Control A R L} {s s' : S} (hI : K.Ok s)
    (hI' : K.Ok s') (hR : K.Rely t s s') (h : K.ThreadOk M t x s) : K.ThreadOk M t x s' := by
  cases x with
  | idle => exact hK.idle_stable t s s' hI hI' hR h
  | running p =>
      obtain ⟨P, hst, hs, hp⟩ := h
      exact ⟨P, hst, hst s s' hI hI' hR hs, hp⟩
  | dead => exact hK.died_stable t s s' hI hI' hR h

variable [DecidableEq T]

lemma Holds.threads_update (hK : K.Holds M) {G : Config A R S T L} (hG : K.Good M G) {s' : S}
    (hk : K.Known s') (hg : K.Guarantee (some t) G.state s') {x : Control A R L}
    (hx : K.ThreadOk M t x s') : K.Good M ⟨Function.update G.threads t x, s'⟩ := by
  refine ⟨⟨hk, hg.inv⟩, fun u => ?_⟩
  by_cases hu : u = t
  · subst hu
    simpa using hx
  · simp only [Function.update_of_ne hu]
    exact hK.threadOk_rely hG.ok ⟨hk, hg.inv⟩ (hg.rely u fun h => hu (Option.some.inj h).symm)
      (hG.threads u)

/-- One move of anybody keeps the configuration good, and does what it guarantees. -/
lemma Holds.move (hK : K.Holds M) {G G' : Config A R S T L} {e : Event T L C E}
    (he : M.step G e = some G') (hk : K.Known G'.state) (hG : K.Good M G) :
    K.Good M G' ∧ K.Guar e.mover G.state G'.state := by
  rcases Machine.step_inv he with ⟨t, l, s', rfl, hx, hs', rfl⟩ |
    ⟨t, c, a, k, r, s', rfl, hx, hs', rfl⟩ | ⟨v, s', rfl, hs', rfl⟩
  · have hok := hG.threads t
    rw [hx] at hok
    obtain ⟨hg, hentry⟩ := hK.enter t l G.state s' hG.ok hok hs' hk
    exact ⟨hK.threads_update hG hk hg (hK.settle ⟨hk, hg.inv⟩ (hK.entry_stable t l) hentry
      (hK.code t l)), hg.guar⟩
  · have hok := hG.threads t
    rw [hx] at hok
    obtain ⟨P, -, hs, N, hN, hp⟩ := hok
    obtain ⟨hg, hr⟩ := hN.step G.state c r s' hG.ok hs hs' hk
    exact ⟨hK.threads_update hG hk hg
      (hK.settle ⟨hk, hg.inv⟩ (hN.stable r) hr (hp r)), hg.guar⟩
  · have hg := hK.env v G.state s' hG.ok hs' hk
    exact ⟨⟨⟨hk, hg.inv⟩, fun t => hK.threadOk_rely hG.ok ⟨hk, hg.inv⟩ (hg.rely t nofun)
      (hG.threads t)⟩, hg.guar⟩

/-- **Soundness.** Every reachable configuration keeps the contract, if what the contract takes
as known holds in all of them. -/
theorem Holds.sound (hK : K.Holds M) {G G' : Config A R S T L}
    (hk : ∀ G', M.Reaches G G' → K.Known G'.state) (hr : M.Reaches G G') (hG : K.Good M G) :
    K.Good M G' := by
  have hstep : ∀ G₁ e G₂, M.step G₁ e = some G₂ → (M.Reaches G G₁ ∧ K.Good M G₁) →
      M.Reaches G G₂ ∧ K.Good M G₂ := by
    rintro G₁ e G₂ he ⟨hr₁, hG₁⟩
    have hr₂ := hr₁.trans (Machine.Reaches.step he)
    exact ⟨hr₂, (hK.move he (hk G₂ hr₂) hG₁).1⟩
  exact (Machine.run_invariant hstep hr ⟨.refl G, hG⟩).2

/-- The same, where what is known can only be lost: then it is enough to know it at the end. -/
theorem Holds.sound_of_end (hK : K.Holds M) {G G' : Config A R S T L}
    (hback : ∀ G e G', M.step G e = some G' → K.Known G'.state → K.Known G.state)
    (hr : M.Reaches G G') (hk : K.Known G'.state) (hG : K.Good M G) : K.Good M G' := by
  have hbefore : ∀ es (G₁ : Config A R S T L), M.run G₁ es = some G' → K.Known G₁.state := by
    intro es
    induction es with
    | nil =>
        intro G₁ h
        obtain rfl : G₁ = G' := Option.some.inj h
        exact hk
    | cons e es ih =>
        intro G₁ h
        obtain ⟨G₂, h1, h2⟩ := Option.bind_eq_some_iff.mp h
        exact hback G₁ e G₂ h1 (ih G₂ h2)
  obtain ⟨es, hes⟩ := hr
  induction es generalizing G with
  | nil => obtain rfl : G = G' := Option.some.inj hes; exact hG
  | cons e es ih =>
      obtain ⟨G₁, h1, h2⟩ := Option.bind_eq_some_iff.mp hes
      exact ih (hK.move h1 (hbefore es G₁ h2) hG).1 h2

/-- What every guarantee keeps holds along every run, besides the contract. -/
theorem Holds.sound_and (hK : K.Holds M) {Q : S → Prop} {G G' : Config A R S T L}
    (hk : ∀ G', M.Reaches G G' → K.Known G'.state) (hQ : ∀ m s s', K.Guar m s s' → Q s → Q s')
    (hr : M.Reaches G G') (hG : K.Good M G) (h0 : Q G.state) : Q G'.state := by
  have hstep : ∀ G₁ e G₂, M.step G₁ e = some G₂ → (M.Reaches G G₁ ∧ Q G₁.state) →
      M.Reaches G G₂ ∧ Q G₂.state := by
    rintro G₁ e G₂ he ⟨hr₁, hq⟩
    have hr₂ := hr₁.trans (Machine.Reaches.step he)
    exact ⟨hr₂, hQ _ _ _ (hK.move he (hk G₂ hr₂) (hK.sound hk hr₁ hG)).2 hq⟩
  exact (Machine.run_invariant hstep hr ⟨.refl G, h0⟩).2

omit [DecidableEq T] in
/-- Whatever a thread is about to do, it is allowed to do. -/
lemma Good.allowed {G : Config A R S T L} (hG : K.Good M G) {a : A}
    {k : R a → Prog A R (Option L)} (hx : G.threads t = .running (.act a k)) :
    K.Allowed t a G.state := by
  have hok := hG.threads t
  rw [hx] at hok
  obtain ⟨P, -, hs, N, hN, -⟩ := hok
  exact hN.allowed G.state hG.ok hs

omit [DecidableEq T] in
lemma Good.allowed_next {G : Config A R S T L} (hG : K.Good M G) {a : A}
    (hx : (G.threads t).next = some a) : K.Allowed t a G.state := by
  obtain ⟨k, hk⟩ := Control.eq_of_next hx
  exact hG.allowed hk

omit [DecidableEq T] in
/-- What a thread does, it guarantees. -/
lemma Good.guarantee {G : Config A R S T L} (hG : K.Good M G) {a : A} {c : C} {r : R a} {s' : S}
    {k : R a → Prog A R (Option L)} (hx : G.threads t = .running (.act a k))
    (hs' : M.exec t a c G.state = some (r, s')) (hk : K.Known s') :
    K.Guarantee (some t) G.state s' := by
  have hok := hG.threads t
  rw [hx] at hok
  obtain ⟨P, -, hs, N, hN, -⟩ := hok
  exact (hN.step G.state c r s' hG.ok hs hs' hk).1

end Contract

end Interleaving
