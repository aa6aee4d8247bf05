import Alpl.Interleaving.Machine

/-!
# Refinement

What a machine is for is said by an *abstract model*: a transition system whose steps show an event
to the outside, or nothing.  A machine simulates it (`Simulates`) if there is a relation between the
states of the two that every move keeps, where the model stands still or makes one step that shows
what the move shows.  Then whatever a run of the machine shows, a run of the model shows as well,
and ends in a state that stands for the machine's (`Simulates.sound`).  What is proved of the runs
of the model by its own run rule (`Model.Run.invariant`) holds of the machine.
-/

namespace Interleaving

variable {A : Type} {R : A → Type} {S T L C E B O : Type}

/-! ## Abstract models -/

/-- The steps of an abstract model: from a state, what the step shows, to a state. -/
abbrev Model (B O : Type) := B → Option O → B → Prop

namespace Model

variable {N : Model B O} {b b' : B} {os : List O}

/-- A run of the model from `b`, with what it has shown, the newest first. -/
inductive Run (N : Model B O) (b : B) : List O → B → Prop
  | nil : Run N b [] b
  | step {os : List O} {b₁ b₂ : B} {o : Option O} :
      Run N b os b₁ → N b₁ o b₂ → Run N b (o.toList ++ os) b₂

/-- **The run rule of a model.**  What every step keeps, of what was shown and the state, holds
along every run. -/
theorem Run.invariant {J : List O → B → Prop}
    (hstep : ∀ os b₁ o b₂, N b₁ o b₂ → J os b₁ → J (o.toList ++ os) b₂)
    (h : N.Run b os b') (h0 : J [] b) : J os b' := by
  induction h with
  | nil => exact h0
  | step _ hN ih => exact hstep _ _ _ _ hN ih

end Model

/-! ## Simulation -/

/-- The model stands still while a move from a state for which `b` stands leads to `s'`, or it makes
a step that shows what the move shows. -/
def Matched (N : Model B O) (shown : S → List O) (Rep : S → B → Prop) (s : S) (b : B) (s' : S) :
    Prop :=
  (shown s' = shown s ∧ Rep s' b) ∨
    ∃ o b', N b o b' ∧ shown s' = o.toList ++ shown s ∧ Rep s' b'

/-- Every move from a configuration with `K` is matched by the model. -/
structure Simulates [DecidableEq T] (M : Machine A R S T L C E) (N : Model B O)
    (shown : S → List O) (K : Config A R S T L → Prop) (Rep : S → B → Prop) : Prop where
  act : ∀ G t a k c r s' b, K G → G.threads t = .running (.act a k) →
    M.exec t a c G.state = some (r, s') → Rep G.state b → Matched N shown Rep G.state b s'
  env : ∀ G e s' b, K G → M.env e G.state = some s' → Rep G.state b →
    Matched N shown Rep G.state b s'
  enter : ∀ G t l s' b, K G → M.enter t l G.state = some s' → Rep G.state b →
    Matched N shown Rep G.state b s'

namespace Simulates

variable [DecidableEq T] {M : Machine A R S T L C E} {N : Model B O} {shown : S → List O}
variable {K : Config A R S T L → Prop} {Rep : S → B → Prop} {G G' : Config A R S T L} {b₀ b : B}

omit [DecidableEq T] in
/-- A matched move prolongs the run of the model. -/
lemma run_of_matched {s s' : S} (hm : Matched N shown Rep s b s') (hrun : N.Run b₀ (shown s) b) :
    ∃ b', N.Run b₀ (shown s') b' ∧ Rep s' b' := by
  rcases hm with ⟨hshown, hrep⟩ | ⟨o, b', hN, hshown, hrep⟩
  · exact ⟨b, by rwa [hshown], hrep⟩
  · exact ⟨b', by rw [hshown]; exact hrun.step hN, hrep⟩

/-- **Soundness.**  What a run of the machine shows, a run of the model shows. -/
theorem sound (h : Simulates M N shown K Rep) (hk : ∀ G', M.Reaches G G' → K G')
    (hr : M.Reaches G G') (hrun : N.Run b₀ (shown G.state) b) (hrep : Rep G.state b) :
    ∃ b', N.Run b₀ (shown G'.state) b' ∧ Rep G'.state b' := by
  refine Machine.run_state (I := fun s => ∃ b', N.Run b₀ (shown s) b' ∧ Rep s b') ?_ ?_ ?_ hk hr
    ⟨b, hrun, hrep⟩
  · rintro G₁ t l s' hK hs' ⟨b₁, hrun₁, hrep₁⟩
    exact run_of_matched (h.enter G₁ t l s' b₁ hK hs' hrep₁) hrun₁
  · rintro G₁ t a k c r s' hK hx hs' ⟨b₁, hrun₁, hrep₁⟩
    exact run_of_matched (h.act G₁ t a k c r s' b₁ hK hx hs' hrep₁) hrun₁
  · rintro G₁ e s' hK hs' ⟨b₁, hrun₁, hrep₁⟩
    exact run_of_matched (h.env G₁ e s' b₁ hK hs' hrep₁) hrun₁

end Simulates

end Interleaving
