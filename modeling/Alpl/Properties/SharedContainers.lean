import Alpl.Handler.Runs
import Alpl.Interleaving.Intervals

/-!
# Two workers in one container

`connections_` and `socket_contexts_` are shared by all workers.  Only `disconnect` works on them
inside `locker_`; `handle_accept`, `handle_new_connection` and `handle_receive` do not.  So as soon
as there are two workers, one can be inside an insertion while the other is inside a look-up in the
same container.

An operation on a container takes time here (`Machine.intervals`): a worker is inside it from its
begin to its end.
-/

namespace Alpl.Net

open Interleaving

/-- The two containers. -/
inductive Container
  | connections
  | socketContexts
  deriving DecidableEq, Repr

/-- The container that an action is an operation on. -/
def Action.container : Action → Option Container
  | .countConnection _ => some .connections
  | .indexConnection _ => some .connections
  | .assignConnection _ _ => some .connections
  | .eraseConnection _ => some .connections
  | .pushFrontContext _ => some .socketContexts
  | .removeContext _ => some .socketContexts
  | _ => none

/-- The operations that change a container.  `operator[]` does where the key is missing. -/
def Action.changes : Action → Bool
  | .indexConnection _ => true
  | .assignConnection _ _ => true
  | .eraseConnection _ => true
  | .pushFrontContext _ => true
  | .removeContext _ => true
  | _ => false

def Action.onContainer (a : Action) : Bool := a.container.isSome

/-- A server whose operations on the containers take time. -/
def timedServer :
    Machine (Interval Action) (Interval.Res Action.Res) State Tid Label Outcome OsEvent :=
  (machine .server).intervals Action.onContainer

/-- The beginning of a run of it. -/
def timedInit (u : Setup) : Config (Interval Action) (Interval.Res Action.Res) State Tid Label :=
  (serverInit u).intervals Action.onContainer

/-- No worker is inside an operation that changes a container while another worker is inside an
operation on the same container. -/
def MutuallyExclusive (G : Config (Interval Action) (Interval.Res Action.Res) State Tid Label) :
    Prop :=
  ∀ i j a b x, i ≠ j → (G.threads (.worker i)).inside Action.onContainer = some a →
    (G.threads (.worker j)).inside Action.onContainer = some b → a.container = some x →
      b.container = some x → a.changes = false

/-- One connection is made, and gets a byte.  Worker 1 takes the byte and begins to look the
connection up; worker 0 takes the next connection and begins to enter it. -/
def overlapMoves : List (Event Tid Label Outcome OsEvent) :=
  startMoves ++ .env (.complete ⟨.accept 1, 0, 0, acceptReceiveLength⟩ []) ::
    steps (.worker 0) (List.replicate 30 .ok ++
      [.pending, .ok, .ok, .ok, .socket 102, .ok, .ok, .ok, .ok, .pending, .ok, .ok]) ++
    .env (.complete ⟨.recv, 1, 1, maxBuffSize⟩ [7]) :: steps (.worker 1) (List.replicate 8 .ok) ++
    .env (.complete ⟨.accept 2, 0, 0, acceptReceiveLength⟩ []) ::
      steps (.worker 0) (List.replicate 27 .ok)

set_option maxRecDepth 10000 in
/-- It comes to this whatever callbacks are set, with two workers or more. -/
lemma overlap (hs : Handlers) (n : ℕ) (hn : 0 < n + 2) :
    ∃ G, timedServer.Reaches (timedInit ⟨hs, n + 2, hn⟩) G ∧
      (G.threads (.worker 1)).inside Action.onContainer = some (.countConnection 101) ∧
      (G.threads (.worker 0)).inside Action.onContainer = some (.assignConnection 102 1) := by
  have hrun : (timedServer.run (timedInit ⟨hs, n + 2, hn⟩) overlapMoves).any (fun G =>
      (G.threads (.worker 1)).inside Action.onContainer = some (.countConnection 101) ∧
      (G.threads (.worker 0)).inside Action.onContainer = some (.assignConnection 102 1)) =
        true := by
    obtain ⟨a, b, c, d⟩ := hs
    rfl
  obtain ⟨G, hG, hφ⟩ := (Option.any_eq_true _ _).mp hrun
  exact ⟨G, ⟨_, hG⟩, of_decide_eq_true hφ⟩

/-- **The workers exclude each other from the containers exactly if there is only one.** -/
theorem mutually_exclusive_iff (u : Setup) :
    (∀ G, timedServer.Reaches (timedInit u) G → MutuallyExclusive G) ↔ u.workers = 1 := by
  constructor
  · intro h
    by_contra hne
    obtain ⟨hs, workers, hpos⟩ := u
    obtain ⟨n, rfl⟩ : ∃ n, workers = n + 2 := ⟨workers - 2, by simp only at hne; omega⟩
    obtain ⟨G, hG, hlook, henter⟩ := overlap hs n hpos
    exact nomatch h G hG 0 1 _ _ _ (by decide) henter hlook rfl rfl
  · intro hu G hr i j a b x hij ha hb
    obtain ⟨G₁, hr₁, herase⟩ := Machine.erases_of_reaches (Config.erases_intervals _) hr
    have hidle : ∀ k, k ≠ 0 → G₁.threads (.worker k) = .idle := fun k hk =>
      idle_of_le (u := u) ⟨_, .server, hr₁⟩ (by omega)
    have hbusy : ∀ k d, (G.threads (.worker k)).inside Action.onContainer = some d → k = 0 := by
      intro k d hd
      by_contra hk
      have hnext := (herase.threads (.worker k)).next_of_inside hd
      rw [hidle k hk] at hnext
      cases hnext
    exact absurd ((hbusy i a ha).trans (hbusy j b hb).symm) hij

/-- Two workers are inside `connections_` at once, and one of them changes it. -/
theorem connections_shared : ¬ ∀ G, timedServer.Reaches (timedInit fullServer) G →
    MutuallyExclusive G := by
  intro h
  obtain ⟨G, hG, hlook, henter⟩ := overlap ⟨true, true, true, true⟩ 0 Nat.two_pos
  exact nomatch h G hG 0 1 _ _ _ (by decide) henter hlook rfl rfl

end Alpl.Net
