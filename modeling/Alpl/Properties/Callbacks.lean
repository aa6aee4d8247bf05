import Alpl.Client.Functions
import Alpl.Handler.Runs

/-!
# Callbacks the user leaves unset

All four callbacks are meant to be optional.  The connection tests each of its own before it
calls it; `disconnect` calls the handler's `onDisconnected` without a test, and it does so while it
owns `locker_`.  So a server needs `onDisconnected`, and nothing else; a client never comes to that
call.
-/

namespace Alpl.Net

open Interleaving

/-- Nobody has called an empty callback, and `locker_` is free of every `disconnect` that control
has left, by a return or by an exception. -/
structure CallbacksOptional (G : Config Action Action.Res State Tid Label) : Prop where
  noEmptyCall : ∀ t k, .emptyCall t k ∉ G.state.history
  returning : ∀ t c rc k, G.threads t = .running (.act (.leave (.disconnect c) rc) k) →
    G.state.locker.heldBy t = 0
  gone : ∀ t, (G.threads t).isRunning = false → G.state.locker.heldBy t = 0

/-- What remains to be shown once no empty callback is called. -/
lemma callbacksOptional_of {role : Role} {u : Setup}
    {G : Config Action Action.Res State Tid Label} (hG : Reachable role u G)
    (hempty : ∀ t k, .emptyCall t k ∉ G.state.history) (hdead : ∀ t, G.threads t ≠ .dead) :
    CallbacksOptional G where
  noEmptyCall := hempty
  returning t c rc k hx := (hG.handler.allowed hx).1
  gone t hx := by
    have hok := hG.handler.threads t
    cases hc : G.threads t with
    | idle =>
        rw [hc] at hok
        exact hok.held
    | running p =>
        rw [hc] at hx
        cases hx
    | dead => exact absurd hc (hdead t)

lemma callbacksOptional_of_set {role : Role} {u : Setup}
    {G : Config Action Action.Res State Tid Label} (hG : Reachable role u G)
    (hu : u.handlers.onDisconnected = true) : CallbacksOptional G := by
  have hset : G.state.handlers.onDisconnected = true := hG.setUp.handlers ▸ hu
  refine callbacksOptional_of hG (fun t k hk => ?_) fun t hx => ?_
  · exact Bool.noConfusion (hset.symm.trans (hG.handler.ok.inv.emptyCall t k hk).2)
  · have hdied := hG.handler.threads t
    rw [hx] at hdied
    exact Bool.noConfusion (hset.symm.trans hdied)

lemma callbacksOptional_of_client {u : Setup} {G : Config Action Action.Res State Tid Label}
    (hG : Reachable .client u G) : CallbacksOptional G := by
  refine callbacksOptional_of hG hG.client.ok.inv.emptyCall fun t hx => ?_
  have hdied := hG.client.threads t
  rw [hx] at hdied
  exact hdied

/-- A connection breaks on a server without `onDisconnected`: the worker dies of the exception and
takes `locker_` with it. -/
lemma emptyCall_of_break (a b c : Bool) : ∃ G,
    Reachable .server ⟨⟨a, b, c, false⟩, 2, Nat.two_pos⟩ G ∧
      .emptyCall (.worker 0) .onDisconnected ∈ G.state.history ∧
      (G.threads (.worker 0)).isRunning = false ∧ G.state.locker.heldBy (.worker 0) = 1 := by
  have hrun : ((machine .server).run (serverInit ⟨⟨a, b, c, false⟩, 2, Nat.two_pos⟩)
      (startMoves ++ acceptMoves 1 102 ++
        .env (.abort ⟨.recv, 1, 1, maxBuffSize⟩) :: steps (.worker 0) (List.replicate 15 .ok))).any
        (fun G => .emptyCall (.worker 0) .onDisconnected ∈ G.state.history ∧
          (G.threads (.worker 0)).isRunning = false ∧
          G.state.locker.heldBy (.worker 0) = 1) = true := by
    cases a <;> cases b <;> cases c <;> decide +kernel
  obtain ⟨G, hG, hφ⟩ := reachable_of_run .server _ hrun
  exact ⟨G, hG, of_decide_eq_true hφ⟩

/-- **The callbacks are optional exactly if the owner is a client or `onDisconnected` is set.** -/
theorem callbacks_optional_iff (role : Role) (handlers : Handlers) :
    (∀ u G, u.handlers = handlers → Reachable role u G → CallbacksOptional G) ↔
      role = .client ∨ handlers.onDisconnected = true := by
  constructor
  · intro h
    cases role with
    | client => exact .inl rfl
    | server =>
        refine .inr ?_
        by_contra hunset
        obtain ⟨a, b, c, d⟩ := handlers
        obtain rfl : d = false := by simpa using hunset
        obtain ⟨G, hG, hmem, -⟩ := emptyCall_of_break a b c
        exact (h _ G rfl hG).noEmptyCall _ _ hmem
  · rintro (rfl | hset) u G rfl hG
    · exact callbacksOptional_of_client hG
    · exact callbacksOptional_of_set hG hset

/-- A server with two workers and no callback at all. -/
def bareServer : Setup := ⟨Handlers.none, 2, Nat.two_pos⟩

theorem callbacks_not_optional : ¬ ∀ G, Reachable .server bareServer G → CallbacksOptional G := by
  intro h
  obtain ⟨G, hG, hmem, -⟩ := emptyCall_of_break false false false
  exact (h G hG).noEmptyCall _ _ hmem

end Alpl.Net
