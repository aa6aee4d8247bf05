import Alpl.Client.Functions
import Alpl.Server.Runs

/-!
# The workers stay

A worker is meant to leave its loop only when the handler stops.  The `return` in `ALPL_ASSERT`
lets it leave as well when a handler reports an error, so a failing call for one connection costs
the server a worker.  These calls are named in `Server.isWorkerFault`; without them every worker
stays, and a client never loses one.
-/

namespace Alpl.Net

open Interleaving

/-- Worker `i` has left its loop only if the handler is stopping. -/
def WorkerStays (i : ℕ) (G : Config Action Action.Res State Tid Label) : Prop :=
  (G.threads (.worker i)).isRunning = true ∨ G.state.exiting = true ∨ G.state.isRunning = false

instance (t : Tid) (s : State) : Decidable (Server.WorkerFault t s) := by
  unfold Server.WorkerFault
  infer_instance

lemma worker_stays_client {u : Setup} {G : Config Action Action.Res State Tid Label}
    (hG : Reachable .client u G) {i : ℕ} (hi : i < u.workers) : WorkerStays i G := by
  have hok := hG.client.threads (.worker i)
  cases hx : G.threads (.worker i) with
  | idle =>
      rw [hx] at hok
      exact absurd (hok i rfl) (Nat.not_le_of_lt hi)
  | running p => exact .inl (by rw [hx]; rfl)
  | dead =>
      rw [hx] at hok
      exact hok.elim

lemma worker_stays_server {u : Setup} {G : Config Action Action.Res State Tid Label}
    (hG : Reachable .server u G) {i : ℕ} (hi : i < u.workers)
    (hf : ¬ Server.WorkerFault (.worker i) G.state) : WorkerStays i G := by
  have hok := hG.server.threads (.worker i)
  cases hx : G.threads (.worker i) with
  | idle =>
      rw [hx] at hok
      exact .inr (.inl ((hok.2 i hi rfl).resolve_right hf))
  | running p => exact .inl (by rw [hx]; rfl)
  | dead =>
      rw [hx] at hok
      exact absurd hok hf

/-- **A worker stays until the handler stops**, as long as no call has failed that makes it leave.
For a client there is no such call. -/
theorem worker_stays {role : Role} {u : Setup} {G : Config Action Action.Res State Tid Label}
    (hG : Reachable role u G) {i : ℕ} (hi : i < u.workers)
    (hf : role = .server → ¬ Server.WorkerFault (.worker i) G.state) : WorkerStays i G := by
  cases role with
  | server => exact worker_stays_server hG hi (hf rfl)
  | client => exact worker_stays_client hG hi

theorem worker_stays_start : ∃ G, Reachable .server fullServer G ∧ G.state.started ∧
    WorkerStays 0 G := by
  obtain ⟨G, hG, hφ⟩ := reachable_of_run (.server (u := fullServer))
    (startMoves ++ acceptMoves 1 102 ++ breakMoves 1 1)
    (φ := fun G => G.state.started ∧ ¬ Server.WorkerFault (.worker 0) G.state) (by decide +kernel)
  obtain ⟨hs, hf⟩ := of_decide_eq_true hφ
  exact ⟨G, hG, hs, worker_stays hG Nat.two_pos fun _ => hf⟩

/-- One connection for which `setsockopt` fails, and the worker that served it is gone. -/
theorem worker_lost : ¬ ∀ G, Reachable .server fullServer G → G.state.started →
    WorkerStays 0 G := by
  intro h
  obtain ⟨G, hG, hφ⟩ := reachable_of_run (.server (u := fullServer))
    (startMoves ++ .env (.complete ⟨.accept 1, 0, 0, acceptReceiveLength⟩ []) ::
      steps (.worker 0) (List.replicate 8 .ok ++ [.fail 10038, .ok, .ok]))
    (φ := fun G => G.state.started ∧ G.state.exiting = false ∧ G.state.isRunning = true ∧
      (G.threads (.worker 0)).isRunning = false) (by decide +kernel)
  obtain ⟨hs, he, hr, hgone⟩ := of_decide_eq_true hφ
  rcases h G hG hs with hrun | hexit | hstop
  · rw [hgone] at hrun
    cases hrun
  · rw [he] at hexit
    cases hexit
  · rw [hr] at hstop
    cases hstop

end Alpl.Net
