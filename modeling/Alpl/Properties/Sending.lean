import Alpl.Handler.Runs

/-!
# Sending on a dead connection

`TcpConnection::Send` looks at `connected_`, which is set when the connection is made and never
cleared: a connection that `disconnect` has removed goes on sending, to whatever socket has its
handle value by then.
-/

namespace Alpl.Net

open Interleaving

/-- What a dead connection should answer: `Send` failed, and `send` was not called. -/
def Refused (t : Tid) (p : ConnectionPtr) (rc : ℤ) (before : List Record) : Prop :=
  rc = commFailed ∧ ¬ SendCalled t p before

/-- Thread `t` has completed a `Send` on `p` that it entered after `disconnect` had removed `p`;
`before` is the history at its return. -/
structure LateSend (s : State) (t : Tid) (p : ConnectionPtr) (rc : ℤ) (before : List Record) :
    Prop where
  returned : ∃ later, s.history = later ++ .returned t (.send p) rc :: before
  removed : ∃ recent earlier u c, before = recent ++ .entered t (.send p) :: earlier ∧
    .callback u .onDisconnected (some p) [] ∈ earlier ∧
    .returned u (.disconnect (some c)) commSuccess ∈ earlier

/-- **A removed connection never refuses to send.**  Nothing clears `connected_`, so every `Send`
after the removal calls `send` and reports success. -/
theorem lateSend_not_refused {u : Setup} {G : Config Action Action.Res State Tid Label}
    (hG : Reachable .server u G) {t : Tid} {p : ConnectionPtr} {rc : ℤ} {before : List Record}
    (h : LateSend G.state t p rc before) :
    ¬ Refused t p rc before ∧ rc = commSuccess ∧ SendCalled t p before := by
  obtain ⟨later, hlater⟩ := h.returned
  obtain ⟨hrc, hcalled⟩ := hG.handler.ok.inv.sent t p rc later before hlater
  exact ⟨fun hrefused => hrefused.2 hcalled, hrc, hcalled⟩

/-- The first connection of a server breaks, the third one gets its socket value, and what the
user then sends on the first goes to the third. -/
lemma lateSend_on_reused_socket : ∃ G, Reachable .server fullServer G ∧
    LateSend G.state (.user 0) 0 commSuccess (G.state.history.drop 1) ∧
    G.state.connections 101 = some (some 2) ∧ G.state.handles 101 = some 3 ∧
    G.state.sent 3 = [1, 2, 3] := by
  obtain ⟨G, hG, hφ⟩ := reachable_of_run (.server (u := fullServer))
    (startMoves ++ acceptMoves 1 102 ++ breakMoves 1 1 ++ acceptMoves 2 101 ++ acceptMoves 3 103 ++
      sendMoves 0 [1, 2, 3])
    (φ := fun G =>
      G.state.history = .returned (.user 0) (.send 0) commSuccess :: G.state.history.drop 1 ∧
      G.state.history.drop 1 = [.callback (.user 0) .onSentCompleted (some 0) [],
          .call (.user 0) (.send 101 [1, 2, 3] 3) true] ++
        .entered (.user 0) (.send 0) :: G.state.history.drop 4 ∧
      .callback (.worker 0) .onDisconnected (some 0) [] ∈ G.state.history.drop 4 ∧
      .returned (.worker 0) (.disconnect (some 1)) commSuccess ∈ G.state.history.drop 4 ∧
      G.state.connections 101 = some (some 2) ∧ G.state.handles 101 = some 3 ∧
      G.state.sent 3 = [1, 2, 3]) (by decide +kernel)
  obtain ⟨hlast, hbefore, hcallback, hreturned, hreuse⟩ := of_decide_eq_true hφ
  exact ⟨G, hG, ⟨⟨[], hlast⟩, _, _, _, 1, hbefore, hcallback, hreturned⟩, hreuse⟩

theorem lateSend_not_refused_reused : ∃ G before, Reachable .server fullServer G ∧
    G.state.connections 101 = some (some 2) ∧ G.state.handles 101 = some 3 ∧
    G.state.sent 3 = [1, 2, 3] ∧ ¬ Refused (.user 0) 0 commSuccess before ∧
      SendCalled (.user 0) 0 before := by
  obtain ⟨G, hG, hlate, hmap, hopen, hsent⟩ := lateSend_on_reused_socket
  obtain ⟨hrefused, -, hcalled⟩ := lateSend_not_refused hG hlate
  exact ⟨G, _, hG, hmap, hopen, hsent, hrefused, hcalled⟩

/-- A removed connection does send. -/
theorem removed_connection_sends : ¬ ∀ G, Reachable .server fullServer G →
    ∀ t p rc before, LateSend G.state t p rc before → Refused t p rc before := by
  intro h
  obtain ⟨G, hG, hlate, -⟩ := lateSend_on_reused_socket
  have hrc : commSuccess = commFailed := (h G hG _ _ _ _ hlate).1
  exact absurd hrc (by decide)

end Alpl.Net
