import Alpl.Properties.Ownership

/-!
# The connection map

The keys of `connections_` are handle values, which Windows hands out again once they are closed.
The map stays right all the same: what it has for a socket is the connection of the context whose
socket that is, and nobody takes an entry away but the `disconnect` of that very context.  Inside
that call the entry goes first, so between `erase` and `delete` a context has none.
-/

namespace Alpl.Net

open Interleaving

/-! ## The vocabulary -/

/-- `connections_` has for the socket of context `c` the connection that was made for `c`. -/
def MapsRight (s : State) (c : ContextPtr) : Prop :=
  ∃ x p y, s.contexts c = some x ∧ s.connections x.socket = some (some p) ∧
    s.tcpConnections p = some y ∧ y.overlapped = some c ∧ y.socket = x.socket

/-- The context is being handled in `handle_receive`. -/
def InHandleReceive (s : State) (t : Tid) (c : ContextPtr) : Prop :=
  .handleReceive c ∈ s.stack t ∧ c ∈ s.holds t

/-- `connections_` in the middle of a run. -/
structure MapKept (G : Config Action Action.Res State Tid Label) : Prop where
  /-- The entry of a context with a receive outstanding is right. -/
  awaited : ∀ c, ClientContext G.state c → receivesOutstanding G.state c ≠ 0 → MapsRight G.state c
  /-- So is that of a context in `handle_receive`, until its teardown begins. -/
  handled : ∀ t c, InHandleReceive G.state t c → .disconnect (some c) ∉ G.state.stack t →
    MapsRight G.state c
  /-- Every key is the socket of a listed context, whose entry is right. -/
  keys : ∀ v o, G.state.connections v = some o → ∃ c ∈ G.state.socketContexts, ∃ x,
    G.state.contexts c = some x ∧ x.socket = v ∧ MapsRight G.state c
  /-- A handler that looks a socket up finds it. -/
  found : ∀ t v k, G.threads t = .running (.act (.countConnection v) k) →
    G.state.connections v ≠ none

/-- No move makes a right entry wrong or removes it, but one inside the `disconnect` of that very
context. -/
def MapMoves (G : Config Action Action.Res State Tid Label) : Prop :=
  ∀ e G', (machine .server).step G e = some G' → ∀ c v k p, Server.Registered G.state c v k p →
    (∀ t, e.mover = some t → .disconnect (some c) ∉ G.state.stack t) →
      Server.Registered G'.state c v k p

/-! ## The result -/

namespace Server

lemma Registered.mapsRight {s : State} {c : ContextPtr} {v : SOCKET} {k : SockId}
    {p : ConnectionPtr} (h : Registered s c v k p) : MapsRight s c := by
  obtain ⟨⟨⟨x, hx, rfl, -⟩, -⟩, hmapped, y, hy, hover, hsocket⟩ := h
  exact ⟨x, p, y, hx, hmapped, hy, hover, hsocket⟩

lemma mapMoves {u : Setup} {G : Config Action Action.Res State Tid Label}
    (hG : Reachable .server u G) : MapMoves G := by
  intro e G' he
  obtain ⟨G₀, h0, hr⟩ := hG
  have hG' : Reachable .server u G' := ⟨G₀, h0, hr.trans (.step he)⟩
  exact (contract_holds.move he ⟨hG'.handler.ok.inv, hG'.setUp⟩
    (Reachable.server ⟨G₀, h0, hr⟩)).2

end Server

/-- **The connection map stays right**, also when handle values are used again. -/
theorem map_kept {u : Setup} {G : Config Action Action.Res State Tid Label}
    (hG : Reachable .server u G) : MapKept G ∧ MapMoves G := by
  have hI := hG.server.ok.inv
  refine ⟨⟨fun c hc ho => ?_, fun t c hc hd => ?_, fun v o ho => ?_, fun t v k hx => ?_⟩,
    Server.mapMoves hG⟩
  · obtain ⟨-, l, hl, hne⟩ := hc
    rw [Server.receivesOutstanding_eq hI hl hne] at ho
    obtain ⟨-, -, v, k, p, hreg⟩ := hI.clientOut l c hl hne ho
    exact hreg.mapsRight
  · obtain ⟨v, k, p, hreg⟩ := hI.receiveFrame t c hc.1 hc.2 hd
    exact hreg.mapsRight
  · obtain ⟨c, k, p, -, hreg⟩ := hI.mapped v o ho
    obtain ⟨x, hx, hv, -⟩ := hreg.1.1
    exact ⟨c, hreg.1.2.1, x, hx, hv, hreg.mapsRight⟩
  · obtain ⟨p, hp⟩ := hG.server.allowed hx
    rw [hp]
    nofun

/-- The first connection breaks, and the third one gets its socket value. -/
theorem map_kept_reused : ∃ G, Reachable .server fullServer G ∧
    (G.state.tcpConnections 0).map TcpConnection.socket = some 101 ∧
    ClientContext G.state 3 ∧ receivesOutstanding G.state 3 ≠ 0 ∧
    G.state.connections 101 = some (some 2) ∧ MapsRight G.state 3 ∧ MapMoves G := by
  obtain ⟨G, hG, hφ⟩ := reachable_of_run (.server (u := fullServer))
    (startMoves ++ acceptMoves 1 102 ++ breakMoves 1 1 ++ acceptMoves 2 101 ++ acceptMoves 3 103)
    (φ := fun G => (G.state.tcpConnections 0).map TcpConnection.socket = some 101 ∧
      (G.state.contexts 3).isSome ∧ G.state.theSocketContext = some 0 ∧
      receivesOutstanding G.state 3 ≠ 0 ∧ G.state.connections 101 = some (some 2))
    (by decide +kernel)
  obtain ⟨hold, hlive, hthe, ho, hmap⟩ := of_decide_eq_true hφ
  have hclient : ClientContext G.state 3 :=
    ⟨Option.isSome_iff_exists.mp hlive, 0, hthe, by decide⟩
  obtain ⟨hkept, hmoves⟩ := map_kept hG
  exact ⟨G, hG, hold, hclient, ho, hmap, hkept.awaited 3 hclient ho, hmoves⟩

/-- `WSARecv` fails in `handle_receive`, and the teardown has just erased the entry: the context is
still handled in `handle_receive`, and `connections_` has nothing for its socket. -/
theorem map_entry_erased : ¬ ∀ G, Reachable .server fullServer G → G.state.started →
    G.state.exiting = false → ∀ t c, InHandleReceive G.state t c → MapsRight G.state c := by
  intro h
  obtain ⟨G, hG, hφ⟩ := reachable_of_run (.server (u := fullServer))
    (startMoves ++ acceptMoves 1 102 ++ .env (.complete ⟨.recv, 1, 1, maxBuffSize⟩ [7]) ::
      steps (.worker 0) (List.replicate 16 .ok ++ [.fail 10054] ++ List.replicate 15 .ok))
    (φ := fun G => G.state.started ∧ G.state.exiting = false ∧
      .handleReceive 1 ∈ G.state.stack (.worker 0) ∧ 1 ∈ G.state.holds (.worker 0) ∧
      (G.state.contexts 1).all (fun x => G.state.connections x.socket = none))
    (by decide +kernel)
  obtain ⟨hs, he, hframe, hholds, hnone⟩ := of_decide_eq_true hφ
  obtain ⟨x, p, y, hx, hmap, -⟩ := h G hG hs he (.worker 0) 1 ⟨hframe, hholds⟩
  rw [hx] at hnone
  rw [of_decide_eq_true hnone] at hmap
  cases hmap

end Alpl.Net
