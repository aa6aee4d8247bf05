import Alpl.Client.Custody
import Alpl.Properties.ClientTeardown
import Alpl.Properties.Delivery

/-!
# What the user of a client is given

A client has one socket, one context and any number of workers.  Its bytes go through one buffer,
which the network may only fill while no worker reads it: there is one receive at a time, and it
belongs to the network, to the packet in the queue, or to one thread.  So the user is given the
bytes of the socket once and in order, by one worker after the other.
-/

namespace Alpl.Net

open Interleaving

/-- The actions for which a thread of a client has to have the receive. -/
def Action.usesReceive : Action → Bool
  | .wsaRecv _ _ _ => true
  | .invokeConnection _ k _ _ => k = .onDataReceived
  | _ => false

/-- The one receive of a client. -/
structure OneReceive (G : Config Action Action.Res State Tid Label) : Prop where
  /-- It is outstanding, or its packet is queued. -/
  few : G.state.pending.length + (G.state.queue handlerPort).length ≤ 1
  /-- Or a thread is about to start it or to pass its bytes on. -/
  apart : ∀ t a, (G.threads t).next = some a → a.usesReceive = true →
    G.state.pending = [] ∧ G.state.queue handlerPort = []
  /-- Which is then the only one. -/
  alone : ∀ t t' a a', (G.threads t).next = some a → (G.threads t').next = some a' →
    a.usesReceive = true → a'.usesReceive = true → t = t'

namespace Client

variable {u : Setup} {v : SOCKET} {σ : Tid → Custody}
variable {G : Config Action Action.Res State Tid Label}

/-- A thread that is about to use the receive has it. -/
lemma carries_of_usesReceive (hσ : ∀ t, custody.OnTrack (G.threads t) (σ t)) {t : Tid}
    {a : Action} (hx : (G.threads t).next = some a) (ha : a.usesReceive = true) :
    (σ t).carries = true := by
  obtain ⟨k, hk⟩ := Control.eq_of_next hx
  have ht := hσ t
  rw [hk] at ht
  have hallowed : (σ t).allows a := ht.1
  cases hq : σ t <;> rw [hq] at hallowed <;> first
    | rfl
    | (cases a <;> simp_all [Action.usesReceive, Action.isCalm])

/-- A worker with a packet has the context in hand, so nothing is left once nobody has it. -/
lemma Carried.complete (h : Carried u v σ G.state) (hG : Reachable .client u G) {l : ContextPtr}
    (hl : G.state.theSocketContext = some l) (hset : u.handlers.onDataReceived = true)
    (hfree : ∀ t, l ∉ G.state.holds t) :
    G.state.delivered clientConnection ++ Server.queuedBytes G.state l =
      (G.state.sockets 0).stream := by
  have hqueued : Server.queuedBytes G.state l =
      (G.state.queue handlerPort).flatMap (Server.packetBytes G.state) := by
    rw [Server.queuedBytes, hG.setUp.workersPort, List.filter_eq_self.mpr]
    intro pkt hpkt
    obtain ⟨l', hl', -, ho⟩ := hG.client.ok.inv.packets handlerPort pkt hpkt
    simpa [ho] using Option.some.inj (hl'.symm.trans hl)
  rw [hqueued]
  by_cases hnone : ∀ t, (σ t).carries = false
  · exact h.queued hset hnone
  · obtain ⟨t, ht⟩ := not_forall.mp hnone
    have ht : (σ t).carries = true := by simpa using ht
    have hholding : (σ t).isHolding = false := by
      have hsh := h.shows t
      cases hq : σ t <;> rw [hq] at hsh <;> first
        | rfl
        | skip
      obtain ⟨⟨l', hl', -, -, hmem⟩, -⟩ := hsh
      obtain rfl := Option.some.inj (hl'.symm.trans hl)
      exact absurd hmem (hfree t)
    have hnow := h.carried hset t ht
    rw [inHand_eq_nil hholding] at hnow
    rw [(h.apart t ht).2]
    exact hnow

end Client

/-- **A client delivers received bytes once and in order.** From the moment it has its context, the
user is given the bytes of its socket as the network brought them. -/
theorem client_delivered_in_order {u : Setup} {G : Config Action Action.Res State Tid Label}
    (hG : Reachable .client u G) {l : ContextPtr} (hl : G.state.theSocketContext = some l) :
    DeliveredInOrder u G.state clientConnection l 0 := by
  obtain ⟨v, σ, -, h⟩ := hG.carried
  refine ⟨?_, fun hset _ hfree => h.complete hG hl hset hfree, fun t t' ht ht' => ?_⟩
  · cases hset : u.handlers.onDataReceived with
    | false =>
        rw [h.unset hset]
        exact List.nil_prefix
    | true =>
        by_cases hnone : ∀ t, (σ t).carries = false
        · rw [← h.queued hset hnone]
          exact List.prefix_append _ _
        · obtain ⟨t, ht⟩ := not_forall.mp hnone
          rw [← h.carried hset t (by simpa using ht)]
          exact List.prefix_append _ _
  · have hcall := h.frames t _ ht rfl
    have hcall' := h.frames t' _ ht' rfl
    exact h.single t t' (by rw [hcall]; rfl) (by rw [hcall']; rfl)

/-- One byte arrives at the client, and worker 0 passes it on. -/
def receiveMoves (b : UInt8) : List (Event Tid Label Outcome OsEvent) :=
  .env (.complete ⟨.recv, 0, 0, maxBuffSize⟩ [b]) ::
    steps (.worker 0) (List.replicate 16 .ok ++ [.pending, .ok, .ok])

theorem client_delivered_in_order_twice : ∃ G, Reachable .client fullClient G ∧
    G.state.delivered clientConnection = [7, 8] ∧
    DeliveredInOrder fullClient G.state clientConnection 0 0 := by
  obtain ⟨G, hG, hφ⟩ := reachable_of_run (.client (u := fullClient) 100 (by decide))
    (startClientMoves ++ receiveMoves 7 ++ receiveMoves 8)
    (φ := fun G => G.state.delivered clientConnection = [7, 8] ∧
      G.state.theSocketContext = some 0) (by decide +kernel)
  obtain ⟨hdelivered, hl⟩ := of_decide_eq_true hφ
  exact ⟨G, hG, hdelivered, client_delivered_in_order hG hl⟩

/-- **A client has one receive at a time**, with the network, in the queue, or with one thread. -/
theorem client_one_receive {u : Setup} {G : Config Action Action.Res State Tid Label}
    (hG : Reachable .client u G) : OneReceive G := by
  obtain ⟨v, σ, hσ, h⟩ := hG.carried
  refine ⟨h.few, fun t a hx ha => h.apart t (Client.carries_of_usesReceive hσ hx ha), ?_⟩
  intro t t' a a' hx hx' ha ha'
  exact h.single t t' (Client.carries_of_usesReceive hσ hx ha)
    (Client.carries_of_usesReceive hσ hx' ha')

theorem client_one_receive_passed : ∃ G, Reachable .client fullClient G ∧
    (∃ w c len, (G.threads (.worker 0)).next = some (.wsaRecv w c len)) ∧ OneReceive G := by
  obtain ⟨G, hG, hφ⟩ := reachable_of_run (.client (u := fullClient) 100 (by decide))
    (startClientMoves ++ (receiveMoves 7).take 17)
    (φ := fun G => (G.threads (.worker 0)).next = some (.wsaRecv 100 0 maxBuffSize))
    (by decide +kernel)
  exact ⟨G, hG, ⟨100, 0, maxBuffSize, of_decide_eq_true hφ⟩, client_one_receive hG⟩

end Alpl.Net
