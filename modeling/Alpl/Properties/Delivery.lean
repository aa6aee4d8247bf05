import Alpl.Server.Runs

/-!
# What the user is given

The bytes of a connection reach the user through two buffers and many workers: those that come with
the accept lie in the buffer of the listening context, all others in the connection's own.  At
every moment the user has been given a prefix of what the network brought on that socket; what is
missing is in the hands of the worker that handles the connection, or in a packet that no worker has
taken yet.
-/

namespace Alpl.Net

open Interleaving

/-! ## A socket and its context stay together -/

namespace Server

variable {u : Setup} {G G' : Config Action Action.Res State Tid Label} {k : SockId} {c : ContextPtr}

/-- No move takes an association back. -/
lemma keyOf_reaches (hG : Reachable .server u G) (hr : (machine .server).Reaches G G')
    (h : KeyOf G.state k c) : Reachable .server u G' ∧ KeyOf G'.state k c := by
  have hreach : ∀ G₁, (machine .server).Reaches G G₁ → Reachable .server u G₁ := by
    obtain ⟨G₀, h0, hr₀⟩ := hG
    exact fun G₁ hr₁ => ⟨G₀, h0, hr₀.trans hr₁⟩
  refine ⟨hreach G' hr, Machine.run_state (M := machine .server) (I := fun s => KeyOf s k c)
    (fun G₁ t l s' _ hs' hk => enter_eq hs' ▸ hk) (fun G₁ t a f o r s' h₁ _ hs' hk => ?_)
    (fun G₁ e s' _ hs' hk => ?_) hreach hr h⟩
  · refine hk.imp fun q hq => (exec_effect _ hs').assocKept k _ ?_ hq
    rintro rfl
    rw [h₁.server.ok.inv.freshSocket _ (Nat.le_refl _)] at hq
    cases hq
  · exact hk.imp fun q hq => ((undisturbed_osStep hs').assoc k).trans hq

/-- The objects of type `TcpConnection` stay as they were made. -/
lemma madeFor_reaches {p : ConnectionPtr} (hG : Reachable .server u G)
    (hr : (machine .server).Reaches G G') (h : MadeFor G.state p c) : MadeFor G'.state p c := by
  obtain ⟨y, hy, hc⟩ := h
  refine ⟨y, ?_, hc⟩
  exact (handler_holds .server).sound_and (fun _ _ => trivial)
    (fun _ s s' ho hs => ho.objects p y hs) hr hG.handler hy

/-- An idle thread has nothing in hand. -/
lemma holds_of_idle (hG : Reachable .server u G) {t : Tid} (hx : G.threads t = .idle) :
    G.state.holds t = [] := by
  have hidle := hG.server.threads t
  rw [hx] at hidle
  exact hidle.1.2

end Server

/-! ## The result -/

/-- What the user was given of the bytes that the network brought on the socket `k` of connection
`p`, whose context is `c`. -/
structure DeliveredInOrder (u : Setup) (s : State) (p : ConnectionPtr) (c : ContextPtr)
    (k : SockId) : Prop where
  /-- The first of them, in order. -/
  inOrder : s.delivered p <+: (s.sockets k).stream
  /-- Nobody handles the connection: all but those in a packet that no worker has taken. -/
  complete : u.handlers.onDataReceived = true → s.exiting = false → (∀ t, c ∉ s.holds t) →
    s.delivered p ++ Server.queuedBytes s c = (s.sockets k).stream
  /-- By one thread at a time. -/
  alone : ∀ t t', .callback .onDataReceived (some p) ∈ s.stack t →
    .callback .onDataReceived (some p) ∈ s.stack t' → t = t'

/-- **Received bytes are delivered once and in order.** From the moment a connection object is in
`connections_`, the user is given the bytes of the socket it was made for. -/
theorem delivered_in_order {u : Setup} {G₁ G : Config Action Action.Res State Tid Label}
    (h₁ : Reachable .server u G₁) (hr : (machine .server).Reaches G₁ G) {v : SOCKET}
    {p : ConnectionPtr} (hp : G₁.state.connections v = some (some p)) :
    ∃ c k, G₁.state.handles v = some k ∧ Server.MadeFor G.state p c ∧
      DeliveredInOrder u G.state p c k := by
  obtain ⟨c, k, q, hq, hreg⟩ := h₁.server.ok.inv.mapped v _ hp
  obtain rfl := Option.some.inj hq
  have hmade := Server.madeFor_reaches h₁ hr hreg.madeFor
  obtain ⟨hG, hkey⟩ := Server.keyOf_reaches h₁ hr hreg.key
  have hI := hG.server.ok.inv
  refine ⟨c, k, hreg.opened, hmade, hI.inOrder p c k hmade hkey, fun hu he hfree => ?_,
    fun t t' ht ht' => ?_⟩
  · have hset : G.state.handlers.onDataReceived = true := hG.setUp.handlers ▸ hu
    exact hI.complete p c hset he hmade hfree k hkey
  · obtain ⟨d, hd, hmd⟩ := hI.callbackFrame t p ht
    obtain ⟨d', hd', hmd'⟩ := hI.callbackFrame t' p ht'
    rw [hmd.context_eq hmade] at hd
    rw [hmd'.context_eq hmade] at hd'
    exact hI.single t t' c hd hd'

/-- One chunk is delivered by worker 0, and a second one is in a packet. -/
theorem delivered_in_order_data : ∃ G c k, Reachable .server fullServer G ∧
    G.state.handles 101 = some k ∧ (G.state.sockets k).stream = [7, 8, 9] ∧
    G.state.delivered 0 = [7, 8] ∧ DeliveredInOrder fullServer G.state 0 c k := by
  obtain ⟨G, hG, hφ⟩ := reachable_of_run (.server (u := fullServer))
    (startMoves ++ acceptMoves 1 102 ++ .env (.complete ⟨.recv, 1, 1, maxBuffSize⟩ [7, 8]) ::
      steps (.worker 0) (List.replicate 16 .ok ++ [.pending, .ok, .ok]) ++
      [.env (.complete ⟨.recv, 1, 1, maxBuffSize⟩ [9])])
    (φ := fun G => G.state.connections 101 = some (some 0) ∧ G.state.handles 101 = some 1 ∧
      (G.state.sockets 1).stream = [7, 8, 9] ∧ G.state.delivered 0 = [7, 8])
    (by decide +kernel)
  obtain ⟨hmap, hopen, hstream, hdelivered⟩ := of_decide_eq_true hφ
  obtain ⟨c, k, hk, -, hd⟩ := delivered_in_order hG (.refl G) hmap
  obtain rfl := Option.some.inj (hopen.symm.trans hk)
  exact ⟨G, c, 1, hG, hopen, hstream, hdelivered, hd⟩

/-- A chunk has arrived whose packet no worker has taken: nobody handles the connection, and the
user has not been given everything. -/
theorem delivered_incomplete : ¬ ∀ G, Reachable .server fullServer G → G.state.exiting = false →
    ∀ v p, G.state.connections v = some (some p) → ∀ c k, Server.MadeFor G.state p c →
      G.state.handles v = some k → (∀ t, c ∉ G.state.holds t) →
        G.state.delivered p = (G.state.sockets k).stream := by
  intro h
  obtain ⟨G, hG, hφ, hidle⟩ := reachable_of_moves
    (startMoves ++ acceptMoves 1 102 ++ [.env (.complete ⟨.recv, 1, 1, maxBuffSize⟩ [7])])
    (by decide)
    (φ := fun G => G.state.exiting = false ∧ G.state.connections 101 = some (some 0) ∧
      (G.state.tcpConnections 0).any (fun y => y.overlapped = some 1) ∧
      G.state.handles 101 = some 1 ∧ (∀ t ∈ crew, G.state.holds t = []) ∧
      G.state.delivered 0 = [] ∧ (G.state.sockets 1).stream = [7]) (by decide +kernel)
  obtain ⟨he, hmap, hobject, hopen, hholds, hnone, hstream⟩ := of_decide_eq_true hφ
  obtain ⟨y, hy, hover⟩ := (Option.any_eq_true _ _).mp hobject
  have hall := h G hG he 101 0 hmap 1 1 ⟨y, hy, of_decide_eq_true hover⟩ hopen fun t ht => ?_
  · rw [hnone, hstream] at hall
    cases hall
  · by_cases hcrew : t ∈ crew
    · rw [hholds t hcrew] at ht
      cases ht
    · rw [Server.holds_of_idle hG (hidle t hcrew)] at ht
      cases ht

end Alpl.Net
