import Alpl.Properties.Accepting

/-!
# One owner for every connection

A context that `handle_accept` made for a connection is either in the hands of one worker or
referred to by one receive, from its creation until `disconnect` frees it.  The only way out is the
exception handler around `EnterCriticalSection` in `disconnect`: it reports `COMM_FAILED`, the
callers do not look, and the context is abandoned.
-/

namespace Alpl.Net

open Interleaving

/-! ## The vocabulary -/

/-- The context of a connection: in the heap, and not that of the listening socket. -/
def ClientContext (s : State) (c : ContextPtr) : Prop :=
  Server.Live s c ∧ ∃ l, s.theSocketContext = some l ∧ c ≠ l

/-- The receives outstanding for a context: pending, or with their packet queued. -/
def receivesOutstanding (s : State) (c : ContextPtr) : ℕ :=
  s.pending.countP (fun op => op.kind = .recv ∧ op.overlapped = c) +
    (s.queue s.workersPort).countP fun pkt => pkt.overlapped = some c

/-- Worker `i` handles the context, and nobody else does. -/
def HandledBy (G : Config Action Action.Res State Tid Label) (c : ContextPtr) (i : ℕ) : Prop :=
  (G.threads (.worker i)).isRunning = true ∧ ∀ t, c ∈ G.state.holds t ↔ t = .worker i

/-- One receive is outstanding for the context, as its record says. -/
def Awaited (s : State) (c : ContextPtr) : Prop :=
  receivesOutstanding s c = 1 ∧
    ∃ x, s.contexts c = some x ∧ x.ioContext.lastOperation = .ioReceive

/-- The context that an action reads, writes or hands to Windows. -/
def Action.touches : Action → Option ContextPtr
  | .freeContext c => some c
  | .getSocket c => some c
  | .setSocket c _ => some c
  | .getIoContext c => some c
  | .setLastOperation c _ => some c
  | .setSocketAccept c _ => some c
  | .setSentBytes c _ => some c
  | .wsaRecv _ c _ => some c
  | .wsaSend _ c _ => some c
  | _ => none

/-- The ownership of the contexts of connections. -/
structure Owned (G : Config Action Action.Res State Tid Label) : Prop where
  /-- While the server runs, a context is handled by one worker, or one receive is outstanding for
  it, or nobody has it and `disconnect` gave it up. -/
  owner : G.state.exiting = false → ∀ c, ClientContext G.state c →
    (∃ i, HandledBy G c i) ∧ receivesOutstanding G.state c = 0 ∨
    Awaited G.state c ∧ (∀ t, c ∉ G.state.holds t) ∨
    Server.Abandoned G.state c ∧ receivesOutstanding G.state c = 0 ∧ ∀ t, c ∉ G.state.holds t
  /-- A thread touches a context only while it handles it, from which the `WSARecv` that passes it
  to the queue takes it; `the_socket_context_` may be read by all. -/
  touched : ∀ t a k c, G.threads t = .running (.act a k) → a.touches = some c →
    c ∈ G.state.holds t ∨ G.state.theSocketContext = some c
  /-- No queued packet refers to a context that was freed. -/
  packets : ∀ pkt ∈ G.state.queue G.state.workersPort, ∀ c,
    pkt.key = some c ∨ pkt.overlapped = some c → Server.Live G.state c
  /-- No two threads handle one context. -/
  single : ∀ t u c, c ∈ G.state.holds t → c ∈ G.state.holds u → t = u
  /-- `disconnect` runs at most once for a context. -/
  disconnectOnce : ∀ c, Server.disconnects G.state c ≤ 1

/-! ## The proof -/

namespace Server

variable {u : Setup} {s : State} {G : Config Action Action.Res State Tid Label}
variable {c l : ContextPtr}

lemma receivesOutstanding_eq (hI : Inv s) (hl : s.theSocketContext = some l) (hc : c ≠ l) :
    receivesOutstanding s c = s.outstanding c := by
  rw [receivesOutstanding, State.outstanding]
  refine congrArg (· + _) (List.countP_congr fun op hop => ?_)
  simp only [decide_eq_true_eq, and_iff_right_iff_imp]
  intro hov
  exact hI.clientOp l op hop hl (hov ▸ hc)

/-- Whoever has something in hand is running, if no exception ended it. -/
lemma running_of_holds (hG : Reachable .server u G) (hu : u.handlers.onDisconnected = true)
    {t : Tid} (ht : c ∈ G.state.holds t) : (G.threads t).isRunning = true := by
  cases hx : G.threads t with
  | idle =>
      have hidle := hG.server.threads t
      rw [hx] at hidle
      rw [hidle.1.2] at ht
      cases ht
  | running p => rfl
  | dead => exact absurd hx (not_dead hG hu t)

lemma handledBy_of_holds (hG : Reachable .server u G) (hu : u.handlers.onDisconnected = true)
    (hl : G.state.theSocketContext = some l) (hc : c ≠ l) {t : Tid} (ht : c ∈ G.state.holds t) :
    ∃ i, HandledBy G c i := by
  have hI := hG.server.ok.inv
  obtain ⟨i, rfl⟩ := hI.worker l t c ht hl hc
  refine ⟨i, running_of_holds hG hu ht, fun v => ⟨fun hv => hI.single v _ c hv ht, ?_⟩⟩
  rintro rfl
  exact ht

lemma owner (hG : Reachable .server u G) (hu : u.handlers.onDisconnected = true)
    (he : G.state.exiting = false) (hc : ClientContext G.state c) :
    (∃ i, HandledBy G c i) ∧ receivesOutstanding G.state c = 0 ∨
    Awaited G.state c ∧ (∀ t, c ∉ G.state.holds t) ∨
    Abandoned G.state c ∧ receivesOutstanding G.state c = 0 ∧ ∀ t, c ∉ G.state.holds t := by
  have hI := hG.server.ok.inv
  obtain ⟨hlive, l, hl, hne⟩ := hc
  have hcount := receivesOutstanding_eq hI hl hne
  by_cases hheld : ∃ t, c ∈ G.state.holds t
  · obtain ⟨t, ht⟩ := hheld
    exact .inl ⟨handledBy_of_holds hG hu hl hne ht, hcount.trans (hI.quiet t c ht)⟩
  · rw [not_exists] at hheld
    by_cases hone : G.state.outstanding c = 0
    · refine .inr (.inr ⟨?_, hcount.trans hone, hheld⟩)
      rcases hI.placed l c he hl hlive hne with ⟨t, ht⟩ | hout | hab
      · exact absurd ht (hheld t)
      · exact absurd (hone.symm.trans hout) (by decide)
      · exact hab
    · have hatMost := hI.atMostOne c
      exact .inr (.inl ⟨⟨by omega, (hI.clientOut l c hl hne hone).2.1⟩, hheld⟩)

lemma held_of_touches {t : Tid} {a : Action} (hA : Allowed t a s) (ha : a.touches = some c) :
    c ∈ s.holds t ∨ s.theSocketContext = some c := by
  cases a <;> cases ha
  case freeContext => exact .inl hA.1
  case getSocket => exact hA
  case setSocket =>
    obtain ⟨-, -, hserving | ⟨-, hthe, -⟩⟩ := hA
    · exact .inl hserving.1
    · exact .inr hthe
  case getIoContext => exact hA
  case setLastOperation => exact .inl hA.1.1
  case setSocketAccept => exact .inr hA.1
  case setSentBytes => exact hA.elim
  case wsaRecv => exact .inl hA.1.1
  case wsaSend => exact hA.elim

lemma live_of_packet (hI : Inv s) {pkt : Packet} (hp : pkt ∈ s.queue s.workersPort)
    (hc : pkt.key = some c ∨ pkt.overlapped = some c) : Live s c := by
  rcases hI.packet pkt hp with ⟨rfl, -⟩ | ⟨⟨d, hkey, hov⟩, -⟩
  · rcases hc with h | h <;> cases h
  · have hd : c = d := by
      rcases hc with h | h
      · exact Option.some.inj (h.symm.trans hkey)
      · exact Option.some.inj (h.symm.trans hov)
    by_contra hnot
    exact outstanding_of_packet hp (hd ▸ hov) (hI.outstanding_of_not_live hnot)

end Server

/-- **Every context has one owner.** -/
theorem owned {u : Setup} {G : Config Action Action.Res State Tid Label}
    (hG : Reachable .server u G) (hu : u.handlers.onDisconnected = true) : Owned G where
  owner he _ hc := Server.owner hG hu he hc
  touched _ _ _ _ hx ha := Server.held_of_touches (hG.server.allowed hx) ha
  packets _ hp _ hc := Server.live_of_packet hG.server.ok.inv hp hc
  single := hG.server.ok.inv.single
  disconnectOnce := hG.server.ok.inv.disconnectOnce

theorem owned_start : ∃ G, Reachable .server fullServer G ∧ ClientContext G.state 1 ∧ Owned G := by
  obtain ⟨G, hG, hφ⟩ := reachable_of_run (.server (u := fullServer))
    (startMoves ++ acceptMoves 1 102)
    (φ := fun G => (G.state.contexts 1).isSome ∧ G.state.theSocketContext = some 0)
    (by decide +kernel)
  obtain ⟨hlive, hthe⟩ := of_decide_eq_true hφ
  exact ⟨G, hG, ⟨Option.isSome_iff_exists.mp hlive, 0, hthe, by decide⟩, owned hG rfl⟩

/-- A connection breaks, and `EnterCriticalSection` raises in `disconnect`: its context is in the
heap, nobody handles it and nothing refers to it. -/
theorem context_abandoned : ¬ ∀ G, Reachable .server fullServer G → G.state.started →
    G.state.exiting = false → ∀ c, ClientContext G.state c →
      (∃ i, HandledBy G c i) ∨ Awaited G.state c := by
  intro h
  obtain ⟨G, hG, hφ, hidle⟩ := reachable_of_moves
    (startMoves ++ acceptMoves 1 102 ++ .env (.abort ⟨.recv, 1, 1, maxBuffSize⟩) ::
      steps (.worker 0) (List.replicate 5 .ok ++ [.fail 0, .ok, .ok])) (by decide)
    (φ := fun G => G.state.started ∧ G.state.exiting = false ∧
      (G.state.contexts 1).isSome ∧ G.state.theSocketContext = some 0 ∧
      (∀ t ∈ crew, G.state.holds t = []) ∧ receivesOutstanding G.state 1 = 0)
    (by decide +kernel)
  obtain ⟨hs, he, hlive, hthe, hholds, hnone⟩ := of_decide_eq_true hφ
  rcases h G hG hs he 1 ⟨Option.isSome_iff_exists.mp hlive, 0, hthe, by decide⟩ with
    ⟨i, hrun, hi⟩ | ⟨hone, -⟩
  · have hmem := (hi _).mpr rfl
    by_cases hcrew : Tid.worker i ∈ crew
    · rw [hholds _ hcrew] at hmem
      cases hmem
    · rw [hidle _ hcrew] at hrun
      cases hrun
  · rw [hnone] at hone
    cases hone

end Alpl.Net
