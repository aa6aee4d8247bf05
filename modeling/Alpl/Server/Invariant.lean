import Alpl.Handler.Memory
import Mathlib.Data.List.Basic

/-!
# The invariant of a running server

What holds of the shared state of a `TcpServer` between any two moves, whoever makes them.  The
core is ownership: a context is in the hands of one thread (`State.holds`), or one operation or
packet refers to it (`State.outstanding`), and never both.  Everything else hangs on it: which
handle values are open and for which context, which connection object the map has for them, how
far the bytes of a connection have been delivered, and whether the server has an accept
outstanding.

What every handler keeps (`Handler.Inv`) is not repeated here.
-/

namespace Alpl.Net

open Interleaving

/-- What can come between an accept completion and the next accept: a call of Windows that
failed. -/
def Record.isAcceptFault : Record → Bool
  | .call _ (.sysCall (.setsockopt _ .updateAcceptContext)) false => true
  | .call _ (.createIoCompletionPort _ _ _) false => true
  | .call _ (.enterCriticalSection .createSocketContext) false => true
  | .call _ (.acceptEx _ _ _ _) false => true
  | _ => false

/-- An entry of the history that none of the accounts below depends on. -/
def Record.plain : Record → Bool
  | .entered _ .startAccept => false
  | .entered _ (.disconnect _) => false
  | .returned _ .startAccept _ => false
  | .returned _ .start _ => false
  | .callback _ .onDataReceived _ _ => false
  | _ => true

namespace Server

/-! ## The vocabulary -/

/-- The context is in the heap. -/
def Live (s : State) (c : ContextPtr) : Prop := ∃ x, s.contexts c = some x

/-- The socket object `k` completes with key `c`, on whatever port. -/
def KeyOf (s : State) (k : SockId) (c : ContextPtr) : Prop :=
  ∃ q, (s.sockets k).assoc = some (q, c)

lemma KeyOf.context_eq {s : State} {k : SockId} {c d : ContextPtr} (hc : KeyOf s k c)
    (hd : KeyOf s k d) : c = d := by
  obtain ⟨q, hq⟩ := hc
  obtain ⟨q', hq'⟩ := hd
  rw [hq] at hq'
  cases hq'
  rfl

/-- Connection `p` was made for context `c`. -/
def MadeFor (s : State) (p : ConnectionPtr) (c : ContextPtr) : Prop :=
  ∃ y, s.tcpConnections p = some y ∧ y.overlapped = some c

lemma MadeFor.context_eq {s : State} {p : ConnectionPtr} {c d : ContextPtr} (hc : MadeFor s p c)
    (hd : MadeFor s p d) : c = d := by
  obtain ⟨y, hy, hyc⟩ := hc
  obtain ⟨y', hy', hyd⟩ := hd
  rw [hy] at hy'
  cases hy'
  exact Option.some.inj (hyc.symm.trans hyd)

/-- No open socket completes with key `c`. -/
def Closed (s : State) (c : ContextPtr) : Prop := ∀ v k, s.handles v = some k → ¬ KeyOf s k c

/-- Context `c` is in the list, and its socket `v` names the open object `k`, which completes on
the workers' port under this context. -/
def Attached (s : State) (c : ContextPtr) (v : SOCKET) (k : SockId) : Prop :=
  (∃ x, s.contexts c = some x ∧ x.socket = v ∧ x.ioContext.socketAccept = invalidSocket) ∧
    c ∈ s.socketContexts ∧ s.handles v = some k ∧ (s.sockets k).assoc = some (s.workersPort, c)

/-- `p` is the connection object made for context `c` and its socket `v`. -/
def ObjectOf (s : State) (p : ConnectionPtr) (c : ContextPtr) (v : SOCKET) : Prop :=
  ∃ y, s.tcpConnections p = some y ∧ y.overlapped = some c ∧ y.socket = v

/-- Context `c` is fully set up: `connections_` has for its socket the connection object made for
this very context. -/
def Registered (s : State) (c : ContextPtr) (v : SOCKET) (k : SockId) (p : ConnectionPtr) : Prop :=
  Attached s c v k ∧ s.connections v = some (some p) ∧ ObjectOf s p c v

/-- The listening context has a socket to accept into, open and not associated with a port. -/
def AcceptReady (s : State) (l : ContextPtr) (k : SockId) : Prop :=
  (∃ x, s.contexts l = some x ∧ s.handles x.ioContext.socketAccept = some k ∧
    x.ioContext.socketAccept ≠ x.socket) ∧ (s.sockets k).assoc = none

/-- The listening socket is closed for good or open as the listening context's. -/
def ListenSock (s : State) (l : ContextPtr) : Prop :=
  ∃ x, s.contexts l = some x ∧
    (x.socket = invalidSocket ∨ ∃ k, s.handles x.socket = some k ∧ KeyOf s k l)

/-- The bytes of a packet, which lie in the buffer of its context until they are passed on. -/
def packetBytes (s : State) (pkt : Packet) : List UInt8 :=
  match pkt.overlapped with
  | some c =>
    match s.contexts c with
    | some x => x.ioContext.buffer.take pkt.ioSize
    | none => []
  | none => []

/-- The bytes for a context that a completion has brought and no worker has taken. -/
def queuedBytes (s : State) (c : ContextPtr) : List UInt8 :=
  ((s.queue s.workersPort).filter fun pkt => pkt.overlapped = some c).flatMap (packetBytes s)

/-- The bytes the network has brought for connection `p` of context `c` are those `p` was given,
and then `rest`. -/
def Pending (s : State) (p : ConnectionPtr) (c : ContextPtr) (rest : List UInt8) : Prop :=
  ∀ k, KeyOf s k c → s.delivered p ++ rest = (s.sockets k).stream

/-! ### What the history tells -/

/-- How often `disconnect` was called for a context. -/
def disconnectsIn (c : ContextPtr) : List Record → ℕ
  | [] => 0
  | .entered _ (.disconnect (some d)) :: h =>
    if d = c then disconnectsIn c h + 1 else disconnectsIn c h
  | _ :: h => disconnectsIn c h

def disconnects (s : State) (c : ContextPtr) : ℕ := disconnectsIn c s.history

/-- `disconnect` was called for the context and gave up, because entering `locker_` raised. -/
def Abandoned (s : State) (c : ContextPtr) : Prop :=
  ∃ t, .returned t (.disconnect (some c)) commFailed ∈ s.history

/-- The call of `start_accept` that was made last: who made it, and what it returned if it has. -/
def lastStartAccept : List Record → Option (Tid × Option ℤ)
  | [] => none
  | .entered t .startAccept :: _ => some (t, none)
  | .returned t .startAccept rc :: h =>
    match lastStartAccept h with
    | some (u, none) => if u = t then some (u, some rc) else some (u, none)
    | z => z
  | _ :: h => lastStartAccept h

/-- The last `start_accept` told its caller that it failed. -/
def StartAcceptFailed (s : State) : Prop :=
  ∃ t rc, lastStartAccept s.history = some (t, some rc) ∧ rc ≠ commSuccess

def AcceptFault (s : State) : Prop := ∃ r ∈ s.history, r.isAcceptFault = true

/-- A thread may let go of the listening context without a new accept only for a reason. -/
def NotRearmed (s : State) : Prop :=
  AcceptFault s ∨ lastStartAccept s.history = none ∨ StartAcceptFailed s

/-- Since it entered `start_accept`, thread `t` has made a successful call of `AcceptEx`. -/
def AcceptCalled (t : Tid) (h : List Record) : Prop :=
  ∃ ls v c len, .call t (.acceptEx ls v c len) true ∈ since t .startAccept h

/-! ## The invariant -/

/-- **The invariant of a server.** -/
structure Inv (s : State) : Prop where
  -- a name that was never handed out means nothing
  freshContext : ∀ c, s.nextContext ≤ c → s.contexts c = none
  freshSocket : ∀ k, s.nextSock ≤ k → s.sockets k = SocketObject.fresh
  freshHandle : ∀ v k, s.handles v = some k → k < s.nextSock
  freshKey : ∀ k c, KeyOf s k c → c < s.nextContext
  freshFrame : ∀ t c, .handleReceive c ∈ s.stack t → c < s.nextContext
  freshDelivered : ∀ p, s.nextConnection ≤ p → s.delivered p = []
  freshDisconnects : ∀ c, s.nextContext ≤ c → disconnects s c = 0
  -- one name, one thing
  invalid : s.handles invalidSocket = none
  handleUnique : ∀ v w k, s.handles v = some k → s.handles w = some k → v = w
  keyUnique : ∀ k k' c, KeyOf s k c → KeyOf s k' c → k = k'
  objectUnique : ∀ p p' c, MadeFor s p c → MadeFor s p' c → p = p'
  disconnectOnce : ∀ c, disconnects s c ≤ 1
  -- who has a context in hand
  live : ∀ t, ∀ c ∈ s.holds t, Live s c
  single : ∀ t u, ∀ c ∈ s.holds t, c ∈ s.holds u → t = u
  nodup : ∀ t, (s.holds t).Nodup
  quiet : ∀ t, ∀ c ∈ s.holds t, s.outstanding c = 0
  atMostOne : ∀ c, s.outstanding c ≤ 1
  worker : ∀ l t, ∀ c ∈ s.holds t, s.theSocketContext = some l → c ≠ l → ∃ i, t = .worker i
  placed : ∀ l c, s.exiting = false → s.theSocketContext = some l → Live s c → c ≠ l →
    (∃ t, c ∈ s.holds t) ∨ s.outstanding c = 1 ∨ Abandoned s c
  -- what is in flight
  opKey : ∀ op ∈ s.pending, (s.sockets op.sock).assoc = some (s.workersPort, op.overlapped)
  packet : ∀ pkt ∈ s.queue s.workersPort, pkt = Packet.exit ∧ s.exiting = true ∨
    (∃ c, pkt.key = some c ∧ pkt.overlapped = some c) ∧ (pkt.succeed = false → pkt.ioSize = 0)
  acceptOut : ∀ l, s.theSocketContext = some l → s.outstanding l ≠ 0 →
    s.iocpHandle = some s.workersPort ∧ ∃ k, AcceptReady s l k
  acceptOp : ∀ l, ∀ op ∈ s.pending, s.theSocketContext = some l → op.overlapped = l →
    ∃ k, AcceptReady s l k ∧ op.kind = .accept k ∧ (s.sockets k).stream = []
  acceptPacket : ∀ l k, ∀ pkt ∈ s.queue s.workersPort, s.theSocketContext = some l →
    pkt.overlapped = some l → AcceptReady s l k → (s.sockets k).stream = packetBytes s pkt
  clientOut : ∀ l c, s.theSocketContext = some l → c ≠ l → s.outstanding c ≠ 0 →
    disconnects s c = 0 ∧
      (∃ x, s.contexts c = some x ∧ x.ioContext.lastOperation = .ioReceive) ∧
      ∃ v k p, Registered s c v k p
  clientOp : ∀ l, ∀ op ∈ s.pending, s.theSocketContext = some l → op.overlapped ≠ l →
    op.kind = .recv
  -- the listening context
  theLive : ∀ l, s.theSocketContext = some l → Live s l
  kind : ∀ l c x, s.theSocketContext = some l → s.contexts c = some x →
    (x.ioContext.lastOperation = .ioAccept ↔ c = l)
  listenSock : ∀ l, s.theSocketContext = some l → ListenSock s l ∨ .stop ∈ s.stack .main
  listener : ∀ l k, s.theSocketContext = some l → (s.sockets k).listening = true →
    (s.sockets k).assoc = some (s.workersPort, l)
  otherSocket : ∀ l x c y, s.theSocketContext = some l → s.contexts l = some x →
    s.contexts c = some y → c ≠ l → y.socket ≠ invalidSocket → y.socket ≠ x.socket
  idle : s.theSocketContext = none → s.pending = [] ∧ s.queue s.workersPort = [] ∧
    (∀ t, t ≠ .main → s.holds t = []) ∧ (∀ p, s.tcpConnections p = none) ∧
    lastStartAccept s.history = none
  -- `connections_`
  mapped : ∀ v o, s.connections v = some o → ∃ c k p, o = some p ∧ Registered s c v k p
  socketOf : ∀ v k q c, s.handles v = some k → (s.sockets k).assoc = some (q, c) →
    q = s.workersPort ∧ ∃ x, s.contexts c = some x ∧ x.socket = v
  objectOf : ∀ p y, s.tcpConnections p = some y → ∃ c < s.nextContext,
    y.overlapped = some c ∧ s.theSocketContext ≠ some c
  -- how far the bytes of a connection have come
  inOrder : ∀ p c k, MadeFor s p c → KeyOf s k c → s.delivered p <+: (s.sockets k).stream
  complete : ∀ p c, s.handlers.onDataReceived = true → s.exiting = false → MadeFor s p c →
    (∀ t, c ∉ s.holds t) → Pending s p c (queuedBytes s c)
  -- what the frames of a thread say
  callbackFrame : ∀ t p, .callback .onDataReceived (some p) ∈ s.stack t →
    ∃ c ∈ s.holds t, MadeFor s p c
  receiveFrame : ∀ t c, .handleReceive c ∈ s.stack t → c ∈ s.holds t →
    .disconnect (some c) ∉ s.stack t → ∃ v k p, Registered s c v k p
  acceptFrame : ∀ t l, s.theSocketContext = some l → l ∈ s.holds t →
    .completion .ioAccept l ∈ s.stack t ∨ t = .main ∧ (.start ∈ s.stack .main ∨ NotRearmed s)
  started : s.started → .start ∉ s.stack .main ∧ lastStartAccept s.history ≠ none
  -- what has happened
  port : ∀ q, s.iocpHandle = some q → q = s.workersPort
  armed : ∀ l, s.theSocketContext = some l → s.exiting = false → ¬ NotRearmed s →
    (∃ t, l ∈ s.holds t) ∨ s.outstanding l = 1
  accepted : ∀ t h h', s.history = h ++ .returned t .startAccept commSuccess :: h' →
    AcceptFault s ∨ AcceptCalled t h'

/-! ## What the parts of the vocabulary depend on -/

variable {s s' : State} {c l : ContextPtr} {v : SOCKET} {k : SockId} {p : ConnectionPtr}

lemma Registered.congr (h : Registered s c v k p) (hx : s'.contexts c = s.contexts c)
    (hl : c ∈ s.socketContexts → c ∈ s'.socketContexts) (hv : s'.handles v = s.handles v)
    (hk : (s'.sockets k).assoc = (s.sockets k).assoc) (hw : s'.workersPort = s.workersPort)
    (hc : s'.connections v = s.connections v)
    (hp : ∀ y, s.tcpConnections p = some y → s'.tcpConnections p = some y) :
    Registered s' c v k p := by
  obtain ⟨⟨hcontext, hlisted, hopened, hassoc⟩, hmapped, y, hy, hobject⟩ := h
  refine ⟨⟨?_, hl hlisted, hv.trans hopened, ?_⟩, hc.trans hmapped, y, hp y hy, hobject⟩
  · rw [hx]
    exact hcontext
  · rw [hk, hw]
    exact hassoc

lemma AcceptReady.congr (h : AcceptReady s l k) (hx : s'.contexts l = s.contexts l)
    (hv : ∀ v, s.handles v = some k → s'.handles v = some k)
    (hk : (s'.sockets k).assoc = (s.sockets k).assoc) : AcceptReady s' l k := by
  obtain ⟨⟨x, hc, hopen, hne⟩, hassoc⟩ := h
  exact ⟨⟨x, hx.trans hc, hv _ hopen, hne⟩, hk.trans hassoc⟩

lemma ListenSock.congr (h : ListenSock s l) (hx : s'.contexts l = s.contexts l)
    (hv : ∀ v k, KeyOf s k l → s.handles v = some k → s'.handles v = some k)
    (hk : ∀ k q, (s.sockets k).assoc = some (q, l) → (s'.sockets k).assoc = some (q, l)) :
    ListenSock s' l := by
  obtain ⟨x, hc, hs⟩ := h
  refine ⟨x, hx.trans hc, hs.imp_right fun ⟨k, hopen, q, hq⟩ => ?_⟩
  exact ⟨k, hv _ k ⟨q, hq⟩ hopen, q, hk k q hq⟩

lemma packetBytes_congr {pkt : Packet}
    (h : ∀ c, pkt.overlapped = some c → s'.contexts c = s.contexts c) :
    packetBytes s' pkt = packetBytes s pkt := by
  unfold packetBytes
  cases ho : pkt.overlapped with
  | none => rfl
  | some c => simp only [h c ho]

lemma queuedBytes_congr (hx : s'.contexts c = s.contexts c)
    (hq : s'.queue s'.workersPort = s.queue s.workersPort) :
    queuedBytes s' c = queuedBytes s c := by
  unfold queuedBytes
  rw [hq]
  refine List.flatMap_congr fun pkt hpkt => packetBytes_congr fun d hd => ?_
  obtain rfl : c = d := by
    have := of_decide_eq_true (List.mem_filter.mp hpkt).2
    exact Option.some.inj (this.symm.trans hd)
  exact hx

/-- Nothing is queued for a context that nothing refers to. -/
lemma queuedBytes_of_quiet (h : s.outstanding c = 0) : queuedBytes s c = [] := by
  have hq : (s.queue s.workersPort).countP (fun pkt => pkt.overlapped = some c) = 0 :=
    (Nat.add_eq_zero_iff.mp h).2
  rw [List.countP_eq_zero] at hq
  rw [queuedBytes, List.filter_eq_nil_iff.mpr hq]
  rfl

lemma Pending.congr {rest : List UInt8} (h : Pending s p c rest)
    (hk : ∀ k, KeyOf s' k c → KeyOf s k c)
    (hs : ∀ k, KeyOf s k c → (s'.sockets k).stream = (s.sockets k).stream)
    (hd : s'.delivered p = s.delivered p) : Pending s' p c rest := by
  intro k hkey
  rw [hd, hs k (hk k hkey)]
  exact h k (hk k hkey)

/-! ## What follows at once -/

lemma outstanding_of_packet {pkt : Packet} (h : pkt ∈ s.queue s.workersPort)
    (hc : pkt.overlapped = some c) : s.outstanding c ≠ 0 := by
  have hpos : 0 < (s.queue s.workersPort).countP (fun pkt => pkt.overlapped = some c) :=
    List.countP_pos_iff.mpr ⟨pkt, h, decide_eq_true hc⟩
  rw [State.outstanding]
  omega

lemma outstanding_of_op {op : PendingOp} (h : op ∈ s.pending) (hc : op.overlapped = c) :
    s.outstanding c ≠ 0 := by
  have hpos : 0 < s.pending.countP (fun op => op.overlapped = c) :=
    List.countP_pos_iff.mpr ⟨op, h, decide_eq_true hc⟩
  rw [State.outstanding]
  omega

lemma Registered.live (h : Registered s c v k p) : Live s c := h.1.1.imp fun _ hx => hx.1

lemma Registered.opened (h : Registered s c v k p) : s.handles v = some k := h.1.2.2.1

lemma Registered.key (h : Registered s c v k p) : KeyOf s k c := ⟨_, h.1.2.2.2⟩

lemma Registered.madeFor (h : Registered s c v k p) : MadeFor s p c :=
  h.2.2.imp fun _ hy => ⟨hy.1, hy.2.1⟩

lemma AcceptReady.live (h : AcceptReady s l k) : Live s l := h.1.imp fun _ hx => hx.1

namespace Inv

variable {t : Tid} (hI : Inv s)
include hI

lemma lt_of_live (h : Live s c) : c < s.nextContext := by
  obtain ⟨x, hx⟩ := h
  by_contra hn
  rw [hI.freshContext c (Nat.le_of_not_lt hn)] at hx
  cases hx

lemma ne_the (h : MadeFor s p c) : s.theSocketContext ≠ some c := by
  obtain ⟨y, hy, hc⟩ := h
  obtain ⟨d, -, hd, hne⟩ := hI.objectOf p y hy
  rwa [← Option.some.inj (hc.symm.trans hd)] at hne

/-- Nothing refers to a context that is not in the heap. -/
lemma outstanding_of_not_live (h : ¬ Live s c) : s.outstanding c = 0 := by
  by_contra ho
  cases hl : s.theSocketContext with
  | none =>
      obtain ⟨hp, hq, -⟩ := hI.idle hl
      exact ho (by rw [State.outstanding, hp, hq]; rfl)
  | some l =>
      by_cases hc : c = l
      · exact h (hc ▸ hI.theLive l hl)
      · obtain ⟨-, ⟨x, hx, -⟩, -⟩ := hI.clientOut l c hl hc ho
        exact h ⟨x, hx⟩

end Inv

end Server

end Alpl.Net
