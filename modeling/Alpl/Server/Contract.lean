import Alpl.Server.Invariant

/-!
# The contract of a server

What a thread of a server may count on while the others run (`Server.Rely`), the condition under
which each action keeps the invariant (`Server.Allowed`), and the contract they make up.  It
stands on the contract of the handler, whose invariant it takes as known.

A thread may count on the contexts in its hands: nobody else touches them, their sockets, or
their entries in `connections_`.  Whoever has the listening context in hand may also count on
`iocp_handle_` and on the sockets that are not yet associated with a port.
-/

namespace Alpl.Net

open Interleaving

namespace Server

/-! ## What the others leave alone -/

/-- What the others leave alone of a context that a thread has in hand. -/
structure Kept (c : ContextPtr) (s s' : State) : Prop where
  context : s.theSocketContext ≠ some c → s'.contexts c = s.contexts c
  listed : c ∈ s'.socketContexts ↔ c ∈ s.socketContexts
  assoc : ∀ k q, (s'.sockets k).assoc = some (q, c) ↔ (s.sockets k).assoc = some (q, c)
  stream : ∀ k, KeyOf s k c → (s'.sockets k).stream = (s.sockets k).stream
  handles : s.theSocketContext ≠ some c → ∀ v k, KeyOf s k c →
    (s'.handles v = some k ↔ s.handles v = some k)
  connections : s.theSocketContext ≠ some c → ∀ v k, s.handles v = some k → KeyOf s k c →
    s'.connections v = s.connections v
  madeFor : ∀ p, MadeFor s' p c ↔ MadeFor s p c
  delivered : ∀ p, MadeFor s p c → s'.delivered p = s.delivered p
  disconnects : disconnects s' c = disconnects s c

/-- What the others leave alone if thread `t` has the listening context in hand. -/
structure KeptListener (t : Tid) (l : ContextPtr) (s s' : State) : Prop where
  ioContext : ∀ x, s.contexts l = some x →
    ∃ x', s'.contexts l = some x' ∧ x'.ioContext = x.ioContext
  port : s'.iocpHandle = s.iocpHandle
  last : ∀ z, lastStartAccept s.history = some (t, z) → lastStartAccept s'.history = some (t, z)
  first : lastStartAccept s.history = none → lastStartAccept s'.history = none
  unassociated : ∀ v k, s.handles v = some k → (s.sockets k).assoc = none →
    s'.handles v = some k ∧ s'.sockets k = s.sockets k

/-- What a move of somebody else does to the memory, as thread `t` sees it. -/
structure Respects (t : Tid) (s s' : State) : Prop where
  alone : t = .main → s.theSocketContext = none → SameMemory s s'
  the : ∀ l, s.theSocketContext = some l → s'.theSocketContext = some l
  theContext : ∀ l x, s.theSocketContext = some l → s.contexts l = some x →
    ∃ x', s'.contexts l = some x' ∧ (x'.socket = x.socket ∨ x'.socket = invalidSocket)
  theSocket : t = .main → ∀ l x, s.theSocketContext = some l → s.contexts l = some x →
    ∃ x', s'.contexts l = some x' ∧ x'.socket = x.socket
  listenSock : t = .main → ∀ l, s.theSocketContext = some l → ListenSock s l → ListenSock s' l
  closed : t = .main → ∀ l, s.theSocketContext = some l → Closed s l → Closed s' l
  holds : s'.holds t = s.holds t
  kept : ∀ c ∈ s.holds t, Kept c s s'
  listener : ∀ l, s.theSocketContext = some l → l ∈ s.holds t → KeptListener t l s s'

/-- What the others may do while `t` runs. -/
structure Rely (t : Tid) (s s' : State) : Prop extends Steady t s s', Respects t s s'

/-- Nobody takes a registration away but `disconnect` for that very context. -/
def Keeps (m : Option Tid) (s s' : State) : Prop :=
  ∀ c v k p, Registered s c v k p → (∀ t, m = some t → .disconnect (some c) ∉ s.stack t) →
    Registered s' c v k p

/-! ## The conditions on the actions -/

/-- `t` is the main thread and there is no `the_socket_context_` yet. -/
def Starting (t : Tid) (s : State) : Prop := t = .main ∧ s.theSocketContext = none

/-- `t` has the listening context in hand. -/
def Accepting (t : Tid) (s : State) : Prop :=
  ∃ l, s.theSocketContext = some l ∧ l ∈ s.holds t

/-- `t` has the context of a connection in hand. -/
def Serving (t : Tid) (c : ContextPtr) (s : State) : Prop :=
  c ∈ s.holds t ∧ ∃ l, s.theSocketContext = some l ∧ c ≠ l

/-- The user has been given every byte the network brought for context `c`. -/
def Drained (s : State) (c : ContextPtr) : Prop :=
  ∀ p, s.handlers.onDataReceived = true → MadeFor s p c → Pending s p c []

/-- Thread `t` may stop handling context `c` without giving it to anybody. -/
def LetGo (s : State) (c : ContextPtr) : Prop :=
  s.exiting = true ∨ s.theSocketContext = some c ∧ NotRearmed s ∨
    s.theSocketContext ≠ some c ∧ s.theSocketContext ≠ none ∧ Abandoned s c ∧ Drained s c

/-- Thread `t` is not inside a callback for data. -/
def OutsideData (t : Tid) (s : State) : Prop :=
  ∀ p, .callback .onDataReceived p ∉ s.stack t

/-- The condition under which an action keeps the invariant. -/
def Allowed (t : Tid) : Action → State → Prop
  | .getSocket c, s => c ∈ s.holds t ∨ s.theSocketContext = some c
  | .getIoContext c, s => c ∈ s.holds t ∨ s.theSocketContext = some c
  | .countConnection v, s => ∃ p, s.connections v = some (some p)
  | .newContext sd op, s => Starting t s ∨ op = .ioConnect ∧ (∃ i, t = .worker i) ∧
      ∃ l x, s.theSocketContext = some l ∧ l ∈ s.holds t ∧ s.contexts l = some x ∧
        sd ≠ x.socket
  | .freeContext c, s => c ∈ s.holds t ∧ (Starting t s ∨ Serving t c s) ∧ Closed s c ∧
      Drained s c ∧ OutsideData t s ∧ ∀ k, KeyOf s k c → c ∉ s.socketContexts
  | .setSocket c v, s => v = invalidSocket ∧ Closed s c ∧
      (Serving t c s ∨ t = .main ∧ s.theSocketContext = some c ∧ .stop ∈ s.stack .main)
  | .setLastOperation c op, s => Serving t c s ∧ op = .ioReceive
  | .setSocketAccept c _, s => s.theSocketContext = some c ∧ c ∈ s.holds t
  | .pushFrontContext c, s => Serving t c s ∧ ∃ k, KeyOf s k c
  | .removeContext c, s => Serving t c s ∧ Closed s c
  | .indexConnection v, s => ∃ p, s.connections v = some (some p)
  | .assignConnection v p, s => s.connections v = none ∧
      ∃ c k, Serving t c s ∧ Attached s c v k ∧ ObjectOf s p c v
  | .eraseConnection v, s => ∃ c k, Serving t c s ∧ s.handles v = some k ∧ KeyOf s k c ∧
      .disconnect (some c) ∈ s.stack t
  | .newConnection y, s => ∃ c, y.overlapped = some c ∧ Serving t c s ∧ ∀ p, ¬ MadeFor s p c
  | .setIocpHandle h, s => (Starting t s ∨ Accepting t s) ∧ ∀ q, h = some q → q = s.workersPort
  | .setTheSocketContext c, s => Starting t s ∧ .start ∈ s.stack .main ∧ ∀ l, c = some l →
      s.holds .main = [l] ∧ (∀ d, Live s d → d = l) ∧
      (∃ x, s.contexts l = some x ∧ x.ioContext.lastOperation = .ioAccept) ∧ ListenSock s l ∧
      ∀ k, (s.sockets k).listening = true → (s.sockets k).assoc = some (s.workersPort, l)
  | .listen _ _, s => Starting t s
  | .wsaSocket, s => Starting t s ∨ Accepting t s
  | .closesocket v, s =>
      (∃ c k, Serving t c s ∧ s.handles v = some k ∧ KeyOf s k c ∧ s.connections v = none ∧
        .disconnect (some c) ∈ s.stack t) ∨
      t = .main ∧ .stop ∈ s.stack .main ∧ ∃ l k, s.theSocketContext = some l ∧
        s.handles v = some k ∧ KeyOf s k l
  | .createIoCompletionPort v port c, s => port = some s.workersPort ∧ c ∈ s.holds t ∧
      (Starting t s ∨ Accepting t s ∧ s.theSocketContext ≠ some c) ∧ (∀ k, ¬ KeyOf s k c) ∧
      (∀ p, ¬ MadeFor s p c) ∧ ∃ x, s.contexts c = some x ∧ x.socket = v
  | .acceptEx ls v c _, s => s.theSocketContext = some c ∧ c ∈ s.holds t ∧
      s.iocpHandle = some s.workersPort ∧
      (∃ x, s.contexts c = some x ∧ (x.socket = ls ∨ x.socket = invalidSocket) ∧
        x.ioContext.socketAccept = v) ∧
      ∀ k, s.handles v = some k → (s.sockets k).assoc = none ∧ (s.sockets k).stream = []
  | .wsaRecv v c _, s => Serving t c s ∧ disconnects s c = 0 ∧ Drained s c ∧ OutsideData t s ∧
      (∃ x, s.contexts c = some x ∧ x.ioContext.lastOperation = .ioReceive) ∧
      ∃ k p, Registered s c v k p
  | .getQueuedCompletionStatus q, s => q = s.workersPort ∧ s.holds t = [] ∧ ∃ i, t = .worker i
  | .postQueuedCompletionStatus q, s => q = s.workersPort ∧ s.exiting = true ∧
      s.theSocketContext ≠ none
  | .invokeHandler k p _, s => k ≠ .onDataReceived ∧ ∃ q c fs, p = some q ∧
      s.stack t = .disconnect (some c) :: fs ∧ Serving t c s ∧ MadeFor s q c
  | .invokeConnection _ k p data, s => k = .onDataReceived → ∃ q c, p = some q ∧
      Serving t c s ∧ MadeFor s q c ∧ Pending s q c data
  | .callbackReturns, s => ∃ k p fs, s.stack t = .callback k p :: fs
  | .enter f, s => match f with
    | .handleReceive c => ∃ v k p, Registered s c v k p
    | .disconnect c => ∃ c', c = some c' ∧ Serving t c' s ∧ disconnects s c' = 0
    | .startAccept => ∃ l, s.theSocketContext = some l ∧ l ∈ s.holds t ∧
        (.completion .ioAccept l ∈ s.stack t ∨ t = .main ∧ .start ∈ s.stack .main)
    | .start => ¬ s.started
    | .completion _ _ => False
    | .callback _ _ => False
    | _ => True
  | .leave f rc, s => (∃ fs, s.stack t = f :: fs) ∧ match f with
    | .disconnect (some c) => (c ∈ s.holds t → ∃ v k p, Registered s c v k p) ∧
        (rc = commSuccess → c ∉ s.holds t)
    | .startAccept => rc = commSuccess → AcceptFault s ∨ AcceptCalled t s.history
    | .start => t = .main ∧ s.stack .main = [.start] ∧
        (rc = commSuccess → lastStartAccept s.history ≠ none) ∧
        ∀ l, s.theSocketContext = some l → l ∈ s.holds .main → NotRearmed s
    | .stop => t = .main ∧ ∃ l, s.theSocketContext = some l ∧ ListenSock s l ∧ Closed s l
    | .completion _ _ => False
    | _ => True
  | .finish, s => (∀ c ∈ s.holds t, LetGo s c) ∧
      (t = .main → ∀ l, s.theSocketContext = some l → ListenSock s l)
  | .setExiting, _ => t = .main
  | .exitThread, s => s.theSocketContext ≠ none
  | .setSentBytes _ _, _ => False
  | .wsaSend _ _ _, _ => False
  | .nullDereference, _ => False
  | _, _ => True

/-! ## The contract -/

/-- A call that makes worker `t` leave its loop: one of Windows that failed, or that of an empty
`onDisconnected`. -/
def isWorkerFault (t : Tid) : Record → Bool
  | .call u (.sysCall (.setsockopt _ .updateAcceptContext)) false => u = t
  | .call u (.createIoCompletionPort _ _ _) false => u = t
  | .call u (.enterCriticalSection .createSocketContext) false => u = t
  | .call u .wsaSocket false => u = t
  | .emptyCall u _ => u = t
  | _ => false

def WorkerFault (t : Tid) (s : State) : Prop := ∃ r ∈ s.history, isWorkerFault t r = true

/-- Worker `t` has a reason to have left its loop. -/
def MayLeave (u : Setup) (t : Tid) (s : State) : Prop :=
  ∀ i < u.workers, t = .worker i → s.exiting = true ∨ WorkerFault t s

/-- Thread `t` is between two pieces of code. -/
def Empty (t : Tid) (s : State) : Prop := s.stack t = [] ∧ s.holds t = []

/-- The main thread before `Start` has made anything. -/
def Blank (s : State) : Prop :=
  s.theSocketContext = none ∧ s.iocpHandle = some s.workersPort ∧ (∀ c, s.contexts c = none) ∧
    (∀ k, s.sockets k = SocketObject.fresh) ∧ ¬ s.started

/-- The assertions of the contract. -/
def contract (u : Setup) : Contract State Tid Label Action where
  Known s := Handler.Inv s ∧ SetUp u s
  Inv := Inv
  Rely := Rely
  Guar := Keeps
  Allowed := Allowed
  Idle t s := Empty t s ∧ MayLeave u t s
  Entry t l s := Empty t s ∧ match l with
    | .workerThread q => q = handlerPort ∧ ∃ i, t = .worker i
    | .startServer => t = .main ∧ Blank s
    | .stop => t = .main ∧ s.theSocketContext ≠ none
    | .send _ _ => ∃ i, t = .user i
    | .startClient => False
  Died t s := WorkerFault t s

/-! ## Moves -/

/-- A move of `m` from `s` to `s'` that keeps the invariant and what the others count on. -/
structure Move (m : Option Tid) (s s' : State) : Prop where
  inv : Inv s'
  respects : ∀ u, m ≠ some u → Respects u s s'
  keeps : Keeps m s s'

lemma Kept.refl (c : ContextPtr) (s : State) : Kept c s s :=
  ⟨fun _ => rfl, Iff.rfl, fun _ _ => Iff.rfl, fun _ _ => rfl, fun _ _ _ _ => Iff.rfl,
    fun _ _ _ _ _ => rfl, fun _ => Iff.rfl, fun _ _ => rfl, rfl⟩

lemma KeptListener.refl (t : Tid) (l : ContextPtr) (s : State) : KeptListener t l s s :=
  ⟨fun x hx => ⟨x, hx, rfl⟩, rfl, fun _ h => h, id, fun _ _ h _ => ⟨h, rfl⟩⟩

lemma Respects.refl (t : Tid) (s : State) : Respects t s s :=
  ⟨fun _ _ => .refl s, fun _ h => h, fun _ x _ h => ⟨x, h, .inl rfl⟩,
    fun _ _ x _ h => ⟨x, h, rfl⟩, fun _ _ _ h => h, fun _ _ _ h => h, rfl, fun c _ => .refl c s,
    fun l _ _ => .refl t l s⟩

lemma Move.refl {m : Option Tid} {s : State} (hI : Inv s) : Move m s s :=
  ⟨hI, fun u _ => .refl u s, fun _ _ _ _ h _ => h⟩

end Server

end Alpl.Net
