import Alpl.Net.State
import Mathlib.Logic.Function.Basic

/-!
# What the actions do

`exec t a o s` performs action `a` of thread `t` with outcome `o`.  There is no successor when
the action has to wait (a lock another thread owns, an empty completion queue), when Windows
cannot choose that outcome, and when the action has no defined meaning (an access to a freed
object); that the threads never come to the last case is something to prove.

`osStep` is the network: an overlapped operation in flight completes, with data, with none, or
with a failure, and its packet goes to the port its socket is associated with.
-/

namespace Alpl.Net

open Interleaving

namespace State

/-- Append to the history. -/
def record (s : State) (r : Record) : State := { s with history := r :: s.history }

def setHolds (s : State) (t : Tid) (hs : List ContextPtr) : State :=
  { s with holds := Function.update s.holds t hs }

def setStack (s : State) (t : Tid) (fs : List Frame) : State :=
  { s with stack := Function.update s.stack t fs }

/-- Write one object of type `socket_context`. -/
def setContext (s : State) (c : ContextPtr) (x : Option SocketContext) : State :=
  { s with contexts := Function.update s.contexts c x }

end State

/-- `create_socket_context` fills a new object so. -/
def SocketContext.new (sd : SOCKET) (lastOp : LastIoOperation) : SocketContext where
  socket := sd
  ioContext :=
    { buffer := List.replicate maxBuffSize 0
      totalBytes := 0
      sentBytes := 0
      lastOperation := lastOp
      socketAccept := invalidSocket }

/-- The frame a worker is in once it holds a packet. -/
def Packet.frame (s : State) (pkt : Packet) : Frame :=
  match pkt.overlapped with
  | none => .exitPacket
  | some c =>
    match s.contexts c with
    | some x => .completion x.ioContext.lastOperation c
    | none => .exitPacket

/-- One action, with one outcome. -/
def exec (t : Tid) : (a : Action) → Outcome → State → Option (a.Res × State)
  -- `EnterCriticalSection` may raise instead of entering
  | .enterCriticalSection _, .ok, s =>
    (s.locker.enter t).map fun cs => (true, { s with locker := cs })
  | .enterCriticalSection site, .fail _, s =>
    some (false, s.record (.call t (.enterCriticalSection site) false))
  | .leaveCriticalSection, .ok, s =>
    (s.locker.leave t).map fun cs => ((), { s with locker := cs })
  | .newContext sd lastOp, .ok, s =>
    some (s.nextContext,
      ({ s with nextContext := s.nextContext + 1 }.setContext s.nextContext
        (some (SocketContext.new sd lastOp))).setHolds t (s.nextContext :: s.holds t))
  | .freeContext c, .ok, s =>
    (s.contexts c).map fun _ =>
      ((), (s.setContext c none).setHolds t ((s.holds t).erase c))
  | .getSocket c, .ok, s => (s.contexts c).map fun x => (x.socket, s)
  | .setSocket c v, .ok, s =>
    (s.contexts c).map fun x => ((), s.setContext c (some { x with socket := v }))
  | .getIoContext c, .ok, s => (s.contexts c).map fun x => (x.ioContext, s)
  | .setLastOperation c op, .ok, s =>
    (s.contexts c).map fun x =>
      ((), s.setContext c (some { x with ioContext.lastOperation := op }))
  | .setSocketAccept c v, .ok, s =>
    (s.contexts c).map fun x =>
      ((), s.setContext c (some { x with ioContext.socketAccept := v }))
  | .setSentBytes c n, .ok, s =>
    (s.contexts c).map fun x =>
      ((), s.setContext c (some { x with ioContext.sentBytes := n }))
  | .pushFrontContext c, .ok, s => some ((), { s with socketContexts := c :: s.socketContexts })
  -- `std::list::remove` removes every element equal to its argument
  | .removeContext c, .ok, s =>
    some ((), { s with socketContexts := s.socketContexts.filter (· ≠ c) })
  | .countConnection v, .ok, s => some (if (s.connections v).isSome then 1 else 0, s)
  -- `operator[]` enters a `NULL` for a key that is missing
  | .indexConnection v, .ok, s =>
    match s.connections v with
    | some p => some (p, s)
    | none => some (none, { s with connections := Function.update s.connections v (some none) })
  | .assignConnection v p, .ok, s =>
    some ((), { s with connections := Function.update s.connections v (some (some p)) })
  | .eraseConnection v, .ok, s =>
    some ((), { s with connections := Function.update s.connections v none })
  | .newConnection y, .ok, s =>
    some (s.nextConnection,
      { s with
        tcpConnections := Function.update s.tcpConnections s.nextConnection (some y)
        nextConnection := s.nextConnection + 1 })
  | .getConnection p, .ok, s => (s.tcpConnections p).map fun y => (y, s)
  | .getHandlers, .ok, s => some (s.handlers, s)
  | .getExiting, .ok, s => some (s.exiting, s)
  | .setExiting, .ok, s => some ((), { s with exiting := true })
  | .getIsRunning, .ok, s => some (s.isRunning, s)
  | .getIocpHandle, .ok, s => some (s.iocpHandle, s)
  | .setIocpHandle h, .ok, s => some ((), { s with iocpHandle := h })
  | .getTheSocketContext, .ok, s => some (s.theSocketContext, s)
  | .setTheSocketContext c, .ok, s => some ((), { s with theSocketContext := c })
  | .getNumWorkerThreads, .ok, s => some (s.numWorkerThreads, s)
  | .sysCall f, .ok, s => some (true, s.record (.call t (.sysCall f) true))
  | .sysCall f, .fail _, s => some (false, s.record (.call t (.sysCall f) false))
  | .listen v backlog, .ok, s =>
    (s.handles v).map fun k =>
      (true, { s with
        sockets := Function.update s.sockets k { s.sockets k with listening := true } }.record
          (.call t (.listen v backlog) true))
  | .listen v backlog, .fail _, s => some (false, s.record (.call t (.listen v backlog) false))
  -- a value that is open, or that means failure, is never handed out
  | .wsaSocket, .socket v, s =>
    if s.handles v = none ∧ v ≠ invalidSocket then
      some (v, { s with
        handles := Function.update s.handles v (some s.nextSock)
        sockets := Function.update s.sockets s.nextSock SocketObject.fresh
        nextSock := s.nextSock + 1 }.record (.call t .wsaSocket true))
    else none
  | .wsaSocket, .fail _, s => some (invalidSocket, s.record (.call t .wsaSocket false))
  | .closesocket v, .ok, s =>
    some ((), { s with handles := Function.update s.handles v none }.record
      (.call t (.closesocket v) (s.handles v).isSome))
  -- with a port the socket joins it; with `NULL` a new port is made
  | .createIoCompletionPort v port key, .ok, s =>
    match s.handles v with
    | none => none
    | some k =>
      if (s.sockets k).assoc = none then
        some (some (port.getD s.nextPort), { s with
          nextPort := if port.isSome then s.nextPort else s.nextPort + 1
          sockets := Function.update s.sockets k
            { s.sockets k with assoc := some (port.getD s.nextPort, key) } }.record
              (.call t (.createIoCompletionPort v port key) true))
      else none
  | .createIoCompletionPort v port key, .fail _, s =>
    some (none, s.record (.call t (.createIoCompletionPort v port key) false))
  -- `AcceptEx` returns a `BOOL`: `TRUE`, or `FALSE` with the reason in the last error
  | .acceptEx listener accept c len, .ok, s => acceptEx t listener accept c len ⟨1, 0⟩ s
  | .acceptEx listener accept c len, .pending, s =>
    acceptEx t listener accept c len ⟨0, errorIoPending⟩ s
  | .acceptEx listener accept c len, .fail e, s =>
    if e = errorIoPending then none
    else some (⟨0, e⟩, s.record (.call t (.acceptEx listener accept c len) false))
  | .wsaRecv v c len, .ok, s => post t (.wsaRecv v c len) .recv v c len ⟨0, 0⟩ s
  | .wsaRecv v c len, .pending, s =>
    post t (.wsaRecv v c len) .recv v c len ⟨socketError, errorIoPending⟩ s
  | .wsaRecv v c len, .fail e, s =>
    if e = errorIoPending then none
    else some (⟨socketError, e⟩, s.record (.call t (.wsaRecv v c len) false))
  | .wsaSend v c data, .ok, s => post t (.wsaSend v c data) .send v c data.length ⟨0, 0⟩ s
  | .wsaSend v c data, .pending, s =>
    post t (.wsaSend v c data) .send v c data.length ⟨socketError, errorIoPending⟩ s
  | .wsaSend v c data, .fail e, s =>
    if e = errorIoPending then none
    else some (⟨socketError, e⟩, s.record (.call t (.wsaSend v c data) false))
  | .send v data len, .bytes n, s =>
    match s.handles v with
    | none => none
    | some k =>
      if (n : ℤ) ≤ len then
        some ((n : ℤ), { s with
          sent := Function.update s.sent k (s.sent k ++ data.take n) }.record
            (.call t (.send v data len) true))
      else none
  | .send v data len, .fail _, s =>
    some (socketError, s.record (.call t (.send v data len) false))
  | .getQueuedCompletionStatus port, .ok, s =>
    match s.queue port with
    | [] => none
    | pkt :: rest =>
      some (pkt, ({ s with queue := Function.update s.queue port rest }.setHolds t
        pkt.key.toList).setStack t [pkt.frame s])
  | .postQueuedCompletionStatus port, .ok, s =>
    some ((), { s with
      queue := Function.update s.queue port (s.queue port ++ [Packet.exit]) }.record
        (.call t (.postQueuedCompletionStatus port) true))
  | .postQueuedCompletionStatus port, .fail _, s =>
    some ((), s.record (.call t (.postQueuedCompletionStatus port) false))
  | .waitForWorkers, .ok, s =>
    if ∀ i < s.numWorkerThreads, s.alive (.worker i) = false then some (true, s) else none
  | .waitForWorkers, .fail _, s => some (false, s)
  | .setExitEvent, .ok, s => some (true, { s with exitEvent := true })
  | .setExitEvent, .fail _, s => some (false, s)
  | .waitExitEvent, .ok, s => if s.exitEvent then some ((), s) else none
  | .invokeHandler k p data, .ok, s => some (invoke t k p data (s.handlers.isSet k) s)
  | .invokeConnection q k p data, .ok, s =>
    (s.tcpConnections q).map fun y => invoke t k p data (y.handlers.isSet k) s
  | .callbackReturns, .ok, s => some ((), s.setStack t (s.stack t).tail)
  | .enter f, .ok, s => some ((), (s.setStack t (f :: s.stack t)).record (.entered t f))
  | .leave f rc, .ok, s =>
    some ((), (s.setStack t (s.stack t).tail).record (.returned t f rc))
  | .finish, .ok, s => some ((), (s.setHolds t []).setStack t [])
  | .exitThread, .ok, s => some ((), { s with alive := Function.update s.alive t false })
  | _, _, _ => none
where
  /-- An accept is outstanding; the context now belongs to the queue. -/
  acceptEx (t : Tid) (listener accept : SOCKET) (c : ContextPtr) (len : ℕ) (r : CallResult)
      (s : State) : Option (CallResult × State) :=
    match s.handles listener, s.handles accept with
    | some kl, some ka =>
      if (s.sockets kl).listening then
        some (r, ({ s with pending := ⟨.accept ka, kl, c, len⟩ :: s.pending }.setHolds t
          ((s.holds t).erase c)).record (.call t (.acceptEx listener accept c len) true))
      else none
    | _, _ => none
  /-- An operation on a connected socket is outstanding. -/
  post (t : Tid) (a : Action) (kind : OpKind) (v : SOCKET) (c : ContextPtr) (len : ℕ)
      (r : CallResult) (s : State) : Option (CallResult × State) :=
    (s.handles v).map fun k =>
      (r, ({ s with pending := ⟨kind, k, c, len⟩ :: s.pending }.setHolds t
        ((s.holds t).erase c)).record (.call t a true))
  /-- A call of a `comm_handler_function`; an empty one throws. -/
  invoke (t : Tid) (k : CallbackKind) (p : Option ConnectionPtr) (data : List UInt8)
      (isSet : Bool) (s : State) : Bool × State :=
    if isSet then
      (true, (s.setStack t (.callback k p :: s.stack t)).record (.callback t k p data))
    else (false, s.record (.emptyCall t k))

/-! ## The network -/

/-- A move of Windows: an operation completes. -/
inductive OsEvent
  /-- With these bytes, or with none. -/
  | complete (op : PendingOp) (bytes : List UInt8)
  /-- With a failure, which carries no data. -/
  | abort (op : PendingOp)
  deriving DecidableEq, Repr

/-- The bytes of a completion at the front of a buffer. -/
def overwrite (buffer bytes : List UInt8) : List UInt8 := bytes ++ buffer.drop bytes.length

namespace State

/-- The packet of a completed operation goes to the port of its socket, if it has one. -/
def postPacket (s : State) (op : PendingOp) (succeed : Bool) (n : ℕ) : State :=
  match (s.sockets op.sock).assoc with
  | some (port, key) =>
    { s with
      queue := Function.update s.queue port
        (s.queue port ++ [⟨succeed, n, some key, some op.overlapped⟩]) }
  | none => s

/-- Data for the socket object `k`: onto its byte stream and into the buffer of the context. -/
def fill (s : State) (k : SockId) (c : ContextPtr) (bytes : List UInt8) : State :=
  { s with
    sockets := Function.update s.sockets k
      { s.sockets k with stream := (s.sockets k).stream ++ bytes }
    contexts := Function.update s.contexts c
      ((s.contexts c).map fun x =>
        { x with ioContext.buffer := overwrite x.ioContext.buffer bytes }) }

/-- The data of a completed operation. -/
def receiveData (s : State) (op : PendingOp) (bytes : List UInt8) : State :=
  match op.kind with
  | .send => s
  | .accept into => s.fill into op.overlapped bytes
  | .recv => s.fill op.sock op.overlapped bytes

end State

/-- One move of the network. -/
def osStep : OsEvent → State → Option State
  | .complete op bytes, s =>
    if op ∈ s.pending ∧ bytes.length ≤ op.len then
      some (({ s with pending := s.pending.erase op }.receiveData op bytes).postPacket op true
        bytes.length)
    else none
  | .abort op, s =>
    if op ∈ s.pending then
      some ({ s with pending := s.pending.erase op }.postPacket op false 0)
    else none

/-- What the network can do. -/
lemma osStep_cases {e : OsEvent} {s s' : State} (h : osStep e s = some s') :
    (∃ op bytes, e = .complete op bytes ∧ op ∈ s.pending ∧ bytes.length ≤ op.len ∧
      s' = ({ s with pending := s.pending.erase op }.receiveData op bytes).postPacket op true
        bytes.length) ∨
    ∃ op, e = .abort op ∧ op ∈ s.pending ∧
      s' = { s with pending := s.pending.erase op }.postPacket op false 0 := by
  cases e with
  | complete op bytes =>
      simp only [osStep] at h
      split at h
      · rename_i hc
        exact .inl ⟨op, bytes, rfl, hc.1, hc.2, (Option.some.inj h).symm⟩
      · cases h
  | abort op =>
      simp only [osStep] at h
      split at h
      · rename_i hop
        exact .inr ⟨op, rfl, hop, (Option.some.inj h).symm⟩
      · cases h

end Alpl.Net
