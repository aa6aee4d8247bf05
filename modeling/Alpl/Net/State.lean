import Alpl.Net.Basic
import Alpl.Interleaving.Program

/-!
# Atomic actions and the shared state

An `Action` is one indivisible step of a thread: one access to a member of `IocpHandler` or to
an object of the heap, one operation on a container, or one call of Windows.  The handlers of
`net/impl/IocpHandler.hpp` are programs over these actions (`Net/IocpHandler.lean`), and
`Net/Exec.lean` says what each action does to the `State`.

The last four fields of `State` are bookkeeping of the run and no memory of the program: which
contexts a thread has in hand (`holds`), which functions it is inside of (`stack`), which workers
have not returned (`alive`), and what has happened so far (`history`, the newest entry first).
-/

namespace Alpl.Net

open Interleaving

/-- The options that the library sets on a socket. -/
inductive SockOpt
  | sndbuf
  | linger
  | updateAcceptContext
  | updateConnectContext
  deriving DecidableEq, Repr

/-- Calls of Windows whose only trace in the model is whether they succeed. -/
inductive SysCall
  | getaddrinfo
  | bind (v : SOCKET)
  | wsaIoctl (v : SOCKET)
  | setsockopt (v : SOCKET) (opt : SockOpt)
  deriving DecidableEq, Repr

/-- One atomic step of a thread. -/
inductive Action
  -- `locker_`
  | enterCriticalSection (site : Frame)
  | leaveCriticalSection
  -- objects of type `socket_context`
  | newContext (sd : SOCKET) (lastOp : LastIoOperation)
  | freeContext (c : ContextPtr)
  | getSocket (c : ContextPtr)
  | setSocket (c : ContextPtr) (v : SOCKET)
  | getIoContext (c : ContextPtr)
  | setLastOperation (c : ContextPtr) (op : LastIoOperation)
  | setSocketAccept (c : ContextPtr) (v : SOCKET)
  | setSentBytes (c : ContextPtr) (n : ℤ)
  -- `socket_contexts_` and `connections_`
  | pushFrontContext (c : ContextPtr)
  | removeContext (c : ContextPtr)
  | countConnection (v : SOCKET)
  | indexConnection (v : SOCKET)
  | assignConnection (v : SOCKET) (p : ConnectionPtr)
  | eraseConnection (v : SOCKET)
  -- objects of type `TcpConnection`
  | newConnection (y : TcpConnection)
  | getConnection (p : ConnectionPtr)
  -- the other members of `IocpHandler`
  | getHandlers
  | getExiting
  | setExiting
  | getIsRunning
  | getIocpHandle
  | setIocpHandle (h : Option Port)
  | getTheSocketContext
  | setTheSocketContext (c : Option ContextPtr)
  | getNumWorkerThreads
  -- calls of Windows
  | sysCall (f : SysCall)
  | listen (v : SOCKET) (backlog : ℕ)
  | wsaSocket
  | closesocket (v : SOCKET)
  | createIoCompletionPort (v : SOCKET) (port : Option Port) (key : ContextPtr)
  | acceptEx (listener accept : SOCKET) (c : ContextPtr) (len : ℕ)
  | wsaRecv (v : SOCKET) (c : ContextPtr) (len : ℕ)
  | wsaSend (v : SOCKET) (c : ContextPtr) (data : List UInt8)
  | send (v : SOCKET) (data : List UInt8) (len : ℤ)
  | getQueuedCompletionStatus (port : Port)
  | postQueuedCompletionStatus (port : Port)
  | waitForWorkers
  | setExitEvent
  | waitExitEvent
  -- calls of a `comm_handler_function`: the handler's own, or that of a connection
  | invokeHandler (k : CallbackKind) (p : Option ConnectionPtr) (data : List UInt8)
  | invokeConnection (q : ConnectionPtr) (k : CallbackKind) (p : Option ConnectionPtr)
      (data : List UInt8)
  | callbackReturns
  -- calls and returns of the library's own functions, and the end of a turn of the loop
  | enter (f : Frame)
  | leave (f : Frame) (rc : ℤ)
  | finish
  | exitThread
  /-- Reading through a `NULL` pointer. -/
  | nullDereference
  deriving DecidableEq, Repr

/-- What an action answers. -/
abbrev Action.Res : Action → Type
  | .enterCriticalSection _ => Bool
  | .newContext _ _ => ContextPtr
  | .getSocket _ => SOCKET
  | .getIoContext _ => IoContext
  | .countConnection _ => ℕ
  | .indexConnection _ => Option ConnectionPtr
  | .newConnection _ => ConnectionPtr
  | .getConnection _ => TcpConnection
  | .getHandlers => Handlers
  | .getExiting => Bool
  | .getIsRunning => Bool
  | .getIocpHandle => Option Port
  | .getTheSocketContext => Option ContextPtr
  | .getNumWorkerThreads => ℕ
  | .sysCall _ => Bool
  | .listen _ _ => Bool
  | .wsaSocket => SOCKET
  | .createIoCompletionPort _ _ _ => Option Port
  | .acceptEx _ _ _ _ => CallResult
  | .wsaRecv _ _ _ => CallResult
  | .wsaSend _ _ _ => CallResult
  | .send _ _ _ => ℤ
  | .getQueuedCompletionStatus _ => Packet
  | .waitForWorkers => Bool
  | .setExitEvent => Bool
  | .invokeHandler _ _ _ => Bool
  | .invokeConnection _ _ _ _ => Bool
  | .nullDereference => Empty
  | _ => Unit

/-- An entry of the history. -/
inductive Record
  /-- Thread `t` made the call of Windows `a`, and it succeeded or failed. -/
  | call (t : Tid) (a : Action) (ok : Bool)
  | entered (t : Tid) (f : Frame)
  | returned (t : Tid) (f : Frame) (rc : ℤ)
  /-- A user callback was called, for connection `p` and with `data`. -/
  | callback (t : Tid) (k : CallbackKind) (p : Option ConnectionPtr) (data : List UInt8)
  /-- An empty `comm_handler_function` was called. -/
  | emptyCall (t : Tid) (k : CallbackKind)
  deriving DecidableEq, Repr

/-- Everything the threads share. -/
structure State where
  -- members of `IocpHandler`
  handlers : Handlers
  exiting : Bool
  isRunning : Bool
  locker : CriticalSection Tid
  theSocketContext : Option ContextPtr
  socketContexts : List ContextPtr
  connections : SOCKET → Option (Option ConnectionPtr)
  iocpHandle : Option Port
  numWorkerThreads : ℕ
  exitEvent : Bool
  -- the heap
  contexts : ContextPtr → Option SocketContext
  nextContext : ℕ
  tcpConnections : ConnectionPtr → Option TcpConnection
  nextConnection : ℕ
  -- Windows; `workersPort` is the port `init_handler` created and the workers were given
  workersPort : Port
  nextPort : ℕ
  handles : SOCKET → Option SockId
  sockets : SockId → SocketObject
  sent : SockId → List UInt8
  nextSock : ℕ
  pending : List PendingOp
  queue : Port → List Packet
  -- the run
  holds : Tid → List ContextPtr
  stack : Tid → List Frame
  alive : Tid → Bool
  history : List Record

namespace State

/-- The operations and packets that refer to a context. -/
def outstanding (s : State) (c : ContextPtr) : ℕ :=
  s.pending.countP (fun op => op.overlapped = c) +
    (s.queue s.workersPort).countP (fun pkt => pkt.overlapped = some c)

/-- The part of a data callback that concerns connection `p`. -/
def dataFor (p : ConnectionPtr) : Record → List UInt8
  | .callback _ .onDataReceived (some q) data => if q = p then data else []
  | _ => []

/-- The concatenation of the buffers passed to `onDataReceived` for connection `p`. -/
def deliveredIn (p : ConnectionPtr) : List Record → List UInt8
  | [] => []
  | r :: h => deliveredIn p h ++ dataFor p r

def delivered (s : State) (p : ConnectionPtr) : List UInt8 := deliveredIn p s.history

end State

/-- The pieces of code a thread can enter. -/
inductive Label
  /-- The loop of `IocpHandler::WorkerThread`, given its port. -/
  | workerThread (hIOCP : Port)
  /-- `TcpServer::Start`, from the return of `iocph_->start()` on. -/
  | startServer
  /-- `TcpClient::Start`, from the return of `iocph_->start()` on. -/
  | startClient
  /-- `TcpServer::Stop`. -/
  | stop
  /-- `TcpConnection::Send`. -/
  | send (p : ConnectionPtr) (data : List UInt8)
  deriving DecidableEq, Repr

/-- Programs over the actions of the library. -/
abbrev P := Prog Action Action.Res

/-- One action of the library. -/
abbrev act (a : Action) : P a.Res := Prog.perform a

end Alpl.Net
