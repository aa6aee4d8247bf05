import Alpl.Net.IocpHandler
import Alpl.Net.Exec
import Alpl.Interleaving.Machine

/-!
# `TcpServer`, `TcpClient` and `TcpConnection`

The programs of the threads that do not belong to the handler, and the machine that runs them
beside the workers.  A run begins where `iocph_->start()` has returned `COMM_SUCCESS`: the port
exists, every worker is at the top of its loop, and the main thread goes on with the rest of
`Start`.  Before that point there is one thread only, and until the main thread has associated a
socket with the port no worker can move.
-/

namespace Alpl.Net

open Interleaving

/-! ## `TcpServer` -/

def defaultBacklog : ℕ := 10

/-- `create_listener`, with the member `ls_` it leaves behind. -/
def createListener (backlog : ℕ) : P (ℤ × SOCKET) := do
  let resolved ← act (.sysCall .getaddrinfo)
  if !resolved then return (commInitFailed, invalidSocket)
  else do
    let ls ← createTcpSocket
    if ls = invalidSocket then return (commInitFailed, ls)
    else do
      let bound ← act (.sysCall (.bind ls))
      if !bound then return (commInitFailed, ls)
      else do
        let listening ← act (.listen ls backlog)
        if !listening then return (commInitFailed, ls) else return (commSuccess, ls)

def initAccept (ls : SOCKET) : P ℤ := do
  let l ← updateCompletionPort ls .ioAccept false
  act (.setTheSocketContext l)
  match l with
  | none => return commInitFailed
  | some _ => do
    let loaded ← act (.sysCall (.wsaIoctl ls))
    if !loaded then return commInitFailed
    else do
      let rc ← startAccept
      if rc ≠ commSuccess then return commInitFailed else return commSuccess

/-- `TcpServer::Start`, from the return of `iocph_->start()` on. -/
def startServer : P ℤ :=
  call .start do
    let r ← createListener defaultBacklog
    if r.1 ≠ commSuccess then return commInitFailed
    else do
      let rc ← initAccept r.2
      if rc ≠ commSuccess then return commInitFailed else return commSuccess

def stop : P ℤ :=
  call .stop do
    let _ ← exiting
    act .waitExitEvent
    return commSuccess

/-! ## `TcpClient` -/

/-- `init_receive`, which does not test what `updateCompletionPort` returned. -/
def initReceive (v : SOCKET) : P ℤ := do
  let l ← updateCompletionPort v .ioReceive true
  act (.setTheSocketContext l)
  deref l fun l => do
    act (.setLastOperation l .ioReceive)
    let v ← act (.getSocket l)
    let r ← act (.wsaRecv v l maxBuffSize)
    if r.failed then do
      let _ ← disconnect (some l) false
      return commSuccess
    else return commSuccess

/-- `TcpClient::Start`, from the return of `iocph_->start()` on; `p` is `&connection_`. -/
def startClient (p : ConnectionPtr) : P ℤ :=
  call .start do
    let y ← act (.getConnection p)
    let rc ← initReceive y.socket
    if rc ≠ commSuccess then return commInitFailed else return commSuccess

/-! ## `TcpConnection` -/

/-- `on_sentcompleted` of the connection `p`. -/
def onSentCompleted (p : ConnectionPtr) : P Unit := do
  let y ← act (.getConnection p)
  if y.handlers.onSentCompleted then callConnection p .onSentCompleted (some p) [] else pure ()

/-- The `int` that a `size_t` becomes as the length of `send`. -/
def toInt32 (n : ℕ) : ℤ := (BitVec.ofNat 32 n).toInt

/-- `TcpConnection::Send`; the result of `send` is dropped. -/
def send (p : ConnectionPtr) (data : List UInt8) : P ℤ :=
  call (.send p) do
    let y ← act (.getConnection p)
    if !y.connected then return commFailed
    else do
      let y ← act (.getConnection p)
      let _ ← act (.send y.socket data (toInt32 data.length))
      onSentCompleted p
      return commSuccess

/-! ## The machine -/

/-- The owner of the handler. -/
inductive Role
  | server
  | client
  deriving DecidableEq, Repr

/-- `&connection_` of a `TcpClient`. -/
def clientConnection : ConnectionPtr := 0

/-- A piece of code on the main thread or on a thread of the user, whose result nobody uses. -/
def run (f : P ℤ) : P (Option Label) := do
  let _ ← f
  act .finish
  return none

def code : Label → P (Option Label)
  | .workerThread hIOCP => workerThread hIOCP
  | .startServer => run startServer
  | .startClient => run (startClient clientConnection)
  | .stop => run stop
  | .send p data => run (send p data)

/-- `Start` returned `COMM_SUCCESS`. -/
def State.started (s : State) : Prop := .returned .main .start commSuccess ∈ s.history

instance (s : State) : Decidable s.started := by unfold State.started; infer_instance

/-- What an idle thread may enter: the main thread stops a server that was started, a thread of
the user sends on a connection object that exists. -/
def enter (role : Role) : Tid → Label → State → Option State
  | .main, .stop, s => if role = .server ∧ s.started then some s else none
  | .user _, .send p _, s => if (s.tcpConnections p).isSome then some s else none
  | _, _, _ => none

/-- The handler in any surroundings: `env` is what happens without its threads, `enter` says
when an idle thread enters a piece of code. -/
def handlerMachine {E : Type} (env : E → State → Option State)
    (enter : Tid → Label → State → Option State) :
    Machine Action Action.Res State Tid Label Outcome E where
  exec := exec
  env := env
  enter := enter
  code := code

/-- The machine of a server or a client. -/
def machine (role : Role) : Machine Action Action.Res State Tid Label Outcome OsEvent :=
  handlerMachine osStep (enter role)

/-! ## Where a run begins -/

/-- What is fixed before the workers run: the callbacks the user has set and the number of
workers `init_worker_threads` created. -/
structure Setup where
  handlers : Handlers
  workers : ℕ
  workers_pos : 0 < workers

/-- The port `init_handler` created. -/
def handlerPort : Port := 0

/-- The state in which `iocph_->start()` has succeeded and no socket has been made yet. -/
def State.init (u : Setup) : State where
  handlers := u.handlers.copySet Handlers.none
  exiting := false
  isRunning := true
  locker := CriticalSection.free
  theSocketContext := none
  socketContexts := []
  connections := fun _ => none
  iocpHandle := some handlerPort
  numWorkerThreads := u.workers
  exitEvent := false
  contexts := fun _ => none
  nextContext := 0
  tcpConnections := fun _ => none
  nextConnection := 0
  workersPort := handlerPort
  nextPort := handlerPort + 1
  handles := fun _ => none
  sockets := fun _ => SocketObject.fresh
  sent := fun _ => []
  nextSock := 0
  pending := []
  queue := fun _ => []
  holds := fun _ => []
  stack := fun _ => []
  alive := fun t => match t with
    | .worker i => decide (i < u.workers)
    | _ => false
  history := []

/-- The control points at that moment: the main thread inside `Start`, each worker at the top of
its loop. -/
def initThreads (u : Setup) (l : Label) : Tid → Control Action Action.Res Label
  | .main => .running (code l)
  | .worker i => if i < u.workers then .running (workerThread handlerPort) else .idle
  | .user _ => .idle

lemma initThreads_worker (u : Setup) (l : Label) (i : ℕ) : initThreads u l (.worker i) =
    if i < u.workers then .running (workerThread handlerPort) else .idle := rfl

def serverInit (u : Setup) : Config Action Action.Res State Tid Label :=
  ⟨initThreads u .startServer, State.init u⟩

/-- The connection of a client that `init_connect` has connected: `connection_` with the user's
callbacks, entered into `connections_` under its socket `v`. -/
def State.initClient (u : Setup) (v : SOCKET) : State :=
  { State.init u with
    connections := Function.update (fun _ => none) v (some (some clientConnection))
    tcpConnections := Function.update (fun _ => none) clientConnection
      (some { TcpConnection.new v none none with
        connected := true
        handlers := u.handlers.copySet Handlers.none })
    nextConnection := clientConnection + 1
    handles := Function.update (fun _ => none) v (some 0)
    nextSock := 1 }

def clientInit (u : Setup) (v : SOCKET) : Config Action Action.Res State Tid Label :=
  ⟨initThreads u .startClient, State.initClient u v⟩

/-- The configurations a run begins with.  A client has a connected socket by then. -/
inductive Begins (u : Setup) : Role → Config Action Action.Res State Tid Label → Prop
  | server : Begins u .server (serverInit u)
  | client (v : SOCKET) : v ≠ invalidSocket → Begins u .client (clientInit u v)

/-- The configuration is reached in some run. -/
def Reachable (role : Role) (u : Setup) (G : Config Action Action.Res State Tid Label) : Prop :=
  ∃ G₀, Begins u role G₀ ∧ (machine role).Reaches G₀ G

end Alpl.Net
