import Alpl.Net.Exec

/-!
# The members of `TcpServer` and `IocpHandler`, set and unset

`Start` and `Stop` again, for what they do to the members of the two objects: here a member may be
*unset*, which is `none`, because no constructor and no call has assigned it, and a pointer that is
set may be `NULL`.  A read of an unset member and a use of a `NULL` pointer end the call with a
`Fault`.

What Windows answers is given with each call (`StartOutcomes`, `StopOutcomes`).  The workers do not
appear: they assign no member that a call reads.  That a run of the main thread by itself is such a
call is `start_agrees` and `stop_agrees`.
-/

namespace Alpl.Net

/-! ## Reading members -/

/-- The value of a `HANDLE` other than `NULL`. -/
abbrev Handle := ℕ

/-- `INVALID_HANDLE_VALUE`. -/
def invalidHandleValue : Handle := 2 ^ 64 - 1

def maxWorkerThreads : ℕ := 64

/-- The members that can be read before they are set, or that can be `NULL`. -/
inductive Member
  | iocph
  | ls
  | theSocketContext
  | exitHandle
  | workerThreads
  /-- `worker_threads_[i]`. -/
  | workerThread (i : ℕ)
  deriving DecidableEq, Repr

/-- What ends a call that the C++ standard gives no meaning to. -/
inductive Fault
  /-- The member was never assigned. -/
  | unset (m : Member)
  /-- The pointer is `NULL`. -/
  | null (m : Member)
  deriving DecidableEq, Repr

/-- Read a member. -/
def readMember {α : Type} (m : Member) : Option α → Except Fault α
  | some x => .ok x
  | none => .error (.unset m)

/-- Use what the pointer in a member points to. -/
def usePointer {α : Type} (m : Member) : Option α → Except Fault α
  | some x => .ok x
  | none => .error (.null m)

/-- Read the first `n` elements of `worker_threads_`. -/
def readWorkerThreads (ws : List (Option Handle)) (n : ℕ) : Except Fault (List Handle) :=
  (List.range n).mapM fun i => readMember (.workerThread i) (ws[i]?.join)

/-! ## The objects -/

/-- `IocpHandler`. -/
structure IocpHandler where
  isExiting : Bool
  isRunning : Bool
  theSocketContext : Option (Option SocketContext)
  /-- `NULL` from the beginning. -/
  iocpHandle : Option Handle
  exitHandle : Option (Option Handle)
  workerThreads : Option (Option (List (Option Handle)))
  numWorkerThreads : ℕ
  deriving DecidableEq, Repr

/-- The constructor invoked in `SetIocpHandler`. -/
def IocpHandler.new (maxWorkerThreads : ℕ) : IocpHandler where
  isExiting := false
  isRunning := false
  theSocketContext := none
  iocpHandle := none
  exitHandle := none
  workerThreads := none
  numWorkerThreads := maxWorkerThreads

/-- `TcpServer`, with the socket that `create_listener` left in `ls_`. -/
structure TcpServer where
  iocph : Option IocpHandler
  ls : Option SOCKET
  deriving DecidableEq, Repr

/-- `TcpServer(char* port)`. -/
def TcpServer.new : TcpServer := ⟨none, none⟩

/-! ## What Windows answers -/

/-- Inside one call of `Start`, in the order of the calls. -/
structure StartOutcomes where
  initializeCriticalSection : Bool
  /-- The completion port, or `NULL`. -/
  createPort : Option Handle
  createEvent : Option Handle
  numberOfProcessors : ℕ
  /-- The handle of the worker that is created with index `tid`, or `NULL`. -/
  createThread : ℕ → Option Handle
  getaddrinfo : Bool
  listenSocket : SOCKET
  bind : Bool
  listen : Bool
  enterCriticalSection : Bool
  /-- The answer of `CreateIoCompletionPort` for the listening socket. -/
  associate : Option Handle
  wsaIoctl : Bool
  acceptSocket : SOCKET
  acceptEx : CallResult

/-- Inside one call of `Stop`: whether the workers end within a second. -/
structure StopOutcomes where
  wait : Bool
  deriving DecidableEq, Repr

/-! ## `IocpHandler` -/

namespace IocpHandler

def initHandler (o : StartOutcomes) (h : IocpHandler) : ℤ × IocpHandler :=
  let h := { h with iocpHandle := o.createPort }
  if h.iocpHandle.isNone then (commInitFailed, h)
  else
    let h := { h with exitHandle := some o.createEvent }
    if o.createEvent.isNone then (commInitFailed, h) else (commSuccess, h)

/-- The loop of `init_worker_threads`, with `k` workers still to create, the next one `tid`. -/
def createWorkers (createThread : ℕ → Option Handle) :
    ℕ → ℕ → List (Option Handle) → ℤ × List (Option Handle)
  | 0, _, ws => (commSuccess, ws)
  | k + 1, tid, ws =>
    match createThread tid with
    | none => (commInitFailed, ws)
    | some thread => createWorkers createThread k (tid + 1) (ws.set tid (some thread))

/-- `init_worker_threads(num_worker_threads)`. -/
def initWorkerThreads (o : StartOutcomes) (h : IocpHandler) : ℤ × IocpHandler :=
  let numberOfProcessors := o.numberOfProcessors * 2 % 2 ^ 32
  let n := min numberOfProcessors h.numWorkerThreads
  let r := createWorkers o.createThread n 0 (List.replicate n none)
  (r.1, { h with numWorkerThreads := n, workerThreads := some (some r.2) })

def start (o : StartOutcomes) (h : IocpHandler) : ℤ × IocpHandler :=
  let r := initHandler o h
  if r.1 ≠ commSuccess then (commInitFailed, r.2)
  else
    let r := initWorkerThreads o r.2
    if r.1 ≠ commSuccess then (commInitFailed, r.2)
    else (commSuccess, { r.2 with isRunning := true })

/-- `~IocpHandler`, which frees the array if there is one. -/
def destroy (h : IocpHandler) : Except Fault Unit := do
  let _ ← readMember .workerThreads h.workerThreads
  return ()

/-- `updateCompletionPort(sd, lastOp, FALSE)`. -/
def updateCompletionPort (o : StartOutcomes) (sd : SOCKET) (lastOp : LastIoOperation)
    (h : IocpHandler) : Option SocketContext × IocpHandler :=
  if !o.enterCriticalSection then (none, h)
  else
    let h := { h with iocpHandle := o.associate }
    if h.iocpHandle.isNone then (none, h) else (some (SocketContext.new sd lastOp), h)

def startAccept (o : StartOutcomes) (h : IocpHandler) : Except Fault (ℤ × IocpHandler) := do
  let l ← usePointer .theSocketContext (← readMember .theSocketContext h.theSocketContext)
  let l := { l with ioContext.socketAccept := o.acceptSocket }
  let h := { h with theSocketContext := some (some l) }
  if l.ioContext.socketAccept = invalidSocket then return (commInitFailed, h)
  else if o.acceptEx.ret = socketError ∧ o.acceptEx.lastError ≠ errorIoPending then
    return (commInitFailed, h)
  else return (commSuccess, h)

/-- `exiting`.  The packets it posts need no member that is not always set.
`WaitForMultipleObjects` reads the handles, and if the workers have ended they are closed. -/
def exiting (o : StopOutcomes) (h : IocpHandler) : Except Fault (ℤ × IocpHandler) := do
  let h := { h with isExiting := true }
  let ws ← usePointer .workerThreads (← readMember .workerThreads h.workerThreads)
  let handles ← readWorkerThreads ws h.numWorkerThreads
  let h := if o.wait then
      { h with workerThreads := some (some (handles.map fun _ => some invalidHandleValue)) }
    else h
  let l ← usePointer .theSocketContext (← readMember .theSocketContext h.theSocketContext)
  let l := if l.socket ≠ invalidSocket then { l with socket := invalidSocket } else l
  let h := { h with theSocketContext := some (some l) }
  let e ← readMember .exitHandle h.exitHandle
  -- `SetEvent(NULL)` fails
  if e.isNone then return (commExitFailed, h) else return (commSuccess, h)

end IocpHandler

/-! ## `TcpServer` -/

namespace TcpServer

/-- `FREE(iocph_)`, and a new handler. -/
def setIocpHandler (srv : TcpServer) : Except Fault (ℤ × TcpServer) := do
  match srv.iocph with
  | some h => h.destroy
  | none => pure ()
  return (commSuccess, { srv with iocph := some (IocpHandler.new maxWorkerThreads) })

def init (o : StartOutcomes) (srv : TcpServer) : Except Fault (ℤ × TcpServer) := do
  if !o.initializeCriticalSection then return (commInitFailed, srv)
  else
    let r ← srv.setIocpHandler
    if r.1 ≠ commSuccess then return (commInitFailed, r.2) else return (commSuccess, r.2)

def createListener (o : StartOutcomes) (srv : TcpServer) : ℤ × TcpServer :=
  if !o.getaddrinfo then (commInitFailed, srv)
  else
    let srv := { srv with ls := some o.listenSocket }
    if o.listenSocket = invalidSocket then (commInitFailed, srv)
    else if !o.bind then (commInitFailed, srv)
    else if !o.listen then (commInitFailed, srv)
    else (commSuccess, srv)

def initAccept (o : StartOutcomes) (srv : TcpServer) : Except Fault (ℤ × TcpServer) := do
  let h ← usePointer .iocph srv.iocph
  let ls ← readMember .ls srv.ls
  let r := h.updateCompletionPort o ls .ioAccept
  let h := { r.2 with theSocketContext := some r.1 }
  if r.1.isNone then return (commInitFailed, { srv with iocph := some h })
  else if !o.wsaIoctl then return (commInitFailed, { srv with iocph := some h })
  else
    let r ← h.startAccept o
    let srv := { srv with iocph := some r.2 }
    if r.1 ≠ commSuccess then return (commInitFailed, srv) else return (commSuccess, srv)

/-- `iocph_->start()`. -/
def startHandler (o : StartOutcomes) (srv : TcpServer) : Except Fault (ℤ × TcpServer) := do
  let h ← usePointer .iocph srv.iocph
  let r := h.start o
  return (r.1, { srv with iocph := some r.2 })

def start (o : StartOutcomes) (srv : TcpServer) : Except Fault (ℤ × TcpServer) := do
  let r ← srv.init o
  if r.1 ≠ commSuccess then return (commInitFailed, r.2)
  else
    let r ← r.2.startHandler o
    if r.1 ≠ commSuccess then return (commInitFailed, r.2)
    else
      let r := r.2.createListener o
      if r.1 ≠ commSuccess then return (commInitFailed, r.2)
      else
        let r ← r.2.initAccept o
        if r.1 ≠ commSuccess then return (commInitFailed, r.2) else return (commSuccess, r.2)

def stop (o : StopOutcomes) (srv : TcpServer) : Except Fault (ℤ × TcpServer) := do
  let h ← usePointer .iocph srv.iocph
  let r ← h.exiting o
  let _ ← readMember .exitHandle r.2.exitHandle
  return (commSuccess, { srv with iocph := some r.2 })

end TcpServer

/-! ## Calls -/

/-- A call of the user. -/
inductive Call
  | start (o : StartOutcomes)
  | stop (o : StopOutcomes)

def Call.perform : Call → TcpServer → Except Fault (ℤ × TcpServer)
  | .start o, srv => srv.start o
  | .stop o, srv => srv.stop o

/-- A sequence of calls, with what each returns. -/
def performCalls : List Call → TcpServer → Except Fault (List ℤ × TcpServer)
  | [], srv => .ok ([], srv)
  | c :: cs, srv => do
    let r ← c.perform srv
    let rs ← performCalls cs r.2
    return (r.1 :: rs.1, rs.2)

end Alpl.Net
