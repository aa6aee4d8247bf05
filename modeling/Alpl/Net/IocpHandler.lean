import Alpl.Net.State

/-!
# `IocpHandler`

The member functions of `net/impl/IocpHandler.hpp` that run on several threads, statement by
statement.  What the source only prints is left out, except that a value it reads for printing
is still read; the branches under `isVerbose` are dead, since that constant is false.  A function
reads `the_socket_context_` once, where the source reads the member anew for each use of it.

`handle_new_connection` uses a name `new_socket_context` that its signature lacks; here it is a
parameter, the context its caller got from `updateCompletionPort`.
-/

namespace Alpl.Net

open Interleaving

/-! ## Small pieces -/

/-- Call one of the library's own functions and return what it returns. -/
def call (f : Frame) (body : P ℤ) : P ℤ := do
  act (.enter f)
  let rc ← body
  act (.leave f rc)
  return rc

/-- A read through `NULL` has no continuation. -/
def nullDereference {α : Type} : P α := do
  let e ← act .nullDereference
  nomatch e

/-- Use a pointer that the code does not test. -/
def deref {α : Type} (p : Option ℕ) (k : ℕ → P α) : P α :=
  match p with
  | some c => k c
  | none => nullDereference

/-- Call a function object that belongs to the handler: an empty one throws. -/
def callHandler (k : CallbackKind) (p : Option ConnectionPtr) (data : List UInt8) : P Unit := do
  let isSet ← act (.invokeHandler k p data)
  if isSet then act .callbackReturns else .throw

/-- Call a function object that belongs to the connection `q`. -/
def callConnection (q : ConnectionPtr) (k : CallbackKind) (p : Option ConnectionPtr)
    (data : List UInt8) : P Unit := do
  let isSet ← act (.invokeConnection q k p data)
  if isSet then act .callbackReturns else .throw

/-- `nRet == SOCKET_ERROR && ERROR_IO_PENDING != WSAGetLastError()`. -/
def CallResult.failed (r : CallResult) : Bool :=
  r.ret == socketError && errorIoPending != r.lastError

/-! ## Teardown -/

/-- The abortive close that `disconnect` asks for unless it is graceful. -/
def setLinger (c : ContextPtr) (isGraceful : Bool) : P Unit :=
  if isGraceful then pure ()
  else do
    let v ← act (.getSocket c)
    let _ ← act (.sysCall (.setsockopt v .linger))

def closeSocketAccept (c : ContextPtr) : P Unit := do
  let io ← act (.getIoContext c)
  if io.socketAccept ≠ invalidSocket then do
    act (.closesocket io.socketAccept)
    act (.setSocketAccept c invalidSocket)
  else pure ()

/-- The branch of `disconnect` for a context that is not `the_socket_context_`. -/
def disconnectClient (c : ContextPtr) (isGraceful : Bool) : P Unit := do
  setLinger c isGraceful
  closeSocketAccept c
  let v ← act (.getSocket c)
  let p ← act (.indexConnection v)
  callHandler .onDisconnected p []
  let v ← act (.getSocket c)
  act (.eraseConnection v)
  let v ← act (.getSocket c)
  act (.closesocket v)
  act (.setSocket c invalidSocket)
  act (.removeContext c)
  act (.freeContext c)

/-- `disconnect` between `EnterCriticalSection` and its return. -/
def disconnectLocked (c : Option ContextPtr) (isGraceful : Bool) : P ℤ :=
  match c with
  | none => do
    act .leaveCriticalSection
    return commFailed
  | some c => do
    let l ← act .getTheSocketContext
    deref l fun l => do
      let v ← act (.getSocket c)
      let vl ← act (.getSocket l)
      (if v = vl then pure () else disconnectClient c isGraceful)
      act .leaveCriticalSection
      return commSuccess

def disconnect (c : Option ContextPtr) (isGraceful : Bool) : P ℤ :=
  call (.disconnect c) do
    let entered ← act (.enterCriticalSection (.disconnect c))
    if entered then disconnectLocked c isGraceful else return commFailed

/-! ## Contexts and the completion port -/

/-- `create_socket_context`.  `new` throws when memory is short and never answers `NULL`. -/
def createSocketContext (sd : SOCKET) (lastOp : LastIoOperation) : P (Option ContextPtr) := do
  act (.enter .createSocketContext)
  let entered ← act (.enterCriticalSection .createSocketContext)
  if entered then do
    let c ← act (.newContext sd lastOp)
    act .leaveCriticalSection
    act (.leave .createSocketContext commSuccess)
    return some c
  else do
    act (.leave .createSocketContext commFailed)
    return none

def updateCompletionPort (sd : SOCKET) (lastOp : LastIoOperation) (addToList : Bool) :
    P (Option ContextPtr) := do
  let c ← createSocketContext sd lastOp
  match c with
  | none => return none
  | some c => do
    let port ← act .getIocpHandle
    let h ← act (.createIoCompletionPort sd port c)
    act (.setIocpHandle h)
    let h ← act .getIocpHandle
    match h with
    | none => do
      act (.freeContext c)
      return none
    | some _ => do
      (if addToList then act (.pushFrontContext c) else pure ())
      return some c

/-- `SocketFactory::create_tcp_socket`; a failing `SO_SNDBUF` does not fail it. -/
def createTcpSocket : P SOCKET := do
  let v ← act .wsaSocket
  if v = invalidSocket then return v
  else do
    let _ ← act (.sysCall (.setsockopt v .sndbuf))
    return v

/-! ## Accepting -/

def startAccept : P ℤ :=
  call .startAccept do
    let l ← act .getTheSocketContext
    deref l fun l => do
      let v ← createTcpSocket
      act (.setSocketAccept l v)
      let io ← act (.getIoContext l)
      if io.socketAccept = invalidSocket then return commInitFailed
      else do
        let ls ← act (.getSocket l)
        let r ← act (.acceptEx ls io.socketAccept l acceptReceiveLength)
        if r.ret = socketError ∧ r.lastError ≠ errorIoPending then return commInitFailed
        else return commSuccess

/-- Pass the first `ioSize` bytes of the buffer of `c` to the user, if the user wants them. -/
def deliver (p : ConnectionPtr) (c : ContextPtr) (ioSize : ℕ) : P Unit := do
  let y ← act (.getConnection p)
  if y.handlers.onDataReceived then do
    let io ← act (.getIoContext c)
    callConnection p .onDataReceived (some p) (io.buffer.take ioSize)
  else pure ()

/-- The end of `handle_new_connection`: the first `WSARecv` on the new socket. -/
def firstReceive (n : ContextPtr) : P ℤ := do
  act (.setLastOperation n .ioReceive)
  let v ← act (.getSocket n)
  let r ← act (.wsaRecv v n maxBuffSize)
  if r.failed then do
    let _ ← disconnect (some n) false
    return commSuccess
  else return commSuccess

/-- The `TcpConnection` that `handle_new_connection` builds before it is entered anywhere. -/
def newTcpConnection (v : SOCKET) (n : ContextPtr) (port : Option Port) (hs : Handlers) :
    TcpConnection :=
  let aConn := { TcpConnection.new v (some n) port with connected := true }
  { aConn with handlers := hs.copySet aConn.handlers }

def handleNewConnection (c n : ContextPtr) (arg : IocpParam) : P ℤ :=
  call (.handleNewConnection n) do
    let v ← act (.getSocket n)
    let port ← act .getIocpHandle
    let hs ← act .getHandlers
    let p ← act (.newConnection (newTcpConnection v n port hs))
    act (.assignConnection v p)
    (if arg.ioSize ≠ 0 then deliver p c arg.ioSize else pure ())
    firstReceive n

def handleAccept (c : ContextPtr) (arg : IocpParam) : P ℤ := do
  let io ← act (.getIoContext c)
  let l ← act .getTheSocketContext
  deref l fun l => do
    let _ ← act (.getSocket l)
    let updated ← act (.sysCall (.setsockopt io.socketAccept .updateAcceptContext))
    if !updated then return commAcceptFailed
    else do
      let io ← act (.getIoContext c)
      let n ← updateCompletionPort io.socketAccept .ioConnect true
      match n with
      | none => return commConnectFailed
      | some n => do
        let _ ← handleNewConnection c n arg
        return commSuccess

def handleConnect (c : ContextPtr) (arg : IocpParam) : P ℤ := do
  let v ← act (.getSocket c)
  let l ← act .getTheSocketContext
  deref l fun l => do
    let _ ← act (.getSocket l)
    let updated ← act (.sysCall (.setsockopt v .updateConnectContext))
    if !updated then return commConnectFailed
    else do
      let v ← act (.getSocket c)
      let n ← updateCompletionPort v .ioConnect true
      match n with
      | none => return commConnectFailed
      | some n => do
        let _ ← handleNewConnection c n arg
        return commSuccess

/-! ## Receiving and sending -/

def startReceive (c : ContextPtr) (arg : IocpParam) : P ℤ := do
  act (.setLastOperation arg.anIoContext .ioReceive)
  let v ← act (.getSocket c)
  let r ← act (.wsaRecv v arg.anIoContext maxBuffSize)
  if r.failed then do
    let _ ← act (.getSocket c)
    let _ ← disconnect (some c) false
    return commSuccess
  else return commSuccess

/-- The part of `handle_receive` before it receives again. -/
def deliverReceived (c : ContextPtr) (arg : IocpParam) : P Unit := do
  let v ← act (.getSocket c)
  let n ← act (.countConnection v)
  if n > 0 then do
    let v ← act (.getSocket c)
    let p ← act (.indexConnection v)
    deref p fun p => deliver p c arg.ioSize
  else do
    let _ ← act (.getSocket c)
    let _ ← act (.getIoContext c)

def handleReceive (c : ContextPtr) (arg : IocpParam) : P ℤ :=
  call (.handleReceive c) do
    deliverReceived c arg
    startReceive c arg

def handleSend (c : ContextPtr) (arg : IocpParam) : P ℤ := do
  act (.setLastOperation arg.anIoContext .ioSend)
  let io ← act (.getIoContext arg.anIoContext)
  act (.setSentBytes arg.anIoContext (io.sentBytes + arg.ioSize))
  let io ← act (.getIoContext arg.anIoContext)
  if io.sentBytes < io.totalBytes then do
    let v ← act (.getSocket c)
    let r ← act (.wsaSend v arg.anIoContext
      ((io.buffer.drop io.sentBytes.toNat).take (io.totalBytes - io.sentBytes).toNat))
    if r.failed then do
      let _ ← disconnect (some c) false
      return commSuccess
    else return commSuccess
  else do
    act (.setLastOperation arg.anIoContext .ioReceive)
    act (.setSentBytes arg.anIoContext 0)
    return commSuccess

/-! ## The loop of the workers -/

/-- How a turn of the loop ends: with the next one, or with a `return`. -/
inductive Turn
  | again
  | leave
  deriving DecidableEq, Repr

/-- `ALPL_ASSERT(f, COMM_SUCCESS, 0, ..)` inside the loop: a `return` hides in it. -/
def alplAssert (f : P ℤ) (k : P Turn) : P Turn := do
  let rc ← f
  if rc ≠ commSuccess then return .leave else k

/-- The `switch` over the last operation. -/
def switch (c : ContextPtr) (arg : IocpParam) : P Turn := do
  let io ← act (.getIoContext arg.anIoContext)
  match io.lastOperation with
  | .ioAccept => alplAssert (handleAccept c arg) (alplAssert startAccept (pure .again))
  | .ioConnect => alplAssert (handleConnect c arg) (alplAssert (startReceive c arg) (pure .again))
  | .ioReceive => alplAssert (handleReceive c arg) (pure .again)
  | .ioSend => alplAssert (handleSend c arg) (pure .again)

/-- What the loop does with a packet that is no exit packet. -/
def handlePacket (pkt : Packet) : P Turn :=
  deref pkt.overlapped fun o => do
    let io ← act (.getIoContext o)
    if io.lastOperation ≠ .ioAccept ∧ (pkt.succeed = false ∨ pkt.ioSize = 0) then do
      let _ ← disconnect pkt.key false
      return .again
    else deref pkt.key fun c => switch c ⟨pkt.ioSize, o⟩

/-- One turn, from the packet on. -/
def turn (pkt : Packet) : P Turn := do
  let exiting ← act .getExiting
  if exiting then return .leave
  else do
    let isRunning ← act .getIsRunning
    if !isRunning then return .leave else handlePacket pkt

def workerThread (hIOCP : Port) : P (Option Label) := do
  let pkt ← act (.getQueuedCompletionStatus hIOCP)
  let next ← turn pkt
  act .finish
  match next with
  | .again => return some (.workerThread hIOCP)
  | .leave => do
    act .exitThread
    return none

/-! ## Shutdown -/

/-- The loop of `exiting` that posts one packet for each worker. -/
def postExitPackets : ℕ → P Unit
  | 0 => pure ()
  | n + 1 => do
    let h ← act .getIocpHandle
    match h with
    | some port => act (.postQueuedCompletionStatus port)
    | none => pure ()
    postExitPackets n

def closeListener (l : ContextPtr) : P Unit := do
  let v ← act (.getSocket l)
  if v ≠ invalidSocket then do
    act (.closesocket v)
    act (.setSocket l invalidSocket)
  else pure ()

def exiting : P ℤ := do
  act .setExiting
  let h ← act .getIocpHandle
  let n ← act .getNumWorkerThreads
  (if h.isSome then postExitPackets n else pure ())
  let _ ← act .waitForWorkers
  let l ← act .getTheSocketContext
  deref l fun l => do
    closeListener l
    let signalled ← act .setExitEvent
    if signalled then return commSuccess else return commExitFailed

end Alpl.Net
