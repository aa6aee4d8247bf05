import Alpl.Interleaving.CriticalSection
import Mathlib.Algebra.Group.Nat.Defs
import Mathlib.Data.Int.Notation

/-!
# The data of the network library

The constants and records of `net/net.h`, with the parts of Windows the library talks to: socket
handles and the kernel objects behind them, completion packets, overlapped operations.

A `SOCKET` is a handle *value*.  What is open is a kernel object (`SockId`), and the handle
table says which object a value names now; `closesocket` takes the value out of the table and a
later `WSASocket` may hand the same value out for a new object.  Pointers to `socket_context`
and `TcpConnection` objects are names that are never used twice, so that a use after `delete`
shows as a use of a name the heap no longer knows.
-/

namespace Alpl.Net

open Interleaving

/-! ## Constants -/

/-- The value of a `SOCKET`, a handle. -/
abbrev SOCKET := ℕ

/-- A socket object of the kernel. -/
abbrev SockId := ℕ

/-- A completion port. -/
abbrev Port := ℕ

/-- A `socket_context_ptr` other than `NULL`. -/
abbrev ContextPtr := ℕ

/-- A `TcpConnectionPtr` other than `NULL`. -/
abbrev ConnectionPtr := ℕ

/-- `INVALID_SOCKET`, `(SOCKET)(~0)`. -/
def invalidSocket : SOCKET := 2 ^ 64 - 1

def socketError : ℤ := -1

def errorIoPending : ℕ := 997

def commSuccess : ℤ := 0
def commFailed : ℤ := -1
def commInitFailed : ℤ := -2
def commAcceptFailed : ℤ := -3
def commConnectFailed : ℤ := -4
def commExitFailed : ℤ := -5

def maxBuffSize : ℕ := 4 * 1024

/-- `sizeof(SOCKADDR_STORAGE)`. -/
def sizeofSockaddrStorage : ℕ := 128

/-- The part of the buffer that `AcceptEx` may fill with the first bytes of a connection. -/
def acceptReceiveLength : ℕ := maxBuffSize - 2 * (sizeofSockaddrStorage + 16)

/-! ## Records of `net.h` -/

/-- `last_io_operation`. -/
inductive LastIoOperation
  | ioAccept
  | ioConnect
  | ioReceive
  | ioSend
  deriving DecidableEq, Repr

/-- `io_context`.  Its `WSAOVERLAPPED` is the identity by which Windows gives the record back,
and its `wsabuf` is not read after it was set. -/
structure IoContext where
  buffer : List UInt8
  totalBytes : ℤ
  sentBytes : ℤ
  lastOperation : LastIoOperation
  socketAccept : SOCKET
  deriving DecidableEq, Repr

/-- `socket_context`, with the `io_context` it owns. -/
structure SocketContext where
  socket : SOCKET
  ioContext : IoContext
  deriving DecidableEq, Repr

/-- The four user callbacks. -/
inductive CallbackKind
  | onDataReceived
  | onSentCompleted
  | onConnected
  | onDisconnected
  deriving DecidableEq, Repr

/-- Which of the four `comm_handler_function` members of an object are not empty. -/
structure Handlers where
  onDataReceived : Bool
  onSentCompleted : Bool
  onConnected : Bool
  onDisconnected : Bool
  deriving DecidableEq, Repr

/-- All four empty, as the constructors leave them. -/
def Handlers.none : Handlers := ⟨false, false, false, false⟩

def Handlers.isSet (h : Handlers) : CallbackKind → Bool
  | .onDataReceived => h.onDataReceived
  | .onSentCompleted => h.onSentCompleted
  | .onConnected => h.onConnected
  | .onDisconnected => h.onDisconnected

/-- The copy that every layer makes of the layer above it: each callback that is not empty is
bound anew, an empty one leaves the target as it is. -/
def Handlers.copySet (src dst : Handlers) : Handlers where
  onDataReceived := if src.onDataReceived then true else dst.onDataReceived
  onSentCompleted := if src.onSentCompleted then true else dst.onSentCompleted
  onConnected := if src.onConnected then true else dst.onConnected
  onDisconnected := if src.onDisconnected then true else dst.onDisconnected

/-- Copied into an object whose callbacks are empty, the callbacks arrive as they were. -/
@[simp] lemma Handlers.copySet_none (h : Handlers) : h.copySet Handlers.none = h := by
  obtain ⟨a, b, c, d⟩ := h
  cases a <;> cases b <;> cases c <;> cases d <;> rfl

/-- `TcpConnection`. -/
structure TcpConnection where
  socket : SOCKET
  overlapped : Option ContextPtr
  iocpHandle : Option Port
  connected : Bool
  handlers : Handlers
  deriving DecidableEq, Repr

/-- The constructor invoked in `TcpServer`. -/
def TcpConnection.new (s : SOCKET) (overlapped : Option ContextPtr) (iocpHandle : Option Port) :
    TcpConnection where
  socket := s
  overlapped := overlapped
  iocpHandle := iocpHandle
  connected := false
  handlers := Handlers.none

/-- The part of `iocp_param` that the handlers read after the loop filled it. -/
structure IocpParam where
  ioSize : ℕ
  anIoContext : ContextPtr
  deriving DecidableEq, Repr

/-! ## Windows -/

/-- A socket object of the kernel: the port and key it is associated with, whether it listens,
and the bytes the network has completed on it. -/
structure SocketObject where
  assoc : Option (Port × ContextPtr)
  listening : Bool
  stream : List UInt8
  deriving DecidableEq, Repr

def SocketObject.fresh : SocketObject := ⟨Option.none, false, []⟩

/-- What an overlapped operation does when it completes. -/
inductive OpKind
  /-- `AcceptEx`, which accepts into the socket object `into`. -/
  | accept (into : SockId)
  /-- `WSARecv`. -/
  | recv
  /-- `WSASend`. -/
  | send
  deriving DecidableEq, Repr

/-- An overlapped operation in flight on the object `sock`, for at most `len` bytes. -/
structure PendingOp where
  kind : OpKind
  sock : SockId
  overlapped : ContextPtr
  len : ℕ
  deriving DecidableEq, Repr

/-- What `GetQueuedCompletionStatus` hands out. -/
structure Packet where
  succeed : Bool
  ioSize : ℕ
  key : Option ContextPtr
  overlapped : Option ContextPtr
  deriving DecidableEq, Repr

/-- The packet `exiting()` posts. -/
def Packet.exit : Packet := ⟨true, 0, Option.none, Option.none⟩

/-- What a call returns, with the thread's last error after it. -/
structure CallResult where
  ret : ℤ
  lastError : ℕ
  deriving DecidableEq, Repr

/-- The outcomes Windows can choose for a call. -/
inductive Outcome
  | ok
  /-- The call reports `ERROR_IO_PENDING`. -/
  | pending
  | fail (err : ℕ)
  /-- `WSASocket` hands out this value. -/
  | socket (v : SOCKET)
  /-- `send` accepts this many bytes. -/
  | bytes (n : ℕ)
  deriving DecidableEq, Repr

/-! ## Threads -/

/-- The threads: the one that calls `Start` and `Stop`, the workers of the handler, and threads
of the user that call `Send`. -/
inductive Tid
  | main
  | worker (i : ℕ)
  | user (i : ℕ)
  deriving DecidableEq, Repr

/-- What a thread is inside of. -/
inductive Frame
  | start
  | stop
  /-- The loop of `WorkerThread`, with a packet for the context in hand. -/
  | completion (op : LastIoOperation) (c : ContextPtr)
  | exitPacket
  | createSocketContext
  | startAccept
  | handleNewConnection (c : ContextPtr)
  | handleReceive (c : ContextPtr)
  | disconnect (c : Option ContextPtr)
  | callback (k : CallbackKind) (p : Option ConnectionPtr)
  | send (p : ConnectionPtr)
  deriving DecidableEq, Repr

end Alpl.Net
