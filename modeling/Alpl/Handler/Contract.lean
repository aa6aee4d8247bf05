import Alpl.Net.Server
import Alpl.Net.Actions
import Alpl.Interleaving.RelyGuarantee

/-!
# What a handler keeps, whoever owns it

The part of the proof that does not look at contexts and sockets.  It serves server and client
alike, in any surroundings that leave the members of the handler alone: who holds `locker_` and
from where, which port `iocp_handle_` names, and which callbacks may be called.

`Onward` and `Steady` say what a move leaves in place, `Handler.Inv` is the invariant, and
`Handler.Allowed` collects the conditions under which the actions keep it.
-/

namespace Alpl.Net

open Interleaving

/-! ## What a move leaves in place -/

/-- The thread an entry of the history is about. -/
def Record.thread : Record → Tid
  | .call t _ _ => t
  | .entered t _ => t
  | .returned t _ _ => t
  | .callback t _ _ _ => t
  | .emptyCall t _ => t

/-- What no move of anybody takes back. -/
structure Onward (s s' : State) : Prop where
  handlers : s'.handlers = s.handlers
  isRunning : s'.isRunning = s.isRunning
  workersPort : s'.workersPort = s.workersPort
  workers : s'.numWorkerThreads = s.numWorkerThreads
  exiting : s.exiting = true → s'.exiting = true
  objects : ∀ p y, s.tcpConnections p = some y → s'.tcpConnections p = some y
  history : s.history <:+ s'.history

/-- What no move of anybody else does to thread `t`. -/
structure Steady (t : Tid) (s s' : State) : Prop extends Onward s s' where
  held : s'.locker.heldBy t = s.locker.heldBy t
  stack : s'.stack t = s.stack t
  records : ∃ h, s'.history = h ++ s.history ∧ ∀ r ∈ h, r.thread ≠ t

lemma Onward.refl (s : State) : Onward s s :=
  ⟨rfl, rfl, rfl, rfl, id, fun _ _ h => h, List.suffix_refl _⟩

lemma Steady.refl (t : Tid) (s : State) : Steady t s s :=
  ⟨.refl s, rfl, rfl, [], rfl, fun _ h => absurd h List.not_mem_nil⟩

/-- An assertion that only the moves `Onward` rules out could make false. -/
def Lasting (Φ : State → Prop) : Prop := ∀ s s', Onward s s' → Φ s → Φ s'

lemma Lasting.and {Φ Ψ : State → Prop} (hΦ : Lasting Φ) (hΨ : Lasting Ψ) :
    Lasting fun s => Φ s ∧ Ψ s :=
  fun s s' h hs => ⟨hΦ s s' h hs.1, hΨ s s' h hs.2⟩

lemma Lasting.or {Φ Ψ : State → Prop} (hΦ : Lasting Φ) (hΨ : Lasting Ψ) :
    Lasting fun s => Φ s ∨ Ψ s :=
  fun s s' h hs => hs.imp (hΦ s s' h) (hΨ s s' h)

lemma Lasting.const (φ : Prop) : Lasting fun _ => φ := fun _ _ _ h => h

/-- What the history shows, it shows from then on. -/
lemma Lasting.history {φ : Record → Prop} : Lasting fun s => ∃ r ∈ s.history, φ r :=
  fun _ _ h ⟨r, hr, hφ⟩ => ⟨r, h.history.mem hr, hφ⟩

/-- Objects of type `TcpConnection` are never freed or written. -/
lemma Lasting.object (p : ConnectionPtr) (y : TcpConnection) :
    Lasting fun s => s.tcpConnections p = some y :=
  fun _ _ h hs => h.objects p y hs

/-! ## What the history can show -/

/-- An association with the completion port that failed. -/
def Record.isFailedAssociation : Record → Bool
  | .call _ (.createIoCompletionPort _ _ _) false => true
  | _ => false

def AssociationFailed (s : State) : Prop := ∃ r ∈ s.history, r.isFailedAssociation = true

instance (s : State) : Decidable (AssociationFailed s) := by
  unfold AssociationFailed
  infer_instance

/-- What thread `t` has done since it last entered the function `f`, the newest first. -/
def since (t : Tid) (f : Frame) (h : List Record) : List Record :=
  h.takeWhile (· ≠ .entered t f)

/-- Since it entered `Send` on `p`, thread `t` has called `send`. -/
def SendCalled (t : Tid) (p : ConnectionPtr) (h : List Record) : Prop :=
  ∃ v data len ok, .call t (.send v data len) ok ∈ since t (.send p) h

/-- The frames that own `locker_`. -/
def Frame.locks : Frame → Bool
  | .createSocketContext => true
  | .disconnect _ => true
  | _ => false

lemma lasting_associationFailed : Lasting AssociationFailed := Lasting.history

/-! ## The invariant and the actions that could break it -/

namespace Handler

/-- The completion port is the workers', unless an association has failed. -/
structure PortKept (s : State) : Prop where
  handle : s.iocpHandle = some s.workersPort
  assoc : ∀ k q c, (s.sockets k).assoc = some (q, c) → q = s.workersPort
  posted : ∀ t q ok, .call t (.postQueuedCompletionStatus q) ok ∈ s.history → q = s.workersPort

/-- The invariant of every handler. -/
structure Inv (s : State) : Prop where
  unnamed : ∀ p, s.nextConnection ≤ p → s.tcpConnections p = none
  objects : ∀ p y, s.tcpConnections p = some y → y.connected = true ∧ y.handlers = s.handlers
  port : AssociationFailed s ∨ PortKept s
  emptyCall : ∀ t k, .emptyCall t k ∈ s.history →
    k = .onDisconnected ∧ s.handlers.onDisconnected = false
  sent : ∀ t p rc h h', s.history = h ++ .returned t (.send p) rc :: h' →
    rc = commSuccess ∧ SendCalled t p h'
  lock : ∀ t, s.locker.heldBy t ≠ 0 → ∃ f ∈ s.stack t, f.locks = true

/-- The condition under which an action keeps the invariant. -/
def Allowed (t : Tid) : Action → State → Prop
  | .enterCriticalSection f, s => f ∈ s.stack t ∧ f.locks = true
  | .newConnection y, s => y.connected = true ∧ y.handlers = s.handlers
  | .setIocpHandle h, s => AssociationFailed s ∨ h = some s.workersPort
  | .createIoCompletionPort _ port _, s => AssociationFailed s ∨ port = some s.workersPort
  | .postQueuedCompletionStatus port, s => AssociationFailed s ∨ port = s.workersPort
  | .getQueuedCompletionStatus q, s => s.locker.heldBy t = 0 ∧ q = s.workersPort
  | .invokeHandler k _ _, _ => k = .onDisconnected
  | .invokeConnection q k _ _, s => ∃ y, s.tcpConnections q = some y ∧ y.handlers.isSet k = true
  | .callbackReturns, s => ∃ k p fs, s.stack t = .callback k p :: fs
  | .leave f rc, s => s.locker.heldBy t = 0 ∧ ∀ p, f = .send p → rc = commSuccess ∧
      SendCalled t p s.history
  | .finish, s => s.locker.heldBy t = 0
  | _, _ => True

end Handler

end Alpl.Net
