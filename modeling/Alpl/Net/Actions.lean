import Alpl.Net.IocpHandler
import Alpl.Net.Exec

/-!
# What single actions do

One lemma for each action whose outcome is not fixed by its name: which answers it has, under
which condition on the state, and the state after it.  The invariants below take these lemmas and
never unfold `exec`.
-/

namespace Alpl.Net

open Interleaving

variable {t : Tid} {s s' : State} {o : Outcome} {c : ContextPtr} {v : SOCKET}

/-! ## The lock -/

/-- `EnterCriticalSection` enters, or raises. -/
lemma exec_enterCriticalSection {f : Frame} {r : Bool}
    (h : exec t (.enterCriticalSection f) o s = some (r, s')) :
    (r = true ∧ ∃ cs, s.locker.enter t = some cs ∧ s' = { s with locker := cs }) ∨
      r = false ∧ s' = s.record (.call t (.enterCriticalSection f) false) := by
  cases o
  case ok =>
    obtain ⟨cs, hcs, hr⟩ := Option.map_eq_some_iff.mp h
    cases hr
    exact .inl ⟨rfl, cs, hcs, rfl⟩
  case fail e =>
    cases h
    exact .inr ⟨rfl, rfl⟩
  all_goals cases h

/-- While another thread is inside, it waits. -/
example {f : Frame} {u : Tid} (hu : s.locker.owner = some u) (ht : u ≠ t) :
    exec t (.enterCriticalSection f) .ok s = none := by
  simp only [exec, CriticalSection.enter, hu, if_neg ht, Option.map_none]

lemma exec_leaveCriticalSection {r : Unit} (h : exec t .leaveCriticalSection o s = some (r, s')) :
    ∃ cs, s.locker.leave t = some cs ∧ s' = { s with locker := cs } := by
  cases o
  case ok =>
    obtain ⟨cs, hcs, hr⟩ := Option.map_eq_some_iff.mp h
    cases hr
    exact ⟨cs, hcs, rfl⟩
  all_goals cases h

/-! ## The members of a context -/

lemma exec_freeContext {r : Unit} (h : exec t (.freeContext c) o s = some (r, s')) :
    ∃ x, s.contexts c = some x ∧
      s' = (s.setContext c none).setHolds t ((s.holds t).erase c) := by
  cases o
  case ok =>
    obtain ⟨x, hx, hr⟩ := Option.map_eq_some_iff.mp h
    cases hr
    exact ⟨x, hx, rfl⟩
  all_goals cases h

lemma exec_getSocket (h : exec t (.getSocket c) o s = some (v, s')) :
    ∃ x, s.contexts c = some x ∧ v = x.socket ∧ s' = s := by
  cases o
  case ok =>
    obtain ⟨x, hx, hr⟩ := Option.map_eq_some_iff.mp h
    cases hr
    exact ⟨x, hx, rfl, rfl⟩
  all_goals cases h

lemma exec_setSocket {r : Unit} (h : exec t (.setSocket c v) o s = some (r, s')) :
    ∃ x, s.contexts c = some x ∧ s' = s.setContext c (some { x with socket := v }) := by
  cases o
  case ok =>
    obtain ⟨x, hx, hr⟩ := Option.map_eq_some_iff.mp h
    cases hr
    exact ⟨x, hx, rfl⟩
  all_goals cases h

lemma exec_getIoContext {io : IoContext} (h : exec t (.getIoContext c) o s = some (io, s')) :
    ∃ x, s.contexts c = some x ∧ io = x.ioContext ∧ s' = s := by
  cases o
  case ok =>
    obtain ⟨x, hx, hr⟩ := Option.map_eq_some_iff.mp h
    cases hr
    exact ⟨x, hx, rfl, rfl⟩
  all_goals cases h

lemma exec_setLastOperation {r : Unit} {op : LastIoOperation}
    (h : exec t (.setLastOperation c op) o s = some (r, s')) : ∃ x, s.contexts c = some x ∧
      s' = s.setContext c (some { x with ioContext.lastOperation := op }) := by
  cases o
  case ok =>
    obtain ⟨x, hx, hr⟩ := Option.map_eq_some_iff.mp h
    cases hr
    exact ⟨x, hx, rfl⟩
  all_goals cases h

lemma exec_setSocketAccept {r : Unit} (h : exec t (.setSocketAccept c v) o s = some (r, s')) :
    ∃ x, s.contexts c = some x ∧
      s' = s.setContext c (some { x with ioContext.socketAccept := v }) := by
  cases o
  case ok =>
    obtain ⟨x, hx, hr⟩ := Option.map_eq_some_iff.mp h
    cases hr
    exact ⟨x, hx, rfl⟩
  all_goals cases h

lemma exec_setSentBytes {r : Unit} {n : ℤ}
    (h : exec t (.setSentBytes c n) o s = some (r, s')) : ∃ x, s.contexts c = some x ∧
      s' = s.setContext c (some { x with ioContext.sentBytes := n }) := by
  cases o
  case ok =>
    obtain ⟨x, hx, hr⟩ := Option.map_eq_some_iff.mp h
    cases hr
    exact ⟨x, hx, rfl⟩
  all_goals cases h

/-! ## Connections -/

lemma exec_getConnection {p : ConnectionPtr} {y : TcpConnection}
    (h : exec t (.getConnection p) o s = some (y, s')) :
    s.tcpConnections p = some y ∧ s' = s := by
  cases o
  case ok =>
    obtain ⟨z, hz, hr⟩ := Option.map_eq_some_iff.mp h
    cases hr
    exact ⟨hz, rfl⟩
  all_goals cases h

/-- A callback of a connection is the call of one of its function objects. -/
lemma exec_invokeConnection {q : ConnectionPtr} {k : CallbackKind} {p : Option ConnectionPtr}
    {data : List UInt8} {r : Bool} (h : exec t (.invokeConnection q k p data) o s = some (r, s')) :
    ∃ y, s.tcpConnections q = some y ∧
      exec.invoke t k p data (y.handlers.isSet k) s = (r, s') := by
  cases o
  case ok => exact Option.map_eq_some_iff.mp h
  all_goals cases h

/-- `operator[]` finds the key, or enters it. -/
lemma exec_indexConnection {r : Option ConnectionPtr}
    (h : exec t (.indexConnection v) o s = some (r, s')) :
    (s.connections v = some r ∧ s' = s) ∨ s.connections v = none ∧ r = none ∧
      s' = { s with connections := Function.update s.connections v (some none) } := by
  cases o
  case ok =>
    simp only [exec] at h
    split at h
    · rename_i p hp
      cases h
      exact .inl ⟨hp, rfl⟩
    · rename_i hnone
      cases h
      exact .inr ⟨hnone, rfl, rfl⟩
  all_goals cases h

/-! ## Sockets -/

lemma exec_listen {r : Bool} {n : ℕ} (h : exec t (.listen v n) o s = some (r, s')) :
    (r = true ∧ ∃ k, s.handles v = some k ∧ s' = { s with
        sockets := Function.update s.sockets k
          { s.sockets k with listening := true } }.record (.call t (.listen v n) true)) ∨
      r = false ∧ s' = s.record (.call t (.listen v n) false) := by
  cases o
  case ok =>
    obtain ⟨k, hk, hr⟩ := Option.map_eq_some_iff.mp h
    cases hr
    exact .inl ⟨rfl, k, hk, rfl⟩
  case fail e =>
    cases h
    exact .inr ⟨rfl, rfl⟩
  all_goals cases h

/-- `WSASocket` makes a socket object under a value that is not in use, or fails. -/
lemma exec_wsaSocket (h : exec t .wsaSocket o s = some (v, s')) :
    (s.handles v = none ∧ v ≠ invalidSocket ∧ s' = { s with
        handles := Function.update s.handles v (some s.nextSock)
        sockets := Function.update s.sockets s.nextSock SocketObject.fresh
        nextSock := s.nextSock + 1 }.record (.call t .wsaSocket true)) ∨
      v = invalidSocket ∧ s' = s.record (.call t .wsaSocket false) := by
  cases o
  case socket w =>
    simp only [exec] at h
    split at h
    · rename_i hw
      cases h
      exact .inl ⟨hw.1, hw.2, rfl⟩
    · cases h
  case fail e =>
    cases h
    exact .inr ⟨rfl, rfl⟩
  all_goals cases h

/-- `CreateIoCompletionPort` associates a socket that has no port yet, or fails. -/
lemma exec_createIoCompletionPort {port r : Option Port}
    (h : exec t (.createIoCompletionPort v port c) o s = some (r, s')) :
    (r = some (port.getD s.nextPort) ∧ ∃ k, s.handles v = some k ∧ (s.sockets k).assoc = none ∧
      s' = { s with
        nextPort := if port.isSome then s.nextPort else s.nextPort + 1
        sockets := Function.update s.sockets k
          { s.sockets k with assoc := some (port.getD s.nextPort, c) } }.record
            (.call t (.createIoCompletionPort v port c) true)) ∨
      r = none ∧ s' = s.record (.call t (.createIoCompletionPort v port c) false) := by
  cases o
  case ok =>
    simp only [exec] at h
    split at h
    · cases h
    · rename_i k hk
      split at h
      · rename_i hassoc
        cases h
        exact .inl ⟨rfl, k, hk, hassoc, rfl⟩
      · cases h
  case fail e =>
    cases h
    exact .inr ⟨rfl, rfl⟩
  all_goals cases h

/-- `send` fails, or accepts a number of bytes up to the length it is given. -/
lemma exec_send {data : List UInt8} {len r : ℤ}
    (h : exec t (.send v data len) o s = some (r, s')) :
    (∃ (n : ℕ) (k : SockId), r = n ∧ (n : ℤ) ≤ len ∧ s.handles v = some k ∧ s' = { s with
        sent := Function.update s.sent k (s.sent k ++ data.take n) }.record
          (.call t (.send v data len) true)) ∨
      r = socketError ∧ s' = s.record (.call t (.send v data len) false) := by
  cases o
  case bytes n =>
    simp only [exec] at h
    split at h
    · cases h
    · rename_i k hk
      split at h
      · rename_i hle
        cases h
        exact .inl ⟨n, k, rfl, hle, hk, rfl⟩
      · cases h
  case fail e =>
    cases h
    exact .inr ⟨rfl, rfl⟩
  all_goals cases h

/-! ## Overlapped operations -/

private lemma exec_post {a : Action} {kind : OpKind} {len : ℕ} {rc r : CallResult}
    (h : exec.post t a kind v c len rc s = some (r, s')) :
    r = rc ∧ ∃ k, s.handles v = some k ∧
      s' = ({ s with pending := ⟨kind, k, c, len⟩ :: s.pending }.setHolds t
        ((s.holds t).erase c)).record (.call t a true) := by
  obtain ⟨k, hk, hr⟩ := Option.map_eq_some_iff.mp h
  cases hr
  exact ⟨rfl, k, hk, rfl⟩

private lemma failed_of_error {e : ℕ} (he : e ≠ errorIoPending) :
    CallResult.failed ⟨socketError, e⟩ = true := by
  simpa [CallResult.failed] using he.symm

/-- `WSARecv` posts an operation, or fails. -/
lemma exec_wsaRecv {len : ℕ} {r : CallResult}
    (h : exec t (.wsaRecv v c len) o s = some (r, s')) :
    (r.failed = false ∧ ∃ k, s.handles v = some k ∧
      s' = ({ s with pending := ⟨.recv, k, c, len⟩ :: s.pending }.setHolds t
        ((s.holds t).erase c)).record (.call t (.wsaRecv v c len) true)) ∨
      r.failed = true ∧ s' = s.record (.call t (.wsaRecv v c len) false) := by
  cases o
  case ok =>
    obtain ⟨rfl, hk⟩ := exec_post h
    exact .inl ⟨rfl, hk⟩
  case pending =>
    obtain ⟨rfl, hk⟩ := exec_post h
    exact .inl ⟨rfl, hk⟩
  case fail e =>
    simp only [exec] at h
    split at h
    · cases h
    · rename_i he
      cases h
      exact .inr ⟨failed_of_error he, rfl⟩
  all_goals cases h

/-- `WSASend` posts an operation, or fails. -/
lemma exec_wsaSend {data : List UInt8} {r : CallResult}
    (h : exec t (.wsaSend v c data) o s = some (r, s')) :
    (r.failed = false ∧ ∃ k, s.handles v = some k ∧
      s' = ({ s with pending := ⟨.send, k, c, data.length⟩ :: s.pending }.setHolds t
        ((s.holds t).erase c)).record (.call t (.wsaSend v c data) true)) ∨
      r.failed = true ∧ s' = s.record (.call t (.wsaSend v c data) false) := by
  cases o
  case ok =>
    obtain ⟨rfl, hk⟩ := exec_post h
    exact .inl ⟨rfl, hk⟩
  case pending =>
    obtain ⟨rfl, hk⟩ := exec_post h
    exact .inl ⟨rfl, hk⟩
  case fail e =>
    simp only [exec] at h
    split at h
    · cases h
    · rename_i he
      cases h
      exact .inr ⟨failed_of_error he, rfl⟩
  all_goals cases h

/-- `AcceptEx` posts an accept, or fails; a failure is `FALSE`, which is not `SOCKET_ERROR`. -/
lemma exec_acceptEx {ls : SOCKET} {len : ℕ} {r : CallResult}
    (h : exec t (.acceptEx ls v c len) o s = some (r, s')) :
    r.ret ≠ socketError ∧
      ((∃ kl ka, s.handles ls = some kl ∧ s.handles v = some ka ∧
        (s.sockets kl).listening = true ∧
        s' = ({ s with pending := ⟨.accept ka, kl, c, len⟩ :: s.pending }.setHolds t
          ((s.holds t).erase c)).record (.call t (.acceptEx ls v c len) true)) ∨
      s' = s.record (.call t (.acceptEx ls v c len) false)) := by
  have hpost : ∀ {rc : CallResult}, exec.acceptEx t ls v c len rc s = some (r, s') →
      r = rc ∧ ∃ kl ka, s.handles ls = some kl ∧ s.handles v = some ka ∧
        (s.sockets kl).listening = true ∧
        s' = ({ s with pending := ⟨.accept ka, kl, c, len⟩ :: s.pending }.setHolds t
          ((s.holds t).erase c)).record (.call t (.acceptEx ls v c len) true) := by
    intro rc h
    unfold exec.acceptEx at h
    split at h
    · rename_i kl ka hl ha
      split at h
      · rename_i hlistening
        cases h
        exact ⟨rfl, kl, ka, hl, ha, hlistening, rfl⟩
      · cases h
    · cases h
  cases o
  case ok =>
    obtain ⟨rfl, hk⟩ := hpost h
    exact ⟨show (1 : ℤ) ≠ socketError by decide, .inl hk⟩
  case pending =>
    obtain ⟨rfl, hk⟩ := hpost h
    exact ⟨show (0 : ℤ) ≠ socketError by decide, .inl hk⟩
  case fail e =>
    simp only [exec] at h
    split at h <;> cases h
    exact ⟨show (0 : ℤ) ≠ socketError by decide, .inr rfl⟩
  all_goals cases h

/-! ## The completion queue -/

/-- A worker takes the first packet, and the context the packet brings. -/
lemma exec_getQueuedCompletionStatus {q : Port} {pkt : Packet}
    (h : exec t (.getQueuedCompletionStatus q) o s = some (pkt, s')) :
    ∃ rest, s.queue q = pkt :: rest ∧
      s' = ({ s with queue := Function.update s.queue q rest }.setHolds t
        pkt.key.toList).setStack t [pkt.frame s] := by
  cases o
  case ok =>
    simp only [exec] at h
    split at h
    · cases h
    · rename_i rest hq
      cases h
      exact ⟨rest, hq, rfl⟩
  all_goals cases h

/-- `PostQueuedCompletionStatus` puts a packet at the end of the queue, or fails. -/
lemma exec_postQueuedCompletionStatus {q : Port} {r : Unit}
    (h : exec t (.postQueuedCompletionStatus q) o s = some (r, s')) :
    s' = { s with queue := Function.update s.queue q (s.queue q ++ [Packet.exit]) }.record
        (.call t (.postQueuedCompletionStatus q) true) ∨
      s' = s.record (.call t (.postQueuedCompletionStatus q) false) := by
  cases o
  case ok =>
    cases h
    exact .inl rfl
  case fail e =>
    cases h
    exact .inr rfl
  all_goals cases h

end Alpl.Net
