import Alpl.Handler.Rules

/-!
# The functions of the handler keep the contract

One triple for each function of `Net/IocpHandler.lean` and `Net/Server.lean`, in the order of
these files, and from them `Handler.contract_holds`.  Every function returns with the lock and the
frames it was called with; what a caller knows besides (`Φ`) it still knows afterwards.
-/

namespace Alpl.Net

open Interleaving

namespace Handler

variable {E : Type} {env : E → State → Option State} {enter : Tid → Label → State → Option State}
variable {t : Tid} {n : ℕ} {fs : List Frame} {Φ : State → Prop}

/-! ## Teardown -/

lemma quiet_setLinger (c : ContextPtr) (g : Bool) : Quiet (setLinger c g) := by
  simp [setLinger, Action.silent]

lemma quiet_closeSocketAccept (c : ContextPtr) : Quiet (closeSocketAccept c) := by
  simp [closeSocketAccept, Prog.perform, Action.silent]

lemma safe_disconnectClient (c : ContextPtr) (g : Bool) (hΦ : Lasts t Φ) :
    contract.Safe (handlerMachine env enter) t (disconnectClient c g) (At t n fs Φ)
      fun _ => At t n fs Φ := by
  refine Contract.Safe.bind (quiet (quiet_setLinger c g) hΦ) fun _ => ?_
  refine Contract.Safe.bind (quiet (quiet_closeSocketAccept c) hΦ) fun _ => ?_
  refine Contract.Safe.step _ (skip rfl hΦ) fun v => Contract.Safe.step _ (skip rfl hΦ) fun p => ?_
  refine Contract.Safe.bind (safe_onDisconnected hΦ) fun _ => quiet ?_ hΦ
  simp [Prog.perform, Action.silent]

lemma safe_disconnectLocked (c : Option ContextPtr) (g : Bool) (hΦ : Lasts t Φ) :
    contract.Safe (handlerMachine env enter) t (disconnectLocked c g) (At t 1 fs Φ)
      fun _ => At t 0 fs Φ := by
  cases c with
  | none =>
      exact Contract.Safe.step _ (atomic_leaveCriticalSection hΦ) fun _ _ _ h => h
  | some c =>
      refine Contract.Safe.step _ (skip rfl hΦ) fun l => ?_
      cases l with
      | none => exact Contract.Safe.step _ (skip rfl hΦ) fun e => nomatch e
      | some l =>
          refine Contract.Safe.step _ (skip rfl hΦ) fun v => ?_
          refine Contract.Safe.step _ (skip rfl hΦ) fun vl => ?_
          refine Contract.Safe.bind (N := fun _ => At t 1 fs Φ) ?_ fun _ => ?_
          · split
            · exact fun _ _ h => h
            · exact safe_disconnectClient c g hΦ
          · exact Contract.Safe.step _ (atomic_leaveCriticalSection hΦ) fun _ _ _ h => h

lemma safe_disconnect (c : Option ContextPtr) (g : Bool) (hΦ : Lasts t Φ) :
    contract.Safe (handlerMachine env enter) t (disconnect c g) (At t 0 fs Φ)
      fun _ => At t 0 fs Φ := by
  refine safe_call (fun _ => nofun) hΦ (fun _ => hΦ) ?_
  refine Contract.Safe.step _ (atomic_enterCriticalSection rfl hΦ) fun r => ?_
  cases r with
  | false => exact fun _ _ h => h
  | true => exact safe_disconnectLocked c g hΦ

/-! ## Contexts and the completion port -/

lemma safe_createSocketContext (sd : SOCKET) (op : LastIoOperation) (hΦ : Lasts t Φ) :
    contract.Safe (handlerMachine env enter) t (createSocketContext sd op) (At t 0 fs Φ)
      fun _ => At t 0 fs Φ := by
  refine Contract.Safe.step _ (atomic_enter (fun _ => nofun) hΦ) fun _ => ?_
  refine Contract.Safe.step _ (atomic_enterCriticalSection rfl hΦ) fun r => ?_
  cases r with
  | false => exact Contract.Safe.step _ (atomic_leave _ _ (fun _ => nofun) hΦ) fun _ _ _ h => h
  | true =>
      refine Contract.Safe.step _ (skip rfl hΦ) fun c => ?_
      refine Contract.Safe.step _ (atomic_leaveCriticalSection hΦ) fun _ => ?_
      exact Contract.Safe.step _ (atomic_leave _ _ (fun _ => nofun) hΦ) fun _ _ _ h => h

/-- A value of `iocp_handle_` that is the workers' port unless an association has failed. -/
def GoodPort (port : Option Port) (s : State) : Prop :=
  AssociationFailed s ∨ port = some s.workersPort

lemma lasting_goodPort (port : Option Port) : Lasting (GoodPort port) := by
  refine Lasting.or lasting_associationFailed fun s s' h hp => ?_
  rw [h.workersPort]
  exact hp

lemma atomic_getIocpHandle (hΦ : Lasts t Φ) :
    contract.Atomic (handlerMachine env enter) t (At t n fs Φ) .getIocpHandle
      fun port => At t n fs fun s => Φ s ∧ GoodPort port s := by
  refine silent rfl _ (fun port => hΦ.and (.of_lasting (lasting_goodPort port))) ?_
  intro s o r s' hI hs he ho
  cases o <;> cases he
  exact ⟨hs, hI.port.imp id fun hp => hp.handle⟩

lemma atomic_createIoCompletionPort (v : SOCKET) (port : Option Port) (c : ContextPtr)
    (hΦ : Lasts t Φ) :
    contract.Atomic (handlerMachine env enter) t (At t n fs fun s => Φ s ∧ GoodPort port s)
      (.createIoCompletionPort v port c) fun h => At t n fs fun s => Φ s ∧ GoodPort h s := by
  refine atomic (fun h => stable_at (hΦ.and (.of_lasting (lasting_goodPort h))))
    (fun s _ hP => hP.fact.2) ?_
  intro s o r s' hI hP he heff
  have hlast := hΦ.own _ s s' (by rintro _ ⟨⟩) heff hI hP.fact.1
  have hfailed := lasting_associationFailed s s' (heff.onward hI)
  obtain ⟨rfl, k, -, -, rfl⟩ | ⟨-, rfl⟩ := exec_createIoCompletionPort he
  · refine ⟨hP.held, hP.stack, hlast, hP.fact.2.imp hfailed fun hp => ?_⟩
    rw [hp]
    rfl
  · exact ⟨hP.held, hP.stack, hlast, .inl ⟨_, List.mem_cons_self, rfl⟩⟩

lemma safe_updateCompletionPort (sd : SOCKET) (op : LastIoOperation) (add : Bool)
    (hΦ : Lasts t Φ) :
    contract.Safe (handlerMachine env enter) t (updateCompletionPort sd op add) (At t 0 fs Φ)
      fun _ => At t 0 fs Φ := by
  refine Contract.Safe.bind (safe_createSocketContext sd op hΦ) fun c => ?_
  cases c with
  | none => exact fun _ _ h => h
  | some c =>
      refine Contract.Safe.step _ (atomic_getIocpHandle hΦ) fun port => ?_
      refine Contract.Safe.step _ (atomic_createIoCompletionPort sd port c hΦ) fun h => ?_
      refine Contract.Safe.step (fun _ => At t 0 fs Φ) (atomic (fun _ => stable_at hΦ)
        (fun s _ hP => hP.fact.2) ?_) fun _ => ?_
      · intro s o r s' hI hP he heff
        cases o <;> cases he
        exact ⟨hP.held, hP.stack, hΦ.own _ _ _ (by rintro _ ⟨⟩) heff hI hP.fact.1⟩
      · refine Contract.Safe.step _ (skip rfl hΦ) fun h' => quiet ?_ hΦ
        cases h' <;> cases add <;> simp [Action.silent]

lemma quiet_createTcpSocket : Quiet createTcpSocket := by
  simp [createTcpSocket, Action.silent]

/-! ## Accepting -/

lemma safe_startAccept (hΦ : Lasts t Φ) :
    contract.Safe (handlerMachine env enter) t startAccept (At t 0 fs Φ)
      fun _ => At t 0 fs Φ := by
  refine safe_call (fun _ => nofun) hΦ (fun _ => hΦ) ?_
  refine Contract.Safe.step _ (skip rfl hΦ) fun l => ?_
  cases l with
  | none => exact Contract.Safe.step _ (skip rfl hΦ) fun e => nomatch e
  | some l =>
      refine Contract.Safe.bind (quiet quiet_createTcpSocket hΦ) fun v => quiet ?_ hΦ
      simp [Action.silent]

/-- The object of a connection and its callbacks. -/
lemma atomic_getConnection (p : ConnectionPtr) (hΦ : Lasts t Φ) :
    contract.Atomic (handlerMachine env enter) t (At t n fs Φ) (.getConnection p)
      fun y => At t n fs fun s => Φ s ∧ s.tcpConnections p = some y := by
  refine silent rfl _ (fun y => hΦ.and (.of_lasting (Lasting.object p y))) ?_
  intro s o r s' hI hs he ho
  obtain ⟨hy, rfl⟩ := exec_getConnection he
  exact ⟨hs, hy⟩

lemma At.drop {Ψ : State → Prop} {s : State} (h : At t n fs (fun s => Φ s ∧ Ψ s) s) :
    At t n fs Φ s :=
  ⟨h.held, h.stack, h.fact.1⟩

lemma safe_deliver (p : ConnectionPtr) (c : ContextPtr) (size : ℕ) (hΦ : Lasts t Φ) :
    contract.Safe (handlerMachine env enter) t (deliver p c size) (At t n fs Φ)
      fun _ => At t n fs Φ := by
  refine Contract.Safe.step _ (atomic_getConnection p hΦ) fun y => ?_
  have hΨ := hΦ.and (.of_lasting (Lasting.object p y))
  by_cases hy : y.handlers.onDataReceived = true
  · rw [if_pos hy]
    refine Contract.Safe.step _ (skip rfl hΨ) fun io => ?_
    have hk : y.handlers.isSet .onDataReceived = true := hy
    exact (safe_callConnection hk hΨ fun s hs => hs.2).post fun _ _ _ h => h.drop
  · rw [if_neg hy]
    exact fun _ _ h => h.drop

lemma safe_firstReceive (c : ContextPtr) (hΦ : Lasts t Φ) :
    contract.Safe (handlerMachine env enter) t (firstReceive c) (At t 0 fs Φ)
      fun _ => At t 0 fs Φ := by
  refine Contract.Safe.step _ (skip rfl hΦ) fun _ => Contract.Safe.step _ (skip rfl hΦ) fun v => ?_
  refine Contract.Safe.step _ (skip rfl hΦ) fun r => ?_
  by_cases hr : r.failed = true
  · rw [if_pos hr]
    exact Contract.Safe.bind (safe_disconnect _ _ hΦ) fun _ _ _ h => h
  · rw [if_neg hr]
    exact fun _ _ h => h

lemma safe_handleNewConnection (c n : ContextPtr) (arg : IocpParam) (hΦ : Lasts t Φ) :
    contract.Safe (handlerMachine env enter) t (handleNewConnection c n arg) (At t 0 fs Φ)
      fun _ => At t 0 fs Φ := by
  refine safe_call (fun _ => nofun) hΦ (fun _ => hΦ) ?_
  refine Contract.Safe.step _ (skip rfl hΦ) fun v => Contract.Safe.step _ (skip rfl hΦ) fun q => ?_
  refine Contract.Safe.step (fun hs => At t 0 _ fun s => Φ s ∧ s.handlers = hs)
    (silent rfl _ (fun hs => hΦ.and (.of_lasting fun s s' h he => h.handlers.trans he)) ?_)
    fun hs => ?_
  · intro s o r s' hI hs he ho
    cases o <;> cases he
    exact ⟨hs, rfl⟩
  refine Contract.Safe.step (fun _ => At t 0 (.handleNewConnection n :: fs) Φ)
    (atomic (fun _ => stable_at hΦ) ?_ ?_) fun p => ?_
  · intro s _ hP
    exact ⟨rfl, (Handlers.copySet_none hs).trans hP.fact.2.symm⟩
  · intro s o r s' hI hP he heff
    cases o <;> cases he
    exact ⟨hP.held, hP.stack, hΦ.own _ _ _ (by rintro _ ⟨⟩) heff hI hP.fact.1⟩
  refine Contract.Safe.step _ (skip rfl hΦ) fun _ => ?_
  refine Contract.Safe.bind (N := fun _ => At t 0 _ Φ) ?_ fun _ => safe_firstReceive n hΦ
  split
  · exact safe_deliver p c arg.ioSize hΦ
  · exact fun _ _ h => h

lemma safe_handleAccept (c : ContextPtr) (arg : IocpParam) (hΦ : Lasts t Φ) :
    contract.Safe (handlerMachine env enter) t (handleAccept c arg) (At t 0 fs Φ)
      fun _ => At t 0 fs Φ := by
  refine Contract.Safe.step _ (skip rfl hΦ) fun io => Contract.Safe.step _ (skip rfl hΦ) fun l => ?_
  cases l with
  | none => exact Contract.Safe.step _ (skip rfl hΦ) fun e => nomatch e
  | some l =>
      refine Contract.Safe.step _ (skip rfl hΦ) fun _ => ?_
      refine Contract.Safe.step _ (skip rfl hΦ) fun ok => ?_
      cases ok with
      | false => exact fun _ _ h => h
      | true =>
          refine Contract.Safe.step _ (skip rfl hΦ) fun io => ?_
          refine Contract.Safe.bind (safe_updateCompletionPort _ _ _ hΦ) fun n => ?_
          cases n with
          | none => exact fun _ _ h => h
          | some n =>
              exact Contract.Safe.bind (safe_handleNewConnection c n arg hΦ) fun _ _ _ h => h

lemma safe_handleConnect (c : ContextPtr) (arg : IocpParam) (hΦ : Lasts t Φ) :
    contract.Safe (handlerMachine env enter) t (handleConnect c arg) (At t 0 fs Φ)
      fun _ => At t 0 fs Φ := by
  refine Contract.Safe.step _ (skip rfl hΦ) fun v => Contract.Safe.step _ (skip rfl hΦ) fun l => ?_
  cases l with
  | none => exact Contract.Safe.step _ (skip rfl hΦ) fun e => nomatch e
  | some l =>
      refine Contract.Safe.step _ (skip rfl hΦ) fun _ => ?_
      refine Contract.Safe.step _ (skip rfl hΦ) fun ok => ?_
      cases ok with
      | false => exact fun _ _ h => h
      | true =>
          refine Contract.Safe.step _ (skip rfl hΦ) fun v => ?_
          refine Contract.Safe.bind (safe_updateCompletionPort _ _ _ hΦ) fun n => ?_
          cases n with
          | none => exact fun _ _ h => h
          | some n =>
              exact Contract.Safe.bind (safe_handleNewConnection c n arg hΦ) fun _ _ _ h => h

/-! ## Receiving and sending -/

lemma safe_startReceive (c : ContextPtr) (arg : IocpParam) (hΦ : Lasts t Φ) :
    contract.Safe (handlerMachine env enter) t (startReceive c arg) (At t 0 fs Φ)
      fun _ => At t 0 fs Φ := by
  refine Contract.Safe.step _ (skip rfl hΦ) fun _ => Contract.Safe.step _ (skip rfl hΦ) fun v => ?_
  refine Contract.Safe.step _ (skip rfl hΦ) fun r => ?_
  by_cases hr : r.failed = true
  · rw [if_pos hr]
    refine Contract.Safe.step _ (skip rfl hΦ) fun _ => ?_
    exact Contract.Safe.bind (safe_disconnect _ _ hΦ) fun _ _ _ h => h
  · rw [if_neg hr]
    exact fun _ _ h => h

lemma safe_deliverReceived (c : ContextPtr) (arg : IocpParam) (hΦ : Lasts t Φ) :
    contract.Safe (handlerMachine env enter) t (deliverReceived c arg) (At t n fs Φ)
      fun _ => At t n fs Φ := by
  refine Contract.Safe.step _ (skip rfl hΦ) fun v => Contract.Safe.step _ (skip rfl hΦ) fun m => ?_
  by_cases hm : m > 0
  · rw [if_pos hm]
    refine Contract.Safe.step _ (skip rfl hΦ) fun v => ?_
    refine Contract.Safe.step _ (skip rfl hΦ) fun p => ?_
    cases p with
    | none => exact Contract.Safe.step _ (skip rfl hΦ) fun e => nomatch e
    | some p => exact safe_deliver p c arg.ioSize hΦ
  · rw [if_neg hm]
    exact quiet (by simp [Action.silent]) hΦ

lemma safe_handleReceive (c : ContextPtr) (arg : IocpParam) (hΦ : Lasts t Φ) :
    contract.Safe (handlerMachine env enter) t (handleReceive c arg) (At t 0 fs Φ)
      fun _ => At t 0 fs Φ :=
  safe_call (fun _ => nofun) hΦ (fun _ => hΦ)
    (Contract.Safe.bind (safe_deliverReceived c arg hΦ) fun _ => safe_startReceive c arg hΦ)

lemma safe_handleSend (c : ContextPtr) (arg : IocpParam) (hΦ : Lasts t Φ) :
    contract.Safe (handlerMachine env enter) t (handleSend c arg) (At t 0 fs Φ)
      fun _ => At t 0 fs Φ := by
  refine Contract.Safe.step _ (skip rfl hΦ) fun _ => Contract.Safe.step _ (skip rfl hΦ) fun io => ?_
  refine Contract.Safe.step _ (skip rfl hΦ) fun _ => Contract.Safe.step _ (skip rfl hΦ) fun io => ?_
  by_cases hio : io.sentBytes < io.totalBytes
  · rw [if_pos hio]
    refine Contract.Safe.step _ (skip rfl hΦ) fun v => ?_
    refine Contract.Safe.step _ (skip rfl hΦ) fun r => ?_
    by_cases hr : r.failed = true
    · rw [if_pos hr]
      exact Contract.Safe.bind (safe_disconnect _ _ hΦ) fun _ _ _ h => h
    · rw [if_neg hr]
      exact fun _ _ h => h
  · rw [if_neg hio]
    exact quiet (by simp [Action.silent]) hΦ

/-! ## The loop of the workers -/

lemma safe_alplAssert {f : P ℤ} {k : P Turn}
    (hf : contract.Safe (handlerMachine env enter) t f (At t 0 fs Φ) fun _ => At t 0 fs Φ)
    (hk : contract.Safe (handlerMachine env enter) t k (At t 0 fs Φ) fun _ => At t 0 fs Φ) :
    contract.Safe (handlerMachine env enter) t (alplAssert f k) (At t 0 fs Φ)
      fun _ => At t 0 fs Φ := by
  refine Contract.Safe.bind hf fun rc => ?_
  split
  · exact fun _ _ h => h
  · exact hk

lemma safe_switch (c : ContextPtr) (arg : IocpParam) (hΦ : Lasts t Φ) :
    contract.Safe (handlerMachine env enter) t (switch c arg) (At t 0 fs Φ)
      fun _ => At t 0 fs Φ := by
  have hagain : contract.Safe (handlerMachine env enter) t (pure Turn.again : P Turn)
      (At t 0 fs Φ) fun _ => At t 0 fs Φ := fun _ _ h => h
  refine Contract.Safe.step _ (skip rfl hΦ) fun io => ?_
  split
  · exact safe_alplAssert (safe_handleAccept c arg hΦ)
      (safe_alplAssert (safe_startAccept hΦ) hagain)
  · exact safe_alplAssert (safe_handleConnect c arg hΦ)
      (safe_alplAssert (safe_startReceive c arg hΦ) hagain)
  · exact safe_alplAssert (safe_handleReceive c arg hΦ) hagain
  · exact safe_alplAssert (safe_handleSend c arg hΦ) hagain

lemma safe_handlePacket (pkt : Packet) (hΦ : Lasts t Φ) :
    contract.Safe (handlerMachine env enter) t (handlePacket pkt) (At t 0 fs Φ)
      fun _ => At t 0 fs Φ := by
  rw [handlePacket]
  cases pkt.overlapped with
  | none => exact Contract.Safe.step _ (skip rfl hΦ) fun e => nomatch e
  | some o =>
      refine Contract.Safe.step _ (skip rfl hΦ) fun io => ?_
      split
      · exact Contract.Safe.bind (safe_disconnect _ _ hΦ) fun _ _ _ h => h
      · cases pkt.key with
        | none => exact Contract.Safe.step _ (skip rfl hΦ) fun e => nomatch e
        | some c => exact safe_switch c _ hΦ

lemma safe_turn (pkt : Packet) (hΦ : Lasts t Φ) :
    contract.Safe (handlerMachine env enter) t (turn pkt) (At t 0 fs Φ)
      fun _ => At t 0 fs Φ := by
  refine Contract.Safe.step _ (skip rfl hΦ) fun exiting => ?_
  cases exiting with
  | true => exact fun _ _ h => h
  | false =>
      refine Contract.Safe.step _ (skip rfl hΦ) fun isRunning => ?_
      cases isRunning with
      | false => exact fun _ _ h => h
      | true => exact safe_handlePacket pkt hΦ

lemma atomic_finish (hΦ : Lasts t Φ) :
    contract.Atomic (handlerMachine env enter) t (At t 0 fs Φ) .finish fun _ => At t 0 [] Φ := by
  refine atomic (fun _ => stable_at hΦ) (fun s _ hP => hP.held) ?_
  intro s o r s' hI hP he heff
  cases o <;> cases he
  exact ⟨hP.held, Function.update_self _ _ _, hΦ.own _ _ _ (by rintro _ ⟨⟩) heff hI hP.fact⟩

lemma lasts_true : Lasts t fun _ => True := .of_lasting (Lasting.const _)

lemma safe_workerThread (hIOCP : Port) :
    contract.Safe (handlerMachine env enter) t (workerThread hIOCP)
      (At t 0 [] (WaitsOn (.workerThread hIOCP)))
      (contract.Exit t) := by
  have hΦ : Lasts t (WaitsOn (.workerThread hIOCP)) := .of_lasting (lasting_waitsOn _)
  refine Contract.Safe.step (fun _ s => ∃ fs, At t 0 fs (WaitsOn (.workerThread hIOCP)) s) (atomic
    (fun _ => Contract.Stable.exists fun _ => stable_at hΦ)
    (fun s _ hP => ⟨hP.held, hP.fact _ rfl⟩) ?_) fun pkt => Contract.Safe.exists fun fs => ?_
  · intro s o r s' hI hP he heff
    obtain ⟨rest, -, rfl⟩ := exec_getQueuedCompletionStatus he
    exact ⟨_, hP.held, Function.update_self _ _ _, hP.fact⟩
  refine Contract.Safe.bind (safe_turn pkt hΦ) fun next => ?_
  refine Contract.Safe.step _ (atomic_finish hΦ) fun _ => ?_
  cases next with
  | again => exact fun _ _ h => h
  | leave =>
      exact Contract.Safe.step _ (skip rfl hΦ) fun _ _ _ h => ⟨h.held, h.stack, trivial⟩

/-! ## Shutdown -/

lemma safe_postExitPackets (m : ℕ) (hΦ : Lasts t Φ) :
    contract.Safe (handlerMachine env enter) t (postExitPackets m) (At t n fs Φ)
      fun _ => At t n fs Φ := by
  induction m with
  | zero => exact fun _ _ h => h
  | succ m ih =>
      refine Contract.Safe.step _ (atomic_getIocpHandle hΦ) fun h => ?_
      cases h with
      | none => exact ih.pre fun _ _ h => h.drop
      | some port =>
          refine Contract.Safe.step (fun _ => At t n fs Φ) (atomic (fun _ => stable_at hΦ) ?_ ?_)
            fun _ => ih
          · exact fun s _ hP => hP.fact.2.imp id Option.some.inj
          · intro s o r s' hI hP he heff
            cases o <;> cases he
            all_goals
              exact ⟨hP.held, hP.stack, hΦ.own _ _ _ (by rintro _ ⟨⟩) heff hI hP.fact.1⟩

lemma quiet_closeListener (l : ContextPtr) : Quiet (closeListener l) := by
  simp [closeListener, Prog.perform, Action.silent]

lemma safe_exiting (hΦ : Lasts t Φ) :
    contract.Safe (handlerMachine env enter) t exiting (At t n fs Φ) fun _ => At t n fs Φ := by
  refine Contract.Safe.step _ (skip rfl hΦ) fun _ => Contract.Safe.step _ (skip rfl hΦ) fun h => ?_
  refine Contract.Safe.step _ (skip rfl hΦ) fun m => ?_
  refine Contract.Safe.bind (N := fun _ => At t n fs Φ) ?_ fun _ => ?_
  · split
    · exact safe_postExitPackets m hΦ
    · exact fun _ _ h => h
  refine Contract.Safe.step _ (skip rfl hΦ) fun _ => Contract.Safe.step _ (skip rfl hΦ) fun l => ?_
  cases l with
  | none => exact Contract.Safe.step _ (skip rfl hΦ) fun e => nomatch e
  | some l =>
      refine Contract.Safe.bind (quiet (quiet_closeListener l) hΦ) fun _ => quiet ?_ hΦ
      simp [Action.silent]

/-! ## The owners of the handler -/

lemma quiet_createListener {n : ℕ} : Quiet (createListener n) := by
  refine Quiet.bind ⟨rfl, fun _ => trivial⟩ fun resolved => ?_
  split
  · trivial
  · refine Quiet.bind quiet_createTcpSocket fun ls => ?_
    simp [Action.silent]

lemma safe_initAccept (ls : SOCKET) (hΦ : Lasts t Φ) :
    contract.Safe (handlerMachine env enter) t (initAccept ls) (At t 0 fs Φ)
      fun _ => At t 0 fs Φ := by
  refine Contract.Safe.bind (safe_updateCompletionPort _ _ _ hΦ) fun l => ?_
  refine Contract.Safe.step _ (skip rfl hΦ) fun _ => ?_
  cases l with
  | none => exact fun _ _ h => h
  | some l =>
      refine Contract.Safe.step _ (skip rfl hΦ) fun ok => ?_
      cases ok with
      | false => exact fun _ _ h => h
      | true =>
          refine Contract.Safe.bind (safe_startAccept hΦ) fun rc => ?_
          split <;> exact fun _ _ h => h

lemma safe_startServer (hΦ : Lasts t Φ) :
    contract.Safe (handlerMachine env enter) t startServer (At t 0 fs Φ)
      fun _ => At t 0 fs Φ := by
  refine safe_call (fun _ => nofun) hΦ (fun _ => hΦ) ?_
  refine Contract.Safe.bind (quiet quiet_createListener hΦ) fun r => ?_
  split
  · exact fun _ _ h => h
  · refine Contract.Safe.bind (safe_initAccept r.2 hΦ) fun rc => ?_
    split <;> exact fun _ _ h => h

lemma safe_stop (hΦ : Lasts t Φ) :
    contract.Safe (handlerMachine env enter) t stop (At t 0 fs Φ) fun _ => At t 0 fs Φ := by
  refine safe_call (fun _ => nofun) hΦ (fun _ => hΦ) ?_
  exact Contract.Safe.bind (safe_exiting hΦ) fun _ => quiet (by simp [Action.silent]) hΦ

lemma safe_initReceive (v : SOCKET) (hΦ : Lasts t Φ) :
    contract.Safe (handlerMachine env enter) t (initReceive v) (At t 0 fs Φ)
      fun _ => At t 0 fs Φ := by
  refine Contract.Safe.bind (safe_updateCompletionPort _ _ _ hΦ) fun l => ?_
  refine Contract.Safe.step _ (skip rfl hΦ) fun _ => ?_
  cases l with
  | none => exact Contract.Safe.step _ (skip rfl hΦ) fun e => nomatch e
  | some l => exact safe_firstReceive l hΦ

lemma safe_startClient (p : ConnectionPtr) (hΦ : Lasts t Φ) :
    contract.Safe (handlerMachine env enter) t (startClient p) (At t 0 fs Φ)
      fun _ => At t 0 fs Φ := by
  refine safe_call (fun _ => nofun) hΦ (fun _ => hΦ) ?_
  refine Contract.Safe.step _ (skip rfl hΦ) fun y => ?_
  refine Contract.Safe.bind (safe_initReceive y.socket hΦ) fun rc => ?_
  split <;> exact fun _ _ h => h

/-! ## Sending -/

/-- What a thread has done since it entered a function, the others do not undo. -/
lemma since_append {f : Frame} {h h' : List Record} (hh : ∀ r ∈ h, r.thread ≠ t) :
    since t f (h ++ h') = h ++ since t f h' := by
  refine List.takeWhile_append_of_pos fun r hr => ?_
  have hne : r ≠ .entered t f := by
    rintro rfl
    exact hh _ hr rfl
  simpa using hne

lemma lasts_sendCalled (p : ConnectionPtr) : Lasts t fun s => SendCalled t p s.history where
  steady s s' hR h := by
    obtain ⟨v, data, len, ok, hmem⟩ := h
    obtain ⟨l, hl, hne⟩ := hR.records
    refine ⟨v, data, len, ok, ?_⟩
    rw [hl, since_append hne]
    exact List.mem_append_right l hmem
  own a s s' ha he _ h := by
    obtain ⟨v, data, len, ok, hmem⟩ := h
    refine ⟨v, data, len, ok, ?_⟩
    rcases he.history with he | ⟨r, hr, he⟩
    · rwa [he]
    · have hne : r ≠ .entered t (.send p) := by
        rintro rfl
        cases hr
        exact ha p rfl
      rw [he, since, List.takeWhile_cons_of_pos (by simpa using hne)]
      exact List.mem_cons_of_mem r hmem

lemma safe_onSentCompleted (p : ConnectionPtr) (hΦ : Lasts t Φ) :
    contract.Safe (handlerMachine env enter) t (onSentCompleted p) (At t n fs Φ)
      fun _ => At t n fs Φ := by
  refine Contract.Safe.step _ (atomic_getConnection p hΦ) fun y => ?_
  have hΨ := hΦ.and (.of_lasting (Lasting.object p y))
  by_cases hy : y.handlers.onSentCompleted = true
  · rw [if_pos hy]
    have hk : y.handlers.isSet .onSentCompleted = true := hy
    exact (safe_callConnection hk hΨ fun s hs => hs.2).post fun _ _ _ h => h.drop
  · rw [if_neg hy]
    exact fun _ _ h => h.drop

lemma sendCalled_of_send {v : SOCKET} {data : List UInt8} {len : ℤ} {p : ConnectionPtr}
    {o : Outcome} {s s' : State} {n : ℤ} (he : exec t (.send v data len) o s = some (n, s')) :
    SendCalled t p s'.history := by
  have hcall : ∀ ok h, SendCalled t p (.call t (.send v data len) ok :: h) := fun ok h =>
    ⟨v, data, len, ok, by simp [since]⟩
  obtain ⟨m, k, -, -, -, rfl⟩ | ⟨-, rfl⟩ := exec_send he <;> exact hcall _ _

/-- `Send` finds the connection connected, always. -/
lemma safe_send (p : ConnectionPtr) (data : List UInt8) (hΦ : Lasting Φ) :
    contract.Safe (handlerMachine env enter) t (send p data) (At t 0 fs Φ)
      fun _ => At t 0 fs Φ := by
  have hΦ' : Lasts t Φ := .of_lasting hΦ
  refine Contract.Safe.step (fun _ => At t 0 (.send p :: fs) Φ)
    (atomic (fun _ => stable_at hΦ') (fun _ _ _ => trivial) ?_) fun _ => ?_
  · intro s o r s' hI hP he heff
    cases o <;> cases he
    refine ⟨hP.held, ?_, hΦ _ _ (heff.onward hI) hP.fact⟩
    rw [← hP.stack]
    exact Function.update_self _ _ _
  refine Contract.Safe.bind
    (N := fun rc => At t 0 (.send p :: fs) fun s =>
      Φ s ∧ rc = commSuccess ∧ SendCalled t p s.history) ?_ fun rc => ?_
  · refine Contract.Safe.step _ (atomic_getConnection p hΦ') fun y => ?_
    by_cases hy : y.connected = true
    · simp only [hy, Bool.not_true, Bool.false_eq_true, if_false]
      refine Contract.Safe.pre (N := At t 0 (.send p :: fs) Φ) ?_ fun _ _ h => h.drop
      refine Contract.Safe.step _ (skip rfl hΦ') fun y => ?_
      have hΨ := hΦ'.and (lasts_sendCalled p)
      refine Contract.Safe.step _ (silent rfl (fun _ s => Φ s ∧ SendCalled t p s.history)
        (fun _ => hΨ) fun s o r s' hI hs he heff => ⟨hΦ _ _ (heff.onward hI) hs, ?_⟩) fun _ => ?_
      · exact sendCalled_of_send he
      · exact Contract.Safe.bind (safe_onSentCompleted p hΨ)
          fun _ s _ h => ⟨h.held, h.stack, h.fact.1, rfl, h.fact.2⟩
    · refine Contract.Safe.vacuous _ fun s hI hs => hy (hI.inv.objects p y hs.fact.2).1
  · refine Contract.Safe.step (fun _ => At t 0 fs Φ) (atomic (fun _ => stable_at hΦ') ?_ ?_)
      fun _ _ _ h => h
    · rintro s _ hP
      exact ⟨hP.held, fun q hq => ⟨hP.fact.2.1, Frame.send.inj hq ▸ hP.fact.2.2⟩⟩
    · intro s o r s' hI hP he heff
      cases o <;> cases he
      refine ⟨hP.held, ?_, hΦ _ _ (heff.onward hI) hP.fact.1⟩
      refine (Function.update_self _ _ _).trans ?_
      rw [hP.stack]
      rfl

/-! ## The contract holds -/

lemma safe_run {f : P ℤ}
    (hf : contract.Safe (handlerMachine env enter) t f (At t 0 [] fun _ => True)
      fun _ => At t 0 [] fun _ => True) :
    contract.Safe (handlerMachine env enter) t (run f) (At t 0 [] Φ) (contract.Exit t) := by
  refine Contract.Safe.pre (N := At t 0 [] fun _ => True) ?_
    fun _ _ h => ⟨h.held, h.stack, trivial⟩
  exact Contract.Safe.bind hf fun _ =>
    Contract.Safe.step _ (atomic_finish lasts_true) fun _ _ _ h => h

lemma safe_code (l : Label) :
    contract.Safe (handlerMachine env enter) t (code l) (contract.Entry t l) (contract.Exit t) := by
  cases l with
  | workerThread q => exact safe_workerThread q
  | startServer => exact safe_run (safe_startServer lasts_true)
  | startClient => exact safe_run (safe_startClient _ lasts_true)
  | stop => exact safe_run (safe_stop lasts_true)
  | send p data => exact safe_run (safe_send p data (Lasting.const _))

/-- **Every handler keeps its contract**, in all surroundings that leave its members alone and
let only idle threads enter its code. -/
theorem contract_holds (henv : ∀ e s s', env e s = some s' → Undisturbed s s')
    (henter : ∀ t l s s', enter t l s = some s' → s' = s ∧ ∀ q, l ≠ .workerThread q) :
    contract.Holds (handlerMachine env enter) where
  idle_stable _ := stable_at lasts_true
  entry_stable _ l := stable_at (.of_lasting (lasting_waitsOn l))
  died_stable _ := fun _ _ _ _ hR h => (congrArg _ hR.handlers).trans h
  env e s s' hI he _ :=
    have h := henv e s s' he
    ⟨h.inv hI.inv, fun u _ => h.steady u, h.onward⟩
  enter t l s s' hI hidle he _ := by
    obtain ⟨rfl, hl⟩ := henter t l s s' he
    exact ⟨⟨hI.inv, fun u _ => .refl u s', .refl s'⟩, hidle.held, hidle.stack,
      fun q hq => absurd hq (hl q)⟩
  code _ l := safe_code l

end Handler

end Alpl.Net
