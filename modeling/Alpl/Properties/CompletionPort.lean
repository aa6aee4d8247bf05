import Alpl.Handler.Runs

/-!
# The completion port

`updateCompletionPort` writes what `CreateIoCompletionPort` answers back into `iocp_handle_`, so
one association that fails loses the port for everything that comes after it.  As long as none
fails, the port is kept: this module says so of every run, and of one call.
-/

namespace Alpl.Net

open Interleaving

/-- The members of the handler that `updateCompletionPort` writes are as they were, and no
association has failed in between. -/
structure Untouched (s s' : State) : Prop where
  iocpHandle : s'.iocpHandle = s.iocpHandle
  socketContexts : s'.socketContexts = s.socketContexts
  connections : s'.connections = s.connections
  failed : AssociationFailed s' → AssociationFailed s

lemma Untouched.trans {s₁ s₂ s₃ : State} (h : Untouched s₁ s₂) (h' : Untouched s₂ s₃) :
    Untouched s₁ s₃ :=
  ⟨h'.iocpHandle.trans h.iocpHandle, h'.socketContexts.trans h.socketContexts,
    h'.connections.trans h.connections, fun hf => h.failed (h'.failed hf)⟩

lemma failed_of_record {s : State} {r : Record} (hr : r.isFailedAssociation = false)
    (h : AssociationFailed (s.record r)) : AssociationFailed s := by
  obtain ⟨r', hmem, hf⟩ := h
  rcases List.mem_cons.mp hmem with rfl | hmem
  · rw [hr] at hf
    cases hf
  · exact ⟨r', hmem, hf⟩

variable {role : Role} {t : Tid} {s s' : State}

lemma alone_createSocketContext {sd : SOCKET} {op : LastIoOperation} {x : Option ContextPtr}
    (h : (machine role).Alone t (createSocketContext sd op) s x s') : Untouched s s' := by
  obtain ⟨o₁, r₁, s₁, h₁, h⟩ := Machine.alone_act h
  obtain ⟨o₂, r₂, s₂, h₂, h⟩ := Machine.alone_act h
  have hu₁ : Untouched s s₁ := by
    cases o₁ <;> cases h₁
    exact ⟨rfl, rfl, rfl, failed_of_record rfl⟩
  have hleave : ∀ {s₁ s₂ : State} {rc : ℤ} {o r},
      exec t (.leave .createSocketContext rc) o s₁ = some (r, s₂) → Untouched s₁ s₂ := by
    intro s₁ s₂ rc o r h
    cases o <;> cases h
    exact ⟨rfl, rfl, rfl, failed_of_record rfl⟩
  cases r₂ with
  | false =>
      have hu₂ : Untouched s₁ s₂ := by
        obtain ⟨hr, -⟩ | ⟨-, rfl⟩ := exec_enterCriticalSection h₂
        · cases hr
        · exact ⟨rfl, rfl, rfl, failed_of_record rfl⟩
      obtain ⟨o₃, r₃, s₃, h₃, h⟩ := Machine.alone_act h
      cases h
      exact (hu₁.trans hu₂).trans (hleave h₃)
  | true =>
      have hu₂ : Untouched s₁ s₂ := by
        obtain ⟨-, cs, -, rfl⟩ | ⟨hr, -⟩ := exec_enterCriticalSection h₂
        · exact ⟨rfl, rfl, rfl, id⟩
        · cases hr
      obtain ⟨o₃, c, s₃, h₃, h⟩ := Machine.alone_act h
      obtain ⟨o₄, r₄, s₄, h₄, h⟩ := Machine.alone_act h
      obtain ⟨o₅, r₅, s₅, h₅, h⟩ := Machine.alone_act h
      have hu₃ : Untouched s₂ s₃ := by
        cases o₃ <;> cases h₃
        exact ⟨rfl, rfl, rfl, id⟩
      have hu₄ : Untouched s₃ s₄ := by
        obtain ⟨cs, -, rfl⟩ := exec_leaveCriticalSection h₄
        exact ⟨rfl, rfl, rfl, id⟩
      cases h
      exact (((hu₁.trans hu₂).trans hu₃).trans hu₄).trans (hleave h₅)

/-- By itself, a call of `updateCompletionPort` that answers `NULL` leaves the tables of the
handler alone exactly if no association failed in it. -/
lemma updateCompletionPort_null {sd : SOCKET} {op : LastIoOperation} {add : Bool} {q : Port}
    (hq : s.iocpHandle = some q) (hs : ¬ AssociationFailed s)
    (h : (machine role).Alone t (updateCompletionPort sd op add) s none s') :
    (s'.iocpHandle = s.iocpHandle ∧ s'.socketContexts = s.socketContexts ∧
      s'.connections = s.connections) ↔ ¬ AssociationFailed s' := by
  obtain ⟨c, s₁, h₁, k₁⟩ := Machine.alone_bind h
  have hu := alone_createSocketContext h₁
  cases c with
  | none =>
      cases k₁
      exact ⟨fun _ hf => hs (hu.failed hf),
        fun _ => ⟨hu.iocpHandle, hu.socketContexts, hu.connections⟩⟩
  | some c =>
      obtain ⟨o₂, port, s₂, h₂, k₂⟩ := Machine.alone_act k₁
      obtain ⟨o₃, r₃, s₃, h₃, k₃⟩ := Machine.alone_act k₂
      obtain ⟨o₄, r₄, s₄, h₄, k₄⟩ := Machine.alone_act k₃
      obtain ⟨o₅, r₅, s₅, h₅, k₅⟩ := Machine.alone_act k₄
      have e₄ : s₄ = { s₃ with iocpHandle := r₃ } := by
        cases o₄ <;> cases h₄
        rfl
      have e₅ : r₅ = r₃ ∧ s₅ = s₄ := by
        subst e₄
        cases o₅ <;> cases h₅
        exact ⟨rfl, rfl⟩
      obtain ⟨rfl, rfl⟩ := e₅
      cases r₅ with
      | some p =>
          exfalso
          obtain ⟨_, _, -, k₆⟩ := Machine.alone_bind k₅
          cases k₆
      | none =>
          have hfail : AssociationFailed s₃ := by
            obtain ⟨hr, -⟩ | ⟨-, rfl⟩ := exec_createIoCompletionPort h₃
            · cases hr
            · exact ⟨_, List.mem_cons_self, rfl⟩
          obtain ⟨o₆, r₆, s₆, h₆, k₆⟩ := Machine.alone_act k₅
          cases k₆
          have e₆ : s'.iocpHandle = none ∧ AssociationFailed s' := by
            subst e₄
            obtain ⟨x, -, rfl⟩ := exec_freeContext h₆
            exact ⟨rfl, hfail⟩
          refine ⟨fun hsame => ?_, fun hn => absurd e₆.2 hn⟩
          rw [e₆.1, hq] at hsame
          cases hsame.1

/-- **The completion port is kept while no association fails.**  As long as none has, the handler
holds the port `init_handler` created, every worker waits on it, every associated socket is served
by it, and every wake-up was posted to it.  A call of `updateCompletionPort` that answers `NULL`
leaves the handler's tables as they were exactly if no association failed in it. -/
theorem completion_port_kept {role : Role} {u : Setup} :
    (∀ G, Reachable role u G → ¬ AssociationFailed G.state →
      G.state.iocpHandle = some handlerPort ∧
      (∀ t q k, G.threads t = .running (.act (.getQueuedCompletionStatus q) k) → q = handlerPort) ∧
      (∀ k q c, (G.state.sockets k).assoc = some (q, c) → q = handlerPort) ∧
      ∀ t q ok, .call t (.postQueuedCompletionStatus q) ok ∈ G.state.history → q = handlerPort) ∧
    ∀ t sd op add q s s', s.iocpHandle = some q → ¬ AssociationFailed s →
      (machine role).Alone t (updateCompletionPort sd op add) s none s' →
      ((s'.iocpHandle = s.iocpHandle ∧ s'.socketContexts = s.socketContexts ∧
        s'.connections = s.connections) ↔ ¬ AssociationFailed s') := by
  refine ⟨fun G hG hf => ?_, fun t sd op add q s s' => updateCompletionPort_null⟩
  have hport := hG.handler.ok.inv.port.resolve_left hf
  rw [← hG.setUp.workersPort]
  exact ⟨hport.handle, fun t q k hx => (hG.handler.allowed hx).2, hport.assoc, hport.posted⟩

theorem completion_port_kept_start :
    (∃ G, Reachable .server fullServer G ∧ G.state.started ∧
      G.state.iocpHandle = some handlerPort) ∧
    ∃ s', (machine .server).Alone .main (updateCompletionPort 100 .ioAccept false)
      (State.init fullServer) none s' ∧ ¬ AssociationFailed s' := by
  constructor
  · obtain ⟨G, hG, hφ⟩ := reachable_of_run (.server (u := fullServer)) startMoves
      (φ := fun G => ¬ AssociationFailed G.state ∧ G.state.started) (by decide +kernel)
    obtain ⟨hf, hs⟩ := of_decide_eq_true hφ
    exact ⟨G, hG, hs, (completion_port_kept.1 G hG hf).1⟩
  · have hrun : (machine .server).Alone .main (updateCompletionPort 100 .ioAccept false)
        (State.init fullServer) none _ :=
      .act (c := .ok) rfl (.act (c := .fail 0) rfl (.act (c := .ok) rfl (.ret none _)))
    have hnone : ¬ AssociationFailed (State.init fullServer) := fun ⟨_, hr, _⟩ =>
      absurd hr List.not_mem_nil
    refine ⟨_, hrun, ((completion_port_kept (u := fullServer)).2
      _ _ _ _ handlerPort _ _ rfl hnone hrun).mp ?_⟩
    exact ⟨rfl, rfl, rfl⟩

/-- One failed association and the server has no completion port any more. -/
theorem completion_port_lost : ¬ ∀ G, Reachable .server fullServer G →
    G.state.iocpHandle = some handlerPort := by
  intro h
  obtain ⟨G, hG, hlost⟩ := reachable_of_run (.server (u := fullServer))
    (startMoves ++ .env (.complete ⟨.accept 1, 0, 0, acceptReceiveLength⟩ []) ::
      steps (.worker 0) (List.replicate 16 .ok ++ [.fail 8, .ok]))
    (φ := fun G => G.state.iocpHandle == none) (by decide +kernel)
  rw [h G hG] at hlost
  cases hlost

end Alpl.Net
