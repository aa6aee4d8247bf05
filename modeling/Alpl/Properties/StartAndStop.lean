import Alpl.Interleaving.Typestate
import Alpl.Net.Actions
import Alpl.Properties.UnsetMembers

/-!
# The two models of `Start` and `Stop`

`Net/Members.lean` has `Start` and `Stop` as functions of what Windows answers, `Net/Server.lean` as
programs of the main thread.  Where the main thread runs by itself the two agree: for every run of
the program there are answers with which the function returns the same, and leaves the same in the
members that both models have.
-/

namespace Alpl.Net

open Interleaving Typestate

/-! ## The members of both models -/

/-- The members that both models have.  A context that is unset or `NULL` is `none`. -/
structure Members where
  exiting : Bool
  isRunning : Bool
  hasPort : Bool
  workers : ℕ
  theSocketContext : Option SocketContext

def State.members (s : State) : Members where
  exiting := s.exiting
  isRunning := s.isRunning
  hasPort := s.iocpHandle.isSome
  workers := s.numWorkerThreads
  theSocketContext := s.theSocketContext.bind s.contexts

def IocpHandler.members (h : IocpHandler) : Members where
  exiting := h.isExiting
  isRunning := h.isRunning
  hasPort := h.iocpHandle.isSome
  workers := h.numWorkerThreads
  theSocketContext := h.theSocketContext.join

/-- The handler is up, and has the members that the machine has in state `s`. -/
structure IocpHandler.Shows (h : IocpHandler) (s : State) : Prop extends h.Up where
  members : h.members = s.members

/-- The actions that write a member or a context. -/
def Action.assigns : Action → Bool
  | .setExiting => true
  | .setIocpHandle _ => true
  | .setTheSocketContext _ => true
  | .newContext _ _ => true
  | .freeContext _ => true
  | .setSocket _ _ => true
  | .setLastOperation _ _ => true
  | .setSocketAccept _ _ => true
  | .setSentBytes _ _ => true
  | _ => false

/-- The members are the same, and so are the contexts. -/
structure SameMembers (s s' : State) : Prop where
  exiting : s'.exiting = s.exiting
  isRunning : s'.isRunning = s.isRunning
  iocpHandle : s'.iocpHandle = s.iocpHandle
  workers : s'.numWorkerThreads = s.numWorkerThreads
  theSocketContext : s'.theSocketContext = s.theSocketContext
  contexts : s'.contexts = s.contexts

namespace SameMembers

variable {s s₁ s₂ s₃ : State}

lemma refl (s : State) : SameMembers s s := ⟨rfl, rfl, rfl, rfl, rfl, rfl⟩

lemma trans (h : SameMembers s₁ s₂) (h' : SameMembers s₂ s₃) : SameMembers s₁ s₃ where
  exiting := h'.exiting.trans h.exiting
  isRunning := h'.isRunning.trans h.isRunning
  iocpHandle := h'.iocpHandle.trans h.iocpHandle
  workers := h'.workers.trans h.workers
  theSocketContext := h'.theSocketContext.trans h.theSocketContext
  contexts := h'.contexts.trans h.contexts

lemma members (h : SameMembers s₁ s₂) : s₂.members = s₁.members := by
  simp only [State.members, h.exiting, h.isRunning, h.iocpHandle, h.workers, h.theSocketContext,
    h.contexts]

end SameMembers

lemma exec_sameMembers {t : Tid} {a : Action} {o : Outcome} {s : State} (ha : a.assigns = false) :
    ∀ rs ∈ exec t a o s, SameMembers s rs.2 := by
  unfold exec exec.acceptEx exec.post exec.invoke
  split
  all_goals first
    | (cases ha; done)
    | skip
  all_goals try split
  all_goals try split
  all_goals simp only [Option.mem_def, Option.map_eq_some_iff, Option.some.injEq, reduceCtorEq,
    IsEmpty.forall_iff, implies_true, forall_exists_index, and_imp, forall_eq',
    forall_apply_eq_imp_iff₂]
  all_goals intros
  all_goals try split
  all_goals exact ⟨rfl, rfl, rfl, rfl, rfl, rfl⟩

/-! ## A thread by itself -/

section

variable {role : Role} {t : Tid} {s s' : State} {α : Type} {x : α}

/-- A program that writes none of them. -/
lemma sameMembers_of_alone {p : P α} (hp : Every (fun a => a.assigns = false) p)
    (h : (machine role).Alone t p s x s') : SameMembers s s' :=
  hp.alone SameMembers.refl (fun _ _ _ => SameMembers.trans)
    (fun _ _ _ _ _ ha he => exec_sameMembers ha _ he) h

/-- One action that writes none of them, and the rest. -/
lemma alone_reading {a : Action} {k : a.Res → P α} (ha : a.assigns = false)
    (h : (machine role).Alone t (Prog.perform a >>= k) s x s') :
    ∃ r s₁, SameMembers s s₁ ∧ (machine role).Alone t (k r) s₁ x s' := by
  obtain ⟨o, r, s₁, he, h⟩ := Machine.alone_act h
  exact ⟨r, s₁, exec_sameMembers ha _ he, h⟩

lemma alone_call {f : Frame} {body : P ℤ} {rc : ℤ}
    (h : (machine role).Alone t (call f body) s rc s') :
    ∃ s₁ s₂, SameMembers s s₁ ∧ (machine role).Alone t body s₁ rc s₂ ∧ SameMembers s₂ s' := by
  obtain ⟨_, s₁, h₁, h⟩ := alone_reading rfl h
  obtain ⟨rc', s₂, h₂, h⟩ := Machine.alone_bind h
  obtain ⟨_, s₃, h₃, h⟩ := alone_reading rfl h
  cases h
  exact ⟨s₁, s₂, h₁, h₂, h₃⟩

/-- `ALPL_ASSERT_INIT` at the end of a function. -/
lemma alone_assert {rc rc' : ℤ} (h : (machine role).Alone t
    (if rc ≠ commSuccess then pure commInitFailed else pure commSuccess) s rc' s') :
    rc' = (if rc ≠ commSuccess then commInitFailed else commSuccess) ∧ s' = s := by
  split at h <;> cases h
  · simp [*]
  · simp [*]

/-- `the_socket_context_` is read and used, so it is not `NULL`. -/
lemma alone_theSocketContext {k : ContextPtr → P α} (h : (machine role).Alone t
    (Prog.perform .getTheSocketContext >>= fun l => deref l k) s x s') :
    ∃ l, s.theSocketContext = some l ∧ (machine role).Alone t (k l) s x s' := by
  obtain ⟨o, p, s₁, he, h⟩ := Machine.alone_act h
  obtain ⟨rfl, rfl⟩ : p = s.theSocketContext ∧ s₁ = s := by
    cases o <;> cases he
    exact ⟨rfl, rfl⟩
  cases hthe : s₁.theSocketContext with
  | some l =>
      rw [hthe] at h
      exact ⟨l, rfl, h⟩
  | none =>
      rw [hthe] at h
      obtain ⟨_, r, _, _, _⟩ := Machine.alone_act h
      cases r

/-! ### `Start` -/

lemma every_createTcpSocket : Every (fun a => a.assigns = false) createTcpSocket := by
  simp [createTcpSocket, Action.assigns]

lemma every_createListener (n : ℕ) : Every (fun a => a.assigns = false) (createListener n) := by
  refine .step rfl fun resolved => ?_
  cases resolved with
  | false => trivial
  | true =>
      refine every_createTcpSocket.bind fun ls => ?_
      simp [Action.assigns]

/-- `create_listener` in both models. -/
lemma alone_createListener {n : ℕ} {r : ℤ × SOCKET}
    (h : (machine role).Alone t (createListener n) s r s') : SameMembers s s' ∧
      ∃ resolved bound listening, ∀ (o : StartOutcomes) (srv : TcpServer),
        o.getaddrinfo = resolved → o.listenSocket = r.2 → o.bind = bound → o.listen = listening →
        ∃ srv', srv.createListener o = (r.1, srv') ∧ srv'.iocph = srv.iocph ∧
          (r.1 = commSuccess → srv'.ls = some r.2) := by
  refine ⟨sameMembers_of_alone (every_createListener n) h, ?_⟩
  obtain ⟨-, resolved, s₁, -, h⟩ := Machine.alone_act h
  cases resolved with
  | false =>
      cases h
      refine ⟨false, false, false, fun o srv hresolved hls hbound hlistening => ?_⟩
      simp [TcpServer.createListener, hresolved, commSuccess, commInitFailed]
  | true =>
      obtain ⟨ls, s₂, -, h⟩ := Machine.alone_bind h
      by_cases hls : ls = invalidSocket
      · simp only [hls, if_true] at h
        cases h
        refine ⟨true, false, false, fun o srv hresolved hls hbound hlistening => ?_⟩
        simp [TcpServer.createListener, hresolved, hls, commSuccess, commInitFailed]
      · simp only [hls, if_false] at h
        obtain ⟨-, bound, s₃, -, h⟩ := Machine.alone_act h
        cases bound with
        | false =>
            cases h
            refine ⟨true, false, false, fun o srv hresolved hls' hbound hlistening => ?_⟩
            simp [TcpServer.createListener, hresolved, hls', hls, hbound, commSuccess,
              commInitFailed]
        | true =>
            obtain ⟨-, listening, s₄, -, h⟩ := Machine.alone_act h
            refine ⟨true, true, listening, fun o srv hresolved hls' hbound hlistening => ?_⟩
            cases listening with
            | false =>
                cases h
                simp [TcpServer.createListener, hresolved, hls', hls, hbound, hlistening,
                  commSuccess, commInitFailed]
            | true =>
                cases h
                simp [TcpServer.createListener, hresolved, hls', hls, hbound, hlistening]

/-- `create_socket_context`, before there is a listening context. -/
lemma alone_createContext {sd : SOCKET} {op : LastIoOperation} {c : Option ContextPtr}
    (hthe : s.theSocketContext = none)
    (h : (machine role).Alone t (createSocketContext sd op) s c s') :
    c = none ∧ SameMembers s s' ∨ ∃ d, c = some d ∧ s'.members = s.members ∧
      s'.theSocketContext = none ∧ s'.contexts d = some (SocketContext.new sd op) := by
  obtain ⟨-, s₁, h₁, h⟩ := alone_reading rfl h
  obtain ⟨entered, s₂, h₂, h⟩ := alone_reading rfl h
  have h₁₂ := h₁.trans h₂
  cases entered with
  | false =>
      obtain ⟨-, s₃, h₃, h⟩ := alone_reading rfl h
      cases h
      exact .inl ⟨rfl, h₁₂.trans h₃⟩
  | true =>
      obtain ⟨o, d, s₃, h₃, h⟩ := Machine.alone_act h
      obtain ⟨-, s₄, h₄, h⟩ := alone_reading rfl h
      obtain ⟨-, s₅, h₅, h⟩ := alone_reading rfl h
      cases h
      have h₃₅ := h₄.trans h₅
      have hthe₂ : s₂.theSocketContext = none := h₁₂.theSocketContext.trans hthe
      have hnew : s₃.members = s₂.members ∧ s₃.theSocketContext = none ∧
          s₃.contexts d = some (SocketContext.new sd op) := by
        cases o <;> cases h₃
        simp [State.members, State.setContext, State.setHolds, hthe₂]
      obtain ⟨hmembers, hthe₃, hcontext⟩ := hnew
      refine .inr ⟨d, rfl, ?_, h₃₅.theSocketContext.trans hthe₃, ?_⟩
      · rw [h₃₅.members, hmembers, h₁₂.members]
      · rw [h₃₅.contexts, hcontext]

/-- `updateCompletionPort` in both models, before there is a listening context. -/
lemma alone_updateCompletionPort {sd : SOCKET} {op : LastIoOperation} {c : Option ContextPtr}
    {h : IocpHandler} (hs : h.Shows s) (hthe : s.theSocketContext = none)
    (hrun : (machine role).Alone t (updateCompletionPort sd op false) s c s') :
    s'.theSocketContext = none ∧
      (∀ d, c = some d → s'.contexts d = some (SocketContext.new sd op)) ∧
      ∃ entered port, ∀ o : StartOutcomes, o.enterCriticalSection = entered →
        o.associate = port → ∃ h', h.updateCompletionPort o sd op =
          (c.map fun _ => SocketContext.new sd op, h') ∧ h'.Shows s' := by
  obtain ⟨x, s₁, h₁, hrun⟩ := Machine.alone_bind hrun
  rcases alone_createContext hthe h₁ with ⟨rfl, hsame⟩ | ⟨d, rfl, hmembers, hthe₁, hnew⟩
  · cases hrun
    refine ⟨hsame.theSocketContext.trans hthe, nofun, false, none, fun o ho _ => ⟨h, ?_, ?_⟩⟩
    · simp [IocpHandler.updateCompletionPort, ho]
    · exact ⟨hs.toUp, hs.members.trans hsame.members.symm⟩
  · obtain ⟨port₀, s₂, h₂, hrun⟩ := alone_reading rfl hrun
    obtain ⟨port, s₃, h₃, hrun⟩ := alone_reading rfl hrun
    obtain ⟨o₄, r₄, s₄, h₄, hrun⟩ := Machine.alone_act hrun
    obtain ⟨o₅, port', s₅, h₅, hrun⟩ := Machine.alone_act hrun
    have h₁₃ := h₂.trans h₃
    have hthe₃ : s₃.theSocketContext = none := h₁₃.theSocketContext.trans hthe₁
    have hmembers₃ : h.members = s₃.members := by rw [h₁₃.members, hmembers, hs.members]
    obtain rfl : s₄ = { s₃ with iocpHandle := port } := by
      cases o₄ <;> cases h₄
      rfl
    obtain ⟨rfl, rfl⟩ : port' = port ∧ s₅ = { s₃ with iocpHandle := port } := by
      cases o₅ <;> cases h₅
      exact ⟨rfl, rfl⟩
    have hshows : ∀ s₆ : State, s₆.members = { s₃.members with hasPort := port'.isSome } →
        IocpHandler.Shows { h with iocpHandle := port' } s₆ := fun s₆ h₆ =>
      ⟨⟨hs.workers, hs.event⟩, by rw [h₆, ← hmembers₃]; rfl⟩
    cases port' with
    | none =>
        obtain ⟨o₆, r₆, s₆, h₆, hrun⟩ := Machine.alone_act hrun
        cases hrun
        obtain ⟨z, -, rfl⟩ := exec_freeContext h₆
        refine ⟨hthe₃, nofun, true, none, fun o ho hport => ⟨_, ?_, hshows _ ?_⟩⟩
        · simp [IocpHandler.updateCompletionPort, ho, hport]
        · simp [State.members, State.setContext, State.setHolds, hthe₃]
    | some q =>
        obtain ⟨_, s₆, h₆, hrun⟩ := Machine.alone_bind hrun
        cases h₆
        cases hrun
        refine ⟨hthe₃, fun d' hd => ?_, true, some q, fun o ho hport => ⟨_, ?_, hshows _ rfl⟩⟩
        · cases hd
          exact (congrFun h₁₃.contexts d).trans hnew
        · simp [IocpHandler.updateCompletionPort, ho, hport]

/-- The context with the socket to accept into. -/
def SocketContext.into (x : SocketContext) (v : SOCKET) : SocketContext :=
  { x with ioContext.socketAccept := v }

/-- `start_accept` in both models. -/
lemma alone_startAccept {rc : ℤ} (hrun : (machine role).Alone t startAccept s rc s') :
    ∃ accept result, ∀ (o : StartOutcomes) (h : IocpHandler) (x : SocketContext),
      o.acceptSocket = accept → o.acceptEx = result → h.Shows s →
      h.theSocketContext = some (some x) → ∃ h', h.startAccept o = .ok (rc, h') ∧ h'.Shows s' := by
  obtain ⟨s₁, s₂, h₁, hrun, h₂⟩ := alone_call hrun
  obtain ⟨l, hthe, hrun⟩ := alone_theSocketContext hrun
  obtain ⟨v, s₄, h₄, hrun⟩ := Machine.alone_bind hrun
  obtain ⟨o₅, r₅, s₅, h₅, hrun⟩ := Machine.alone_act hrun
  obtain ⟨o₆, io, s₆, h₆, hrun⟩ := Machine.alone_act hrun
  have hsame := h₁.trans (sameMembers_of_alone every_createTcpSocket h₄)
  have hthe₄ : s₄.theSocketContext = some l := by
    rw [hsame.theSocketContext, ← h₁.theSocketContext, hthe]
  obtain ⟨y, hy, rfl⟩ := exec_setSocketAccept h₅
  obtain ⟨z, hz, rfl, rfl⟩ := exec_getIoContext h₆
  obtain rfl : z = y.into v := by
    simpa [State.setContext, SocketContext.into] using hz.symm
  -- both have the new socket in the listening context, and nothing else has changed
  have hshows : ∀ (h : IocpHandler) (x : SocketContext) (s₇ : State), h.Shows s →
      h.theSocketContext = some (some x) → SameMembers (s₄.setContext l (some (y.into v))) s₇ →
      IocpHandler.Shows { h with theSocketContext := some (some (x.into v)) } s₇ := by
    intro h x s₇ hs hx h₇
    have hmembers : h.members = s₄.members := by rw [hsame.members, hs.members]
    obtain rfl : x = y := by
      have hcontext := congrArg Members.theSocketContext hmembers
      rw [IocpHandler.members, State.members, hx, hthe₄] at hcontext
      exact Option.some.inj (hcontext.trans hy)
    have hset : (s₄.setContext l (some (x.into v))).members =
        { s₄.members with theSocketContext := some (x.into v) } := by
      simp [State.members, State.setContext, hthe₄]
    refine ⟨⟨hs.workers, hs.event⟩, ?_⟩
    rw [h₇.members, hset, ← hmembers]
    rfl
  by_cases hv : (y.into v).ioContext.socketAccept = invalidSocket
  · rw [if_pos hv] at hrun
    cases hrun
    replace hv : v = invalidSocket := hv
    refine ⟨v, ⟨0, 0⟩, fun o h x haccept _ hs hx => ⟨_, ?_, hshows h x _ hs hx h₂⟩⟩
    simp [IocpHandler.startAccept, hx, readMember, usePointer, bind, Except.bind, haccept, hv, pure,
      Except.pure, SocketContext.into]
  · rw [if_neg hv] at hrun
    replace hv : v ≠ invalidSocket := hv
    obtain ⟨w, s₇, h₇, hrun⟩ := alone_reading rfl hrun
    obtain ⟨r, s₈, h₈, hrun⟩ := alone_reading rfl hrun
    refine ⟨v, r, fun o h x haccept hresult hs hx => ?_⟩
    by_cases hfailed : r.ret = socketError ∧ r.lastError ≠ errorIoPending
    · rw [if_pos hfailed] at hrun
      cases hrun
      refine ⟨_, ?_, hshows h x _ hs hx ((h₇.trans h₈).trans h₂)⟩
      simp [IocpHandler.startAccept, hx, readMember, usePointer, bind, Except.bind, haccept, hv,
        hresult, hfailed, pure, Except.pure, SocketContext.into]
    · rw [if_neg hfailed] at hrun
      cases hrun
      refine ⟨_, ?_, hshows h x _ hs hx ((h₇.trans h₈).trans h₂)⟩
      simp only [IocpHandler.startAccept, hx, readMember, usePointer, bind, Except.bind, haccept,
        hv, hresult, if_neg hfailed, if_false]
      rfl

/-- `init_accept` in both models, before there is a listening context. -/
lemma alone_initAccept {ls : SOCKET} {rc : ℤ} {h : IocpHandler} (hs : h.Shows s)
    (hthe : s.theSocketContext = none) (hrun : (machine role).Alone t (initAccept ls) s rc s') :
    ∃ entered port loaded accept result, ∀ (o : StartOutcomes) (srv : TcpServer),
      o.enterCriticalSection = entered → o.associate = port → o.wsaIoctl = loaded →
      o.acceptSocket = accept → o.acceptEx = result → srv.iocph = some h → srv.ls = some ls →
      ∃ srv' h', srv.initAccept o = .ok (rc, srv') ∧ srv'.iocph = some h' ∧ h'.Shows s' := by
  obtain ⟨c, s₁, h₁, hrun⟩ := Machine.alone_bind hrun
  obtain ⟨hthe₁, hnew, entered, port, hupdate⟩ := alone_updateCompletionPort hs hthe h₁
  obtain ⟨o₂, r₂, s₂, h₂, hrun⟩ := Machine.alone_act hrun
  obtain rfl : s₂ = { s₁ with theSocketContext := c } := by
    cases o₂ <;> cases h₂
    rfl
  have hset : ∀ (h' : IocpHandler) (s₃ : State), h'.Shows s₁ →
      SameMembers { s₁ with theSocketContext := c } s₃ → IocpHandler.Shows { h' with
        theSocketContext := some (c.map fun _ => SocketContext.new ls .ioAccept) } s₃ := by
    intro h' s₃ hs' h₃
    have hcontext : c.bind s₁.contexts = c.map fun _ => SocketContext.new ls .ioAccept := by
      cases c with
      | none => rfl
      | some d => exact hnew d rfl
    have hmembers : State.members { s₁ with theSocketContext := c } = { s₁.members with
        theSocketContext := c.map fun _ => SocketContext.new ls .ioAccept } := by
      rw [← hcontext]
      rfl
    refine ⟨⟨hs'.workers, hs'.event⟩, ?_⟩
    rw [h₃.members, hmembers, ← hs'.members]
    rfl
  cases c with
  | none =>
      cases hrun
      refine ⟨entered, port, false, 0, ⟨0, 0⟩, fun o srv hentered hport _ _ _ hh hls => ?_⟩
      obtain ⟨h', hcall, hs'⟩ := hupdate o hentered hport
      refine ⟨{ srv with iocph := some _ }, _, ?_, rfl, hset h' _ hs' (.refl _)⟩
      simp [TcpServer.initAccept, hh, hls, readMember, usePointer, bind, Except.bind, hcall, pure,
        Except.pure]
  | some d =>
      obtain ⟨loaded, s₃, h₃, hrun⟩ := alone_reading rfl hrun
      cases loaded with
      | false =>
          cases hrun
          refine ⟨entered, port, false, 0, ⟨0, 0⟩,
            fun o srv hentered hport hloaded _ _ hh hls => ?_⟩
          obtain ⟨h', hcall, hs'⟩ := hupdate o hentered hport
          refine ⟨{ srv with iocph := some _ }, _, ?_, rfl, hset h' _ hs' h₃⟩
          simp [TcpServer.initAccept, hh, hls, readMember, usePointer, bind, Except.bind, hcall,
            hloaded, pure, Except.pure]
      | true =>
          obtain ⟨rc₄, s₄, h₄, hrun⟩ := Machine.alone_bind hrun
          obtain ⟨accept, result, hstart⟩ := alone_startAccept h₄
          obtain ⟨rfl, rfl⟩ := alone_assert hrun
          refine ⟨entered, port, true, accept, result,
            fun o srv hentered hport hloaded haccept hresult hh hls => ?_⟩
          obtain ⟨h', hcall, hs'⟩ := hupdate o hentered hport
          obtain ⟨h₅, hcall₅, hs₅⟩ := hstart o _ _ haccept hresult (hset h' _ hs' h₃) rfl
          refine ⟨{ srv with iocph := some h₅ }, h₅, ?_, rfl, hs₅⟩
          rw [Option.map_some] at hcall hcall₅
          simp only [TcpServer.initAccept, hh, hls, readMember, usePointer, bind, Except.bind,
            hcall, hloaded, hcall₅, Option.isNone_some, Bool.false_eq_true, Bool.not_true, if_false]
          split <;> rfl

/-! ### `Stop` -/

lemma every_postExitPackets (n : ℕ) : Every (fun a => a.assigns = false) (postExitPackets n) := by
  induction n with
  | zero => trivial
  | succ n ih =>
      refine .step rfl fun h => ?_
      cases h with
      | none => exact ih
      | some port => exact .step rfl fun _ => ih

lemma alone_closeListener {l : ContextPtr} {r : Unit} (hthe : s.theSocketContext = some l)
    (hrun : (machine role).Alone t (closeListener l) s r s') :
    ∃ x, s.contexts l = some x ∧ s'.members = { s.members with
      theSocketContext := some { x with socket := invalidSocket } } := by
  obtain ⟨o₁, v, s₁, h₁, h⟩ := Machine.alone_act hrun
  obtain ⟨x, hx, rfl, rfl⟩ := exec_getSocket h₁
  refine ⟨x, hx, ?_⟩
  by_cases hv : x.socket ≠ invalidSocket
  · rw [if_pos hv] at h
    obtain ⟨_, s₂, h₂, h⟩ := alone_reading rfl h
    obtain ⟨o₃, r₃, s₃, h₃, h⟩ := Machine.alone_act h
    cases h
    obtain ⟨y, hy, rfl⟩ := exec_setSocket h₃
    obtain rfl : x = y := by
      rw [h₂.contexts, hx] at hy
      exact Option.some.inj hy
    have hthe₂ : s₂.theSocketContext = some l := h₂.theSocketContext.trans hthe
    rw [← h₂.members]
    simp [State.members, State.setContext, hthe₂]
  · rw [if_neg hv] at h
    cases h
    rw [← not_not.mp hv]
    simp [State.members, hthe, hx]

/-- `exiting` sets `exiting_` and closes the listening socket. -/
lemma alone_exiting {rc : ℤ} (h : (machine role).Alone t exiting s rc s') :
    ∃ x, s.members.theSocketContext = some x ∧ s'.members = { s.members with
      exiting := true
      theSocketContext := some { x with socket := invalidSocket } } := by
  obtain ⟨o₁, r₁, s₁, h₁, h⟩ := Machine.alone_act h
  obtain rfl : s₁ = { s with exiting := true } := by
    cases o₁ <;> cases h₁
    rfl
  obtain ⟨port, s₂, h₂, h⟩ := alone_reading rfl h
  obtain ⟨n, s₃, h₃, h⟩ := alone_reading rfl h
  obtain ⟨_, s₄, h₄, h⟩ := Machine.alone_bind h
  obtain ⟨_, s₅, h₅, h⟩ := alone_reading rfl h
  obtain ⟨l, hthe, h⟩ := alone_theSocketContext h
  obtain ⟨_, s₇, h₇, h⟩ := Machine.alone_bind h
  obtain ⟨signalled, s₈, h₈, h⟩ := alone_reading rfl h
  have hpost : SameMembers s₃ s₄ := by
    refine sameMembers_of_alone ?_ h₄
    split
    · exact every_postExitPackets n
    · trivial
  have hsame := ((h₂.trans h₃).trans hpost).trans h₅
  obtain ⟨x, hx, hmembers⟩ := alone_closeListener hthe h₇
  have hthe₁ : s.theSocketContext = some l := hsame.theSocketContext.symm.trans hthe
  have hx₁ : s.contexts l = some x := (congrFun hsame.contexts l).symm.trans hx
  obtain rfl : s' = s₈ := by
    cases signalled <;> cases h <;> rfl
  refine ⟨x, by simp [State.members, hthe₁, hx₁], ?_⟩
  rw [h₈.members, hmembers, hsame.members]
  rfl

end

/-! ## The results -/

/-- Where `iocph_->start()` succeeds, the machine begins with the members it leaves. -/
lemma init_shows {o : StartOutcomes} (hm : o.HandlerMade)
    (ht : ∀ i < o.workers, (o.createThread i).isSome = true) (handlers : Handlers)
    (hpos : 0 < o.workers) : ∃ h, (IocpHandler.new maxWorkerThreads).start o = (commSuccess, h) ∧
      h.Shows (State.init ⟨handlers, o.workers, hpos⟩) := by
  obtain ⟨ws, hstart, hset⟩ := start_new_success hm ht
  refine ⟨_, hstart, ⟨⟨ws, rfl, hset⟩, nofun⟩, ?_⟩
  simp only [IocpHandler.members, hm.1]
  rfl

/-- The same answers up to the return of `iocph_->start()`. -/
structure StartOutcomes.SameHandler (o o' : StartOutcomes) : Prop where
  initializeCriticalSection : o'.initializeCriticalSection = o.initializeCriticalSection
  createPort : o'.createPort = o.createPort
  createEvent : o'.createEvent = o.createEvent
  numberOfProcessors : o'.numberOfProcessors = o.numberOfProcessors
  createThread : o'.createThread = o.createThread

/-- **`Start` is the same in both models.**  Where `iocph_->start()` succeeds, what the main thread
does from its return on is what `TcpServer.start` does for some answers of Windows. -/
theorem start_agrees {o : StartOutcomes} {srv : TcpServer}
    (hinit : o.initializeCriticalSection = true)
    (hold : ∀ h, srv.iocph = some h → h.workerThreads ≠ none) (hm : o.HandlerMade)
    (ht : ∀ i < o.workers, (o.createThread i).isSome = true) (handlers : Handlers)
    (hpos : 0 < o.workers) {rc : ℤ} {s' : State}
    (hrun : (machine .server).Alone .main startServer (State.init ⟨handlers, o.workers, hpos⟩) rc
      s') : ∃ o' srv' h, o.SameHandler o' ∧ srv.start o' = .ok (rc, srv') ∧ srv'.iocph = some h ∧
        h.Shows s' := by
  obtain ⟨s₁, s₂, h₁, hrun, h₂⟩ := alone_call hrun
  obtain ⟨r, s₃, h₃, hrun⟩ := Machine.alone_bind hrun
  obtain ⟨hsame, resolved, bound, listening, hlisten⟩ := alone_createListener h₃
  obtain ⟨h, hstart, hs⟩ := init_shows hm ht handlers hpos
  have hs₃ : h.Shows s₃ := ⟨hs.toUp, hs.members.trans (h₁.trans hsame).members.symm⟩
  have hthe₃ : s₃.theSocketContext = none := (h₁.trans hsame).theSocketContext
  have hhandler : ∀ o', o.SameHandler o' → srv.init o' = .ok (commSuccess,
      { srv with iocph := some (.new maxWorkerThreads) }) ∧
        (IocpHandler.new maxWorkerThreads).start o' = (commSuccess, h) := by
    intro o' ho
    refine ⟨init_made (ho.initializeCriticalSection.trans hinit) hold, ?_⟩
    rw [← hstart]
    simp only [IocpHandler.start, IocpHandler.initHandler, IocpHandler.initWorkerThreads,
      ho.createPort, ho.createEvent, ho.numberOfProcessors, ho.createThread]
  by_cases hr : r.1 = commSuccess
  · rw [if_neg (not_not.mpr hr)] at hrun
    obtain ⟨rc₄, s₄, h₄, hrun⟩ := Machine.alone_bind hrun
    obtain ⟨entered, port, loaded, accept, result, haccept⟩ := alone_initAccept hs₃ hthe₃ h₄
    obtain ⟨rfl, rfl⟩ := alone_assert hrun
    let o' : StartOutcomes := { o with
      getaddrinfo := resolved, listenSocket := r.2, bind := bound, listen := listening
      enterCriticalSection := entered, associate := port, wsaIoctl := loaded
      acceptSocket := accept, acceptEx := result }
    obtain ⟨hinit', hstart'⟩ := hhandler o' ⟨rfl, rfl, rfl, rfl, rfl⟩
    obtain ⟨srv₁, hlisten', hiocph, hls⟩ :=
      hlisten o' { srv with iocph := some h } rfl rfl rfl rfl
    obtain ⟨srv₂, h', haccept', hiocph', hs'⟩ :=
      haccept o' srv₁ rfl rfl rfl rfl rfl hiocph (hls hr)
    refine ⟨o', srv₂, h', ⟨rfl, rfl, rfl, rfl, rfl⟩, ?_, hiocph',
      hs'.toUp, hs'.members.trans h₂.members.symm⟩
    simp only [TcpServer.start, bind, Except.bind, hinit', TcpServer.startHandler, usePointer,
      hstart', pure, Except.pure, hlisten', hr, haccept', ne_eq, not_true_eq_false, if_false]
    split <;> rfl
  · rw [if_pos hr] at hrun
    cases hrun
    let o' : StartOutcomes := { o with
      getaddrinfo := resolved, listenSocket := r.2, bind := bound, listen := listening }
    obtain ⟨hinit', hstart'⟩ := hhandler o' ⟨rfl, rfl, rfl, rfl, rfl⟩
    obtain ⟨srv₁, hlisten', hiocph, -⟩ := hlisten o' { srv with iocph := some h } rfl rfl rfl rfl
    refine ⟨o', srv₁, h, ⟨rfl, rfl, rfl, rfl, rfl⟩, ?_, hiocph,
      hs₃.toUp, hs₃.members.trans h₂.members.symm⟩
    simp only [TcpServer.start, bind, Except.bind, hinit', TcpServer.startHandler, usePointer,
      hstart', pure, Except.pure, hlisten', hr, ne_eq, not_true_eq_false, if_false,
      not_false_eq_true, if_true]

/-- **`Stop` is the same in both models**, whether or not the workers end within a second. -/
theorem stop_agrees {srv : TcpServer} {h : IocpHandler} {s s' : State} {rc : ℤ}
    (hh : srv.iocph = some h) (hs : h.Shows s) (hrun : (machine .server).Alone .main stop s rc s')
    (o : StopOutcomes) : ∃ srv' h', srv.stop o = .ok (rc, srv') ∧ srv'.iocph = some h' ∧
      h'.Shows s' := by
  obtain ⟨s₁, s₂, h₁, hrun, h₂⟩ := alone_call hrun
  obtain ⟨rc₃, s₃, h₃, hrun⟩ := Machine.alone_bind hrun
  obtain ⟨_, s₄, h₄, hrun⟩ := alone_reading rfl hrun
  cases hrun
  obtain ⟨x, hx, hmembers⟩ := alone_exiting h₃
  have hhandler : h.members = s₁.members := hs.members.trans h₁.members.symm
  have hthe : h.theSocketContext = some (some x) := by
    rw [← hhandler] at hx
    exact Option.join_eq_some_iff.mp hx
  obtain ⟨ws, hstop, hset⟩ := stop_up o hh hs.toUp hthe
  refine ⟨_, _, hstop, rfl, ⟨⟨ws, rfl, hset⟩, hs.event⟩, ?_⟩
  rw [(h₄.trans h₂).members, hmembers, ← hhandler]
  rfl

end Alpl.Net
