import Alpl.Handler.Contract

/-!
# One action, for every handler

`exec_effect` says once what performing an action can do to the members of the handler, the lock,
the stacks and the history; it is the only place where all cases of `exec` are looked at.  That
a move is `Steady` for everybody else and keeps `Handler.Inv` follows from it.
-/

namespace Alpl.Net

open Interleaving

/-! ## What an action can do -/

/-- The traces in the history that performing an action can leave. -/
inductive Record.IsOf (t : Tid) (s : State) : Action → Record → Prop
  | call (a : Action) (ok : Bool) : IsOf t s a (.call t a ok)
  | entered (f : Frame) : IsOf t s (.enter f) (.entered t f)
  | returned (f : Frame) (rc : ℤ) : IsOf t s (.leave f rc) (.returned t f rc)
  | handler (k p data) : IsOf t s (.invokeHandler k p data) (.callback t k p data)
  | connection (q k p data) : IsOf t s (.invokeConnection q k p data) (.callback t k p data)
  | emptyHandler (k p data) : ¬ s.handlers.isSet k = true →
      IsOf t s (.invokeHandler k p data) (.emptyCall t k)
  | emptyConnection (q k p data y) : s.tcpConnections q = some y →
      ¬ y.handlers.isSet k = true → IsOf t s (.invokeConnection q k p data) (.emptyCall t k)

/-- The actions that push a frame. -/
def Action.pushes : Action → Bool
  | .enter _ => true
  | .invokeHandler _ _ _ => true
  | .invokeConnection _ _ _ _ => true
  | _ => false

/-- The actions that give up more of the stack than the frame of a callback. -/
def Action.clears : Action → Bool
  | .leave _ _ => true
  | .finish => true
  | .getQueuedCompletionStatus _ => true
  | _ => false

/-- What performing `a` can do to the part of the state that every handler keeps. -/
structure Effect (t : Tid) (a : Action) (s s' : State) : Prop where
  handlers : s'.handlers = s.handlers
  isRunning : s'.isRunning = s.isRunning
  workersPort : s'.workersPort = s.workersPort
  workers : s'.numWorkerThreads = s.numWorkerThreads
  exiting : s'.exiting = s.exiting ∨ a = .setExiting ∧ s'.exiting = true
  objects : s'.tcpConnections = s.tcpConnections ∧ s'.nextConnection = s.nextConnection ∨
    ∃ y, a = .newConnection y ∧ s'.nextConnection = s.nextConnection + 1 ∧
      s'.tcpConnections = Function.update s.tcpConnections s.nextConnection (some y)
  handle : s'.iocpHandle = s.iocpHandle ∨ a = .setIocpHandle s'.iocpHandle
  assoc : ∀ k q c, (s'.sockets k).assoc = some (q, c) → (s.sockets k).assoc = some (q, c) ∨
    ∃ v port, a = .createIoCompletionPort v port c ∧ ∀ q', port = some q' → q = q'
  assocKept : ∀ k x, k ≠ s.nextSock → (s.sockets k).assoc = some x → (s'.sockets k).assoc = some x
  history : s'.history = s.history ∨ ∃ r, Record.IsOf t s a r ∧ s'.history = r :: s.history
  held : ∀ u, u ≠ t → s'.locker.heldBy u = s.locker.heldBy u
  stack : ∀ u, u ≠ t → s'.stack u = s.stack u
  ownHeld : s'.locker.heldBy t = s.locker.heldBy t ∨ (∃ f, a = .enterCriticalSection f) ∨
    a = .leaveCriticalSection ∧ s'.locker.heldBy t = s.locker.heldBy t - 1
  ownStack : s'.stack t = s.stack t ∨ (a.pushes = true ∧ ∃ f, s'.stack t = f :: s.stack t) ∨
    a = .callbackReturns ∧ s'.stack t = (s.stack t).tail ∨ a.clears = true

lemma assoc_update {s : State} {j k : SockId} {x : SocketObject} {q : Port} {c : ContextPtr}
    (h : (Function.update s.sockets j x k).assoc = some (q, c))
    (hx : x.assoc = (s.sockets j).assoc ∨ x.assoc = none) : (s.sockets k).assoc = some (q, c) := by
  by_cases hk : k = j
  · subst hk
    rw [Function.update_self] at h
    rcases hx with hx | hx
    · rwa [← hx]
    · rw [hx] at h; cases h
  · rwa [Function.update_of_ne hk] at h

lemma assoc_create {s : State} {j : SockId} {v : SOCKET} {port : Option Port} {key : ContextPtr}
    (k : SockId) (q : Port) (c : ContextPtr)
    (h : (Function.update s.sockets j
      { s.sockets j with assoc := some (port.getD s.nextPort, key) } k).assoc = some (q, c)) :
    (s.sockets k).assoc = some (q, c) ∨ ∃ v' port', Action.createIoCompletionPort v port key =
      .createIoCompletionPort v' port' c ∧ ∀ q', port' = some q' → q = q' := by
  by_cases hk : k = j
  · subst hk
    rw [Function.update_self] at h
    cases h
    exact .inr ⟨v, port, rfl, fun q' hq => by rw [hq]; rfl⟩
  · rw [Function.update_of_ne hk] at h
    exact .inl h

lemma assoc_kept {s : State} {j : SockId} {y : SocketObject} (k : SockId) (x : Port × ContextPtr)
    (hy : k = j → y.assoc = some x) (h : (s.sockets k).assoc = some x) :
    (Function.update s.sockets j y k).assoc = some x := by
  by_cases hk : k = j
  · rw [hk, Function.update_self]
    exact hy hk
  · rwa [Function.update_of_ne hk]

lemma exec_effect {t : Tid} {a : Action} {o : Outcome} {s : State} :
    ∀ rs ∈ exec t a o s, Effect t a s rs.2 := by
  unfold exec exec.acceptEx exec.post exec.invoke
  split
  all_goals try split
  all_goals try split
  all_goals simp only [Option.mem_def, Option.map_eq_some_iff, Option.some.injEq, reduceCtorEq,
    IsEmpty.forall_iff, implies_true, forall_exists_index, and_imp, forall_eq',
    forall_apply_eq_imp_iff₂]
  all_goals intros
  all_goals try split
  all_goals exact
    { handlers := rfl, isRunning := rfl, workersPort := rfl, workers := rfl
      exiting := by first | exact .inl rfl | exact .inr ⟨rfl, rfl⟩
      objects := by first | exact .inl ⟨rfl, rfl⟩ | exact .inr ⟨_, rfl, rfl, rfl⟩
      handle := by first | exact .inl rfl | exact .inr rfl
      assoc := by
        first
        | exact fun _ _ _ => .inl
        | exact fun k q c h => .inl (assoc_update h (.inl rfl))
        | exact fun k q c h => .inl (assoc_update h (.inr rfl))
        | exact assoc_create
      assocKept := by
        first
        | exact fun _ _ _ h => h
        | exact fun k x hk h => assoc_kept k x (fun hj => absurd hj hk) h
        | exact fun k x hk h => assoc_kept k x (fun hj => by subst hj; first
          | exact h
          | simp_all) h
      history := by
        first
        | exact .inl rfl
        | exact .inr ⟨_, .call _ _, rfl⟩
        | exact .inr ⟨_, .entered _, rfl⟩
        | exact .inr ⟨_, .returned _ _, rfl⟩
        | exact .inr ⟨_, .handler _ _ _, rfl⟩
        | exact .inr ⟨_, .connection _ _ _ _, rfl⟩
        | exact .inr ⟨_, .emptyHandler _ _ _ ‹_›, rfl⟩
        | exact .inr ⟨_, .emptyConnection _ _ _ _ _ ‹_› ‹_›, rfl⟩
      held := by
        first
        | exact fun _ _ => rfl
        | exact fun _ => CriticalSection.heldBy_enter_of_ne ‹_›
        | exact fun _ => CriticalSection.heldBy_leave_of_ne ‹_›
      stack := by first | exact fun _ _ => rfl | exact fun _ hu => Function.update_of_ne hu _ _
      ownHeld := by
        first
        | exact .inl rfl
        | exact .inr (.inl ⟨_, rfl⟩)
        | exact .inr (.inr ⟨rfl, CriticalSection.heldBy_leave ‹_›⟩)
      ownStack := by
        first
        | exact .inl rfl
        | exact .inr (.inl ⟨rfl, _, Function.update_self _ _ _⟩)
        | exact .inr (.inr (.inl ⟨rfl, Function.update_self _ _ _⟩))
        | exact .inr (.inr (.inr rfl)) }

/-! ## What follows for the others -/

lemma Record.IsOf.thread_eq {t : Tid} {s : State} {a : Action} {r : Record}
    (h : Record.IsOf t s a r) : r.thread = t := by
  cases h <;> rfl

namespace Effect

variable {t : Tid} {a : Action} {s s' : State}

lemma onward (h : Effect t a s s') (hI : Handler.Inv s) : Onward s s' where
  handlers := h.handlers
  isRunning := h.isRunning
  workersPort := h.workersPort
  workers := h.workers
  exiting he := by
    rcases h.exiting with h | ⟨-, h⟩
    · rw [h, he]
    · exact h
  objects p y hp := by
    rcases h.objects with ⟨he, -⟩ | ⟨z, -, -, he⟩
    · rw [he, hp]
    · rw [he, Function.update_of_ne, hp]
      rintro rfl
      simp [hI.unnamed _ (Nat.le_refl _)] at hp
  history := by
    rcases h.history with he | ⟨r, -, he⟩
    · simp only [he, List.suffix_refl]
    · simp only [he, List.suffix_cons]

lemma steady (h : Effect t a s s') (hI : Handler.Inv s) {u : Tid} (hu : u ≠ t) :
    Steady u s s' where
  toOnward := h.onward hI
  held := h.held u hu
  stack := h.stack u hu
  records := by
    rcases h.history with he | ⟨r, hr, he⟩
    · exact ⟨[], he, fun _ hr => absurd hr List.not_mem_nil⟩
    · refine ⟨[r], he, fun r' hr' => ?_⟩
      rw [List.mem_singleton.mp hr', hr.thread_eq]
      exact hu.symm

/-! ## What follows for the invariant -/

lemma inv_objects (h : Effect t a s s') (hI : Handler.Inv s) (hA : Handler.Allowed t a s)
    (p : ConnectionPtr) (y : TcpConnection) (hp : s'.tcpConnections p = some y) :
    y.connected = true ∧ y.handlers = s'.handlers := by
  rw [h.handlers]
  rcases h.objects with ⟨he, -⟩ | ⟨z, rfl, -, he⟩
  · exact hI.objects p y (he ▸ hp)
  · rw [he] at hp
    by_cases hn : p = s.nextConnection
    · subst hn
      obtain rfl : z = y := by simpa using hp
      exact hA
    · rw [Function.update_of_ne hn] at hp
      exact hI.objects p y hp

lemma inv_unnamed (h : Effect t a s s') (hI : Handler.Inv s) (p : ConnectionPtr)
    (hp : s'.nextConnection ≤ p) : s'.tcpConnections p = none := by
  rcases h.objects with ⟨he, hn⟩ | ⟨z, -, hn, he⟩
  · rw [he]
    exact hI.unnamed p (hn ▸ hp)
  · have hlt : s.nextConnection < p := by omega
    rw [he, Function.update_of_ne (Nat.ne_of_gt hlt)]
    exact hI.unnamed p (Nat.le_of_lt hlt)

lemma inv_port (h : Effect t a s s') (hI : Handler.Inv s) (hA : Handler.Allowed t a s) :
    AssociationFailed s' ∨ Handler.PortKept s' := by
  by_cases hf : AssociationFailed s
  · exact .inl (lasting_associationFailed s s' (h.onward hI) hf)
  obtain hk := hI.port.resolve_left hf
  refine .inr ⟨?_, fun k q c hq => ?_, fun u q ok hq => ?_⟩ <;> rw [h.workersPort]
  · rcases h.handle with he | ha
    · rw [he, hk.handle]
    · rw [ha] at hA
      exact hA.resolve_left hf
  · rcases h.assoc k q c hq with hq | ⟨v, port, rfl, hport⟩
    · exact hk.assoc k q c hq
    · exact hport _ (hA.resolve_left hf)
  · rcases h.history with he | ⟨r, hr, he⟩
    · exact hk.posted u q ok (he ▸ hq)
    · rw [he] at hq
      rcases List.mem_cons.mp hq with rfl | hq
      · cases hr
        exact hA.resolve_left hf
      · exact hk.posted u q ok hq

lemma inv_emptyCall (h : Effect t a s s') (hI : Handler.Inv s) (hA : Handler.Allowed t a s)
    (u : Tid) (k : CallbackKind) (hu : .emptyCall u k ∈ s'.history) :
    k = .onDisconnected ∧ s'.handlers.onDisconnected = false := by
  rw [h.handlers]
  rcases h.history with he | ⟨r, hr, he⟩
  · exact hI.emptyCall u k (he ▸ hu)
  · rw [he] at hu
    rcases List.mem_cons.mp hu with rfl | hu
    · cases hr with
      | emptyHandler k p data hk =>
          obtain rfl : k = .onDisconnected := hA
          exact ⟨rfl, by simpa [Handlers.isSet] using hk⟩
      | emptyConnection q k p data y hy hk =>
          obtain ⟨z, hz, hs⟩ := hA
          rw [hy] at hz
          cases hz
          exact absurd hs hk
    · exact hI.emptyCall u k hu

lemma inv_sent (h : Effect t a s s') (hI : Handler.Inv s) (hA : Handler.Allowed t a s)
    (u : Tid) (p : ConnectionPtr) (rc : ℤ) (l l' : List Record)
    (hl : s'.history = l ++ .returned u (.send p) rc :: l') :
    rc = commSuccess ∧ SendCalled u p l' := by
  rcases h.history with he | ⟨r, hr, he⟩
  · exact hI.sent u p rc l l' (he ▸ hl)
  · rw [he] at hl
    cases l with
    | nil =>
        obtain ⟨rfl, rfl⟩ := List.cons.inj hl
        cases hr
        exact hA.2 p rfl
    | cons r' l => exact hI.sent u p rc l l' (List.cons.inj hl).2

lemma inv_lock (h : Effect t a s s') (hI : Handler.Inv s) (hA : Handler.Allowed t a s)
    (u : Tid) (hu : s'.locker.heldBy u ≠ 0) : ∃ f ∈ s'.stack u, f.locks = true := by
  by_cases hut : u = t
  · subst hut
    have hstack : (∃ f ∈ s.stack u, f.locks = true) → a.clears = false →
        ∃ f ∈ s'.stack u, f.locks = true := by
      rintro ⟨f, hf, hl⟩ hc
      rcases h.ownStack with he | ⟨-, g, he⟩ | ⟨rfl, he⟩ | he
      · exact ⟨f, he ▸ hf, hl⟩
      · exact ⟨f, he ▸ List.mem_cons_of_mem g hf, hl⟩
      · obtain ⟨k, p, fs, hfs⟩ := hA
        rw [hfs] at hf he
        rcases List.mem_cons.mp hf with rfl | hf
        · cases hl
        · exact ⟨f, he ▸ hf, hl⟩
      · rw [he] at hc
        cases hc
    rcases h.ownHeld with he | ⟨f, rfl⟩ | ⟨rfl, he⟩
    · have hclear : a.clears = false := by
        by_contra hc
        refine hu (he.trans ?_)
        cases a <;> simp_all [Action.clears, Handler.Allowed]
      exact hstack (hI.lock u (he ▸ hu)) hclear
    · exact hstack ⟨f, hA.1, hA.2⟩ rfl
    · exact hstack (hI.lock u (by omega)) rfl
  · rw [h.stack u hut]
    exact hI.lock u (h.held u hut ▸ hu)

/-- An allowed action keeps the invariant. -/
lemma inv (h : Effect t a s s') (hI : Handler.Inv s) (hA : Handler.Allowed t a s) :
    Handler.Inv s' where
  unnamed := h.inv_unnamed hI
  objects := h.inv_objects hI hA
  port := h.inv_port hI hA
  emptyCall := h.inv_emptyCall hI hA
  sent := h.inv_sent hI hA
  lock := h.inv_lock hI hA

end Effect

end Alpl.Net
