import Alpl.Handler.Runs

/-!
# Actions that leave the memory alone

Most actions of a handler only read, move the lock or a stack, or write the history.  What they
leave alone is collected in `SameMemory`, once for all of them; the proofs about servers and
clients then have to look only at the actions that do change the memory or the kernel objects.
-/

namespace Alpl.Net

open Interleaving

/-- The heap, the tables, the kernel objects and the contexts in hand are the same. -/
structure SameMemory (s s' : State) : Prop where
  theSocketContext : s'.theSocketContext = s.theSocketContext
  socketContexts : s'.socketContexts = s.socketContexts
  connections : s'.connections = s.connections
  iocpHandle : s'.iocpHandle = s.iocpHandle
  contexts : s'.contexts = s.contexts
  nextContext : s'.nextContext = s.nextContext
  tcpConnections : s'.tcpConnections = s.tcpConnections
  nextConnection : s'.nextConnection = s.nextConnection
  handles : s'.handles = s.handles
  sockets : s'.sockets = s.sockets
  nextSock : s'.nextSock = s.nextSock
  pending : s'.pending = s.pending
  queue : s'.queue = s.queue
  holds : s'.holds = s.holds
  alive : s'.alive = s.alive

lemma SameMemory.refl (s : State) : SameMemory s s :=
  ⟨rfl, rfl, rfl, rfl, rfl, rfl, rfl, rfl, rfl, rfl, rfl, rfl, rfl, rfl, rfl⟩

/-- The actions that leave the memory alone, whatever their outcome. -/
def Action.reads : Action → Bool
  | .enterCriticalSection _ => true
  | .leaveCriticalSection => true
  | .getSocket _ => true
  | .getIoContext _ => true
  | .countConnection _ => true
  | .getConnection _ => true
  | .getHandlers => true
  | .getExiting => true
  | .setExiting => true
  | .getIsRunning => true
  | .getIocpHandle => true
  | .getTheSocketContext => true
  | .getNumWorkerThreads => true
  | .sysCall _ => true
  | .send _ _ _ => true
  | .waitForWorkers => true
  | .setExitEvent => true
  | .waitExitEvent => true
  | .invokeHandler _ _ _ => true
  | .invokeConnection _ _ _ _ => true
  | .callbackReturns => true
  | .enter _ => true
  | .leave _ _ => true
  | .nullDereference => true
  | _ => false

lemma exec_sameMemory {t : Tid} {a : Action} {o : Outcome} {s : State} (ha : a.reads = true) :
    ∀ rs ∈ exec t a o s, SameMemory s rs.2 := by
  unfold exec exec.acceptEx exec.post exec.invoke
  split
  all_goals first
    | (cases ha; done)
    | skip
  all_goals try split
  all_goals try split
  all_goals simp only [Option.mem_def, Option.map_eq_some_iff, Option.some.injEq, reduceCtorEq,
    IsEmpty.forall_iff, implies_true, forall_exists_index, and_imp, forall_eq',
    forall_apply_eq_imp_iff₂]
  all_goals intros
  all_goals try split
  all_goals exact ⟨rfl, rfl, rfl, rfl, rfl, rfl, rfl, rfl, rfl, rfl, rfl, rfl, rfl, rfl, rfl⟩

/-- The actions that change `connections_`, `socket_contexts_` or what a handle means. -/
def Action.files : Action → Bool
  | .pushFrontContext _ => true
  | .removeContext _ => true
  | .indexConnection _ => true
  | .assignConnection _ _ => true
  | .eraseConnection _ => true
  | .wsaSocket => true
  | .closesocket _ => true
  | _ => false

/-- The tables are the same. -/
structure SameTables (s s' : State) : Prop where
  connections : s'.connections = s.connections
  socketContexts : s'.socketContexts = s.socketContexts
  handles : s'.handles = s.handles

lemma exec_sameTables {t : Tid} {a : Action} {o : Outcome} {s : State} (ha : a.files = false) :
    ∀ rs ∈ exec t a o s, SameTables s rs.2 := by
  unfold exec exec.acceptEx exec.post exec.invoke
  split
  all_goals first
    | (cases ha; done)
    | skip
  all_goals try split
  all_goals try split
  all_goals simp only [Option.mem_def, Option.map_eq_some_iff, Option.some.injEq, reduceCtorEq,
    IsEmpty.forall_iff, implies_true, forall_exists_index, and_imp, forall_eq',
    forall_apply_eq_imp_iff₂]
  all_goals intros
  all_goals try split
  all_goals exact ⟨rfl, rfl, rfl⟩

/-- The actions that take a context into the hands of a thread, or out of them. -/
def Action.hands : Action → Bool
  | .newContext _ _ => true
  | .freeContext _ => true
  | .acceptEx _ _ _ _ => true
  | .wsaRecv _ _ _ => true
  | .wsaSend _ _ _ => true
  | .getQueuedCompletionStatus _ => true
  | .finish => true
  | _ => false

/-- What an action of thread `t` leaves alone of the contexts and the queues. -/
structure Footprint (t : Tid) (a : Action) (s s' : State) : Prop where
  holds : ∀ u, u ≠ t → s'.holds u = s.holds u
  ownHolds : a.hands = false → s'.holds t = s.holds t
  gone : ∀ c, c ≠ s.nextContext → s.contexts c = none → s'.contexts c = none
  queue : s'.queue = s.queue ∨ (∃ q, a = .getQueuedCompletionStatus q) ∨
    ∃ q, a = .postQueuedCompletionStatus q

lemma gone_update {s : State} {c d : ContextPtr} {x : Option SocketContext}
    (hx : c = d → s.contexts c = none → x = none) (h : s.contexts c = none) :
    Function.update s.contexts d x c = none := by
  by_cases hc : c = d
  · subst hc
    rw [Function.update_self]
    exact hx rfl h
  · rwa [Function.update_of_ne hc]

lemma exec_footprint {t : Tid} {a : Action} {o : Outcome} {s : State} :
    ∀ rs ∈ exec t a o s, Footprint t a s rs.2 := by
  unfold exec exec.acceptEx exec.post exec.invoke
  split
  all_goals try split
  all_goals try split
  all_goals simp only [Option.mem_def, Option.map_eq_some_iff, Option.some.injEq, reduceCtorEq,
    IsEmpty.forall_iff, implies_true, forall_exists_index, and_imp, forall_eq',
    forall_apply_eq_imp_iff₂]
  all_goals intros
  all_goals try split
  all_goals exact
    { holds := by first | exact fun _ _ => rfl | exact fun _ hu => Function.update_of_ne hu _ _
      ownHolds := by first | exact fun _ => rfl | exact nofun
      gone := by
        first
        | exact fun _ _ h => h
        | exact fun c _ h => gone_update (fun _ _ => rfl) h
        | exact fun c hc h => gone_update (fun he => absurd he hc) h
        | exact fun c _ h => gone_update (fun he hn => by subst he; simp_all) h
      queue := by
        first
        | exact .inl rfl
        | exact .inr (.inl ⟨_, rfl⟩)
        | exact .inr (.inr ⟨_, rfl⟩) }

/-! ## What the network does -/

/-- The completion of `op`, whether it brings data or not. -/
structure OsEffect (op : PendingOp) (s s' : State) : Prop where
  mem : op ∈ s.pending
  pending : s'.pending = s.pending.erase op
  contexts : ∀ c, ∃ g : List UInt8 → List UInt8, s'.contexts c = (s.contexts c).map fun x =>
    { x with ioContext.buffer := g x.ioContext.buffer }
  sockets : ∀ k, (s'.sockets k).assoc = (s.sockets k).assoc ∧
    (s'.sockets k).listening = (s.sockets k).listening
  queue : ∀ q pkt, pkt ∈ s'.queue q → pkt ∈ s.queue q ∨
    ∃ key, (s.sockets op.sock).assoc = some (q, key) ∧ pkt.key = some key ∧
      pkt.overlapped = some op.overlapped
  theSocketContext : s'.theSocketContext = s.theSocketContext
  handles : s'.handles = s.handles
  alive : s'.alive = s.alive

lemma receiveData_contexts (s : State) (op : PendingOp) (bytes : List UInt8) (c : ContextPtr) :
    ∃ g : List UInt8 → List UInt8, (s.receiveData op bytes).contexts c =
      (s.contexts c).map fun x => { x with ioContext.buffer := g x.ioContext.buffer } := by
  have hsame : s.contexts c =
      (s.contexts c).map fun x => { x with ioContext.buffer := id x.ioContext.buffer } := by
    cases s.contexts c <;> rfl
  have hfill : ∀ k, ∃ g : List UInt8 → List UInt8, (s.fill k op.overlapped bytes).contexts c =
      (s.contexts c).map fun x => { x with ioContext.buffer := g x.ioContext.buffer } := by
    intro k
    simp only [State.fill, Function.update_apply]
    split
    · rename_i hc
      rw [hc]
      exact ⟨fun b => overwrite b bytes, rfl⟩
    · exact ⟨id, hsame⟩
  rw [State.receiveData]
  split
  · exact ⟨id, hsame⟩
  · exact hfill _
  · exact hfill _

lemma receiveData_sockets (s : State) (op : PendingOp) (bytes : List UInt8) (k : SockId) :
    ((s.receiveData op bytes).sockets k).assoc = (s.sockets k).assoc ∧
      ((s.receiveData op bytes).sockets k).listening = (s.sockets k).listening := by
  have hfill : ∀ j, ((s.fill j op.overlapped bytes).sockets k).assoc = (s.sockets k).assoc ∧
      ((s.fill j op.overlapped bytes).sockets k).listening = (s.sockets k).listening := by
    intro j
    simp only [State.fill, Function.update_apply]
    split
    · rename_i hk
      rw [hk]
      exact ⟨rfl, rfl⟩
    · exact ⟨rfl, rfl⟩
  rw [State.receiveData]
  split
  · exact ⟨rfl, rfl⟩
  · exact hfill _
  · exact hfill _

/-- What `receiveData` leaves alone. -/
lemma receiveData_rest (s : State) (op : PendingOp) (bytes : List UInt8) :
    (s.receiveData op bytes).pending = s.pending ∧ (s.receiveData op bytes).queue = s.queue ∧
      (s.receiveData op bytes).theSocketContext = s.theSocketContext ∧
      (s.receiveData op bytes).handles = s.handles ∧
      (s.receiveData op bytes).alive = s.alive := by
  rw [State.receiveData]
  split <;> exact ⟨rfl, rfl, rfl, rfl, rfl⟩

lemma postPacket_queue {s : State} {op : PendingOp} {ok : Bool} {n : ℕ} {q : Port} {pkt : Packet}
    (h : pkt ∈ (s.postPacket op ok n).queue q) : pkt ∈ s.queue q ∨
      ∃ key, (s.sockets op.sock).assoc = some (q, key) ∧ pkt.key = some key ∧
        pkt.overlapped = some op.overlapped := by
  rw [State.postPacket] at h
  split at h
  · rename_i port key ha
    simp only [Function.update_apply] at h
    split at h
    · rename_i hq
      subst hq
      rcases List.mem_append.mp h with h | h
      · exact .inl h
      · rw [List.mem_singleton.mp h]
        exact .inr ⟨key, ha, rfl, rfl⟩
    · exact .inl h
  · exact .inl h

/-- What `postPacket` leaves alone. -/
lemma postPacket_rest (s : State) (op : PendingOp) (ok : Bool) (n : ℕ) :
    (s.postPacket op ok n).pending = s.pending ∧ (s.postPacket op ok n).contexts = s.contexts ∧
      (s.postPacket op ok n).sockets = s.sockets ∧
      (s.postPacket op ok n).theSocketContext = s.theSocketContext ∧
      (s.postPacket op ok n).handles = s.handles ∧ (s.postPacket op ok n).alive = s.alive := by
  rw [State.postPacket]
  split <;> exact ⟨rfl, rfl, rfl, rfl, rfl, rfl⟩

lemma osStep_effect {e : OsEvent} {s s' : State} (h : osStep e s = some s') :
    ∃ op, OsEffect op s s' := by
  obtain ⟨op, bytes, rfl, hop, -, rfl⟩ | ⟨op, rfl, hop, rfl⟩ := osStep_cases h
  · obtain ⟨hp, hq, ht, hh, ha⟩ :=
      receiveData_rest { s with pending := s.pending.erase op } op bytes
    obtain ⟨hp', hc', hs', ht', hh', ha'⟩ := postPacket_rest
      ({ s with pending := s.pending.erase op }.receiveData op bytes) op true bytes.length
    refine ⟨op, hop, hp'.trans hp, fun c => ?_, fun k => ?_, fun q pkt hpkt => ?_,
      ht'.trans ht, hh'.trans hh, ha'.trans ha⟩
    · rw [hc']
      exact receiveData_contexts _ op bytes c
    · rw [hs']
      exact receiveData_sockets _ op bytes k
    · rcases postPacket_queue hpkt with hmem | ⟨key, hkey, hpk⟩
      · exact .inl (hq ▸ hmem)
      · rw [(receiveData_sockets _ op bytes op.sock).1] at hkey
        exact .inr ⟨key, hkey, hpk⟩
  · obtain ⟨hp', hc', hs', ht', hh', ha'⟩ :=
      postPacket_rest { s with pending := s.pending.erase op } op false 0
    refine ⟨op, hop, hp', fun c => ⟨id, ?_⟩, fun k => ?_, fun q pkt hpkt => ?_, ht', hh', ha'⟩
    · rw [hc']
      cases s.contexts c <;> rfl
    · rw [hs']
      exact ⟨rfl, rfl⟩
    · have hmem := postPacket_queue hpkt
      exact hmem

lemma osStep_sameTables {e : OsEvent} {s s' : State} (h : osStep e s = some s') :
    SameTables s s' := by
  constructor <;> cases e <;> grind [osStep, State.postPacket, State.receiveData, State.fill]

lemma osStep_holds {e : OsEvent} {s s' : State} (h : osStep e s = some s') :
    s'.holds = s.holds := by
  cases e <;> grind [osStep, State.postPacket, State.receiveData, State.fill]

end Alpl.Net
