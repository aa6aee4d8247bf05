import Alpl.Handler.Passing

/-!
# The stages of a thread

Where a thread stands in the code of the library, as far as it matters for the order of its calls: a
worker waits for a packet, has one and has not looked at `exiting_` yet, serves it, or is on its way
out; inside `disconnect` it has called `onDisconnected` or not; and `exiting` has some of its
packets still to post.  That all code goes through the stages in order is a fact about its text
alone (`code_follows`).
-/

namespace Alpl.Net

open Interleaving

/-- The stages of a thread. -/
inductive Stage
  /-- A worker at the top of its loop. -/
  | waiting
  /-- It has a packet and has not tested `exiting_`. -/
  | taken
  /-- Inside the code of the library, but for what follows. -/
  | working
  /-- Inside `disconnect` for `c`, before the callback. -/
  | inside (c : ContextPtr)
  /-- Inside `disconnect` for `c`, from the callback until `c` is freed. -/
  | told (c : ContextPtr)
  /-- Inside `exiting`, before it knows how many packets to post. -/
  | exiting
  /-- Inside `exiting`, with this many packets to post. -/
  | posting (n : ℕ)
  /-- Inside `exiting`, which has found no port to post to. -/
  | portless
  /-- It leaves, and will not come back to the loop. -/
  | leaving
  deriving DecidableEq, Repr

/-- What a thread may do in a stage. -/
@[simp] def Stage.allows : Stage → Action → Bool
  | .waiting, .getQueuedCompletionStatus _ => true
  | .waiting, .exitThread => true
  | .waiting, _ => false
  | .taken, .getExiting => true
  | .taken, _ => false
  | .working, .getQueuedCompletionStatus _ => false
  | .working, .getExiting => false
  | .working, .exitThread => false
  | .working, .invokeHandler _ _ _ => false
  | .working, .postQueuedCompletionStatus _ => false
  | .working, .waitForWorkers => false
  | .working, .invokeConnection _ k _ _ => k ≠ .onConnected ∧ k ≠ .onDisconnected
  | .working, _ => true
  | .inside _, .enterCriticalSection _ => true
  | .inside _, .leaveCriticalSection => true
  | .inside _, .getTheSocketContext => true
  | .inside _, .getSocket _ => true
  | .inside _, .getIoContext _ => true
  | .inside _, .sysCall _ => true
  | .inside _, .closesocket _ => true
  | .inside _, .setSocketAccept _ _ => true
  | .inside _, .indexConnection _ => true
  | .inside _, .invokeHandler k _ _ => k = .onDisconnected
  | .inside c, .leave f _ => f = .disconnect (some c)
  | .inside _, .nullDereference => true
  | .inside _, _ => false
  | .told _, .callbackReturns => true
  | .told _, .getSocket _ => true
  | .told _, .eraseConnection _ => true
  | .told _, .closesocket _ => true
  | .told _, .setSocket _ _ => true
  | .told _, .removeContext _ => true
  | .told c, .freeContext d => d = c
  | .told _, _ => false
  | .exiting, .getIocpHandle => true
  | .exiting, .getNumWorkerThreads => true
  | .exiting, _ => false
  | .posting _, .getIocpHandle => true
  | .posting n, .postQueuedCompletionStatus _ => n ≠ 0
  | .posting n, .waitForWorkers => n = 0
  | .posting _, _ => false
  | .portless, .getIocpHandle => true
  | .portless, .getNumWorkerThreads => true
  | .portless, .postQueuedCompletionStatus _ => true
  | .portless, .waitForWorkers => true
  | .portless, _ => false
  | .leaving, .finish => true
  | .leaving, .exitThread => true
  | .leaving, _ => false

/-- The stage after an action. -/
@[simp] def Stage.next (q : Stage) (a : Action) : a.Res → Stage :=
  match q, a with
  | .waiting, .getQueuedCompletionStatus _ => fun _ => .taken
  | .waiting, .exitThread => fun _ => .leaving
  | .taken, .getExiting => fun exiting => if exiting then .leaving else .working
  | .working, .enter (.disconnect (some c)) => fun _ => .inside c
  | .working, .finish => fun _ => .waiting
  | .working, .setExiting => fun _ => .exiting
  | .inside c, .invokeHandler _ _ _ => fun _ => .told c
  | .inside _, .leave _ _ => fun _ => .working
  | .told _, .freeContext _ => fun _ => .working
  | .exiting, .getIocpHandle => fun h => if h.isNone then .portless else .exiting
  | .exiting, .getNumWorkerThreads => fun n => .posting n
  | .posting n, .getIocpHandle => fun h => if h.isNone then .portless else .posting n
  | .posting n, .postQueuedCompletionStatus _ => fun _ => .posting (n - 1)
  | .posting _, .waitForWorkers => fun _ => .working
  | .portless, .waitForWorkers => fun _ => .working
  | q, _ => fun _ => q

def Label.stage : Label → Stage
  | .workerThread _ => .waiting
  | _ => .working

/-- Where the code of the library leads to outside the stages that follow one another. -/
lemma next_working {a : Action} {r : a.Res} {q : Stage} (h : Stage.next .working a r = q) :
    q = .working ∨ (∃ c, a = .enter (.disconnect (some c)) ∧ q = .inside c) ∨
      (a = .finish ∧ q = .waiting) ∨ a = .setExiting ∧ q = .exiting := by
  cases a with
  | enter f =>
      cases f with
      | disconnect d =>
          cases d with
          | none => exact .inl h.symm
          | some c => exact .inr (.inl ⟨c, rfl, h.symm⟩)
      | _ => exact .inl h.symm
  | finish => exact .inr (.inr (.inl ⟨rfl, h.symm⟩))
  | setExiting => exact .inr (.inr (.inr ⟨rfl, h.symm⟩))
  | _ => exact .inl h.symm

/-- The automaton of the stages. -/
def stages : Typestate Action Action.Res Label Stage where
  allowed q a := q.allows a = true
  next := Stage.next
  entry := Label.stage

/-! ## The code goes through the stages in order -/

section

open Typestate

@[simp] lemma stages_allowed (q : Stage) (a : Action) :
    stages.allowed q a ↔ q.allows a = true := Iff.rfl

@[simp] lemma stages_next (q : Stage) (a : Action) (r : a.Res) :
    stages.next q a r = q.next a r := rfl

lemma stages_ordinary (a : Action) (ha : a.isOrdinary = true) :
    stages.allowed .working a ∧ ∀ r, stages.next .working a r = .working := by
  unfold Action.isOrdinary at ha
  split at ha <;> simp_all

/-! ### `disconnect` -/

lemma stays_setLinger (c d : ContextPtr) (g : Bool) :
    stages.Stays (setLinger d g) (.inside c) := by
  cases g <;> simp [Stays, setLinger]

lemma stays_closeSocketAccept (c d : ContextPtr) :
    stages.Stays (closeSocketAccept d) (.inside c) := by
  simp [Stays, closeSocketAccept]

/-- The connection is told once, and its context freed after that. -/
lemma follows_disconnectClient (c : ContextPtr) (g : Bool) :
    stages.Follows (disconnectClient c g) (.inside c) fun _ q => q = .working := by
  refine (stays_setLinger c c g).bind fun _ => (stays_closeSocketAccept c c).bind fun _ => ?_
  simp [callHandler]

lemma follows_disconnectLocked (c : ContextPtr) (g : Bool) :
    stages.Follows (disconnectLocked (some c) g) (.inside c) fun _ q =>
      q = .inside c ∨ q = .working := by
  refine .step rfl fun l => follows_deref rfl fun l => .step rfl fun v => .step rfl fun w => ?_
  refine Follows.bind (N := fun _ q => q = .inside c ∨ q = .working) ?_ ?_
  · split
    · exact .inl rfl
    · exact (follows_disconnectClient c g).post fun _ _ h => .inr h
  · rintro - q (rfl | rfl) <;> simp

lemma stays_disconnect (c : Option ContextPtr) (g : Bool) :
    stages.Stays (disconnect c g) .working := by
  cases c with
  | none => simp [Stays, disconnect, call, disconnectLocked]
  | some c =>
      refine .step rfl fun _ => Follows.bind (N := fun _ q => q = .inside c ∨ q = .working)
        (.step rfl fun entered => ?_) ?_
      · cases entered with
        | false => exact .inl rfl
        | true => exact follows_disconnectLocked c g
      · rintro rc q (rfl | rfl) <;> simp

/-! ### The loop -/

lemma stages_passes : Passes stages .working := ⟨stages_ordinary, stays_disconnect⟩

lemma stays_handleNewConnection (c n : ContextPtr) (arg : IocpParam) :
    stages.Stays (handleNewConnection c n arg) .working := by
  refine .step rfl fun _ => Stays.bind (.step rfl fun v => .step rfl fun port => .step rfl fun hs =>
    .step rfl fun p => .step rfl fun _ => Stays.bind ?_ fun _ => ?_) fun rc => ?_
  · split
    · exact stages_passes.stays (ordinary_deliver p c arg.ioSize)
    · rfl
  · exact stages_passes.firstReceive n
  · exact .step rfl fun _ => rfl

/-- A turn ends where it found `exiting_` set, and then the worker leaves, or after a packet. -/
lemma follows_turn (pkt : Packet) : stages.Follows (turn pkt) .taken fun next q =>
    q = .leaving ∧ next = .leave ∨ q = .working := by
  refine .step rfl fun exiting => ?_
  cases exiting with
  | true => exact .inl ⟨rfl, rfl⟩
  | false =>
      refine .step rfl fun isRunning => ?_
      cases isRunning with
      | false => exact .inr rfl
      | true =>
          have hstays := stages_passes.handlePacket stays_handleNewConnection pkt
          exact hstays.post fun _ _ h => .inr h

lemma follows_workerThread (hIOCP : Port) :
    stages.Follows (workerThread hIOCP) .waiting stages.Ends := by
  refine .step rfl fun pkt => (follows_turn pkt).bind ?_
  rintro next q (⟨rfl, rfl⟩ | rfl)
  · exact .step rfl fun _ => .step rfl fun _ => trivial
  · refine .step rfl fun _ => ?_
    cases next with
    | again => rfl
    | leave => exact .step rfl fun _ => trivial

/-! ### The owners and their users -/

lemma stays_postExitPackets (n : ℕ) : stages.Stays (postExitPackets n) .portless := by
  induction n with
  | zero => rfl
  | succ n ih =>
      refine .step rfl fun h => ?_
      cases h with
      | none => exact ih
      | some port => exact .step rfl fun _ => ih

/-- All packets are posted, unless there is no port. -/
lemma follows_postExitPackets (n : ℕ) :
    stages.Follows (postExitPackets n) (.posting n) fun _ q => q = .posting 0 ∨ q = .portless := by
  induction n with
  | zero => exact .inl rfl
  | succ n ih =>
      refine .step rfl fun h => ?_
      cases h with
      | none => exact (stays_postExitPackets n).post fun _ _ h => .inr h
      | some port => exact .step (by simp) fun _ => ih

lemma stays_exiting : stages.Stays exiting .working := by
  have hend := fun l => stages_passes.stays (ordinary_afterWait l)
  refine .step rfl fun _ => .step rfl fun h => ?_
  cases h with
  | none => exact .step rfl fun n => .step rfl fun _ => .step rfl fun l => hend l
  | some port =>
      refine .step rfl fun n => (follows_postExitPackets n).bind ?_
      rintro - q (rfl | rfl)
      · exact .step rfl fun _ => .step rfl fun l => hend l
      · exact .step rfl fun _ => .step rfl fun l => hend l

lemma stays_stop : stages.Stays stop .working :=
  .step rfl fun _ => Stays.bind (stays_exiting.bind fun _ => .step rfl fun _ => rfl) fun _ =>
    .step rfl fun _ => rfl

lemma follows_run {f : P ℤ} (hf : stages.Stays f .working) :
    stages.Follows (run f) .working stages.Ends :=
  hf.bind fun _ => .step rfl fun _ => trivial

/-- **All code goes through the stages in order.** -/
theorem code_follows (l : Label) : stages.Follows (code l) l.stage stages.Ends := by
  cases l with
  | workerThread hIOCP => exact follows_workerThread hIOCP
  | startServer => exact follows_run (stages_passes.stays ordinary_startServer)
  | startClient => exact follows_run (stages_passes.startClient clientConnection)
  | stop => exact follows_run stays_stop
  | send p data => exact follows_run (stages_passes.stays (ordinary_send p data))

/-- The stages at the beginning of a run. -/
def firstStage : Tid → Stage
  | .worker _ => .waiting
  | _ => .working

lemma onTrack_init (u : Setup) (t : Tid) :
    stages.OnTrack ((serverInit u).threads t) (firstStage t) := by
  cases t with
  | main => exact code_follows .startServer
  | worker i =>
      show stages.OnTrack (initThreads u .startServer (.worker i)) .waiting
      rw [initThreads_worker]
      split
      · exact code_follows (.workerThread handlerPort)
      · trivial
  | user i => trivial

end

end Alpl.Net
