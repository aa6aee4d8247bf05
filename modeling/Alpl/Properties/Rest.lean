import Alpl.Properties.Progress
import Alpl.Properties.Shutdown
import Mathlib.Algebra.Order.BigOperators.Group.Finset

/-!
# The handler comes to rest

A turn of the loop of `WorkerThread` is over after at most `turnCost` actions, whatever Windows
answers, and a call of `Start`, `Stop` or `Send` is bounded as well.  A worker comes back for more
only with a packet from the queue, and only `exiting` posts packets, one for each worker.  So, once
nobody calls anything and the network is silent, the threads have a bounded number of steps left.

The account is kept by an automaton: a thread has a credit for the rest of its code, taking a packet
renews it, and a packet is priced above a whole turn.
-/

namespace Alpl.Net

open Interleaving

/-- The actions of one turn of the loop, from the packet on. -/
def turnCost : ℕ := 85

/-- What a packet in the queue is worth. -/
def packetPrice : ℕ := turnCost + 1

/-- What a thread pays for an action. -/
def Action.cost : Action → ℕ
  | .postQueuedCompletionStatus _ => packetPrice + 1
  | _ => 1

/-- Whether a credit allows an action.  The size of the loop of `exiting` is paid for where it is
read, and at the end of a turn as much must be left as the way out of the loop costs. -/
def affords (n q : ℕ) : Action → Prop
  | .getQueuedCompletionStatus _ => True
  | .getNumWorkerThreads => (packetPrice + 2) * n + 1 ≤ q
  | .finish => 2 ≤ q
  | a => a.cost ≤ q

/-- The credit after an action. -/
def remaining (n q : ℕ) (a : Action) : a.Res → ℕ :=
  match a with
  | .getQueuedCompletionStatus _ => fun _ => turnCost
  | .getNumWorkerThreads => fun m => q - ((packetPrice + 2) * n + 1) + (packetPrice + 2) * m
  | .finish => fun _ => 1
  | a => fun _ => q - a.cost

/-- The credit a piece of code begins with, with `n` workers. -/
def Label.credit (n : ℕ) : Label → ℕ
  | .workerThread _ => 1
  | .startServer => 30
  | .startClient => 42
  | .stop => 14 + (packetPrice + 2) * n
  | .send _ _ => 10

/-- The automaton of the credits, for a handler with `n` workers. -/
def credits (n : ℕ) : Typestate Action Action.Res Label ℕ where
  allowed := affords n
  next := remaining n
  entry := Label.credit n

/-! ## How much the code costs -/

/-- The actions with an account of their own. -/
def Action.isCharged : Action → Bool
  | .getQueuedCompletionStatus _ => false
  | .getNumWorkerThreads => false
  | .finish => false
  | _ => true

/-- The program costs no more than this. -/
def Within {α : Type} : ℕ → P α → Prop
  | _, .ret _ => True
  | _, .throw => True
  | m, .act a k => a.isCharged = true ∧ a.cost ≤ m ∧ ∀ r, Within (m - a.cost) (k r)

section

open Typestate

variable {α β : Type} {n m j : ℕ}

@[simp] lemma within_ret (x : α) : Within m (.ret x : P α) := trivial

@[simp] lemma within_throw : Within m (.throw : P α) := trivial

@[simp] lemma within_act {a : Action} {k : a.Res → P α} : Within m (.act a k) ↔
    a.isCharged = true ∧ a.cost ≤ m ∧ ∀ r, Within (m - a.cost) (k r) := Iff.rfl

@[simp] lemma within_perform {a : Action} :
    Within m (Prog.perform a) ↔ a.isCharged = true ∧ a.cost ≤ m := by
  simp [Prog.perform]

@[simp] lemma within_ite {φ : Prop} [Decidable φ] {p p' : P α} :
    Within m (if φ then p else p') ↔ (φ → Within m p) ∧ (¬ φ → Within m p') := by
  by_cases h : φ <;> simp [h]

lemma Within.mono {p : P α} (hp : Within m p) (h : m ≤ j) : Within j p := by
  induction p generalizing m j with
  | ret x => trivial
  | throw => trivial
  | act a k ih =>
      exact ⟨hp.1, hp.2.1.trans h, fun r => ih r (hp.2.2 r) (Nat.sub_le_sub_right h _)⟩

lemma Within.bind {p : P α} {f : α → P β} (hp : Within m p) (hf : ∀ x, Within j (f x)) :
    Within (m + j) (p >>= f) := by
  induction p generalizing m with
  | ret x => exact (hf x).mono (Nat.le_add_left _ _)
  | throw => trivial
  | act a k ih =>
      refine ⟨hp.1, hp.2.1.trans (Nat.le_add_right _ _), fun r => ?_⟩
      rw [Nat.sub_add_comm hp.2.1]
      exact ih r (hp.2.2 r)

/-- One action of cost 1, then the rest. -/
lemma Within.step {a : Action} {k : a.Res → P α} (ha : a.isCharged = true) (hc : a.cost = 1)
    (hk : ∀ r, Within m (k r)) : Within (m + 1) (Prog.perform a >>= k) :=
  ⟨ha, hc.trans_le (Nat.le_add_left _ _), fun r => by
    rw [hc, Nat.add_sub_cancel]
    exact hk r⟩

lemma Within.deref {p : Option ℕ} {k : ℕ → P α} (hm : 1 ≤ m) (hk : ∀ c, Within m (k c)) :
    Within m (deref p k) := by
  cases p with
  | none => exact ⟨rfl, hm, nofun⟩
  | some c => exact hk c

lemma Within.call {f : Frame} {body : P ℤ} (hbody : Within m body) :
    Within (m + 2) (call f body) :=
  .step rfl rfl fun _ => hbody.bind fun _ => .step rfl rfl fun _ => within_ret _

/-- A program within its credit leaves the rest of it. -/
lemma Within.follows {p : P α} {q : ℕ} (hp : Within m p) (hq : m ≤ q) :
    (credits n).Follows p q fun _ q' => q ≤ q' + m := by
  induction p generalizing m q with
  | ret x => exact Nat.le_add_right _ _
  | throw => trivial
  | act a k ih =>
      obtain ⟨ha, hc, hk⟩ := hp
      have hallowed : affords n q a := by
        cases a <;> first | cases ha; done | exact hc.trans hq
      have hnext : ∀ r, remaining n q a r = q - a.cost := by
        intro r
        cases a <;> first | cases ha; done | rfl
      refine ⟨hallowed, fun r => (ih r (hk r) (q := remaining n q a r) ?_).post fun _ q' hq' => ?_⟩
      · rw [hnext]
        exact Nat.sub_le_sub_right hq _
      · rw [hnext] at hq'
        omega

/-! ### The functions, one by one -/

lemma within_createTcpSocket : Within 2 createTcpSocket := by
  simp [createTcpSocket, Action.isCharged, Action.cost]

lemma within_disconnectClient (c : ContextPtr) (g : Bool) : Within 16 (disconnectClient c g) := by
  have hlinger : Within 2 (setLinger c g) := by
    cases g <;> simp [setLinger, Action.isCharged, Action.cost]
  have haccept : Within 3 (closeSocketAccept c) := by
    simp [closeSocketAccept, act, Prog.perform, Action.isCharged, Action.cost]
  refine hlinger.bind fun _ => haccept.bind (j := 11) fun _ => ?_
  simp [callHandler, act, Prog.perform, Action.isCharged, Action.cost]

lemma within_disconnect (c : Option ContextPtr) (g : Bool) : Within 23 (disconnect c g) := by
  refine .call (.step rfl rfl fun entered => ?_)
  cases entered with
  | false => trivial
  | true =>
      cases c with
      | none => exact .step rfl rfl fun _ => within_ret _
      | some c =>
          refine .step rfl rfl fun l => .deref (by decide) fun l => .step rfl rfl fun v =>
            .step rfl rfl fun w => Within.bind (m := 16) (j := 1) ?_ fun _ =>
              .step rfl rfl fun _ => within_ret _
          split
          · trivial
          · exact within_disconnectClient c g

lemma within_updateCompletionPort (sd : SOCKET) (op : LastIoOperation) (add : Bool) :
    Within 10 (updateCompletionPort sd op add) := by
  have hcreate : Within 5 (createSocketContext sd op) := by
    simp [createSocketContext, Action.isCharged, Action.cost]
  refine hcreate.bind (j := 5) fun c => ?_
  cases c with
  | none => trivial
  | some c =>
      refine .step rfl rfl fun _ => .step rfl rfl fun _ => .step rfl rfl fun _ =>
        .step rfl rfl fun h => ?_
      cases h with
      | none => exact .step rfl rfl fun _ => within_ret _
      | some port => cases add <;> simp [Action.isCharged, Action.cost]

lemma within_startAccept : Within 9 startAccept := by
  refine .call (.step rfl rfl fun l => .deref (by decide) fun l =>
    within_createTcpSocket.bind (j := 4) fun v => ?_)
  simp [Action.isCharged, Action.cost]

lemma within_deliver (p : ConnectionPtr) (c : ContextPtr) (n : ℕ) : Within 4 (deliver p c n) := by
  simp [deliver, callConnection, act, Prog.perform, Action.isCharged, Action.cost]

lemma within_received (c : ContextPtr) (r : CallResult) :
    Within 23 (if r.failed then disconnect (some c) false >>= fun _ => pure commSuccess
      else pure commSuccess) := by
  split
  · exact (within_disconnect (some c) false).bind (j := 0) fun _ => trivial
  · trivial

lemma within_firstReceive (n : ContextPtr) : Within 26 (firstReceive n) :=
  .step rfl rfl fun _ => .step rfl rfl fun _ => .step rfl rfl fun r => within_received n r

lemma within_handleNewConnection (c n : ContextPtr) (arg : IocpParam) :
    Within 37 (handleNewConnection c n arg) := by
  refine .call (.step rfl rfl fun v => .step rfl rfl fun port => .step rfl rfl fun hs =>
    .step rfl rfl fun p => .step rfl rfl fun _ => Within.bind (m := 4) ?_ fun _ =>
    within_firstReceive n)
  split
  · exact within_deliver p c arg.ioSize
  · trivial

lemma within_newContext (c : ContextPtr) (arg : IocpParam) (sd : SOCKET) :
    Within 47 (updateCompletionPort sd .ioConnect true >>= fun n => match n with
      | none => pure commConnectFailed
      | some n => handleNewConnection c n arg >>= fun _ => pure commSuccess) := by
  refine (within_updateCompletionPort sd .ioConnect true).bind (j := 37) fun n => ?_
  cases n with
  | none => trivial
  | some n => exact (within_handleNewConnection c n arg).bind (j := 0) fun _ => trivial

lemma within_handleAccept (c : ContextPtr) (arg : IocpParam) : Within 52 (handleAccept c arg) := by
  refine .step rfl rfl fun io => .step rfl rfl fun l => .deref (by decide) fun l =>
    .step rfl rfl fun v => .step rfl rfl fun updated => ?_
  cases updated with
  | false => trivial
  | true => exact .step rfl rfl fun io => within_newContext c arg io.socketAccept

lemma within_handleConnect (c : ContextPtr) (arg : IocpParam) :
    Within 52 (handleConnect c arg) := by
  refine .step rfl rfl fun v => .step rfl rfl fun l => .deref (by decide) fun l =>
    .step rfl rfl fun w => .step rfl rfl fun updated => ?_
  cases updated with
  | false => trivial
  | true => exact .step rfl rfl fun v => within_newContext c arg v

lemma within_startReceive (c : ContextPtr) (arg : IocpParam) :
    Within 27 (startReceive c arg) := by
  refine .step rfl rfl fun _ => .step rfl rfl fun v => .step rfl rfl fun r => ?_
  split
  · exact .step rfl rfl fun _ => (within_disconnect (some c) false).bind (j := 0) fun _ => trivial
  · trivial

lemma within_handleReceive (c : ContextPtr) (arg : IocpParam) :
    Within 37 (handleReceive c arg) := by
  refine .call (Within.bind (m := 8) (.step rfl rfl fun v => .step rfl rfl fun n => ?_) fun _ =>
    within_startReceive c arg)
  split
  · exact .step rfl rfl fun v => .step rfl rfl fun p => .deref (by decide) fun p =>
      within_deliver p c arg.ioSize
  · simp [Action.isCharged, Action.cost]

lemma within_handleSend (c : ContextPtr) (arg : IocpParam) : Within 29 (handleSend c arg) := by
  refine .step rfl rfl fun _ => .step rfl rfl fun io => .step rfl rfl fun _ =>
    .step rfl rfl fun io => ?_
  split
  · exact .step rfl rfl fun v => .step rfl rfl fun r => within_received c r
  · simp [Action.isCharged, Action.cost]

lemma within_alplAssert {f : P ℤ} {k : P Turn} {m j : ℕ} (hf : Within m f) (hk : Within j k) :
    Within (m + j) (alplAssert f k) := by
  refine hf.bind fun rc => ?_
  split
  · trivial
  · exact hk

lemma within_switch (c : ContextPtr) (arg : IocpParam) : Within 80 (switch c arg) := by
  have hagain : Within 0 (pure .again : P Turn) := trivial
  refine .step rfl rfl fun io => ?_
  split
  · exact (within_alplAssert (within_handleAccept c arg)
      (within_alplAssert within_startAccept hagain)).mono (by decide)
  · exact within_alplAssert (within_handleConnect c arg)
      (within_alplAssert (within_startReceive c arg) hagain)
  · exact (within_alplAssert (within_handleReceive c arg) hagain).mono (by decide)
  · exact (within_alplAssert (within_handleSend c arg) hagain).mono (by decide)

lemma within_turn (pkt : Packet) : Within 83 (turn pkt) := by
  refine .step rfl rfl fun exiting => ?_
  cases exiting with
  | true => trivial
  | false =>
      refine .step rfl rfl fun isRunning => ?_
      cases isRunning with
      | false => trivial
      | true =>
          refine .deref (by decide) fun o => .step rfl rfl fun io => ?_
          split
          · exact (within_disconnect pkt.key false).bind (j := 57) fun _ => within_ret _
          · exact .deref (by decide) fun c => within_switch c _

lemma within_startServer : Within 28 startServer := by
  have hlistener : Within 5 (createListener defaultBacklog) := by
    refine .step rfl rfl fun resolved => ?_
    cases resolved with
    | false => trivial
    | true =>
        refine within_createTcpSocket.bind (j := 2) fun ls => ?_
        simp [Action.isCharged, Action.cost]
  refine .call (hlistener.bind (j := 21) fun r => ?_)
  split
  · trivial
  · refine Within.bind (m := 21) (j := 0) ((within_updateCompletionPort r.2 .ioAccept false).bind
      (j := 11) fun l => .step rfl rfl fun _ => ?_) fun rc => by split <;> trivial
    cases l with
    | none => trivial
    | some l =>
        refine .step rfl rfl fun loaded => ?_
        cases loaded with
        | false => trivial
        | true => exact within_startAccept.bind (j := 0) fun rc => by split <;> trivial

lemma within_startClient (p : ConnectionPtr) : Within 40 (startClient p) := by
  refine .call (.step rfl rfl fun y => Within.bind (m := 37) (j := 0)
    ((within_updateCompletionPort y.socket .ioReceive true).bind (j := 27) fun l => ?_)
    fun rc => by split <;> trivial)
  exact .step rfl rfl fun _ => .deref (by decide) fun l => .step rfl rfl fun _ =>
    .step rfl rfl fun _ => .step rfl rfl fun r => within_received l r

lemma within_send (p : ConnectionPtr) (data : List UInt8) : Within 8 (send p data) := by
  have hsent : Within 3 (onSentCompleted p) := by
    simp [onSentCompleted, callConnection, act, Prog.perform, Action.isCharged, Action.cost]
  refine .call (.step rfl rfl fun y => ?_)
  split
  · trivial
  · exact .step rfl rfl fun y => .step rfl rfl fun n => hsent.bind (j := 0) fun _ => trivial

/-- The loop of `exiting` costs a packet and two actions a worker. -/
lemma within_postExitPackets (m : ℕ) :
    Within ((packetPrice + 2) * m) (postExitPackets m) := by
  induction m with
  | zero => trivial
  | succ m ih =>
      have hpost : ∀ h : Option Port, Within (packetPrice + 1) (match h with
          | some port => act (.postQueuedCompletionStatus port)
          | none => pure ()) := by
        intro h
        cases h with
        | none => trivial
        | some port => exact ⟨rfl, le_rfl, fun _ => trivial⟩
      have hloop := fun h => (hpost h).bind fun _ => ih
      refine Within.mono (m := (packetPrice + 1 + (packetPrice + 2) * m) + 1)
        (.step rfl rfl fun h => ?_) (by rw [Nat.mul_succ]; omega)
      have hh := hloop h
      cases h with
      | none => exact hh
      | some port => exact hh

lemma follows_run_credit {f : P ℤ} {q : ℕ} (hf : (credits n).Follows f q fun _ q' => 2 ≤ q') :
    (credits n).Follows (run f) q (credits n).Ends :=
  hf.bind fun _ q' hq' => .step (show affords n q' .finish from hq') fun _ => trivial

lemma follows_run_within {f : P ℤ} (hf : Within m f) :
    (credits n).Follows (run f) (m + 2) (credits n).Ends :=
  follows_run_credit ((hf.follows (Nat.le_add_right m 2)).post fun _ _ h => by omega)

/-- `exiting` from where it has posted its packets. -/
lemma within_afterPosts : Within 6 (do
    let _ ← act .waitForWorkers
    let l ← act .getTheSocketContext
    deref l fun l => do
      closeListener l
      let signalled ← act .setExitEvent
      if signalled then return commSuccess else return commExitFailed) := by
  refine .step rfl rfl fun _ => .step rfl rfl fun l => .deref (by decide) fun l =>
    Within.bind (m := 3) (j := 1) ?_ fun _ => ?_
  · simp [closeListener, act, Prog.perform, Action.isCharged, Action.cost]
  · simp [Action.isCharged, Action.cost]

lemma follows_pay {a : Action} {k : a.Res → P α} {q : ℕ} {N : α → ℕ → Prop}
    (ha : a.isCharged = true) (hc : a.cost = 1) (hq : 1 ≤ q)
    (hk : ∀ r, (credits n).Follows (k r) (q - 1) N) :
    (credits n).Follows (Prog.perform a >>= k) q N := by
  have hallowed : affords n q a := by
    cases a <;> first | cases ha; done | exact hc.trans_le hq
  have hnext : ∀ r, remaining n q a r = q - 1 := by
    intro r
    cases a <;> first | cases ha; done | exact congrArg (q - ·) hc
  refine .step hallowed fun r => ?_
  have hr := hk r
  rwa [← hnext r] at hr

lemma follows_exiting :
    (credits n).Follows exiting (13 + (packetPrice + 2) * n) fun _ q' => 4 ≤ q' := by
  refine follows_pay rfl rfl (by omega) fun _ => follows_pay rfl rfl (by omega) fun h => ?_
  refine .step (show (packetPrice + 2) * n + 1 ≤ _ by omega) fun m => ?_
  refine Follows.bind (N := fun _ q' => 10 ≤ q') ?_ fun _ q' hq' => ?_
  · have hposts : Within ((packetPrice + 2) * m)
        (if h.isSome then postExitPackets m else pure ()) := by
      split
      · exact within_postExitPackets m
      · trivial
    refine (hposts.follows (Nat.le_add_left _ _)).post fun _ q' hq' => ?_
    have hnext : remaining n (13 + (packetPrice + 2) * n - 1 - 1) .getNumWorkerThreads m =
        13 + (packetPrice + 2) * n - 1 - 1 - ((packetPrice + 2) * n + 1) +
          (packetPrice + 2) * m := rfl
    have hle : remaining n (13 + (packetPrice + 2) * n - 1 - 1) .getNumWorkerThreads m ≤
        q' + (packetPrice + 2) * m := hq'
    omega
  · exact (within_afterPosts.follows (Nat.le_trans (by decide) hq')).post fun _ q'' h => by omega

/-- `stop` reads the number of workers, and is then within its credit. -/
lemma follows_stop :
    (credits n).Follows stop (14 + (packetPrice + 2) * n) fun _ q' => 2 ≤ q' := by
  refine follows_pay rfl rfl (by omega) fun _ => Follows.bind (N := fun _ q' => 3 ≤ q') ?_
    fun rc q' hq' => follows_pay rfl rfl (by omega) fun _ => ?_
  · have hexiting := follows_exiting (n := n)
    rw [show 13 + (packetPrice + 2) * n = 14 + (packetPrice + 2) * n - 1 by omega] at hexiting
    exact hexiting.bind fun _ q' hq' => follows_pay rfl rfl (by omega) fun _ =>
      (by omega : 3 ≤ q' - 1)
  · exact (by omega : 2 ≤ q' - 1)

/-- **All code keeps to its credit.** -/
theorem code_credit (l : Label) : (credits n).Follows (code l) (l.credit n) (credits n).Ends := by
  cases l with
  | workerThread hIOCP =>
      refine .step trivial fun pkt => Follows.bind
        (((within_turn pkt).follows (by decide : 83 ≤ turnCost)).post
          fun _ q' (h : turnCost ≤ q' + 83) => (by unfold turnCost at h; omega : 2 ≤ q'))
        fun next q' hq' => .step (show affords n q' .finish from hq') fun _ => ?_
      cases next with
      | again => rfl
      | leave => exact .step (le_refl 1) fun _ => trivial
  | startServer => exact follows_run_within within_startServer
  | startClient => exact follows_run_within (within_startClient clientConnection)
  | stop => exact follows_run_credit follows_stop
  | send p data => exact follows_run_within (within_send p data)

end

/-! ## The runs -/

/-- What the packets in the queue are worth. -/
def queuePrice (s : State) : ℕ := packetPrice * (s.queue handlerPort).length

lemma cost_pos (a : Action) : 1 ≤ a.cost := by
  cases a <;> first | exact le_rfl | exact Nat.le_add_left _ _

/-- A packet posted adds its price at most. -/
lemma queuePrice_of_post {t : Tid} {q : Port} {o : Outcome} {s s' : State} {r : Unit}
    (he : exec t (.postQueuedCompletionStatus q) o s = some (r, s')) :
    queuePrice s' ≤ queuePrice s + packetPrice := by
  obtain rfl | rfl := exec_postQueuedCompletionStatus he
  · simp only [queuePrice, State.record, Function.update_apply]
    split
    · rename_i hq
      rw [List.length_append, Nat.mul_add, ← hq]
      exact le_rfl
    · exact Nat.le_add_right _ _
  · exact Nat.le_add_right _ _

/-- Every action is paid for. -/
lemma credits_pays (role : Role) (u : Setup) :
    (credits u.workers).Pays (machine role) (Reachable role u) queuePrice where
  code := code_credit
  act G t a k c r s' q hG hx ha he := by
    have hport := hG.setUp.workersPort
    have hsame : a.isCharged = true → (∀ q, a ≠ .postQueuedCompletionStatus q) →
        remaining u.workers q a r + queuePrice s' + 1 ≤ q + queuePrice G.state := by
      intro hcharged hpost
      have hqueue : s'.queue = G.state.queue := by
        refine (exec_footprint _ he).queue.resolve_right (not_or.mpr ⟨?_, not_exists.mpr hpost⟩)
        rintro ⟨q, rfl⟩
        cases hcharged
      have hnext : remaining u.workers q a r = q - a.cost := by
        cases a <;> first | cases hcharged; done | rfl
      have hcost : a.cost ≤ q := by
        cases a <;> first | cases hcharged; done | exact ha
      have hpos := cost_pos a
      rw [hnext, queuePrice, queuePrice, hqueue]
      omega
    cases a
    case getQueuedCompletionStatus p =>
      obtain ⟨-, hp⟩ := hG.handler.allowed hx
      have hlength := length_of_take he
      rw [hp, hport] at hlength
      show turnCost + packetPrice * _ + 1 ≤ q + packetPrice * _
      rw [hlength, Nat.mul_succ]
      unfold packetPrice
      omega
    case getNumWorkerThreads =>
      cases c <;> cases he
      have hle : (packetPrice + 2) * u.workers + 1 ≤ q := ha
      show q - ((packetPrice + 2) * u.workers + 1) + (packetPrice + 2) * G.state.numWorkerThreads +
        queuePrice G.state + 1 ≤ q + queuePrice G.state
      rw [hG.setUp.workers]
      omega
    case finish =>
      cases c <;> cases he
      have hle : 2 ≤ q := ha
      show 1 + queuePrice G.state + 1 ≤ q + queuePrice G.state
      omega
    case postQueuedCompletionStatus p =>
      have hle : packetPrice + 1 ≤ q := ha
      have hprice := queuePrice_of_post he
      show q - (packetPrice + 1) + queuePrice s' + 1 ≤ q + queuePrice G.state
      omega
    all_goals exact hsame rfl fun _ => nofun

/-- The largest credit of a thread, with `n` workers. -/
def maxCredit (n : ℕ) : ℕ := turnCost + (packetPrice + 2) * n

lemma credit_le (n : ℕ) (l : Label) : l.credit n ≤ maxCredit n := by
  cases l <;> simp only [Label.credit, maxCredit, turnCost] <;> omega

lemma remaining_le {n q : ℕ} {a : Action} {r : a.Res} (ha : affords n q a)
    (hn : a = .getNumWorkerThreads → HEq r n) (hq : q ≤ maxCredit n) :
    remaining n q a r ≤ maxCredit n := by
  cases a
  case getQueuedCompletionStatus p => exact Nat.le_add_right _ _
  case getNumWorkerThreads =>
    obtain rfl : r = n := eq_of_heq (hn rfl)
    have hle : (packetPrice + 2) * r + 1 ≤ q := ha
    exact le_trans (by simp only [remaining]; omega) hq
  case finish => exact le_trans (by decide : 1 ≤ turnCost) (Nat.le_add_right _ _)
  all_goals exact (Nat.sub_le _ _).trans hq

/-- No thread has more credit than that. -/
lemma credits_keeps (role : Role) (u : Setup) :
    (credits u.workers).Keeps (machine role) (Reachable role u)
      fun σ _ => ∀ t, σ t ≤ maxCredit u.workers where
  code := code_credit
  act G t a k c r s' σ hG hx ha he hI v := by
    by_cases hv : v = t
    · subst hv
      rw [Function.update_self]
      refine remaining_le ha ?_ (hI v)
      rintro rfl
      cases c <;> cases he
      exact heq_of_eq hG.setUp.workers
    · rw [Function.update_of_ne hv]
      exact hI v
  env G e s' σ _ _ hI := hI
  enter G t l s' σ _ _ _ hI v := by
    by_cases hv : v = t
    · subst hv
      rw [Function.update_self]
      exact credit_le u.workers l
    · rw [Function.update_of_ne hv]
      exact hI v

/-- Every thread has a credit for the rest of its code. -/
lemma Reachable.credit {role : Role} {u : Setup} {G : Config Action Action.Res State Tid Label}
    (hG : Reachable role u G) : ∃ σ : Tid → ℕ,
      (∀ t, (credits u.workers).OnTrack (G.threads t) (σ t)) ∧
        ∀ t, σ t ≤ maxCredit u.workers := by
  obtain ⟨G₀, h0, hr⟩ := hG
  refine (credits_keeps role u).sound (fun G' hr' => ⟨G₀, h0, hr'⟩) hr
    (onTrack_beginning code_credit h0) fun t => ?_
  obtain ⟨l, hl⟩ := exists_entry (credits u.workers) role t
  exact hl.trans_le (credit_le u.workers l)

lemma runsIn_begins {role : Role} {u : Setup} {G : Config Action Action.Res State Tid Label}
    (h : Begins u role G) : ∃ F, G.RunsIn F := by
  have hinit : ∀ l t, (initThreads u l t).next ≠ none →
      t ∈ insert Tid.main ((Finset.range u.workers).image .worker) := by
    intro l t ht
    cases t with
    | main => exact Finset.mem_insert_self _ _
    | worker i =>
        rw [initThreads_worker] at ht
        split at ht
        · rename_i hi
          exact Finset.mem_insert_of_mem
            (Finset.mem_image_of_mem Tid.worker (Finset.mem_range.mpr hi))
        · exact absurd rfl ht
    | user i => exact absurd rfl ht
  cases h with
  | server => exact ⟨_, hinit .startServer⟩
  | client v hv => exact ⟨_, hinit .startClient⟩

/-- The threads inside the code of the library are finitely many. -/
lemma Reachable.running {role : Role} {u : Setup} {G : Config Action Action.Res State Tid Label}
    (hG : Reachable role u G) :
    ∃ F : Finset Tid, ∀ t, t ∈ F ↔ (G.threads t).isRunning = true := by
  obtain ⟨G₀, h0, hr⟩ := hG
  obtain ⟨F₀, hF₀⟩ := runsIn_begins h0
  exact Machine.exists_running code_begins hr (next_of_begins h0) _ hF₀

/-- What the threads have in credit, and the packets in the queue, bounds what they still do. -/
lemma Reachable.bounded {role : Role} {u : Setup} {G : Config Action Action.Res State Tid Label}
    (hG : Reachable role u G) : ∃ F : Finset Tid,
      (∀ t, t ∈ F ↔ (G.threads t).isRunning = true) ∧
      ∀ es G', (∀ e ∈ es, e.isStep = true) → (machine role).run G es = some G' →
        es.length ≤ F.card * maxCredit u.workers +
          packetPrice * (G.state.queue handlerPort).length := by
  obtain ⟨F, hF⟩ := hG.running
  refine ⟨F, hF, fun es G' hes hrun => ?_⟩
  obtain ⟨σ, hσ, hle⟩ := hG.credit
  have hruns := Config.runsIn_of_running hF
  calc es.length
      ≤ ∑ t ∈ F, σ t + queuePrice G.state :=
        (credits_pays role u).length_le (fun _ hr => hG.trans hr) hruns hσ hes hrun
    _ ≤ F.card * maxCredit u.workers + queuePrice G.state :=
        Nat.add_le_add_right (Finset.sum_le_card_nsmul F σ _ fun t _ => hle t) _

/-- **The handler comes to rest.**  If nobody calls anything and the network is silent, the threads
have no more steps left than their credits and the packets in the queue are worth. -/
theorem comes_to_rest {role : Role} {u : Setup} {G : Config Action Action.Res State Tid Label}
    (hG : Reachable role u G) : ∃ F : Finset Tid,
      (∀ t, t ∈ F ↔ (G.threads t).isRunning = true) ∧
      ∀ es G', (∀ e ∈ es, e.isStep = true) → (machine role).run G es = some G' →
        es.length ≤ F.card * maxCredit u.workers +
          packetPrice * (G.state.queue handlerPort).length := hG.bounded

theorem comes_to_rest_waiting : ∃ G, Reachable .server fullServer G ∧
    G.state.locker.owner = some (.worker 0) ∧ ∃ F : Finset Tid,
      (∀ t, t ∈ F ↔ (G.threads t).isRunning = true) ∧
      ∀ es G', (∀ e ∈ es, e.isStep = true) → (machine .server).run G es = some G' →
        es.length ≤ F.card * maxCredit 2 +
          packetPrice * (G.state.queue handlerPort).length := by
  obtain ⟨G, hG, -, howner⟩ := exists_waiting
  exact ⟨G, hG, howner, comes_to_rest hG⟩

/-! ## Where the runs end -/

end Alpl.Net
