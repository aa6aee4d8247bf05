import Alpl.Handler.Runs
import Alpl.Handler.Passing

/-!
# What the threads do inside `locker_`

A handler enters `locker_` in `create_socket_context` and in `disconnect`, and leaves it in the same
function.  Where a thread stands with respect to the lock and to the callbacks it makes is a
`Region`, and that all code keeps to the regions is a fact about its text alone
(`code_regions`).

Inside the lock a thread neither enters it again nor makes a call that waits, and it starts no
operation; the one callback that runs there is `onDisconnected`.
-/

namespace Alpl.Net

open Interleaving

/-- Where a thread stands with respect to `locker_` and the callbacks. -/
inductive Region
  | outside
  /-- It owns `locker_`. -/
  | inside
  /-- It owns `locker_`, and `onDisconnected` of the user runs. -/
  | telling
  /-- It has called an `onDisconnected` that is empty, which throws. -/
  | lost
  /-- A callback of a connection runs. -/
  | calling
  deriving DecidableEq, Repr

/-- The actions outside the lock that leave a thread there. -/
@[simp] def Action.isPlain : Action → Bool
  | .enterCriticalSection _ => false
  | .leaveCriticalSection => false
  | .newContext _ _ => false
  | .removeContext _ => false
  | .eraseConnection _ => false
  | .invokeHandler _ _ _ => false
  | .invokeConnection _ _ _ _ => false
  | .callbackReturns => false
  | _ => true

/-- The actions inside the lock. -/
@[simp] def Action.isGuarded : Action → Bool
  | .leaveCriticalSection => true
  | .newContext _ _ => true
  | .freeContext _ => true
  | .getSocket _ => true
  | .setSocket _ _ => true
  | .getIoContext _ => true
  | .setSocketAccept _ _ => true
  | .removeContext _ => true
  | .indexConnection _ => true
  | .eraseConnection _ => true
  | .getTheSocketContext => true
  | .sysCall _ => true
  | .closesocket _ => true
  | .invokeHandler k _ _ => k = .onDisconnected
  | .nullDereference => true
  | _ => false

/-- The callbacks that a connection makes. -/
@[simp] def CallbackKind.isData : CallbackKind → Bool
  | .onDataReceived => true
  | .onSentCompleted => true
  | _ => false

/-- What a thread may do in a region. -/
@[simp] def Region.allows : Region → Action → Bool
  | .outside, .enterCriticalSection _ => true
  | .outside, .invokeConnection _ k _ _ => k.isData
  | .outside, a => a.isPlain
  | .inside, a => a.isGuarded
  | .telling, .callbackReturns => true
  | .telling, _ => false
  | .lost, _ => false
  | .calling, .callbackReturns => true
  | .calling, _ => false

/-- The region after an action. -/
@[simp] def Region.next (q : Region) (a : Action) : a.Res → Region :=
  match q, a with
  | .outside, .enterCriticalSection _ => fun entered => if entered then .inside else .outside
  | .outside, .invokeConnection _ _ _ _ => fun isSet => if isSet then .calling else .outside
  | .inside, .leaveCriticalSection => fun _ => .outside
  | .inside, .invokeHandler _ _ _ => fun isSet => if isSet then .telling else .lost
  | .telling, .callbackReturns => fun _ => .inside
  | .calling, .callbackReturns => fun _ => .outside
  | q, _ => fun _ => q

/-- How often a thread in this region has entered the lock. -/
def Region.held : Region → ℕ
  | .outside => 0
  | .inside => 1
  | .telling => 1
  | .lost => 1
  | .calling => 0

/-- The automaton of the regions. -/
def regions : Typestate Action Action.Res Label Region where
  allowed q a := q.allows a = true
  next := Region.next
  entry _ := .outside

/-! ## All code keeps to the regions -/

section

open Typestate

@[simp] lemma regions_allowed (q : Region) (a : Action) :
    regions.allowed q a ↔ q.allows a = true := Iff.rfl

@[simp] lemma regions_next (q : Region) (a : Action) (r : a.Res) :
    regions.next q a r = q.next a r := rfl

lemma regions_plain (a : Action) (ha : a.isPlain = true) :
    regions.allowed .outside a ∧ ∀ r, regions.next .outside a r = .outside := by
  cases a <;> simp_all [Action.isPlain]

variable {α β : Type}

/-- A program of plain actions. -/
def Plain (p : P α) : Prop := Every (fun a => a.isPlain = true) p

lemma Plain.stays {p : P α} (hp : Plain p) : regions.Stays p .outside :=
  Every.stays hp regions_plain

/-- One plain action, then the rest. -/
lemma follows_plain {a : Action} {k : a.Res → P α} {N : α → Region → Prop}
    (ha : a.isPlain = true) (hk : ∀ r, regions.Follows (k r) .outside N) :
    regions.Follows (Prog.perform a >>= k) .outside N := by
  obtain ⟨hallowed, hnext⟩ := regions_plain a ha
  exact .step hallowed fun r => (hnext r).symm ▸ hk r

lemma outside_deref {p : Option ℕ} {k : ℕ → P α} (hk : ∀ c, regions.Stays (k c) .outside) :
    regions.Stays (deref p k) .outside :=
  follows_deref rfl hk

lemma outside_call {f : Frame} {body : P ℤ} (hbody : regions.Stays body .outside) :
    regions.Stays (call f body) .outside :=
  follows_plain rfl fun _ => hbody.bind fun _ => follows_plain rfl fun _ => rfl

/-! ### The two functions that enter the lock -/

lemma inside_setLinger (c : ContextPtr) (g : Bool) : regions.Stays (setLinger c g) .inside := by
  cases g <;> simp [Stays, setLinger, Action.isGuarded]

lemma inside_closeSocketAccept (c : ContextPtr) :
    regions.Stays (closeSocketAccept c) .inside := by
  simp [Stays, closeSocketAccept, Action.isGuarded]

lemma inside_disconnectClient (c : ContextPtr) (g : Bool) :
    regions.Stays (disconnectClient c g) .inside := by
  refine (inside_setLinger c g).bind fun _ => (inside_closeSocketAccept c).bind fun _ => ?_
  simp [callHandler, Action.isGuarded]

lemma outside_disconnectLocked (c : Option ContextPtr) (g : Bool) :
    regions.Follows (disconnectLocked c g) .inside fun _ q => q = .outside := by
  cases c with
  | none => exact .step rfl fun _ => rfl
  | some c =>
      refine .step rfl fun l => follows_deref rfl fun l => .step rfl fun v => .step rfl fun w => ?_
      have hbody : regions.Stays (if v = w then pure () else disconnectClient c g) .inside := by
        split
        · rfl
        · exact inside_disconnectClient c g
      exact hbody.bind fun _ => .step rfl fun _ => rfl

lemma outside_disconnect (c : Option ContextPtr) (g : Bool) :
    regions.Stays (disconnect c g) .outside := by
  refine outside_call (.step rfl fun entered => ?_)
  cases entered with
  | false => rfl
  | true => exact outside_disconnectLocked c g

lemma outside_createSocketContext (sd : SOCKET) (op : LastIoOperation) :
    regions.Stays (createSocketContext sd op) .outside := by
  refine .step rfl fun _ => .step rfl fun entered => ?_
  cases entered with
  | false => exact .step rfl fun _ => rfl
  | true => exact .step rfl fun c => .step rfl fun _ => .step rfl fun _ => rfl

lemma outside_updateCompletionPort (sd : SOCKET) (op : LastIoOperation) (add : Bool) :
    regions.Stays (updateCompletionPort sd op add) .outside := by
  refine (outside_createSocketContext sd op).bind fun c => ?_
  cases c with
  | none => rfl
  | some c =>
      refine .step rfl fun _ => .step rfl fun _ => .step rfl fun _ => .step rfl fun h => ?_
      cases h with
      | none => exact .step rfl fun _ => rfl
      | some port => cases add <;> simp [Action.isPlain]

/-! ### The handlers -/

lemma outside_callConnection (q : ConnectionPtr) {k : CallbackKind} (p : Option ConnectionPtr)
    (data : List UInt8) (hk : k.isData = true) :
    regions.Stays (callConnection q k p data) .outside := by
  refine .step hk fun isSet => ?_
  cases isSet with
  | false => trivial
  | true => exact .step rfl fun _ => rfl

lemma outside_deliver (p : ConnectionPtr) (c : ContextPtr) (n : ℕ) :
    regions.Stays (deliver p c n) .outside := by
  refine .step rfl fun y => ?_
  split
  · exact .step rfl fun io => outside_callConnection p _ _ rfl
  · rfl

lemma outside_received (c : ContextPtr) (r : CallResult) :
    regions.Stays (if r.failed then disconnect (some c) false >>= fun _ => pure commSuccess
      else pure commSuccess) .outside := by
  split
  · exact (outside_disconnect (some c) false).bind fun _ => rfl
  · rfl

lemma outside_firstReceive (n : ContextPtr) : regions.Stays (firstReceive n) .outside :=
  follows_plain rfl fun _ => follows_plain rfl fun _ => follows_plain rfl fun r =>
    outside_received n r

lemma outside_handleNewConnection (c n : ContextPtr) (arg : IocpParam) :
    regions.Stays (handleNewConnection c n arg) .outside := by
  refine outside_call (follows_plain rfl fun v => follows_plain rfl fun port =>
    follows_plain rfl fun hs => follows_plain rfl fun p => follows_plain rfl fun _ =>
    Stays.bind ?_ fun _ => outside_firstReceive n)
  split
  · exact outside_deliver p c arg.ioSize
  · rfl

lemma outside_newContext (c : ContextPtr) (arg : IocpParam) (sd : SOCKET) :
    regions.Stays (updateCompletionPort sd .ioConnect true >>= fun n => match n with
      | none => pure commConnectFailed
      | some n => handleNewConnection c n arg >>= fun _ => pure commSuccess) .outside := by
  refine (outside_updateCompletionPort sd .ioConnect true).bind fun n => ?_
  cases n with
  | none => rfl
  | some n => exact (outside_handleNewConnection c n arg).bind fun _ => rfl

lemma outside_handleAccept (c : ContextPtr) (arg : IocpParam) :
    regions.Stays (handleAccept c arg) .outside := by
  refine follows_plain rfl fun io => follows_plain rfl fun l => outside_deref fun l =>
    follows_plain rfl fun v => follows_plain rfl fun updated => ?_
  cases updated with
  | false => rfl
  | true => exact follows_plain rfl fun io => outside_newContext c arg io.socketAccept

lemma outside_handleConnect (c : ContextPtr) (arg : IocpParam) :
    regions.Stays (handleConnect c arg) .outside := by
  refine follows_plain rfl fun v => follows_plain rfl fun l => outside_deref fun l =>
    follows_plain rfl fun w => follows_plain rfl fun updated => ?_
  cases updated with
  | false => rfl
  | true => exact follows_plain rfl fun v => outside_newContext c arg v

lemma plain_createTcpSocket : Plain createTcpSocket := by
  simp [Plain, createTcpSocket, Action.isPlain]

lemma outside_startAccept : regions.Stays startAccept .outside := by
  refine outside_call (follows_plain rfl fun l => outside_deref fun l =>
    plain_createTcpSocket.stays.bind fun v => Plain.stays ?_)
  simp [Plain, Action.isPlain]

lemma outside_startReceive (c : ContextPtr) (arg : IocpParam) :
    regions.Stays (startReceive c arg) .outside := by
  refine follows_plain rfl fun _ => follows_plain rfl fun v => follows_plain rfl fun r => ?_
  split
  · exact follows_plain rfl fun _ => (outside_disconnect (some c) false).bind fun _ => rfl
  · rfl

lemma outside_deliverReceived (c : ContextPtr) (arg : IocpParam) :
    regions.Stays (deliverReceived c arg) .outside := by
  refine follows_plain rfl fun v => follows_plain rfl fun n => ?_
  split
  · exact follows_plain rfl fun v => follows_plain rfl fun p => outside_deref fun p =>
      outside_deliver p c arg.ioSize
  · exact follows_plain rfl fun _ => follows_plain rfl fun _ => rfl

lemma outside_handleReceive (c : ContextPtr) (arg : IocpParam) :
    regions.Stays (handleReceive c arg) .outside :=
  outside_call ((outside_deliverReceived c arg).bind fun _ => outside_startReceive c arg)

lemma outside_handleSend (c : ContextPtr) (arg : IocpParam) :
    regions.Stays (handleSend c arg) .outside := by
  refine follows_plain rfl fun _ => follows_plain rfl fun io => follows_plain rfl fun _ =>
    follows_plain rfl fun io => ?_
  split
  · exact follows_plain rfl fun v => follows_plain rfl fun r => outside_received c r
  · exact follows_plain rfl fun _ => follows_plain rfl fun _ => rfl

lemma outside_switch (c : ContextPtr) (arg : IocpParam) :
    regions.Stays (switch c arg) .outside := by
  have hagain : regions.Stays (pure .again : P Turn) .outside := rfl
  refine follows_plain rfl fun io => ?_
  split
  · exact Passes.alplAssert (outside_handleAccept c arg)
      (Passes.alplAssert outside_startAccept hagain)
  · exact Passes.alplAssert (outside_handleConnect c arg)
      (Passes.alplAssert (outside_startReceive c arg) hagain)
  · exact Passes.alplAssert (outside_handleReceive c arg) hagain
  · exact Passes.alplAssert (outside_handleSend c arg) hagain

lemma outside_turn (pkt : Packet) : regions.Stays (turn pkt) .outside := by
  refine follows_plain rfl fun exiting => ?_
  cases exiting with
  | true => rfl
  | false =>
      refine follows_plain rfl fun isRunning => ?_
      cases isRunning with
      | false => rfl
      | true =>
          refine outside_deref fun o => follows_plain rfl fun io => ?_
          split
          · exact (outside_disconnect pkt.key false).bind fun _ => rfl
          · exact outside_deref fun c => outside_switch c _

/-! ### The owners and their users -/

lemma plain_postExitPackets (n : ℕ) : Plain (postExitPackets n) := by
  induction n with
  | zero => trivial
  | succ n ih =>
      refine .step rfl fun h => ?_
      cases h with
      | none => exact ih
      | some port => exact .step rfl fun _ => ih

lemma outside_exiting : regions.Stays exiting .outside := by
  refine follows_plain rfl fun _ => follows_plain rfl fun h => follows_plain rfl fun n =>
    Stays.bind ?_ fun _ => follows_plain rfl fun _ => follows_plain rfl fun l =>
    outside_deref fun l => Plain.stays ?_
  · split
    · exact (plain_postExitPackets n).stays
    · rfl
  · refine Every.bind ?_ fun _ => ?_
    · simp [closeListener, Action.isPlain]
    · simp [Action.isPlain]

lemma plain_createListener {n : ℕ} : Plain (createListener n) := by
  refine .step rfl fun resolved => ?_
  cases resolved with
  | false => trivial
  | true =>
      apply Every.bind plain_createTcpSocket
      simp [Action.isPlain]

lemma outside_initAccept (ls : SOCKET) : regions.Stays (initAccept ls) .outside := by
  refine (outside_updateCompletionPort ls .ioAccept false).bind fun l =>
    follows_plain rfl fun _ => ?_
  cases l with
  | none => rfl
  | some l =>
      refine follows_plain rfl fun loaded => ?_
      cases loaded with
      | false => rfl
      | true => exact outside_startAccept.bind fun rc => by split <;> rfl

lemma outside_startServer : regions.Stays startServer .outside := by
  refine outside_call (plain_createListener.stays.bind fun r => ?_)
  split
  · rfl
  · exact (outside_initAccept r.2).bind fun rc => by split <;> rfl

lemma outside_stop : regions.Stays stop .outside :=
  outside_call (outside_exiting.bind fun _ => follows_plain rfl fun _ => rfl)

lemma outside_initReceive (v : SOCKET) : regions.Stays (initReceive v) .outside :=
  (outside_updateCompletionPort v .ioReceive true).bind fun _ => follows_plain rfl fun _ =>
    outside_deref fun l => follows_plain rfl fun _ => follows_plain rfl fun _ =>
    follows_plain rfl fun r => outside_received l r

lemma outside_startClient (p : ConnectionPtr) : regions.Stays (startClient p) .outside :=
  outside_call (follows_plain rfl fun y => (outside_initReceive y.socket).bind fun _ => by
    split <;> rfl)

lemma outside_send (p : ConnectionPtr) (data : List UInt8) :
    regions.Stays (send p data) .outside := by
  refine outside_call (follows_plain rfl fun y => ?_)
  split
  · rfl
  · refine follows_plain rfl fun y => follows_plain rfl fun n => Stays.bind ?_ fun _ => rfl
    refine follows_plain rfl fun y => ?_
    split
    · exact outside_callConnection p _ _ rfl
    · rfl

lemma follows_outside_run {f : P ℤ} (hf : regions.Stays f .outside) :
    regions.Follows (run f) .outside regions.Ends :=
  hf.bind fun _ => follows_plain rfl fun _ => trivial

/-- **All code keeps to the regions.** -/
theorem code_regions (l : Label) : regions.Follows (code l) .outside regions.Ends := by
  cases l with
  | workerThread hIOCP =>
      refine follows_plain rfl fun pkt => (outside_turn pkt).bind fun next =>
        follows_plain rfl fun _ => ?_
      cases next with
      | again => rfl
      | leave => exact follows_plain rfl fun _ => trivial
  | startServer => exact follows_outside_run outside_startServer
  | startClient => exact follows_outside_run (outside_startClient clientConnection)
  | stop => exact follows_outside_run outside_stop
  | send p data => exact follows_outside_run (outside_send p data)

end

/-! ## The regions along a run -/

/-- What the state shows of a thread in a region. -/
structure Region.Shows (q : Region) (t : Tid) (s : State) : Prop where
  held : s.locker.heldBy t = q.held
  telling : q = .telling → ∃ p fs, s.stack t = .callback .onDisconnected p :: fs
  calling : q = .calling → ∃ k p fs, k.isData = true ∧ s.stack t = .callback k p :: fs

namespace Region

variable {q : Region} {t u : Tid} {a : Action} {o : Outcome} {s s' : State} {r : a.Res}

lemma held_next (ha : q.allows a = true) (henter : ∀ f, a ≠ .enterCriticalSection f)
    (hleave : a ≠ .leaveCriticalSection) : (q.next a r).held = q.held := by
  cases q <;> cases a <;> simp_all [Action.isPlain, Action.isGuarded] <;>
    first | rfl | (split <;> rfl)

lemma next_eq_telling (ha : q.allows a = true) (h : q.next a r = .telling) :
    ∃ p data, a = .invokeHandler .onDisconnected p data ∧ HEq r true := by
  cases q <;> cases a <;> simp_all [Action.isPlain, Action.isGuarded] <;> split at h <;> cases h

lemma next_eq_calling (ha : q.allows a = true) (h : q.next a r = .calling) :
    ∃ c k p data, a = .invokeConnection c k p data ∧ k.isData = true ∧ HEq r true := by
  cases q <;> cases a <;> simp_all [Action.isPlain, Action.isGuarded] <;> split at h <;> cases h

/-- A callback that is set is on the stack from its call on. -/
lemma stack_of_invoke {k : CallbackKind} {p : Option ConnectionPtr} {data : List UInt8} {b : Bool}
    (h : exec.invoke t k p data b s = (true, s')) : s'.stack t = .callback k p :: s.stack t := by
  unfold exec.invoke at h
  split at h <;> cases h
  exact Function.update_self _ _ _

lemma Shows.other (h : q.Shows u s) (he : Effect t a s s') (hu : u ≠ t) : q.Shows u s' :=
  ⟨(he.held u hu).trans h.held, fun hq => (he.stack u hu) ▸ h.telling hq,
    fun hq => (he.stack u hu) ▸ h.calling hq⟩

/-- A thread counts its own entries right. -/
lemma Shows.held_act (h : q.Shows t s) (ha : q.allows a = true)
    (he : exec t a o s = some (r, s')) : s'.locker.heldBy t = (q.next a r).held := by
  by_cases henter : ∃ f, a = .enterCriticalSection f
  · obtain ⟨f, rfl⟩ := henter
    obtain rfl : q = .outside := by cases q <;> simp_all [Action.isGuarded]
    obtain ⟨hr, cs, hcs, rfl⟩ | ⟨hr, rfl⟩ := exec_enterCriticalSection he
    · obtain rfl : r = true := hr
      exact (CriticalSection.heldBy_enter hcs).trans (congrArg (· + 1) h.held)
    · obtain rfl : r = false := hr
      exact h.held
  by_cases hleave : a = .leaveCriticalSection
  · subst hleave
    obtain rfl : q = .inside := by cases q <;> simp_all [Action.isPlain]
    obtain ⟨cs, hcs, rfl⟩ := exec_leaveCriticalSection he
    exact (CriticalSection.heldBy_leave hcs).trans (congrArg (· - 1) h.held)
  · rw [held_next ha (fun f hf => henter ⟨f, hf⟩) hleave, ← h.held]
    have hE := exec_effect _ he
    exact hE.ownHeld.resolve_right (not_or.mpr ⟨henter, fun hc => hleave hc.1⟩)

lemma Shows.act (h : q.Shows t s) (ha : q.allows a = true)
    (he : exec t a o s = some (r, s')) : (q.next a r).Shows t s' := by
  refine ⟨h.held_act ha he, fun hq => ?_, fun hq => ?_⟩
  · obtain ⟨p, data, rfl, hr⟩ := next_eq_telling ha hq
    obtain rfl := eq_of_heq hr
    cases o <;> first
      | exact ⟨p, s.stack t, stack_of_invoke (Option.some.inj he)⟩
      | cases he
  · obtain ⟨c, k, p, data, rfl, hk, hr⟩ := next_eq_calling ha hq
    obtain rfl := eq_of_heq hr
    obtain ⟨y, hy, hs⟩ := exec_invokeConnection he
    exact ⟨k, p, s.stack t, hk, stack_of_invoke hs⟩

end Region

/-- Every thread is in the region the state shows. -/
structure Located (σ : Tid → Region) (s : State) : Prop where
  shows : ∀ t, (σ t).Shows t s
  entered : s.locker.Entered
  lost : ∀ t k, .emptyCall t k ∈ s.history → σ t = .lost

lemma exec_locker {t : Tid} {a : Action} {o : Outcome} {s : State}
    (henter : ∀ f, a ≠ .enterCriticalSection f) (hleave : a ≠ .leaveCriticalSection) :
    ∀ rs ∈ exec t a o s, rs.2.locker = s.locker := by
  unfold exec exec.acceptEx exec.post exec.invoke
  split
  all_goals first
    | exact absurd rfl (henter _)
    | exact absurd rfl hleave
    | skip
  all_goals try split
  all_goals try split
  all_goals simp only [Option.mem_def, Option.map_eq_some_iff, Option.some.injEq, reduceCtorEq,
    IsEmpty.forall_iff, implies_true, forall_exists_index, and_imp, forall_eq',
    forall_apply_eq_imp_iff₂]
  all_goals intros
  all_goals try split
  all_goals rfl

lemma entered_of_exec {t : Tid} {a : Action} {o : Outcome} {s s' : State} {r : a.Res}
    (he : exec t a o s = some (r, s')) (h : s.locker.Entered) : s'.locker.Entered := by
  by_cases henter : ∃ f, a = .enterCriticalSection f
  · obtain ⟨f, rfl⟩ := henter
    obtain ⟨-, cs, hcs, rfl⟩ | ⟨-, rfl⟩ := exec_enterCriticalSection he
    · exact CriticalSection.entered_enter hcs
    · exact h
  by_cases hleave : a = .leaveCriticalSection
  · subst hleave
    obtain ⟨cs, hcs, rfl⟩ := exec_leaveCriticalSection he
    exact CriticalSection.entered_leave hcs
  · rw [exec_locker (not_exists.mp henter) hleave _ he]
    exact h

/-- The call of an empty callback is that of `onDisconnected`, and the thread is lost. -/
lemma lost_of_emptyCall {q : Region} {t v : Tid} {a : Action} {o : Outcome} {s s' : State}
    {r : a.Res} {k : CallbackKind} (hA : Handler.Allowed t a s) (ha : q.allows a = true)
    (he : exec t a o s = some (r, s')) (hρ : Record.IsOf t s a (.emptyCall v k)) :
    q.next a r = .lost := by
  cases hρ with
  | emptyHandler k p data hs =>
      obtain rfl : q = .inside := by cases q <;> simp_all [Action.isPlain]
      have hinvoke : exec.invoke t k p data (s.handlers.isSet k) s = (r, s') := by
        cases o <;> first
          | exact Option.some.inj he
          | cases he
      rw [exec.invoke, if_neg hs] at hinvoke
      cases hinvoke
      rfl
  | emptyConnection c k p data y hy hs =>
      obtain ⟨z, hz, hset⟩ := hA
      rw [hy] at hz
      cases hz
      exact absurd hset hs

lemma located_keeps (role : Role) (u : Setup) :
    regions.Keeps (machine role) (Reachable role u) Located where
  code := code_regions
  act G t a k c r s' σ hG hx ha he hI := by
    have hE := exec_effect _ he
    refine ⟨fun v => ?_, entered_of_exec he hI.entered, fun v k hmem => ?_⟩
    · by_cases hv : v = t
      · subst hv
        rw [Function.update_self]
        exact (hI.shows v).act ha he
      · rw [Function.update_of_ne hv]
        exact (hI.shows v).other hE hv
    · have hold : .emptyCall v k ∈ G.state.history →
          Function.update σ t ((σ t).next a r) v = .lost := by
        intro h
        have hlost := hI.lost v k h
        have hv : v ≠ t := by
          rintro rfl
          rw [regions_allowed, hlost] at ha
          cases ha
        rwa [Function.update_of_ne hv]
      rcases hE.history with h | ⟨ρ, hρ, h⟩
      · exact hold (h ▸ hmem)
      · rw [h] at hmem
        rcases List.mem_cons.mp hmem with rfl | hmem
        · obtain rfl : v = t := by cases hρ <;> rfl
          rw [Function.update_self]
          exact lost_of_emptyCall (hG.handler.allowed hx) ha he hρ
        · exact hold hmem
  env G e s' σ _ he hI := by
    have h := undisturbed_osStep he
    refine ⟨fun t => ⟨?_, fun hq => ?_, fun hq => ?_⟩, h.locker ▸ hI.entered, fun t k hmem => ?_⟩
    · rw [h.locker]
      exact (hI.shows t).held
    · rw [h.stack]
      exact (hI.shows t).telling hq
    · rw [h.stack]
      exact (hI.shows t).calling hq
    · exact hI.lost t k (h.history ▸ hmem)
  enter G t l s' σ hG hx he hI := by
    obtain rfl := enter_eq he
    have hidle := hG.handler.threads t
    rw [hx] at hidle
    refine ⟨fun v => ?_, hI.entered, fun v k hmem => ?_⟩
    · by_cases hv : v = t
      · subst hv
        rw [Function.update_self]
        exact ⟨hidle.held, nofun, nofun⟩
      · rw [Function.update_of_ne hv]
        exact hI.shows v
    · have hlost := hI.lost v k hmem
      by_cases hv : v = t
      · subst hv
        have hheld := (hI.shows v).held
        rw [hidle.held, hlost] at hheld
        cases hheld
      · rwa [Function.update_of_ne hv]

/-- **In every run each thread keeps to its regions**, as the lock and its stack show. -/
theorem Reachable.located {role : Role} {u : Setup} {G : Config Action Action.Res State Tid Label}
    (hG : Reachable role u G) :
    ∃ σ, (∀ t, regions.OnTrack (G.threads t) (σ t)) ∧ Located σ G.state := by
  obtain ⟨G₀, h0, hr⟩ := hG
  refine (located_keeps role u).sound (fun G' hr' => ⟨G₀, h0, hr'⟩) hr
    (onTrack_beginning code_regions h0) ⟨fun t => ?_, ?_, fun t k => ?_⟩
  · have hout : beginning regions role t = .outside := by cases t <;> rfl
    rw [hout]
    cases h0 <;> exact ⟨CriticalSection.heldBy_free t, nofun, nofun⟩
  · cases h0 <;> exact CriticalSection.entered_free
  · cases h0 <;> nofun

end Alpl.Net
