import Alpl.Handler.Effect

/-!
# The contract of every handler, and its rules

`Handler.contract` puts the invariant and the relies of `Handler/Contract.lean` together.  The
assertions of a thread have one form: how often it is inside `locker_`, which functions it is in,
and a condition that lasts (`At`).  Most actions are *silent*: they concern neither, and a program
made of silent actions alone needs no proof of its own.
-/

namespace Alpl.Net

open Interleaving

/-- The actions that any thread may perform at any time and that move neither its frames nor its
lock. -/
def Action.silent : Action → Bool
  | .enterCriticalSection _ => false
  | .leaveCriticalSection => false
  | .newConnection _ => false
  | .setIocpHandle _ => false
  | .createIoCompletionPort _ _ _ => false
  | .getQueuedCompletionStatus _ => false
  | .postQueuedCompletionStatus _ => false
  | .invokeHandler _ _ _ => false
  | .invokeConnection _ _ _ _ => false
  | .callbackReturns => false
  | .enter _ => false
  | .leave _ _ => false
  | .finish => false
  | _ => true

/-- A program of silent actions that does not throw. -/
def Quiet {α : Type} : P α → Prop
  | .ret _ => True
  | .throw => False
  | .act a k => a.silent = true ∧ ∀ r, Quiet (k r)

@[simp] lemma quiet_ret {α : Type} (x : α) : Quiet (.ret x : P α) := trivial

@[simp] lemma quiet_act {α : Type} (a : Action) (k : a.Res → P α) :
    Quiet (.act a k) ↔ a.silent = true ∧ ∀ r, Quiet (k r) := Iff.rfl

@[simp] lemma quiet_ite {α : Type} (φ : Prop) [Decidable φ] (p q : P α) :
    Quiet (if φ then p else q) ↔ (φ → Quiet p) ∧ (¬ φ → Quiet q) := by
  by_cases h : φ <;> simp [h]

lemma Quiet.bind {α β : Type} {p : P α} {f : α → P β} (hp : Quiet p) (hf : ∀ x, Quiet (f x)) :
    Quiet (p >>= f) := by
  induction p with
  | ret x => exact hf x
  | throw => exact hp.elim
  | act a k ih => exact ⟨hp.1, fun r => ih r (hp.2 r)⟩

namespace Handler

/-- Thread `t` is inside `locker_` this often and inside these functions, and `Φ` holds. -/
structure At (t : Tid) (n : ℕ) (fs : List Frame) (Φ : State → Prop) (s : State) : Prop where
  held : s.locker.heldBy t = n
  stack : s.stack t = fs
  fact : Φ s

/-- An assertion of thread `t` that the others cannot make false, and `t` itself only by entering
`Send`. -/
structure Lasts (t : Tid) (Φ : State → Prop) : Prop where
  steady : ∀ s s', Steady t s s' → Φ s → Φ s'
  own : ∀ a s s', (∀ p, a ≠ .enter (.send p)) → Effect t a s s' → Inv s → Φ s → Φ s'

lemma Lasts.of_lasting {t : Tid} {Φ : State → Prop} (h : Lasting Φ) : Lasts t Φ :=
  ⟨fun s s' hR => h s s' hR.toOnward, fun _ s s' _ he hI => h s s' (he.onward hI)⟩

lemma Lasts.and {t : Tid} {Φ Ψ : State → Prop} (hΦ : Lasts t Φ) (hΨ : Lasts t Ψ) :
    Lasts t fun s => Φ s ∧ Ψ s :=
  ⟨fun s s' hR h => ⟨hΦ.steady s s' hR h.1, hΨ.steady s s' hR h.2⟩,
    fun a s s' ha he hI h => ⟨hΦ.own a s s' ha he hI h.1, hΨ.own a s s' ha he hI h.2⟩⟩

/-- A worker waits on the port it was given, which is the one `init_handler` created. -/
def WaitsOn (l : Label) (s : State) : Prop := ∀ q, l = .workerThread q → q = s.workersPort

lemma lasting_waitsOn (l : Label) : Lasting (WaitsOn l) := fun _ _ hO h q hq =>
  (h q hq).trans hO.workersPort.symm

/-- The assertions of the contract. -/
def contract : Contract State Tid Label Action where
  Known _ := True
  Inv := Inv
  Rely := Steady
  Guar _ := Onward
  Allowed := Allowed
  Idle t := At t 0 [] fun _ => True
  Entry t l := At t 0 [] (WaitsOn l)
  Died _ s := s.handlers.onDisconnected = false

/-- Surroundings that leave the members of the handler, the objects and the run alone. -/
structure Undisturbed (s s' : State) : Prop where
  handlers : s'.handlers = s.handlers
  exiting : s'.exiting = s.exiting
  isRunning : s'.isRunning = s.isRunning
  workers : s'.numWorkerThreads = s.numWorkerThreads
  locker : s'.locker = s.locker
  iocpHandle : s'.iocpHandle = s.iocpHandle
  workersPort : s'.workersPort = s.workersPort
  tcpConnections : s'.tcpConnections = s.tcpConnections
  nextConnection : s'.nextConnection = s.nextConnection
  assoc : ∀ k, (s'.sockets k).assoc = (s.sockets k).assoc
  stack : s'.stack = s.stack
  history : s'.history = s.history

lemma Undisturbed.onward {s s' : State} (h : Undisturbed s s') : Onward s s' where
  handlers := h.handlers
  isRunning := h.isRunning
  workersPort := h.workersPort
  workers := h.workers
  exiting he := by rw [h.exiting, he]
  objects p y hp := by rw [h.tcpConnections, hp]
  history := by
    simp only [h.history, List.suffix_refl]

lemma Undisturbed.steady {s s' : State} (h : Undisturbed s s') (t : Tid) : Steady t s s' where
  toOnward := h.onward
  held := by rw [h.locker]
  stack := by rw [h.stack]
  records := ⟨[], h.history, fun _ hr => absurd hr List.not_mem_nil⟩

lemma Undisturbed.inv {s s' : State} (h : Undisturbed s s') (hI : Inv s) : Inv s' where
  unnamed := by
    rw [h.tcpConnections, h.nextConnection]
    exact hI.unnamed
  objects := by
    rw [h.tcpConnections, h.handlers]
    exact hI.objects
  port := by
    refine hI.port.imp (fun hf => lasting_associationFailed s s' h.onward hf) fun hp => ?_
    refine ⟨?_, fun k q c hq => ?_, fun t q ok hq => ?_⟩ <;> rw [h.workersPort]
    · rw [h.iocpHandle, hp.handle]
    · exact hp.assoc k q c (h.assoc k ▸ hq)
    · exact hp.posted t q ok (h.history ▸ hq)
  emptyCall := by
    rw [h.history, h.handlers]
    exact hI.emptyCall
  sent := by
    rw [h.history]
    exact hI.sent
  lock := by
    rw [h.locker, h.stack]
    exact hI.lock

variable {E : Type} {env : E → State → Option State} {enter : Tid → Label → State → Option State}
variable {t : Tid} {n : ℕ} {fs : List Frame} {Φ : State → Prop} {α β : Type}

lemma stable_at (hΦ : Lasts t Φ) : contract.Stable t (At t n fs Φ) :=
  fun s s' _ _ hR h => ⟨hR.held.trans h.held, hR.stack.trans h.stack, hΦ.steady s s' hR h.fact⟩

lemma guarantee {a : Action} {o : Outcome} {s s' : State} {r : a.Res} (hI : contract.Ok s)
    (hA : Allowed t a s) (he : exec t a o s = some (r, s')) :
    contract.Guarantee (some t) s s' where
  inv := (exec_effect _ he).inv hI.inv hA
  rely _ hu := (exec_effect _ he).steady hI.inv fun h => hu (congrArg some h.symm)
  guar := (exec_effect _ he).onward hI.inv

/-- One action: it has to be allowed, and to lead to what is asserted next. -/
lemma atomic {a : Action} {P : State → Prop} {N : a.Res → State → Prop}
    (hN : ∀ r, contract.Stable t (N r)) (hA : ∀ s, Inv s → P s → Allowed t a s)
    (hstep : ∀ s o r s', Inv s → P s → exec t a o s = some (r, s') → Effect t a s s' → N r s') :
    contract.Atomic (handlerMachine env enter) t P a N where
  stable := hN
  allowed s hI := hA s hI.inv
  step s o r s' hI hP he _ :=
    ⟨guarantee hI (hA s hI.inv hP) he, hstep s o r s' hI.inv hP he (exec_effect _ he)⟩

/-! ## Silent actions -/

lemma allowed_of_silent {a : Action} (ha : a.silent = true) (s : State) : Allowed t a s := by
  cases a <;> trivial

lemma silent_stays {a : Action} {s s' : State} (ha : a.silent = true) (h : Effect t a s s') :
    s'.locker.heldBy t = s.locker.heldBy t ∧ s'.stack t = s.stack t := by
  constructor
  · rcases h.ownHeld with he | ⟨f, rfl⟩ | ⟨rfl, -⟩
    · exact he
    · cases ha
    · cases ha
  · rcases h.ownStack with he | ⟨hp, -⟩ | ⟨rfl, -⟩ | hc
    · exact he
    · cases a <;> simp_all [Action.pushes, Action.silent]
    · cases ha
    · cases a <;> simp_all [Action.clears, Action.silent]

/-- A silent action of whose answer something is known. -/
lemma silent {a : Action} (ha : a.silent = true) (Ψ : a.Res → State → Prop)
    (hΨ : ∀ r, Lasts t (Ψ r))
    (h : ∀ s o r s', Inv s → Φ s → exec t a o s = some (r, s') → Effect t a s s' → Ψ r s') :
    contract.Atomic (handlerMachine env enter) t (At t n fs Φ) a fun r => At t n fs (Ψ r) := by
  refine atomic (fun r => stable_at (hΨ r)) (fun s _ _ => allowed_of_silent ha s) ?_
  intro s o r s' hI hP he heff
  obtain ⟨hheld, hstack⟩ := silent_stays ha heff
  exact ⟨hheld.trans hP.held, hstack.trans hP.stack, h s o r s' hI hP.fact he heff⟩

/-- A silent action of whose answer nothing is used. -/
lemma skip {a : Action} (ha : a.silent = true) (hΦ : Lasts t Φ) :
    contract.Atomic (handlerMachine env enter) t (At t n fs Φ) a fun _ => At t n fs Φ :=
  silent ha (fun _ => Φ) (fun _ => hΦ) fun s _ _ s' hI hs _ he =>
    hΦ.own a s s' (by rintro p rfl; cases ha) he hI hs

/-- A quiet program leaves everything asserted as it was. -/
lemma quiet {p : P α} (hp : Quiet p) (hΦ : Lasts t Φ) :
    contract.Safe (handlerMachine env enter) t p (At t n fs Φ) fun _ => At t n fs Φ := by
  induction p with
  | ret x => exact fun _ _ h => h
  | throw => exact hp.elim
  | act a k ih => exact ⟨fun _ => At t n fs Φ, skip hp.1 hΦ, fun r => ih r (hp.2 r)⟩

/-! ## Functions and callbacks -/

lemma atomic_enter {f : Frame} (hf : ∀ p, f ≠ .send p) (hΦ : Lasts t Φ) :
    contract.Atomic (handlerMachine env enter) t (At t n fs Φ) (.enter f)
      fun _ => At t n (f :: fs) Φ := by
  refine atomic (fun _ => stable_at hΦ) (fun _ _ _ => trivial) ?_
  intro s o r s' hI hP he heff
  cases o <;> cases he
  refine ⟨hP.held, ?_, hΦ.own _ _ _ (fun p hp => hf p (Action.enter.inj hp)) heff hI hP.fact⟩
  rw [← hP.stack]
  exact Function.update_self _ _ _

lemma atomic_leave (f : Frame) (rc : ℤ) (hf : ∀ p, f ≠ .send p) (hΦ : Lasts t Φ) :
    contract.Atomic (handlerMachine env enter) t (At t 0 (f :: fs) Φ) (.leave f rc)
      fun _ => At t 0 fs Φ := by
  refine atomic (fun _ => stable_at hΦ) ?_ ?_
  · exact fun s _ hP => ⟨hP.held, fun p hp => absurd hp (hf p)⟩
  · intro s o r s' hI hP he heff
    cases o <;> cases he
    refine ⟨hP.held, ?_, hΦ.own _ _ _ (by rintro _ ⟨⟩) heff hI hP.fact⟩
    refine (Function.update_self _ _ _).trans ?_
    rw [hP.stack]
    rfl

/-- A call of one of the library's own functions other than `Send`. -/
lemma safe_call {f : Frame} {body : P ℤ} {Ψ : ℤ → State → Prop} (hf : ∀ p, f ≠ .send p)
    (hΦ : Lasts t Φ) (hΨ : ∀ rc, Lasts t (Ψ rc))
    (hbody : contract.Safe (handlerMachine env enter) t body (At t 0 (f :: fs) Φ)
      fun rc => At t 0 (f :: fs) (Ψ rc)) :
    contract.Safe (handlerMachine env enter) t (call f body) (At t 0 fs Φ)
      fun rc => At t 0 fs (Ψ rc) := by
  refine Contract.Safe.step _ (atomic_enter hf hΦ) fun _ => Contract.Safe.bind hbody fun rc => ?_
  exact Contract.Safe.step _ (atomic_leave f rc hf (hΨ rc)) fun _ _ _ h => h

/-- `EnterCriticalSection`, in a function that owns the lock. -/
lemma atomic_enterCriticalSection {f : Frame} (hf : f.locks = true) (hΦ : Lasts t Φ) :
    contract.Atomic (handlerMachine env enter) t (At t 0 (f :: fs) Φ) (.enterCriticalSection f)
      fun r => At t (if r then 1 else 0) (f :: fs) Φ := by
  refine atomic (fun r => stable_at hΦ) ?_ ?_
  · exact fun s _ hP => ⟨hP.stack ▸ List.mem_cons_self, hf⟩
  · intro s o r s' hI hP he heff
    rcases exec_enterCriticalSection he with ⟨rfl, cs, hcs, rfl⟩ | ⟨rfl, rfl⟩
    · refine ⟨?_, hP.stack, hΦ.own _ _ _ (by rintro _ ⟨⟩) heff hI hP.fact⟩
      rw [if_pos rfl, ← Nat.zero_add 1, ← hP.held]
      exact CriticalSection.heldBy_enter hcs
    · exact ⟨hP.held, hP.stack, hΦ.own _ _ _ (by rintro _ ⟨⟩) heff hI hP.fact⟩

lemma atomic_leaveCriticalSection (hΦ : Lasts t Φ) :
    contract.Atomic (handlerMachine env enter) t (At t 1 fs Φ) .leaveCriticalSection
      fun _ => At t 0 fs Φ := by
  refine atomic (fun _ => stable_at hΦ) (fun _ _ _ => trivial) ?_
  intro s o r s' hI hP he heff
  obtain ⟨cs, hcs, rfl⟩ := exec_leaveCriticalSection he
  refine ⟨?_, hP.stack, hΦ.own _ _ _ (by rintro _ ⟨⟩) heff hI hP.fact⟩
  have h := CriticalSection.heldBy_leave hcs
  rw [hP.held] at h
  exact h

lemma safe_callbackReturns {k : CallbackKind} {p : Option ConnectionPtr} (hΦ : Lasts t Φ) :
    contract.Safe (handlerMachine env enter) t (act .callbackReturns)
      (At t n (.callback k p :: fs) Φ) fun _ => At t n fs Φ := by
  refine Contract.Safe.perform (atomic (fun _ => stable_at hΦ) ?_ ?_)
  · exact fun s _ hP => ⟨k, p, fs, hP.stack⟩
  · intro s o r s' hI hP he heff
    cases o <;> cases he
    refine ⟨hP.held, ?_, hΦ.own _ _ _ (by rintro _ ⟨⟩) heff hI hP.fact⟩
    refine (Function.update_self _ _ _).trans ?_
    rw [hP.stack]
    rfl

/-- A call of a function object of connection `q` that is known not to be empty. -/
lemma safe_callConnection {q : ConnectionPtr} {k : CallbackKind} {p : Option ConnectionPtr}
    {data : List UInt8} {y : TcpConnection} (hy : y.handlers.isSet k = true) (hΦ : Lasts t Φ)
    (hq : ∀ s, Φ s → s.tcpConnections q = some y) :
    contract.Safe (handlerMachine env enter) t (callConnection q k p data) (At t n fs Φ)
      fun _ => At t n fs Φ := by
  refine Contract.Safe.step (fun r s => r = true ∧ At t n (.callback k p :: fs) Φ s)
    (atomic (fun r => (Contract.Stable.const _).and (stable_at hΦ)) ?_ ?_) fun r => ?_
  · exact fun s _ hP => ⟨y, hq s hP.fact, hy⟩
  · intro s o r s' hI hP he heff
    obtain ⟨y', hy', hr⟩ := exec_invokeConnection he
    cases (hq s hP.fact).symm.trans hy'
    rw [exec.invoke, if_pos hy] at hr
    cases hr
    refine ⟨rfl, hP.held, ?_, hΦ.own _ _ _ (by rintro _ ⟨⟩) heff hI hP.fact⟩
    rw [← hP.stack]
    exact Function.update_self _ _ _
  refine Contract.Safe.pure fun hr => ?_
  rw [if_pos hr]
  exact safe_callbackReturns hΦ

/-- A call of the handler's `onDisconnected`, which throws if it is empty. -/
lemma safe_onDisconnected {p : Option ConnectionPtr} (hΦ : Lasts t Φ) :
    contract.Safe (handlerMachine env enter) t (callHandler .onDisconnected p []) (At t n fs Φ)
      fun _ => At t n fs Φ := by
  refine Contract.Safe.step (fun r s => bif r then At t n (.callback .onDisconnected p :: fs) Φ s
    else s.handlers.onDisconnected = false) (atomic (fun r => ?_) (fun _ _ _ => rfl) ?_) fun r => ?_
  · cases r
    · exact fun s s' _ _ hR h => (congrArg _ hR.handlers).trans h
    · exact stable_at hΦ
  · intro s o r s' hI hP he heff
    cases o
    case ok =>
      by_cases hs : s.handlers.isSet .onDisconnected = true
      · simp only [exec, exec.invoke, hs, if_pos, Option.some.injEq, Prod.mk.injEq] at he
        obtain ⟨rfl, rfl⟩ := he
        refine ⟨hP.held, ?_, hΦ.own _ _ _ (by rintro _ ⟨⟩) heff hI hP.fact⟩
        rw [← hP.stack]
        exact Function.update_self _ _ _
      · simp only [exec, exec.invoke, hs, if_neg, Bool.false_eq_true, not_false_eq_true,
          Option.some.injEq, Prod.mk.injEq] at he
        obtain ⟨rfl, rfl⟩ := he
        simpa [Handlers.isSet, State.record] using hs
    all_goals cases he
  · cases r
    · exact fun s _ h => h
    · exact safe_callbackReturns hΦ

end Handler

end Alpl.Net
