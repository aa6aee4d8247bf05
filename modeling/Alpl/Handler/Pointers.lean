import Alpl.Handler.Memory
import Alpl.Handler.Locking

/-!
# The pointers to connection objects

A thread dereferences a `TcpConnectionPtr` where it has made the object itself, has just found the
pointer in `connections_`, or was given it with the call.  What a thread has in this way is the
state of an automaton, and in every run it names an object that exists (`Reachable.pointers`):
objects of type `TcpConnection` are never freed.  A thread makes such an object for the context that
it has entered into `socket_contexts_` last, which is in the state of the automaton as well.
-/

namespace Alpl.Net

open Interleaving

/-- What a thread has for the connections. -/
structure Grip where
  /-- The pointer it got last. -/
  pointer : Option ConnectionPtr
  /-- The context it entered into `socket_contexts_` last. -/
  listed : Option ContextPtr
  deriving DecidableEq, Repr

/-- What a thread may do with what it has. -/
@[simp] def Grip.uses (q : Grip) : Action → Bool
  | .getConnection p => q.pointer = some p
  | .assignConnection _ p => q.pointer = some p
  | .newConnection y => y.overlapped = q.listed ∧ q.listed ≠ none
  | _ => true

/-- What an action gives to the thread. -/
@[simp] def Grip.next (q : Grip) (a : Action) : a.Res → Grip :=
  match a with
  | .newConnection _ => fun p => { q with pointer := some p }
  | .indexConnection _ => fun p => { q with pointer := p }
  | .pushFrontContext c => fun _ => { q with listed := some c }
  | .finish => fun _ => ⟨none, none⟩
  | _ => fun _ => q

/-- What a piece of code is given. -/
def Label.grip : Label → Grip
  | .startClient => ⟨some clientConnection, none⟩
  | .send p _ => ⟨some p, none⟩
  | _ => ⟨none, none⟩

/-- The automaton of the pointers. -/
def pointers : Typestate Action Action.Res Label Grip where
  allowed q a := q.uses a = true
  next := Grip.next
  entry := Label.grip

/-- The actions that use a pointer to a connection, or make one. -/
def Action.usesConnection : Action → Bool
  | .getConnection _ => true
  | .assignConnection _ _ => true
  | .newConnection _ => true
  | _ => false

/-! ## All code has the pointers it uses -/

section

open Typestate

@[simp] lemma pointers_allowed (q : Grip) (a : Action) :
    pointers.allowed q a ↔ q.uses a = true := Iff.rfl

@[simp] lemma pointers_next (q : Grip) (a : Action) (r : a.Res) :
    pointers.next q a r = q.next a r := rfl

variable {α β : Type} {q : Grip}

/-- A program that uses no pointer to a connection. -/
def Blind (p : P α) : Prop := Every (fun a => a.usesConnection = false) p

lemma uses_of_blind {a : Action} (ha : a.usesConnection = false) : pointers.allowed q a := by
  cases a <;> first | rfl | cases ha

/-- Such a program may have any pointer. -/
lemma Blind.follows {p : P α} (hp : Blind p) (q : Grip) :
    pointers.Follows p q fun _ _ => True := by
  induction p generalizing q with
  | ret x => trivial
  | throw => trivial
  | act a k ih => exact ⟨uses_of_blind hp.1, fun r => ih r (hp.2 r) _⟩

/-- The program may be run with any pointer. -/
def Careful (p : P α) : Prop := ∀ q, pointers.Follows p q fun _ _ => True

lemma Blind.careful {p : P α} (hp : Blind p) : Careful p := hp.follows

lemma Careful.bind {p : P α} {f : α → P β} (hp : Careful p) (hf : ∀ x, Careful (f x)) :
    Careful (p >>= f) :=
  fun q => (hp q).bind fun x q' _ => hf x q'

lemma Careful.step {a : Action} {k : a.Res → P α} (ha : a.usesConnection = false)
    (hk : ∀ r, Careful (k r)) : Careful (Prog.perform a >>= k) :=
  fun _ => .step (uses_of_blind ha) fun r => hk r _

lemma Careful.deref {p : Option ℕ} {k : ℕ → P α} (hk : ∀ c, Careful (k c)) :
    Careful (deref p k) :=
  fun q => follows_deref rfl fun c => hk c q

lemma Careful.call {f : Frame} {body : P ℤ} (hbody : Careful body) : Careful (call f body) :=
  .step rfl fun _ => hbody.bind fun _ => .step rfl fun _ _ => trivial

lemma blind_deref {p : Option ℕ} {k : ℕ → P α} (hk : ∀ c, Blind (k c)) : Blind (deref p k) := by
  cases p with
  | none => exact .step rfl nofun
  | some c => exact hk c

lemma blind_call {f : Frame} {body : P ℤ} (hbody : Blind body) : Blind (call f body) :=
  .step rfl fun _ => hbody.bind fun _ => .step rfl fun _ => trivial

/-! ### The functions without connections -/

lemma blind_disconnectClient (c : ContextPtr) (g : Bool) : Blind (disconnectClient c g) := by
  have hlinger : Blind (setLinger c g) := by
    cases g <;> simp [Blind, setLinger, Action.usesConnection]
  have haccept : Blind (closeSocketAccept c) := by
    simp [Blind, closeSocketAccept, Action.usesConnection]
  refine hlinger.bind fun _ => haccept.bind fun _ => ?_
  simp [callHandler, Action.usesConnection]

lemma blind_disconnect (c : Option ContextPtr) (g : Bool) : Blind (disconnect c g) := by
  refine blind_call (.step rfl fun entered => ?_)
  cases entered with
  | false => trivial
  | true =>
      cases c with
      | none => exact .step rfl fun _ => trivial
      | some c =>
          refine .step rfl fun l => blind_deref fun l => .step rfl fun v => .step rfl fun w => ?_
          refine Every.bind ?_ fun _ => .step rfl fun _ => trivial
          split
          · trivial
          · exact blind_disconnectClient c g

lemma blind_updateCompletionPort (sd : SOCKET) (op : LastIoOperation) (add : Bool) :
    Blind (updateCompletionPort sd op add) := by
  have hcreate : Blind (createSocketContext sd op) := by
    simp [Blind, createSocketContext, Action.usesConnection]
  refine hcreate.bind fun c => ?_
  cases c with
  | none => trivial
  | some c =>
      refine .step rfl fun _ => .step rfl fun _ => .step rfl fun _ => .step rfl fun h => ?_
      cases h with
      | none => exact .step rfl fun _ => trivial
      | some port => cases add <;> simp [Action.usesConnection]

lemma blind_createTcpSocket : Blind createTcpSocket := by
  simp [Blind, createTcpSocket, Action.usesConnection]

lemma blind_startAccept : Blind startAccept := by
  refine blind_call (.step rfl fun l => blind_deref fun l => Every.bind blind_createTcpSocket ?_)
  simp [Action.usesConnection]

lemma blind_received (c : ContextPtr) (r : CallResult) :
    Blind (if r.failed then disconnect (some c) false >>= fun _ => pure commSuccess
      else pure commSuccess) := by
  split
  · exact Every.bind (blind_disconnect (some c) false) fun _ => trivial
  · trivial

lemma blind_firstReceive (n : ContextPtr) : Blind (firstReceive n) :=
  .step rfl fun _ => .step rfl fun _ => .step rfl fun r => blind_received n r

lemma blind_startReceive (c : ContextPtr) (arg : IocpParam) : Blind (startReceive c arg) := by
  refine .step rfl fun _ => .step rfl fun v => .step rfl fun r => ?_
  split
  · exact .step rfl fun _ => Every.bind (blind_disconnect (some c) false) fun _ => trivial
  · trivial

lemma blind_handleSend (c : ContextPtr) (arg : IocpParam) : Blind (handleSend c arg) := by
  refine .step rfl fun _ => .step rfl fun io => .step rfl fun _ => .step rfl fun io => ?_
  split
  · exact .step rfl fun v => .step rfl fun r => blind_received c r
  · exact .step rfl fun _ => .step rfl fun _ => trivial

lemma blind_postExitPackets (n : ℕ) : Blind (postExitPackets n) := by
  induction n with
  | zero => trivial
  | succ n ih =>
      refine .step rfl fun h => ?_
      cases h with
      | none => exact ih
      | some port => exact .step rfl fun _ => ih

lemma blind_stop : Blind stop := by
  refine blind_call (Every.bind (.step rfl fun _ => .step rfl fun h => .step rfl fun n =>
    Every.bind ?_ fun _ => .step rfl fun _ => .step rfl fun l => blind_deref fun l =>
    Every.bind ?_ fun _ => ?_) fun _ => .step rfl fun _ => trivial)
  · split
    · exact blind_postExitPackets n
    · trivial
  · simp [closeListener, Action.usesConnection]
  · simp [Action.usesConnection]

lemma blind_startServer : Blind startServer := by
  have hlistener : Blind (createListener defaultBacklog) := by
    refine .step rfl fun resolved => ?_
    cases resolved with
    | false => trivial
    | true =>
        apply Every.bind blind_createTcpSocket
        simp [Action.usesConnection]
  refine blind_call (hlistener.bind fun r => ?_)
  split
  · trivial
  · refine Every.bind (Every.bind (blind_updateCompletionPort r.2 .ioAccept false) fun l =>
      .step rfl fun _ => ?_) fun rc => by split <;> trivial
    cases l with
    | none => trivial
    | some l =>
        refine .step rfl fun loaded => ?_
        cases loaded with
        | false => trivial
        | true => exact blind_startAccept.bind fun rc => by split <;> trivial

/-! ### The functions of connections -/

lemma careful_deliver (p : ConnectionPtr) (c : ContextPtr) (n : ℕ) (hq : q.pointer = some p) :
    pointers.Follows (deliver p c n) q fun _ _ => True := by
  refine .step (by simp [hq]) fun y => ?_
  refine Blind.follows ?_ _
  simp [Blind, callConnection, Action.usesConnection]

/-- The object is made for the context that was listed. -/
lemma careful_handleNewConnection (c n : ContextPtr) (arg : IocpParam) (hq : q.listed = some n) :
    pointers.Follows (handleNewConnection c n arg) q fun _ _ => True := by
  refine .step rfl fun _ => Follows.bind (N := fun _ _ => True) ?_
    fun _ _ _ => .step rfl fun _ => trivial
  refine .step rfl fun v => .step rfl fun port => .step rfl fun hs =>
    .step (by simp [hq, newTcpConnection, TcpConnection.new]) fun p => .step (by simp) fun _ =>
    Follows.bind (N := fun _ _ => True) ?_ fun _ q' _ => (blind_firstReceive n).follows q'
  split
  · exact careful_deliver p c arg.ioSize rfl
  · trivial

/-- Where `updateCompletionPort` succeeds, it has listed the context that it returns. -/
lemma listed_updateCompletionPort (sd : SOCKET) (op : LastIoOperation) :
    pointers.Follows (updateCompletionPort sd op true) q fun n q' => ∀ c, n = some c →
      q'.listed = some c := by
  have hcreate : Blind (createSocketContext sd op) := by
    simp [Blind, createSocketContext, Action.usesConnection]
  refine (hcreate.follows q).bind fun c q' _ => ?_
  cases c with
  | none => simp
  | some c =>
      refine .step rfl fun port => .step rfl fun h => .step rfl fun _ => .step rfl fun h' => ?_
      cases h' <;> simp

lemma careful_newContext (c : ContextPtr) (arg : IocpParam) (sd : SOCKET) :
    Careful (updateCompletionPort sd .ioConnect true >>= fun n => match n with
      | none => pure commConnectFailed
      | some n => handleNewConnection c n arg >>= fun _ => pure commSuccess) := by
  refine fun q => (listed_updateCompletionPort sd .ioConnect).bind fun n q' hn => ?_
  cases n with
  | none => trivial
  | some n => exact (careful_handleNewConnection c n arg (hn n rfl)).bind fun _ _ _ => trivial

lemma careful_handleAccept (c : ContextPtr) (arg : IocpParam) : Careful (handleAccept c arg) := by
  refine .step rfl fun io => .step rfl fun l => .deref fun l => .step rfl fun v =>
    .step rfl fun updated => ?_
  cases updated with
  | false => exact fun _ => trivial
  | true => exact .step rfl fun io => careful_newContext c arg io.socketAccept

lemma careful_handleConnect (c : ContextPtr) (arg : IocpParam) :
    Careful (handleConnect c arg) := by
  refine .step rfl fun v => .step rfl fun l => .deref fun l => .step rfl fun w =>
    .step rfl fun updated => ?_
  cases updated with
  | false => exact fun _ => trivial
  | true => exact .step rfl fun v => careful_newContext c arg v

lemma careful_handleReceive (c : ContextPtr) (arg : IocpParam) :
    Careful (handleReceive c arg) := by
  refine .call (.bind (.step rfl fun v => .step rfl fun n => ?_) fun _ =>
    (blind_startReceive c arg).careful)
  split
  · refine .step rfl fun v q => .step rfl fun p => ?_
    cases p with
    | none => exact .step rfl nofun
    | some p => exact careful_deliver p c arg.ioSize rfl
  · exact .step rfl fun _ => .step rfl fun _ _ => trivial

lemma careful_alplAssert {f : P ℤ} {k : P Turn} (hf : Careful f) (hk : Careful k) :
    Careful (alplAssert f k) := by
  refine hf.bind fun rc => ?_
  split
  · exact fun _ => trivial
  · exact hk

lemma careful_switch (c : ContextPtr) (arg : IocpParam) : Careful (switch c arg) := by
  have hagain : Careful (pure .again : P Turn) := fun _ => trivial
  refine .step rfl fun io => ?_
  split
  · exact careful_alplAssert (careful_handleAccept c arg)
      (careful_alplAssert blind_startAccept.careful hagain)
  · exact careful_alplAssert (careful_handleConnect c arg)
      (careful_alplAssert (blind_startReceive c arg).careful hagain)
  · exact careful_alplAssert (careful_handleReceive c arg) hagain
  · exact careful_alplAssert (blind_handleSend c arg).careful hagain

lemma careful_turn (pkt : Packet) : Careful (turn pkt) := by
  refine .step rfl fun exiting => ?_
  cases exiting with
  | true => exact fun _ => trivial
  | false =>
      refine .step rfl fun isRunning => ?_
      cases isRunning with
      | false => exact fun _ => trivial
      | true =>
          refine .deref fun o => .step rfl fun io => ?_
          split
          · exact (blind_disconnect pkt.key false).careful.bind fun _ _ => trivial
          · exact .deref fun c => careful_switch c _

lemma blind_initReceive (v : SOCKET) : Blind (initReceive v) := by
  refine (blind_updateCompletionPort v .ioReceive true).bind fun l => .step rfl fun _ =>
    blind_deref fun l => .step rfl fun _ => .step rfl fun _ => .step rfl fun r => ?_
  exact blind_received l r

lemma careful_startClient (p : ConnectionPtr) (hq : q.pointer = some p) :
    pointers.Follows (startClient p) q fun _ _ => True := by
  refine .step rfl fun _ => Follows.bind (N := fun _ _ => True) (.step (by simp [hq]) fun y => ?_)
    fun _ _ _ => .step rfl fun _ => trivial
  exact ((blind_initReceive y.socket).follows _).bind fun rc _ _ => by split <;> trivial

lemma careful_send (p : ConnectionPtr) (data : List UInt8) (hq : q.pointer = some p) :
    pointers.Follows (send p data) q fun _ _ => True := by
  refine .step rfl fun _ => Follows.bind (N := fun _ _ => True) (.step (by simp [hq]) fun y => ?_)
    fun _ _ _ => .step rfl fun _ => trivial
  split
  · trivial
  · refine .step (by simp [hq]) fun y => .step rfl fun n => Follows.bind (N := fun _ _ => True) ?_
      fun _ _ _ => trivial
    refine .step (by simp [hq]) fun y => Blind.follows ?_ _
    simp [Blind, callConnection, Action.usesConnection]

lemma careful_run {f : P ℤ}
    (hf : pointers.Follows f q fun _ _ => True) : pointers.Follows (run f) q pointers.Ends :=
  hf.bind fun _ _ _ => .step rfl fun _ => trivial

/-- **All code has the pointers it uses.** -/
theorem code_pointers (l : Label) : pointers.Follows (code l) l.grip pointers.Ends := by
  cases l with
  | workerThread hIOCP =>
      refine .step rfl fun pkt =>
        (careful_turn pkt ⟨none, none⟩).bind fun next q _ => .step rfl fun _ => ?_
      cases next with
      | again => rfl
      | leave => exact .step rfl fun _ => trivial
  | startServer => exact careful_run (blind_startServer.follows _)
  | startClient => exact careful_run (careful_startClient clientConnection rfl)
  | stop => exact careful_run (blind_stop.follows _)
  | send p data => exact careful_run (careful_send p data rfl)

end

/-! ## The pointers along a run -/

/-- Every pointer that a thread has, or that `connections_` has, is that of an object. -/
structure Pointing (σ : Tid → Grip) (s : State) : Prop where
  had : ∀ t p, (σ t).pointer = some p → (s.tcpConnections p).isSome
  mapped : ∀ v p, s.connections v = some (some p) → (s.tcpConnections p).isSome

lemma isSome_of_onward {s s' : State} (h : Onward s s') {p : ConnectionPtr}
    (hp : (s.tcpConnections p).isSome) : (s'.tcpConnections p).isSome := by
  obtain ⟨y, hy⟩ := Option.isSome_iff_exists.mp hp
  exact Option.isSome_iff_exists.mpr ⟨y, h.objects p y hy⟩

lemma of_update {s : State} {v w : SOCKET} {x : Option (Option ConnectionPtr)}
    {p : Option ConnectionPtr} (h : Function.update s.connections w x v = some p) :
    v = w ∧ x = some p ∨ s.connections v = some p := by
  by_cases hv : v = w
  · subst hv
    rw [Function.update_self] at h
    exact .inl ⟨rfl, h⟩
  · rw [Function.update_of_ne hv] at h
    exact .inr h

/-- The pointer that an action gives to the thread is that of an object. -/
lemma isSome_next {t : Tid} {a : Action} {o : Outcome} {s s' : State} {r : a.Res}
    {σ : Tid → Grip} (hI : Pointing σ s) (ho : Onward s s')
    (he : exec t a o s = some (r, s')) {p : ConnectionPtr}
    (hp : ((σ t).next a r).pointer = some p) : (s'.tcpConnections p).isSome := by
  cases a
  case newConnection y =>
    cases o <;> cases he
    cases hp
    exact Option.isSome_iff_exists.mpr ⟨y, Function.update_self _ _ _⟩
  case indexConnection v =>
    have hr : r = some p := hp
    obtain ⟨hv, -⟩ | ⟨-, hn, -⟩ := exec_indexConnection he
    · exact isSome_of_onward ho (hI.mapped v p (hv.trans (congrArg some hr)))
    · rw [hr] at hn
      cases hn
  case finish => cases hp
  all_goals exact isSome_of_onward ho (hI.had t p hp)

/-- The pointers in `connections_` were there before, or the thread has put its own there. -/
lemma mapped_of_exec {t : Tid} {a : Action} {o : Outcome} {s s' : State} {r : a.Res}
    (he : exec t a o s = some (r, s')) {v : SOCKET} {p : ConnectionPtr}
    (hp : s'.connections v = some (some p)) :
    s.connections v = some (some p) ∨ a = .assignConnection v p := by
  by_cases hfiles : a.files = true
  · cases a <;> first
      | (cases hfiles; done)
      | skip
    case pushFrontContext c =>
      cases o <;> cases he
      exact .inl hp
    case removeContext c =>
      cases o <;> cases he
      exact .inl hp
    case indexConnection w =>
      obtain ⟨-, rfl⟩ | ⟨-, -, rfl⟩ := exec_indexConnection he
      · exact .inl hp
      · rcases of_update hp with ⟨-, h⟩ | h
        · cases h
        · exact .inl h
    case assignConnection w q =>
      cases o <;> cases he
      rcases of_update hp with ⟨rfl, h⟩ | h
      · cases h
        exact .inr rfl
      · exact .inl h
    case eraseConnection w =>
      cases o <;> cases he
      rcases of_update hp with ⟨-, h⟩ | h
      · cases h
      · exact .inl h
    case wsaSocket =>
      obtain ⟨-, -, rfl⟩ | ⟨-, rfl⟩ := exec_wsaSocket he <;> exact .inl hp
    case closesocket w =>
      cases o <;> cases he
      exact .inl hp
  · exact .inl ((exec_sameTables (by simpa using hfiles) _ he).connections ▸ hp)

/-- Who enters `Send` has the pointer of an object. -/
lemma isSome_of_enter {role : Role} {t : Tid} {l : Label} {s s' : State}
    (he : enter role t l s = some s') {p : ConnectionPtr} (hp : l.grip.pointer = some p) :
    (s.tcpConnections p).isSome := by
  unfold enter at he
  split at he
  · cases hp
  · split at he <;> cases he
    cases hp
    assumption
  · cases he

lemma pointing_keeps (role : Role) (u : Setup) :
    pointers.Keeps (machine role) (Reachable role u) Pointing where
  code := code_pointers
  act G t a k c r s' σ hG _ ha he hI := by
    have ho := (exec_effect _ he).onward hG.handler.ok.inv
    refine ⟨fun v p hp => ?_, fun v p hp => ?_⟩
    · by_cases hv : v = t
      · subst hv
        rw [Function.update_self] at hp
        exact isSome_next hI ho he hp
      · rw [Function.update_of_ne hv] at hp
        exact isSome_of_onward ho (hI.had v p hp)
    · rcases mapped_of_exec he hp with hp | rfl
      · exact isSome_of_onward ho (hI.mapped v p hp)
      · exact isSome_of_onward ho (hI.had t p (of_decide_eq_true ha))
  env G e s' σ _ he hI := by
    have ho := (undisturbed_osStep he).onward
    refine ⟨fun t p hp => isSome_of_onward ho (hI.had t p hp), fun v p hp => ?_⟩
    rw [(osStep_sameTables he).connections] at hp
    exact isSome_of_onward ho (hI.mapped v p hp)
  enter G t l s' σ _ hx he hI := by
    obtain rfl := enter_eq he
    refine ⟨fun v p hp => ?_, hI.mapped⟩
    by_cases hv : v = t
    · subst hv
      rw [Function.update_self] at hp
      exact isSome_of_enter he hp
    · rw [Function.update_of_ne hv] at hp
      exact hI.had v p hp

/-- **In every run every pointer to a connection names an object.** -/
theorem Reachable.pointers {role : Role} {u : Setup} {G : Config Action Action.Res State Tid Label}
    (hG : Reachable role u G) :
    ∃ σ, (∀ t, pointers.OnTrack (G.threads t) (σ t)) ∧ Pointing σ G.state := by
  obtain ⟨G₀, h0, hr⟩ := hG
  refine (pointing_keeps role u).sound (fun G' hr' => ⟨G₀, h0, hr'⟩) hr
    (onTrack_beginning code_pointers h0) ?_
  cases h0 with
  | server =>
      refine ⟨fun t p hp => ?_, fun v p hp => ?_⟩
      · cases t <;> cases hp
      · cases hp
  | client v hv =>
      have hsome : ((State.initClient u v).tcpConnections clientConnection).isSome := by
        simp [State.initClient]
      refine ⟨fun t p hp => ?_, fun w p hp => ?_⟩
      · cases t <;> cases hp
        exact hsome
      · simp only [clientInit, State.initClient, Function.update_apply] at hp
        split at hp <;> cases hp
        exact hsome

end Alpl.Net
