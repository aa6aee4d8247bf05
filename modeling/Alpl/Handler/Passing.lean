import Alpl.Net.Server
import Alpl.Interleaving.Typestate

/-!
# The code that an automaton need not look at

An automaton beside the threads cares about a few actions.  All others are *ordinary* to it, and a
function made of ordinary actions leaves it where it is.  The functions of the library are built on
`disconnect` and `handle_new_connection`, so what an automaton does in all the code of the handler
follows from what it does there (`Passes`) and from the loop of the workers.
-/

namespace Alpl.Net

open Interleaving Typestate

/-- The actions outside the loop of the workers and `exiting` that begin and end nothing of a
connection. -/
def Action.isOrdinary : Action → Bool
  | .newConnection _ => false
  | .assignConnection _ _ => false
  | .getExiting => false
  | .setExiting => false
  | .getQueuedCompletionStatus _ => false
  | .postQueuedCompletionStatus _ => false
  | .waitForWorkers => false
  | .invokeHandler _ _ _ => false
  | .invokeConnection _ k _ _ => k ≠ .onConnected ∧ k ≠ .onDisconnected
  | .enter (.disconnect _) => false
  | .enter (.handleNewConnection _) => false
  | .leave (.disconnect _) _ => false
  | .finish => false
  | .exitThread => false
  | _ => true

attribute [local simp] Action.isOrdinary

/-- A program of ordinary actions. -/
def Ordinary {α : Type} (p : P α) : Prop := Every (fun a => a.isOrdinary = true) p

section Ordinary

variable {α : Type}

lemma ordinary_deref {p : Option ℕ} {k : ℕ → P α} (hk : ∀ c, Ordinary (k c)) :
    Ordinary (deref p k) := by
  cases p with
  | none => exact .step rfl nofun
  | some c => exact hk c

/-- A call of one of the library's functions, but for the two that are told apart. -/
lemma ordinary_call {f : Frame} {body : P ℤ} (henter : (Action.enter f).isOrdinary = true)
    (hleave : ∀ rc, (Action.leave f rc).isOrdinary = true) (hbody : Ordinary body) :
    Ordinary (call f body) :=
  .step henter fun _ => hbody.bind fun rc => .step (hleave rc) fun _ => trivial

lemma ordinary_createTcpSocket : Ordinary createTcpSocket := by
  simp [Ordinary, createTcpSocket, Action.isOrdinary]

lemma ordinary_createSocketContext (sd : SOCKET) (op : LastIoOperation) :
    Ordinary (createSocketContext sd op) := by
  simp [Ordinary, createSocketContext, Action.isOrdinary]

lemma ordinary_updateCompletionPort (sd : SOCKET) (op : LastIoOperation) (add : Bool) :
    Ordinary (updateCompletionPort sd op add) := by
  apply (ordinary_createSocketContext sd op).bind
  intro c
  cases c with
  | none => trivial
  | some c =>
      refine .step rfl fun _ => .step rfl fun _ => .step rfl fun _ => .step rfl fun h => ?_
      cases h with
      | none => exact .step rfl fun _ => trivial
      | some port => cases add <;> simp [Action.isOrdinary]

lemma ordinary_startAccept : Ordinary startAccept := by
  refine ordinary_call rfl (fun _ => rfl) (.step rfl fun l => ordinary_deref fun l => ?_)
  apply ordinary_createTcpSocket.bind
  simp [Action.isOrdinary]

lemma ordinary_deliver (p : ConnectionPtr) (c : ContextPtr) (n : ℕ) :
    Ordinary (deliver p c n) := by
  simp [Ordinary, deliver, callConnection, Action.isOrdinary]

lemma ordinary_deliverReceived (c : ContextPtr) (arg : IocpParam) :
    Ordinary (deliverReceived c arg) := by
  refine .step rfl fun v => .step rfl fun n => ?_
  split
  · exact .step rfl fun v => .step rfl fun p => ordinary_deref fun p =>
      ordinary_deliver p c arg.ioSize
  · exact .step rfl fun _ => .step rfl fun _ => trivial

/-- `exiting` from where it has waited for the workers. -/
lemma ordinary_afterWait (l : Option ContextPtr) : Ordinary (deref l fun l => do
    closeListener l
    let signalled ← act .setExitEvent
    if signalled then return commSuccess else return commExitFailed) := by
  refine ordinary_deref fun l => Every.bind ?_ fun _ => ?_
  · simp [closeListener, Action.isOrdinary]
  · simp [Action.isOrdinary]

lemma ordinary_createListener {n : ℕ} : Ordinary (createListener n) := by
  refine .step rfl fun resolved => ?_
  cases resolved with
  | false => trivial
  | true =>
      apply ordinary_createTcpSocket.bind
      simp [Action.isOrdinary]

lemma ordinary_initAccept (ls : SOCKET) : Ordinary (initAccept ls) := by
  refine (ordinary_updateCompletionPort ls .ioAccept false).bind fun l => .step rfl fun _ => ?_
  cases l with
  | none => trivial
  | some l =>
      refine .step rfl fun loaded => ?_
      cases loaded with
      | false => trivial
      | true => exact ordinary_startAccept.bind fun rc => by split <;> trivial

lemma ordinary_startServer : Ordinary startServer := by
  refine ordinary_call rfl (fun _ => rfl) (ordinary_createListener.bind fun r => ?_)
  split
  · trivial
  · exact (ordinary_initAccept r.2).bind fun rc => by split <;> trivial

lemma ordinary_send (p : ConnectionPtr) (data : List UInt8) : Ordinary (send p data) := by
  refine ordinary_call rfl (fun _ => rfl) (.step rfl fun y => ?_)
  split
  · trivial
  · refine .step rfl fun y => .step rfl fun n => Every.bind ?_ fun _ => trivial
    simp [onSentCompleted, callConnection, Action.isOrdinary]

end Ordinary

/-! ## The functions that can end a connection -/

section Passes

variable {Q : Type} {α : Type}

lemma follows_deref {D : Typestate Action Action.Res Label Q} {q : Q} {p : Option ℕ}
    {k : ℕ → P α} {N : α → Q → Prop} (hq : D.allowed q .nullDereference)
    (hk : ∀ c, D.Follows (k c) q N) : D.Follows (deref p k) q N := by
  cases p with
  | none => exact .step hq nofun
  | some c => exact hk c

/-- The automaton lets ordinary actions pass in `q`, and comes back to `q` from `disconnect`. -/
structure Passes (D : Typestate Action Action.Res Label Q) (q : Q) : Prop where
  ordinary : ∀ a, a.isOrdinary = true → D.allowed q a ∧ ∀ r, D.next q a r = q
  disconnect : ∀ c g, D.Stays (disconnect c g) q

variable {D : Typestate Action Action.Res Label Q} {q : Q} (h : Passes D q)
include h

namespace Passes

lemma stays {p : P α} (hp : Ordinary p) : D.Stays p q := Every.stays hp h.ordinary

lemma step {a : Action} {k : a.Res → P α} {N : α → Q → Prop} (ha : a.isOrdinary = true)
    (hk : ∀ r, D.Follows (k r) q N) : D.Follows (Prog.perform a >>= k) q N := by
  obtain ⟨hallowed, hnext⟩ := h.ordinary a ha
  exact .step hallowed fun r => (hnext r).symm ▸ hk r

lemma deref {p : Option ℕ} {k : ℕ → P α} (hk : ∀ c, D.Stays (k c) q) :
    D.Stays (Alpl.Net.deref p k) q :=
  follows_deref (h.ordinary .nullDereference rfl).1 hk

/-- The end of a receive, where a failure is answered by `disconnect`. -/
lemma received (c : ContextPtr) (r : CallResult) :
    D.Stays (if r.failed then Alpl.Net.disconnect (some c) false >>= fun _ => pure commSuccess
      else pure commSuccess) q := by
  split
  · exact (h.disconnect (some c) false).bind fun _ => rfl
  · rfl

lemma firstReceive (n : ContextPtr) : D.Stays (firstReceive n) q :=
  h.step rfl fun _ => h.step rfl fun _ => h.step rfl fun r => h.received n r

lemma startReceive (c : ContextPtr) (arg : IocpParam) : D.Stays (startReceive c arg) q := by
  refine h.step rfl fun _ => h.step rfl fun v => h.step rfl fun r => ?_
  split
  · exact h.step rfl fun _ => (h.disconnect (some c) false).bind fun _ => rfl
  · rfl

lemma handleReceive (c : ContextPtr) (arg : IocpParam) : D.Stays (handleReceive c arg) q := by
  refine h.step rfl fun _ => Stays.bind ?_ fun rc => h.step rfl fun _ => rfl
  exact (h.stays (ordinary_deliverReceived c arg)).bind fun _ => h.startReceive c arg

lemma handleSend (c : ContextPtr) (arg : IocpParam) : D.Stays (handleSend c arg) q := by
  refine h.step rfl fun _ => h.step rfl fun io => h.step rfl fun _ => h.step rfl fun io => ?_
  split
  · exact h.step rfl fun v => h.step rfl fun r => h.received c r
  · exact h.step rfl fun _ => h.step rfl fun _ => rfl

lemma initReceive (v : SOCKET) : D.Stays (initReceive v) q := by
  refine (h.stays (ordinary_updateCompletionPort v .ioReceive true)).bind fun l =>
    h.step rfl fun _ => h.deref fun l => h.step rfl fun _ => h.step rfl fun _ => ?_
  exact h.step rfl fun r => h.received l r

lemma startClient (p : ConnectionPtr) : D.Stays (startClient p) q := by
  refine h.step rfl fun _ => Stays.bind (h.step rfl fun y => ?_) fun rc => h.step rfl fun _ => rfl
  exact (h.initReceive y.socket).bind fun rc => by split <;> rfl

omit h in
lemma alplAssert {f : P ℤ} {k : P Turn} (hf : D.Stays f q) (hk : D.Stays k q) :
    D.Stays (alplAssert f k) q := by
  refine hf.bind fun rc => ?_
  split
  · rfl
  · exact hk

/-! ### The functions that can begin a connection -/

variable (hnew : ∀ c n arg, D.Stays (handleNewConnection c n arg) q)
include hnew

/-- What `handle_accept` and `handle_connect` do with the new socket. -/
lemma newContext (c : ContextPtr) (arg : IocpParam) (sd : SOCKET) :
    D.Stays (updateCompletionPort sd .ioConnect true >>= fun n => match n with
      | none => pure commConnectFailed
      | some n => handleNewConnection c n arg >>= fun _ => pure commSuccess) q := by
  refine (h.stays (ordinary_updateCompletionPort sd .ioConnect true)).bind fun n => ?_
  cases n with
  | none => rfl
  | some n => exact (hnew c n arg).bind fun _ => rfl

lemma handleAccept (c : ContextPtr) (arg : IocpParam) : D.Stays (handleAccept c arg) q := by
  refine h.step rfl fun io => h.step rfl fun l => h.deref fun l => h.step rfl fun v =>
    h.step rfl fun updated => ?_
  cases updated with
  | false => rfl
  | true => exact h.step rfl fun io => h.newContext hnew c arg io.socketAccept

lemma handleConnect (c : ContextPtr) (arg : IocpParam) : D.Stays (handleConnect c arg) q := by
  refine h.step rfl fun v => h.step rfl fun l => h.deref fun l => h.step rfl fun w =>
    h.step rfl fun updated => ?_
  cases updated with
  | false => rfl
  | true => exact h.step rfl fun v => h.newContext hnew c arg v

lemma switch (c : ContextPtr) (arg : IocpParam) : D.Stays (switch c arg) q := by
  have hagain : D.Stays (pure .again : P Turn) q := rfl
  refine h.step rfl fun io => ?_
  split
  · exact alplAssert (h.handleAccept hnew c arg)
      (alplAssert (h.stays ordinary_startAccept) hagain)
  · exact alplAssert (h.handleConnect hnew c arg) (alplAssert (h.startReceive c arg) hagain)
  · exact alplAssert (h.handleReceive c arg) hagain
  · exact alplAssert (h.handleSend c arg) hagain

lemma handlePacket (pkt : Packet) : D.Stays (handlePacket pkt) q := by
  refine h.deref fun o => h.step rfl fun io => ?_
  split
  · exact (h.disconnect pkt.key false).bind fun _ => rfl
  · exact h.deref fun c => h.switch hnew c _

end Passes

end Passes

/-! ## Where the automata begin -/

section Beginning

variable {Q : Type}

/-- The piece of code the main thread is in when a run begins. -/
def Role.start : Role → Label
  | .server => .startServer
  | .client => .startClient

/-- The automata when a run begins. -/
def beginning (D : Typestate Action Action.Res Label Q) (role : Role) : Tid → Q
  | .main => D.entry role.start
  | _ => D.entry (.workerThread handlerPort)

lemma exists_entry (D : Typestate Action Action.Res Label Q) (role : Role) (t : Tid) :
    ∃ l, beginning D role t = D.entry l := by
  cases t with
  | main => exact ⟨role.start, rfl⟩
  | worker i => exact ⟨.workerThread handlerPort, rfl⟩
  | user i => exact ⟨.workerThread handlerPort, rfl⟩

lemma onTrack_beginning {D : Typestate Action Action.Res Label Q} {role : Role} {u : Setup}
    {G : Config Action Action.Res State Tid Label}
    (hcode : ∀ l, D.Follows (code l) (D.entry l) D.Ends) (h : Begins u role G) (t : Tid) :
    D.OnTrack (G.threads t) (beginning D role t) := by
  have hinit : ∀ l, D.OnTrack (initThreads u l t)
      (match t with | .main => D.entry l | _ => D.entry (.workerThread handlerPort)) := by
    intro l
    cases t with
    | main => exact hcode l
    | worker i =>
        rw [initThreads_worker]
        split
        · exact hcode (.workerThread handlerPort)
        · trivial
    | user i => trivial
  cases h with
  | server =>
      have hserver := hinit .startServer
      cases t <;> exact hserver
  | client v hv =>
      have hclient := hinit .startClient
      cases t <;> exact hclient

/-- In every run the code follows an automaton. -/
lemma Reachable.exists_onTrack {D : Typestate Action Action.Res Label Q} {role : Role} {u : Setup}
    {G : Config Action Action.Res State Tid Label}
    (hcode : ∀ l, D.Follows (code l) (D.entry l) D.Ends) (hG : Reachable role u G) :
    ∃ σ : Tid → Q, ∀ t, D.OnTrack (G.threads t) (σ t) := by
  obtain ⟨G₀, h0, hr⟩ := hG
  have hkeeps : D.Keeps (machine role) (fun _ => True) fun _ _ => True :=
    ⟨hcode, fun _ _ _ _ _ _ _ _ _ _ _ _ _ => trivial, fun _ _ _ _ _ _ _ => trivial,
      fun _ _ _ _ _ _ _ _ _ => trivial⟩
  exact (hkeeps.sound (fun _ _ => trivial) hr (onTrack_beginning hcode h0) trivial).imp
    fun _ h => h.1

end Beginning

end Alpl.Net
