import Alpl.Handler.Passing

/-!
# In whose hands the bytes of a client are

A client has one receive on its way at a time.  Its bytes are brought by a packet, the worker that
takes the packet passes them on to the user, and only then it starts the next receive.  `custody` is
the automaton of this: it remembers what a worker has read between the packet and the callback, so
that what is passed on is the data of that packet, for the connection of its socket.

A thread is in `void` where it has read something that a client never shows; the branches of the
workers that serve a listening socket are all behind such an answer.  The threads of the user, which
only send, stay `aside`.
-/

namespace Alpl.Net

open Interleaving

/-- Where a thread stands between a packet and the next receive. -/
inductive Custody
  /-- In code that no thread of a client comes to. -/
  | void
  /-- Sending. -/
  | aside
  | idle
  /-- The main thread, before the first receive: the socket it has read, and whether it has asked
  to associate it with the port. -/
  | fresh (sock : Option SOCKET) (tried : Bool)
  /-- A worker with a packet: the socket, the connection object and the data it has read. -/
  | holding (pkt : Packet) (sock : Option SOCKET) (conn : Option ConnectionPtr)
      (data : Option (List UInt8))
  /-- `onDataReceived` of the user runs. -/
  | calling
  /-- The bytes are passed on, and the next receive has not been started. -/
  | passed
  deriving DecidableEq, Repr

/-- A frame of a callback that is given data. -/
def Frame.isReceived : Frame → Bool
  | .callback .onDataReceived _ => true
  | _ => false

/-- The actions that move no bytes towards the user. -/
@[simp] def Action.isCalm : Action → Bool
  | .newContext _ _ => false
  | .createIoCompletionPort _ _ _ => false
  | .wsaRecv _ _ _ => false
  | .getQueuedCompletionStatus _ => false
  | .finish => false
  | .invokeConnection _ k _ _ => k ≠ .onDataReceived
  | .invokeHandler k _ _ => k ≠ .onDataReceived
  | .enter f => !f.isReceived
  | _ => true

/-- What a thread may do. -/
@[simp] def Custody.allows : Custody → Action → Prop
  | .void, _ => True
  | .aside, .finish => True
  | .idle, .getQueuedCompletionStatus _ => True
  | .idle, .finish => True
  | .fresh sock _, .newContext sd _ => sock = some sd
  | .fresh _ tried, .createIoCompletionPort _ _ _ => tried = false
  | .fresh _ _, .wsaRecv _ _ _ => True
  | .fresh _ _, .finish => True
  | .holding pkt _ _ _, .getSocket c => pkt.key = some c
  | .holding pkt _ _ _, .getIoContext c => pkt.key = some c ∨ pkt.overlapped = some c
  | .holding _ sock _ _, .countConnection v => sock = some v
  | .holding _ sock _ _, .indexConnection v => sock = some v
  | .holding _ _ conn _, .getConnection p => conn = some p
  | .holding _ _ conn data, .invokeConnection q .onDataReceived p d =>
    conn = some q ∧ p = some q ∧ data = some d
  | .calling, a => a = .callbackReturns
  | .passed, .wsaRecv _ _ _ => True
  | .passed, .finish => True
  | _, a => a.isCalm = true

/-- Where it stands after an action. -/
@[simp] def Custody.next (q : Custody) (a : Action) : a.Res → Custody :=
  match q, a with
  | .void, .finish => fun _ => .idle
  | .idle, .getQueuedCompletionStatus _ => fun pkt => .holding pkt none none none
  | .fresh _ tried, .getConnection _ => fun y => .fresh (some y.socket) tried
  | .fresh sock _, .createIoCompletionPort _ _ _ => fun _ => .fresh sock true
  | .fresh _ _, .wsaRecv _ _ _ => fun _ => .idle
  | .fresh _ _, .finish => fun _ => .idle
  | .holding pkt v p d, .getExiting => fun exiting =>
    if exiting then .void else .holding pkt v p d
  | .holding pkt v p d, .getIsRunning => fun isRunning =>
    if isRunning then .holding pkt v p d else .void
  | .holding pkt v p _, .getIoContext _ => fun io =>
    if io.lastOperation ≠ .ioReceive then .void
    else if pkt.succeed = false ∨ pkt.ioSize = 0 then .passed
    else .holding pkt v p (some (io.buffer.take pkt.ioSize))
  | .holding pkt _ p d, .getSocket _ => fun v => .holding pkt (some v) p d
  | .holding pkt v p d, .countConnection _ => fun n =>
    if n > 0 then .holding pkt v p d else .void
  | .holding pkt v _ d, .indexConnection _ => fun p =>
    if p = none then .void else .holding pkt v p d
  | .holding pkt v p d, .getConnection _ => fun y =>
    if y.handlers.onDataReceived then .holding pkt v p d else .passed
  | .holding _ _ _ _, .invokeConnection _ .onDataReceived _ _ => fun isSet =>
    if isSet then .calling else .passed
  | .calling, .callbackReturns => fun _ => .passed
  | .passed, .wsaRecv _ _ _ => fun _ => .idle
  | .passed, .finish => fun _ => .idle
  | q, _ => fun _ => q

/-- A thread that stands there has the receive of its socket. -/
def Custody.carries : Custody → Bool
  | .aside => false
  | .idle => false
  | _ => true

/-- A thread that stands there has bytes to pass on. -/
def Custody.isHolding : Custody → Bool
  | .holding _ _ _ _ => true
  | _ => false

/-- Only who has the receive has bytes to pass on. -/
lemma Custody.isHolding_of_not_carries {q : Custody} (h : q.carries = false) :
    q.isHolding = false := by
  cases q <;> first | rfl | cases h

/-- Where a piece of code begins; a client enters neither the server's `Start` nor its `Stop`. -/
def Label.custody : Label → Custody
  | .startServer => .void
  | .stop => .void
  | .startClient => .fresh none false
  | .send _ _ => .aside
  | .workerThread _ => .idle

/-- The automaton of the bytes. -/
def custody : Typestate Action Action.Res Label Custody where
  allowed := Custody.allows
  next := Custody.next
  entry := Label.custody

/-- The receive comes with a packet. -/
lemma Custody.carries_next {q : Custody} {a : Action} {r : a.Res}
    (ha : ∀ p, a ≠ .getQueuedCompletionStatus p) (h : (q.next a r).carries = true) :
    q.carries = true := by
  cases q with
  | aside => cases a <;> exact h
  | idle => cases a <;> first | exact h | exact absurd rfl (ha _)
  | _ => rfl

lemma Custody.isHolding_next {q : Custody} {a : Action} {r : a.Res}
    (ha : ∀ p, a ≠ .getQueuedCompletionStatus p) (h : q.isHolding = false) :
    (q.next a r).isHolding = false := by
  cases q with
  | holding pkt sock conn data => cases h
  | idle => cases a <;> first | rfl | exact absurd rfl (ha _)
  | _ => cases a <;> rfl

/-! ## All code follows it -/

section

open Typestate

@[simp] lemma custody_allowed (q : Custody) (a : Action) : custody.allowed q a ↔ q.allows a :=
  Iff.rfl

@[simp] lemma custody_next (q : Custody) (a : Action) (r : a.Res) :
    custody.next q a r = q.next a r := rfl

/-- Nothing is in hand that has to be passed on. -/
@[simp] def Custody.settled : Custody → Bool
  | .void => true
  | .idle => true
  | .passed => true
  | _ => false

variable {α : Type}

/-- A program of calm actions. -/
def Calm (p : P α) : Prop := Every (fun a => a.isCalm = true) p

lemma custody_calm {q : Custody} (hq : q.settled = true) (a : Action) (ha : a.isCalm = true) :
    custody.allowed q a ∧ ∀ r, custody.next q a r = q := by
  cases q <;> first | (cases hq; done) | (cases a <;> simp_all [Action.isCalm])

lemma Calm.stays {p : P α} (hp : Calm p) {q : Custody} (hq : q.settled = true) :
    custody.Stays p q :=
  Every.stays hp (custody_calm hq)

lemma Calm.aside {p : P α} (hp : Calm p) : custody.Stays p .aside := by
  refine Every.stays hp fun a ha => ?_
  cases a <;> simp_all [Action.isCalm]

/-- One calm action, then the rest. -/
lemma follows_calm {a : Action} {k : a.Res → P α} {q : Custody} {N : α → Custody → Prop}
    (hq : q.settled = true) (ha : a.isCalm = true) (hk : ∀ r, custody.Follows (k r) q N) :
    custody.Follows (Prog.perform a >>= k) q N := by
  obtain ⟨hallowed, hnext⟩ := custody_calm hq a ha
  exact .step hallowed fun r => (hnext r).symm ▸ hk r

lemma calm_deref {p : Option ℕ} {k : ℕ → P α} (hk : ∀ c, Calm (k c)) : Calm (deref p k) := by
  cases p with
  | none => exact .step rfl nofun
  | some c => exact hk c

lemma calm_call {f : Frame} {body : P ℤ} (hf : f.isReceived = false) (hbody : Calm body) :
    Calm (call f body) :=
  .step (by simp [Action.isCalm, hf]) fun _ => hbody.bind fun _ => .step rfl fun _ => trivial

lemma calm_disconnectClient (c : ContextPtr) (g : Bool) : Calm (disconnectClient c g) := by
  have hlinger : Calm (setLinger c g) := by
    cases g <;> simp [Calm, setLinger, Action.isCalm]
  have haccept : Calm (closeSocketAccept c) := by
    simp [Calm, closeSocketAccept, Action.isCalm]
  refine hlinger.bind fun _ => haccept.bind fun _ => ?_
  simp [callHandler, Action.isCalm]

lemma calm_disconnect (c : Option ContextPtr) (g : Bool) : Calm (disconnect c g) := by
  refine calm_call rfl (.step rfl fun entered => ?_)
  cases entered with
  | false => trivial
  | true =>
      cases c with
      | none => exact .step rfl fun _ => trivial
      | some c =>
          refine .step rfl fun l => calm_deref fun l => .step rfl fun v => .step rfl fun w => ?_
          refine Every.bind ?_ fun _ => .step rfl fun _ => trivial
          split
          · trivial
          · exact calm_disconnectClient c g

lemma calm_send (p : ConnectionPtr) (data : List UInt8) : Calm (send p data) := by
  refine calm_call rfl (.step rfl fun y => ?_)
  split
  · trivial
  · refine .step rfl fun y => .step rfl fun n => Every.bind ?_ fun _ => trivial
    simp [onSentCompleted, callConnection, Action.isCalm]

/-- The end of a receive. -/
lemma settled_received (c : ContextPtr) (r : CallResult) {q : Custody} (hq : q.settled = true) :
    custody.Stays (if r.failed then disconnect (some c) false >>= fun _ => pure commSuccess
      else pure commSuccess) q := by
  split
  · exact ((calm_disconnect (some c) false).stays hq).bind fun _ => rfl
  · rfl

/-! ### The code that a client never comes to -/

lemma passes_void : Passes custody .void where
  ordinary a ha := by
    refine ⟨trivial, fun r => ?_⟩
    cases a <;> first | rfl | cases ha
  disconnect c g := (calm_disconnect c g).stays rfl

lemma void_step {a : Action} {k : a.Res → P α} {N : α → Custody → Prop} (ha : a ≠ .finish)
    (hk : ∀ r, custody.Follows (k r) .void N) :
    custody.Follows (Prog.perform a >>= k) .void N := by
  have hnext : ∀ r, custody.next .void a r = .void := fun r => by
    cases a <;> first | rfl | exact absurd rfl ha
  exact .step trivial fun r => (hnext r).symm ▸ hk r

lemma void_handleNewConnection (c n : ContextPtr) (arg : IocpParam) :
    custody.Stays (handleNewConnection c n arg) .void := by
  refine void_step nofun fun _ => Stays.bind ?_ fun rc => void_step nofun fun _ => rfl
  refine void_step nofun fun v => void_step nofun fun port => void_step nofun fun hs =>
    void_step nofun fun p => void_step nofun fun _ => Stays.bind ?_ fun _ =>
    passes_void.firstReceive n
  split
  · exact passes_void.stays (ordinary_deliver p c arg.ioSize)
  · rfl

lemma void_postExitPackets (n : ℕ) : custody.Stays (postExitPackets n) .void := by
  induction n with
  | zero => rfl
  | succ n ih =>
      refine void_step nofun fun h => ?_
      cases h with
      | none => exact ih
      | some port => exact void_step nofun fun _ => ih

lemma void_stop : custody.Stays stop .void := by
  refine void_step nofun fun _ => Stays.bind ?_ fun rc => void_step nofun fun _ => rfl
  refine Stays.bind (void_step nofun fun _ => void_step nofun fun h => void_step nofun fun n =>
    Stays.bind ?_ fun _ => void_step nofun fun _ => void_step nofun fun l =>
    passes_void.stays (ordinary_afterWait l)) fun _ => void_step nofun fun _ => rfl
  split
  · exact void_postExitPackets n
  · rfl

/-! ### A worker with a packet -/

lemma settled_startReceive (c : ContextPtr) (arg : IocpParam) :
    custody.Follows (startReceive c arg) .passed fun _ q => q.settled = true := by
  refine follows_calm rfl rfl fun _ => follows_calm rfl rfl fun v => .step trivial fun r => ?_
  refine Follows.post (P := fun _ q => q = Custody.idle) ?_ fun _ q hq => by simp [hq]
  split
  · exact follows_calm rfl rfl fun _ => ((calm_disconnect (some c) false).stays rfl).bind
      fun _ => rfl
  · rfl

/-- From `passed`, or where a client never comes to, the next receive is started. -/
lemma settled_startReceive_of {q : Custody} (hq : q = .passed ∨ q = .void) (c : ContextPtr)
    (arg : IocpParam) : custody.Follows (startReceive c arg) q fun _ q' => q'.settled = true := by
  rcases hq with rfl | rfl
  · exact settled_startReceive c arg
  · exact Follows.post (passes_void.startReceive c arg) fun _ q' hq' => by simp [hq']

/-- The data of the packet goes to the connection of its socket. -/
lemma passed_deliver {pkt : Packet} {v : Option SOCKET} {d : Option (List UInt8)}
    (hpkt : ¬ (pkt.succeed = false ∨ pkt.ioSize = 0)) (p : ConnectionPtr) {c : ContextPtr}
    (hkey : pkt.key = some c) :
    custody.Follows (deliver p c pkt.ioSize) (.holding pkt v (some p) d)
      fun _ q => q = .passed ∨ q = .void := by
  refine .step rfl fun y => ?_
  by_cases hy : y.handlers.onDataReceived = true
  · simp only [hy, ↓reduceIte, custody_next, Custody.next]
    refine .step (.inl hkey) fun io => ?_
    simp only [custody_next, Custody.next]
    split
    · exact void_step nofun fun isSet => by cases isSet <;> simp
    · refine .step ⟨rfl, rfl, rfl⟩ fun isSet => ?_
      cases isSet with
      | false => trivial
      | true => exact .step rfl fun _ => .inl rfl
  · simp only [hy, Bool.false_eq_true, ↓reduceIte, custody_next, Custody.next]
    exact .inl rfl

lemma passed_deliverReceived {pkt : Packet} {d : Option (List UInt8)}
    (hpkt : ¬ (pkt.succeed = false ∨ pkt.ioSize = 0)) {c : ContextPtr} (hkey : pkt.key = some c)
    (o : ContextPtr) :
    custody.Follows (deliverReceived c ⟨pkt.ioSize, o⟩) (.holding pkt none none d)
      fun _ q => q = .passed ∨ q = .void := by
  refine .step hkey fun v => .step rfl fun n => ?_
  by_cases hn : n > 0
  · simp only [hn, ↓reduceIte, custody_next, Custody.next]
    refine .step hkey fun v => .step rfl fun p => ?_
    cases p with
    | none => exact .step trivial nofun
    | some p => exact passed_deliver hpkt p hkey
  · simp only [hn, ↓reduceIte, custody_next, Custody.next]
    exact void_step nofun fun _ => void_step nofun fun _ => .inr rfl

lemma settled_handleReceive {pkt : Packet} {d : Option (List UInt8)}
    (hpkt : ¬ (pkt.succeed = false ∨ pkt.ioSize = 0)) {c : ContextPtr} (hkey : pkt.key = some c)
    (o : ContextPtr) :
    custody.Follows (handleReceive c ⟨pkt.ioSize, o⟩) (.holding pkt none none d)
      fun _ q => q.settled = true := by
  refine .step rfl fun _ => Follows.bind (N := fun _ q => q.settled = true) ?_ fun rc q hq => ?_
  · exact (passed_deliverReceived hpkt hkey o).bind fun _ q hq => settled_startReceive_of hq c _
  · refine follows_calm hq rfl fun _ => ?_
    exact hq

lemma settled_alplAssert {f : P ℤ} {k : P Turn} {q : Custody}
    (hf : custody.Follows f q fun _ q' => q'.settled = true)
    (hk : ∀ q', q'.settled = true → custody.Follows k q' fun _ q'' => q''.settled = true) :
    custody.Follows (alplAssert f k) q fun _ q' => q'.settled = true := by
  refine hf.bind fun rc q' hq' => ?_
  split
  · exact hq'
  · exact hk q' hq'

/-- The `switch` for a packet with bytes. -/
lemma settled_switch {pkt : Packet} {d : Option (List UInt8)}
    (hpkt : ¬ (pkt.succeed = false ∨ pkt.ioSize = 0)) {c o : ContextPtr} (hkey : pkt.key = some c)
    (ho : pkt.overlapped = some o) :
    custody.Follows (switch c ⟨pkt.ioSize, o⟩) (.holding pkt none none d)
      fun _ q => q.settled = true := by
  have hagain : custody.Stays (pure .again : P Turn) .void := rfl
  have hvoid : ∀ {p : P Turn}, custody.Stays p .void →
      custody.Follows p .void fun _ q => q.settled = true :=
    fun hp => hp.post fun _ q hq => by simp [hq]
  refine .step (.inr ho) fun io => ?_
  simp only [custody_next, Custody.next, if_neg hpkt]
  cases hop : io.lastOperation with
  | ioAccept =>
      exact hvoid (Passes.alplAssert (passes_void.handleAccept void_handleNewConnection c _)
        (Passes.alplAssert (passes_void.stays ordinary_startAccept) hagain))
  | ioConnect =>
      exact hvoid (Passes.alplAssert (passes_void.handleConnect void_handleNewConnection c _)
        (Passes.alplAssert (passes_void.startReceive c _) hagain))
  | ioReceive =>
      exact settled_alplAssert (settled_handleReceive hpkt hkey o) fun q hq => hq
  | ioSend => exact hvoid (Passes.alplAssert (passes_void.handleSend c _) hagain)

/-- A pointer that a thread uses, untested, while it has a packet. -/
lemma holding_deref {p : Option ℕ} {k : ℕ → P α} {pkt : Packet} {v : Option SOCKET}
    {q : Option ConnectionPtr} {d : Option (List UInt8)} {N : α → Custody → Prop}
    (hk : ∀ c, p = some c → custody.Follows (k c) (.holding pkt v q d) N) :
    custody.Follows (deref p k) (.holding pkt v q d) N := by
  cases p with
  | none => exact .step rfl nofun
  | some c => exact hk c rfl

/-- What the loop does with a packet. -/
lemma settled_handlePacket (pkt : Packet) :
    custody.Follows (handlePacket pkt) (.holding pkt none none none)
      fun _ q => q.settled = true := by
  refine holding_deref fun o ho => .step (.inr ho) fun io => ?_
  simp only [custody_next, Custody.next]
  by_cases hop : io.lastOperation ≠ .ioReceive
  · rw [if_pos hop]
    refine Follows.post (P := fun _ q => q = Custody.void) ?_ fun _ q hq => by simp [hq]
    split
    · exact (passes_void.disconnect pkt.key false).bind fun _ => rfl
    · exact passes_void.deref fun c => passes_void.switch void_handleNewConnection c _
  · rw [if_neg hop]
    by_cases hpkt : pkt.succeed = false ∨ pkt.ioSize = 0
    · -- nothing came with it: the connection is given up
      have hne : io.lastOperation ≠ .ioAccept := by simp [not_not.mp hop]
      rw [if_pos hpkt, if_pos ⟨hne, hpkt⟩]
      exact ((calm_disconnect pkt.key false).stays rfl).bind fun _ => rfl
    · rw [if_neg hpkt, if_neg fun h => hpkt h.2]
      exact holding_deref fun c hc => settled_switch hpkt hc ho

lemma settled_turn (pkt : Packet) :
    custody.Follows (turn pkt) (.holding pkt none none none) fun _ q => q.settled = true := by
  refine .step rfl fun exiting => ?_
  cases exiting with
  | true => exact rfl
  | false =>
      refine .step rfl fun isRunning => ?_
      cases isRunning with
      | false => exact rfl
      | true => exact settled_handlePacket pkt

/-! ### The main thread of a client -/

/-- The main thread before its first receive, whether it has asked for the port or not. -/
lemma fresh_updateCompletionPort (v : SOCKET) :
    custody.Follows (updateCompletionPort v .ioReceive true) (.fresh (some v) false)
      fun _ q => ∃ b, q = .fresh (some v) b := by
  refine Follows.bind (N := fun _ q => q = .fresh (some v) false) ?_ fun c q hq => ?_
  · refine .step rfl fun _ => .step rfl fun entered => ?_
    cases entered with
    | false => exact .step rfl fun _ => rfl
    | true => exact .step rfl fun c => .step rfl fun _ => .step rfl fun _ => rfl
  · subst hq
    cases c with
    | none => exact ⟨false, rfl⟩
    | some c =>
        refine .step rfl fun port => .step rfl fun _ => .step rfl fun _ => .step rfl fun h => ?_
        cases h with
        | none => exact .step rfl fun _ => ⟨true, rfl⟩
        | some port => exact .step rfl fun _ => ⟨true, rfl⟩

lemma settled_startClient (p : ConnectionPtr) :
    custody.Follows (startClient p) (.fresh none false) fun _ q => q = .idle := by
  refine .step rfl fun _ => Follows.bind (N := fun _ q => q = .idle) ?_ fun rc q hq => ?_
  · refine .step rfl fun y => Follows.bind (N := fun _ q => q = .idle) ?_ fun rc q hq => ?_
    · refine (fresh_updateCompletionPort y.socket).bind fun l q hq => ?_
      obtain ⟨b, rfl⟩ := hq
      refine .step rfl fun _ => ?_
      cases l with
      | none => exact .step rfl nofun
      | some l =>
          refine .step rfl fun _ => .step rfl fun v => .step trivial fun r => ?_
          exact settled_received l r rfl
    · subst hq
      split <;> rfl
  · subst hq
    exact .step rfl fun _ => rfl

/-- **All code follows the automaton of the bytes.** -/
theorem code_custody (l : Label) : custody.Follows (code l) l.custody custody.Ends := by
  cases l with
  | workerThread hIOCP =>
      refine .step trivial fun pkt => (settled_turn pkt).bind fun next q hq => ?_
      have hfinish : custody.allowed q .finish ∧ custody.next q .finish () = .idle := by
        cases q <;> first | (cases hq; done) | exact ⟨trivial, rfl⟩
      refine .step hfinish.1 fun r => ?_
      rw [hfinish.2]
      cases next with
      | again => rfl
      | leave => exact .step rfl fun _ => trivial
  | startServer =>
      exact Stays.bind (passes_void.stays ordinary_startServer) fun _ => .step trivial
        fun _ => trivial
  | startClient =>
      refine (settled_startClient clientConnection).bind fun _ q hq => ?_
      subst hq
      exact .step trivial fun _ => trivial
  | stop => exact void_stop.bind fun _ => .step trivial fun _ => trivial
  | send p data =>
      exact (calm_send p data).aside.bind fun _ => .step trivial fun _ => trivial

end

end Alpl.Net
