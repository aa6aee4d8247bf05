import Alpl.Client.Contract

/-!
# The functions of a client keep the contract

The triples of the functions that a client runs, and `Client.contract_holds`.  A worker has one
context in hand, the client's own; `disconnect` finds its socket to be that of `the_socket_context_`
and returns.
-/

namespace Alpl.Net

open Interleaving

namespace Client

variable {u : Setup} {t : Tid} {l : ContextPtr} {v : SOCKET} {α : Type}

/-! ## Rules -/

/-- An assertion that neither the others nor a still action can make false. -/
structure Fact (u : Setup) (t : Tid) (P : State → Prop) : Prop where
  stable : (contract u).Stable t P
  still : ∀ s s', Still s s' → P s → P s'

lemma fact_has (l : ContextPtr) (v : SOCKET) : Fact u t (Has l v) where
  stable s s' _ _ hR := by
    rintro ⟨hl, x, hx, rfl⟩
    obtain ⟨hl', x', hx', hv⟩ := hR.kept l x hl hx
    exact ⟨hl', x', hx', hv⟩
  still s s' h := by
    rintro ⟨hl, x, hx, rfl⟩
    exact ⟨h.theSocketContext.trans hl, x, by rw [h.contexts, hx], rfl⟩

lemma fact_true : Fact u t fun _ => True := ⟨fun _ _ _ _ _ h => h, fun _ _ _ h => h⟩

/-- One action: it has to be allowed, and to lead to what is asserted next. -/
lemma atomic {a : Action} {P : State → Prop} {N : a.Res → State → Prop}
    (hN : ∀ r, (contract u).Stable t (N r)) (hA : ∀ s, (contract u).Ok s → P s → Allowed t a s)
    (hstep : ∀ s o r s', (contract u).Ok s → (contract u).Ok s' → P s →
      exec t a o s = some (r, s') → N r s') :
    (contract u).Atomic (machine .client) t P a N where
  stable := hN
  allowed := hA
  step s o r s' hI hP he hk :=
    have hg := guarantee hI (hA s hI hP) he hk
    ⟨hg, hstep s o r s' hI ⟨hk, hg.inv⟩ hP he⟩

/-- A still action of whose answer something is known. -/
lemma read (a : Action) {P : State → Prop} (hP : Fact u t P) (ha : still a = true)
    (hA : ∀ s, Allowed t a s) (φ : a.Res → Prop)
    (h : ∀ s o r s', (contract u).Ok s → P s → exec t a o s = some (r, s') → φ r) :
    (contract u).Atomic (machine .client) t P a fun r s => φ r ∧ P s :=
  atomic (fun _ => (Contract.Stable.const _).and hP.stable) (fun s _ _ => hA s)
    fun s o r s' hI _ hs he => ⟨h s o r s' hI hs he, hP.still s s' (exec_still ha he) hs⟩

/-- A still action of whose answer nothing is used. -/
lemma skip {a : Action} {P : State → Prop} (hP : Fact u t P) (ha : still a = true)
    (hA : ∀ s, Allowed t a s) :
    (contract u).Atomic (machine .client) t P a fun _ => P :=
  atomic (fun _ => hP.stable) (fun s _ _ => hA s)
    fun s _ _ s' _ _ hs he => hP.still s s' (exec_still ha he) hs

lemma safe_call {f : Frame} {body : P ℤ} {φ : ℤ → Prop} {P Q : State → Prop} (hP : Fact u t P)
    (hQ : Fact u t Q)
    (hbody : (contract u).Safe (machine .client) t body P fun rc s => φ rc ∧ Q s) :
    (contract u).Safe (machine .client) t (call f body) P fun rc s => φ rc ∧ Q s := by
  refine Contract.Safe.step _ (skip hP rfl fun _ => rfl) fun _ => ?_
  refine Contract.Safe.bind hbody fun rc => ?_
  refine Contract.Safe.pure fun hrc => ?_
  exact Contract.Safe.step _ (skip hQ rfl fun _ => rfl) fun _ _ _ h => ⟨hrc, h⟩

/-! ## The context of the client -/

lemma read_theSocketContext :
    (contract u).Atomic (machine .client) t (Has l v) .getTheSocketContext
      fun c s => c = some l ∧ Has l v s := by
  refine read .getTheSocketContext (fact_has l v) rfl (fun _ => rfl) (fun c => c = some l)
    fun s o r s' _ hs he => ?_
  cases o <;> cases he
  exact hs.1

lemma read_socket :
    (contract u).Atomic (machine .client) t (Has l v) (.getSocket l)
      fun w s => w = v ∧ Has l v s := by
  refine read (.getSocket l) (fact_has l v) rfl (fun _ => rfl) (fun w => w = v)
    fun s o r s' _ hs he => ?_
  obtain ⟨-, x, hx, rfl⟩ := hs
  obtain ⟨y, hy, rfl, rfl⟩ := exec_getSocket he
  cases hx.symm.trans hy
  rfl

lemma read_ioContext :
    (contract u).Atomic (machine .client) t (Has l v) (.getIoContext l)
      fun io s => io.lastOperation = .ioReceive ∧ Has l v s := by
  refine read (.getIoContext l) (fact_has l v) rfl (fun _ => rfl)
    (fun io => io.lastOperation = .ioReceive) fun s o r s' hI hs he => ?_
  obtain ⟨y, hy, rfl, -⟩ := exec_getIoContext he
  exact hI.inv.receives l y hy

/-- `disconnect` does nothing to the connection of a client. -/
lemma safe_disconnect (g : Bool) :
    (contract u).Safe (machine .client) t (disconnect (some l) g) (Has l v)
      fun _ s => True ∧ Has l v s := by
  refine safe_call (fact_has l v) (fact_has l v) ?_
  refine Contract.Safe.step _ (skip (fact_has l v) rfl fun _ => rfl) fun entered => ?_
  cases entered with
  | false => exact fun _ _ h => ⟨trivial, h⟩
  | true =>
      refine Contract.Safe.step _ read_theSocketContext fun c => Contract.Safe.pure fun hc => ?_
      subst hc
      refine Contract.Safe.step _ read_socket fun w => Contract.Safe.pure fun hw => ?_
      refine Contract.Safe.step _ read_socket fun w' => Contract.Safe.pure fun hw' => ?_
      rw [if_pos (hw.trans hw'.symm)]
      exact Contract.Safe.step _ (skip (fact_has l v) rfl fun _ => rfl) fun _ _ _ h => ⟨trivial, h⟩

lemma atomic_wsaRecv (len : ℕ) :
    (contract u).Atomic (machine .client) t (Has l v) (.wsaRecv v l len) fun _ => Has l v := by
  refine atomic (fun _ => (fact_has l v).stable) (fun s _ hs => hs) ?_
  intro s o r s' _ _ hs he
  obtain ⟨-, k, -, rfl⟩ | ⟨-, rfl⟩ := exec_wsaRecv he <;> exact hs

lemma atomic_setLastOperation :
    (contract u).Atomic (machine .client) t (Has l v) (.setLastOperation l .ioReceive)
      fun _ => Has l v := by
  refine atomic (fun _ => (fact_has l v).stable) (fun s _ hs => ⟨hs.1, rfl⟩) ?_
  intro s o r s' _ _ hs he
  obtain ⟨hl, x, hx, rfl⟩ := hs
  obtain ⟨y, hy, rfl⟩ := exec_setLastOperation he
  cases hx.symm.trans hy
  exact ⟨hl, _, Function.update_self _ _ _, rfl⟩

/-- The receive that both `init_receive` and `start_receive` post. -/
lemma safe_firstReceive :
    (contract u).Safe (machine .client) t (firstReceive l) (Has l v)
      fun rc s => rc = commSuccess ∧ Has l v s := by
  refine Contract.Safe.step _ atomic_setLastOperation fun _ => ?_
  refine Contract.Safe.step _ read_socket fun w => Contract.Safe.pure fun hw => ?_
  subst hw
  refine Contract.Safe.step _ (atomic_wsaRecv maxBuffSize) fun r => ?_
  split
  · exact Contract.Safe.bind (safe_disconnect false) fun _ _ _ h => ⟨rfl, h.2⟩
  · exact fun _ _ h => ⟨rfl, h⟩

lemma safe_startReceive (size : ℕ) :
    (contract u).Safe (machine .client) t (startReceive l ⟨size, l⟩) (Has l v)
      fun rc s => rc = commSuccess ∧ Has l v s := by
  refine Contract.Safe.step _ atomic_setLastOperation fun _ => ?_
  refine Contract.Safe.step _ read_socket fun w => Contract.Safe.pure fun hw => ?_
  subst hw
  refine Contract.Safe.step _ (atomic_wsaRecv maxBuffSize) fun r => ?_
  split
  · refine Contract.Safe.step _ (skip (fact_has l w) rfl fun _ => rfl) fun _ => ?_
    exact Contract.Safe.bind (safe_disconnect false) fun _ _ _ h => ⟨rfl, h.2⟩
  · exact fun _ _ h => ⟨rfl, h⟩

/-! ## Callbacks -/

/-- A callback other than `onDisconnected` that is called is not empty: otherwise the history
would show an empty call. -/
lemma safe_callConnection {q : ConnectionPtr} {k : CallbackKind} {p : Option ConnectionPtr}
    {data : List UInt8} {P : State → Prop} (hP : Fact u t P) (hk : k ≠ .onDisconnected) :
    (contract u).Safe (machine .client) t (callConnection q k p data) P fun _ => P := by
  refine Contract.Safe.step (fun r s => r = true ∧ P s)
    (atomic (fun _ => (Contract.Stable.const _).and hP.stable) (fun _ _ _ => hk) ?_) fun r => ?_
  · intro s o r s' _ hI' hs he
    refine ⟨?_, hP.still s s' (exec_still rfl he) hs⟩
    obtain ⟨y, hy, hr⟩ := exec_invokeConnection he
    by_contra hne
    simp only [exec.invoke] at hr
    split at hr <;> cases hr
    · exact hne rfl
    · exact hI'.inv.emptyCall t k List.mem_cons_self
  · refine Contract.Safe.pure fun hr => ?_
    rw [if_pos hr]
    exact Contract.Safe.perform (skip hP rfl fun _ => rfl)

lemma safe_deliver (p : ConnectionPtr) (c : ContextPtr) (size : ℕ) {P : State → Prop}
    (hP : Fact u t P) :
    (contract u).Safe (machine .client) t (deliver p c size) P fun _ => P := by
  refine Contract.Safe.step _ (skip hP rfl fun _ => rfl) fun y => ?_
  split
  · refine Contract.Safe.step _ (skip hP rfl fun _ => rfl) fun io => ?_
    exact safe_callConnection hP (by decide)
  · exact fun _ _ h => h

lemma safe_deliverReceived (c : ContextPtr) (arg : IocpParam) {P : State → Prop}
    (hP : Fact u t P) :
    (contract u).Safe (machine .client) t (deliverReceived c arg) P fun _ => P := by
  refine Contract.Safe.step _ (skip hP rfl fun _ => rfl) fun v => ?_
  refine Contract.Safe.step _ (skip hP rfl fun _ => rfl) fun m => ?_
  split
  · refine Contract.Safe.step _ (skip hP rfl fun _ => rfl) fun v => ?_
    refine Contract.Safe.step _ (skip hP rfl fun _ => rfl) fun p => ?_
    cases p with
    | none => exact Contract.Safe.step _ (skip hP rfl fun _ => rfl) fun e => nomatch e
    | some p => exact safe_deliver p c arg.ioSize hP
  · refine Contract.Safe.step _ (skip hP rfl fun _ => rfl) fun v => ?_
    exact Contract.Safe.step _ (skip hP rfl fun _ => rfl) fun _ _ _ h => h

lemma safe_handleReceive (size : ℕ) :
    (contract u).Safe (machine .client) t (handleReceive l ⟨size, l⟩) (Has l v)
      fun rc s => rc = commSuccess ∧ Has l v s :=
  safe_call (fact_has l v) (fact_has l v)
    (Contract.Safe.bind (safe_deliverReceived l _ (fact_has l v)) fun _ => safe_startReceive size)

/-! ## The loop of the workers -/

lemma safe_switch (size : ℕ) :
    (contract u).Safe (machine .client) t (switch l ⟨size, l⟩) (Has l v)
      fun next s => next = .again ∧ Has l v s := by
  refine Contract.Safe.step _ read_ioContext fun io => Contract.Safe.pure fun hio => ?_
  rw [hio]
  refine Contract.Safe.bind (safe_handleReceive size) fun rc => Contract.Safe.pure fun hrc => ?_
  subst hrc
  exact fun _ _ h => ⟨rfl, h⟩

lemma safe_handlePacket {pkt : Packet} (hkey : pkt.key = some l) (ho : pkt.overlapped = some l) :
    (contract u).Safe (machine .client) t (handlePacket pkt) (Has l v)
      fun next s => next = .again ∧ Has l v s := by
  rw [handlePacket, ho, hkey]
  refine Contract.Safe.step _ read_ioContext fun io => Contract.Safe.pure fun _ => ?_
  split
  · exact Contract.Safe.bind (safe_disconnect false) fun _ _ _ h => ⟨rfl, h.2⟩
  · exact safe_switch pkt.ioSize

/-- No turn of a client ends the loop. -/
lemma safe_turn {pkt : Packet} (hkey : pkt.key = some l) (ho : pkt.overlapped = some l) :
    (contract u).Safe (machine .client) t (turn pkt) (Has l v)
      fun next s => next = .again ∧ Has l v s := by
  refine Contract.Safe.step _ (read .getExiting (fact_has l v) rfl (fun _ => rfl)
    (fun r => r = false) fun s o r s' hI _ he => ?_) fun r => Contract.Safe.pure fun hr => ?_
  · cases o <;> cases he
    exact hI.inv.exiting
  subst hr
  refine Contract.Safe.step _ (read .getIsRunning (fact_has l v) rfl (fun _ => rfl)
    (fun r => r = true) fun s o r s' hI _ he => ?_) fun r => Contract.Safe.pure fun hr => ?_
  · cases o <;> cases he
    exact hI.known.2.isRunning
  subst hr
  exact safe_handlePacket hkey ho

lemma safe_workerThread (q : Port) :
    (contract u).Safe (machine .client) t (workerThread q) (fun _ => True)
      fun next _ => next = some (.workerThread q) := by
  refine Contract.Safe.step
    (fun pkt s => ∃ l v, (pkt.key = some l ∧ pkt.overlapped = some l) ∧ Has l v s)
    (atomic (fun pkt => Contract.Stable.exists fun l => Contract.Stable.exists fun v =>
      (Contract.Stable.const _).and (fact_has l v).stable) (fun _ _ _ => trivial) ?_) fun pkt => ?_
  · intro s o r s' hI _ _ he
    obtain ⟨rest, hq, rfl⟩ := exec_getQueuedCompletionStatus he
    obtain ⟨l, hl, hpkt⟩ := hI.inv.packets q _ (hq ▸ List.mem_cons_self)
    obtain ⟨x, hx, -⟩ := hI.inv.own l hl
    exact ⟨l, x.socket, hpkt, hl, x, hx, rfl⟩
  refine Contract.Safe.exists fun l => Contract.Safe.exists fun v => Contract.Safe.pure fun h => ?_
  refine Contract.Safe.bind (safe_turn h.1 h.2) fun next => Contract.Safe.pure fun hnext => ?_
  subst hnext
  exact Contract.Safe.step _ (skip (fact_has l v) rfl fun _ => rfl) fun _ _ _ _ => rfl

/-! ## Start -/

/-- The main thread, before there is a context. -/
def Alone (s : State) : Prop := s.theSocketContext = none

/-- The main thread has made the context `c` for the socket `v`, and nobody else knows it. -/
def Made (c : ContextPtr) (v : SOCKET) (s : State) : Prop :=
  Alone s ∧ ∃ x, s.contexts c = some x ∧ x.socket = v

/-- The socket of the new context completes with the context as its key. -/
def Associated (c : ContextPtr) (v : SOCKET) (s : State) : Prop :=
  Made c v s ∧ ∀ k, s.handles v = some k → ∃ q, (s.sockets k).assoc = some (q, c)

lemma fact_of_still {P : State → Prop} (h0 : ∀ s, P s → Alone s)
    (h : ∀ s s', Still s s' → P s → P s') : Fact u .main P :=
  ⟨fun s s' _ _ hR hs => h s s' (hR.main rfl (h0 s hs)).1 hs, h⟩

lemma fact_alone : Fact u .main Alone :=
  fact_of_still (fun _ h => h) fun _ _ h hs => h.theSocketContext.trans hs

lemma fact_made (c : ContextPtr) (v : SOCKET) : Fact u .main (Made c v) := by
  refine fact_of_still (fun _ h => h.1) ?_
  rintro s s' h ⟨hs, x, hx, hv⟩
  exact ⟨h.theSocketContext.trans hs, x, by rw [h.contexts, hx], hv⟩

lemma fact_associated (c : ContextPtr) (v : SOCKET) : Fact u .main (Associated c v) := by
  refine fact_of_still (fun _ h => h.1.1) fun s s' h hs => ?_
  refine ⟨(fact_made (u := u) c v).still s s' h hs.1, ?_⟩
  rw [h.handles, h.sockets]
  exact hs.2

lemma safe_createSocketContext (v : SOCKET) :
    (contract u).Safe (machine .client) .main (createSocketContext v .ioReceive) Alone
      fun c s => Alone s ∧ ∀ c', c = some c' → Made c' v s := by
  refine Contract.Safe.step _ (skip fact_alone rfl fun _ => rfl) fun _ => ?_
  refine Contract.Safe.step _ (skip fact_alone rfl fun _ => rfl) fun entered => ?_
  cases entered with
  | false =>
      exact Contract.Safe.step _ (skip fact_alone rfl fun _ => rfl) fun _ _ _ h => ⟨h, nofun⟩
  | true =>
      refine Contract.Safe.step (fun c => Made c v)
        (atomic (fun c => (fact_made c v).stable) (fun s _ hs => ⟨rfl, hs, rfl⟩) ?_) fun c => ?_
      · intro s o r s' _ _ hs he
        cases o <;> cases he
        exact ⟨hs, _, Function.update_self _ _ _, rfl⟩
      refine Contract.Safe.step _ (skip (fact_made c v) rfl fun _ => rfl) fun _ => ?_
      refine Contract.Safe.step _ (skip (fact_made c v) rfl fun _ => rfl) fun _ _ _ h => ⟨h.1, ?_⟩
      rintro c' ⟨⟩
      exact h

/-- The association was tried, and `h` tells whether it succeeded. -/
def Tried (c : ContextPtr) (v : SOCKET) (h : Option Port) (s : State) : Prop :=
  Made c v s ∧ (h ≠ none → Associated c v s)

lemma fact_tried (c : ContextPtr) (v : SOCKET) (h : Option Port) : Fact u .main (Tried c v h) :=
  fact_of_still (fun _ hs => hs.1.1) fun s s' hst hs =>
    ⟨(fact_made (u := u) c v).still s s' hst hs.1,
      fun hh => (fact_associated (u := u) c v).still s s' hst (hs.2 hh)⟩

lemma atomic_createIoCompletionPort {c : ContextPtr} (port : Option Port) :
    (contract u).Atomic (machine .client) .main (Made c v) (.createIoCompletionPort v port c)
      (Tried c v) := by
  refine atomic (fun h => (fact_tried c v h).stable) (fun s _ hs => ⟨rfl, hs.1⟩) ?_
  intro s o r s' _ _ hs he
  obtain ⟨-, k, hk, -, rfl⟩ | ⟨rfl, rfl⟩ := exec_createIoCompletionPort he
  · refine ⟨hs, fun _ => ⟨hs, fun k' hk' => ?_⟩⟩
    obtain rfl : k = k' := Option.some.inj (hk.symm.trans hk')
    exact ⟨_, (congrArg SocketObject.assoc (Function.update_self k _ s.sockets)).trans rfl⟩
  · exact ⟨hs, fun h => absurd rfl h⟩

lemma stable_tried_handle (c : ContextPtr) (v : SOCKET) (h : Option Port) :
    (contract u).Stable .main fun s => Tried c v h s ∧ s.iocpHandle = h :=
  fun s s' hI hI' hR hs => ⟨(fact_tried c v h).stable s s' hI hI' hR hs.1,
    (hR.main rfl hs.1.1.1).2.trans hs.2⟩

lemma safe_updateCompletionPort (v : SOCKET) :
    (contract u).Safe (machine .client) .main (updateCompletionPort v .ioReceive true) Alone
      fun c s => Alone s ∧ ∀ c', c = some c' → Associated c' v s := by
  refine Contract.Safe.bind (safe_createSocketContext v) fun c => ?_
  cases c with
  | none => exact fun _ _ h => ⟨h.1, nofun⟩
  | some c =>
      refine Contract.Safe.pre (N := Made c v) ?_ fun s _ h => h.2 c rfl
      refine Contract.Safe.step _ (skip (fact_made c v) rfl fun _ => rfl) fun port => ?_
      refine Contract.Safe.step _ (atomic_createIoCompletionPort port) fun h => ?_
      refine Contract.Safe.step (fun _ s => Tried c v h s ∧ s.iocpHandle = h)
        (atomic (fun _ => stable_tried_handle c v h) (fun _ _ _ => rfl) ?_) fun _ => ?_
      · intro s o r s' _ _ hs he
        refine ⟨(fact_tried (u := u) c v h).still s s' (exec_still rfl he) hs, ?_⟩
        cases o <;> cases he
        rfl
      refine Contract.Safe.step (fun r s => r = h ∧ Tried c v h s)
        (atomic (fun _ => (Contract.Stable.const _).and (fact_tried c v h).stable)
          (fun _ _ _ => rfl) ?_) fun r => Contract.Safe.pure fun hr => ?_
      · intro s o r s' _ _ hs he
        cases o <;> cases he
        exact ⟨hs.2, hs.1⟩
      subst hr
      cases r with
      | none =>
          refine Contract.Safe.step (fun _ => Alone) (atomic (fun _ => fact_alone.stable)
            (fun s _ hs => ⟨rfl, hs.1.1⟩) ?_) fun _ _ _ h => ⟨h, nofun⟩
          intro s o r s' _ _ hs he
          obtain ⟨x, -, rfl⟩ := exec_freeContext he
          exact hs.1.1
      | some q =>
          refine Contract.Safe.step _ (skip (fact_tried c v (some q)) rfl fun _ => rfl)
            fun _ s _ h => ⟨h.1.1, ?_⟩
          rintro c' ⟨⟩
          exact h.2 nofun

lemma safe_initReceive (v : SOCKET) :
    (contract u).Safe (machine .client) .main (initReceive v) Alone fun _ _ => True := by
  refine Contract.Safe.bind (safe_updateCompletionPort v) fun c => ?_
  cases c with
  | none =>
      refine Contract.Safe.pre (N := Alone) ?_ fun s _ h => h.1
      refine Contract.Safe.step (fun _ => Alone) (atomic (fun _ => fact_alone.stable)
        (fun s _ hs => ⟨rfl, hs, nofun⟩) ?_) fun _ => ?_
      · intro s o r s' _ _ hs he
        cases o <;> cases he
        rfl
      · exact Contract.Safe.step _ (skip fact_alone rfl fun _ => rfl) fun e => nomatch e
  | some l =>
      refine Contract.Safe.pre (N := Associated l v) ?_ fun s _ h => h.2 l rfl
      refine Contract.Safe.step (fun _ => Has l v) (atomic (fun _ => (fact_has l v).stable) ?_ ?_)
        fun _ => (safe_firstReceive).post fun _ _ _ _ => trivial
      · rintro s _ ⟨⟨h0, x, hx, rfl⟩, hk⟩
        refine ⟨rfl, h0, ?_⟩
        rintro l' ⟨⟩
        exact ⟨x, hx, hk⟩
      · intro s o r s' _ _ hs he
        cases o <;> cases he
        exact ⟨rfl, hs.1.2⟩

lemma safe_startClient (p : ConnectionPtr) :
    (contract u).Safe (machine .client) .main (startClient p) Alone fun _ _ => True := by
  refine (safe_call (φ := fun _ => True) fact_alone fact_true ?_).post fun _ _ _ _ => trivial
  refine Contract.Safe.step _ (skip fact_alone rfl fun _ => rfl) fun y => ?_
  refine Contract.Safe.bind (safe_initReceive y.socket) fun rc => ?_
  split <;> exact fun _ _ _ => ⟨trivial, trivial⟩

/-! ## Sending -/

lemma safe_send (p : ConnectionPtr) (data : List UInt8) :
    (contract u).Safe (machine .client) t (send p data) (fun _ => True) fun _ _ => True := by
  refine (safe_call (φ := fun _ => True) fact_true fact_true ?_).post fun _ _ _ _ => trivial
  refine Contract.Safe.step _ (skip fact_true rfl fun _ => rfl) fun y => ?_
  split
  · exact fun _ _ _ => ⟨trivial, trivial⟩
  refine Contract.Safe.step _ (skip fact_true rfl fun _ => rfl) fun y => ?_
  refine Contract.Safe.step _ (skip fact_true rfl fun _ => rfl) fun _ => ?_
  refine Contract.Safe.bind (N := fun _ _ => True) ?_ fun _ _ _ _ => ⟨trivial, trivial⟩
  refine Contract.Safe.step _ (skip fact_true rfl fun _ => rfl) fun y => ?_
  split
  · exact safe_callConnection fact_true (by decide)
  · exact fun _ _ h => h

/-! ## The contract holds -/

/-- The network keeps the contract: an operation can only be in flight once there is a context,
and its packet names that context. -/
lemma guarantee_osStep {e : OsEvent} {s s' : State} (hI : (contract u).Ok s)
    (h : osStep e s = some s') : (contract u).Guarantee none s s' := by
  have hund := undisturbed_osStep h
  obtain ⟨op, he⟩ := osStep_effect h
  obtain ⟨hop, hassoc⟩ := hI.inv.pending op he.mem
  have hctx : ∀ c x', s'.contexts c = some x' → ∃ x, s.contexts c = some x ∧
      x'.socket = x.socket ∧ x'.ioContext.lastOperation = x.ioContext.lastOperation := by
    intro c x' hx'
    obtain ⟨g, hg⟩ := he.contexts c
    rw [hg] at hx'
    obtain ⟨x, hx, rfl⟩ := Option.map_eq_some_iff.mp hx'
    exact ⟨x, hx, rfl, rfl⟩
  have hctx' : ∀ c x, s.contexts c = some x → ∃ x', s'.contexts c = some x' ∧
      x'.socket = x.socket := by
    intro c x hx
    obtain ⟨g, hg⟩ := he.contexts c
    exact ⟨{ x with ioContext.buffer := g x.ioContext.buffer }, by rw [hg, hx]; rfl, rfl⟩
  refine ⟨⟨?_, ?_, ?_, ?_, ?_, ?_, ?_⟩, fun t _ => ⟨hund.steady t, ?_, ?_⟩, trivial⟩
  · intro c x' hx'
    obtain ⟨x, hx, -, hl⟩ := hctx c x' hx'
    rw [hl]
    exact hI.inv.receives c x hx
  · intro l hl
    rw [he.theSocketContext] at hl
    obtain ⟨x, hx, hk⟩ := hI.inv.own l hl
    obtain ⟨x', hx', hv⟩ := hctx' l x hx
    refine ⟨x', hx', fun k => ?_⟩
    rw [he.handles, hv, (he.sockets k).1]
    exact hk k
  · intro op' hop'
    rw [he.pending] at hop'
    rw [he.theSocketContext, (he.sockets op'.sock).1]
    exact hI.inv.pending op' (List.mem_of_mem_erase hop')
  · intro q pkt hpkt
    rw [he.theSocketContext]
    rcases he.queue q pkt hpkt with hmem | ⟨key, hkey, hpk, hpo⟩
    · exact hI.inv.packets q pkt hmem
    · obtain ⟨q', hq'⟩ := hassoc
      rw [hkey] at hq'
      cases hq'
      exact ⟨_, hop, hpk, hpo⟩
  · rw [hund.exiting]
    exact hI.inv.exiting
  · rw [he.alive, hund.workers]
    exact hI.inv.alive
  · rw [hund.history]
    exact hI.inv.emptyCall
  · intro l x hl hx
    exact ⟨he.theSocketContext.trans hl, hctx' l x hx⟩
  · exact fun _ h0 => nomatch h0.symm.trans hop

/-- **A client keeps its contract.** -/
theorem contract_holds : (contract u).Holds (machine .client) where
  idle_stable _ := fun _ _ _ _ _ h => h
  entry_stable t l := by
    cases l with
    | workerThread q => exact fun _ _ _ _ _ h => h
    | startServer => exact fun _ _ _ _ _ h => h
    | startClient =>
        rintro s s' hI hI' hR ⟨rfl, h0⟩
        exact ⟨rfl, fact_alone.stable s s' hI hI' hR h0⟩
    | stop => exact fun _ _ _ _ _ h => h
    | send p data => exact fun _ _ _ _ _ h => h
  died_stable _ := fun _ _ _ _ _ h => h
  env e s s' hI he _ := guarantee_osStep hI he
  enter t l s s' hI hidle he _ := by
    obtain rfl := enter_eq he
    refine ⟨⟨hI.inv, fun v _ => ⟨.refl v s', fun l x hl hx => ⟨hl, x, hx, rfl⟩, fun _ _ => ?_⟩,
      trivial⟩, ?_⟩
    · exact ⟨⟨rfl, rfl, rfl, rfl, rfl, rfl, rfl⟩, rfl⟩
    · cases t <;> cases l <;> first | exact hidle | simp [machine, handlerMachine, enter] at he
  code t l := by
    have hrun : ∀ {f : P ℤ} {P : State → Prop} (hP : ∀ i, t = .worker i → u.workers ≤ i),
        (contract u).Safe (machine .client) t f P (fun _ _ => True) →
        (contract u).Safe (machine .client) t (run f) P ((contract u).Exit t) :=
      fun hP hf => Contract.Safe.bind hf fun _ =>
        Contract.Safe.step _ (skip fact_true rfl fun _ => rfl) fun _ _ _ _ => hP
    cases l with
    | workerThread q =>
        by_cases ht : t = .main
        · exact Contract.Safe.vacuous _ fun _ _ h => h ht
        · refine ((safe_workerThread q).pre fun _ _ _ => trivial).post fun next _ _ h => ?_
          subst h
          exact ht
    | startServer => exact Contract.Safe.vacuous _ fun _ _ h => h
    | startClient =>
        refine Contract.Safe.pure fun ht => ?_
        subst ht
        exact hrun (fun _ => nofun) (safe_startClient clientConnection)
    | stop => exact Contract.Safe.vacuous _ fun _ _ h => h
    | send p data =>
        by_cases ht : ∀ i, t = .worker i → u.workers ≤ i
        · exact (hrun ht (safe_send p data)).pre fun _ _ _ => trivial
        · exact Contract.Safe.vacuous _ fun _ _ h => ht h

lemma inv_init (u : Setup) (v : SOCKET) : Inv (State.initClient u v) where
  receives _ _ := nofun
  own _ := nofun
  pending _ h := absurd h List.not_mem_nil
  packets _ _ h := absurd h List.not_mem_nil
  exiting := rfl
  alive _ h := decide_eq_true h
  emptyCall _ _ := nofun

lemma good_init (u : Setup) {v : SOCKET} (hv : v ≠ invalidSocket) :
    (contract u).Good (machine .client) (clientInit u v) := by
  have hreach : Reachable .client u (clientInit u v) := ⟨_, .client v hv, .refl _⟩
  refine ⟨⟨⟨hreach.handler.ok.inv, hreach.setUp⟩, inv_init u v⟩, fun t => ?_⟩
  have hrun : ∀ l, (contract u).Entry t l (State.initClient u v) →
      (contract u).ThreadOk (machine .client) t (.running (code l)) (State.initClient u v) :=
    fun l h => ⟨_, contract_holds.entry_stable t l, h, contract_holds.code t l⟩
  cases t with
  | main => exact hrun .startClient ⟨rfl, rfl⟩
  | worker i =>
      show (contract u).ThreadOk _ _ (initThreads u .startClient (.worker i)) _
      rw [initThreads_worker]
      split
      · exact hrun (.workerThread handlerPort) nofun
      · rename_i hi
        rintro j ⟨⟩
        exact Nat.le_of_not_lt hi
  | user i => exact fun _ => nofun

end Client

/-- **Every run of a client keeps the contract of a client.** -/
theorem Reachable.client {u : Setup} {G : Config Action Action.Res State Tid Label}
    (h : Reachable .client u G) : (Client.contract u).Good (machine .client) G := by
  obtain ⟨G₀, h0, hr⟩ := h
  cases h0 with
  | client v hv =>
      refine Client.contract_holds.sound (fun G' hr' => ?_) hr (Client.good_init u hv)
      have hreach : Reachable .client u G' := ⟨_, .client v hv, hr'⟩
      exact ⟨hreach.handler.ok.inv, hreach.setUp⟩

end Alpl.Net
