import Alpl.Server.Teardown

/-!
# Receiving

The triples of the functions that pass the bytes of a connection to the user and receive again.
While a thread serves a connection it knows which bytes are still to be passed on; after
`deliver` there are none, and only then is the next `WSARecv` posted or the connection torn down.
-/

namespace Alpl.Net

open Interleaving

namespace Server

variable {u : Setup} {t : Tid} {fs : List Frame}
variable {l c d : ContextPtr} {v : SOCKET} {k : SockId} {p : ConnectionPtr}
variable {data : List UInt8} {rest : List ContextPtr} {size : ℕ}

/-! ## Passing on -/

/-- Thread `t` serves the connection and has not called `disconnect` for it. -/
def Works (t : Tid) (l c : ContextPtr) (rest : List ContextPtr) (v : SOCKET) (k : SockId)
    (p : ConnectionPtr) (data : List UInt8) (s : State) : Prop :=
  Serves t l c rest v k p data s ∧ NotCalled c s

lemma fact_works : Fact t (Works t l c rest v k p data) := fun s s' hI hO hR h =>
  ⟨fact_serves s s' hI hO hR h.1, hR.notCalled h.1.mem h.2⟩

lemma fact_brings (hd : d ∈ c :: rest) :
    Fact t fun s => Works t l c rest v k p data s ∧ Brings d size data s := fun s s' hI hO hR h =>
  ⟨fact_works s s' hI hO hR h.1, hR.brings (h.1.1.holds ▸ hd) h.2⟩

/-- The callback for the bytes that are still to be passed on. -/
lemma safe_callData (hset : u.handlers.onDataReceived = true) :
    (contract u).Safe (machine .server) t (callConnection p .onDataReceived (some p) data)
      (At t fs (Works t l c rest v k p data)) fun _ => At t fs (Works t l c rest v k p []) := by
  refine Contract.Safe.step (Called t fs .onDataReceived (some p) (Works t l c rest v k p []))
    (atomic (stable_called fact_works) ?_ ?_) (safe_called fact_works)
  · rintro s hI hP -
    have hs := hP.fact.1
    have hdata := hs.todo ((congrArg Handlers.onDataReceived hI.known.2.handlers).trans hset)
    exact ⟨p, c, rfl, hs.serving hs.apart, hs.registered.madeFor, hdata⟩
  · intro s o r s' hI _ hP he
    obtain ⟨hs, hnever⟩ := hP.fact
    obtain ⟨y, -, hr⟩ := exec_invokeConnection he
    refine called_of_invoke hr hP.stack fun hrt => ?_
    subst hrt
    unfold exec.invoke at hr
    split at hr <;> cases hr
    refine ⟨{ hs with todo := fun hd j hj => ?_ }, hnever⟩
    have hnew : State.delivered
        ((s.setStack t (.callback .onDataReceived (some p) :: s.stack t)).record
          (.callback t .onDataReceived (some p) data)) p = s.delivered p ++ data := by
      rw [State.delivered, record_history, State.deliveredIn, State.dataFor, if_pos rfl]
      rfl
    rw [hnew, List.append_nil]
    exact hs.todo hd j hj

lemma read_handlers {Φ : State → Prop} (hΦ : Fact t Φ) :
    (contract u).Atomic (machine .server) t (At t fs Φ) (.getConnection p)
      fun y s => y.handlers = u.handlers ∧ At t fs Φ s := by
  refine read (a := .getConnection p) rfl hΦ (fun y => y.handlers = u.handlers)
    (fun _ _ _ => trivial) fun s o r s' hI _ he => ?_
  obtain ⟨hy, -⟩ := exec_getConnection he
  exact (hI.known.1.objects p _ hy).2.trans hI.known.2.handlers

/-- The bytes that a completion has brought go to the user, if the user wants them. -/
lemma safe_deliver (hd : d ∈ c :: rest) :
    (contract u).Safe (machine .server) t (deliver p d size)
      (At t fs fun s => Works t l c rest v k p data s ∧ Brings d size data s)
      fun _ => At t fs (Works t l c rest v k p []) := by
  refine Contract.Safe.step _ (read_handlers (fact_brings hd)) fun y =>
    Contract.Safe.pure fun hy => ?_
  rw [hy]
  by_cases hset : u.handlers.onDataReceived = true
  · rw [if_pos hset]
    refine Contract.Safe.step _ (read_getIoContext (fun io => io.buffer.take size = data)
      (fact_brings hd) (fun s h => .inl (h.1.1.holds ▸ hd)) fun s x _ hs hx => ?_) fun io =>
      Contract.Safe.pure fun hio => ?_
    · obtain ⟨x', hx', hb⟩ := hs.2
      obtain rfl := Option.some.inj (hx.symm.trans hx')
      exact hb
    · rw [hio]
      exact (safe_callData hset).pre fun _ _ h => h.imp And.left
  · rw [if_neg hset]
    refine fun s hI h => h.imp fun hs => ⟨{ hs.1.1 with todo := fun hd => ?_ }, hs.1.2⟩
    exact absurd ((congrArg Handlers.onDataReceived hI.known.2.handlers).symm.trans hd) hset

/-- The branch of `handle_receive` for a connection that `connections_` does not have is not
taken. -/
lemma safe_deliverReceived {o : ContextPtr} :
    (contract u).Safe (machine .server) t (deliverReceived c ⟨size, o⟩)
      (At t fs fun s => Works t l c rest v k p data s ∧ Brings c size data s)
      fun _ => At t fs (Works t l c rest v k p []) := by
  have hfact : Fact t fun s => Works t l c rest v k p data s ∧ Brings c size data s :=
    fact_brings List.mem_cons_self
  have hsocket : (contract u).Atomic (machine .server) t
      (At t fs fun s => Works t l c rest v k p data s ∧ Brings c size data s) (.getSocket c)
      fun w s => w = v ∧
        At t fs (fun s => Works t l c rest v k p data s ∧ Brings c size data s) s :=
    read_getSocket (· = v) hfact (fun _ h => .inl h.1.1.mem)
      fun _ _ _ hs hx => (socket_of_serves hs.1.1 hx).1
  refine Contract.Safe.step _ hsocket fun w => Contract.Safe.pure fun hw => ?_
  subst hw
  refine Contract.Safe.step _ (read (a := .countConnection w) rfl hfact (fun m => m > 0)
    (fun s _ hP => ⟨p, hP.fact.1.1.registered.2.1⟩) fun s o r s' _ hs he => ?_) fun m =>
    Contract.Safe.pure fun hm => ?_
  · cases o <;> cases he
    rw [hs.1.1.registered.2.1]
    exact Nat.one_pos
  rw [if_pos hm]
  refine Contract.Safe.step _ hsocket fun w' => Contract.Safe.pure fun hw' => ?_
  subst hw'
  refine Contract.Safe.step _ (read_indexConnection hfact fun _ h => h.1.1.registered.2.1)
    fun q => Contract.Safe.pure fun hq => ?_
  subst hq
  exact safe_deliver List.mem_cons_self

/-! ## Receiving again -/

/-- The next operation on the context is a receive. -/
def Receives (c : ContextPtr) (s : State) : Prop :=
  ∃ x, s.contexts c = some x ∧ x.ioContext.lastOperation = .ioReceive

lemma fact_receives :
    Fact t fun s => Works t l c rest v k p data s ∧ Receives c s := fun s s' hI hO hR h => by
  refine ⟨fact_works s s' hI hO hR h.1, ?_⟩
  rw [Receives, (hR.kept c h.1.1.mem).context (h.1.1.the_ne h.1.1.apart)]
  exact h.2

lemma atomic_setLastOperation :
    (contract u).Atomic (machine .server) t (At t fs (Works t l c rest v k p data))
      (.setLastOperation c .ioReceive)
      fun _ => At t fs fun s => Works t l c rest v k p data s ∧ Receives c s := by
  refine change (fun _ => fact_receives) ?_ ?_ ?_
  · exact fun s _ hP => ⟨hP.fact.1.serving hP.fact.1.apart, rfl⟩
  · intro s o r s' he
    obtain ⟨x, -, rfl⟩ := exec_setLastOperation he
    rfl
  · intro s o r s' _ _ hs he
    obtain ⟨x, hx, rfl⟩ := exec_setLastOperation he
    have hself := Function.update_self c
      (some { x with ioContext.lastOperation := .ioReceive }) s.contexts
    obtain ⟨⟨⟨y, hy, hv⟩, hattached⟩, hregistered⟩ := hs.1.registered
    obtain rfl := Option.some.inj (hx.symm.trans hy)
    exact ⟨⟨{ hs.1 with registered := ⟨⟨⟨_, hself, hv⟩, hattached⟩, hregistered⟩ }, hs.2⟩,
      _, hself, rfl⟩

/-- The next receive is posted, and then the context belongs to the queue, or it fails. -/
lemma atomic_wsaRecv (hfs : NoData fs) {len : ℕ} :
    (contract u).Atomic (machine .server) t
      (At t fs fun s => Works t l c rest v k p [] s ∧ Receives c s) (.wsaRecv v c len)
      fun r => At t fs fun s => r.failed = true ∧ Works t l c rest v k p [] s ∨
        r.failed = false ∧ Hand t l rest s := by
  refine change (fun r => ((Fact.const _).and fact_works).or ((Fact.const _).and fact_hand))
    ?_ ?_ ?_
  · intro s hI hP
    obtain ⟨⟨hs, hnever⟩, hreceives⟩ := hP.fact
    exact ⟨hs.serving hs.apart, hnever, hs.drained hI.inv, hfs.outside hP.stack, hreceives, k, p,
      hs.registered⟩
  · intro s o r s' he
    rcases exec_wsaRecv he with ⟨-, j, -, rfl⟩ | ⟨-, rfl⟩ <;> rfl
  · rintro s o r s' - - ⟨⟨hs, hnever⟩, -⟩ he
    rcases exec_wsaRecv he with ⟨hr, j, -, rfl⟩ | ⟨hr, rfl⟩
    · refine .inr ⟨hr, ?_, hs.the, fun hl => hs.port (List.mem_cons_of_mem c hl)⟩
      refine (Function.update_self _ _ _).trans ?_
      rw [hs.holds]
      exact List.erase_cons_head c rest
    · refine .inl ⟨hr, { hs with todo := fun hd j hj => ?_ }, hnever⟩
      rw [delivered_record rfl]
      exact hs.todo hd j hj

/-- The end of a receive, where a failure tears the connection down. -/
lemma safe_received {q : P Unit} {r : CallResult} (hfs : NoData fs)
    (hq : (contract u).Safe (machine .server) t q (At t fs (Works t l c rest v k p []))
      fun _ => At t fs (Works t l c rest v k p [])) :
    (contract u).Safe (machine .server) t
      (if r.failed then q >>= fun _ => disconnect (some c) false >>= fun _ => pure commSuccess
        else pure commSuccess)
      (At t fs fun s => r.failed = true ∧ Works t l c rest v k p [] s ∨
        r.failed = false ∧ Hand t l rest s)
      fun rc => At t fs fun s => rc = commSuccess ∧ Released t l c rest v k p s := by
  by_cases hr : r.failed = true
  · rw [if_pos hr]
    refine Contract.Safe.pre (N := At t fs (Works t l c rest v k p [])) ?_ fun s _ h =>
      h.imp fun hs => ?_
    · refine Contract.Safe.bind hq fun _ => Contract.Safe.bind (safe_disconnect false hfs)
        fun _ => ?_
      exact fun _ _ h => h.imp fun hs => ⟨rfl, hs⟩
    · exact (hs.resolve_right fun h => nomatch hr.symm.trans h.1).2
  · rw [if_neg hr]
    exact fun s _ h => h.imp fun hs => ⟨rfl, .inl (hs.resolve_left fun h => hr h.1).2⟩

lemma safe_firstReceive (hfs : NoData fs) :
    (contract u).Safe (machine .server) t (firstReceive c) (At t fs (Works t l c rest v k p []))
      fun rc => At t fs fun s => rc = commSuccess ∧ Released t l c rest v k p s := by
  refine Contract.Safe.step _ atomic_setLastOperation fun _ => ?_
  refine Contract.Safe.step _ (read_getSocket (· = v) fact_receives (fun _ h => .inl h.1.1.mem)
    fun _ _ _ hs hx => (socket_of_serves hs.1.1 hx).1) fun w => Contract.Safe.pure fun hw => ?_
  subst hw
  refine Contract.Safe.step _ (atomic_wsaRecv hfs) fun r => ?_
  exact safe_received (q := pure ()) hfs fun _ _ h => h

lemma safe_startReceive (hfs : NoData fs) :
    (contract u).Safe (machine .server) t (startReceive c ⟨size, c⟩)
      (At t fs (Works t l c rest v k p []))
      fun rc => At t fs fun s => rc = commSuccess ∧ Released t l c rest v k p s := by
  refine Contract.Safe.step _ atomic_setLastOperation fun _ => ?_
  refine Contract.Safe.step _ (read_getSocket (· = v) fact_receives (fun _ h => .inl h.1.1.mem)
    fun _ _ _ hs hx => (socket_of_serves hs.1.1 hx).1) fun w => Contract.Safe.pure fun hw => ?_
  subst hw
  refine Contract.Safe.step _ (atomic_wsaRecv hfs) fun r => ?_
  refine safe_received (q := act (.getSocket c) >>= fun _ => pure ()) hfs ?_
  exact Contract.Safe.step _ (read_getSocket (fun _ => True) fact_works
    (fun _ h => .inl h.1.mem) fun _ _ _ _ _ => trivial) fun _ _ _ h => h.2

lemma fact_receivedAgain {rc : ℤ} :
    Fact t fun s => rc = commSuccess ∧ Released t l c rest v k p s :=
  (Fact.const _).and fact_released

lemma safe_handleReceive (hfs : NoData fs) :
    (contract u).Safe (machine .server) t (handleReceive c ⟨size, c⟩)
      (At t fs fun s => Works t l c rest v k p data s ∧ Brings c size data s)
      fun rc => At t fs fun s => rc = commSuccess ∧ Released t l c rest v k p s := by
  refine safe_call rfl (fun _ => rfl) (fact_brings List.mem_cons_self) (fun _ => fact_receivedAgain)
    (fun s _ hP => ⟨v, k, p, hP.fact.1.1.registered⟩)
    (fun rc s _ hP => ⟨⟨fs, hP.stack⟩, trivial⟩) ?_
  exact Contract.Safe.bind safe_deliverReceived fun _ => safe_startReceive (hfs.cons nofun)

end Server

end Alpl.Net
