import Alpl.Server.Teardown

/-!
# New sockets and new contexts

`create_tcp_socket`, `create_socket_context` and `updateCompletionPort` run on the main thread
inside `Start` and on the worker that handles an accept.  What they do is the same; what the
two threads know before and after differs.  The triples here leave that open: the caller says
which facts hold at each stage of the call (`Joins`).
-/

namespace Alpl.Net

open Interleaving

namespace Server

variable {u : Setup} {t : Tid} {fs : List Frame} {s : State} {sd : SOCKET} {op : LastIoOperation}
variable {Φ Ψ : State → Prop}

/-! ## What an entry of the history does to a fact -/

lemma Fact.record {r : Record} (hΦ : Fact t Φ) (hI : Inv s) (hr : r.plain = true) (h : Φ s) :
    Φ (s.record r) :=
  hΦ s _ hI ⟨rfl, rfl, rfl, rfl, id, fun _ _ h => h, List.suffix_cons r _⟩
    ((Respects.refl t s).record hr) h

/-- A call failed that excuses both the server for having no accept outstanding and the thread
for leaving its loop. -/
def Faulted (t : Tid) (s : State) : Prop := AcceptFault s ∧ WorkerFault t s

lemma lasting_faulted : Lasting (Faulted t) := lasting_acceptFault.and lasting_workerFault

lemma faulted_record {r : Record} (ha : r.isAcceptFault = true) (hw : isWorkerFault t r = true) :
    Faulted t (s.record r) :=
  ⟨⟨r, List.mem_cons_self, ha⟩, r, List.mem_cons_self, hw⟩

/-! ## Sockets -/

/-- `create_tcp_socket` answers with a new socket, or with `INVALID_SOCKET`. -/
lemma safe_createTcpSocket {Ψ : SOCKET → State → Prop} (hΨ : ∀ v, Fact t (Ψ v))
    (hA : ∀ s, (contract u).Ok s → Φ s → Starting t s ∨ Accepting t s)
    (hnew : ∀ s v, (contract u).Ok s → Φ s → s.handles v = none → v ≠ invalidSocket →
      Ψ v ((withSocket s v).record (.call t .wsaSocket true)))
    (hfail : ∀ s, (contract u).Ok s → Φ s →
      Ψ invalidSocket (s.record (.call t .wsaSocket false))) :
    (contract u).Safe (machine .server) t createTcpSocket (At t fs Φ)
      fun v => At t fs (Ψ v) := by
  refine Contract.Safe.step _ (change hΨ (fun s hI hP => hA s hI hP.fact) ?_ ?_) fun v => ?_
  · intro s o r s' he
    obtain ⟨-, -, rfl⟩ | ⟨-, rfl⟩ := exec_wsaSocket he <;> rfl
  · intro s o r s' hI _ hs he
    obtain ⟨hclosed, hvalid, rfl⟩ | ⟨rfl, rfl⟩ := exec_wsaSocket he
    · rw [withSocket_eq hI.inv]
      exact hnew s _ hI hs hclosed hvalid
    · exact hfail s hI hs
  · split
    · exact fun _ _ h => h
    · exact Contract.Safe.step _ (skip' rfl (fun _ => trivial) (hΨ v)) fun _ _ _ h => h

/-! ## Contexts -/

/-- `create_socket_context` answers with a new context, or entering `locker_` raised. -/
lemma safe_createSocketContext {Ψ : ContextPtr → State → Prop} (hΦ : Fact t Φ)
    (hΨ : ∀ c, Fact t (Ψ c))
    (hA : ∀ s, (contract u).Ok s → Φ s → Allowed t (.newContext sd op) s)
    (hnew : ∀ s, (contract u).Ok s → Φ s →
      Ψ s.nextContext (withNewContext s t (SocketContext.new sd op))) :
    (contract u).Safe (machine .server) t (createSocketContext sd op) (At t fs Φ)
      fun o s => o = none ∧ At t fs (fun s => Φ s ∧ Faulted t s) s ∨
        ∃ c, o = some c ∧ At t fs (Ψ c) s := by
  have hfault : Fact t fun s => Φ s ∧ Faulted t s := hΦ.and (.of_lasting lasting_faulted)
  refine Contract.Safe.step _ (atomic_enter rfl hΦ fun _ _ _ => trivial) fun _ => ?_
  refine Contract.Safe.step (fun entered => At t (.createSocketContext :: fs) fun s => Φ s ∧
    (entered = false → Faulted t s)) (still rfl (fun _ => hΦ.and (.of_lasting ?_))
      (fun _ _ _ => trivial) ?_) fun entered => ?_
  · exact fun s s' hO h he => lasting_faulted s s' hO (h he)
  · intro s o r s' hI hs he hkeep
    refine ⟨hkeep Φ hΦ hs, fun hr => ?_⟩
    subst hr
    obtain ⟨hr, -⟩ | ⟨-, rfl⟩ := exec_enterCriticalSection he
    · cases hr
    · exact faulted_record rfl (decide_eq_true rfl)
  cases entered with
  | false =>
      refine Contract.Safe.pre (N := At t (.createSocketContext :: fs) fun s => Φ s ∧ Faulted t s)
        ?_ fun _ _ h => h.imp fun hs => ⟨hs.1, hs.2 rfl⟩
      exact Contract.Safe.step _ (atomic_leave rfl hfault fun s _ hP => ⟨⟨fs, hP.stack⟩, trivial⟩)
        fun _ _ _ h => .inl ⟨rfl, h⟩
  | true =>
      refine Contract.Safe.step (fun c => At t (.createSocketContext :: fs) (Ψ c))
        (change hΨ (fun s hI hP => hA s hI hP.fact.1) ?_ ?_) fun c => ?_
      · intro s o r s' he
        cases o <;> cases he
        rfl
      · intro s o r s' hI _ hs he
        cases o <;> cases he
        exact hnew s hI hs.1
      refine Contract.Safe.step _ (skip' rfl (fun _ => trivial) (hΨ c)) fun _ => ?_
      exact Contract.Safe.step _ (atomic_leave rfl (hΨ c) fun s _ hP => ⟨⟨fs, hP.stack⟩, trivial⟩)
        fun _ _ _ h => .inr ⟨c, rfl, h⟩

/-! ## The completion port -/

/-- The stages of a call of `updateCompletionPort`: what holds before it (`Φ`), of a context that
was made (`made`), that was associated (`joined`), whose association failed and took the port
with it (`lost`), and after the call failed (`failed`). -/
structure Joins (u : Setup) (t : Tid) (sd : SOCKET) (op : LastIoOperation) (Φ : State → Prop)
    (made joined lost : ContextPtr → State → Prop) (failed : State → Prop) : Prop where
  fact : Fact t Φ
  factMade : ∀ c, Fact t (made c)
  factJoined : ∀ c, Fact t (joined c)
  factLost : ∀ c, Fact t (lost c)
  factFailed : Fact t failed
  allowedNew : ∀ s, (contract u).Ok s → Φ s → Allowed t (.newContext sd op) s
  new : ∀ s, (contract u).Ok s → Φ s →
    made s.nextContext (withNewContext s t (SocketContext.new sd op))
  notMade : ∀ s, Φ s → Faulted t s → failed s
  port : ∀ c s, made c s → s.iocpHandle = some s.workersPort
  portJoined : ∀ c s, joined c s → s.iocpHandle = some s.workersPort
  portLost : ∀ c s, lost c s → s.iocpHandle = none
  mine : ∀ c s, made c s ∨ joined c s → Starting t s ∨ Accepting t s
  allowedJoin : ∀ c s, (contract u).Ok s → made c s →
    Allowed t (.createIoCompletionPort sd (some s.workersPort) c) s
  join : ∀ c s k n r, (contract u).Ok s → made c s → s.handles sd = some k →
    (s.sockets k).assoc = none → r.plain = true → joined c ((withKey s k c n).record r)
  lose : ∀ c s, made c s → Faulted t s → lost c { s with iocpHandle := none }
  allowedFree : ∀ c s, (contract u).Ok s → OutsideData t s → lost c s →
    Allowed t (.freeContext c) s
  free : ∀ c s, (contract u).Ok s → lost c s → failed (withoutContext s t c)

variable {made joined lost : ContextPtr → State → Prop} {failed : State → Prop}

/-- An association was tried, and `h` is what `CreateIoCompletionPort` answered. -/
def Tried (t : Tid) (made joined : ContextPtr → State → Prop) (c : ContextPtr) (h : Option Port)
    (s : State) : Prop :=
  h = none ∧ (made c s ∧ Faulted t s) ∨ h = some handlerPort ∧ joined c s

lemma Joins.fact_tried (hJ : Joins u t sd op Φ made joined lost failed) (c : ContextPtr)
    (h : Option Port) : Fact t (Tried t made joined c h) :=
  ((Fact.const _).and ((hJ.factMade c).and (.of_lasting lasting_faulted))).or
    ((Fact.const _).and (hJ.factJoined c))

lemma Joins.atomic_join (hJ : Joins u t sd op Φ made joined lost failed) (c : ContextPtr) :
    (contract u).Atomic (machine .server) t (At t fs (made c))
      (.createIoCompletionPort sd (some handlerPort) c)
      fun h => At t fs (Tried t made joined c h) := by
  refine change (hJ.fact_tried c) ?_ ?_ ?_
  · intro s hI hP
    rw [← hI.known.2.workersPort]
    exact hJ.allowedJoin c s hI hP.fact
  · intro s o r s' he
    obtain ⟨-, k, -, -, rfl⟩ | ⟨-, rfl⟩ := exec_createIoCompletionPort he <;> rfl
  · intro s o r s' hI hI' hs he
    obtain ⟨rfl, k, hk, hassoc, rfl⟩ | ⟨rfl, rfl⟩ := exec_createIoCompletionPort he
    · refine .inr ⟨rfl, ?_⟩
      rw [← hI.known.2.workersPort]
      exact hJ.join c s k _ _ hI hs hk hassoc rfl
    · exact .inl ⟨rfl, (hJ.factMade c).record hI.inv rfl hs,
        faulted_record rfl (decide_eq_true rfl)⟩

lemma Joins.fact_lostOrJoined (hJ : Joins u t sd op Φ made joined lost failed) (c : ContextPtr)
    (h : Option Port) :
    Fact t fun s => h = none ∧ lost c s ∨ h = some handlerPort ∧ joined c s :=
  ((Fact.const _).and (hJ.factLost c)).or ((Fact.const _).and (hJ.factJoined c))

/-- The answer of `CreateIoCompletionPort` becomes the port of the handler, also if it is
`NULL`. -/
lemma Joins.atomic_setIocpHandle (hJ : Joins u t sd op Φ made joined lost failed)
    (c : ContextPtr) (h : Option Port) :
    (contract u).Atomic (machine .server) t (At t fs (Tried t made joined c h)) (.setIocpHandle h)
      fun _ => At t fs fun s => h = none ∧ lost c s ∨ h = some handlerPort ∧ joined c s := by
  refine change (fun _ => hJ.fact_lostOrJoined c h) ?_ ?_ ?_
  · intro s hI hP
    refine ⟨hJ.mine c s (hP.fact.imp (fun h => h.2.1) fun h => h.2), fun q hq => ?_⟩
    rcases hP.fact with ⟨rfl, -⟩ | ⟨rfl, -⟩ <;> cases hq
    exact hI.known.2.workersPort.symm
  · intro s o r s' he
    cases o <;> cases he
    rfl
  · intro s o r s' hI _ hs he
    cases o <;> cases he
    rcases hs with ⟨rfl, hmade, hfault⟩ | ⟨rfl, hjoined⟩
    · exact .inl ⟨rfl, hJ.lose c s hmade hfault⟩
    · refine .inr ⟨rfl, ?_⟩
      rw [← hI.known.2.workersPort, ← hJ.portJoined c s hjoined]
      exact hjoined

lemma Joins.atomic_freeContext (hJ : Joins u t sd op Φ made joined lost failed)
    (hfs : NoData fs) (c : ContextPtr) :
    (contract u).Atomic (machine .server) t (At t fs (lost c)) (.freeContext c)
      fun _ => At t fs failed := by
  refine change (fun _ => hJ.factFailed) ?_ ?_ ?_
  · exact fun s hI hP => hJ.allowedFree c s hI (hfs.outside hP.stack) hP.fact
  · intro s o r s' he
    obtain ⟨x, -, rfl⟩ := exec_freeContext he
    rfl
  · intro s o r s' hI _ hs he
    obtain ⟨x, -, rfl⟩ := exec_freeContext he
    exact hJ.free c s hI hs

/-- `updateCompletionPort` answers with a context whose socket is associated with the port, or a
call has failed; if that was the association, `iocp_handle_` is lost. -/
lemma safe_updateCompletionPort (hJ : Joins u t sd op Φ made joined lost failed)
    (hfs : NoData fs) (add : Bool) (listed : ContextPtr → State → Prop)
    (hlisted : ∀ c, (contract u).Safe (machine .server) t
      (if add then act (.pushFrontContext c) else pure ()) (At t fs (joined c))
      fun _ => At t fs (listed c)) :
    (contract u).Safe (machine .server) t (updateCompletionPort sd op add) (At t fs Φ)
      fun o s => o = none ∧ At t fs failed s ∨ ∃ c, o = some c ∧ At t fs (listed c) s := by
  refine Contract.Safe.bind (safe_createSocketContext hJ.fact hJ.factMade hJ.allowedNew hJ.new)
    fun o => Contract.Safe.or (Contract.Safe.pure fun ho => ?_) (Contract.Safe.exists fun c =>
      Contract.Safe.pure fun ho => ?_)
  · subst ho
    exact fun s _ h => .inl ⟨rfl, h.imp fun hs => hJ.notMade s hs.1 hs.2⟩
  subst ho
  refine Contract.Safe.step _ (read (a := .getIocpHandle) rfl (hJ.factMade c)
    (fun h => h = some handlerPort) (fun _ _ _ => trivial) fun s o r s' hI hs he => ?_) fun h =>
    Contract.Safe.pure fun hh => ?_
  · cases o <;> cases he
    exact (hJ.port c s hs).trans (congrArg some hI.known.2.workersPort)
  subst hh
  refine Contract.Safe.step _ (hJ.atomic_join c) fun h => ?_
  refine Contract.Safe.step _ (hJ.atomic_setIocpHandle c h) fun _ => ?_
  refine Contract.Safe.step (fun h' s => h' = h ∧ At t fs (fun s =>
    h = none ∧ lost c s ∨ h = some handlerPort ∧ joined c s) s)
    (read (a := .getIocpHandle) rfl (hJ.fact_lostOrJoined c h) (fun h' => h' = h)
      (fun _ _ _ => trivial) fun s o r s' hI hs he => ?_) fun h' => Contract.Safe.pure fun hh => ?_
  · cases o <;> cases he
    rcases hs with ⟨rfl, hlost⟩ | ⟨rfl, hjoined⟩
    · exact hJ.portLost c s hlost
    · exact (hJ.portJoined c s hjoined).trans (congrArg some hI.known.2.workersPort)
  subst hh
  cases h' with
  | none =>
      refine Contract.Safe.pre (N := At t fs (lost c)) ?_ fun _ _ h =>
        h.imp fun hs => (hs.resolve_right fun h => nomatch h.1).2
      exact Contract.Safe.step _ (hJ.atomic_freeContext hfs c) fun _ _ _ h => .inl ⟨rfl, h⟩
  | some q =>
      refine Contract.Safe.pre (N := At t fs (joined c)) ?_ fun _ _ h =>
        h.imp fun hs => (hs.resolve_left fun h => nomatch h.1).2
      exact Contract.Safe.bind (hlisted c) fun _ _ _ h => .inr ⟨c, rfl, h⟩

end Server

end Alpl.Net
