import Alpl.Server.Holding

/-!
# `disconnect`

The triple of `disconnect` for a connection that a worker has in hand.  Either the connection is
torn down completely and its context freed, or entering `locker_` raised, and the worker still
has a context that nobody will ever handle again.
-/

namespace Alpl.Net

open Interleaving

namespace Server

variable {u : Setup} {t : Tid} {fs : List Frame} {Φ : State → Prop}
variable {l c : ContextPtr} {v : SOCKET} {k : SockId} {p : ConnectionPtr}
variable {data : List UInt8} {rest : List ContextPtr}

/-! ## Reading contexts and tables -/

lemma read_getSocket (φ : SOCKET → Prop) (hΦ : Fact t Φ)
    (hc : ∀ s, Φ s → c ∈ s.holds t ∨ s.theSocketContext = some c)
    (hφ : ∀ s x, (contract u).Ok s → Φ s → s.contexts c = some x → φ x.socket) :
    (contract u).Atomic (machine .server) t (At t fs Φ) (.getSocket c)
      fun w s => φ w ∧ At t fs Φ s := by
  refine read (a := .getSocket c) rfl hΦ φ (fun s _ hP => hc s hP.fact) fun s o r s' hI hs he => ?_
  obtain ⟨x, hx, rfl, rfl⟩ := exec_getSocket he
  exact hφ s' x hI hs hx

lemma read_getIoContext (φ : IoContext → Prop) (hΦ : Fact t Φ)
    (hc : ∀ s, Φ s → c ∈ s.holds t ∨ s.theSocketContext = some c)
    (hφ : ∀ s x, (contract u).Ok s → Φ s → s.contexts c = some x → φ x.ioContext) :
    (contract u).Atomic (machine .server) t (At t fs Φ) (.getIoContext c)
      fun io s => φ io ∧ At t fs Φ s := by
  refine read (a := .getIoContext c) rfl hΦ φ (fun s _ hP => hc s hP.fact)
    fun s o r s' hI hs he => ?_
  obtain ⟨x, hx, rfl, rfl⟩ := exec_getIoContext he
  exact hφ s' x hI hs hx

lemma read_theSocketContext (hΦ : Fact t Φ) (hl : ∀ s, Φ s → s.theSocketContext = some l) :
    (contract u).Atomic (machine .server) t (At t fs Φ) .getTheSocketContext
      fun o s => o = some l ∧ At t fs Φ s := by
  refine read (a := .getTheSocketContext) rfl hΦ (fun o => o = some l) (fun _ _ _ => trivial)
    fun s o r s' hI hs he => ?_
  cases o <;> cases he
  exact hl s hs

lemma guarantee_refl {s : State} (hI : (contract u).Ok s) :
    (contract u).Guarantee (some t) s s :=
  ⟨hI.inv, fun v _ => ⟨.refl v s, .refl v s⟩, fun _ _ _ _ h _ => h⟩

lemma socket_of_serves {s : State} {x : SocketContext} (h : Serves t l c rest v k p data s)
    (hx : s.contexts c = some x) : x.socket = v ∧ x.ioContext.socketAccept = invalidSocket := by
  obtain ⟨y, hy, hv⟩ := h.registered.1.1
  obtain rfl := Option.some.inj (hx.symm.trans hy)
  exact hv

/-- The socket of a connection that a thread serves. -/
lemma read_socket :
    (contract u).Atomic (machine .server) t (At t fs (Serves t l c rest v k p data)) (.getSocket c)
      fun w s => w = v ∧ At t fs (Serves t l c rest v k p data) s :=
  read_getSocket (· = v) fact_serves (fun _ h => .inl h.mem)
    fun _ _ _ hs hx => (socket_of_serves hs hx).1

/-- Reading `connections_` for a connection that it has enters nothing. -/
lemma read_indexConnection (hΦ : Fact t Φ) (hp : ∀ s, Φ s → s.connections v = some (some p)) :
    (contract u).Atomic (machine .server) t (At t fs Φ) (.indexConnection v)
      fun r s => r = some p ∧ At t fs Φ s := by
  refine ⟨fun r => (Contract.Stable.const _).and (stable_at hΦ),
    fun s _ hP => ⟨p, hp s hP.fact⟩, fun s o r s' hI hP he _ => ?_⟩
  have hsame : r = some p ∧ s' = s := by
    obtain ⟨hr, rfl⟩ | ⟨hnone, -⟩ := exec_indexConnection he
    · exact ⟨Option.some.inj (hr.symm.trans (hp s' hP.fact)), rfl⟩
    · cases hnone.symm.trans (hp s hP.fact)
  obtain ⟨rfl, rfl⟩ := hsame
  exact ⟨guarantee_refl hI, rfl, hP⟩

/-! ## The parts of `disconnect` -/

lemma safe_setLinger (g : Bool) :
    (contract u).Safe (machine .server) t (setLinger c g) (At t fs (Serves t l c rest v k p data))
      fun _ => At t fs (Serves t l c rest v k p data) := by
  cases g with
  | true => exact fun _ _ h => h
  | false =>
      refine Contract.Safe.step _ read_socket fun w => Contract.Safe.pure fun _ => ?_
      exact Contract.Safe.step _ (skip' rfl (fun _ => trivial) fact_serves) fun _ _ _ h => h

/-- The socket to accept into is the listening context's alone. -/
lemma safe_closeSocketAccept :
    (contract u).Safe (machine .server) t (closeSocketAccept c)
      (At t fs (Serves t l c rest v k p data)) fun _ => At t fs (Serves t l c rest v k p data) := by
  refine Contract.Safe.step _ (read_getIoContext (fun io => io.socketAccept = invalidSocket)
    fact_serves (fun _ h => .inl h.mem) fun _ _ _ hs hx => (socket_of_serves hs hx).2) fun io => ?_
  refine Contract.Safe.pure fun hio => ?_
  rw [if_neg (not_not_intro hio)]
  exact fun _ _ h => h

lemma atomic_eraseConnection :
    (contract u).Atomic (machine .server) t
      (At t (.disconnect (some c) :: fs) (Serves t l c rest v k p [])) (.eraseConnection v)
      fun _ => At t (.disconnect (some c) :: fs) (Erased t l c rest v k) := by
  refine change (fun _ => fact_erased) ?_ ?_ ?_
  · intro s _ hP
    have hs := hP.fact
    exact ⟨c, k, hs.serving hs.apart, hs.registered.opened, hs.registered.key,
      hP.stack ▸ List.mem_cons_self⟩
  · intro s o r s' he
    cases o <;> cases he
    rfl
  · intro s o r s' hI _ hs he
    cases o <;> cases he
    exact
      { hs.toHand with
        apart := hs.apart
        context := hs.registered.1.1.imp fun _ hx => ⟨hx.1, hx.2.1⟩
        opened := hs.registered.opened
        key := hs.registered.key
        erased := Function.update_self v none s.connections
        drained := hs.drained hI.inv }

/-- Once the only socket of a context is closed, no open socket completes under it. -/
lemma closed_of_closesocket {s : State} {r : Record} (hI : Inv s) (hv : s.handles v = some k)
    (hk : KeyOf s k c) :
    Closed ({ s with handles := Function.update s.handles v none }.record r) c := by
  intro w j hw hj
  have hupd : Function.update s.handles v none w = some j := hw
  have hwv : w ≠ v := by
    rintro rfl
    exact nomatch (Function.update_self w none s.handles).symm.trans hupd
  have hw' : s.handles w = some j := (Function.update_of_ne hwv _ _).symm.trans hupd
  obtain rfl := hI.keyUnique j k c hj hk
  exact hwv (hI.handleUnique w v j hw' hv)

lemma atomic_closesocket :
    (contract u).Atomic (machine .server) t
      (At t (.disconnect (some c) :: fs) (Erased t l c rest v k)) (.closesocket v)
      fun _ => At t (.disconnect (some c) :: fs) (Parted t l c rest) := by
  refine change (fun _ => fact_parted) ?_ ?_ ?_
  · intro s _ hP
    have hs := hP.fact
    exact .inl ⟨c, k, hs.serving hs.apart, hs.opened, hs.key, hs.erased,
      hP.stack ▸ List.mem_cons_self⟩
  · intro s o r s' he
    cases o <;> cases he
    rfl
  · intro s o r s' hI _ hs he
    cases o <;> cases he
    exact
      { hs.toHand with
        apart := hs.apart
        live := hs.context.imp fun _ hx => hx.1
        closed := closed_of_closesocket hI.inv hs.opened hs.key
        drained := Drained.record (s := { s with handles := _ }) hs.drained fun _ => rfl }

lemma atomic_setSocket :
    (contract u).Atomic (machine .server) t (At t fs (Parted t l c rest))
      (.setSocket c invalidSocket) fun _ => At t fs (Parted t l c rest) := by
  refine change (fun _ => fact_parted) ?_ ?_ ?_
  · exact fun s _ hP => ⟨rfl, hP.fact.closed, .inl (hP.fact.serving hP.fact.apart)⟩
  · intro s o r s' he
    obtain ⟨x, -, rfl⟩ := exec_setSocket he
    rfl
  · intro s o r s' _ _ hs he
    obtain ⟨x, -, rfl⟩ := exec_setSocket he
    exact { hs with live := ⟨_, Function.update_self _ _ _⟩ }

/-- The context is in no list any more. -/
def Unlisted (t : Tid) (l c : ContextPtr) (rest : List ContextPtr) (s : State) : Prop :=
  Parted t l c rest s ∧ c ∉ s.socketContexts

lemma fact_unlisted : Fact t (Unlisted t l c rest) := fun s s' hI hO hR h =>
  ⟨fact_parted s s' hI hO hR h.1, (hR.kept c h.1.mem).listed.not.mpr h.2⟩

lemma atomic_removeContext :
    (contract u).Atomic (machine .server) t (At t fs (Parted t l c rest)) (.removeContext c)
      fun _ => At t fs (Unlisted t l c rest) := by
  refine change (fun _ => fact_unlisted) ?_ ?_ ?_
  · exact fun s _ hP => ⟨hP.fact.serving hP.fact.apart, hP.fact.closed⟩
  · intro s o r s' he
    cases o <;> cases he
    rfl
  · intro s o r s' _ _ hs he
    cases o <;> cases he
    refine ⟨{ hs with }, fun hm => ?_⟩
    exact of_decide_eq_true (List.mem_filter.mp hm).2 rfl

/-- No callback for data is running. -/
def NoData (fs : List Frame) : Prop := ∀ p, .callback .onDataReceived p ∉ fs

lemma NoData.cons {f : Frame} (h : NoData fs) (hf : ∀ p, .callback .onDataReceived p ≠ f) :
    NoData (f :: fs) := fun p hp => (List.mem_cons.mp hp).elim (hf p) (h p)

lemma NoData.outside {s : State} (h : NoData fs) (hs : s.stack t = fs) : OutsideData t s :=
  fun p hp => h p (hs ▸ hp)

/-- Freeing a context nobody else has takes it out of the hands of its thread. -/
lemma holds_freeContext {s s' : State} {o : Outcome} {r : Action.Res (.freeContext c)}
    (hs : s.holds t = c :: rest) (he : exec t (.freeContext c) o s = some (r, s')) :
    s'.holds t = rest ∧ s'.stack t = s.stack t ∧ s'.theSocketContext = s.theSocketContext ∧
      s'.iocpHandle = s.iocpHandle ∧ s'.workersPort = s.workersPort ∧
      s'.history = s.history := by
  obtain ⟨x, -, rfl⟩ := exec_freeContext he
  refine ⟨(Function.update_self _ _ _).trans ?_, rfl, rfl, rfl, rfl, rfl⟩
  rw [hs]
  exact List.erase_cons_head c rest

lemma atomic_freeContext (hfs : NoData fs) :
    (contract u).Atomic (machine .server) t (At t fs (Unlisted t l c rest)) (.freeContext c)
      fun _ => At t fs (Hand t l rest) := by
  refine change (fun _ => fact_hand) ?_ ?_ ?_
  · intro s _ hP
    have hs := hP.fact.1
    exact ⟨hs.mem, .inr (hs.serving hs.apart), hs.closed, hs.drained, hfs.outside hP.stack,
      fun _ _ => hP.fact.2⟩
  · intro s o r s' he
    obtain ⟨x, -, rfl⟩ := exec_freeContext he
    rfl
  · rintro s o r s' - - ⟨hs, -⟩ he
    obtain ⟨hholds, -, hthe, hport, hworkers, -⟩ := holds_freeContext hs.holds he
    refine ⟨hholds, hthe.trans hs.the, fun hl => ?_⟩
    rw [hport, hworkers]
    exact hs.port (List.mem_cons_of_mem c hl)

lemma safe_disconnectClient (g : Bool) (hfs : NoData fs) :
    (contract u).Safe (machine .server) t (disconnectClient c g)
      (At t (.disconnect (some c) :: fs) (Serves t l c rest v k p []))
      fun _ => At t (.disconnect (some c) :: fs) (Hand t l rest) := by
  have hfs' : NoData (.disconnect (some c) :: fs) := hfs.cons nofun
  refine Contract.Safe.bind (safe_setLinger g) fun _ => ?_
  refine Contract.Safe.bind safe_closeSocketAccept fun _ => ?_
  refine Contract.Safe.step _ read_socket fun w => Contract.Safe.pure fun hw => ?_
  subst hw
  refine Contract.Safe.step _ (read_indexConnection fact_serves fun _ h => h.registered.2.1)
    fun q => Contract.Safe.pure fun hq => ?_
  subst hq
  refine Contract.Safe.bind (safe_callHandler nofun fact_serves fun s hP => ?_) fun _ => ?_
  · have hs := hP.fact
    exact ⟨nofun, p, c, fs, rfl, hP.stack, hs.serving hs.apart, hs.registered.madeFor⟩
  refine Contract.Safe.step _ read_socket fun w' => Contract.Safe.pure fun hw' => ?_
  subst hw'
  refine Contract.Safe.step _ atomic_eraseConnection fun _ => ?_
  refine Contract.Safe.step _ (read_getSocket (· = w') fact_erased (fun _ h => .inl h.mem)
    fun s x _ hs hx => ?_) fun w => Contract.Safe.pure fun hw => ?_
  · obtain ⟨y, hy, hv⟩ := hs.context
    obtain rfl := Option.some.inj (hx.symm.trans hy)
    exact hv
  subst hw
  refine Contract.Safe.step _ atomic_closesocket fun _ => ?_
  refine Contract.Safe.step _ atomic_setSocket fun _ => ?_
  refine Contract.Safe.step _ atomic_removeContext fun _ => ?_
  exact Contract.Safe.perform (atomic_freeContext hfs')

/-! ## `disconnect` -/

/-- What a call of `disconnect` leaves behind: the context is gone, or it stays in the hands of the
thread and was abandoned. -/
def Released (t : Tid) (l c : ContextPtr) (rest : List ContextPtr) (v : SOCKET) (k : SockId)
    (p : ConnectionPtr) (s : State) : Prop :=
  Hand t l rest s ∨ Serves t l c rest v k p [] s ∧ Abandoned s c

lemma fact_released : Fact t (Released t l c rest v k p) :=
  fact_hand.or (fact_serves.and (.of_lasting lasting_abandoned))

/-- The socket of a connection is not the listening socket. -/
lemma listener_ne_socket {s : State} {x : SocketContext} (hI : Inv s)
    (hs : Serves t l c rest v k p data s) (hx : s.contexts l = some x) : v ≠ x.socket := by
  obtain ⟨y, hy, rfl, -⟩ := hs.registered.1.1
  refine hI.otherSocket l x c y hs.the hx hy hs.apart fun hv => ?_
  have hopen := hs.registered.opened
  rw [hv, hI.invalid] at hopen
  cases hopen

lemma safe_disconnectLocked (g : Bool) (hfs : NoData fs) :
    (contract u).Safe (machine .server) t (disconnectLocked (some c) g)
      (At t (.disconnect (some c) :: fs) (Serves t l c rest v k p []))
      fun rc s => rc = commSuccess ∧ At t (.disconnect (some c) :: fs) (Hand t l rest) s := by
  refine Contract.Safe.step _ (read_theSocketContext fact_serves fun _ h => h.the) fun o =>
    Contract.Safe.pure fun ho => ?_
  subst ho
  refine Contract.Safe.step _ read_socket fun w => Contract.Safe.pure fun hw => ?_
  subst hw
  refine Contract.Safe.step _ (read_getSocket (w ≠ ·) fact_serves (fun _ h => .inr h.the)
    fun s x hI hs hx => listener_ne_socket hI.inv hs hx) fun wl => Contract.Safe.pure fun hwl => ?_
  refine Contract.Safe.bind (N := fun _ => At t (.disconnect (some c) :: fs) (Hand t l rest)) ?_
    fun _ => ?_
  · rw [if_neg hwl]
    exact safe_disconnectClient g hfs
  · exact Contract.Safe.step _ (skip' rfl (fun _ => trivial) fact_hand) fun _ _ _ h => ⟨rfl, h⟩

lemma atomic_enterDisconnect :
    (contract u).Atomic (machine .server) t
      (At t fs fun s => Serves t l c rest v k p [] s ∧ NotCalled c s)
      (.enter (.disconnect (some c)))
      fun _ => At t (.disconnect (some c) :: fs) (Serves t l c rest v k p []) := by
  refine atomic (fun _ => stable_at fact_serves) ?_ ?_
  · exact fun s _ hP => ⟨c, rfl, hP.fact.1.serving hP.fact.1.apart, hP.fact.2⟩
  · intro s o r s' _ _ hP he
    cases o <;> cases he
    refine ⟨?_, { hP.fact.1 with todo := fun hd j hj => ?_ }⟩
    · rw [← hP.stack]
      exact Function.update_self _ _ _
    · rw [delivered_of_data rfl]
      exact hP.fact.1.todo hd j hj

lemma atomic_leaveAbandoned :
    (contract u).Atomic (machine .server) t
      (At t (.disconnect (some c) :: fs) (Serves t l c rest v k p []))
      (.leave (.disconnect (some c)) commFailed)
      fun _ => At t fs (Released t l c rest v k p) := by
  refine atomic (fun _ => stable_at fact_released) ?_ ?_
  · exact fun s _ hP => ⟨⟨fs, hP.stack⟩, fun _ => ⟨v, k, p, hP.fact.registered⟩, nofun⟩
  · intro s o r s' hI _ hP he
    have hserves :=
      fact_serves s s' hI.inv (onward_of_exec hI he) (respects_of_plain rfl he) hP.fact
    cases o <;> cases he
    refine ⟨?_, .inr ⟨hserves, t, List.mem_cons_self⟩⟩
    refine (Function.update_self _ _ _).trans ?_
    rw [hP.stack]
    rfl

/-- A connection is torn down, or abandoned. -/
lemma safe_disconnect (g : Bool) (hfs : NoData fs) :
    (contract u).Safe (machine .server) t (disconnect (some c) g)
      (At t fs fun s => Serves t l c rest v k p [] s ∧ NotCalled c s)
      fun _ => At t fs (Released t l c rest v k p) := by
  refine Contract.Safe.pre (N := fun s => c ∉ rest ∧
    At t fs (fun s => Serves t l c rest v k p [] s ∧ NotCalled c s) s)
    (Contract.Safe.pure fun hc => ?_) fun s hI hP => ⟨?_, hP⟩
  · refine Contract.Safe.step _ atomic_enterDisconnect fun _ => Contract.Safe.bind
      (N := fun rc s => rc = commSuccess ∧ At t (.disconnect (some c) :: fs) (Hand t l rest) s ∨
        rc = commFailed ∧ At t (.disconnect (some c) :: fs) (Serves t l c rest v k p []) s)
      ?_ fun rc => Contract.Safe.or (Contract.Safe.pure fun hrc => ?_)
        (Contract.Safe.pure fun hrc => ?_)
    · refine Contract.Safe.step _ (skip' rfl (fun _ => trivial) fact_serves) fun entered => ?_
      cases entered with
      | false => exact fun _ _ h => .inr ⟨rfl, h⟩
      | true => exact (safe_disconnectLocked g hfs).post fun _ _ _ h => .inl h
    · subst hrc
      refine Contract.Safe.step _ (atomic_leave rfl fact_hand fun s _ hP =>
        ⟨⟨fs, hP.stack⟩, fun hm => absurd (hP.fact.holds ▸ hm) hc,
          fun _ => hP.fact.holds.symm ▸ hc⟩) fun _ _ _ h => ?_
      exact h.imp .inl
    · subst hrc
      exact Contract.Safe.step _ atomic_leaveAbandoned fun _ _ _ h => h
  · have hnodup := hI.inv.nodup t
    rw [hP.fact.1.holds] at hnodup
    exact (List.nodup_cons.mp hnodup).1

end Server

end Alpl.Net
