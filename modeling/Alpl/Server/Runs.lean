import Alpl.Server.Startup

/-!
# Every run of a server keeps its contract

The triples of `Stop` and `Send`, and then all pieces of code together: `Server.contract_holds`.
From it follows that every reachable state of a server satisfies `Server.Inv`, that nobody takes a
registration away but `disconnect` (`Server.Keeps`), and that whatever a thread is about to do is
allowed (`Reachable.server`).
-/

namespace Alpl.Net

open Interleaving

namespace Server

variable {u : Setup} {t : Tid} {fs : List Frame} {s s' : State} {Φ : State → Prop}
variable {v : SOCKET} {l c : ContextPtr}

/-! ## `Stop` -/

/-- The main thread inside `Stop`, with the listening socket in order. -/
structure Stopping (l : ContextPtr) (s : State) : Prop where
  holds : s.holds .main = []
  the : s.theSocketContext = some l
  listenSock : ListenSock s l

/-- The listening socket was read as `v`. -/
structure Closing (l : ContextPtr) (v : SOCKET) (s : State) : Prop extends Stopping l s where
  socket : ∃ x, s.contexts l = some x ∧ x.socket = v

/-- The listening socket was closed, and its value is still in the context. -/
structure ListenerClosed (l : ContextPtr) (s : State) : Prop where
  holds : s.holds .main = []
  the : s.theSocketContext = some l
  closed : Closed s l

/-- The listening socket is closed, and nothing names it any more. -/
structure Stopped (l : ContextPtr) (s : State) : Prop extends Stopping l s where
  closed : Closed s l

lemma fact_stopping : Fact .main (Stopping l) := fun _ _ _ _ hR h =>
  ⟨hR.holds.trans h.holds, hR.the l h.the, hR.listenSock rfl l h.the h.listenSock⟩

lemma fact_closing : Fact .main (Closing l v) := fun s s' hI hO hR h => by
  obtain ⟨x, hx, hv⟩ := h.socket
  obtain ⟨x', hx', hsame⟩ := hR.theSocket rfl l x h.the hx
  exact ⟨fact_stopping s s' hI hO hR h.toStopping, x', hx', hsame.trans hv⟩

lemma fact_listenerClosed : Fact .main (ListenerClosed l) := fun _ _ _ _ hR h =>
  ⟨hR.holds.trans h.holds, hR.the l h.the, hR.closed rfl l h.the h.closed⟩

lemma fact_stopped : Fact .main (Stopped l) := fun s s' hI hO hR h =>
  ⟨fact_stopping s s' hI hO hR h.toStopping, hR.closed rfl l h.the h.closed⟩

lemma fact_exiting (hΦ : Fact t Φ) : Fact t fun s => Φ s ∧ s.exiting = true :=
  hΦ.and (.of_lasting lasting_exiting)

/-- Every wake-up goes to the port of the workers. -/
lemma safe_postExitPackets (n : ℕ) :
    (contract u).Safe (machine .server) .main (postExitPackets n)
      (At .main fs fun s => Stopping l s ∧ s.exiting = true)
      fun _ => At .main fs fun s => Stopping l s ∧ s.exiting = true := by
  induction n with
  | zero => exact fun _ _ h => h
  | succ n ih =>
      refine Contract.Safe.step _ (read (a := .getIocpHandle) rfl (fact_exiting fact_stopping)
        (fun h => ∀ q, h = some q → q = handlerPort) (fun _ _ _ => trivial)
        fun s o r s' hI _ he => ?_) fun h => Contract.Safe.pure fun hh => ?_
      · cases o <;> cases he
        exact fun q hq => (hI.inv.port q hq).trans hI.known.2.workersPort
      cases h with
      | none => exact ih
      | some q =>
          obtain rfl := hh q rfl
          refine Contract.Safe.step _ (change (fun _ => fact_exiting fact_stopping) ?_ ?_ ?_)
            fun _ => ih
          · intro s hI hP
            refine ⟨hI.known.2.workersPort.symm, hP.fact.2, ?_⟩
            rw [hP.fact.1.the]
            nofun
          · intro s o r s' he
            cases o <;> cases he <;> rfl
          · intro s o r s' _ _ hs he
            cases o <;> cases he <;>
              exact ⟨⟨hs.1.holds, hs.1.the, hs.1.listenSock⟩, hs.2⟩

lemma atomic_closeListener (hv : v ≠ invalidSocket) (hfs : .stop ∈ fs) :
    (contract u).Atomic (machine .server) .main (At .main fs (Closing l v)) (.closesocket v)
      fun _ => At .main fs (ListenerClosed l) := by
  have hkey : ∀ s, Closing l v s → ∃ k, s.handles v = some k ∧ KeyOf s k l := by
    intro s hs
    obtain ⟨x, hx, hopen⟩ := hs.listenSock
    obtain ⟨y, hy, hyv⟩ := hs.socket
    obtain rfl := Option.some.inj (hx.symm.trans hy)
    rw [hyv] at hopen
    exact hopen.resolve_left hv
  refine change (fun _ => fact_listenerClosed) ?_ ?_ ?_
  · intro s _ hP
    obtain ⟨k, hk, hkl⟩ := hkey s hP.fact
    exact .inr ⟨rfl, hP.stack ▸ hfs, l, k, hP.fact.the, hk, hkl⟩
  · intro s o r s' he
    cases o <;> cases he
    rfl
  · intro s o r s' hI _ hs he
    obtain ⟨k, hk, hkl⟩ := hkey s hs
    cases o <;> cases he
    exact ⟨hs.holds, hs.the, closed_of_closesocket hI.inv hk hkl⟩

lemma atomic_resetListener (hfs : .stop ∈ fs) :
    (contract u).Atomic (machine .server) .main (At .main fs (ListenerClosed l))
      (.setSocket l invalidSocket) fun _ => At .main fs (Stopped l) := by
  refine change (fun _ => fact_stopped) ?_ ?_ ?_
  · exact fun s _ hP => ⟨rfl, hP.fact.closed, .inr ⟨rfl, hP.fact.the, hP.stack ▸ hfs⟩⟩
  · intro s o r s' he
    obtain ⟨x, -, rfl⟩ := exec_setSocket he
    rfl
  · intro s o r s' _ _ hs he
    obtain ⟨x, -, rfl⟩ := exec_setSocket he
    exact ⟨⟨hs.holds, hs.the, _, Function.update_self _ _ _, .inl rfl⟩, hs.closed⟩

/-- A listening context that names no socket has none. -/
lemma closed_of_invalid {s : State} (hI : Inv s) (h : Closing l invalidSocket s) : Closed s l := by
  rintro w k hw ⟨q, hq⟩
  obtain ⟨-, x, hx, rfl⟩ := hI.socketOf w k q l hw hq
  obtain ⟨y, hy, hv⟩ := h.socket
  obtain rfl := Option.some.inj (hx.symm.trans hy)
  rw [hv, hI.invalid] at hw
  cases hw

lemma safe_closeListener (hfs : .stop ∈ fs) :
    (contract u).Safe (machine .server) .main (closeListener l) (At .main fs (Stopping l))
      fun _ => At .main fs (Stopped l) := by
  refine Contract.Safe.step (fun v => At .main fs (Closing l v)) (ask (a := .getSocket l) rfl
    (fun _ => fact_closing) (fun s _ hP => .inr hP.fact.the) fun s o r s' _ hs he => ?_)
    fun v => ?_
  · obtain ⟨x, hx, rfl, rfl⟩ := exec_getSocket he
    exact ⟨hs, x, hx, rfl⟩
  by_cases hv : v ≠ invalidSocket
  · rw [if_pos hv]
    refine Contract.Safe.step _ (atomic_closeListener hv hfs) fun _ => ?_
    exact Contract.Safe.perform (atomic_resetListener hfs)
  · rw [if_neg hv]
    obtain rfl := not_not.mp hv
    exact fun _ hI h => h.imp fun hs => ⟨hs.toStopping, closed_of_invalid hI.inv hs⟩

lemma safe_exiting (hfs : .stop ∈ fs) :
    (contract u).Safe (machine .server) .main exiting (At .main fs (Stopping l))
      fun _ => At .main fs (Stopped l) := by
  have hfact : Fact .main fun s => Stopping l s ∧ s.exiting = true := fact_exiting fact_stopping
  refine Contract.Safe.step _ (still (a := .setExiting) rfl (fun _ => hfact) (fun _ _ _ => rfl)
    fun s o r s' _ hs he hkeep => ?_) fun _ => ?_
  · refine ⟨hkeep _ fact_stopping hs, ?_⟩
    cases o <;> cases he
    rfl
  refine Contract.Safe.step _ (skip' rfl (fun _ => trivial) hfact) fun h => ?_
  refine Contract.Safe.step _ (skip' rfl (fun _ => trivial) hfact) fun n => ?_
  refine Contract.Safe.bind (N := fun _ => At .main fs fun s => Stopping l s ∧ s.exiting = true)
    ?_ fun _ => ?_
  · split
    · exact safe_postExitPackets n
    · exact fun _ _ h => h
  refine Contract.Safe.step _ (skip' rfl (fun _ => trivial) hfact) fun _ => ?_
  refine Contract.Safe.step _ (read_theSocketContext hfact fun _ h => h.1.the) fun o =>
    Contract.Safe.pure fun ho => ?_
  subst ho
  refine Contract.Safe.bind ((safe_closeListener hfs).pre fun _ _ h => h.imp And.left) fun _ => ?_
  refine Contract.Safe.step _ (skip' rfl (fun _ => trivial) fact_stopped) fun signalled => ?_
  split <;> exact fun _ _ h => h

/-- `Stop` closes the listening socket and leaves everything else alone. -/
lemma safe_stop :
    (contract u).Safe (machine .server) .main stop (At .main [] (Stopping l))
      fun _ => At .main [] (Stopped l) := by
  refine safe_call rfl (fun _ => rfl) fact_stopping (fun _ => fact_stopped) (fun _ _ _ => trivial)
    (fun rc s _ hP => ⟨⟨[], hP.stack⟩, rfl, l, hP.fact.the, hP.fact.listenSock,
      hP.fact.closed⟩) ?_
  refine Contract.Safe.bind (safe_exiting (List.mem_singleton_self _)) fun _ => ?_
  exact Contract.Safe.step _ (skip' rfl (fun _ => trivial) fact_stopped) fun _ _ _ h => h

/-! ## `Send` -/

/-- The thread has no context in hand. -/
def EmptyHanded (t : Tid) (s : State) : Prop := s.holds t = []

lemma fact_emptyHanded : Fact t (EmptyHanded t) := fun _ _ _ _ hR h => hR.holds.trans h

lemma safe_send (p : ConnectionPtr) (data : List UInt8) :
    (contract u).Safe (machine .server) t (send p data) (At t [] (EmptyHanded t))
      fun _ => At t [] (EmptyHanded t) := by
  refine safe_call rfl (fun _ => rfl) fact_emptyHanded (fun _ => fact_emptyHanded)
    (fun _ _ _ => trivial) (fun rc s _ hP => ⟨⟨[], hP.stack⟩, trivial⟩) ?_
  refine Contract.Safe.step _ (skip' rfl (fun _ => trivial) fact_emptyHanded) fun y => ?_
  split
  · exact fun _ _ h => h
  refine Contract.Safe.step _ (skip' rfl (fun _ => trivial) fact_emptyHanded) fun y => ?_
  refine Contract.Safe.step _ (skip' rfl (fun _ => trivial) fact_emptyHanded) fun _ => ?_
  refine Contract.Safe.bind (N := fun _ => At t [.send p] (EmptyHanded t)) ?_ fun _ _ _ h => h
  refine Contract.Safe.step _ (skip' rfl (fun _ => trivial) fact_emptyHanded) fun y => ?_
  split
  · exact safe_callConnection nofun fact_emptyHanded
  · exact fun _ _ h => h

/-! ## The contract holds -/

/-- A piece of code on a thread that is no worker. -/
lemma safe_run {f : P ℤ} {P : State → Prop} {Ψ : ℤ → State → Prop}
    (ht : ∀ i, t ≠ .worker i)
    (hf : (contract u).Safe (machine .server) t f P fun rc => At t [] (Ψ rc))
    (hgo : ∀ rc s, Ψ rc s → ∀ d ∈ s.holds t, LetGo s d) :
    (contract u).Safe (machine .server) t (run f) P ((contract u).Exit t) := by
  refine Contract.Safe.bind hf fun rc => ?_
  refine Contract.Safe.step (fun _ => (contract u).Idle t) (atomic (fun _ => stable_idle) ?_ ?_)
    fun _ _ _ h => h
  · rintro s hI ⟨hstack, hs⟩
    refine ⟨hgo rc s hs, ?_⟩
    rintro rfl l hl
    refine (hI.inv.listenSock l hl).resolve_right fun hstop => ?_
    rw [hstack] at hstop
    cases hstop
  · intro s o r s' _ _ h he
    cases o <;> cases he
    exact ⟨⟨Function.update_self _ _ _, Function.update_self _ _ _⟩,
      fun i _ hi => absurd hi (ht i)⟩

lemma stable_empty : (contract u).Stable t (Empty t) := fun _ _ _ _ hR h =>
  ⟨hR.stack.trans h.1, hR.toRespects.holds.trans h.2⟩

/-- Nobody else does anything before the main thread has made the listening context. -/
lemma stable_blank : (contract u).Stable .main Blank := by
  rintro s s' - - hR ⟨hthe, hport, hcontexts, hsockets, hstarted⟩
  have h := hR.alone rfl hthe
  refine ⟨h.theSocketContext.trans hthe, ?_, ?_, ?_, ?_⟩
  · rw [h.iocpHandle, hR.workersPort]
    exact hport
  · rw [h.contexts]
    exact hcontexts
  · rw [h.sockets]
    exact hsockets
  · obtain ⟨h', hh', hother⟩ := hR.records
    intro hst
    rw [State.started, hh'] at hst
    rcases List.mem_append.mp hst with hst | hst
    · exact hother _ hst rfl
    · exact hstarted hst

lemma stable_entry (l : Label) : (contract u).Stable t ((contract u).Entry t l) := by
  cases l with
  | workerThread q => exact stable_empty.and (.const _)
  | startServer =>
      rintro s s' hI hI' hR ⟨he, rfl, hb⟩
      exact ⟨stable_empty s s' hI hI' hR he, rfl, stable_blank s s' hI hI' hR hb⟩
  | startClient => exact stable_empty.and (.const _)
  | stop =>
      rintro s s' hI hI' hR ⟨he, rfl, hthe⟩
      obtain ⟨l, hl⟩ := Option.ne_none_iff_exists'.mp hthe
      refine ⟨stable_empty s s' hI hI' hR he, rfl, ?_⟩
      rw [hR.the l hl]
      nofun
  | send p data => exact stable_empty.and (.const _)

/-- Once `Start` has succeeded there is a `the_socket_context_`. -/
lemma the_of_started (hI : Inv s) (h : s.started) : s.theSocketContext ≠ none := fun h0 =>
  (hI.started h).2 (hI.idle h0).2.2.2.2

lemma safe_code (t : Tid) (l : Label) :
    (contract u).Safe (machine .server) t (code l) ((contract u).Entry t l)
      ((contract u).Exit t) := by
  cases l with
  | workerThread q =>
      refine Contract.Safe.pre (N := fun s => (q = handlerPort ∧ ∃ i, t = .worker i) ∧ Empty t s)
        (Contract.Safe.pure fun h => ?_) fun s _ h => ⟨h.2, h.1⟩
      obtain ⟨rfl, ht⟩ := h
      exact safe_workerThread ht
  | startServer =>
      refine Contract.Safe.pre (N := fun s => t = .main ∧ (Empty t s ∧ Blank s))
        (Contract.Safe.pure fun ht => ?_) fun s _ h => ⟨h.2.1, h.1, h.2.2⟩
      subst ht
      refine safe_run (fun _ => nofun) safe_startServer ?_
      rintro rc s (⟨-, h⟩ | ⟨l, h, -⟩)
      · exact fun d hd => absurd (h.holds ▸ hd) List.not_mem_nil
      · exact letGo_of_over h
  | startClient => exact Contract.Safe.vacuous _ fun _ _ h => h.2
  | stop =>
      refine Contract.Safe.pre (N := fun s => t = .main ∧ ∃ l, At .main [] (Stopping l) s)
        (Contract.Safe.pure fun ht => ?_) fun s hI h => ?_
      · subst ht
        refine Contract.Safe.exists fun l => safe_run (fun _ => nofun) safe_stop ?_
        exact fun rc s h d hd => absurd (h.holds ▸ hd) List.not_mem_nil
      · obtain ⟨he, rfl, hthe⟩ := h
        obtain ⟨l, hl⟩ := Option.ne_none_iff_exists'.mp hthe
        refine ⟨rfl, l, he.1, he.2, hl, (hI.inv.listenSock l hl).resolve_right fun hstop => ?_⟩
        rw [he.1] at hstop
        cases hstop
  | send p data =>
      refine Contract.Safe.pre (N := fun s => (∃ i, t = .user i) ∧ At t [] (EmptyHanded t) s)
        (Contract.Safe.pure fun ht => ?_) fun s _ h => ⟨h.2, h.1.1, h.1.2⟩
      obtain ⟨i, rfl⟩ := ht
      refine safe_run (fun _ => nofun) (safe_send p data) ?_
      exact fun rc s h d hd => absurd (h ▸ hd) List.not_mem_nil

lemma entry_of_enter {l : Label} (hI : Inv s) (hidle : (contract u).Idle t s)
    (h : enter .server t l s = some s') : (contract u).Entry t l s := by
  unfold enter at h
  split at h
  · split at h
    · rename_i hs
      exact ⟨hidle.1, rfl, the_of_started hI hs.2⟩
    · cases h
  · exact ⟨hidle.1, _, rfl⟩
  · cases h

/-- **A server keeps its contract.** -/
theorem contract_holds : (contract u).Holds (machine .server) where
  idle_stable _ := stable_idle
  entry_stable _ l := stable_entry l
  died_stable _ := fun s s' _ _ hR => lasting_workerFault s s' hR.toOnward
  env _ _ _ hI he _ := guarantee_osStep hI he
  enter t l s s' hI hidle he _ := by
    obtain rfl := enter_eq he
    exact ⟨guarantee_refl hI, entry_of_enter hI.inv hidle he⟩
  code := safe_code

/-! ## The beginning -/

lemma inv_init (u : Setup) : Inv (State.init u) where
  freshContext _ _ := rfl
  freshSocket _ _ := rfl
  freshHandle _ _ := nofun
  freshKey _ _ := nofun
  freshFrame _ _ h := absurd h List.not_mem_nil
  freshDelivered _ _ := rfl
  freshDisconnects _ _ := rfl
  invalid := rfl
  handleUnique _ _ _ := nofun
  keyUnique _ _ _ := nofun
  objectUnique _ _ _ := nofun
  disconnectOnce _ := Nat.zero_le 1
  live _ _ h := absurd h List.not_mem_nil
  single _ _ _ h := absurd h List.not_mem_nil
  nodup _ := List.nodup_nil
  quiet _ _ h := absurd h List.not_mem_nil
  atMostOne _ := Nat.zero_le 1
  worker _ _ _ h := absurd h List.not_mem_nil
  placed _ _ _ := nofun
  opKey _ h := absurd h List.not_mem_nil
  packet _ h := absurd h List.not_mem_nil
  acceptOut _ := nofun
  acceptOp _ _ h := absurd h List.not_mem_nil
  acceptPacket _ _ _ h := absurd h List.not_mem_nil
  clientOut _ _ := nofun
  clientOp _ _ h := absurd h List.not_mem_nil
  theLive _ := nofun
  kind _ _ _ := nofun
  listenSock _ := nofun
  listener _ _ := nofun
  otherSocket _ _ _ _ := nofun
  idle _ := ⟨rfl, rfl, fun _ _ => rfl, fun _ => rfl, rfl⟩
  mapped _ _ := nofun
  socketOf _ _ _ _ := nofun
  objectOf _ _ := nofun
  inOrder _ _ _ := nofun
  complete _ _ _ _ := nofun
  callbackFrame _ _ h := absurd h List.not_mem_nil
  receiveFrame _ _ h := absurd h List.not_mem_nil
  acceptFrame _ _ := nofun
  started h := absurd h List.not_mem_nil
  port _ h := (Option.some.inj h).symm
  armed _ := nofun
  accepted _ h _ hh := by
    cases h <;> cases hh

lemma good_init (u : Setup) : (contract u).Good (machine .server) (serverInit u) := by
  have hreach : Reachable .server u (serverInit u) := ⟨_, .server, .refl _⟩
  refine ⟨⟨⟨hreach.handler.ok.inv, hreach.setUp⟩, inv_init u⟩, fun t => ?_⟩
  have hrun : ∀ l, (contract u).Entry t l (State.init u) →
      (contract u).ThreadOk (machine .server) t (.running (code l)) (State.init u) :=
    fun l h => ⟨_, contract_holds.entry_stable t l, h, contract_holds.code t l⟩
  cases t with
  | main =>
      exact hrun .startServer ⟨⟨rfl, rfl⟩, rfl, rfl, rfl, fun _ => rfl, fun _ => rfl,
        List.not_mem_nil⟩
  | worker i =>
      show (contract u).ThreadOk _ _ (initThreads u .startServer (.worker i)) _
      rw [initThreads_worker]
      split
      · exact hrun (.workerThread handlerPort) ⟨⟨rfl, rfl⟩, rfl, i, rfl⟩
      · rename_i hi
        refine ⟨⟨rfl, rfl⟩, ?_⟩
        rintro j hj ⟨⟩
        exact absurd hj hi
  | user i => exact ⟨⟨rfl, rfl⟩, fun _ _ => nofun⟩

end Server

/-- **Every run of a server keeps the contract of a server.** -/
theorem Reachable.server {u : Setup} {G : Config Action Action.Res State Tid Label}
    (h : Reachable .server u G) : (Server.contract u).Good (machine .server) G := by
  obtain ⟨G₀, h0, hr⟩ := h
  cases h0 with
  | server =>
      refine Server.contract_holds.sound (fun G' hr' => ?_) hr (Server.good_init u)
      have hreach : Reachable .server u G' := ⟨_, .server, hr'⟩
      exact ⟨hreach.handler.ok.inv, hreach.setUp⟩

end Alpl.Net
