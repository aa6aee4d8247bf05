import Alpl.Handler.Memory

/-!
# A running client

A `TcpClient` has one context, which is also `the_socket_context_`, and only ever receives on it.
Every call of `disconnect` therefore takes the branch meant for the listening socket, and the
rest of `disconnect` is never reached.  `Client.contract` states this on top of the contract of the
handler, whose invariant it takes as known.
-/

namespace Alpl.Net

open Interleaving

namespace Client

/-- The invariant of a client. -/
structure Inv (s : State) : Prop where
  receives : ∀ c x, s.contexts c = some x → x.ioContext.lastOperation = .ioReceive
  own : ∀ l, s.theSocketContext = some l → ∃ x, s.contexts l = some x ∧
    ∀ k, s.handles x.socket = some k → ∃ q, (s.sockets k).assoc = some (q, l)
  pending : ∀ op ∈ s.pending, s.theSocketContext = some op.overlapped ∧
    ∃ q, (s.sockets op.sock).assoc = some (q, op.overlapped)
  packets : ∀ q, ∀ pkt ∈ s.queue q, ∃ l, s.theSocketContext = some l ∧ pkt.key = some l ∧
    pkt.overlapped = some l
  exiting : s.exiting = false
  alive : ∀ i < s.numWorkerThreads, s.alive (.worker i) = true
  emptyCall : ∀ t k, .emptyCall t k ∉ s.history

/-- The actions that leave alone what the invariant of a client speaks of. -/
def still : Action → Bool
  | .setExiting => false
  | .finish => true
  | .pushFrontContext _ => true
  | .setIocpHandle _ => true
  | .indexConnection _ => true
  | a => a.reads

/-- What a still action leaves alone. -/
structure Still (s s' : State) : Prop where
  theSocketContext : s'.theSocketContext = s.theSocketContext
  contexts : s'.contexts = s.contexts
  handles : s'.handles = s.handles
  sockets : s'.sockets = s.sockets
  pending : s'.pending = s.pending
  queue : s'.queue = s.queue
  alive : s'.alive = s.alive

/-- What the others may do while `t` runs: once there is a context it stays, with its socket, and
until then only the main thread does anything. -/
structure Rely (t : Tid) (s s' : State) : Prop extends Steady t s s' where
  kept : ∀ l x, s.theSocketContext = some l → s.contexts l = some x →
    s'.theSocketContext = some l ∧ ∃ x', s'.contexts l = some x' ∧ x'.socket = x.socket
  main : t = .main → s.theSocketContext = none →
    Still s s' ∧ s'.iocpHandle = s.iocpHandle

/-- The condition under which an action keeps the invariant. -/
def Allowed (t : Tid) : Action → State → Prop
  | .newContext _ op, s => t = .main ∧ s.theSocketContext = none ∧ op = .ioReceive
  | .freeContext _, s => t = .main ∧ s.theSocketContext = none
  | .setLastOperation c op, s => s.theSocketContext = some c ∧ op = .ioReceive
  | .setTheSocketContext c, s => t = .main ∧ s.theSocketContext = none ∧ ∀ l, c = some l →
      ∃ x, s.contexts l = some x ∧
        ∀ k, s.handles x.socket = some k → ∃ q, (s.sockets k).assoc = some (q, l)
  | .createIoCompletionPort _ _ _, s => t = .main ∧ s.theSocketContext = none
  | .wsaRecv v c _, s => s.theSocketContext = some c ∧ ∃ x, s.contexts c = some x ∧ x.socket = v
  | .setIocpHandle _, _ => t = .main
  | .getQueuedCompletionStatus _, _ => True
  | .invokeHandler _ _ _, _ => False
  | .invokeConnection _ k _ _, _ => k ≠ .onDisconnected
  | a, _ => still a = true

/-- `t` works on the context of the client, whose socket is `v`. -/
def Has (l : ContextPtr) (v : SOCKET) (s : State) : Prop :=
  s.theSocketContext = some l ∧ ∃ x, s.contexts l = some x ∧ x.socket = v

/-- The assertions of the contract. -/
def contract (u : Setup) : Contract State Tid Label Action where
  Known s := Handler.Inv s ∧ SetUp u s
  Inv := Inv
  Rely := Rely
  Guar _ _ _ := True
  Allowed := Allowed
  Idle t _ := ∀ i, t = .worker i → u.workers ≤ i
  Entry t l s := match l with
    | .workerThread _ => t ≠ .main
    | .startClient => t = .main ∧ s.theSocketContext = none
    | .send _ _ => ∀ i, t = .worker i → u.workers ≤ i
    | _ => False
  Died _ _ := False

variable {u : Setup} {t : Tid} {a : Action} {o : Outcome} {s s' : State}

/-! ## Still actions -/

lemma exec_still {r : a.Res} (ha : still a = true) (he : exec t a o s = some (r, s')) :
    Still s s' := by
  by_cases hr : a.reads = true
  · have h := exec_sameMemory hr _ he
    exact ⟨h.theSocketContext, h.contexts, h.handles, h.sockets, h.pending, h.queue, h.alive⟩
  · cases a <;> first
      | (cases ha; done)
      | exact absurd rfl hr
      | skip
    case pushFrontContext c =>
      cases o <;> cases he
      exact ⟨rfl, rfl, rfl, rfl, rfl, rfl, rfl⟩
    case indexConnection v =>
      obtain ⟨-, rfl⟩ | ⟨-, -, rfl⟩ := exec_indexConnection he <;>
        exact ⟨rfl, rfl, rfl, rfl, rfl, rfl, rfl⟩
    case setIocpHandle h =>
      cases o <;> cases he
      exact ⟨rfl, rfl, rfl, rfl, rfl, rfl, rfl⟩
    case finish =>
      cases o <;> cases he
      exact ⟨rfl, rfl, rfl, rfl, rfl, rfl, rfl⟩

/-! ## Every allowed action keeps the contract -/

lemma emptyCall_not_mem (hI : (contract u).Ok s) (hA : Allowed t a s) (he : Effect t a s s')
    (hk : Handler.Inv s') (v : Tid) (k : CallbackKind) : .emptyCall v k ∉ s'.history := by
  rcases he.history with h | ⟨r, hr, h⟩
  · rw [h]
    exact hI.inv.emptyCall v k
  · rw [h]
    refine fun hmem => ?_
    rcases List.mem_cons.mp hmem with rfl | hmem
    · obtain ⟨rfl, -⟩ := hk.emptyCall v k (h ▸ List.mem_cons_self)
      cases hr with
      | emptyHandler k p data hs => exact hA
      | emptyConnection q k p data y hy hs => exact hA rfl
    · exact hI.inv.emptyCall v k hmem

lemma Still.guarantee (h : Still s s') (hI : (contract u).Ok s) (he : Effect t a s s')
    (hx : a ≠ .setExiting) (hport : t = .main ∨ s'.iocpHandle = s.iocpHandle)
    (hempty : ∀ v k, .emptyCall v k ∉ s'.history) :
    (contract u).Guarantee (some t) s s' where
  inv :=
    { receives := by
        rw [h.contexts]
        exact hI.inv.receives
      own := by
        rw [h.contexts, h.theSocketContext, h.handles, h.sockets]
        exact hI.inv.own
      pending := by
        rw [h.pending, h.theSocketContext, h.sockets]
        exact hI.inv.pending
      packets := by
        rw [h.queue, h.theSocketContext]
        exact hI.inv.packets
      exiting := by
        rcases he.exiting with hs | ⟨ha, -⟩
        · rw [hs]
          exact hI.inv.exiting
        · exact absurd ha hx
      alive := by
        rw [h.alive, he.workers]
        exact hI.inv.alive
      emptyCall := hempty }
  rely _ hv :=
    { toSteady := he.steady hI.known.1 fun ht => hv (congrArg some ht.symm)
      kept := fun _ x hl hx => ⟨h.theSocketContext.trans hl, x, by rw [h.contexts, hx], rfl⟩
      main := fun hm _ => ⟨h, hport.resolve_left fun ht => hv (congrArg some (ht.trans hm.symm))⟩ }
  guar := trivial

/-- What the main thread does before there is a context, nobody notices. -/
lemma guarantee_of_main (hI : (contract u).Ok s) (he : Effect .main a s s')
    (h0 : s.theSocketContext = none) (hinv : Inv s') :
    (contract u).Guarantee (some .main) s s' where
  inv := hinv
  rely _ hv :=
    { toSteady := he.steady hI.known.1 fun ht => hv (congrArg some ht.symm)
      kept := fun _ _ hl => nomatch h0.symm.trans hl
      main := fun hm => absurd (congrArg some hm.symm) hv }
  guar := trivial

/-- Once there is a context, only what changes its socket would matter to the others. -/
lemma guarantee_of_has {l : ContextPtr} (hI : (contract u).Ok s) (he : Effect t a s s')
    (hl : s.theSocketContext = some l) (hl' : s'.theSocketContext = some l)
    (hx : ∀ x, s.contexts l = some x → ∃ x', s'.contexts l = some x' ∧ x'.socket = x.socket)
    (hinv : Inv s') : (contract u).Guarantee (some t) s s' where
  inv := hinv
  rely v hv :=
    { toSteady := he.steady hI.known.1 fun ht => hv (congrArg some ht.symm)
      kept := fun l' x h h' => by
        obtain rfl := Option.some.inj (hl.symm.trans h)
        exact ⟨hl', hx x h'⟩
      main := fun _ h0 => nomatch hl.symm.trans h0 }
  guar := trivial

/-- **Every allowed action keeps the contract.** -/
lemma guarantee {r : a.Res} (hI : (contract u).Ok s) (hA : Allowed t a s)
    (h : exec t a o s = some (r, s')) (hk : (contract u).Known s') :
    (contract u).Guarantee (some t) s s' := by
  have he := exec_effect _ h
  have hempty := emptyCall_not_mem hI hA he hk.1
  by_cases hs : still a = true
  · refine (exec_still hs h).guarantee hI he (by rintro rfl; cases hs) ?_ hempty
    refine he.handle.symm.imp_left fun ha => ?_
    rw [ha] at hA
    exact hA
  cases a <;> first
    | exact absurd hA hs
    | exact absurd rfl hs
    | skip
  case newContext sd op =>
    obtain ⟨rfl, h0, rfl⟩ := hA
    cases o <;> cases h
    refine guarantee_of_main hI he h0 { hI.inv with receives := ?_, own := ?_, emptyCall := hempty }
    · intro c x hx
      simp only [State.setHolds, State.setContext, Function.update_apply] at hx
      split at hx
      · cases hx
        rfl
      · exact hI.inv.receives c x hx
    · exact fun l hl => nomatch h0.symm.trans hl
  case freeContext c =>
    obtain ⟨rfl, h0⟩ := hA
    obtain ⟨x, -, rfl⟩ := exec_freeContext h
    refine guarantee_of_main hI he h0
      { hI.inv with receives := ?_, own := ?_, emptyCall := hempty }
    · intro c' x' hx
      simp only [State.setHolds, State.setContext, Function.update_apply] at hx
      split at hx
      · cases hx
      · exact hI.inv.receives c' x' hx
    · exact fun l hl => nomatch h0.symm.trans hl
  case setLastOperation c op =>
    obtain ⟨hc, rfl⟩ := hA
    obtain ⟨x, hx, rfl⟩ := exec_setLastOperation h
    have hself : ∀ x', s.contexts c = some x' → x'.socket = x.socket := fun x' hx' => by
      rw [hx] at hx'
      cases hx'
      rfl
    refine guarantee_of_has hI he hc hc ?_
      { hI.inv with receives := ?_, own := ?_, emptyCall := hempty }
    · exact fun x' hx' => ⟨_, Function.update_self _ _ _, (hself x' hx').symm⟩
    · intro c' x' hx'
      simp only [State.setContext, Function.update_apply] at hx'
      split at hx'
      · cases hx'
        rfl
      · exact hI.inv.receives c' x' hx'
    · intro l hl
      obtain rfl := Option.some.inj (hc.symm.trans hl)
      obtain ⟨x', hx', hk'⟩ := hI.inv.own c hl
      rw [hself x' hx'] at hk'
      exact ⟨_, Function.update_self _ _ _, hk'⟩
  case setTheSocketContext c =>
    obtain ⟨rfl, h0, hc⟩ := hA
    cases o <;> cases h
    refine guarantee_of_main hI he h0
      { hI.inv with own := hc, pending := ?_, packets := ?_, emptyCall := hempty }
    · exact fun op hop => nomatch h0.symm.trans (hI.inv.pending op hop).1
    · intro q pkt hpkt
      obtain ⟨l, hl, -⟩ := hI.inv.packets q pkt hpkt
      exact nomatch h0.symm.trans hl
  case createIoCompletionPort v p c =>
    obtain ⟨rfl, h0⟩ := hA
    have hown : ∀ l, s.theSocketContext = some l → False := fun l hl => nomatch h0.symm.trans hl
    obtain ⟨-, k, -, -, rfl⟩ | ⟨-, rfl⟩ := exec_createIoCompletionPort h
    · refine guarantee_of_main hI he h0
        { hI.inv with own := ?_, pending := ?_, emptyCall := hempty }
      · exact fun l hl => (hown l hl).elim
      · exact fun op hop => (hown _ (hI.inv.pending op hop).1).elim
    · exact guarantee_of_main hI he h0 { hI.inv with emptyCall := hempty }
  case wsaRecv v c len =>
    obtain ⟨hc, x, hx, rfl⟩ := hA
    obtain ⟨x', hx', hown⟩ := hI.inv.own c hc
    obtain rfl : x' = x := Option.some.inj (hx'.symm.trans hx)
    obtain ⟨-, k, hopen, rfl⟩ | ⟨-, rfl⟩ := exec_wsaRecv h
    · refine guarantee_of_has hI he hc hc (fun y hy => ⟨y, hy, rfl⟩)
        { hI.inv with pending := ?_, emptyCall := hempty }
      intro op hop
      rcases List.mem_cons.mp hop with rfl | hop
      · exact ⟨hc, hown k hopen⟩
      · exact hI.inv.pending op hop
    · exact guarantee_of_has hI he hc hc (fun y hy => ⟨y, hy, rfl⟩)
        { hI.inv with emptyCall := hempty }
  case getQueuedCompletionStatus q =>
    obtain ⟨rest, hq, rfl⟩ := exec_getQueuedCompletionStatus h
    obtain ⟨l, hl, -⟩ := hI.inv.packets q _ (hq ▸ List.mem_cons_self)
    refine guarantee_of_has hI he hl hl (fun y hy => ⟨y, hy, rfl⟩)
      { hI.inv with packets := ?_, emptyCall := hempty }
    intro q' pkt' hpkt
    simp only [State.setHolds, State.setStack, Function.update_apply] at hpkt
    split at hpkt
    · subst q'
      exact hI.inv.packets q pkt' (hq ▸ List.mem_cons_of_mem _ hpkt)
    · exact hI.inv.packets q' pkt' hpkt

end Client

end Alpl.Net
