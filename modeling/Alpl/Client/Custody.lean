import Alpl.Client.Functions
import Alpl.Handler.Custody
import Alpl.Server.Completion

/-!
# The bytes of a client

The bytes that the network has brought on the socket of a client are those its user was given, and
then those in the packet that is queued or that a worker holds; there is never more than one.
`Carried` says so of the automata of the threads and the state, and every move keeps it.
-/

namespace Alpl.Net

open Interleaving

namespace Client

open Server (packetBytes)

variable {u : Setup} {v : SOCKET} {t : Tid} {a : Action} {o : Outcome} {s s' : State}

/-! ## What one action leaves alone -/

/-- The context of a client stays, with the bytes in its buffer. -/
lemma buffer_act {r : a.Res} {l : ContextPtr} {x : SocketContext} (hA : Allowed t a s)
    (he : exec t a o s = some (r, s')) (hl : s.theSocketContext = some l)
    (hx : s.contexts l = some x) : s'.theSocketContext = some l ∧
      ∃ x', s'.contexts l = some x' ∧ x'.ioContext.buffer = x.ioContext.buffer := by
  by_cases hs : still a = true
  · have h := exec_still hs he
    exact ⟨h.theSocketContext.trans hl, x, by rw [h.contexts, hx], rfl⟩
  cases a <;> first
    | exact absurd hA hs
    | exact absurd rfl hs
    | skip
  case newContext sd op => cases hA.2.1.symm.trans hl
  case freeContext c => cases hA.2.symm.trans hl
  case setTheSocketContext c => cases hA.2.1.symm.trans hl
  case createIoCompletionPort w port key => cases hA.2.symm.trans hl
  case setLastOperation c op =>
    obtain ⟨y, hy, rfl⟩ := exec_setLastOperation he
    obtain rfl := Option.some.inj (hA.1.symm.trans hl)
    obtain rfl := Option.some.inj (hy.symm.trans hx)
    exact ⟨hl, _, Function.update_self _ _ _, rfl⟩
  case wsaRecv w c len =>
    obtain ⟨-, k, -, rfl⟩ | ⟨-, rfl⟩ := exec_wsaRecv he <;> exact ⟨hl, x, hx, rfl⟩
  case getQueuedCompletionStatus q =>
    obtain ⟨rest, -, rfl⟩ := exec_getQueuedCompletionStatus he
    exact ⟨hl, x, hx, rfl⟩

/-- So the bytes of a packet stay what they are. -/
lemma packetBytes_act {r : a.Res} {l : ContextPtr} {pkt : Packet} (hI : (contract u).Ok s)
    (hA : Allowed t a s) (he : exec t a o s = some (r, s')) (hl : s.theSocketContext = some l)
    (ho : pkt.overlapped = some l) : packetBytes s' pkt = packetBytes s pkt := by
  obtain ⟨x, hx, -⟩ := hI.inv.own l hl
  obtain ⟨-, x', hx', hb⟩ := buffer_act hA he hl hx
  simp only [packetBytes, ho, hx, hx', hb]

/-- Apart from receiving and taking, the operations and packets stay. -/
lemma quiet_act {r : a.Res} (hA : Allowed t a s) (he : exec t a o s = some (r, s'))
    (hrecv : ∀ w c len, a ≠ .wsaRecv w c len) (htake : ∀ q, a ≠ .getQueuedCompletionStatus q) :
    s'.pending = s.pending ∧ s'.queue = s.queue ∧
      ∀ k, (s'.sockets k).stream = (s.sockets k).stream := by
  by_cases hs : still a = true
  · have h := exec_still hs he
    exact ⟨h.pending, h.queue, fun k => by rw [h.sockets]⟩
  cases a <;> first
    | exact absurd hA hs
    | exact absurd rfl hs
    | skip
  case newContext sd op =>
    cases o <;> cases he
    exact ⟨rfl, rfl, fun _ => rfl⟩
  case freeContext c =>
    obtain ⟨x, -, rfl⟩ := exec_freeContext he
    exact ⟨rfl, rfl, fun _ => rfl⟩
  case setTheSocketContext c =>
    cases o <;> cases he
    exact ⟨rfl, rfl, fun _ => rfl⟩
  case setLastOperation c op =>
    obtain ⟨x, -, rfl⟩ := exec_setLastOperation he
    exact ⟨rfl, rfl, fun _ => rfl⟩
  case createIoCompletionPort w port key =>
    obtain ⟨-, k, -, -, rfl⟩ | ⟨-, rfl⟩ := exec_createIoCompletionPort he
    · refine ⟨rfl, rfl, fun j => ?_⟩
      simp only [State.record, Function.update_apply]
      split
      · rename_i hj
        rw [hj]
      · rfl
    · exact ⟨rfl, rfl, fun _ => rfl⟩
  case wsaRecv w c len => exact absurd rfl (hrecv w c len)
  case getQueuedCompletionStatus q => exact absurd rfl (htake q)

/-- What the user was given changes with a callback of data only. -/
lemma delivered_act {r : a.Res} (he : exec t a o s = some (r, s')) (p : ConnectionPtr)
    (hdata : ∀ q p' d, a ≠ .invokeConnection q .onDataReceived p' d)
    (hhandler : ∀ k p' d, a ≠ .invokeHandler k p' d) : s'.delivered p = s.delivered p := by
  rcases (exec_effect _ he).history with h | ⟨rec, hrec, h⟩
  · rw [State.delivered, h, State.delivered]
  · rw [State.delivered, h, State.delivered, State.deliveredIn]
    have hnone : State.dataFor p rec = [] := by
      cases hrec with
      | connection q k p' d =>
          cases k with
          | onDataReceived => exact absurd rfl (hdata q p' d)
          | _ => rfl
      | handler k p' d => exact absurd rfl (hhandler k p' d)
      | _ => rfl
    rw [hnone, List.append_nil]

/-- An association fails in a call of `CreateIoCompletionPort` only. -/
lemma associationFailed_act {r : a.Res} (he : exec t a o s = some (r, s'))
    (ha : ∀ w port key, a ≠ .createIoCompletionPort w port key) (h : AssociationFailed s') :
    AssociationFailed s := by
  obtain ⟨rec, hmem, hrec⟩ := h
  rcases (exec_effect _ he).history with hh | ⟨rec', hof, hh⟩
  · exact ⟨rec, hh ▸ hmem, hrec⟩
  · rw [hh] at hmem
    rcases List.mem_cons.mp hmem with rfl | hmem
    · cases hof with
      | call _ ok =>
          cases a <;> first
            | exact absurd rfl (ha _ _ _)
            | cases hrec
      | _ => cases hrec
    · exact ⟨rec, hmem, hrec⟩

lemma frame_not_received (s : State) (pkt : Packet) : (pkt.frame s).isReceived = false := by
  unfold Packet.frame
  split
  · rfl
  · split <;> rfl

/-- The frames of data callbacks come with a call of `onDataReceived`. -/
lemma received_act {r : a.Res} (hA : Allowed t a s) (he : exec t a o s = some (r, s')) {f : Frame}
    (hf : f ∈ s'.stack t) (hr : f.isReceived = true) :
    (f ∈ s.stack t ∧ (a = .callbackReturns → f ∈ (s.stack t).tail)) ∨ a = .enter f ∨
      (∃ q p d, a = .invokeConnection q .onDataReceived p d) ∧
        ∀ pkt w p d, (Custody.holding pkt w p d).next a r = .calling := by
  by_cases hchanges : a.pushes = true ∨ a.clears = true
  · cases a <;> first
      | (rcases hchanges with h | h <;> cases h; done)
      | exact hA.elim
      | skip
    case enter g =>
      cases o <;> cases he
      simp only [State.record, State.setStack, Function.update_self] at hf
      rcases List.mem_cons.mp hf with rfl | hf
      · exact .inr (.inl rfl)
      · exact .inl ⟨hf, by simp⟩
    case invokeConnection q k p d =>
      obtain ⟨y, -, he⟩ := exec_invokeConnection he
      unfold exec.invoke at he
      split at he <;> cases he
      · simp only [State.record, State.setStack, Function.update_self] at hf
        rcases List.mem_cons.mp hf with rfl | hf
        · cases k with
          | onDataReceived => exact .inr (.inr ⟨⟨q, p, d, rfl⟩, fun _ _ _ _ => rfl⟩)
          | _ => cases hr
        · exact .inl ⟨hf, by simp⟩
      · exact .inl ⟨hf, by simp⟩
    case leave g rc =>
      cases o <;> cases he
      simp only [State.record, State.setStack, Function.update_self] at hf
      exact .inl ⟨List.mem_of_mem_tail hf, by simp⟩
    case getQueuedCompletionStatus q =>
      obtain ⟨rest, -, rfl⟩ := exec_getQueuedCompletionStatus he
      simp only [State.setStack, Function.update_self, List.mem_singleton] at hf
      rw [hf, frame_not_received] at hr
      cases hr
    case finish =>
      cases o <;> cases he
      simp only [State.setStack, Function.update_self, List.not_mem_nil] at hf
  · rw [not_or] at hchanges
    rcases (exec_effect _ he).ownStack with h | ⟨hpush, -⟩ | ⟨rfl, h⟩ | hclear
    · refine .inl ⟨h ▸ hf, ?_⟩
      rintro rfl
      cases o <;> cases he
      simp only [State.setStack, Function.update_self] at hf
      exact hf
    · exact absurd hpush hchanges.1
    · rw [h] at hf
      exact .inl ⟨List.mem_of_mem_tail hf, fun _ => hf⟩
    · exact absurd hclear hchanges.2

/-! ## What a client has from the beginning -/

/-- The socket `v` of a client, under which it finds its one connection object, and for which every
context is made. -/
structure Ground (v : SOCKET) (s : State) : Prop where
  opened : s.handles v = some 0
  mapped : s.connections v = some (some clientConnection)
  contexts : ∀ c x, s.contexts c = some x → x.socket = v
  objects : ∀ p y, s.tcpConnections p = some y → y.socket = v
  assoc : ∀ k q c, (s.sockets k).assoc = some (q, c) → q = handlerPort
  pending : ∀ op ∈ s.pending, op.kind = .recv ∧ op.sock = 0
  failed : ∀ pkt ∈ s.queue handlerPort, pkt.succeed = false → pkt.ioSize = 0

lemma Ground.congr (h : Ground v s) (hM : SameMemory s s') : Ground v s' where
  opened := by rw [hM.handles, h.opened]
  mapped := by rw [hM.connections, h.mapped]
  contexts := by
    rw [hM.contexts]
    exact h.contexts
  objects := by
    rw [hM.tcpConnections]
    exact h.objects
  assoc := by
    rw [hM.sockets]
    exact h.assoc
  pending := by
    rw [hM.pending]
    exact h.pending
  failed := by
    rw [hM.queue]
    exact h.failed

/-- Every action keeps it; a new context has to be for the socket, and an association has to name
the port of the workers. -/
lemma Ground.act {r : a.Res} (h : Ground v s) (hA : Allowed t a s)
    (he : exec t a o s = some (r, s')) (hnew : ∀ sd op, a = .newContext sd op → sd = v)
    (hport : ∀ w port key, a = .createIoCompletionPort w port key → port = some handlerPort) :
    Ground v s' := by
  by_cases hr : a.reads = true
  · exact h.congr (exec_sameMemory hr _ he)
  cases a <;> first
    | exact absurd rfl hr
    | (cases hA; done)
    | skip
  case newContext sd op =>
    obtain rfl := hnew sd op rfl
    cases o <;> cases he
    refine { h with contexts := fun c x hx => ?_ }
    simp only [State.setHolds, State.setContext, Function.update_apply] at hx
    split at hx
    · cases hx
      rfl
    · exact h.contexts c x hx
  case freeContext c =>
    obtain ⟨x, -, rfl⟩ := exec_freeContext he
    refine { h with contexts := fun c' x' hx => ?_ }
    simp only [State.setHolds, State.setContext, Function.update_apply] at hx
    split at hx
    · cases hx
    · exact h.contexts c' x' hx
  case setLastOperation c op =>
    obtain ⟨x, hx, rfl⟩ := exec_setLastOperation he
    refine { h with contexts := fun c' x' hx' => ?_ }
    simp only [State.setContext, Function.update_apply] at hx'
    split at hx'
    · cases hx'
      exact h.contexts c x hx
    · exact h.contexts c' x' hx'
  case pushFrontContext c =>
    cases o <;> cases he
    exact { h with }
  case setIocpHandle p =>
    cases o <;> cases he
    exact { h with }
  case setTheSocketContext c =>
    cases o <;> cases he
    exact { h with }
  case finish =>
    cases o <;> cases he
    exact { h with }
  case indexConnection w =>
    obtain ⟨-, rfl⟩ | ⟨hw, -, rfl⟩ := exec_indexConnection he
    · exact h
    · have hne : v ≠ w := by
        rintro rfl
        cases h.mapped.symm.trans hw
      exact { h with mapped := (Function.update_of_ne hne _ _).trans h.mapped }
  case createIoCompletionPort w port key =>
    obtain rfl := hport w port key rfl
    obtain ⟨-, k, -, -, rfl⟩ | ⟨-, rfl⟩ := exec_createIoCompletionPort he
    · refine { h with assoc := fun j q c hq => ?_ }
      simp only [State.record, Function.update_apply] at hq
      split at hq
      · cases hq
        rfl
      · exact h.assoc j q c hq
    · exact { h with }
  case wsaRecv w c len =>
    obtain ⟨-, x, hx, rfl⟩ := hA
    obtain ⟨-, k, hk, rfl⟩ | ⟨-, rfl⟩ := exec_wsaRecv he
    · refine { h with pending := fun op hop => ?_ }
      rcases List.mem_cons.mp hop with rfl | hop
      · rw [h.contexts c x hx, h.opened] at hk
        exact ⟨rfl, (Option.some.inj hk).symm⟩
      · exact h.pending op hop
    · exact { h with }
  case getQueuedCompletionStatus q =>
    obtain ⟨rest, hq, rfl⟩ := exec_getQueuedCompletionStatus he
    refine { h with failed := fun pkt hpkt => ?_ }
    simp only [State.setHolds, State.setStack, Function.update_apply] at hpkt
    split at hpkt
    · rename_i hp
      exact h.failed pkt (hp ▸ hq ▸ List.mem_cons_of_mem _ hpkt)
    · exact h.failed pkt hpkt

/-! ## What a thread has in hand -/

/-- What a thread that stands there knows. -/
def Shows (v : SOCKET) (t : Tid) (s : State) : Custody → Prop
  | .void => False
  | .fresh sock tried => (∀ sd, sock = some sd → sd = v) ∧ (tried = false → ¬ AssociationFailed s)
  | .holding pkt sock conn data =>
    (∃ l, s.theSocketContext = some l ∧ pkt.key = some l ∧ pkt.overlapped = some l ∧
      l ∈ s.holds t) ∧
    (pkt.succeed = false → pkt.ioSize = 0) ∧ (∀ w, sock = some w → w = v) ∧
    (∀ p, conn = some p → p = clientConnection) ∧ ∀ d, data = some d → d = packetBytes s pkt
  | .calling => ∃ p fs, s.stack t = .callback .onDataReceived p :: fs ∧
    ∀ f ∈ fs, f.isReceived = false
  | _ => True

/-- The bytes that a thread has to pass on where it stands. -/
def inHand (s : State) : Custody → List UInt8
  | .holding pkt _ _ _ => packetBytes s pkt
  | _ => []

/-- What the others know, they know after an action of `t` as well. -/
lemma shows_other {r : a.Res} {w : Tid} {q : Custody} (hI : (contract u).Ok s)
    (hA : Allowed t a s) (he : exec t a o s = some (r, s')) (hw : w ≠ t) (hq : Shows v w s q)
    (hassoc : ∀ sock tried, q = .fresh sock tried →
      ∀ x port key, a ≠ .createIoCompletionPort x port key) : Shows v w s' q := by
  cases q with
  | fresh sock tried =>
      exact ⟨hq.1, fun ht hf => hq.2 ht (associationFailed_act he (hassoc sock tried rfl) hf)⟩
  | holding pkt sock conn data =>
      obtain ⟨⟨l, hl, hkey, ho, hmem⟩, hfail, hsock, hconn, hdata⟩ := hq
      obtain ⟨x, hx, -⟩ := hI.inv.own l hl
      refine ⟨⟨l, (buffer_act hA he hl hx).1, hkey, ho, ?_⟩, hfail, hsock, hconn, fun d hd => ?_⟩
      · rw [(exec_footprint _ he).holds w hw]
        exact hmem
      · rw [packetBytes_act hI hA he hl ho]
        exact hdata d hd
  | calling =>
      obtain ⟨p, fs, hs, hfs⟩ := hq
      exact ⟨p, fs, by rw [(exec_effect _ he).stack w hw, hs], hfs⟩
  | _ => exact hq

/-- A calm action takes nothing from the thread itself. -/
lemma shows_calm {r : a.Res} {q : Custody} (hI : (contract u).Ok s) (hA : Allowed t a s)
    (he : exec t a o s = some (r, s')) (ha : a.isCalm = true) (hcall : q ≠ .calling)
    (hq : Shows v t s q) : Shows v t s' q := by
  cases q with
  | fresh sock tried =>
      refine ⟨hq.1, fun ht hf => hq.2 ht (associationFailed_act he ?_ hf)⟩
      rintro x port key rfl
      cases ha
  | holding pkt sock conn data =>
      obtain ⟨⟨l, hl, hkey, ho, hmem⟩, hfail, hsock, hconn, hdata⟩ := hq
      obtain ⟨x, hx, -⟩ := hI.inv.own l hl
      have hhands : a.hands = false := by
        cases a <;> first
          | rfl
          | (cases ha; done)
          | (cases hA; done)
          | cases hA.2.symm.trans hl
      refine ⟨⟨l, (buffer_act hA he hl hx).1, hkey, ho, ?_⟩, hfail, hsock, hconn, fun d hd => ?_⟩
      · rw [(exec_footprint _ he).ownHolds hhands]
        exact hmem
      · rw [packetBytes_act hI hA he hl ho]
        exact hdata d hd
  | calling => exact absurd rfl hcall
  | _ => exact hq

/-- What a worker learns about its packet. -/
lemma shows_holding {r : a.Res} {pkt : Packet} {sock : Option SOCKET}
    {conn : Option ConnectionPtr} {data : Option (List UInt8)} (hI : (contract u).Ok s)
    (hG : Ground v s) (hA : Allowed t a s) (he : exec t a o s = some (r, s'))
    (ha : (Custody.holding pkt sock conn data).allows a)
    (hq : Shows v t s (.holding pkt sock conn data))
    (hframes : ∀ f ∈ s.stack t, f.isReceived = false) :
    Shows v t s' ((Custody.holding pkt sock conn data).next a r) := by
  obtain ⟨⟨l, hl, hkey, ho, hmem⟩, hfail, hsock, hconn, hdata⟩ := id hq
  obtain ⟨x, hx, -⟩ := hI.inv.own l hl
  have hcall : Custody.holding pkt sock conn data ≠ .calling := by simp
  cases a <;> first
    | exact shows_calm hI hA he rfl hcall hq
    | (cases ha; done)
    | exact hA.elim
    | skip
  case getExiting =>
    cases o <;> cases he
    rw [Custody.next, hI.inv.exiting]
    exact hq
  case getIsRunning =>
    cases o <;> cases he
    rw [Custody.next, hI.known.2.isRunning]
    exact hq
  case getIoContext c =>
    obtain ⟨y, hy, rfl, rfl⟩ := exec_getIoContext he
    have hc : c = l := by
      rcases ha with h | h
      · exact Option.some.inj (h.symm.trans hkey)
      · exact Option.some.inj (h.symm.trans ho)
    subst hc
    simp only [Custody.next, hI.inv.receives c y hy, ne_eq, not_true_eq_false, ↓reduceIte]
    split
    · trivial
    · refine ⟨⟨c, hl, hkey, ho, hmem⟩, hfail, hsock, hconn, fun d hd => ?_⟩
      simp only [packetBytes, ho, hy, ← Option.some.inj hd]
  case getSocket c =>
    obtain ⟨y, hy, rfl, rfl⟩ := exec_getSocket he
    refine ⟨⟨l, hl, hkey, ho, hmem⟩, hfail, fun w hw => ?_, hconn, hdata⟩
    rw [← Option.some.inj hw]
    exact hG.contexts c y hy
  case countConnection w =>
    cases o <;> cases he
    rw [Custody.next, hsock w ha, hG.mapped]
    exact hq
  case indexConnection w =>
    obtain rfl := hsock w ha
    obtain ⟨hp, rfl⟩ | ⟨hnone, -, -⟩ := exec_indexConnection he
    · obtain rfl := Option.some.inj (hp.symm.trans hG.mapped)
      refine ⟨⟨l, hl, hkey, ho, hmem⟩, hfail, hsock, fun p hp => ?_, hdata⟩
      exact (Option.some.inj hp).symm
    · cases hG.mapped.symm.trans hnone
  case getConnection p =>
    obtain ⟨-, rfl⟩ := exec_getConnection he
    simp only [Custody.next]
    split
    · exact hq
    · trivial
  case invokeConnection q k p d =>
    cases k with
    | onDataReceived =>
        obtain ⟨y, -, he⟩ := exec_invokeConnection he
        unfold exec.invoke at he
        split at he <;> cases he
        · exact ⟨p, s.stack t, Function.update_self _ _ _, hframes⟩
        · trivial
    | _ => exact shows_calm hI hA he rfl hcall hq
  case enter f => exact shows_calm hI hA he ha hcall hq

/-- What a thread knows after its action. -/
lemma shows_next {r : a.Res} {q : Custody} (hI : (contract u).Ok s) (hH : Handler.Allowed t a s)
    (hG : Ground v s) (hA : Allowed t a s) (he : exec t a o s = some (r, s')) (ha : q.allows a)
    (hq : Shows v t s q) (hframes : q ≠ .calling → ∀ f ∈ s.stack t, f.isReceived = false) :
    Shows v t s' (q.next a r) := by
  cases q with
  | void => exact hq.elim
  | aside => cases a <;> trivial
  | idle =>
      cases a <;> first | trivial | skip
      case getQueuedCompletionStatus p =>
        obtain ⟨rest, hp, rfl⟩ := exec_getQueuedCompletionStatus he
        have hmem : r ∈ s.queue p := hp ▸ List.mem_cons_self
        obtain ⟨l, hl, hkey, ho⟩ := hI.inv.packets p r hmem
        obtain rfl : p = handlerPort := hH.2.trans hI.known.2.workersPort
        refine ⟨⟨l, hl, hkey, ho, ?_⟩, hG.failed r hmem, fun _ h => ?_, fun _ h => ?_,
          fun _ h => ?_⟩
        · simp [State.setStack, State.setHolds, hkey]
        all_goals cases h
  | fresh sock tried =>
      have hcall : Custody.fresh sock tried ≠ .calling := by simp
      cases a <;> first
        | exact shows_calm hI hA he rfl hcall hq
        | (cases ha; done)
        | trivial
        | skip
      case newContext sd op =>
        exact ⟨hq.1, fun ht hf => hq.2 ht (associationFailed_act he (by simp) hf)⟩
      case createIoCompletionPort w port key => exact ⟨hq.1, fun ht => by cases ht⟩
      case getConnection p =>
        obtain ⟨hy, rfl⟩ := exec_getConnection he
        refine ⟨fun sd hsd => ?_, hq.2⟩
        rw [← Option.some.inj hsd]
        exact hG.objects p r hy
      case invokeConnection p k p' d => exact shows_calm hI hA he ha hcall hq
      case enter f => exact shows_calm hI hA he ha hcall hq
  | holding pkt sock conn data =>
      exact shows_holding hI hG hA he ha hq (hframes (by simp))
  | calling =>
      obtain rfl : a = .callbackReturns := ha
      trivial
  | passed => cases a <;> trivial

/-! ## One move -/

/-- Where the threads stand is what the state shows. -/
structure Standing (v : SOCKET) (σ : Tid → Custody) (s : State) : Prop where
  ground : Ground v s
  shows : ∀ t, Shows v t s (σ t)
  aside : ∀ i, σ (.user i) = .aside
  frames : ∀ t, ∀ f ∈ s.stack t, f.isReceived = true → σ t = .calling

/-- The invariant of the automata and the state. -/
structure Carried (u : Setup) (v : SOCKET) (σ : Tid → Custody) (s : State) : Prop
    extends Standing v σ s where
  /-- One thread has the receive, or none. -/
  single : ∀ t t', (σ t).carries = true → (σ t').carries = true → t = t'
  /-- While a thread has it, the network has not. -/
  apart : ∀ t, (σ t).carries = true → s.pending = [] ∧ s.queue handlerPort = []
  few : s.pending.length + (s.queue handlerPort).length ≤ 1
  carried : u.handlers.onDataReceived = true → ∀ t, (σ t).carries = true →
    s.delivered clientConnection ++ inHand s (σ t) = (s.sockets 0).stream
  queued : u.handlers.onDataReceived = true → (∀ t, (σ t).carries = false) →
    s.delivered clientConnection ++ (s.queue handlerPort).flatMap (packetBytes s) =
      (s.sockets 0).stream
  unset : u.handlers.onDataReceived = false → s.delivered clientConnection = []

lemma inHand_eq_nil {q : Custody} (h : q.isHolding = false) : inHand s q = [] := by
  cases q <;> first | rfl | cases h

lemma inHand_act {r : a.Res} {w : Tid} {q : Custody} (hI : (contract u).Ok s)
    (hA : Allowed t a s) (he : exec t a o s = some (r, s')) (hq : Shows v w s q) :
    inHand s' q = inHand s q := by
  cases q with
  | holding pkt sock conn data =>
      obtain ⟨⟨l, hl, -, ho, -⟩, -⟩ := hq
      exact packetBytes_act hI hA he hl ho
  | _ => rfl

/-- A connection object has the callbacks of the user. -/
lemma isSet_of_object (hI : (contract u).Ok s) {p : ConnectionPtr} {y : TcpConnection}
    (hy : s.tcpConnections p = some y) (k : CallbackKind) :
    y.handlers.isSet k = u.handlers.isSet k := by
  rw [(hI.known.1.objects p y hy).2, hI.known.2.handlers]

section Act

variable {r : a.Res} {σ : Tid → Custody}

/-- A callback of data gives the user the bytes in hand; nothing else does. -/
lemma passes_on {q : Custody} (hI : (contract u).Ok s) (hA : Allowed t a s)
    (he : exec t a o s = some (r, s')) (ha : q.allows a) (hq : Shows v t s q)
    (hq' : Shows v t s' (q.next a r)) (hset : u.handlers.onDataReceived = true)
    (htake : ∀ p, a ≠ .getQueuedCompletionStatus p) :
    s'.delivered clientConnection ++ inHand s' (q.next a r) =
      s.delivered clientConnection ++ inHand s q := by
  have hhandler : ∀ k p d, a ≠ .invokeHandler k p d := by
    rintro k p d rfl
    exact hA
  by_cases hdata : ∃ c p d, a = .invokeConnection c .onDataReceived p d
  · obtain ⟨c, p, d, rfl⟩ := hdata
    cases q <;> first
      | exact hq.elim
      | (simp [Action.isCalm] at ha; done)
      | skip
    case holding pkt sock conn data =>
      obtain ⟨-, -, -, hconn, hd⟩ := hq
      obtain ⟨hc, rfl, hda⟩ := ha
      obtain ⟨y, hy, he⟩ := exec_invokeConnection he
      have hy : y.handlers.isSet .onDataReceived = true :=
        (isSet_of_object hI hy .onDataReceived).trans hset
      rw [hy] at he
      cases he
      rw [inHand, ← hd d hda]
      simp [State.delivered, State.record, State.setStack, State.deliveredIn, State.dataFor,
        hconn c hc, inHand]
  · have hsame : s'.delivered clientConnection = s.delivered clientConnection :=
      delivered_act he clientConnection (fun c p d h => hdata ⟨c, p, d, h⟩) hhandler
    rw [hsame]
    congr 1
    cases hh : q.isHolding with
    | false => rw [inHand_eq_nil (Custody.isHolding_next htake hh), inHand_eq_nil hh]
    | true =>
        cases q <;> first | (cases hh; done) | skip
        case holding pkt sock conn data =>
          obtain ⟨⟨l, hl, hkey, ho, -⟩, hfail, -⟩ := hq
          have hbytes := packetBytes_act hI hA he hl ho
          have hvoid : (Custody.holding pkt sock conn data).next a r ≠ .void := by
            intro h
            rw [h] at hq'
            exact hq'
          cases a <;> first
            | exact hbytes
            | (cases ha; done)
            | exact hA.elim
            | skip
          case getIoContext c =>
            obtain ⟨y, hy, rfl, rfl⟩ := exec_getIoContext he
            simp only [Custody.next, hI.inv.receives c y hy, ne_eq, not_true_eq_false, ↓reduceIte]
            split
            · rename_i hnone
              have hzero : pkt.ioSize = 0 := hnone.elim hfail id
              obtain ⟨x, hx, -⟩ := hI.inv.own l hl
              simp [inHand, packetBytes, ho, hx, hzero]
            · rfl
          case getConnection p =>
            obtain ⟨hy, rfl⟩ := exec_getConnection he
            have hy : r.handlers.onDataReceived = true :=
              (isSet_of_object hI hy .onDataReceived).trans hset
            simp only [Custody.next, hy, ↓reduceIte]
          case invokeConnection c k p d =>
            cases k with
            | onDataReceived => exact absurd ⟨c, p, d, rfl⟩ hdata
            | _ => exact hbytes
          all_goals
            simp only [Custody.next] at hvoid ⊢
            split at hvoid
            all_goals first
              | exact absurd rfl hvoid
              | rename_i hread
                simp only [hread, ↓reduceIte]
                exact hbytes

lemma Carried.standing (h : Carried u v σ s) (hI : (contract u).Ok s)
    (hH : Handler.Allowed t a s) (hA : Allowed t a s) (he : exec t a o s = some (r, s'))
    (ha : (σ t).allows a) : Standing v (Function.update σ t ((σ t).next a r)) s' where
  ground := by
    have hsh := h.shows t
    refine h.ground.act hA he (fun sd op hn => ?_) fun w port key hc => ?_
    · subst hn
      cases hq : σ t <;> rw [hq] at ha hsh <;> first
        | exact hsh.elim
        | exact hsh.1 sd ha
        | cases ha
    · subst hc
      cases hq : σ t <;> rw [hq] at ha hsh <;> first
        | exact hsh.elim
        | (cases ha; done)
        | exact (hH.resolve_left (hsh.2 ha)).trans (congrArg some hI.known.2.workersPort)
  shows w := by
    by_cases hw : w = t
    · subst hw
      rw [Function.update_self]
      refine shows_next hI hH h.ground hA he ha (h.shows w) fun hne f hf => ?_
      by_contra hr
      exact hne (h.frames w f hf (by simpa using hr))
    · rw [Function.update_of_ne hw]
      refine shows_other hI hA he hw (h.shows w) fun sock tried hq x port key hc => ?_
      subst hc
      -- both would be the main thread before its first receive
      have hcarries : (σ t).carries = true := by
        cases hq' : σ t <;> rw [hq'] at ha <;> first | rfl | cases ha
      exact hw (h.single w t (by rw [hq]; rfl) hcarries)
  aside i := by
    by_cases ht : Tid.user i = t
    · subst ht
      rw [Function.update_self, h.aside i]
      cases a <;> rfl
    · rw [Function.update_of_ne ht, h.aside i]
  frames w f hf hr := by
    by_cases hw : w = t
    · subst hw
      rw [Function.update_self]
      rcases received_act hA he hf hr with ⟨hmem, htail⟩ | rfl | ⟨⟨q, p, d, rfl⟩, hnext⟩
      · have hcall := h.frames w f hmem hr
        have hsh := h.shows w
        rw [hcall] at ha hsh
        obtain ⟨p, fs, hs, hfs⟩ := hsh
        have hmem := htail ha
        rw [hs] at hmem
        rw [hfs f hmem] at hr
        cases hr
      · have hsh := h.shows w
        cases hq : σ w <;> rw [hq] at ha hsh <;> first
          | exact hsh.elim
          | cases ha
          | simp [Action.isCalm, hr] at ha
      · have hsh := h.shows w
        cases hq : σ w <;> rw [hq] at ha hsh <;> first
          | exact hsh.elim
          | (simp [Action.isCalm] at ha; done)
          | exact hnext _ _ _ _
    · rw [Function.update_of_ne hw]
      rw [(exec_effect _ he).stack w hw] at hf
      exact h.frames w f hf hr

/-- Without a callback for data nothing is passed on. -/
lemma delivered_unset (hI : (contract u).Ok s) (hA : Allowed t a s)
    (he : exec t a o s = some (r, s')) (hset : u.handlers.onDataReceived = false) :
    s'.delivered clientConnection = s.delivered clientConnection := by
  have hhandler : ∀ k p d, a ≠ .invokeHandler k p d := by
    rintro k p d rfl
    exact hA
  by_cases hdata : ∃ c p d, a = .invokeConnection c .onDataReceived p d
  · obtain ⟨c, p, d, rfl⟩ := hdata
    obtain ⟨y, hy, he⟩ := exec_invokeConnection he
    have hy : y.handlers.isSet .onDataReceived = false :=
      (isSet_of_object hI hy .onDataReceived).trans hset
    rw [hy] at he
    cases he
    simp [State.delivered, State.record, State.deliveredIn, State.dataFor]
  · exact delivered_act he clientConnection (fun c p d h => hdata ⟨c, p, d, h⟩) hhandler

/-- A worker takes the packet, and the receive with it. -/
lemma Carried.take {q : Port} {pkt : Packet} (h : Carried u v σ s) (hI : (contract u).Ok s)
    (hH : Handler.Allowed t (.getQueuedCompletionStatus q) s)
    (he : exec t (.getQueuedCompletionStatus q) o s = some (pkt, s'))
    (ha : (σ t).allows (.getQueuedCompletionStatus q)) :
    Carried u v (Function.update σ t ((σ t).next (.getQueuedCompletionStatus q) pkt)) s' := by
  have hstand := h.standing hI hH trivial he ha
  obtain ⟨rest, hq, rfl⟩ := exec_getQueuedCompletionStatus he
  obtain rfl : q = handlerPort := hH.2.trans hI.known.2.workersPort
  have hfew := h.few
  rw [hq, List.length_cons] at hfew
  have hpending : s.pending = [] := List.eq_nil_of_length_eq_zero (by omega)
  have hrest : rest = [] := List.eq_nil_of_length_eq_zero (by omega)
  subst hrest
  have hnone : ∀ w, (σ w).carries = false := fun w => by
    by_contra hw
    have := (h.apart w (by simpa using hw)).2
    rw [hq] at this
    cases this
  have hidle : (σ t).next (.getQueuedCompletionStatus handlerPort) pkt =
      .holding pkt none none none := by
    have hsh := h.shows t
    cases ht : σ t <;> rw [ht] at ha hsh <;> first
      | exact hsh.elim
      | (cases ha; done)
      | rfl
  rw [hidle] at hstand ⊢
  have hone : ∀ w, (Function.update σ t (.holding pkt none none none) w).carries = true → w = t :=
    fun w hw => by
      by_contra hne
      rw [Function.update_of_ne hne, hnone w] at hw
      cases hw
  refine { hstand with single := ?_, apart := ?_, few := ?_, carried := ?_, queued := ?_,
                       unset := h.unset }
  · exact fun w w' hw hw' => (hone w hw).trans (hone w' hw').symm
  · exact fun _ _ => ⟨hpending, by simp [State.setHolds, State.setStack]⟩
  · simp [State.setHolds, State.setStack, hpending]
  · intro hset w hw
    rw [hone w hw, Function.update_self]
    have hold := h.queued hset hnone
    rw [hq, List.flatMap_singleton] at hold
    exact hold
  · intro hset hall
    have := hall t
    rw [Function.update_self] at this
    cases this

/-- A thread that has the receive gives it to the network. -/
lemma Carried.receive {w : SOCKET} {c : ContextPtr} {len : ℕ} {rc : CallResult}
    (h : Carried u v σ s) (hI : (contract u).Ok s) (hH : Handler.Allowed t (.wsaRecv w c len) s)
    (hA : Allowed t (.wsaRecv w c len) s) (he : exec t (.wsaRecv w c len) o s = some (rc, s'))
    (ha : (σ t).allows (.wsaRecv w c len)) :
    Carried u v (Function.update σ t ((σ t).next (.wsaRecv w c len) rc)) s' := by
  have hstand := h.standing hI hH hA he ha
  have hold : (σ t).carries = true ∧ (σ t).isHolding = false ∧
      (σ t).next (.wsaRecv w c len) rc = .idle := by
    have hsh := h.shows t
    cases ht : σ t <;> rw [ht] at ha hsh <;> first
      | exact hsh.elim
      | (cases ha; done)
      | exact ⟨rfl, rfl, rfl⟩
  obtain ⟨hcarries, hholding, hidle⟩ := hold
  rw [hidle] at hstand ⊢
  obtain ⟨hpending, hqueue⟩ := h.apart t hcarries
  have hnone : ∀ u, (Function.update σ t .idle u).carries = false := fun u => by
    by_cases hu : u = t
    · rw [hu, Function.update_self]
      rfl
    · rw [Function.update_of_ne hu]
      by_contra hc
      exact hu (h.single u t (by simpa using hc) hcarries)
  have hdel : s'.delivered clientConnection = s.delivered clientConnection :=
    delivered_act he clientConnection nofun nofun
  have hnow : u.handlers.onDataReceived = true →
      s.delivered clientConnection = (s.sockets 0).stream := fun hset => by
    rw [← h.carried hset t hcarries, inHand_eq_nil hholding, List.append_nil]
  have hsame : s'.queue handlerPort = [] ∧ (s'.sockets 0).stream = (s.sockets 0).stream ∧
      s'.pending.length ≤ 1 := by
    obtain ⟨-, k, -, rfl⟩ | ⟨-, rfl⟩ := exec_wsaRecv he
    · exact ⟨hqueue, rfl, by simp [State.record, State.setHolds, hpending]⟩
    · exact ⟨hqueue, rfl, by simp [State.record, hpending]⟩
  obtain ⟨hq, hstream, hlen⟩ := hsame
  refine { hstand with single := ?_, apart := ?_, few := ?_, carried := ?_, queued := ?_,
                       unset := ?_ }
  · exact fun x y hx => absurd hx (by simp [hnone x])
  · exact fun x hx => absurd hx (by simp [hnone x])
  · simpa [hq] using hlen
  · exact fun _ x hx => absurd hx (by simp [hnone x])
  · intro hset _
    rw [hq, hdel, hstream, hnow hset]
    exact List.append_nil _
  · intro hset
    rw [hdel, h.unset hset]

/-- Every other action leaves the receive where it is, or drops it. -/
lemma Carried.other (h : Carried u v σ s) (hI : (contract u).Ok s) (hH : Handler.Allowed t a s)
    (hA : Allowed t a s) (he : exec t a o s = some (r, s')) (ha : (σ t).allows a)
    (hrecv : ∀ w c len, a ≠ .wsaRecv w c len) (htake : ∀ q, a ≠ .getQueuedCompletionStatus q) :
    Carried u v (Function.update σ t ((σ t).next a r)) s' := by
  have hstand := h.standing hI hH hA he ha
  obtain ⟨hpending, hqueue, hstream⟩ := quiet_act hA he hrecv htake
  have hback : ∀ w, (Function.update σ t ((σ t).next a r) w).carries = true →
      (σ w).carries = true := fun w hw => by
    by_cases hwt : w = t
    · subst hwt
      rw [Function.update_self] at hw
      exact Custody.carries_next htake hw
    · rwa [Function.update_of_ne hwt] at hw
  have hshows := hstand.shows t
  rw [Function.update_self] at hshows
  have hpass : u.handlers.onDataReceived = true →
      s'.delivered clientConnection ++ inHand s' ((σ t).next a r) =
        s.delivered clientConnection ++ inHand s (σ t) :=
    fun hset => passes_on hI hA he ha (h.shows t) hshows hset htake
  -- a thread without the receive passes nothing on
  have hkept : u.handlers.onDataReceived = true → (σ t).carries = false →
      s'.delivered clientConnection = s.delivered clientConnection := fun hset ht => by
    have hh := Custody.isHolding_of_not_carries ht
    have hnil := hpass hset
    rwa [inHand_eq_nil hh, inHand_eq_nil (Custody.isHolding_next htake hh), List.append_nil,
      List.append_nil] at hnil
  refine { hstand with single := ?_, apart := ?_, few := ?_, carried := ?_, queued := ?_,
                       unset := ?_ }
  · exact fun w w' hw hw' => h.single w w' (hback w hw) (hback w' hw')
  · rw [hpending, hqueue]
    exact fun w hw => h.apart w (hback w hw)
  · rw [hpending, hqueue]
    exact h.few
  · intro hset w hw
    rw [hstream, ← h.carried hset w (hback w hw)]
    by_cases hwt : w = t
    · subst hwt
      rw [Function.update_self]
      exact hpass hset
    · have ht : (σ t).carries = false := by
        by_contra hc
        exact hwt (h.single w t (hback w hw) (by simpa using hc))
      rw [Function.update_of_ne hwt, hkept hset ht, inHand_act hI hA he (h.shows w)]
  · intro hset hall
    rw [hqueue, hstream]
    have hnext := hall t
    rw [Function.update_self] at hnext
    cases ht : (σ t).carries with
    | true =>
        -- the receive is dropped, with nothing left to pass on
        have hnow := hpass hset
        rw [h.carried hset t ht, inHand_eq_nil (Custody.isHolding_of_not_carries hnext),
          List.append_nil] at hnow
        rw [(h.apart t ht).2, hnow]
        exact List.append_nil _
    | false =>
        have hnone : ∀ w, (σ w).carries = false := fun w => by
          by_cases hwt : w = t
          · rw [hwt, ht]
          · have := hall w
            rwa [Function.update_of_ne hwt] at this
        rw [hkept hset ht, ← h.queued hset hnone]
        congr 1
        refine List.flatMap_congr fun pkt hpkt => ?_
        obtain ⟨l, hl, -, ho⟩ := hI.inv.packets handlerPort pkt hpkt
        exact packetBytes_act hI hA he hl ho
  · intro hset
    rw [delivered_unset hI hA he hset, h.unset hset]

end Act

/-! ## Moves of the network -/

/-- The network completes the receive that is outstanding. -/
lemma landed_of_osStep {e : OsEvent} (hI : (contract u).Ok s) (hG : Ground v s)
    (he : osStep e s = some s') : ∃ op ok bytes, op ∈ s.pending ∧ (ok = false → bytes = []) ∧
      s' = Server.landed s op 0 ok bytes := by
  have hkey : ∀ op ∈ s.pending,
      (s.sockets op.sock).assoc = some (s.workersPort, op.overlapped) := fun op hop => by
    obtain ⟨-, q, hq⟩ := hI.inv.pending op hop
    rw [hq, hG.assoc _ _ _ hq, hI.known.2.workersPort]
  have hfills : ∀ op ∈ s.pending, Server.Fills op 0 := fun op hop =>
    .inr ⟨(hG.pending op hop).1, (hG.pending op hop).2.symm⟩
  obtain ⟨op, bytes, rfl, hop, -, rfl⟩ | ⟨op, rfl, hop, rfl⟩ := osStep_cases he
  · refine ⟨op, true, bytes, hop, nofun, ?_⟩
    rw [Server.receiveData_eq (hfills op hop), Server.postPacket_eq]
    · rfl
    · exact (Server.landed_assoc s op 0 true bytes op.sock).trans (hkey op hop)
  · refine ⟨op, false, [], hop, fun _ => rfl, ?_⟩
    rw [Server.postPacket_eq (s := { s with pending := s.pending.erase op }) (hkey op hop),
      Server.landed, Server.fill_nil]
    rfl

lemma Carried.land {σ : Tid → Custody} {op : PendingOp} {ok : Bool} {bytes : List UInt8}
    (h : Carried u v σ s) (hI : (contract u).Ok s) (hop : op ∈ s.pending)
    (hok : ok = false → bytes = []) : Carried u v σ (Server.landed s op 0 ok bytes) := by
  have hport := hI.known.2.workersPort
  have hfew := h.few
  have hpos := List.length_pos_of_mem hop
  have hqueue : s.queue handlerPort = [] := List.eq_nil_of_length_eq_zero (by omega)
  have hlanded : (Server.landed s op 0 ok bytes).queue handlerPort =
      [Server.packetOf op ok bytes.length] := by
    rw [← hport, Server.landed_queue, hport, hqueue, List.nil_append]
  have hnone : ∀ w, (σ w).carries = false := fun w => by
    by_contra hw
    have := (h.apart w (by simpa using hw)).1
    rw [this] at hop
    cases hop
  have hlive : Server.Live s op.overlapped := by
    obtain ⟨x, hx, -⟩ := hI.inv.own _ (hI.inv.pending op hop).1
    exact ⟨x, hx⟩
  have hground : Ground v (Server.landed s op 0 ok bytes) :=
    { h.ground with
      contexts := fun c y hy => by
        obtain ⟨x, hx, hsame⟩ := Server.context_of_landed hy
        rw [hsame.socket]
        exact h.ground.contexts c x hx
      assoc := fun k q c hq => by
        rw [Server.landed_assoc] at hq
        exact h.ground.assoc k q c hq
      pending := fun op' hop' => h.ground.pending op' (List.mem_of_mem_erase hop')
      failed := fun pkt hpkt => by
        rw [hlanded, List.mem_singleton] at hpkt
        rw [hpkt]
        exact fun hf => by simp [Server.packetOf, hok hf] }
  refine { ground := hground, shows := fun w => ?_, aside := h.aside, frames := h.frames,
           single := h.single, apart := fun w hw => ?_, few := ?_, carried := fun _ w hw => ?_,
           queued := fun hset _ => ?_, unset := h.unset }
  · have hw := hnone w
    cases hq : σ w <;> rw [hq] at hw <;> trivial
  · exact absurd hw (by simp [hnone w])
  · have herase : (Server.landed s op 0 ok bytes).pending.length = s.pending.length - 1 :=
      List.length_erase_of_mem hop
    rw [hlanded, herase, List.length_singleton]
    omega
  · exact absurd hw (by simp [hnone w])
  · have hold := h.queued hset hnone
    rw [hqueue] at hold
    rw [hlanded, List.flatMap_singleton, Server.packetBytes_new hlive, Server.landed_stream,
      ← hold]
    exact congrArg (· ++ bytes) (List.append_nil _).symm

end Client

/-! ## Along a run -/

/-- The automata when a run of a client begins. -/
def Client.standing : Tid → Custody
  | .main => .fresh none false
  | .worker _ => .idle
  | .user _ => .aside

namespace Client

variable {u : Setup} {G : Config Action Action.Res State Tid Label}

lemma carried_init (u : Setup) (v : SOCKET) :
    Carried u v Client.standing (State.initClient u v) where
  ground :=
    { opened := by simp [State.initClient]
      mapped := by simp [State.initClient]
      contexts := fun _ _ h => by cases h
      objects := fun p y hy => by
        simp only [State.initClient, Function.update_apply] at hy
        split at hy <;> cases hy
        rfl
      assoc := fun _ _ _ h => by cases h
      pending := fun _ h => absurd h List.not_mem_nil
      failed := fun _ h => absurd h List.not_mem_nil }
  shows t := by
    cases t with
    | main =>
        refine ⟨fun _ h => (by cases h), fun _ hfailed => ?_⟩
        obtain ⟨_, h, -⟩ := hfailed
        exact absurd h List.not_mem_nil
    | _ => trivial
  aside _ := rfl
  frames _ _ h := absurd h List.not_mem_nil
  single t t' h h' := by
    have hmain : ∀ w, (standing w).carries = true → w = .main := fun w hw => by
      cases w <;> first | rfl | cases hw
    exact (hmain t h).trans (hmain t' h').symm
  apart _ _ := ⟨rfl, rfl⟩
  few := Nat.zero_le _
  carried _ t h := by
    cases t <;> rfl
  queued _ h := absurd (h .main) (by decide)
  unset _ := rfl

lemma carried_keeps (u : Setup) (v : SOCKET) :
    custody.Keeps (machine .client) (Reachable .client u) (Carried u v) where
  code := code_custody
  act G t a k c r s' σ hG hx ha he hI := by
    have hC := hG.client.ok
    have hH := hG.handler.allowed hx
    have hA := hG.client.allowed hx
    by_cases hrecv : ∃ w c len, a = .wsaRecv w c len
    · obtain ⟨w, c, len, rfl⟩ := hrecv
      exact hI.receive hC hH hA he ha
    by_cases htake : ∃ q, a = .getQueuedCompletionStatus q
    · obtain ⟨q, rfl⟩ := htake
      exact hI.take hC hH he ha
    · exact hI.other hC hH hA he ha (fun w c len h => hrecv ⟨w, c, len, h⟩)
        fun q h => htake ⟨q, h⟩
  env G e s' σ hG he hI := by
    obtain ⟨op, ok, bytes, hop, hok, rfl⟩ := landed_of_osStep hG.client.ok hI.ground he
    exact hI.land hG.client.ok hop hok
  enter G t l s' σ _ hx he hI := by
    obtain rfl := enter_eq he
    cases t with
    | user i =>
        cases l with
        | send p data =>
            have hsame : Function.update σ (.user i) (custody.entry (.send p data)) = σ := by
              rw [Function.update_eq_self_iff, hI.aside i]
              rfl
            rwa [hsame]
        | _ => cases he
    | main => cases l <;> simp [machine, handlerMachine, enter] at he
    | worker i => cases l <;> cases he

end Client

/-- **In every run of a client the bytes are where the threads stand.** -/
theorem Reachable.carried {u : Setup} {G : Config Action Action.Res State Tid Label}
    (hG : Reachable .client u G) :
    ∃ v σ, (∀ t, custody.OnTrack (G.threads t) (σ t)) ∧ Client.Carried u v σ G.state := by
  obtain ⟨G₀, h0, hr⟩ := hG
  cases h0 with
  | client v hv =>
      have h0 : Begins u .client (clientInit u v) := .client v hv
      refine ⟨v, (Client.carried_keeps u v).sound (fun G' hr' => ⟨_, h0, hr'⟩) hr (fun t => ?_)
        (Client.carried_init u v)⟩
      have htrack := onTrack_beginning code_custody h0 t
      cases t with
      | main => exact htrack
      | worker i => exact htrack
      | user i => trivial

end Alpl.Net
