import Alpl.Server.Rearming

/-!
# The loop of the workers

The triple of one turn of `WorkerThread`.  A worker takes a packet with no context in hand; the
packet is the wake-up of `exiting()`, the completion of an accept, or that of a receive, and the
invariant says for each of them what the worker now holds (`Came`).  At the end of the turn
everything it still holds may be let go, and it leaves the loop only if the handler is exiting or
one of its own calls has failed.
-/

namespace Alpl.Net

open Interleaving

namespace Server

variable {u : Setup} {t : Tid} {fs : List Frame} {s s' : State}
variable {l c : ContextPtr} {v : SOCKET} {k : SockId} {p : ConnectionPtr}
variable {size : ℕ} {data : List UInt8}

/-! ## What a packet brings -/

/-- The worker has the context of a receive that was completed with `data`. -/
def Came (t : Tid) (l c : ContextPtr) (v : SOCKET) (k : SockId) (p : ConnectionPtr) (size : ℕ)
    (data : List UInt8) (s : State) : Prop :=
  (Works t l c [] v k p data s ∧ Brings c size data s) ∧ Receives c s

lemma Respects.receives (hR : Respects t s s') (hc : c ∈ s.holds t)
    (hthe : s.theSocketContext ≠ some c) (h : Receives c s) : Receives c s' := by
  rw [Receives, (hR.kept c hc).context hthe]
  exact h

lemma fact_came : Fact t (Came t l c v k p size data) := fun s s' hI hO hR h =>
  ⟨fact_brings List.mem_cons_self s s' hI hO hR h.1,
    hR.receives h.1.1.1.mem (h.1.1.1.the_ne h.1.1.1.apart) h.2⟩

/-- What the worker knows of a connection's packet: nothing but the context, if the handler is
exiting. -/
def CameUnlessExiting (t : Tid) (l c : ContextPtr) (size : ℕ) (s : State) : Prop :=
  Hand t l [c] s ∧ (s.exiting = false → ∃ v k p data, Came t l c v k p size data s)

lemma fact_cameUnlessExiting : Fact t (CameUnlessExiting t l c size) := fun s s' hI hO hR h => by
  refine ⟨fact_hand s s' hI hO hR h.1, fun he => ?_⟩
  have he0 : s.exiting = false := by
    by_contra hn
    rw [hO.exiting (eq_true_of_ne_false hn)] at he
    cases he
  obtain ⟨v, k, p, data, hc⟩ := h.2 he0
  exact ⟨v, k, p, data, fact_came s s' hI hO hR hc⟩

/-- The wake-up that `exiting()` posts. -/
def WokenUp (t : Tid) (l : ContextPtr) (s : State) : Prop :=
  Hand t l [] s ∧ s.exiting = true

lemma lasting_exiting : Lasting fun s => s.exiting = true := fun _ _ hO h => hO.exiting h

/-- What a worker knows when it has taken `pkt`: it was woken up to leave, an accept has completed,
or a receive. -/
def Took (t : Tid) (pkt : Packet) (s : State) : Prop :=
  ∃ l, (pkt = Packet.exit ∧ At t [.exitPacket] (WokenUp t l) s) ∨
    (∃ v k data, (pkt.key = some l ∧ pkt.overlapped = some l) ∧
      At t [.completion .ioAccept l] (Arrived t l [l] v k pkt.ioSize data) s) ∨
    ∃ c, (pkt.key = some c ∧ pkt.overlapped = some c ∧ (pkt.succeed = false → pkt.ioSize = 0)) ∧
      At t [.completion .ioReceive c] (CameUnlessExiting t l c pkt.ioSize) s

lemma stable_took (pkt : Packet) : (contract u).Stable t (Took t pkt) :=
  Contract.Stable.exists fun _ => Contract.Stable.or
    ((Contract.Stable.const _).and (stable_at (fact_hand.and (.of_lasting lasting_exiting))))
    (Contract.Stable.or
      (Contract.Stable.exists fun _ => Contract.Stable.exists fun _ => Contract.Stable.exists
        fun _ => (Contract.Stable.const _).and (stable_at (fact_arrived List.mem_cons_self)))
      (Contract.Stable.exists fun _ =>
        (Contract.Stable.const _).and (stable_at fact_cameUnlessExiting)))

/-! ## Taking a packet -/

/-- If one packet is all that refers to a context, its bytes are all that is queued for it. -/
lemma queuedBytes_head {pkt : Packet} {rest : List Packet}
    (hq : s.queue s.workersPort = pkt :: rest) (ho : pkt.overlapped = some c)
    (hone : s.outstanding c ≤ 1) : queuedBytes s c = packetBytes s pkt := by
  have hrest : rest.countP (fun pkt => pkt.overlapped = some c) = 0 := by
    rw [State.outstanding, hq, List.countP_cons_of_pos (by exact decide_eq_true ho)] at hone
    omega
  rw [List.countP_eq_zero] at hrest
  rw [queuedBytes, hq, List.filter_cons_of_pos (by exact decide_eq_true ho), List.flatMap_cons,
    List.filter_eq_nil_iff.mpr hrest, List.flatMap_nil, List.append_nil]

lemma Packet.frame_of_context {pkt : Packet} {x : SocketContext} (ho : pkt.overlapped = some c)
    (hx : s.contexts c = some x) : pkt.frame s = .completion x.ioContext.lastOperation c := by
  rw [Net.Packet.frame, ho]
  simp only [hx]

/-- What the invariant says of the context of a packet. -/
lemma came_of_packet {pkt : Packet} {rest : List Packet} (hI : Inv s)
    (hl : s.theSocketContext = some l) (hq : s.queue s.workersPort = pkt :: rest)
    (ho : pkt.overlapped = some c) (hc : c ≠ l)
    (he : s.exiting = false) : Receives c s ∧ NotCalled c s ∧ ∃ v k p data,
      Registered s c v k p ∧ Brings c pkt.ioSize data s ∧
      (s.handlers.onDataReceived = true → Pending s p c data) := by
  have hmem : pkt ∈ s.queue s.workersPort := hq ▸ List.mem_cons_self
  have hout := outstanding_of_packet hmem ho
  obtain ⟨hnever, hreceives, v, k, p, hreg⟩ := hI.clientOut l c hl hc hout
  obtain ⟨x, hx⟩ := hreg.live
  refine ⟨hreceives, hnever, v, k, p, _, hreg, ⟨x, hx, rfl⟩, fun hd => ?_⟩
  have hpending := hI.complete p c hd he hreg.madeFor fun w hw => hout (hI.quiet w c hw)
  rw [queuedBytes_head hq ho (hI.atMostOne c), packetBytes, ho] at hpending
  simpa only [hx] using hpending

/-- A worker that has nothing in hand takes a packet. -/
lemma took_of_packet {pkt : Packet} {rest : List Packet} (hI : Inv s)
    (hq : s.queue s.workersPort = pkt :: rest) :
    Took t pkt ((taken s t pkt rest).setStack t [pkt.frame s]) := by
  have hmem : pkt ∈ s.queue s.workersPort := hq ▸ List.mem_cons_self
  have hthe : s.theSocketContext ≠ none := fun h0 => by
    rw [(hI.idle h0).2.1] at hmem
    cases hmem
  obtain ⟨l, hl⟩ := Option.ne_none_iff_exists'.mp hthe
  have hstack : ((taken s t pkt rest).setStack t [pkt.frame s]).stack t = [pkt.frame s] :=
    Function.update_self _ _ _
  have hholds : ((taken s t pkt rest).setStack t [pkt.frame s]).holds t = pkt.key.toList :=
    Function.update_self _ _ _
  rcases hI.packet pkt hmem with ⟨rfl, he⟩ | ⟨⟨c, hkey, ho⟩, hsize⟩
  · exact ⟨l, .inl ⟨rfl, hstack, ⟨hholds, hl, nofun⟩, he⟩⟩
  rw [hkey] at hholds
  by_cases hc : c = l
  · subst hc
    obtain ⟨hport, k, hready⟩ := hI.acceptOut c hl (outstanding_of_packet hmem ho)
    have hstream := hI.acceptPacket c k pkt hmem hl ho hready
    obtain ⟨⟨x, hx, hv, hne⟩, hassoc⟩ := hready
    refine ⟨c, .inr (.inl ⟨x.ioContext.socketAccept, k, x.ioContext.buffer.take pkt.ioSize,
      ⟨hkey, ho⟩, ?_, ⟨hholds, hl, fun _ => hport⟩, ⟨x, hx, rfl, rfl, hne⟩, hv, hassoc, ?_⟩)⟩
    · rw [hstack, Packet.frame_of_context ho hx, (hI.kind c c x hl hx).mpr rfl]
    · show (s.sockets k).stream = _
      rw [packetBytes, ho] at hstream
      simpa only [hx] using hstream
  · refine ⟨l, .inr (.inr ⟨c, ⟨hkey, ho, hsize⟩, ?_, ?_⟩)⟩
    · obtain ⟨-, ⟨x, hx, hreceive⟩, -⟩ := hI.clientOut l c hl hc (outstanding_of_packet hmem ho)
      rw [hstack, Packet.frame_of_context ho hx, hreceive]
    · have hhand : Hand t l [c] ((taken s t pkt rest).setStack t [pkt.frame s]) :=
        ⟨hholds, hl, fun h => absurd (List.mem_singleton.mp h).symm hc⟩
      refine ⟨hhand, fun he => ?_⟩
      obtain ⟨hreceives, hnever, v, k, p, data, hreg, hbrings, htodo⟩ :=
        came_of_packet hI hl hq ho hc he
      exact ⟨v, k, p, data, ⟨⟨⟨hhand, hc, hreg, htodo⟩, hnever⟩, hbrings⟩, hreceives⟩

lemma atomic_getQueuedCompletionStatus (ht : ∃ i, t = .worker i) :
    (contract u).Atomic (machine .server) t (Empty t) (.getQueuedCompletionStatus handlerPort)
      (Took t) := by
  refine atomic stable_took ?_ ?_
  · exact fun s hI hP => ⟨hI.known.2.workersPort.symm, hP.2, ht⟩
  · intro s o pkt s' hI _ hP he
    rw [← hI.known.2.workersPort] at he
    obtain ⟨rest, hq, rfl⟩ := exec_getQueuedCompletionStatus he
    exact took_of_packet hI.inv hq

/-! ## One turn -/

/-- What holds at the end of a turn: whatever the worker still has in hand may be let go, and if
it leaves the loop there is a reason. -/
structure Turned (t : Tid) (l : ContextPtr) (next : Turn) (s : State) : Prop where
  the : s.theSocketContext = some l
  done : s.exiting = true ∨ Over t l (GaveUp t) s
  leaves : next = .leave → s.exiting = true ∨ WorkerFault t s

/-- `ALPL_ASSERT`: the loop goes on only if the function has succeeded. -/
lemma safe_alplAssert {f : P ℤ} {q : P Turn} {P : State → Prop} {Φ Ψ : ℤ → State → Prop}
    {Q : Turn → State → Prop}
    (hf : (contract u).Safe (machine .server) t f P fun rc s => rc = commSuccess ∧ Φ rc s ∨
      rc ≠ commSuccess ∧ Ψ rc s)
    (hq : (contract u).Safe (machine .server) t q (Φ commSuccess) Q)
    (hfail : ∀ rc s, (contract u).Ok s → Ψ rc s → Q .leave s) :
    (contract u).Safe (machine .server) t (alplAssert f q) P Q := by
  refine Contract.Safe.bind hf fun rc => ?_
  by_cases hrc : rc = commSuccess
  · subst hrc
    rw [if_neg (not_not_intro rfl)]
    exact hq.pre fun s _ h => (h.resolve_right fun h => h.1 rfl).2
  · rw [if_pos hrc]
    exact fun s hI h => hfail rc s hI (h.resolve_left fun h => hrc h.1).2

lemma AcceptFailed.turned (h : AcceptFailed t l s) : Turned t l .leave s :=
  ⟨h.1.the, .inr ⟨h.1.the, h.1.others, fun hl => .inl (h.1.excused hl)⟩, fun _ => .inr h.2⟩

lemma Rearmed.turned {rc : ℤ} {next : Turn} (h : Rearmed t l rc s)
    (hn : next = .leave → rc ≠ commSuccess) : Turned t l next s :=
  ⟨h.1.the, .inr h.1, fun hl => .inr (h.2.2 (hn hl))⟩

lemma Released.turned (hI : Inv s) (h : Released t l c [] v k p s) : Turned t l .again s := by
  rcases h with h | ⟨h, ha⟩
  · refine ⟨h.the, .inr ⟨h.the, fun d hd => ?_, fun hl => ?_⟩, nofun⟩
    · exact absurd (h.holds ▸ hd) List.not_mem_nil
    · exact absurd (h.holds ▸ hl) List.not_mem_nil
  · refine ⟨h.the, .inr ⟨h.the, fun d hd _ => ?_, fun hl => ?_⟩, nofun⟩
    · obtain rfl := List.mem_singleton.mp (h.holds ▸ hd)
      exact ⟨ha, h.drained hI⟩
    · exact absurd (List.mem_singleton.mp (h.holds ▸ hl)).symm h.apart

/-- A completed accept. -/
lemma safe_switchAccept (ht : ∃ i, t = .worker i) :
    (contract u).Safe (machine .server) t
      (alplAssert (handleAccept l ⟨size, l⟩) (alplAssert startAccept (pure .again)))
      (At t [.completion .ioAccept l] (Arrived t l [l] v k size data))
      fun next => At t [.completion .ioAccept l] (Turned t l next) := by
  have hfs : NoData [.completion .ioAccept l] := fun p hp => nomatch List.mem_singleton.mp hp
  refine safe_alplAssert (Φ := fun _ => At t [.completion .ioAccept l] (Left t l))
    (Ψ := fun _ => At t [.completion .ioAccept l] (AcceptFailed t l))
    ((safe_handleAccept ht hfs).post fun rc s _ h => ?_) ?_ fun rc s _ h =>
      h.imp AcceptFailed.turned
  · exact h.fact.imp (fun hs => ⟨hs.1, h.stack, hs.2⟩) fun hs => ⟨hs.1, h.stack, hs.2⟩
  refine safe_alplAssert (Φ := fun rc => At t [.completion .ioAccept l] (Rearmed t l rc))
    (Ψ := fun rc s => rc ≠ commSuccess ∧ At t [.completion .ioAccept l] (Rearmed t l rc) s)
    ((safe_startAccept (.inl (List.mem_singleton_self _))).post fun rc s _ h => ?_) ?_ ?_
  · by_cases hrc : rc = commSuccess
    · exact .inl ⟨hrc, h⟩
    · exact .inr ⟨hrc, hrc, h⟩
  · exact fun s _ h => h.imp fun hs => hs.turned nofun
  · exact fun rc s _ h => h.2.imp fun hs => hs.turned fun _ => h.1

/-- A completed receive that has brought something. -/
lemma safe_switchReceive :
    (contract u).Safe (machine .server) t
      (alplAssert (handleReceive c ⟨size, c⟩) (pure .again))
      (At t [.completion .ioReceive c] (Came t l c v k p size data))
      fun next => At t [.completion .ioReceive c] (Turned t l next) := by
  have hfs : NoData [.completion .ioReceive c] := fun p hp => nomatch List.mem_singleton.mp hp
  refine safe_alplAssert (Φ := fun _ => At t [.completion .ioReceive c] (Released t l c [] v k p))
    (Ψ := fun _ _ => False)
    (((safe_handleReceive hfs).pre fun _ _ h => h.imp And.left).post fun rc s _ h =>
      .inl ⟨h.fact.1, h.imp And.right⟩) ?_ fun _ _ _ h => h.elim
  exact fun s hI h => h.imp (Released.turned hI.inv)

lemma read_lastOperation {Φ : State → Prop} (fs : List Frame) (op : LastIoOperation)
    (hΦ : Fact t Φ) (hc : ∀ s, Φ s → c ∈ s.holds t)
    (hop : ∀ s x, (contract u).Ok s → Φ s → s.contexts c = some x →
      x.ioContext.lastOperation = op) :
    (contract u).Atomic (machine .server) t (At t fs Φ) (.getIoContext c)
      fun io s => io.lastOperation = op ∧ At t fs Φ s :=
  read_getIoContext (fun io => io.lastOperation = op) hΦ (fun s h => .inl (hc s h)) hop

lemma operation_of_came {x : SocketContext} (h : Came t l c v k p size data s)
    (hx : s.contexts c = some x) : x.ioContext.lastOperation = .ioReceive := by
  obtain ⟨y, hy, hop⟩ := h.2
  obtain rfl := Option.some.inj (hx.symm.trans hy)
  exact hop

/-- The packet of an accept goes to `handle_accept`, whatever it says. -/
lemma safe_handleAcceptPacket {pkt : Packet} (ht : ∃ i, t = .worker i)
    (hp : pkt.key = some l ∧ pkt.overlapped = some l) :
    (contract u).Safe (machine .server) t (handlePacket pkt)
      (At t [.completion .ioAccept l] (Arrived t l [l] v k pkt.ioSize data))
      fun next => At t [.completion .ioAccept l] (Turned t l next) := by
  obtain ⟨succeed, ioSize, key, overlapped⟩ := pkt
  obtain ⟨rfl, rfl⟩ := hp
  have hfact : Fact t (Arrived t l [l] v k ioSize data) :=
    fact_arrived (List.mem_singleton_self l)
  have hread := read_lastOperation (u := u) (c := l) [.completion .ioAccept l] .ioAccept hfact
    (fun s h => h.mem) fun s x hI h hx => (hI.inv.kind l l x h.the hx).mpr rfl
  refine Contract.Safe.step _ hread fun io => Contract.Safe.pure fun hio => ?_
  rw [if_neg fun h => h.1 hio]
  refine Contract.Safe.step _ hread fun io' => Contract.Safe.pure fun hio' => ?_
  rw [hio']
  exact safe_switchAccept ht

/-- The packet of a receive goes to `handle_receive`; if it says that the connection broke, to
`disconnect`. -/
lemma safe_handleReceivePacket {pkt : Packet}
    (hp : pkt.key = some c ∧ pkt.overlapped = some c ∧ (pkt.succeed = false → pkt.ioSize = 0)) :
    (contract u).Safe (machine .server) t (handlePacket pkt)
      (At t [.completion .ioReceive c] (Came t l c v k p pkt.ioSize data))
      fun next => At t [.completion .ioReceive c] (Turned t l next) := by
  obtain ⟨succeed, ioSize, key, overlapped⟩ := pkt
  obtain ⟨rfl, rfl, hsize⟩ := hp
  have hfs : NoData [.completion .ioReceive c] := fun p hp => nomatch List.mem_singleton.mp hp
  have hfact : Fact t (Came t l c v k p ioSize data) := fact_came
  have hread := read_lastOperation (u := u) (c := c) [.completion .ioReceive c] .ioReceive hfact
    (fun s h => h.1.1.1.mem) fun s x _ h hx => operation_of_came h hx
  refine Contract.Safe.step _ hread fun io => Contract.Safe.pure fun hio => ?_
  by_cases hbroken : succeed = false ∨ ioSize = 0
  · rw [if_pos ⟨by rw [hio]; nofun, hbroken⟩]
    -- a packet that tells of a broken connection carries no bytes
    have hzero : ioSize = 0 := hbroken.elim hsize id
    subst hzero
    refine Contract.Safe.bind (N := fun _ => At t [.completion .ioReceive c]
      (Released t l c [] v k p)) ?_ fun _ s hI h => h.imp (Released.turned hI.inv)
    refine (safe_disconnect false hfs).pre fun s _ h => h.imp fun hs => ?_
    obtain ⟨x, -, hb⟩ := hs.1.2
    obtain rfl : [] = data := (List.take_zero ..).symm.trans hb
    exact hs.1.1
  · rw [if_neg fun h => hbroken h.2]
    refine Contract.Safe.step _ hread fun io' => Contract.Safe.pure fun hio' => ?_
    rw [hio']
    exact safe_switchReceive

/-- The loop looks at `exiting_` and `is_running_` first. -/
lemma safe_turn {pkt : Packet} {Φ Ψ : State → Prop} (hΦ : Fact t Φ) (hΨ : Fact t Ψ)
    (hstep : ∀ s, s.exiting = false → Φ s → Ψ s)
    (hleave : ∀ s, s.exiting = true → Φ s → Turned t l .leave s)
    (hpacket : (contract u).Safe (machine .server) t (handlePacket pkt) (At t fs Ψ)
      fun next => At t fs (Turned t l next)) :
    (contract u).Safe (machine .server) t (turn pkt) (At t fs Φ)
      fun next => At t fs (Turned t l next) := by
  refine Contract.Safe.step (fun e => At t fs fun s => e = true ∧ (Φ s ∧ s.exiting = true) ∨
    e = false ∧ Ψ s) (ask (a := .getExiting) rfl (fun e => ?_) (fun _ _ _ => trivial) ?_)
    fun e => ?_
  · exact ((Fact.const _).and (hΦ.and (.of_lasting lasting_exiting))).or ((Fact.const _).and hΨ)
  · intro s o r s' _ hs he
    cases o <;> cases he
    cases hx : s.exiting with
    | true => exact .inl ⟨rfl, hs, rfl⟩
    | false => exact .inr ⟨rfl, hstep s hx hs⟩
  cases e with
  | true =>
      refine fun s _ h => h.imp fun hs => ?_
      obtain ⟨hs, he⟩ := (hs.resolve_right fun h => nomatch h.1).2
      exact hleave s he hs
  | false =>
      refine Contract.Safe.pre (N := At t fs Ψ) ?_ fun s _ h => h.imp fun hs =>
        (hs.resolve_left fun h => nomatch h.1).2
      refine Contract.Safe.step _ (read (a := .getIsRunning) rfl hΨ (· = true)
        (fun _ _ _ => trivial) fun s o r s' hI _ he => ?_) fun r => Contract.Safe.pure fun hr => ?_
      · cases o <;> cases he
        exact hI.known.2.isRunning
      · subst hr
        exact hpacket

lemma letGo_of_over (h : Over t l (GaveUp t) s) : ∀ d ∈ s.holds t, LetGo s d := by
  intro d hd
  by_cases hdl : d = l
  · subst hdl
    exact .inr (.inl ⟨h.the, (h.excused hd).notRearmed⟩)
  · refine .inr (.inr ⟨?_, ?_, h.others d hd hdl⟩) <;> rw [h.the]
    · exact fun heq => hdl (Option.some.inj heq).symm
    · nofun

/-- A whole turn, whatever the packet. -/
lemma safe_turn_of_took (ht : ∃ i, t = .worker i) (pkt : Packet) :
    (contract u).Safe (machine .server) t (turn pkt) (Took t pkt)
      fun next s => ∃ fs l, At t fs (Turned t l next) s := by
  refine Contract.Safe.exists fun l => Contract.Safe.or (Contract.Safe.pure fun _ => ?_)
    (Contract.Safe.or (Contract.Safe.exists fun v => Contract.Safe.exists fun k =>
      Contract.Safe.exists fun data => Contract.Safe.pure fun hp => ?_)
      (Contract.Safe.exists fun c => Contract.Safe.pure fun hp => ?_))
  · have hfact : Fact t (WokenUp t l) := fact_hand.and (.of_lasting lasting_exiting)
    refine (safe_turn (l := l) (Ψ := fun _ => False) hfact (.const _)
      (fun s he hs => nomatch he.symm.trans hs.2) (fun s he hs => ⟨hs.1.the, .inl he,
        fun _ => .inl he⟩) (Contract.Safe.vacuous _ fun _ _ h => h.fact)).post
      fun _ s _ h => ⟨_, l, h⟩
  · have hfact : Fact t (Arrived t l [l] v k pkt.ioSize data) := fact_arrived List.mem_cons_self
    exact (safe_turn hfact hfact (fun _ _ hs => hs) (fun s he hs => ⟨hs.the, .inl he,
      fun _ => .inl he⟩) (safe_handleAcceptPacket ht hp)).post fun _ s _ h => ⟨_, l, h⟩
  · refine (safe_turn (l := l) (Ψ := fun s => ∃ v k p data, Came t l c v k p pkt.ioSize data s)
      fact_cameUnlessExiting (fun s s' hI hO hR ⟨v, k, p, data, h⟩ =>
        ⟨v, k, p, data, fact_came s s' hI hO hR h⟩) (fun s he hs => hs.2 he)
      (fun s he hs => ⟨hs.1.the, .inl he, fun _ => .inl he⟩) ?_).post fun _ s _ h => ⟨_, l, h⟩
    refine Contract.Safe.pre (N := fun s => ∃ v k p data,
      At t [.completion .ioReceive c] (Came t l c v k p pkt.ioSize data) s) ?_
      fun s _ ⟨hstack, v, k, p, data, h⟩ => ⟨v, k, p, data, hstack, h⟩
    exact Contract.Safe.exists fun v => Contract.Safe.exists fun k => Contract.Safe.exists fun p =>
      Contract.Safe.exists fun data => safe_handleReceivePacket hp

/-- The worker has let go of everything. -/
def Freed (t : Tid) (next : Turn) (s : State) : Prop :=
  s.holds t = [] ∧ s.theSocketContext ≠ none ∧
    (next = .leave → s.exiting = true ∨ WorkerFault t s)

lemma fact_freed (next : Turn) : Fact t (Freed t next) := by
  rintro s s' - hO hR ⟨hholds, hthe, hleave⟩
  refine ⟨hR.holds.trans hholds, ?_, fun hn => (hleave hn).imp hO.exiting
    (lasting_workerFault s s' hO)⟩
  obtain ⟨l, hl⟩ := Option.ne_none_iff_exists'.mp hthe
  rw [hR.the l hl]
  nofun

lemma atomic_finish (ht : ∃ i, t = .worker i) (next : Turn) :
    (contract u).Atomic (machine .server) t (fun s => ∃ fs l, At t fs (Turned t l next) s) .finish
      fun _ => At t [] (Freed t next) := by
  refine atomic (fun _ => stable_at (fact_freed next)) ?_ ?_
  · rintro s - ⟨fs, l, h⟩
    refine ⟨fun d hd => h.fact.done.elim .inl fun ho => letGo_of_over ho d hd, ?_⟩
    rintro rfl
    obtain ⟨i, hi⟩ := ht
    cases hi
  · rintro s o r s' - - ⟨fs, l, h⟩ he
    cases o <;> cases he
    have hthe : s.theSocketContext ≠ none := by
      rw [h.fact.the]
      nofun
    exact ⟨Function.update_self _ _ _, Function.update_self _ _ _, ⟨hthe, h.fact.leaves⟩⟩

lemma stable_idle : (contract u).Stable t ((contract u).Idle t) := by
  rintro s s' - - hR ⟨⟨hstack, hholds⟩, hleave⟩
  refine ⟨⟨hR.stack.trans hstack, hR.toRespects.holds.trans hholds⟩, fun i hi ht => ?_⟩
  exact (hleave i hi ht).imp hR.exiting (lasting_workerFault s s' hR.toOnward)

lemma safe_workerThread (ht : ∃ i, t = .worker i) :
    (contract u).Safe (machine .server) t (workerThread handlerPort) (Empty t)
      ((contract u).Exit t) := by
  refine Contract.Safe.step _ (atomic_getQueuedCompletionStatus ht) fun pkt => ?_
  refine Contract.Safe.bind (safe_turn_of_took ht pkt) fun next => ?_
  refine Contract.Safe.step _ (atomic_finish ht next) fun _ => ?_
  cases next with
  | again => exact fun s _ h => ⟨⟨h.stack, h.fact.1⟩, rfl, ht⟩
  | leave =>
      refine Contract.Safe.step (fun _ => (contract u).Idle t) (atomic (fun _ => stable_idle)
        (fun _ _ h => h.fact.2.1) ?_) fun _ _ _ h => h
      intro s o r s' _ _ h he
      cases o <;> cases he
      exact ⟨⟨h.stack, h.fact.1⟩, fun _ _ _ => h.fact.2.2 rfl⟩

end Server

end Alpl.Net
