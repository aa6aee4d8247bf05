import Alpl.Server.NetworkMoves

/-!
# Moves of the network

An operation completes: its bytes go onto the stream of a socket and into the buffer of its
context, and its packet into the queue.  No thread has the context in hand then, so the move
concerns nobody, and the bytes are exactly those that the packet announces.
-/

namespace Alpl.Net

open Interleaving

namespace Server

variable {s s' : State} {t u : Tid} {l c d : ContextPtr} {v : SOCKET} {j k : SockId}
variable {p : ConnectionPtr}

/-- The packet of a completed operation whose socket completes with its own context as the key. -/
def packetOf (op : PendingOp) (ok : Bool) (n : ℕ) : Packet :=
  ⟨ok, n, some op.overlapped, some op.overlapped⟩

/-- The state after `op` has completed with these bytes on the object `j`. -/
def landed (s : State) (op : PendingOp) (j : SockId) (ok : Bool) (bytes : List UInt8) : State :=
  State.fill { s with
      pending := s.pending.erase op
      queue := Function.update s.queue s.workersPort (s.queue s.workersPort ++
        [packetOf op ok bytes.length]) } j op.overlapped bytes

/-- The object that an operation fills. -/
def Fills (op : PendingOp) (j : SockId) : Prop :=
  op.kind = .accept j ∨ op.kind = .recv ∧ j = op.sock

/-! ## What a completion leaves alone -/

section Landed

variable {op : PendingOp} {ok : Bool} {bytes : List UInt8}

lemma landed_contexts (h : d ≠ op.overlapped) :
    (landed s op j ok bytes).contexts d = s.contexts d :=
  Function.update_of_ne h _ _

lemma landed_contexts_self : (landed s op j ok bytes).contexts op.overlapped =
    (s.contexts op.overlapped).map fun x =>
      { x with ioContext.buffer := overwrite x.ioContext.buffer bytes } :=
  Function.update_self _ _ _

/-- A context and its value after a completion differ in the buffer only. -/
structure SameButBuffer (x y : SocketContext) : Prop where
  socket : y.socket = x.socket
  lastOperation : y.ioContext.lastOperation = x.ioContext.lastOperation
  socketAccept : y.ioContext.socketAccept = x.ioContext.socketAccept

lemma landed_context (op : PendingOp) (j : SockId) (ok : Bool) (bytes : List UInt8)
    {x : SocketContext} (hx : s.contexts d = some x) :
    ∃ y, (landed s op j ok bytes).contexts d = some y ∧ SameButBuffer x y := by
  by_cases hd : d = op.overlapped
  · subst hd
    rw [landed_contexts_self, hx]
    exact ⟨_, rfl, rfl, rfl, rfl⟩
  · exact ⟨x, (landed_contexts hd).trans hx, rfl, rfl, rfl⟩

lemma context_of_landed {y : SocketContext}
    (hy : (landed s op j ok bytes).contexts d = some y) :
    ∃ x, s.contexts d = some x ∧ SameButBuffer x y := by
  cases hx : s.contexts d with
  | none =>
      by_cases hd : d = op.overlapped
      · subst hd
        rw [landed_contexts_self, hx] at hy
        cases hy
      · rw [landed_contexts hd, hx] at hy
        cases hy
  | some x =>
      obtain ⟨y', hy', h⟩ := landed_context op j ok bytes hx
      obtain rfl := Option.some.inj (hy.symm.trans hy')
      exact ⟨x, rfl, h⟩

lemma landed_sockets (h : k ≠ j) : (landed s op j ok bytes).sockets k = s.sockets k :=
  Function.update_of_ne h _ _

lemma landed_sockets_self : (landed s op j ok bytes).sockets j =
    { s.sockets j with stream := (s.sockets j).stream ++ bytes } :=
  Function.update_self _ _ _

lemma landed_stream :
    ((landed s op j ok bytes).sockets j).stream = (s.sockets j).stream ++ bytes := by
  rw [landed_sockets_self]

lemma landed_assoc (s : State) (op : PendingOp) (j : SockId) (ok : Bool) (bytes : List UInt8)
    (k : SockId) :
    ((landed s op j ok bytes).sockets k).assoc = (s.sockets k).assoc := by
  by_cases hk : k = j
  · rw [hk, landed_sockets_self]
  · rw [landed_sockets hk]

lemma landed_listening (k : SockId) :
    ((landed s op j ok bytes).sockets k).listening = (s.sockets k).listening := by
  by_cases hk : k = j
  · rw [hk, landed_sockets_self]
  · rw [landed_sockets hk]

lemma landed_queue : (landed s op j ok bytes).queue s.workersPort = s.queue s.workersPort ++
    [packetOf op ok bytes.length] :=
  Function.update_self _ _ _

lemma outstanding_landed (j : SockId) (ok : Bool) (bytes : List UInt8) (hop : op ∈ s.pending)
    (d : ContextPtr) :
    (landed s op j ok bytes).outstanding d = s.outstanding d := by
  have hcount : s.pending.countP (fun op => op.overlapped = d) =
      (s.pending.erase op).countP (fun op => op.overlapped = d) +
        if op.overlapped = d then 1 else 0 := by
    rw [(List.perm_cons_erase hop).countP_eq, List.countP_cons]
    congr 1
    by_cases hd : op.overlapped = d <;> simp [hd]
  have h : (landed s op j ok bytes).outstanding d =
      (s.pending.erase op).countP (fun op => op.overlapped = d) +
        ((s.queue s.workersPort).countP (fun pkt => pkt.overlapped = some d) +
          if op.overlapped = d then 1 else 0) := by
    refine (congrArg (fun q : List Packet =>
      (s.pending.erase op).countP (fun op => op.overlapped = d) +
        q.countP (fun pkt : Packet => decide (pkt.overlapped = some d))) landed_queue).trans ?_
    rw [List.countP_append, List.countP_singleton]
    by_cases hd : op.overlapped = d <;> simp [packetOf, hd]
  rw [h, State.outstanding, hcount]
  omega

lemma landed_key : KeyOf (landed s op j ok bytes) k d ↔ KeyOf s k d := by
  rw [KeyOf, KeyOf, landed_assoc]

lemma landed_registered (h : Registered s d v k p) :
    Registered (landed s op j ok bytes) d v k p := by
  obtain ⟨⟨⟨x, hx, hv, ha⟩, hl, ho, hk⟩, hrest⟩ := h
  obtain ⟨y, hy, hsame⟩ := landed_context op j ok bytes hx
  exact ⟨⟨⟨y, hy, hsame.socket.trans hv, hsame.socketAccept.trans ha⟩, hl, ho,
    (landed_assoc s op j ok bytes k).trans hk⟩, hrest⟩

lemma landed_acceptReady : AcceptReady (landed s op j ok bytes) l k ↔ AcceptReady s l k := by
  refine and_congr ⟨?_, ?_⟩ (by rw [landed_assoc])
  · rintro ⟨y, hy, hk, hne⟩
    obtain ⟨x, hx, hsame⟩ := context_of_landed hy
    rw [hsame.socketAccept] at hk hne
    exact ⟨x, hx, hk, hsame.socket ▸ hne⟩
  · rintro ⟨x, hx, hk, hne⟩
    obtain ⟨y, hy, hsame⟩ := landed_context op j ok bytes hx
    refine ⟨y, hy, ?_, ?_⟩ <;> rw [hsame.socketAccept]
    · exact hk
    · rw [hsame.socket]
      exact hne

lemma landed_listenSock (h : ListenSock s l) : ListenSock (landed s op j ok bytes) l := by
  obtain ⟨x, hx, hs⟩ := h
  obtain ⟨y, hy, hsame⟩ := landed_context op j ok bytes hx
  refine ⟨y, hy, ?_⟩
  rw [hsame.socket]
  exact hs.imp_right fun ⟨k, hk, hkey⟩ => ⟨k, hk, landed_key.mpr hkey⟩

end Landed

lemma take_overwrite (buffer bytes : List UInt8) :
    (overwrite buffer bytes).take bytes.length = bytes := by
  rw [overwrite, List.take_left]

/-- Two sockets cannot both be the one to accept into. -/
lemma AcceptReady.eq {i : SockId} (h : AcceptReady s l k) (h' : AcceptReady s l i) : k = i := by
  obtain ⟨⟨x, hx, hk, -⟩, -⟩ := h
  obtain ⟨⟨y, hy, hi, -⟩, -⟩ := h'
  rw [hx] at hy
  cases hy
  exact Option.some.inj (hk.symm.trans hi)

/-! ## A completion keeps the invariant -/

section Landing

variable {op : PendingOp} {ok : Bool} {bytes : List UInt8}

/-- The object that is filled is the one that is accepted into, or the context's own. -/
lemma fills_cases (hI : Inv s) (hop : op ∈ s.pending) (hj : Fills op j)
    (hl : s.theSocketContext = some l) :
    (op.overlapped = l ∧ AcceptReady s l j ∧ (s.sockets j).stream = []) ∨
      op.overlapped ≠ l ∧ (s.sockets j).assoc = some (s.workersPort, op.overlapped) := by
  by_cases hc : op.overlapped = l
  · obtain ⟨k, hk, hkind, hstream⟩ := hI.acceptOp l op hop hl hc
    rcases hj with hj | ⟨hj, -⟩
    · rw [hkind] at hj
      cases hj
      exact .inl ⟨hc, hk, hstream⟩
    · rw [hkind] at hj
      cases hj
  · have hkind := hI.clientOp l op hop hl hc
    rcases hj with hj | ⟨-, rfl⟩
    · rw [hkind] at hj
      cases hj
    · exact .inr ⟨hc, hI.opKey op hop⟩

/-- The object that is filled belongs to no other context. -/
lemma key_of_fills (hI : Inv s) (hop : op ∈ s.pending) (hj : Fills op j)
    (hl : s.theSocketContext = some l) (hk : KeyOf s j d) :
    d = op.overlapped ∧ op.overlapped ≠ l := by
  rcases fills_cases hI hop hj hl with ⟨-, ⟨-, hnone⟩, -⟩ | ⟨hne, hassoc⟩
  · obtain ⟨q, hq⟩ := hk
    exact nomatch hnone.symm.trans hq
  · exact ⟨hk.context_eq ⟨_, hassoc⟩, hne⟩

/-- A context with an operation in flight has no packet, and no second operation. -/
lemma no_packet_of_op (hI : Inv s) (hop : op ∈ s.pending) {pkt : Packet}
    (hpkt : pkt ∈ s.queue s.workersPort) : pkt.overlapped ≠ some op.overlapped := by
  intro h
  have hle := hI.atMostOne op.overlapped
  have h₁ : 0 < s.pending.countP (fun o => o.overlapped = op.overlapped) :=
    List.countP_pos_iff.mpr ⟨op, hop, decide_eq_true rfl⟩
  have h₂ : 0 < (s.queue s.workersPort).countP (fun o => o.overlapped = some op.overlapped) :=
    List.countP_pos_iff.mpr ⟨pkt, hpkt, decide_eq_true h⟩
  rw [State.outstanding] at hle
  omega

lemma no_second_op (hI : Inv s) (hop : op ∈ s.pending) {o : PendingOp}
    (ho : o ∈ s.pending.erase op) : o.overlapped ≠ op.overlapped := by
  intro h
  have hle := hI.atMostOne op.overlapped
  have h₁ : 0 < (s.pending.erase op).countP (fun o => o.overlapped = op.overlapped) :=
    List.countP_pos_iff.mpr ⟨o, ho, decide_eq_true h⟩
  rw [State.outstanding, (List.perm_cons_erase hop).countP_eq, List.countP_cons,
    if_pos (decide_eq_true rfl)] at hle
  omega

lemma packetBytes_landed {pkt : Packet} (h : pkt.overlapped ≠ some op.overlapped) :
    packetBytes (landed s op j ok bytes) pkt = packetBytes s pkt :=
  packetBytes_congr fun d hd => landed_contexts (by
    rintro rfl
    exact h hd)

/-- The packet of a completion announces exactly its bytes. -/
lemma packetBytes_new (hlive : Live s op.overlapped) : packetBytes (landed s op j ok bytes)
    (packetOf op ok bytes.length) = bytes := by
  obtain ⟨x, hx⟩ := hlive
  simp only [packetBytes, packetOf, landed_contexts_self, hx, Option.map_some]
  exact take_overwrite x.ioContext.buffer bytes

lemma queuedBytes_landed (hd : d ≠ op.overlapped) :
    queuedBytes (landed s op j ok bytes) d = queuedBytes s d := by
  have h : queuedBytes (landed s op j ok bytes) d =
      ((s.queue s.workersPort ++ [packetOf op ok bytes.length]).filter
        fun pkt : Packet => decide (pkt.overlapped = some d)).flatMap
          (packetBytes (landed s op j ok bytes)) :=
    congrArg (fun q : List Packet => (q.filter fun pkt : Packet =>
      decide (pkt.overlapped = some d)).flatMap (packetBytes (landed s op j ok bytes))) landed_queue
  have hlast : [packetOf op ok bytes.length].filter
      (fun pkt : Packet => decide (pkt.overlapped = some d)) = [] := by
    simp [packetOf, Ne.symm hd]
  rw [h, List.filter_append, hlast, List.append_nil, queuedBytes]
  refine List.flatMap_congr fun pkt hpkt => packetBytes_landed fun ho => hd ?_
  exact Option.some.inj ((of_decide_eq_true (List.mem_filter.mp hpkt).2).symm.trans ho)

/-- The bytes of a completion are the ones that are queued for its context. -/
lemma queuedBytes_landed_self (j : SockId) (ok : Bool) (bytes : List UInt8) (hI : Inv s)
    (hop : op ∈ s.pending) (hlive : Live s op.overlapped) :
    queuedBytes (landed s op j ok bytes) op.overlapped = bytes ∧
      queuedBytes s op.overlapped = [] := by
  have hnone : (s.queue s.workersPort).filter
      (fun pkt : Packet => decide (pkt.overlapped = some op.overlapped)) = [] :=
    List.filter_eq_nil_iff.mpr fun pkt hpkt h =>
      no_packet_of_op hI hop hpkt (of_decide_eq_true h)
  have h : queuedBytes (landed s op j ok bytes) op.overlapped =
      ((s.queue s.workersPort ++ [packetOf op ok bytes.length]).filter
        fun pkt : Packet => decide (pkt.overlapped = some op.overlapped)).flatMap
          (packetBytes (landed s op j ok bytes)) :=
    congrArg (fun q : List Packet => (q.filter fun pkt : Packet =>
      decide (pkt.overlapped = some op.overlapped)).flatMap
        (packetBytes (landed s op j ok bytes))) landed_queue
  constructor
  · rw [h, List.filter_append, hnone, List.nil_append]
    have hnew : [packetOf op ok bytes.length].filter
        (fun pkt : Packet => decide (pkt.overlapped = some op.overlapped)) =
          [packetOf op ok bytes.length] := by
      simp [packetOf]
    rw [hnew, List.flatMap_singleton, packetBytes_new hlive]
  · rw [queuedBytes, hnone]
    rfl

lemma Inv.land (hI : Inv s) (hop : op ∈ s.pending) (hj : Fills op j)
    (hok : ok = false → bytes = []) : Inv (landed s op j ok bytes) := by
  obtain ⟨l, hl⟩ : ∃ l, s.theSocketContext = some l := by
    cases h : s.theSocketContext with
    | none => exact absurd ((hI.idle h).1 ▸ hop) List.not_mem_nil
    | some l => exact ⟨l, rfl⟩
  have hthe : ∀ {l'}, s.theSocketContext = some l' → l' = l := fun h =>
    Option.some.inj (h.symm.trans hl)
  have hlive : Live s op.overlapped := by
    by_contra h
    exact outstanding_of_op hop rfl (hI.outstanding_of_not_live h)
  have hunassoc : ∀ {k}, AcceptReady s l k → op.overlapped ≠ l →
      (landed s op j ok bytes).sockets k = s.sockets k := by
    intro k hk hne
    refine landed_sockets ?_
    rintro rfl
    rcases fills_cases hI hop hj hl with ⟨h, -⟩ | ⟨-, h⟩
    · exact hne h
    · exact nomatch hk.2.symm.trans h
  have hout := fun d => outstanding_landed j ok bytes hop d
  have hqueue : ∀ {o}, o ∈ (landed s op j ok bytes).queue s.workersPort →
      o ∈ s.queue s.workersPort ∨
        o = packetOf op ok bytes.length := by
    intro o ho
    rw [landed_queue] at ho
    exact (List.mem_append.mp ho).imp_right List.mem_singleton.mp
  exact { hI with
    freshContext := fun d hd => by
      cases hy : (landed s op j ok bytes).contexts d with
      | none => rfl
      | some y =>
          obtain ⟨x, hx, -⟩ := context_of_landed hy
          rw [hI.freshContext d hd] at hx
          cases hx
    freshSocket := fun i hi => by
      refine (landed_sockets ?_).trans (hI.freshSocket i hi)
      rintro rfl
      rcases fills_cases hI hop hj hl with ⟨-, ⟨⟨x, -, h, -⟩, -⟩, -⟩ | ⟨-, h⟩
      · exact Nat.lt_irrefl _ (Nat.lt_of_lt_of_le (hI.freshHandle _ _ h) hi)
      · rw [hI.freshSocket i hi] at h
        cases h
    freshKey := fun i d hi => hI.freshKey i d (landed_key.mp hi)
    keyUnique := fun i i' d hi hi' => hI.keyUnique i i' d (landed_key.mp hi) (landed_key.mp hi')
    live := fun u d hd => by
      obtain ⟨x, hx⟩ := hI.live u d hd
      exact (landed_context op j ok bytes hx).imp fun _ h => h.1
    quiet := fun u d hd => (hout d).trans (hI.quiet u d hd)
    atMostOne := fun d => by
      rw [hout]
      exact hI.atMostOne d
    placed := fun l' d he hl' ⟨y, hy⟩ hdl => by
      rw [hout]
      obtain ⟨x, hx, -⟩ := context_of_landed hy
      exact hI.placed l' d he hl' ⟨x, hx⟩ hdl
    opKey := fun o ho =>
      (landed_assoc s op j ok bytes o.sock).trans (hI.opKey o (List.mem_of_mem_erase ho))
    packet := fun o ho => by
      rcases hqueue ho with ho | rfl
      · exact hI.packet o ho
      · exact .inr ⟨⟨op.overlapped, rfl, rfl⟩, fun h => by rw [hok h]; rfl⟩
    acceptOut := fun l' hl' ho => by
      obtain ⟨hport, k, hk⟩ := hI.acceptOut l' hl' (hout l' ▸ ho)
      exact ⟨hport, k, landed_acceptReady.mpr hk⟩
    acceptOp := fun l' o ho hl' hol => by
      obtain rfl := hthe hl'
      obtain ⟨k, hk, hkind, hstream⟩ := hI.acceptOp l' o (List.mem_of_mem_erase ho) hl hol
      refine ⟨k, landed_acceptReady.mpr hk, hkind, ?_⟩
      rw [hunassoc hk fun h => no_second_op hI hop ho (hol.trans h.symm)]
      exact hstream
    acceptPacket := fun l' k o ho hl' hol hk => by
      obtain rfl := hthe hl'
      have hk' := landed_acceptReady.mp hk
      rcases hqueue ho with ho | rfl
      · have hne := no_packet_of_op hI hop ho
        rw [hol] at hne
        rw [hunassoc hk' fun h => hne (congrArg some h.symm), packetBytes_landed (hol ▸ hne)]
        exact hI.acceptPacket l' k o ho hl hol hk'
      · rw [packetBytes_new hlive]
        rcases fills_cases hI hop hj hl with ⟨-, hready, hnil⟩ | ⟨hne, -⟩
        · obtain rfl := hk'.eq hready
          rw [landed_stream, hnil]
          rfl
        · exact absurd (Option.some.inj hol) hne
    clientOut := fun l' d hl' hdl ho => by
      obtain ⟨hd, ⟨x, hx, hrecv⟩, v, k, p, hr⟩ := hI.clientOut l' d hl' hdl (hout d ▸ ho)
      obtain ⟨y, hy, hsame⟩ := landed_context op j ok bytes hx
      exact ⟨hd, ⟨y, hy, hsame.lastOperation.trans hrecv⟩, v, k, p, landed_registered hr⟩
    clientOp := fun l' o ho => hI.clientOp l' o (List.mem_of_mem_erase ho)
    theLive := fun l' hl' => by
      obtain ⟨x, hx⟩ := hI.theLive l' hl'
      exact (landed_context op j ok bytes hx).imp fun _ h => h.1
    kind := fun l' d y hl' hy => by
      obtain ⟨x, hx, hsame⟩ := context_of_landed hy
      rw [hsame.lastOperation]
      exact hI.kind l' d x hl' hx
    listenSock := fun l' hl' => (hI.listenSock l' hl').imp_left landed_listenSock
    listener := fun l' k hl' hk =>
      (landed_assoc s op j ok bytes k).trans
        (hI.listener l' k hl' ((landed_listening k).symm.trans hk))
    otherSocket := fun l' x d y hl' hx hy hdl hv => by
      obtain ⟨x', hx', hsame⟩ := context_of_landed hx
      obtain ⟨y', hy', hsame'⟩ := context_of_landed hy
      rw [hsame'.socket] at hv ⊢
      rw [hsame.socket]
      exact hI.otherSocket l' x' d y' hl' hx' hy' hdl hv
    idle := fun h0 => nomatch h0.symm.trans hl
    mapped := fun w o hw => by
      obtain ⟨d, k, p, ho, hr⟩ := hI.mapped w o hw
      exact ⟨d, k, p, ho, landed_registered hr⟩
    socketOf := fun w k q d hw hk => by
      obtain ⟨hq, x, hx, hs⟩ :=
        hI.socketOf w k q d hw ((landed_assoc s op j ok bytes k).symm.trans hk)
      obtain ⟨y, hy, hsame⟩ := landed_context op j ok bytes hx
      exact ⟨hq, y, hy, hsame.socket.trans hs⟩
    inOrder := fun q d i hq hi => by
      have h := hI.inOrder q d i hq (landed_key.mp hi)
      by_cases hij : i = j
      · rw [hij, landed_stream]
        exact (hij ▸ h).trans (List.prefix_append _ _)
      · rw [landed_sockets hij]
        exact h
    complete := fun q d hd he hq hnot i hi => by
      have hi' := landed_key.mp hi
      have h : s.delivered q ++ queuedBytes s d = (s.sockets i).stream :=
        hI.complete q d hd he hq hnot i hi'
      show s.delivered q ++ _ = _
      by_cases hdc : d = op.overlapped
      · subst hdc
        obtain ⟨hnew, hold⟩ := queuedBytes_landed_self j ok bytes hI hop hlive
        rcases fills_cases hI hop hj hl with ⟨h', -⟩ | ⟨-, hassoc⟩
        · exact absurd (h' ▸ hl) (hI.ne_the hq)
        · obtain rfl := hI.keyUnique i j _ hi' ⟨_, hassoc⟩
          rw [hold, List.append_nil] at h
          rw [hnew, landed_stream, h]
      · have hij : i ≠ j := by
          rintro rfl
          exact hdc (key_of_fills hI hop hj hl hi').1
        rw [queuedBytes_landed hdc, landed_sockets hij]
        exact h
    receiveFrame := fun u d hf hd hn => by
      obtain ⟨v, k, p, hr⟩ := hI.receiveFrame u d hf hd hn
      exact ⟨v, k, p, landed_registered hr⟩
    armed := fun l' hl' he hn => by
      rw [hout]
      exact hI.armed l' hl' he hn }

lemma Move.land (ok : Bool) (bytes : List UInt8) (hI : Inv s) (hop : op ∈ s.pending)
    (hj : Fills op j) (hok : ok = false → bytes = []) : Move none s (landed s op j ok bytes) := by
  refine ⟨hI.land hop hj hok, fun u _ => ?_, fun d w k q hr _ => landed_registered hr⟩
  have hthe : s.theSocketContext ≠ none := fun h => List.not_mem_nil ((hI.idle h).1 ▸ hop)
  obtain ⟨l, hl⟩ := Option.ne_none_iff_exists'.mp hthe
  have hheld : ∀ {d}, d ∈ s.holds u → d ≠ op.overlapped := by
    rintro d hd rfl
    exact outstanding_of_op hop rfl (hI.quiet u _ hd)
  exact { Respects.refl u s with
    alone := fun _ h0 => absurd h0 hthe
    theContext := fun l' x _ hx =>
      (landed_context op j ok bytes hx).imp fun _ h => ⟨h.1, .inl h.2.socket⟩
    theSocket := fun _ l' x _ hx =>
      (landed_context op j ok bytes hx).imp fun _ h => ⟨h.1, h.2.socket⟩
    listenSock := fun _ l' _ => landed_listenSock
    closed := fun _ l' _ hs w k hw hk => hs w k hw (landed_key.mp hk)
    kept := fun d hd => { Kept.refl d s with
      context := fun _ => landed_contexts (hheld hd)
      assoc := fun k q => by rw [landed_assoc]
      stream := fun k hk => by
        rw [landed_sockets]
        rintro rfl
        exact hheld hd (key_of_fills hI hop hj hl hk).1 }
    listener := fun l' hl' hc => { KeptListener.refl u l' s with
      ioContext := fun x hx => ⟨x, (landed_contexts (hheld hc)).trans hx, rfl⟩
      unassociated := fun w k hw hk => by
        refine ⟨hw, landed_sockets ?_⟩
        rintro rfl
        obtain rfl := Option.some.inj (hl.symm.trans hl')
        rcases fills_cases hI hop hj hl with ⟨h, -⟩ | ⟨-, h⟩
        · exact hheld hc h.symm
        · exact nomatch hk.symm.trans h } }

end Landing

/-! ## The moves of the network are completions -/

lemma fill_nil (s : State) (k : SockId) (c : ContextPtr) : s.fill k c [] = s := by
  have hs : Function.update s.sockets k
      { s.sockets k with stream := (s.sockets k).stream ++ [] } = s.sockets := by
    rw [List.append_nil]
    exact Function.update_eq_self k s.sockets
  have hc : Function.update s.contexts c ((s.contexts c).map fun x =>
      { x with ioContext.buffer := overwrite x.ioContext.buffer [] }) = s.contexts := by
    have hid : ((s.contexts c).map fun x : SocketContext =>
        { x with ioContext.buffer := overwrite x.ioContext.buffer [] }) = s.contexts c := by
      cases s.contexts c <;> rfl
    rw [hid]
    exact Function.update_eq_self c s.contexts
  rw [State.fill, hs, hc]

lemma exists_fills (hI : Inv s) {op : PendingOp} (hop : op ∈ s.pending) : ∃ j, Fills op j := by
  have hthe : s.theSocketContext ≠ none := fun h => List.not_mem_nil ((hI.idle h).1 ▸ hop)
  obtain ⟨l, hl⟩ := Option.ne_none_iff_exists'.mp hthe
  by_cases hc : op.overlapped = l
  · obtain ⟨k, -, hkind, -⟩ := hI.acceptOp l op hop hl hc
    exact ⟨k, .inl hkind⟩
  · exact ⟨op.sock, .inr ⟨hI.clientOp l op hop hl hc, rfl⟩⟩

lemma receiveData_eq {op : PendingOp} (hj : Fills op j) (s : State) (bytes : List UInt8) :
    s.receiveData op bytes = s.fill j op.overlapped bytes := by
  rcases hj with hj | ⟨hj, rfl⟩ <;> rw [State.receiveData, hj]

lemma postPacket_eq {op : PendingOp} {ok : Bool} {n : ℕ}
    (h : (s.sockets op.sock).assoc = some (s.workersPort, op.overlapped)) :
    s.postPacket op ok n = { s with
      queue := Function.update s.queue s.workersPort (s.queue s.workersPort ++
        [packetOf op ok n]) } := by
  rw [State.postPacket, h]
  rfl

/-- Every move of the network completes an operation. -/
lemma Move.osStep (hI : Inv s) {e : OsEvent} (he : osStep e s = some s') : Move none s s' := by
  obtain ⟨op, bytes, rfl, hop, -, rfl⟩ | ⟨op, rfl, hop, rfl⟩ := osStep_cases he
  · obtain ⟨j, hj⟩ := exists_fills hI hop
    have hkey : ((({ s with pending := s.pending.erase op } : State).fill j op.overlapped
        bytes).sockets op.sock).assoc = some (s.workersPort, op.overlapped) :=
      (landed_assoc s op j true bytes op.sock).trans (hI.opKey op hop)
    rw [receiveData_eq hj, postPacket_eq hkey]
    exact .land true bytes hI hop hj Bool.noConfusion
  · obtain ⟨j, hj⟩ := exists_fills hI hop
    rw [postPacket_eq (s := { s with pending := s.pending.erase op }) (hI.opKey op hop)]
    have hland := Move.land false [] hI hop hj fun _ => rfl
    rwa [landed, fill_nil] at hland

end Server

end Alpl.Net
