import Alpl.Server.KernelMoves

/-!
# Moves that hand a context over

A context changes hands three times: the thread that posts an operation gives it to the network,
the completion turns the operation into a packet, and the worker that dequeues the packet has it
in hand again.  `State.outstanding` counts the operations and packets together, so the completion
does not change it.  A turn of the loop ends with nothing in hand, which needs a reason for every
context that was not handed over.
-/

namespace Alpl.Net

open Interleaving

namespace Server

variable {s s' : State} {t u : Tid} {l c d : ContextPtr} {v : SOCKET} {k : SockId}
variable {p : ConnectionPtr}

/-! ## Posting an operation -/

/-- The state after an operation was posted. -/
def posted (s : State) (t : Tid) (op : PendingOp) : State :=
  { s with pending := op :: s.pending }.setHolds t ((s.holds t).erase op.overlapped)

lemma outstanding_posted (s : State) (t : Tid) (op : PendingOp) (d : ContextPtr) :
    (posted s t op).outstanding d = s.outstanding d + if op.overlapped = d then 1 else 0 := by
  have h : (posted s t op).outstanding d =
      (op :: s.pending).countP (fun op => op.overlapped = d) +
        (s.queue s.workersPort).countP (fun pkt => pkt.overlapped = some d) := rfl
  rw [h, List.countP_cons, State.outstanding]
  by_cases hd : op.overlapped = d
  · simp only [hd, decide_true, if_pos]
    omega
  · simp only [hd, decide_false, if_neg, Bool.false_eq_true, not_false_eq_true]
    omega

lemma outstanding_posted_of_ne {op : PendingOp} (h : d ≠ op.overlapped) :
    (posted s t op).outstanding d = s.outstanding d := by
  rw [outstanding_posted, if_neg h.symm, Nat.add_zero]

/-- What both kinds of operations have in common: whoever posts has the context in hand, and knows
that the socket completes under it. -/
structure Posts (s : State) (t : Tid) (op : PendingOp) : Prop where
  held : op.overlapped ∈ s.holds t
  running : s.theSocketContext ≠ none
  key : (s.sockets op.sock).assoc = some (s.workersPort, op.overlapped)
  accept : s.theSocketContext = some op.overlapped → s.iocpHandle = some s.workersPort ∧
    ∃ k, AcceptReady s op.overlapped k ∧ op.kind = .accept k ∧ (s.sockets k).stream = []
  client : s.theSocketContext ≠ some op.overlapped → op.kind = .recv ∧
    disconnects s op.overlapped = 0 ∧ Drained s op.overlapped ∧ OutsideData t s ∧
    (∃ x, s.contexts op.overlapped = some x ∧ x.ioContext.lastOperation = .ioReceive) ∧
    ∃ v k p, Registered s op.overlapped v k p

lemma Inv.post (hI : Inv s) {op : PendingOp} (h : Posts s t op) : Inv (posted s t op) := by
  have hquiet := hI.quiet t op.overlapped h.held
  have hout : ∀ {d}, d ≠ op.overlapped → (posted s t op).outstanding d = s.outstanding d :=
    fun hd => outstanding_posted_of_ne hd
  have hself : (posted s t op).outstanding op.overlapped = 1 := by
    rw [outstanding_posted, if_pos rfl, hquiet]
  have hmem : ∀ {u d}, d ∈ (posted s t op).holds u ↔ d ∈ s.holds u ∧ d ≠ op.overlapped :=
    mem_erase_holds hI h.held
  exact { hI with
    live := fun u d hd => hI.live u d (hmem.mp hd).1
    single := fun u w d hu hw => hI.single u w d (hmem.mp hu).1 (hmem.mp hw).1
    nodup := nodup_erase_holds (s := s) (c := op.overlapped) hI
    quiet := fun u d hd => (hout (hmem.mp hd).2).trans (hI.quiet u d (hmem.mp hd).1)
    atMostOne := fun d => by
      by_cases hd : d = op.overlapped
      · exact Nat.le_of_eq (hd ▸ hself)
      · rw [hout hd]
        exact hI.atMostOne d
    worker := fun l u d hd => hI.worker l u d (hmem.mp hd).1
    placed := fun l d he hl hd hdl => by
      by_cases hdc : d = op.overlapped
      · exact .inr (.inl (hdc ▸ hself))
      · rw [hout hdc]
        exact (hI.placed l d he hl hd hdl).imp_left fun ⟨u, hu⟩ => ⟨u, hmem.mpr ⟨hu, hdc⟩⟩
    opKey := fun o ho => by
      rcases List.mem_cons.mp ho with rfl | ho
      · exact h.key
      · exact hI.opKey o ho
    acceptOut := fun l hl ho => by
      by_cases hlc : l = op.overlapped
      · subst hlc
        obtain ⟨hport, k, hk, -⟩ := h.accept hl
        exact ⟨hport, k, hk⟩
      · exact hI.acceptOut l hl (hout hlc ▸ ho)
    acceptOp := fun l o ho hl hol => by
      rcases List.mem_cons.mp ho with rfl | ho
      · subst hol
        exact (h.accept hl).2
      · exact hI.acceptOp l o ho hl hol
    clientOut := fun l d hl hdl ho => by
      by_cases hdc : d = op.overlapped
      · subst hdc
        obtain ⟨-, hd, -, -, hrest⟩ := h.client fun h => hdl (Option.some.inj (h.symm.trans hl))
        exact ⟨hd, hrest⟩
      · exact hI.clientOut l d hl hdl (hout hdc ▸ ho)
    clientOp := fun l o ho hl hol => by
      rcases List.mem_cons.mp ho with rfl | ho
      · exact (h.client fun h => hol (Option.some.inj (h.symm.trans hl))).1
      · exact hI.clientOp l o ho hl hol
    idle := fun h0 => absurd h0 h.running
    complete := fun q d hd he hq hnot => by
      by_cases hdc : d = op.overlapped
      · subst hdc
        rw [show queuedBytes (posted s t op) op.overlapped = [] from
          queuedBytes_of_quiet (s := s) hquiet]
        exact (h.client (hI.ne_the hq)).2.2.1 q hd hq
      · exact hI.complete q d hd he hq fun u hu => hnot u (hmem.mpr ⟨hu, hdc⟩)
    callbackFrame := fun u q hq => by
      obtain ⟨d, hd, hm⟩ := hI.callbackFrame u q hq
      refine ⟨d, hmem.mpr ⟨hd, ?_⟩, hm⟩
      rintro rfl
      obtain rfl := hI.single u t _ hd h.held
      exact (h.client (hI.ne_the hm)).2.2.2.1 _ hq
    receiveFrame := fun u d hf hd => hI.receiveFrame u d hf (hmem.mp hd).1
    acceptFrame := fun u l hl hd => hI.acceptFrame u l hl (hmem.mp hd).1
    armed := fun l hl he hn => by
      by_cases hlc : l = op.overlapped
      · exact .inr (hlc ▸ hself)
      · rw [hout hlc]
        exact (hI.armed l hl he hn).imp_left fun ⟨u, hu⟩ => ⟨u, hmem.mpr ⟨hu, hlc⟩⟩ }

lemma Move.post (hI : Inv s) {op : PendingOp} (h : Posts s t op) :
    Move (some t) s (posted s t op) := by
  refine ⟨hI.post h, fun u hu => ?_, fun d w j q hr _ => hr⟩
  have hut : u ≠ t := fun h => hu (congrArg some h.symm)
  exact { Respects.refl u s with
    alone := fun _ h0 => absurd h0 h.running
    holds := Function.update_of_ne hut _ _
    kept := fun d _ => { Kept.refl d s with }
    listener := fun l _ _ => { KeptListener.refl u l s with } }

/-- `AcceptEx` on an open listening socket. -/
lemma Posts.acceptEx (hI : Inv s) {ls : SOCKET} {len : ℕ} {kl ka : SockId}
    (hA : Allowed t (.acceptEx ls v c len) s) (hl : s.handles ls = some kl)
    (ha : s.handles v = some ka) (hlisten : (s.sockets kl).listening = true) :
    Posts s t ⟨.accept ka, kl, c, len⟩ := by
  obtain ⟨hthe, hc, hport, ⟨x, hx, hls, rfl⟩, hready⟩ := hA
  obtain ⟨hassoc, hstream⟩ := hready ka ha
  have hkey := hI.listener c kl hthe hlisten
  refine ⟨hc, hthe ▸ nofun, hkey, fun _ => ⟨hport, ka, ⟨⟨x, hx, ha, ?_⟩, hassoc⟩, rfl, hstream⟩,
    fun h => absurd hthe h⟩
  rintro he
  rcases hls with rfl | hinvalid
  · rw [he, hl] at ha
    cases ha
    exact nomatch hassoc.symm.trans hkey
  · rw [he, hinvalid, hI.invalid] at ha
    cases ha

/-- `WSARecv` on the open socket of a registered context. -/
lemma Posts.wsaRecv {len : ℕ} (hA : Allowed t (.wsaRecv v c len) s) (hv : s.handles v = some k) :
    Posts s t ⟨.recv, k, c, len⟩ := by
  obtain ⟨⟨hc, l, hl, hcl⟩, hd, hdrained, hout, hx, k', p, hr⟩ := hA
  obtain rfl := Option.some.inj (hv.symm.trans hr.opened)
  refine ⟨hc, hl ▸ nofun, hr.1.2.2.2, fun h => ?_, fun _ => ?_⟩
  · exact absurd (Option.some.inj (h.symm.trans hl)) hcl
  · exact ⟨rfl, hd, hdrained, hout, hx, v, k, p, hr⟩

/-! ## Taking a packet -/

/-- The state after the packet `pkt` was dequeued. -/
def taken (s : State) (t : Tid) (pkt : Packet) (rest : List Packet) : State :=
  { s with queue := Function.update s.queue s.workersPort rest }.setHolds t pkt.key.toList

lemma outstanding_taken {pkt : Packet} {rest : List Packet}
    (hq : s.queue s.workersPort = pkt :: rest) (d : ContextPtr) :
    s.outstanding d = (taken s t pkt rest).outstanding d +
      if pkt.overlapped = some d then 1 else 0 := by
  have hrest : (taken s t pkt rest).queue s.workersPort = rest := Function.update_self _ _ _
  have h : (taken s t pkt rest).outstanding d =
      s.pending.countP (fun op => op.overlapped = d) +
        rest.countP (fun pkt => pkt.overlapped = some d) :=
    congrArg (fun q : List Packet => s.pending.countP (fun op => op.overlapped = d) +
      q.countP (fun pkt => pkt.overlapped = some d)) hrest
  rw [h, State.outstanding, hq, List.countP_cons]
  by_cases hd : pkt.overlapped = some d
  · simp only [hd, decide_true, if_pos]
    omega
  · simp only [hd, decide_false, if_neg, Bool.false_eq_true, not_false_eq_true]
    omega

/-- A worker that has nothing in hand takes a packet; it already stands where the packet sends
it. -/
lemma Inv.take (hI : Inv s) {pkt : Packet} {rest : List Packet}
    (hq : s.queue s.workersPort = pkt :: rest) (hempty : s.holds t = [])
    (ht : ∃ i, t = .worker i) (hstack : ∀ c, .handleReceive c ∉ s.stack t)
    (hframe : ∀ l, s.theSocketContext = some l → pkt.overlapped = some l →
      .completion .ioAccept l ∈ s.stack t) : Inv (taken s t pkt rest) := by
  have hrest : (taken s t pkt rest).queue s.workersPort = rest := Function.update_self _ _ _
  have hsub : ∀ {o}, o ∈ (taken s t pkt rest).queue s.workersPort → o ∈ s.queue s.workersPort := by
    intro o ho
    rw [hrest] at ho
    exact hq ▸ List.mem_cons_of_mem pkt ho
  have hcount := outstanding_taken (t := t) hq
  have hmem : pkt ∈ s.queue s.workersPort := hq ▸ List.mem_cons_self
  have hkey : ∀ {d}, d ∈ pkt.key.toList → pkt.overlapped = some d := by
    intro d hd
    rcases hI.packet pkt hmem with ⟨rfl, -⟩ | ⟨⟨c, hkey, ho⟩, -⟩
    · exact absurd hd List.not_mem_nil
    · rw [hkey] at hd
      rw [ho, List.mem_singleton.mp hd]
  have hover : ∀ {d}, pkt.overlapped = some d → d ∈ pkt.key.toList := by
    intro d hd
    rcases hI.packet pkt hmem with ⟨rfl, -⟩ | ⟨⟨c, hkey, ho⟩, -⟩
    · cases hd
    · rw [ho] at hd
      rw [hkey]
      exact List.mem_singleton.mpr (Option.some.inj hd).symm
  have hold : ∀ {u d}, d ∈ (taken s t pkt rest).holds u →
      (u = t ∧ pkt.overlapped = some d) ∨ (u ≠ t ∧ d ∈ s.holds u) := by
    intro u d hd
    by_cases hu : u = t
    · subst hu
      have hself : (taken s u pkt rest).holds u = pkt.key.toList := Function.update_self _ _ _
      exact .inl ⟨rfl, hkey (hself ▸ hd)⟩
    · have hne : (taken s t pkt rest).holds u = s.holds u := Function.update_of_ne hu _ _
      exact .inr ⟨hu, hne ▸ hd⟩
  have hself : (taken s t pkt rest).holds t = pkt.key.toList := Function.update_self _ _ _
  have hkept : ∀ {u d}, d ∈ s.holds u → d ∈ (taken s t pkt rest).holds u := by
    intro u d hd
    have hu : u ≠ t := by
      rintro rfl
      rw [hempty] at hd
      cases hd
    rwa [show (taken s t pkt rest).holds u = s.holds u from Function.update_of_ne hu _ _]
  have hone : ∀ {d}, pkt.overlapped = some d → s.outstanding d = 1 := fun hd =>
    Nat.le_antisymm (hI.atMostOne _) (Nat.pos_of_ne_zero (outstanding_of_packet hmem hd))
  exact { hI with
    live := fun u d hd => by
      rcases hold hd with ⟨-, ho⟩ | ⟨-, hd⟩
      · by_contra hlive
        exact outstanding_of_packet hmem ho (hI.outstanding_of_not_live hlive)
      · exact hI.live u d hd
    single := fun u w d hu hw => by
      rcases hold hu with ⟨hut, ho⟩ | ⟨-, hu⟩ <;> rcases hold hw with ⟨hwt, ho'⟩ | ⟨-, hw⟩
      · exact hut.trans hwt.symm
      · exact absurd (hI.quiet w d hw) (outstanding_of_packet hmem ho)
      · exact absurd (hI.quiet u d hu) (outstanding_of_packet hmem ho')
      · exact hI.single u w d hu hw
    nodup := fun u => by
      by_cases hu : u = t
      · rw [hu, hself]
        cases pkt.key with
        | none => exact List.nodup_nil
        | some c => exact List.nodup_cons.mpr ⟨List.not_mem_nil, List.nodup_nil⟩
      · rw [show (taken s t pkt rest).holds u = s.holds u from Function.update_of_ne hu _ _]
        exact hI.nodup u
    quiet := fun u d hd => by
      have hc := hcount d
      rcases hold hd with ⟨-, ho⟩ | ⟨-, hd⟩
      · rw [hone ho, if_pos ho] at hc
        omega
      · rw [hI.quiet u d hd] at hc
        omega
    atMostOne := fun d => by
      have hc := hcount d
      have hle := hI.atMostOne d
      omega
    worker := fun l u d hd hl hdl => by
      rcases hold hd with ⟨rfl, -⟩ | ⟨-, hd⟩
      · exact ht
      · exact hI.worker l u d hd hl hdl
    placed := fun l d he hl hd hdl => by
      by_cases ho : pkt.overlapped = some d
      · exact .inl ⟨t, hself ▸ hover ho⟩
      · have hc := hcount d
        rw [if_neg ho, Nat.add_zero] at hc
        rw [← hc]
        exact (hI.placed l d he hl hd hdl).imp_left fun ⟨u, hu⟩ => ⟨u, hkept hu⟩
    packet := fun o ho => hI.packet o (hsub ho)
    acceptOut := fun l hl ho => hI.acceptOut l hl fun h0 => ho (by have := hcount l; omega)
    acceptPacket := fun l k o ho => hI.acceptPacket l k o (hsub ho)
    clientOut := fun l d hl hdl ho =>
      hI.clientOut l d hl hdl fun h0 => ho (by have := hcount d; omega)
    idle := fun h0 => by
      obtain ⟨-, hnil, -⟩ := hI.idle h0
      rw [hq] at hnil
      cases hnil
    complete := fun p d hd he hp hnot => by
      have ho : pkt.overlapped ≠ some d := fun h => hnot t (hself ▸ hover h)
      have hbytes : queuedBytes (taken s t pkt rest) d = queuedBytes s d := by
        have h : queuedBytes (taken s t pkt rest) d =
            (rest.filter fun pkt => pkt.overlapped = some d).flatMap (packetBytes s) :=
          congrArg (fun q : List Packet => (q.filter fun pkt : Packet =>
            decide (pkt.overlapped = some d)).flatMap (packetBytes s)) hrest
        rw [h, queuedBytes, hq, List.filter_cons_of_neg (by simpa using ho)]
      rw [hbytes]
      exact hI.complete p d hd he hp fun u hu => hnot u (hkept hu)
    callbackFrame := fun u p hp => by
      obtain ⟨d, hd, hm⟩ := hI.callbackFrame u p hp
      exact ⟨d, hkept hd, hm⟩
    receiveFrame := fun u d hf hd hn => by
      rcases hold hd with ⟨rfl, -⟩ | ⟨-, hd⟩
      · exact absurd hf (hstack d)
      · exact hI.receiveFrame u d hf hd hn
    acceptFrame := fun u l hl hd => by
      rcases hold hd with ⟨rfl, ho⟩ | ⟨-, hd⟩
      · exact .inl (hframe l hl ho)
      · exact hI.acceptFrame u l hl hd
    armed := fun l hl he hn => by
      by_cases ho : pkt.overlapped = some l
      · exact .inl ⟨t, hself ▸ hover ho⟩
      · have hc := hcount l
        rw [if_neg ho, Nat.add_zero] at hc
        rw [← hc]
        exact (hI.armed l hl he hn).imp_left fun ⟨u, hu⟩ => ⟨u, hkept hu⟩ }

lemma Move.take (hI : Inv s) {pkt : Packet} {rest : List Packet}
    (hq : s.queue s.workersPort = pkt :: rest) (hempty : s.holds t = [])
    (ht : ∃ i, t = .worker i) :
    Move (some t) s ((taken s t pkt rest).setStack t [pkt.frame s]) := by
  have hmem : pkt ∈ s.queue s.workersPort := hq ▸ List.mem_cons_self
  have hcompletion : ∀ c x, pkt.overlapped = some c → s.contexts c = some x →
      pkt.frame s = .completion x.ioContext.lastOperation c := by
    intro c x ho hx
    rw [Packet.frame, ho]
    simp only [hx]
  have hframe : ∀ f, (∀ op c, f ≠ .completion op c) → f ≠ .exitPacket →
      f ∉ [pkt.frame s] := by
    intro f hf hne hmem
    obtain rfl := List.mem_singleton.mp hmem
    cases ho : pkt.overlapped with
    | none =>
        rw [Packet.frame, ho] at hne
        exact hne rfl
    | some c =>
        cases hx : s.contexts c with
        | none =>
            simp only [Packet.frame, ho, hx] at hne
            exact hne rfl
        | some x => exact hf _ _ (hcompletion c x ho hx)
  have hworker : t ≠ .main := by
    rintro rfl
    obtain ⟨i, hi⟩ := ht
    cases hi
  have hinside : Inside t [pkt.frame s] s :=
    { listenSock := fun hm => absurd hm hworker
      callback := fun p hp => absurd hp (hframe _ nofun nofun)
      fresh := fun c hc => absurd hc (hframe _ nofun nofun)
      receive := fun c hc => absurd hc (hframe _ nofun nofun)
      accept := fun l _ hl => absurd (hempty ▸ hl) List.not_mem_nil
      started := fun _ hm => absurd hm hworker }
  have hself : (s.setStack t [pkt.frame s]).stack t = [pkt.frame s] := Function.update_self _ _ _
  refine ⟨(hI.setStack hinside).take hq hempty ht ?_ ?_, fun u hu => ?_, fun d w j q hr _ => hr⟩
  · intro c
    rw [hself]
    exact hframe _ nofun nofun
  · intro l hl ho
    obtain ⟨x, hx⟩ := hI.theLive l hl
    rw [hself, hcompletion l x ho hx, (hI.kind l l x hl hx).mpr rfl]
    exact List.mem_singleton_self _
  · have hut : u ≠ t := fun h => hu (congrArg some h.symm)
    exact { Respects.refl u s with
      alone := fun _ h0 => by
        rw [(hI.idle h0).2.1] at hq
        cases hq
      holds := Function.update_of_ne hut _ _
      kept := fun d _ => { Kept.refl d s with }
      listener := fun l _ _ => { KeptListener.refl u l s with } }

/-! ## Posting a wake-up -/

/-- The state after a wake-up was posted. -/
def withExit (s : State) : State :=
  { s with
    queue := Function.update s.queue s.workersPort (s.queue s.workersPort ++ [Packet.exit]) }

lemma outstanding_withExit (s : State) (d : ContextPtr) :
    (withExit s).outstanding d = s.outstanding d := by
  have hq : (withExit s).queue s.workersPort = s.queue s.workersPort ++ [Packet.exit] :=
    Function.update_self _ _ _
  refine (congrArg (fun q : List Packet => s.pending.countP (fun op => op.overlapped = d) +
    q.countP (fun pkt => decide (pkt.overlapped = some d))) hq).trans ?_
  rw [State.outstanding, List.countP_append]
  rfl

lemma Move.postExit (hI : Inv s) (he : s.exiting = true) (hthe : s.theSocketContext ≠ none) :
    Move (some t) s (withExit s) := by
  have hout := outstanding_withExit s
  have hcases : ∀ {o}, o ∈ (withExit s).queue s.workersPort →
      o ∈ s.queue s.workersPort ∨ o = Packet.exit := by
    intro o ho
    rw [show (withExit s).queue s.workersPort = s.queue s.workersPort ++ [Packet.exit] from
      Function.update_self _ _ _] at ho
    exact (List.mem_append.mp ho).imp_right List.mem_singleton.mp
  refine ⟨?_, fun u hu => ?_, fun d w j q hr _ => hr⟩
  · exact { hI with
      quiet := fun u d hd => (hout d).trans (hI.quiet u d hd)
      atMostOne := fun d => by
        rw [hout]
        exact hI.atMostOne d
      placed := fun l d hn => nomatch he.symm.trans hn
      packet := fun o ho => (hcases ho).elim (hI.packet o) fun h => .inl ⟨h, he⟩
      acceptOut := fun l hl ho => hI.acceptOut l hl (hout l ▸ ho)
      acceptPacket := fun l k o ho hl hol => by
        rcases hcases ho with ho | rfl
        · exact hI.acceptPacket l k o ho hl hol
        · cases hol
      clientOut := fun l d hl hdl ho => hI.clientOut l d hl hdl (hout d ▸ ho)
      idle := fun h0 => absurd h0 hthe
      complete := fun p d _ hn => nomatch he.symm.trans hn
      armed := fun l _ hn => nomatch he.symm.trans hn }
  · exact { Respects.refl u s with
      alone := fun _ h0 => absurd h0 hthe
      kept := fun d _ => { Kept.refl d s with }
      listener := fun l _ _ => { KeptListener.refl u l s with } }

/-! ## The end of a turn -/

lemma Move.finish (hI : Inv s) (hgo : ∀ c ∈ s.holds t, LetGo s c)
    (hsock : t = .main → ∀ l, s.theSocketContext = some l → ListenSock s l) :
    Move (some t) s ((s.setHolds t []).setStack t []) := by
  have hhself : ((s.setHolds t []).setStack t []).holds t = [] := Function.update_self _ _ _
  have hhne : ∀ {u}, u ≠ t → ((s.setHolds t []).setStack t []).holds u = s.holds u :=
    fun hu => Function.update_of_ne hu _ _
  have hsself : ((s.setHolds t []).setStack t []).stack t = [] := Function.update_self _ _ _
  have hsne : ∀ {u}, u ≠ t → ((s.setHolds t []).setStack t []).stack u = s.stack u :=
    fun hu => Function.update_of_ne hu _ _
  have hback : ∀ {u d}, d ∈ ((s.setHolds t []).setStack t []).holds u → u ≠ t ∧ d ∈ s.holds u := by
    intro u d hd
    have hu : u ≠ t := by
      rintro rfl
      rw [hhself] at hd
      cases hd
    exact ⟨hu, hhne hu ▸ hd⟩
  have hin : ∀ {u f}, f ∈ ((s.setHolds t []).setStack t []).stack u → u ≠ t ∧ f ∈ s.stack u := by
    intro u f hf
    have hu : u ≠ t := by
      rintro rfl
      rw [hsself] at hf
      cases hf
    exact ⟨hu, hsne hu ▸ hf⟩
  refine ⟨?_, fun u hu => ?_, fun d w j q hr _ => hr⟩
  · exact { hI with
      freshFrame := fun u d hf => hI.freshFrame u d (hin hf).2
      live := fun u d hd => hI.live u d (hback hd).2
      single := fun u w d hu hw => hI.single u w d (hback hu).2 (hback hw).2
      nodup := fun u => by
        by_cases hu : u = t
        · rw [hu, hhself]
          exact List.nodup_nil
        · rw [hhne hu]
          exact hI.nodup u
      quiet := fun u d hd => hI.quiet u d (hback hd).2
      worker := fun l u d hd => hI.worker l u d (hback hd).2
      placed := fun l d he hl hd hdl => by
        rcases hI.placed l d he hl hd hdl with ⟨u, hu⟩ | hrest
        · by_cases hut : u = t
          · subst hut
            rcases hgo d hu with hx | ⟨h, -⟩ | ⟨-, -, ha, -⟩
            · exact nomatch he.symm.trans hx
            · exact absurd (Option.some.inj (h.symm.trans hl)) hdl
            · exact .inr (.inr ha)
          · exact .inl ⟨u, (hhne hut).symm ▸ hu⟩
        · exact .inr hrest
      listenSock := fun l hl => by
        by_cases ht : t = .main
        · exact .inl (hsock ht l hl)
        · rw [hsne (Ne.symm ht)]
          exact hI.listenSock l hl
      idle := fun h0 => by
        obtain ⟨hp, hq, hh, hrest⟩ := hI.idle h0
        refine ⟨hp, hq, fun u hu => ?_, hrest⟩
        by_cases hut : u = t
        · rw [hut, hhself]
        · rw [hhne hut]
          exact hh u hu
      complete := fun p d hd he hp hnot => by
        by_cases hdt : d ∈ s.holds t
        · rw [show queuedBytes ((s.setHolds t []).setStack t []) d = [] from
            queuedBytes_of_quiet (s := s) (hI.quiet t d hdt)]
          rcases hgo d hdt with hx | ⟨h, -⟩ | ⟨-, -, -, hdrained⟩
          · exact nomatch he.symm.trans hx
          · exact absurd h (hI.ne_the hp)
          · exact hdrained p hd hp
        · refine hI.complete p d hd he hp fun u hu => ?_
          have hut : u ≠ t := by
            rintro rfl
            exact hdt hu
          exact hnot u ((hhne hut).symm ▸ hu)
      callbackFrame := fun u p hp => by
        obtain ⟨hu, hp⟩ := hin hp
        rw [hhne hu]
        exact hI.callbackFrame u p hp
      receiveFrame := fun u d hf hd hn => by
        obtain ⟨hu, hd⟩ := hback hd
        exact hI.receiveFrame u d (hin hf).2 hd fun h => hn ((hsne hu).symm ▸ h)
      acceptFrame := fun u l hl hd => by
        obtain ⟨hu, hd⟩ := hback hd
        rw [hsne hu]
        refine (hI.acceptFrame u l hl hd).imp_right fun ⟨hm, h⟩ => ⟨hm, ?_⟩
        rw [hsne (hm ▸ hu)]
        exact h
      started := fun hs => by
        refine ⟨fun hf => ?_, (hI.started hs).2⟩
        exact (hI.started hs).1 (hin hf).2
      armed := fun l hl he hn => by
        rcases hI.armed l hl he hn with ⟨u, hu⟩ | ho
        · by_cases hut : u = t
          · subst hut
            rcases hgo l hu with hx | ⟨-, h⟩ | ⟨h, -⟩
            · exact nomatch he.symm.trans hx
            · exact absurd h hn
            · exact absurd hl h
          · exact .inl ⟨u, (hhne hut).symm ▸ hu⟩
        · exact .inr ho }
  · have hut : u ≠ t := fun h => hu (congrArg some h.symm)
    exact { Respects.refl u s with
      alone := fun hm h0 => by
        have hh : ((s.setHolds t []).setStack t []).holds = s.holds := by
          funext w
          by_cases hw : w = t
          · rw [hw, hhself, (hI.idle h0).2.2.1 t (hm ▸ hut.symm)]
          · exact hhne hw
        exact ⟨rfl, rfl, rfl, rfl, rfl, rfl, rfl, rfl, rfl, rfl, rfl, rfl, rfl, hh, rfl⟩
      holds := hhne hut
      kept := fun d _ => { Kept.refl d s with }
      listener := fun l _ _ => { KeptListener.refl u l s with } }

end Server

end Alpl.Net
