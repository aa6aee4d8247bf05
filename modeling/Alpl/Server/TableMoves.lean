import Alpl.Server.HeapMoves

/-!
# Moves on the tables and the members of the handler

`socket_contexts_`, `connections_`, the connection objects, `iocp_handle_` and
`the_socket_context_`.  A thread writes only entries that belong to a context it has in hand.
-/

namespace Alpl.Net

open Interleaving

namespace Server

variable {s s' : State} {t u : Tid} {l c d : ContextPtr} {v : SOCKET} {k : SockId}
variable {p : ConnectionPtr}

/-! ## `socket_contexts_` -/

/-- The list changes only where no registered context is concerned. -/
lemma Inv.setList (hI : Inv s) {cs : List ContextPtr}
    (h : ∀ {d v k p}, Registered s d v k p → d ∈ cs) : Inv { s with socketContexts := cs } :=
  have hreg : ∀ {d v k p}, Registered s d v k p →
      Registered { s with socketContexts := cs } d v k p :=
    fun hr => hr.congr rfl (fun _ => h hr) rfl rfl rfl rfl fun _ hy => hy
  { hI with
    clientOut := fun l d hl hdl ho => by
      obtain ⟨hd, hrecv, v, k, p, hr⟩ := hI.clientOut l d hl hdl ho
      exact ⟨hd, hrecv, v, k, p, hreg hr⟩
    mapped := fun v o hv => by
      obtain ⟨d, k, p, ho, hr⟩ := hI.mapped v o hv
      exact ⟨d, k, p, ho, hreg hr⟩
    receiveFrame := fun u d hf hd hn => by
      obtain ⟨v, k, p, hr⟩ := hI.receiveFrame u d hf hd hn
      exact ⟨v, k, p, hreg hr⟩ }

lemma Move.setList (hI : Inv s) {cs : List ContextPtr} (hS : Serving t c s)
    (h : ∀ {d v k p}, Registered s d v k p → d ∈ cs)
    (hcs : ∀ d, d ≠ c → (d ∈ cs ↔ d ∈ s.socketContexts)) :
    Move (some t) s { s with socketContexts := cs } := by
  obtain ⟨hc, l, hl, -⟩ := hS
  refine ⟨hI.setList h, fun u hu => ?_,
    fun d v k p hr _ => hr.congr rfl (fun _ => h hr) rfl rfl rfl rfl fun _ hy => hy⟩
  exact { Respects.refl u s with
    alone := fun _ h0 => nomatch h0.symm.trans hl
    kept := fun d hd => { Kept.refl d s with
      listed := hcs d fun hdc => hu (congrArg some (hI.single t u c hc (hdc ▸ hd))) }
    listener := fun l' _ _ => { KeptListener.refl u l' s with } }

lemma Move.pushFrontContext (hI : Inv s) (hS : Serving t c s) :
    Move (some t) s { s with socketContexts := c :: s.socketContexts } :=
  .setList hI hS (fun hr => List.mem_cons_of_mem c hr.1.2.1) fun d hd => by
    rw [List.mem_cons, or_iff_right hd]

lemma Move.removeContext (hI : Inv s) (hS : Serving t c s) (hclosed : Closed s c) :
    Move (some t) s { s with socketContexts := s.socketContexts.filter (· ≠ c) } := by
  refine .setList hI hS (fun hr => ?_) fun d hd => ?_
  · exact List.mem_filter.mpr ⟨hr.1.2.1, decide_eq_true (hr.ne_of_closed hclosed)⟩
  · rw [List.mem_filter, decide_eq_true hd, and_iff_left rfl]

/-! ## `connections_` -/

/-- A new entry, for a context that is attached, with the object made for it. -/
lemma Move.assignConnection (hI : Inv s) (hnone : s.connections v = none) (hS : Serving t c s)
    (ha : Attached s c v k) (ho : ObjectOf s p c v) : Move (some t) s
      { s with connections := Function.update s.connections v (some (some p)) } := by
  have hne : ∀ {w}, w ≠ v → Function.update s.connections v (some (some p)) w = s.connections w :=
    fun hw => Function.update_of_ne hw _ _
  have hreg : ∀ {d w j q}, Registered s d w j q → Registered
      { s with connections := Function.update s.connections v (some (some p)) } d w j q := by
    intro d w j q hr
    have hwv : w ≠ v := by
      rintro rfl
      exact nomatch hnone.symm.trans hr.2.1
    exact hr.congr rfl id rfl rfl rfl (hne hwv) fun _ hy => hy
  obtain ⟨hc, l, hl, -⟩ := hS
  refine ⟨?_, fun u hu => ?_, fun d w j q hr _ => hreg hr⟩
  · exact { hI with
      clientOut := fun l d hl hdl ho => by
        obtain ⟨hd, hrecv, w, j, q, hr⟩ := hI.clientOut l d hl hdl ho
        exact ⟨hd, hrecv, w, j, q, hreg hr⟩
      mapped := fun w o hw => by
        by_cases hwv : w = v
        · subst hwv
          have hself := Function.update_self w (some (some p)) s.connections
          obtain rfl := Option.some.inj (hself.symm.trans hw)
          exact ⟨c, k, p, rfl, ha, hself, ho⟩
        · obtain ⟨d, j, q, ho, hr⟩ := hI.mapped w o ((hne hwv).symm.trans hw)
          exact ⟨d, j, q, ho, hreg hr⟩
      receiveFrame := fun u d hf hd hn => by
        obtain ⟨w, j, q, hr⟩ := hI.receiveFrame u d hf hd hn
        exact ⟨w, j, q, hreg hr⟩ }
  · exact { Respects.refl u s with
      alone := fun _ h0 => nomatch h0.symm.trans hl
      kept := fun d hd => { Kept.refl d s with
        connections := fun _ w j hw hj => hne (by
          rintro rfl
          obtain rfl := Option.some.inj (ha.2.2.1.symm.trans hw)
          obtain rfl := KeyOf.context_eq ⟨_, ha.2.2.2⟩ hj
          exact hu (congrArg some (hI.single t u c hc hd))) }
      listener := fun l' _ _ => { KeptListener.refl u l' s with } }

/-- An entry goes while its context is being torn down. -/
lemma Move.eraseConnection (hI : Inv s) (hA : Allowed t (.eraseConnection v) s) :
    Move (some t) s { s with connections := Function.update s.connections v none } := by
  obtain ⟨c, k, ⟨hc, l, hl, hcl⟩, hv, hk, hf⟩ := hA
  have hne : ∀ {w}, w ≠ v → Function.update s.connections v none w = s.connections w :=
    fun hw => Function.update_of_ne hw _ _
  have howner : ∀ {d w j q}, Registered s d w j q → w = v → d = c := by
    rintro d w j q hr rfl
    obtain rfl := Option.some.inj (hv.symm.trans hr.opened)
    exact hr.key.context_eq hk
  have hreg : ∀ {d w j q}, Registered s d w j q → d ≠ c → Registered
      { s with connections := Function.update s.connections v none } d w j q :=
    fun hr hdc => hr.congr rfl id rfl rfl rfl (hne fun hw => hdc (howner hr hw)) fun _ hy => hy
  refine ⟨?_, fun u hu => ?_, fun d w j q hr hd => hreg hr ?_⟩
  · exact { hI with
      clientOut := fun l d hl hdl ho => by
        obtain ⟨hd, hrecv, w, j, q, hr⟩ := hI.clientOut l d hl hdl ho
        refine ⟨hd, hrecv, w, j, q, hreg hr ?_⟩
        rintro rfl
        exact ho (hI.quiet t d hc)
      mapped := fun w o hw => by
        by_cases hwv : w = v
        · subst hwv
          exact nomatch (Function.update_self w none s.connections).symm.trans hw
        · obtain ⟨d, j, q, ho, hr⟩ := hI.mapped w o ((hne hwv).symm.trans hw)
          exact ⟨d, j, q, ho, hr.congr rfl id rfl rfl rfl (hne hwv) fun _ hy => hy⟩
      receiveFrame := fun u d hfr hd hn => by
        obtain ⟨w, j, q, hr⟩ := hI.receiveFrame u d hfr hd hn
        refine ⟨w, j, q, hreg hr ?_⟩
        rintro rfl
        obtain rfl := hI.single t u d hc hd
        exact hn hf }
  · exact { Respects.refl u s with
      alone := fun _ h0 => nomatch h0.symm.trans hl
      kept := fun d hd => { Kept.refl d s with
        connections := fun _ w j hw hj => hne (by
          rintro rfl
          obtain rfl := Option.some.inj (hv.symm.trans hw)
          obtain rfl := hk.context_eq hj
          exact hu (congrArg some (hI.single t u c hc hd))) }
      listener := fun l' _ _ => { KeptListener.refl u l' s with } }
  · rintro rfl
    exact hd t rfl hf

/-! ## Connection objects -/

/-- The state after `new` has made a connection object. -/
def withConnection (s : State) (y : TcpConnection) : State :=
  { s with
    tcpConnections := Function.update s.tcpConnections s.nextConnection (some y)
    nextConnection := s.nextConnection + 1 }

lemma Move.newConnection (hI : Inv s) (hH : Handler.Inv s) {y : TcpConnection}
    (hA : Allowed t (.newConnection y) s) : Move (some t) s (withConnection s y) := by
  obtain ⟨c, hy, ⟨hc, l, hl, hcl⟩, hnone⟩ := hA
  have hfresh : s.tcpConnections s.nextConnection = none := hH.unnamed _ (Nat.le_refl _)
  have hold : ∀ {q z}, s.tcpConnections q = some z →
      (withConnection s y).tcpConnections q = some z := by
    intro q z hz
    refine (Function.update_of_ne ?_ _ _).trans hz
    rintro rfl
    exact nomatch hfresh.symm.trans hz
  have hself : (withConnection s y).tcpConnections s.nextConnection = some y :=
    Function.update_self _ _ _
  have hcases : ∀ {q z}, (withConnection s y).tcpConnections q = some z →
      (q = s.nextConnection ∧ z = y) ∨ s.tcpConnections q = some z := by
    intro q z hz
    by_cases hq : q = s.nextConnection
    · subst hq
      exact .inl ⟨rfl, (Option.some.inj (hself.symm.trans hz)).symm⟩
    · exact .inr ((Function.update_of_ne hq _ _).symm.trans hz)
  have hmade : ∀ {q d}, MadeFor (withConnection s y) q d →
      (q = s.nextConnection ∧ d = c) ∨ MadeFor s q d := by
    rintro q d ⟨z, hz, hzd⟩
    rcases hcases hz with ⟨hq, rfl⟩ | hz
    · exact .inl ⟨hq, Option.some.inj (hzd.symm.trans hy)⟩
    · exact .inr ⟨z, hz, hzd⟩
  have hreg : ∀ {d w j q}, Registered s d w j q → Registered (withConnection s y) d w j q :=
    fun hr => hr.congr rfl id rfl rfl rfl rfl fun _ hz => hold hz
  refine ⟨?_, fun u hu => ?_, fun d w j q hr _ => hreg hr⟩
  · exact { hI with
      freshDelivered := fun q hq => hI.freshDelivered q (Nat.le_of_succ_le hq)
      objectUnique := fun q q' d hq hq' => by
        rcases hmade hq with ⟨rfl, rfl⟩ | hq <;> rcases hmade hq' with ⟨rfl, hd⟩ | hq'
        · rfl
        · exact absurd hq' (hnone q')
        · exact absurd (hd ▸ hq) (hnone q)
        · exact hI.objectUnique q q' d hq hq'
      clientOut := fun l d hl hdl ho => by
        obtain ⟨hd, hrecv, w, j, q, hr⟩ := hI.clientOut l d hl hdl ho
        exact ⟨hd, hrecv, w, j, q, hreg hr⟩
      idle := fun h0 => nomatch h0.symm.trans hl
      mapped := fun w o hw => by
        obtain ⟨d, j, q, ho, hr⟩ := hI.mapped w o hw
        exact ⟨d, j, q, ho, hreg hr⟩
      objectOf := fun q z hz => by
        rcases hcases hz with ⟨-, rfl⟩ | hz
        · refine ⟨c, hI.lt_of_live (hI.live t c hc), hy, fun h => hcl ?_⟩
          exact Option.some.inj (h.symm.trans hl)
        · exact hI.objectOf q z hz
      inOrder := fun q d k hq hk => by
        rcases hmade hq with ⟨rfl, -⟩ | hq
        · rw [show (withConnection s y).delivered s.nextConnection = [] from
            hI.freshDelivered _ (Nat.le_refl _)]
          exact List.nil_prefix
        · exact hI.inOrder q d k hq hk
      complete := fun q d hd he hq hnot => by
        rcases hmade hq with ⟨-, rfl⟩ | hq
        · exact absurd hc (hnot t)
        · exact hI.complete q d hd he hq hnot
      callbackFrame := fun u q hq => by
        obtain ⟨d, hd, z, hz, hzd⟩ := hI.callbackFrame u q hq
        exact ⟨d, hd, z, hold hz, hzd⟩
      receiveFrame := fun u d hf hd hn => by
        obtain ⟨w, j, q, hr⟩ := hI.receiveFrame u d hf hd hn
        exact ⟨w, j, q, hreg hr⟩ }
  · exact { Respects.refl u s with
      alone := fun _ h0 => nomatch h0.symm.trans hl
      kept := fun d hd => { Kept.refl d s with
        madeFor := fun q => by
          refine ⟨fun hq => (hmade hq).resolve_left ?_, fun ⟨z, hz, hzd⟩ => ⟨z, hold hz, hzd⟩⟩
          rintro ⟨-, rfl⟩
          exact hu (congrArg some (hI.single t u d hc hd)) }
      listener := fun l' _ _ => { KeptListener.refl u l' s with } }

/-! ## `iocp_handle_` and `the_socket_context_` -/

lemma Move.setIocpHandle (hI : Inv s) {h : Option Port} (hA : Allowed t (.setIocpHandle h) s) :
    Move (some t) s { s with iocpHandle := h } := by
  obtain ⟨hS, hq⟩ := hA
  refine ⟨?_, fun u hu => ?_, fun d w j q hr _ => hr⟩
  · exact { hI with
      port := hq
      acceptOut := fun l hl ho => by
        rcases hS with ⟨-, h0⟩ | ⟨l', hl', hc⟩
        · exact nomatch h0.symm.trans hl
        · obtain rfl := Option.some.inj (hl'.symm.trans hl)
          exact absurd (hI.quiet t l' hc) ho }
  · have hut : u ≠ t := fun h => hu (congrArg some h.symm)
    rcases hS with hS | ⟨l, hl, hc⟩
    · exact .of_starting hI hS hut rfl
    · exact { Respects.refl u s with
        alone := fun _ h0 => nomatch h0.symm.trans hl
        kept := fun d _ => { Kept.refl d s with }
        listener := fun l' hl' hc' => by
          obtain rfl := Option.some.inj (hl.symm.trans hl')
          exact absurd (hI.single u t l hc' hc) hut }

/-- The main thread has made the listening context, and now everybody may know it. -/
lemma Move.setTheSocketContext (hI : Inv s) {o : Option ContextPtr}
    (hA : Allowed t (.setTheSocketContext o) s) :
    Move (some t) s { s with theSocketContext := o } := by
  obtain ⟨hS, hf, ho⟩ := hA
  obtain ⟨rfl, h0⟩ := id hS
  obtain ⟨hpending, hqueue, hothers, hobjects, hlast⟩ := hI.idle h0
  have hquiet : ∀ c, s.outstanding c = 0 := fun c => by
    rw [State.outstanding, hpending, hqueue]
    rfl
  refine ⟨?_, fun u hu => ?_, Keeps.of_starting hI hS⟩
  · exact { hI with
      worker := fun l t c hc hl hcl => by
        by_cases ht : t = .main
        · subst ht
          rw [(ho l hl).1] at hc
          exact absurd (List.mem_singleton.mp hc) hcl
        · exact absurd (hothers t ht ▸ hc) List.not_mem_nil
      placed := fun l c _ hl hc hcl => absurd ((ho l hl).2.1 c hc) hcl
      acceptOut := fun l hl hout => absurd (hquiet l) hout
      acceptOp := fun l op hop => absurd (hpending ▸ hop) List.not_mem_nil
      acceptPacket := fun l k pkt hpkt => absurd (hqueue ▸ hpkt) List.not_mem_nil
      clientOut := fun l c hl hcl hout => absurd (hquiet c) hout
      clientOp := fun l op hop => absurd (hpending ▸ hop) List.not_mem_nil
      theLive := fun l hl => (ho l hl).2.2.1.imp fun _ hx => hx.1
      kind := fun l c x hl hx => by
        obtain ⟨-, hall, ⟨y, hy, hop⟩, -⟩ := ho l hl
        obtain rfl := hall c ⟨x, hx⟩
        obtain rfl := Option.some.inj (hx.symm.trans hy)
        exact iff_of_true hop rfl
      listenSock := fun l hl => .inl (ho l hl).2.2.2.1
      listener := fun l k hl => (ho l hl).2.2.2.2 k
      otherSocket := fun l x c y hl _ hy hcl => absurd ((ho l hl).2.1 c ⟨y, hy⟩) hcl
      idle := fun _ => ⟨hpending, hqueue, hothers, hobjects, hlast⟩
      objectOf := fun p y hy => absurd (hy.symm.trans (hobjects p)) (Option.some_ne_none y)
      acceptFrame := fun t l hl hc => by
        by_cases ht : t = .main
        · exact .inr ⟨ht, .inl hf⟩
        · exact absurd (hothers t ht ▸ hc) List.not_mem_nil
      armed := fun l hl _ _ => .inl ⟨.main, (ho l hl).1.symm ▸ List.mem_singleton_self l⟩ }
  · exact .of_starting hI hS (fun h => hu (congrArg some h.symm)) rfl

end Server

end Alpl.Net
