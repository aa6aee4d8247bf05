import Alpl.Server.RunMoves

/-!
# Moves on the heap and the tables

One lemma for each action that writes an object of type `socket_context`, one of the tables, or a
member of the handler.  Whoever writes has the context in hand, so the contexts of the others,
their sockets and their entries stay as they were.
-/

namespace Alpl.Net

open Interleaving

namespace Server

variable {s s' : State} {t u : Tid} {l c d : ContextPtr} {v : SOCKET} {k : SockId}
variable {p : ConnectionPtr}

/-! ## The main thread by itself -/

/-- Until there is a `the_socket_context_`, only the main thread has anything to lose. -/
lemma Respects.of_starting (hI : Inv s) (hS : Starting t s) (hu : u ≠ t)
    (hh : s'.holds u = s.holds u) : Respects u s s' := by
  obtain ⟨rfl, h0⟩ := hS
  have hnone : s.holds u = [] := (hI.idle h0).2.2.1 u hu
  exact
    { alone := fun hm => absurd hm hu
      the := fun l hl => nomatch h0.symm.trans hl
      theContext := fun l x hl => nomatch h0.symm.trans hl
      theSocket := fun hm => absurd hm hu
      listenSock := fun hm => absurd hm hu
      closed := fun hm => absurd hm hu
      holds := hh
      kept := fun c hc => absurd (hnone ▸ hc) List.not_mem_nil
      listener := fun l hl => nomatch h0.symm.trans hl }

lemma Keeps.of_starting {m : Option Tid} (hI : Inv s) (hS : Starting t s) : Keeps m s s' := by
  intro c v k p hr
  obtain ⟨y, hy, -⟩ := hr.2.2
  rw [(hI.idle hS.2).2.2.2.1 p] at hy
  cases hy

/-! ## Creating and freeing a context -/

/-- The state after `new` has made a context. -/
def withNewContext (s : State) (t : Tid) (x : SocketContext) : State :=
  ({ s with nextContext := s.nextContext + 1 }.setContext s.nextContext (some x)).setHolds t
    (s.nextContext :: s.holds t)

lemma withNewContext_contexts {x : SocketContext} (hd : Live s d) (hI : Inv s) :
    (withNewContext s t x).contexts d = s.contexts d :=
  Function.update_of_ne (Nat.ne_of_lt (hI.lt_of_live hd)) _ _

lemma withNewContext_holds (x : SocketContext) (u : Tid) : (withNewContext s t x).holds u =
    if u = t then s.nextContext :: s.holds t else s.holds u :=
  Function.update_apply _ _ _ _

lemma mem_withNewContext_holds {x : SocketContext} {u : Tid} : d ∈ (withNewContext s t x).holds u ↔
    (u = t ∧ d = s.nextContext) ∨ d ∈ s.holds u := by
  rw [withNewContext_holds]
  split
  · rename_i hu
    rw [hu, List.mem_cons]
    simp
  · rename_i hu
    simp [hu]

lemma Inv.newContext (hI : Inv s) {x : SocketContext} (h0 : s.theSocketContext = none → t = .main)
    (hop : s.theSocketContext ≠ none →
      x.ioContext.lastOperation ≠ .ioAccept ∧ ∃ i, t = .worker i)
    (hsock : ∀ l y, s.theSocketContext = some l → s.contexts l = some y → x.socket ≠ y.socket) :
    Inv (withNewContext s t x) := by
  have hold : ∀ {d}, Live s d → (withNewContext s t x).contexts d = s.contexts d :=
    fun hd => withNewContext_contexts hd hI
  have hself : (withNewContext s t x).contexts s.nextContext = some x := Function.update_self _ _ _
  have hlive : ∀ {d}, Live s d → Live (withNewContext s t x) d :=
    fun hd => hd.imp fun _ hy => (hold hd).trans hy
  have hcases : ∀ {d y}, (withNewContext s t x).contexts d = some y →
      (d = s.nextContext ∧ y = x) ∨ s.contexts d = some y := by
    intro d y hy
    by_cases hd : d = s.nextContext
    · subst hd
      exact .inl ⟨rfl, (Option.some.inj (hself.symm.trans hy)).symm⟩
    · exact .inr ((Function.update_of_ne hd _ _).symm.trans hy)
  have hnew : ¬ Live s s.nextContext := fun h => Nat.lt_irrefl _ (hI.lt_of_live h)
  have hreg : ∀ {c v k p}, Registered s c v k p → Registered (withNewContext s t x) c v k p :=
    fun h => h.congr (hold h.live) id rfl rfl rfl rfl fun _ hy => hy
  exact { hI with
    freshContext := fun d hd => (Function.update_of_ne (Nat.ne_of_gt hd) _ _).trans
      (hI.freshContext d (Nat.le_of_succ_le hd))
    freshKey := fun k d hk => Nat.lt_succ_of_lt (hI.freshKey k d hk)
    freshFrame := fun u d hd => Nat.lt_succ_of_lt (hI.freshFrame u d hd)
    freshDisconnects := fun d hd => hI.freshDisconnects d (Nat.le_of_succ_le hd)
    live := fun u d hd => by
      rcases mem_withNewContext_holds.mp hd with ⟨-, rfl⟩ | hd
      · exact ⟨x, hself⟩
      · exact hlive (hI.live u d hd)
    single := fun u w d hu hw => by
      rcases mem_withNewContext_holds.mp hu with ⟨hut, rfl⟩ | hu <;>
        rcases mem_withNewContext_holds.mp hw with ⟨hwt, hd⟩ | hw
      · exact hut.trans hwt.symm
      · exact absurd (hI.live w _ hw) hnew
      · exact absurd (hI.live u _ (hd ▸ hu)) hnew
      · exact hI.single u w d hu hw
    nodup := fun u => by
      rw [withNewContext_holds]
      split
      · exact List.nodup_cons.mpr ⟨fun h => hnew (hI.live t _ h), hI.nodup t⟩
      · exact hI.nodup u
    quiet := fun u d hd => by
      rcases mem_withNewContext_holds.mp hd with ⟨-, rfl⟩ | hd
      · exact hI.outstanding_of_not_live hnew
      · exact hI.quiet u d hd
    worker := fun l u d hd hl hne => by
      rcases mem_withNewContext_holds.mp hd with ⟨rfl, -⟩ | hd
      · exact (hop (hl ▸ nofun)).2
      · exact hI.worker l u d hd hl hne
    placed := fun l d he hl hd hne => by
      obtain ⟨y, hy⟩ := hd
      rcases hcases hy with ⟨rfl, -⟩ | hy
      · exact .inl ⟨t, mem_withNewContext_holds.mpr (.inl ⟨rfl, rfl⟩)⟩
      · exact (hI.placed l d he hl ⟨y, hy⟩ hne).imp_left
          fun ⟨u, hu⟩ => ⟨u, mem_withNewContext_holds.mpr (.inr hu)⟩
    acceptOut := fun l hl ho => by
      obtain ⟨hport, k, hk⟩ := hI.acceptOut l hl ho
      exact ⟨hport, k, hk.congr (hold hk.live) (fun _ h => h) rfl⟩
    acceptOp := fun l op hop hl ho => by
      obtain ⟨k, hk, hrest⟩ := hI.acceptOp l op hop hl ho
      exact ⟨k, hk.congr (hold hk.live) (fun _ h => h) rfl, hrest⟩
    acceptPacket := fun l k pkt hpkt hl ho hk => by
      have hl' := hold (hI.theLive l hl)
      rw [packetBytes_congr fun c hc => Option.some.inj (ho.symm.trans hc) ▸ hl']
      exact hI.acceptPacket l k pkt hpkt hl ho (hk.congr hl'.symm (fun _ h => h) rfl)
    clientOut := fun l d hl hne ho => by
      obtain ⟨hd, ⟨y, hy, hrecv⟩, v, k, p, hr⟩ := hI.clientOut l d hl hne ho
      exact ⟨hd, ⟨y, (hold ⟨y, hy⟩).trans hy, hrecv⟩, v, k, p, hreg hr⟩
    theLive := fun l hl => hlive (hI.theLive l hl)
    kind := fun l d y hl hy => by
      rcases hcases hy with ⟨rfl, rfl⟩ | hy
      · refine iff_of_false (hop (hl ▸ nofun)).1 ?_
        rintro rfl
        exact hnew (hI.theLive _ hl)
      · exact hI.kind l d y hl hy
    listenSock := fun l hl => (hI.listenSock l hl).imp_left
      fun h => h.congr (hold (hI.theLive l hl)) (fun _ _ _ h => h) fun _ _ h => h
    otherSocket := fun l y d z hl hy hz hne hv => by
      rw [hold (hI.theLive l hl)] at hy
      rcases hcases hz with ⟨-, rfl⟩ | hz
      · exact hsock l y hl hy
      · exact hI.otherSocket l y d z hl hy hz hne hv
    mapped := fun v o hv => by
      obtain ⟨c, k, p, ho, hr⟩ := hI.mapped v o hv
      exact ⟨c, k, p, ho, hreg hr⟩
    socketOf := fun v k q d hv hk => by
      obtain ⟨hq, y, hy, hs⟩ := hI.socketOf v k q d hv hk
      exact ⟨hq, y, (hold ⟨y, hy⟩).trans hy, hs⟩
    objectOf := fun p y hy => by
      obtain ⟨d, hd, hrest⟩ := hI.objectOf p y hy
      exact ⟨d, Nat.lt_succ_of_lt hd, hrest⟩
    idle := fun hn => by
      obtain ⟨hp, hq, hh, hrest⟩ := hI.idle hn
      refine ⟨hp, hq, fun u hu => ?_, hrest⟩
      rw [withNewContext_holds, if_neg (h0 hn ▸ hu)]
      exact hh u hu
    complete := fun p d hd he hp hc => by
      have hne : d ≠ s.nextContext := by
        rintro rfl
        obtain ⟨y, hy, hyd⟩ := hp
        obtain ⟨e, he, hye, -⟩ := hI.objectOf p y hy
        exact Nat.ne_of_gt he (Option.some.inj (hyd.symm.trans hye))
      rw [show queuedBytes (withNewContext s t x) d = queuedBytes s d from
        queuedBytes_congr (Function.update_of_ne hne _ _) rfl]
      exact hI.complete p d hd he hp fun u hu => hc u (mem_withNewContext_holds.mpr (.inr hu))
    callbackFrame := fun u p hp => by
      obtain ⟨d, hd, hm⟩ := hI.callbackFrame u p hp
      exact ⟨d, mem_withNewContext_holds.mpr (.inr hd), hm⟩
    receiveFrame := fun u d hf hd hn => by
      rcases mem_withNewContext_holds.mp hd with ⟨-, rfl⟩ | hd
      · exact absurd (hI.freshFrame u _ hf) (Nat.lt_irrefl _)
      · obtain ⟨v, k, p, hr⟩ := hI.receiveFrame u d hf hd hn
        exact ⟨v, k, p, hreg hr⟩
    acceptFrame := fun u l hl hd => by
      rcases mem_withNewContext_holds.mp hd with ⟨-, rfl⟩ | hd
      · exact absurd (hI.theLive _ hl) hnew
      · exact hI.acceptFrame u l hl hd
    armed := fun l hl he hn => (hI.armed l hl he hn).imp_left
      fun ⟨u, hu⟩ => ⟨u, mem_withNewContext_holds.mpr (.inr hu)⟩ }

lemma Move.newContext (hI : Inv s) {sd : SOCKET} {op : LastIoOperation}
    (hA : Allowed t (.newContext sd op) s) :
    Move (some t) s (withNewContext s t (SocketContext.new sd op)) := by
  have hold : ∀ {d}, Live s d →
      (withNewContext s t (SocketContext.new sd op)).contexts d = s.contexts d :=
    fun hd => withNewContext_contexts hd hI
  refine ⟨hI.newContext ?_ ?_ ?_, fun u hu => ?_, ?_⟩
  · rcases hA with ⟨ht, -⟩ | ⟨-, -, l, x, hl, -⟩
    · exact fun _ => ht
    · exact fun h0 => nomatch h0.symm.trans hl
  · rcases hA with ⟨-, h0⟩ | ⟨rfl, hw, -⟩
    · exact fun hn => absurd h0 hn
    · exact fun _ => ⟨nofun, hw⟩
  · rcases hA with ⟨-, h0⟩ | ⟨-, -, l, x, hl, -, hx, hne⟩
    · exact fun l y hl => nomatch h0.symm.trans hl
    · intro l' y hl' hy
      obtain rfl := Option.some.inj (hl.symm.trans hl')
      obtain rfl := Option.some.inj (hx.symm.trans hy)
      exact hne
  · have hut : u ≠ t := fun h => hu (congrArg some h.symm)
    have hh : (withNewContext s t (SocketContext.new sd op)).holds u = s.holds u :=
      Function.update_of_ne hut _ _
    rcases hA with hS | ⟨-, -, l, x, hl, -⟩
    · exact .of_starting hI hS hut hh
    · exact { Respects.refl u s with
        alone := fun _ h0 => nomatch h0.symm.trans hl
        theContext := fun l' y hl' hy => ⟨y, (hold (hI.theLive l' hl')).trans hy, .inl rfl⟩
        theSocket := fun _ l' y hl' hy => ⟨y, (hold (hI.theLive l' hl')).trans hy, rfl⟩
        listenSock := fun _ l' hl' h =>
          h.congr (hold (hI.theLive l' hl')) (fun _ _ _ h => h) fun _ _ h => h
        holds := hh
        kept := fun d hd => { Kept.refl d s with context := fun _ => hold (hI.live u d hd) }
        listener := fun l' hl' _ => { KeptListener.refl u l' s with
          ioContext := fun y hy => ⟨y, (hold (hI.theLive l' hl')).trans hy, rfl⟩ } }
  · exact fun c v k p hr _ => hr.congr (hold hr.live) id rfl rfl rfl rfl fun _ hy => hy

/-! ## Writing the context of a connection -/

/-- A new value for the context of a connection, which nothing refers to: a closed context may have
any socket that is invalid, and nothing else may change its socket. -/
structure Rewrites (s : State) (c : ContextPtr) (x : SocketContext) : Prop where
  live : Live s c
  quiet : s.outstanding c = 0
  running : s.theSocketContext ≠ none
  client : s.theSocketContext ≠ some c
  kind : x.ioContext.lastOperation ≠ .ioAccept
  socket : ∀ y, s.contexts c = some y → x.socket = y.socket ∨ Closed s c ∧ x.socket = invalidSocket
  accept : ∀ y, s.contexts c = some y → x.ioContext.socketAccept = y.ioContext.socketAccept

lemma Rewrites.registered {x : SocketContext} (h : Rewrites s c x) {d : ContextPtr}
    (hr : Registered s d v k p) : Registered (s.setContext c (some x)) d v k p := by
  by_cases hd : d = c
  · subst hd
    obtain ⟨⟨⟨y, hy, hv, ha⟩, hrest⟩, hmap⟩ := hr
    refine ⟨⟨⟨x, Function.update_self _ _ _, ?_, (h.accept y hy).trans ha⟩, hrest⟩, hmap⟩
    rcases h.socket y hy with hs | ⟨hclosed, -⟩
    · exact hs.trans hv
    · exact absurd ⟨_, hrest.2.2⟩ (hclosed v k hrest.2.1)
  · exact hr.congr (Function.update_of_ne hd _ _) id rfl rfl rfl rfl fun _ hy => hy

lemma Inv.setContext (hI : Inv s) {x : SocketContext} (h : Rewrites s c x) :
    Inv (s.setContext c (some x)) := by
  have hne : ∀ {d}, d ≠ c → (s.setContext c (some x)).contexts d = s.contexts d :=
    fun hd => Function.update_of_ne hd _ _
  have hself : (s.setContext c (some x)).contexts c = some x := Function.update_self _ _ _
  have hthe : ∀ {l}, s.theSocketContext = some l → l ≠ c := by
    rintro l hl rfl
    exact h.client hl
  have hlive : ∀ {d}, Live s d → Live (s.setContext c (some x)) d := by
    rintro d ⟨y, hy⟩
    by_cases hd : d = c
    · exact ⟨x, hd ▸ hself⟩
    · exact ⟨y, (hne hd).trans hy⟩
  have hback : ∀ {d}, Live (s.setContext c (some x)) d → Live s d := by
    rintro d ⟨y, hy⟩
    by_cases hd : d = c
    · exact hd ▸ h.live
    · exact ⟨y, (hne hd).symm.trans hy⟩
  exact { hI with
    freshContext := fun d hd => by
      have hdc : d ≠ c := by
        rintro rfl
        exact Nat.lt_irrefl _ (Nat.lt_of_lt_of_le (hI.lt_of_live h.live) hd)
      exact (hne hdc).trans (hI.freshContext d hd)
    live := fun u d hd => hlive (hI.live u d hd)
    placed := fun l d he hl hd => hI.placed l d he hl (hback hd)
    acceptOut := fun l hl ho => by
      obtain ⟨hport, k, hk⟩ := hI.acceptOut l hl ho
      exact ⟨hport, k, hk.congr (hne (hthe hl)) (fun _ h => h) rfl⟩
    acceptOp := fun l op hop hl ho => by
      obtain ⟨k, hk, hrest⟩ := hI.acceptOp l op hop hl ho
      exact ⟨k, hk.congr (hne (hthe hl)) (fun _ h => h) rfl, hrest⟩
    acceptPacket := fun l k pkt hpkt hl ho hk => by
      have hl' := hne (hthe hl)
      rw [packetBytes_congr fun d hd => Option.some.inj (ho.symm.trans hd) ▸ hl']
      exact hI.acceptPacket l k pkt hpkt hl ho (hk.congr hl'.symm (fun _ h => h) rfl)
    clientOut := fun l d hl hdl ho => by
      obtain ⟨hd, ⟨y, hy, hrecv⟩, v, k, p, hr⟩ := hI.clientOut l d hl hdl ho
      have hdc : d ≠ c := by
        rintro rfl
        exact ho h.quiet
      exact ⟨hd, ⟨y, (hne hdc).trans hy, hrecv⟩, v, k, p, h.registered hr⟩
    theLive := fun l hl => hlive (hI.theLive l hl)
    kind := fun l d y hl hy => by
      by_cases hd : d = c
      · subst hd
        obtain rfl := Option.some.inj (hself.symm.trans hy)
        exact iff_of_false h.kind (hthe hl).symm
      · exact hI.kind l d y hl ((hne hd).symm.trans hy)
    listenSock := fun l hl => (hI.listenSock l hl).imp_left
      fun h => h.congr (hne (hthe hl)) (fun _ _ _ h => h) fun _ _ h => h
    otherSocket := fun l y d z hl hy hz hdl hv => by
      rw [hne (hthe hl)] at hy
      by_cases hd : d = c
      · subst hd
        obtain rfl := Option.some.inj (hself.symm.trans hz)
        obtain ⟨w, hw⟩ := h.live
        rcases h.socket w hw with hs | ⟨-, hs⟩
        · rw [hs] at hv ⊢
          exact hI.otherSocket l y d w hl hy hw hdl hv
        · exact absurd hs hv
      · exact hI.otherSocket l y d z hl hy ((hne hd).symm.trans hz) hdl hv
    mapped := fun v o hv => by
      obtain ⟨d, k, p, ho, hr⟩ := hI.mapped v o hv
      exact ⟨d, k, p, ho, h.registered hr⟩
    socketOf := fun v k q d hv hk => by
      obtain ⟨hq, y, hy, hs⟩ := hI.socketOf v k q d hv hk
      by_cases hd : d = c
      · subst hd
        refine ⟨hq, x, hself, ?_⟩
        rcases h.socket y hy with hx | ⟨hclosed, -⟩
        · exact hx.trans hs
        · exact absurd ⟨q, hk⟩ (hclosed v k hv)
      · exact ⟨hq, y, (hne hd).trans hy, hs⟩
    complete := fun p d hd he hp hc => by
      have hq : queuedBytes (s.setContext c (some x)) d = queuedBytes s d := by
        by_cases hdc : d = c
        · subst hdc
          exact (queuedBytes_of_quiet (s := s.setContext d (some x)) h.quiet).trans
            (queuedBytes_of_quiet h.quiet).symm
        · exact queuedBytes_congr (hne hdc) rfl
      rw [hq]
      exact hI.complete p d hd he hp hc
    receiveFrame := fun u d hf hd hn => by
      obtain ⟨v, k, p, hr⟩ := hI.receiveFrame u d hf hd hn
      exact ⟨v, k, p, h.registered hr⟩ }

/-- Thread `t` writes the context of a connection that it has in hand. -/
lemma Move.setContext (hI : Inv s) {x : SocketContext} (hc : c ∈ s.holds t)
    (h : Rewrites s c x) : Move (some t) s (s.setContext c (some x)) := by
  have hne : ∀ {d}, d ≠ c → (s.setContext c (some x)).contexts d = s.contexts d :=
    fun hd => Function.update_of_ne hd _ _
  have hthe : ∀ {l}, s.theSocketContext = some l → l ≠ c := by
    rintro l hl rfl
    exact h.client hl
  refine ⟨hI.setContext h, fun u hu => ?_, fun d v k p hr _ => h.registered hr⟩
  exact { Respects.refl u s with
    alone := fun _ h0 => absurd h0 h.running
    theContext := fun l y hl hy => ⟨y, (hne (hthe hl)).trans hy, .inl rfl⟩
    theSocket := fun _ l y hl hy => ⟨y, (hne (hthe hl)).trans hy, rfl⟩
    listenSock := fun _ l hl h => h.congr (hne (hthe hl)) (fun _ _ _ h => h) fun _ _ h => h
    kept := fun d hd => { Kept.refl d s with
      context := fun _ => hne fun hdc => hu (congrArg some (hI.single t u c hc (hdc ▸ hd))) }
    listener := fun l hl _ => { KeptListener.refl u l s with
      ioContext := fun y hy => ⟨y, (hne (hthe hl)).trans hy, rfl⟩ } }

/-! ## Freeing a context -/

/-- The state after `FREE`. -/
def withoutContext (s : State) (t : Tid) (c : ContextPtr) : State :=
  (s.setContext c none).setHolds t ((s.holds t).erase c)

lemma mem_erase_holds (hI : Inv s) (hc : c ∈ s.holds t) {u : Tid} :
    d ∈ Function.update s.holds t ((s.holds t).erase c) u ↔ d ∈ s.holds u ∧ d ≠ c := by
  by_cases hu : u = t
  · subst hu
    rw [Function.update_self, (hI.nodup u).mem_erase_iff, and_comm]
  · rw [Function.update_of_ne hu]
    refine ⟨fun hd => ⟨hd, ?_⟩, And.left⟩
    rintro rfl
    exact hu (hI.single u t d hd hc)

lemma nodup_erase_holds (hI : Inv s) (u : Tid) :
    (Function.update s.holds t ((s.holds t).erase c) u).Nodup := by
  by_cases hu : u = t
  · subst hu
    rw [Function.update_self]
    exact (hI.nodup u).erase c
  · rw [Function.update_of_ne hu]
    exact hI.nodup u

lemma Registered.ne_of_closed {w : SOCKET} (h : Registered s d w k p) (hc : Closed s c) :
    d ≠ c := by
  rintro rfl
  exact hc w k h.opened h.key

lemma Inv.freeContext (hI : Inv s) (hc : c ∈ s.holds t) (h0 : s.theSocketContext = none → t = .main)
    (hthe : s.theSocketContext ≠ some c) (hclosed : Closed s c) (hdrained : Drained s c)
    (hout : OutsideData t s) : Inv (withoutContext s t c) := by
  have hne : ∀ {d}, d ≠ c → (withoutContext s t c).contexts d = s.contexts d :=
    fun hd => Function.update_of_ne hd _ _
  have hself : (withoutContext s t c).contexts c = none := Function.update_self _ _ _
  have hquiet := hI.quiet t c hc
  have hl : ∀ {l}, s.theSocketContext = some l → l ≠ c := by
    rintro l h rfl
    exact hthe h
  have hcases : ∀ {d y}, (withoutContext s t c).contexts d = some y →
      d ≠ c ∧ s.contexts d = some y := by
    intro d y hy
    have hdc : d ≠ c := by
      rintro rfl
      exact nomatch hself.symm.trans hy
    exact ⟨hdc, (hne hdc).symm.trans hy⟩
  have hmem : ∀ {u d}, d ∈ (withoutContext s t c).holds u ↔ d ∈ s.holds u ∧ d ≠ c :=
    mem_erase_holds hI hc
  have hreg : ∀ {d v k p}, Registered s d v k p → Registered (withoutContext s t c) d v k p :=
    fun h => h.congr (hne (h.ne_of_closed hclosed)) id rfl rfl rfl rfl fun _ hy => hy
  exact { hI with
    freshContext := fun d hd => by
      by_cases hdc : d = c
      · exact hdc ▸ hself
      · exact (hne hdc).trans (hI.freshContext d hd)
    live := fun u d hd => by
      obtain ⟨hd, hdc⟩ := hmem.mp hd
      exact (hI.live u d hd).imp fun _ hy => (hne hdc).trans hy
    single := fun u w d hu hw => hI.single u w d (hmem.mp hu).1 (hmem.mp hw).1
    nodup := nodup_erase_holds (s := s) (c := c) hI
    quiet := fun u d hd => hI.quiet u d (hmem.mp hd).1
    worker := fun l u d hd => hI.worker l u d (hmem.mp hd).1
    placed := fun l d he hl hd hdl => by
      obtain ⟨y, hy⟩ := hd
      obtain ⟨hdc, hy⟩ := hcases hy
      exact (hI.placed l d he hl ⟨y, hy⟩ hdl).imp_left fun ⟨u, hu⟩ => ⟨u, hmem.mpr ⟨hu, hdc⟩⟩
    acceptOut := fun l h ho => by
      obtain ⟨hport, k, hk⟩ := hI.acceptOut l h ho
      exact ⟨hport, k, hk.congr (hne (hl h)) (fun _ h => h) rfl⟩
    acceptOp := fun l op hop h ho => by
      obtain ⟨k, hk, hrest⟩ := hI.acceptOp l op hop h ho
      exact ⟨k, hk.congr (hne (hl h)) (fun _ h => h) rfl, hrest⟩
    acceptPacket := fun l k pkt hpkt h ho hk => by
      have hl' := hne (hl h)
      rw [packetBytes_congr fun d hd => Option.some.inj (ho.symm.trans hd) ▸ hl']
      exact hI.acceptPacket l k pkt hpkt h ho (hk.congr hl'.symm (fun _ h => h) rfl)
    clientOut := fun l d h hdl ho => by
      obtain ⟨hd, ⟨y, hy, hrecv⟩, v, k, p, hr⟩ := hI.clientOut l d h hdl ho
      exact ⟨hd, ⟨y, (hne (hr.ne_of_closed hclosed)).trans hy, hrecv⟩, v, k, p, hreg hr⟩
    theLive := fun l h => (hI.theLive l h).imp fun _ hy => (hne (hl h)).trans hy
    kind := fun l d y h hy => hI.kind l d y h (hcases hy).2
    listenSock := fun l h => (hI.listenSock l h).imp_left
      fun hs => hs.congr (hne (hl h)) (fun _ _ _ h => h) fun _ _ h => h
    otherSocket := fun l y d z h hy hz => hI.otherSocket l y d z h (hcases hy).2 (hcases hz).2
    idle := fun hn => by
      obtain ⟨hp, hq, hh, hrest⟩ := hI.idle hn
      refine ⟨hp, hq, fun u hu => ?_, hrest⟩
      exact (Function.update_of_ne (h0 hn ▸ hu) _ _).trans (hh u hu)
    mapped := fun v o hv => by
      obtain ⟨d, k, p, ho, hr⟩ := hI.mapped v o hv
      exact ⟨d, k, p, ho, hreg hr⟩
    socketOf := fun v k q d hv hk => by
      obtain ⟨hq, y, hy, hs⟩ := hI.socketOf v k q d hv hk
      have hdc : d ≠ c := by
        rintro rfl
        exact hclosed v k hv ⟨q, hk⟩
      exact ⟨hq, y, (hne hdc).trans hy, hs⟩
    complete := fun p d hd he hp hnot => by
      by_cases hdc : d = c
      · subst hdc
        rw [queuedBytes_of_quiet (s := withoutContext s t d) hquiet]
        exact hdrained p hd hp
      · rw [show queuedBytes (withoutContext s t c) d = queuedBytes s d from
          queuedBytes_congr (hne hdc) rfl]
        exact hI.complete p d hd he hp fun u hu => hnot u (hmem.mpr ⟨hu, hdc⟩)
    callbackFrame := fun u p hp => by
      obtain ⟨d, hd, hm⟩ := hI.callbackFrame u p hp
      refine ⟨d, hmem.mpr ⟨hd, ?_⟩, hm⟩
      rintro rfl
      obtain rfl := hI.single u t d hd hc
      exact hout _ hp
    receiveFrame := fun u d hf hd hn => by
      obtain ⟨v, k, p, hr⟩ := hI.receiveFrame u d hf (hmem.mp hd).1 hn
      exact ⟨v, k, p, hreg hr⟩
    acceptFrame := fun u l h hd => hI.acceptFrame u l h (hmem.mp hd).1
    armed := fun l h he hn => (hI.armed l h he hn).imp_left
      fun ⟨u, hu⟩ => ⟨u, hmem.mpr ⟨hu, hl h⟩⟩ }

lemma Move.freeContext (hI : Inv s) (hA : Allowed t (.freeContext c) s) :
    Move (some t) s (withoutContext s t c) := by
  obtain ⟨hc, hS, hclosed, hdrained, hout, -⟩ := hA
  have hne : ∀ {d}, d ≠ c → (withoutContext s t c).contexts d = s.contexts d :=
    fun hd => Function.update_of_ne hd _ _
  refine ⟨hI.freeContext hc ?_ ?_ hclosed hdrained hout, fun u hu => ?_,
    fun d v k p h _ => h.congr (hne (h.ne_of_closed hclosed)) id rfl rfl rfl rfl fun _ hy => hy⟩
  · intro h0
    rcases hS with ⟨rfl, -⟩ | ⟨-, l, hl, -⟩
    · rfl
    · exact nomatch h0.symm.trans hl
  · rcases hS with ⟨-, h0⟩ | ⟨-, l, hl, hcl⟩
    · rw [h0]
      nofun
    · rw [hl]
      exact fun h => hcl (Option.some.inj h).symm
  · have hut : u ≠ t := fun h => hu (congrArg some h.symm)
    have hh : (withoutContext s t c).holds u = s.holds u := Function.update_of_ne hut _ _
    rcases hS with hS | ⟨-, l, hl, hcl⟩
    · exact .of_starting hI hS hut hh
    · have hthe : ∀ {l'}, s.theSocketContext = some l' → l' ≠ c := fun h' =>
        Option.some.inj (hl.symm.trans h') ▸ hcl.symm
      exact { Respects.refl u s with
        alone := fun _ h0 => nomatch h0.symm.trans hl
        theContext := fun l' y hl' hy => ⟨y, (hne (hthe hl')).trans hy, .inl rfl⟩
        theSocket := fun _ l' y hl' hy => ⟨y, (hne (hthe hl')).trans hy, rfl⟩
        listenSock := fun _ l' hl' h =>
          h.congr (hne (hthe hl')) (fun _ _ _ h => h) fun _ _ h => h
        holds := hh
        kept := fun d hd => { Kept.refl d s with
          context := fun _ => hne fun hdc => hut (hI.single u t c (hdc ▸ hd) hc) }
        listener := fun l' hl' _ => { KeptListener.refl u l' s with
          ioContext := fun y hy => ⟨y, (hne (hthe hl')).trans hy, rfl⟩ } }

/-! ## Writing the listening context -/

/-- A new value for the listening context.  What it accepts into may change only while nothing is
outstanding, and its socket only by being closed. -/
structure RewritesThe (s : State) (l : ContextPtr) (x : SocketContext) : Prop where
  the : s.theSocketContext = some l
  kind : x.ioContext.lastOperation = .ioAccept
  socket : ∀ y, s.contexts l = some y → x.socket = y.socket ∨ Closed s l ∧ x.socket = invalidSocket
  ioContext : ∀ y, s.contexts l = some y → s.outstanding l ≠ 0 → x.ioContext = y.ioContext

lemma Inv.setThe (hI : Inv s) {x : SocketContext} (h : RewritesThe s l x) :
    Inv (s.setContext l (some x)) := by
  obtain ⟨y, hy⟩ := hI.theLive l h.the
  have hne : ∀ {d}, d ≠ l → (s.setContext l (some x)).contexts d = s.contexts d :=
    fun hd => Function.update_of_ne hd _ _
  have hself : (s.setContext l (some x)).contexts l = some x := Function.update_self _ _ _
  have hthe : ∀ {l'}, s.theSocketContext = some l' → l' = l := fun h' =>
    Option.some.inj (h'.symm.trans h.the)
  have hlive : ∀ {d}, Live s d → Live (s.setContext l (some x)) d := by
    rintro d ⟨z, hz⟩
    by_cases hd : d = l
    · exact ⟨x, hd ▸ hself⟩
    · exact ⟨z, (hne hd).trans hz⟩
  have hreg : ∀ {d v k p}, Registered s d v k p →
      Registered (s.setContext l (some x)) d v k p := by
    intro d v k p hr
    have hdl : d ≠ l := by
      rintro rfl
      exact hI.ne_the hr.madeFor h.the
    exact hr.congr (hne hdl) id rfl rfl rfl rfl fun _ hz => hz
  have hready : ∀ {k}, s.outstanding l ≠ 0 →
      (AcceptReady (s.setContext l (some x)) l k ↔ AcceptReady s l k) := by
    intro k ho
    have hio := h.ioContext y hy ho
    obtain ⟨-, k', ⟨y', hy', hopen, hnot⟩, -⟩ := hI.acceptOut l h.the ho
    obtain rfl := Option.some.inj (hy.symm.trans hy')
    refine and_congr_left fun _ => ⟨fun ⟨z, hz, hzk, hzs⟩ => ?_, fun ⟨z, hz, hzk, hzs⟩ => ?_⟩
    · obtain rfl := Option.some.inj (hself.symm.trans hz)
      exact ⟨y, hy, hio ▸ hzk, hnot⟩
    · obtain rfl := Option.some.inj (hy.symm.trans hz)
      refine ⟨x, hself, hio.symm ▸ hzk, hio.symm ▸ ?_⟩
      rcases h.socket y hy with hs | ⟨-, hs⟩
      · rwa [hs]
      · rw [hs]
        intro he
        rw [he, hI.invalid] at hzk
        cases hzk
  exact { hI with
    freshContext := fun d hd => by
      have hdl : d ≠ l := by
        rintro rfl
        exact Nat.lt_irrefl _ (Nat.lt_of_lt_of_le (hI.lt_of_live ⟨y, hy⟩) hd)
      exact (hne hdl).trans (hI.freshContext d hd)
    live := fun u d hd => hlive (hI.live u d hd)
    placed := fun l' d he hl' hd hdl => by
      obtain rfl := hthe hl'
      exact hI.placed l' d he hl' (hd.imp fun _ hz => (hne hdl).symm.trans hz) hdl
    acceptOut := fun l' hl' ho => by
      obtain rfl := hthe hl'
      obtain ⟨hport, k, hk⟩ := hI.acceptOut l' hl' ho
      exact ⟨hport, k, (hready ho).mpr hk⟩
    acceptOp := fun l' op hop hl' ho => by
      obtain rfl := hthe hl'
      obtain ⟨k, hk, hrest⟩ := hI.acceptOp l' op hop hl' ho
      exact ⟨k, (hready (outstanding_of_op hop ho)).mpr hk, hrest⟩
    acceptPacket := fun l' k pkt hpkt hl' ho hk => by
      obtain rfl := hthe hl'
      have hout := outstanding_of_packet hpkt ho
      have hbytes : packetBytes (s.setContext l' (some x)) pkt = packetBytes s pkt := by
        unfold packetBytes
        simp only [ho, hself, hy, h.ioContext y hy hout]
      rw [hbytes]
      exact hI.acceptPacket l' k pkt hpkt hl' ho ((hready hout).mp hk)
    clientOut := fun l' d hl' hdl ho => by
      obtain rfl := hthe hl'
      obtain ⟨hd, ⟨z, hz, hrecv⟩, v, k, p, hr⟩ := hI.clientOut l' d hl' hdl ho
      exact ⟨hd, ⟨z, (hne hdl).trans hz, hrecv⟩, v, k, p, hreg hr⟩
    theLive := fun l' hl' => hlive (hI.theLive l' hl')
    kind := fun l' d z hl' hz => by
      obtain rfl := hthe hl'
      by_cases hd : d = l'
      · subst hd
        obtain rfl := Option.some.inj (hself.symm.trans hz)
        exact iff_of_true h.kind rfl
      · exact hI.kind l' d z hl' ((hne hd).symm.trans hz)
    listenSock := fun l' hl' => by
      obtain rfl := hthe hl'
      refine (hI.listenSock l' hl').imp_left fun ⟨z, hz, hs⟩ => ⟨x, hself, ?_⟩
      obtain rfl := Option.some.inj (hy.symm.trans hz)
      rcases h.socket y hy with hx | ⟨-, hx⟩
      · rw [hx]
        exact hs
      · exact .inl hx
    otherSocket := fun l' w d z hl' hw hz hdl hv => by
      obtain rfl := hthe hl'
      obtain rfl := Option.some.inj (hself.symm.trans hw)
      rcases h.socket y hy with hx | ⟨-, hx⟩
      · rw [hx]
        exact hI.otherSocket l' y d z hl' hy ((hne hdl).symm.trans hz) hdl hv
      · rwa [hx]
    mapped := fun v o hv => by
      obtain ⟨d, k, p, ho, hr⟩ := hI.mapped v o hv
      exact ⟨d, k, p, ho, hreg hr⟩
    socketOf := fun v k q d hv hk => by
      obtain ⟨hq, z, hz, hs⟩ := hI.socketOf v k q d hv hk
      by_cases hd : d = l
      · subst hd
        obtain rfl := Option.some.inj (hy.symm.trans hz)
        refine ⟨hq, x, hself, ?_⟩
        rcases h.socket y hy with hx | ⟨hclosed, -⟩
        · exact hx.trans hs
        · exact absurd ⟨q, hk⟩ (hclosed v k hv)
      · exact ⟨hq, z, (hne hd).trans hz, hs⟩
    complete := fun p d hd he hp hc => by
      have hdl : d ≠ l := by
        rintro rfl
        exact hI.ne_the hp h.the
      rw [show queuedBytes (s.setContext l (some x)) d = queuedBytes s d from
        queuedBytes_congr (hne hdl) rfl]
      exact hI.complete p d hd he hp hc
    receiveFrame := fun u d hf hd hn => by
      obtain ⟨v, k, p, hr⟩ := hI.receiveFrame u d hf hd hn
      exact ⟨v, k, p, hreg hr⟩ }

/-- The listening context is written: by the thread that has it in hand, or by the main thread
when it has closed the socket. -/
lemma Move.setThe (hI : Inv s) {x : SocketContext} (h : RewritesThe s l x)
    (hS : l ∈ s.holds t ∧ (∀ y, s.contexts l = some y → x.socket = y.socket) ∨
      t = .main ∧ ∀ y, s.contexts l = some y → x.ioContext = y.ioContext) :
    Move (some t) s (s.setContext l (some x)) := by
  have hne : ∀ {d}, d ≠ l → (s.setContext l (some x)).contexts d = s.contexts d :=
    fun hd => Function.update_of_ne hd _ _
  have hself : (s.setContext l (some x)).contexts l = some x := Function.update_self _ _ _
  have hthe : ∀ {l'}, s.theSocketContext = some l' → l' = l := fun h' =>
    Option.some.inj (h'.symm.trans h.the)
  refine ⟨hI.setThe h, fun u hu => ?_, fun d v k p hr _ => ?_⟩
  · have hut : u ≠ t := fun h => hu (congrArg some h.symm)
    have hmain : u = .main → ∀ y, s.contexts l = some y → x.socket = y.socket := by
      rintro rfl
      rcases hS with ⟨-, hs⟩ | ⟨rfl, -⟩
      · exact hs
      · exact absurd rfl hut
    exact { Respects.refl u s with
      alone := fun _ h0 => nomatch h0.symm.trans h.the
      theContext := fun l' y hl' hy => by
        obtain rfl := hthe hl'
        exact ⟨x, hself, (h.socket y hy).imp_right And.right⟩
      theSocket := fun hm l' y hl' hy => by
        obtain rfl := hthe hl'
        exact ⟨x, hself, hmain hm y hy⟩
      listenSock := fun hm l' hl' ⟨y, hy, hs⟩ => by
        obtain rfl := hthe hl'
        refine ⟨x, hself, ?_⟩
        rw [hmain hm y hy]
        exact hs
      kept := fun d hd => { Kept.refl d s with
        context := fun hdl => hne (by rintro rfl; exact hdl h.the) }
      listener := fun l' hl' hc => by
        obtain rfl := hthe hl'
        rcases hS with ⟨hc', -⟩ | ⟨-, hio⟩
        · exact absurd (hI.single u t l' hc hc') hut
        · exact { KeptListener.refl u l' s with ioContext := fun y hy => ⟨x, hself, hio y hy⟩ } }
  · have hdl : d ≠ l := by
      rintro rfl
      exact hI.ne_the hr.madeFor h.the
    exact hr.congr (hne hdl) id rfl rfl rfl rfl fun _ hz => hz

end Server

end Alpl.Net
