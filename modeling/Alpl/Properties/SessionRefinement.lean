import Alpl.Client.Custody
import Alpl.Handler.Sockets
import Alpl.Sessions.Represents

/-!
# A server is what it is for

Every run of a server shows its user what a run of the abstract sessions shows, and ends in a state
whose connection objects the sessions stand for; so does every run of a client, which has one
session that nobody ever takes leave of.  The threads, their interleaving, the buffers, the
completion queue and the values of the sockets are gone from the picture.

What is proved of the sessions is then true of the connections: whoever has been told of the end of
a connection whose context is freed was given all of its bytes before.
-/

namespace Alpl.Net

open Interleaving Sessions

/-! ## A server -/

namespace Server

/-- A reached configuration with what is known of its threads. -/
structure Tracked (u : Setup) (G : Config Action Action.Res State Tid Label) : Prop where
  reachable : Reachable .server u G
  telling : ∃ σ, (∀ t, stages.OnTrack (G.threads t) (σ t)) ∧ Telling σ G.state
  keyed : ∃ σ, (∀ t, pointers.OnTrack (G.threads t) (σ t)) ∧ Keyed σ G.state

lemma tracked {u : Setup} {G : Config Action Action.Res State Tid Label}
    (hG : Reachable .server u G) : Tracked u G := by
  refine ⟨hG, ?_, exists_keyed hG⟩
  obtain ⟨G₀, h0, hr⟩ := hG
  cases h0
  exact (telling_keeps u).sound (fun G' hr' => ⟨_, .server, hr'⟩) hr (onTrack_init u)
    (telling_init u)

section Act

variable {u : Setup} {G : Config Action Action.Res State Tid Label} {t : Tid} {a : Action}
variable {k : a.Res → P (Option Label)} {o : Outcome} {r : a.Res} {s' : State}
variable {σ : Table ConnectionPtr UInt8} {p : ConnectionPtr}

/-- A context that belonged to a connection stays as alive as it is, unless it is freed. -/
lemma live_exec_iff (hG : Reachable .server u G) (he : exec t a o G.state = some (r, s'))
    {c : ContextPtr} (hp : MadeFor G.state p c) (ha : a ≠ .freeContext c) :
    Live s' c ↔ Live G.state c := by
  refine ⟨fun h => ?_, fun ⟨x, hx⟩ => ((exec_contextEffect _ he).live c x hx).resolve_right ha⟩
  have hlt : c < G.state.nextContext := by
    obtain ⟨y, hy, hc⟩ := hp
    obtain ⟨d, hd, hyd, -⟩ := hG.server.ok.inv.objectOf p y hy
    rwa [← Option.some.inj (hc.symm.trans hyd)] at hd
  by_contra hdead
  have hnone : G.state.contexts c = none := by
    by_contra hsome
    exact hdead (Option.ne_none_iff_exists'.mp hsome)
  obtain ⟨x, hx⟩ := h
  rw [(exec_footprint _ he).gone c (Nat.ne_of_lt hlt) hnone] at hx
  cases hx

lemma sameSession_of_exec (hG : Reachable .server u G) (he : exec t a o G.state = some (r, s'))
    (hobject : s'.tcpConnections p = G.state.tcpConnections p) (hstory : SameStory G.state s' p)
    (hfree : Told G.state p → ∀ c, MadeFor G.state p c → a ≠ .freeContext c) :
    SameSession .server G.state s' p where
  object := hobject
  carries k := by
    rintro ⟨c, ⟨y, hy, hc⟩, hk⟩
    refine ⟨⟨c, ⟨y, hobject.trans hy, hc⟩, keyOf_exec hG he hk⟩, stream_of_exec (fun _ => ?_) he⟩
    rintro rfl
    obtain ⟨q, hq⟩ := hk
    rw [hG.server.ok.inv.freshSocket _ (Nat.le_refl _)] at hq
    cases hq
  delivered := hstory.delivered
  told := hstory.told
  released ht := by
    have hmade : ∀ c, MadeFor s' p c ↔ MadeFor G.state p c := fun c => by
      rw [MadeFor, MadeFor, hobject]
    refine forall_congr' fun c => ?_
    rw [hmade]
    exact forall_congr' fun hp => not_congr (live_exec_iff hG he hp (hfree ht c hp))

/-- The bytes of a connection, as its session has them. -/
lemma rest_eq {c : ContextPtr} {rest : List UInt8} {x : Session UInt8}
    (hS : Stands .server G.state p x) (hp : MadeFor G.state p c) (h : Pending G.state p c rest) :
    x.given ++ rest = x.arrived := by
  obtain ⟨k, ⟨d, hd, hk⟩, hx⟩ := hS.arrived
  obtain rfl := hp.context_eq hd
  rw [hS.given, hx]
  exact h k hk

variable (hG : Tracked u G) (hx : G.threads t = .running (.act a k))
variable (he : exec t a o G.state = some (r, s')) (hσ : Represents .server G.state σ)
include hG hx he hσ

/-- A new connection object: a peer has connected. -/
lemma matched_newConnection {y : TcpConnection} (ha : a = .newConnection y) :
    Matched (Sessions.step u.handlers.onDataReceived) State.shown (Represents .server) G.state σ
      s' := by
  subst ha
  obtain ⟨hshown, hstory⟩ := quiet_of_exec rfl he
  have hI := hG.reachable.server.ok.inv
  have hfresh := hG.reachable.handler.ok.inv.unnamed _ (Nat.le_refl _)
  obtain ⟨τ, htrack, hkeyed⟩ := hG.keyed
  have ht := htrack t
  rw [hx] at ht
  have ha : y.overlapped = (τ t).listed ∧ (τ t).listed ≠ none := by simpa using ht.1
  obtain ⟨c, hc⟩ := Option.ne_none_iff_exists'.mp ha.2
  obtain ⟨j, hj⟩ := hkeyed.listed t c hc
  have hobjects : s'.tcpConnections =
      Function.update G.state.tcpConnections G.state.nextConnection (some y) := by
    cases o <;> cases he
    rfl
  have hmade : MadeFor s' G.state.nextConnection c :=
    ⟨y, by rw [hobjects, Function.update_self], ha.1.trans hc⟩
  have huntold : ¬ Told G.state G.state.nextConnection := by
    intro htold
    obtain ⟨σ', -, hσ'⟩ := hG.telling
    obtain ⟨v, data, hm⟩ := mem_callbacksIn htold
    obtain ⟨q, d, hq, ⟨z, hz, -⟩, -⟩ := hσ'.told v _ data hm
    cases hq
    cases hfresh.symm.trans hz
  refine .inr ⟨none, _, .connect ((s'.sockets j).stream) ((hσ.absent _).mpr hfresh), hshown,
    hσ.update (fun q hq => ?_) ?_ ?_⟩
  · refine sameSession_of_exec hG.reachable he ?_ (hstory q) fun _ _ _ => by simp
    rw [hobjects, Function.update_of_ne hq]
  · rw [hobjects, Function.update_self]
    simp
  · have htold := (hstory G.state.nextConnection).told
    refine ⟨⟨j, ⟨c, hmade, keyOf_exec hG.reachable he hj⟩, rfl⟩, ?_, ?_, ?_⟩
    · rw [(hstory _).delivered, hI.freshDelivered _ (Nat.le_refl _)]
    · simpa [htold] using huntold
    · simp [htold, huntold]

/-- A context is freed: if the user was told before, the session closes. -/
lemma matched_freeContext {c : ContextPtr} (ha : a = .freeContext c) :
    Matched (Sessions.step u.handlers.onDataReceived) State.shown (Represents .server) G.state σ
      s' := by
  subst ha
  obtain ⟨hshown, hstory⟩ := quiet_of_exec rfl he
  have hI := hG.reachable.server.ok.inv
  obtain ⟨hc, -, -, hdrained, -⟩ := hG.reachable.server.allowed hx
  have hobjects := objects_of_exec he (by simp)
  have hsame : ∀ q, (Told G.state q → ¬ MadeFor G.state q c) →
      SameSession .server G.state s' q := fun q hq =>
    sameSession_of_exec hG.reachable he (by rw [hobjects]) (hstory q) fun ht d hd hcd => by
      cases hcd
      exact hq ht hd
  by_cases hp : ∃ p, MadeFor G.state p c ∧ Told G.state p
  · obtain ⟨p, hmade, htold⟩ := hp
    obtain ⟨y, hy, hyc⟩ := id hmade
    obtain ⟨x, hxp, hS⟩ := hσ.exists_session (p := p) (by simp [hy])
    have hlive : ¬ ContextFreed G.state p := fun h => h c hmade (hI.live t c hc)
    have hphase : x.phase = .told := by
      have hl := hS.live
      have hcl := hS.closed
      cases hph : x.phase <;> simp_all
    have hall : u.handlers.onDataReceived = true → x.given = x.arrived := fun hu => by
      have hrest := hdrained p (hG.reachable.setUp.handlers ▸ hu) hmade
      simpa using rest_eq hS hmade hrest
    refine .inr ⟨none, _, .close hxp hphase hall, hshown, hσ.update (fun q hq => ?_) ?_ ?_⟩
    · exact hsame q fun _ hqc => hq (hI.objectUnique q p c hqc hmade)
    · simp [hobjects, hy]
    · obtain ⟨k, ⟨d, hd, hk⟩, harrived⟩ := hS.arrived
      have hstream : (s'.sockets k).stream = (G.state.sockets k).stream := by
        obtain ⟨z, -, rfl⟩ := exec_freeContext he
        rfl
      refine ⟨⟨k, ⟨d, ?_, keyOf_exec hG.reachable he hk⟩, harrived.trans hstream.symm⟩,
        hS.given.trans (hstory p).delivered.symm, ?_, ?_⟩
      · rwa [MadeFor, hobjects]
      · simp [(hstory p).told, htold]
      · simp only [(hstory p).told, htold, true_and, true_iff]
        rintro d' hd' ⟨z, hz⟩
        rw [MadeFor, hobjects] at hd'
        obtain rfl := hmade.context_eq hd'
        rw [(exec_contextEffect _ he).freed _ rfl] at hz
        cases hz
  · exact .inl ⟨hshown, hσ.same fun q => hsame q fun ht hq => hp ⟨q, hq, ht⟩⟩

omit hx in
/-- A notice of connection `p`: the other sessions go on, and the connection is what it was but for
what was shown. -/
lemma matched_notice {c : ContextPtr} {n : Notice (Option ConnectionPtr) UInt8}
    {x x' : Session UInt8} (ha : a.reads = true) (hmade : MadeFor G.state p c) (hxp : σ p = some x)
    {rec : Record} (hhistory : s'.history = rec :: G.state.history) (hrec : rec.notice = some n)
    (hn : n.sender = some p)
    (hstep : Sessions.step u.handlers.onDataReceived σ (some n) (Function.update σ p (some x')))
    (harrived : x'.arrived = x.arrived) (hgiven : x'.given = s'.delivered p)
    (hphase : x'.phase = .live ∧ ¬ Told s' p ∨ x'.phase = .told ∧ Told s' p)
    (hlive : Live G.state c) :
    Matched (Sessions.step u.handlers.onDataReceived) State.shown (Represents .server) G.state σ
      s' := by
  have hM := exec_sameMemory ha _ he
  obtain ⟨k, ⟨d, hd, hk⟩, hS⟩ := (hσ.present p x hxp).arrived
  have hmade' : MadeFor s' p c := by rwa [MadeFor, hM.tcpConnections]
  have hnot : ¬ ContextFreed s' p := fun h => h c hmade' (by rwa [Live, hM.contexts])
  refine .inr ⟨some n, _, hstep, ?_, hσ.update (fun q hq => ?_) ?_
    ⟨⟨k, ⟨d, ?_, ?_⟩, ?_⟩, hgiven, ?_, ?_⟩⟩
  · rw [State.shown, hhistory, List.filterMap_cons_some hrec]
    rfl
  · refine sameSession_of_exec hG.reachable he (by rw [hM.tcpConnections])
      (sameStory_of_record hhistory fun m hm => ?_) fun _ _ _ h => by rw [h] at ha; cases ha
    rw [hrec] at hm
    cases hm
    rw [hn]
    exact fun h => hq (Option.some.inj h).symm
  · obtain ⟨y, hy, -⟩ := hmade'
    simp [hy]
  · rwa [MadeFor, hM.tcpConnections]
  · rwa [KeyOf, hM.sockets]
  · rw [harrived, hS, hM.sockets]
  · rcases hphase with ⟨h, ht⟩ | ⟨h, ht⟩ <;> simp [h, ht]
  · rcases hphase with ⟨h, ht⟩ | ⟨h, ht⟩ <;> simp [h, ht, hnot]

omit hx in
/-- A move that shows nothing, and neither makes a connection nor frees a context. -/
lemma matched_same (hobjects : ∀ y, a ≠ .newConnection y) (hfree : ∀ c, a ≠ .freeContext c)
    (hshown : s'.shown = G.state.shown) (hstory : ∀ p, SameStory G.state s' p) :
    Matched (Sessions.step u.handlers.onDataReceived) State.shown (Represents .server) G.state σ
      s' :=
  .inl ⟨hshown, hσ.same fun q => sameSession_of_exec hG.reachable he
    (by rw [objects_of_exec he hobjects]) (hstory q) fun _ c _ => hfree c⟩

/-- `onDisconnected` is called: the user is told. -/
lemma matched_invokeHandler {kind : CallbackKind} {q : Option ConnectionPtr} {data : List UInt8}
    (ha : a = .invokeHandler kind q data) :
    Matched (Sessions.step u.handlers.onDataReceived) State.shown (Represents .server) G.state σ
      s' := by
  subst ha
  obtain ⟨τ, htrack, hτ⟩ := hG.telling
  have hI := hG.reachable.server.ok.inv
  have ht := htrack t
  rw [hx] at ht
  obtain ⟨rfl, p, c, rfl, hmade, hc, hin⟩ := hτ.caller ht.1 (hG.reachable.server.allowed hx)
  have hcalled : exec.invoke t .onDisconnected (some p) data
      (G.state.handlers.isSet .onDisconnected) G.state = (r, s') := by
    cases o <;> first | cases he | exact Option.some.inj he
  rcases history_of_invoke hcalled with ⟨-, hhistory⟩ | hhistory
  · obtain ⟨y, hy, -⟩ := id hmade
    obtain ⟨x, hxp, hS⟩ := hσ.exists_session (p := p) (by simp [hy])
    have huntold : ¬ Told G.state p := hτ.untold hI hc hmade (by simp [hin])
    refine matched_notice hG he hσ rfl hmade hxp hhistory rfl rfl
      (.tell hxp (hS.live.mpr huntold)) rfl ?_ (.inr ⟨rfl, ?_⟩) (hI.live t c hc)
    · simp [hS.given, State.delivered, hhistory, State.deliveredIn, State.dataFor]
    · simp [Told, hhistory, callbacksIn, Record.about]
  · have hquiet : ∀ n, (Record.emptyCall t .onDisconnected).notice = some n → False :=
      fun n hn => by cases hn
    refine matched_same hG he hσ (by simp) (by simp) ?_ fun q =>
      sameStory_of_record hhistory fun n hn => (hquiet n hn).elim
    rw [State.shown, State.shown, hhistory]
    rfl

/-- A function object of a connection is called: the user is given what is left. -/
lemma matched_invokeConnection {q : ConnectionPtr} {kind : CallbackKind}
    {p : Option ConnectionPtr} {data : List UInt8} (ha : a = .invokeConnection q kind p data) :
    Matched (Sessions.step u.handlers.onDataReceived) State.shown (Represents .server) G.state σ
      s' := by
  subst ha
  obtain ⟨τ, htrack, hτ⟩ := hG.telling
  have hI := hG.reachable.server.ok.inv
  have ht := htrack t
  rw [hx] at ht
  have hstage : (τ t).allows (.invokeConnection q kind p data) = true := ht.1
  by_cases hkind : kind = .onSentCompleted
  · subst hkind
    obtain ⟨hshown, hstory⟩ := quiet_of_exec (by simp [Action.notifies]) he
    exact matched_same hG he hσ (by simp) (by simp) hshown hstory
  obtain rfl : kind = .onDataReceived := by
    cases hq : τ t <;> rw [hq] at hstage <;> first
      | cases hstage
      | (cases kind <;> simp_all)
  obtain ⟨p, c, rfl, ⟨hc, -⟩, hmade, hpending⟩ := hG.reachable.server.allowed hx rfl
  obtain ⟨y, hy, hcalled⟩ := exec_invokeConnection he
  rcases history_of_invoke hcalled with ⟨hset, hhistory⟩ | hhistory
  · obtain ⟨z, hz, -⟩ := id hmade
    obtain ⟨x, hxp, hS⟩ := hσ.exists_session (p := p) (by simp [hz])
    have huntold : ¬ Told G.state p := hτ.untold hI hc hmade fun hq => by
      rw [hq] at hstage
      cases hstage
    have hwants : u.handlers.onDataReceived = true := by
      rw [← hG.reachable.setUp.handlers, ← (hG.reachable.handler.ok.inv.objects q y hy).2]
      exact hset
    have hrest := rest_eq hS hmade hpending
    have hlive := hS.live.mpr huntold
    refine matched_notice hG he hσ rfl hmade hxp hhistory rfl rfl
      (.give data hwants hxp hlive hrest) rfl ?_ (.inl ⟨hlive, ?_⟩) (hI.live t c hc)
    · simp [← hrest, hS.given, State.delivered, hhistory, State.deliveredIn, State.dataFor]
    · simpa [Told, hhistory, callbacksIn, Record.about] using huntold
  · refine matched_same hG he hσ (by simp) (by simp) ?_ fun q =>
      sameStory_of_record hhistory fun n hn => by cases hn
    rw [State.shown, State.shown, hhistory]
    rfl

/-- Every action is matched. -/
lemma matched_act :
    Matched (Sessions.step u.handlers.onDataReceived) State.shown (Represents .server) G.state σ
      s' := by
  by_cases hnew : ∃ y, a = .newConnection y
  · obtain ⟨y, ha⟩ := hnew
    exact matched_newConnection hG hx he hσ ha
  by_cases hfree : ∃ c, a = .freeContext c
  · obtain ⟨c, ha⟩ := hfree
    exact matched_freeContext hG hx he hσ ha
  by_cases hnotifies : a.notifies = false
  · obtain ⟨hshown, hstory⟩ := quiet_of_exec hnotifies he
    exact matched_same hG he hσ (fun y h => hnew ⟨y, h⟩) (fun c h => hfree ⟨c, h⟩) hshown hstory
  cases a <;> first
    | exact absurd rfl hnotifies
    | skip
  case invokeHandler kind q data => exact matched_invokeHandler hG hx he hσ rfl
  case invokeConnection q kind p data => exact matched_invokeConnection hG hx he hσ rfl

end Act

/-! ### The network -/

/-- Every move of the network completes an operation. -/
lemma landed_of_osStep {s s' : State} {e : OsEvent} (hI : Inv s) (he : osStep e s = some s') :
    ∃ op j ok bytes, op ∈ s.pending ∧ Fills op j ∧ s' = landed s op j ok bytes := by
  obtain ⟨op, bytes, rfl, hop, -, rfl⟩ | ⟨op, rfl, hop, rfl⟩ := osStep_cases he
  · obtain ⟨j, hj⟩ := exists_fills hI hop
    have hkey : ((({ s with pending := s.pending.erase op } : State).fill j op.overlapped
        bytes).sockets op.sock).assoc = some (s.workersPort, op.overlapped) :=
      (landed_assoc s op j true bytes op.sock).trans (hI.opKey op hop)
    refine ⟨op, j, true, bytes, hop, hj, ?_⟩
    rw [receiveData_eq hj, postPacket_eq hkey]
    rfl
  · obtain ⟨j, hj⟩ := exists_fills hI hop
    refine ⟨op, j, false, [], hop, hj, ?_⟩
    rw [postPacket_eq (s := { s with pending := s.pending.erase op }) (hI.opKey op hop), landed,
      fill_nil]
    rfl

section Landing

variable {s : State} {op : PendingOp} {j : SockId} {ok : Bool} {bytes : List UInt8}
variable {p : ConnectionPtr}

lemma live_landed_iff {c : ContextPtr} : Live (landed s op j ok bytes) c ↔ Live s c := by
  constructor
  · rintro ⟨y, hy⟩
    obtain ⟨x, hx, -⟩ := context_of_landed hy
    exact ⟨x, hx⟩
  · rintro ⟨x, hx⟩
    obtain ⟨y, hy, -⟩ := landed_context op j ok bytes hx
    exact ⟨y, hy⟩

/-- A completion concerns the connection whose stream it fills only. -/
lemma sameSession_landed (hp : ∀ c, MadeFor s p c → ¬ KeyOf s j c) :
    SameSession .server s (landed s op j ok bytes) p where
  object := rfl
  carries k := by
    rintro ⟨c, hc, hk⟩
    refine ⟨⟨c, hc, landed_key.mpr hk⟩, ?_⟩
    rw [landed_sockets]
    rintro rfl
    exact hp c hc hk
  delivered := rfl
  told := Iff.rfl
  released _ := forall_congr' fun c => forall_congr' fun _ => not_congr live_landed_iff

/-- Every move of the network is matched: bytes of a connection arrive, or those that come with an
accept, which belong to no connection yet. -/
lemma matched_osStep {u : Setup} {G : Config Action Action.Res State Tid Label} {e : OsEvent}
    {s' : State} {σ : Table ConnectionPtr UInt8} (hG : Tracked u G)
    (he : osStep e G.state = some s') (hσ : Represents .server G.state σ) :
    Matched (Sessions.step u.handlers.onDataReceived) State.shown (Represents .server) G.state σ
      s' := by
  have hI := hG.reachable.server.ok.inv
  obtain ⟨op, j, ok, bytes, hop, hj, rfl⟩ := landed_of_osStep hI he
  have hthe : G.state.theSocketContext ≠ none := fun h => List.not_mem_nil ((hI.idle h).1 ▸ hop)
  obtain ⟨l, hl⟩ := Option.ne_none_iff_exists'.mp hthe
  by_cases hkey : ∃ p c, MadeFor G.state p c ∧ KeyOf G.state j c
  · obtain ⟨p, c, hmade, hk⟩ := hkey
    obtain ⟨rfl, hne⟩ := key_of_fills hI hop hj hl hk
    obtain ⟨-, ⟨z, hz, -⟩, -⟩ := hI.clientOut l _ hl hne (outstanding_of_op hop rfl)
    obtain ⟨y, hy, -⟩ := id hmade
    obtain ⟨x, hxp, hS⟩ := hσ.exists_session (p := p) (by simp [hy])
    have huntold : ¬ Told G.state p := by
      intro htold
      obtain ⟨τ, -, hτ⟩ := hG.telling
      obtain ⟨v, data, hm⟩ := mem_callbacksIn htold
      obtain ⟨q, d, hq, hd, hgone | ⟨w, hw⟩⟩ := hτ.told v _ data hm <;> cases hq
      · obtain rfl := hmade.context_eq hd
        exact hgone ⟨z, hz⟩
      · obtain rfl := hmade.context_eq hd
        exact outstanding_of_op hop rfl (hI.quiet w _ (hτ.held w _ hw))
    have hother : ∀ q, q ≠ p → SameSession .server G.state (landed G.state op j ok bytes) q :=
      fun q hq => sameSession_landed fun c hc hkc => by
        obtain rfl := hkc.context_eq hk
        exact hq (hI.objectUnique q p _ hc hmade)
    have hstream : x.arrived = (G.state.sockets j).stream := by
      obtain ⟨k, ⟨d, hd, hkd⟩, hxk⟩ := hS.arrived
      obtain rfl := hmade.context_eq hd
      rw [hxk, hI.keyUnique k j _ hkd hk]
    refine .inr ⟨none, _, .arrive bytes hxp (hS.live.mpr huntold), rfl, hσ.update hother ?_ ?_⟩
    · rw [show (landed G.state op j ok bytes).tcpConnections p = G.state.tcpConnections p from rfl]
      simp [hy]
    · refine ⟨⟨j, ⟨_, hmade, landed_key.mpr hk⟩, ?_⟩, hS.given, hS.live, ?_⟩
      · rw [hstream, landed_stream]
      · rw [hS.closed]
        exact and_congr_right fun _ => forall_congr' fun c => forall_congr' fun _ =>
          (not_congr live_landed_iff).symm
  · exact .inl ⟨rfl, hσ.same fun q => sameSession_landed fun c hc hk => hkey ⟨q, c, hc, hk⟩⟩

end Landing

/-- **A server simulates the sessions.** -/
lemma simulates (u : Setup) : Simulates (machine .server)
    (Sessions.step u.handlers.onDataReceived) State.shown (Tracked u) (Represents .server) where
  act _ _ _ _ _ _ _ _ hG hx he hσ := matched_act hG hx he hσ
  env _ _ _ _ hG he hσ := matched_osStep hG he hσ
  enter _ _ _ _ _ _ he hσ := .inl (by rw [enter_eq he]; exact ⟨rfl, hσ⟩)

end Server

/-! ## A client -/

namespace Client

/-- A reached configuration with what is known of its threads. -/
structure Tracked (u : Setup) (G : Config Action Action.Res State Tid Label) : Prop where
  reachable : Reachable .client u G
  staged : ∃ σ : Tid → Stage, ∀ t, stages.OnTrack (G.threads t) (σ t)
  carried : ∃ v σ, (∀ t, custody.OnTrack (G.threads t) (σ t)) ∧ Carried u v σ G.state

/-- The one session stands for the connection, and nobody takes leave of it. -/
structure Going (s : State) (σ : Table ConnectionPtr UInt8) : Prop
    extends Represents .client s σ where
  phase : ∀ p x, σ p = some x → x.phase = .live

variable {u : Setup} {s s' : State} {σ : Table ConnectionPtr UInt8}
variable {p : ConnectionPtr} {x : Session UInt8}

lemma Going.untold (h : Going s σ) (hp : σ p = some x) : ¬ Told s p :=
  (h.present p x hp).live.mp (h.phase p x hp)

/-- A move that leaves the connection objects and the stream of the socket as they are. -/
lemma Going.sameSession (h : Going s σ) (hobjects : s'.tcpConnections = s.tcpConnections)
    (hstream : p = clientConnection → (s'.sockets 0).stream = (s.sockets 0).stream)
    (hstory : SameStory s s' p) : SameSession .client s s' p where
  object := by rw [hobjects]
  carries k := by
    rintro ⟨rfl, rfl⟩
    exact ⟨⟨rfl, rfl⟩, hstream rfl⟩
  delivered := hstory.delivered
  told := hstory.told
  released ht := by
    have hnone : s.tcpConnections p = none := by
      by_contra hp
      obtain ⟨x, hx, -⟩ := h.exists_session hp
      exact h.untold hx ht
    simp [ContextFreed, Server.MadeFor, hobjects, hnone]

lemma Going.same (h : Going s σ) (hs : ∀ p, SameSession .client s s' p) : Going s' σ :=
  ⟨h.toRepresents.same hs, h.phase⟩

/-- The session of the client goes on with other bytes. -/
lemma Going.update {x' : Session UInt8} (h : Going s σ) (hp : σ clientConnection = some x)
    (hs : ∀ q, q ≠ clientConnection → SameSession .client s s' q)
    (hobjects : s'.tcpConnections = s.tcpConnections) (hphase : x'.phase = .live)
    (htold : ¬ Told s' clientConnection) (harrived : x'.arrived = (s'.sockets 0).stream)
    (hgiven : x'.given = s'.delivered clientConnection) :
    Going s' (Function.update σ clientConnection (some x')) where
  toRepresents := by
    refine h.toRepresents.update hs ?_ ⟨⟨0, ⟨rfl, rfl⟩, harrived⟩, hgiven, ?_, ?_⟩
    · rw [hobjects]
      exact fun hn => by simp [(h.absent _).mpr hn] at hp
    · simp [hphase, htold]
    · simp [hphase, htold]
  phase q y hy := by
    by_cases hq : q = clientConnection
    · subst hq
      rw [Function.update_self] at hy
      exact Option.some.inj hy ▸ hphase
    · rw [Function.update_of_ne hq] at hy
      exact h.phase q y hy

/-- Every action is matched: a callback gives the user what is left, and nothing else shows. -/
lemma matched_act {G : Config Action Action.Res State Tid Label} {t : Tid} {a : Action}
    {k : a.Res → P (Option Label)} {o : Outcome} {r : a.Res} (hG : Tracked u G)
    (hx : G.threads t = .running (.act a k)) (he : exec t a o G.state = some (r, s'))
    (hσ : Going G.state σ) :
    Matched (Sessions.step u.handlers.onDataReceived) State.shown Going G.state σ s' := by
  have hA := hG.reachable.client.allowed hx
  have hobjects : s'.tcpConnections = G.state.tcpConnections := objects_of_exec he fun y ha => by
    subst ha
    cases hA
  have hstream : (s'.sockets 0).stream = (G.state.sockets 0).stream :=
    stream_of_exec (fun ha => by subst ha; cases hA) he
  by_cases hnotifies : a.notifies = false
  · obtain ⟨hshown, hstory⟩ := quiet_of_exec hnotifies he
    exact .inl ⟨hshown, hσ.same fun q => hσ.sameSession hobjects (fun _ => hstream) (hstory q)⟩
  cases a <;> first
    | exact absurd rfl hnotifies
    | exact hA.elim
    | skip
  case invokeConnection q kind p data =>
    obtain ⟨τ, htrack⟩ := hG.staged
    obtain ⟨v, ρ, hρtrack, hρ⟩ := hG.carried
    have ht := htrack t
    have hρt := hρtrack t
    rw [hx] at ht hρt
    have hstage : (τ t).allows (.invokeConnection q kind p data) = true := ht.1
    have hcustody : (ρ t).allows (.invokeConnection q kind p data) := hρt.1
    obtain rfl : kind = .onDataReceived := by
      cases hq : τ t <;> rw [hq] at hstage <;> first
        | cases hstage
        | (cases kind <;> simp_all [Action.notifies])
    obtain ⟨y, hy, hcalled⟩ := exec_invokeConnection he
    rcases history_of_invoke hcalled with ⟨hset, hhistory⟩ | hhistory
    · have hwants : u.handlers.onDataReceived = true :=
        (isSet_of_object hG.reachable.client.ok hy .onDataReceived).symm.trans hset
      have hshows := hρ.shows t
      cases hq : ρ t <;> rw [hq] at hcustody hshows <;> first
        | exact hshows.elim
        | (simp [Action.isCalm] at hcustody; done)
        | skip
      case holding pkt sock conn bytes =>
        obtain ⟨hconn, rfl, hdata⟩ := hcustody
        obtain ⟨-, -, -, hclient, hbytes⟩ := hshows
        obtain rfl := hclient q hconn
        obtain ⟨x, hxp, hS⟩ := hσ.exists_session (p := clientConnection) (by simp [hy])
        have hlive := hσ.phase _ x hxp
        have hrest : x.given ++ data = x.arrived := by
          obtain ⟨j, ⟨-, rfl⟩, hxj⟩ := hS.arrived
          have hcarried := hρ.carried hwants t (by rw [hq]; rfl)
          rw [hq] at hcarried
          rw [hS.given, hxj, hbytes data hdata]
          exact hcarried
        refine .inr ⟨_, _, .give data hwants hxp hlive hrest, ?_,
          hσ.update hxp (fun q hq => hσ.sameSession hobjects (fun _ => hstream)
            (sameStory_of_record hhistory ?_)) hobjects hlive ?_ ?_ ?_⟩
        · simp [State.shown, hhistory, Record.notice]
        · rintro n ⟨⟩
          simpa [Notice.sender] using Ne.symm hq
        · have huntold := hσ.untold hxp
          simpa [Told, hhistory, callbacksIn, Record.about] using huntold
        · obtain ⟨j, ⟨-, rfl⟩, hxj⟩ := hS.arrived
          exact hxj.trans hstream.symm
        · simp [← hrest, hS.given, State.delivered, hhistory, State.deliveredIn, State.dataFor]
    · refine .inl ⟨?_, hσ.same fun q => hσ.sameSession hobjects (fun _ => hstream)
        (sameStory_of_record hhistory fun n hn => by cases hn)⟩
      rw [State.shown, State.shown, hhistory]
      rfl

/-- Every move of the network is matched: bytes arrive. -/
lemma matched_osStep {G : Config Action Action.Res State Tid Label} {e : OsEvent}
    (hG : Tracked u G) (he : osStep e G.state = some s') (hσ : Going G.state σ) :
    Matched (Sessions.step u.handlers.onDataReceived) State.shown Going G.state σ s' := by
  obtain ⟨v, ρ, -, hρ⟩ := hG.carried
  obtain ⟨op, ok, bytes, hop, -, rfl⟩ := landed_of_osStep hG.reachable.client.ok hρ.ground he
  obtain ⟨τ, -, hpointing⟩ := hG.reachable.pointers
  obtain ⟨y, hy⟩ := Option.isSome_iff_exists.mp (hpointing.mapped v _ hρ.ground.mapped)
  obtain ⟨x, hxp, hS⟩ := hσ.exists_session (p := clientConnection) (by simp [hy])
  obtain ⟨j, ⟨-, rfl⟩, hxj⟩ := hS.arrived
  have hsame : ∀ q, SameStory G.state (Server.landed G.state op 0 ok bytes) q :=
    sameStory_of_history rfl
  refine .inr ⟨none, _, .arrive bytes hxp (hσ.phase _ x hxp), rfl,
    hσ.update hxp (fun q hq => hσ.sameSession rfl (fun h => absurd h hq) (hsame q)) rfl
      (hσ.phase _ x hxp) (hσ.untold hxp) ?_ hS.given⟩
  rw [Server.landed_stream, ← hxj]

/-- **A client simulates the sessions.** -/
lemma simulates (u : Setup) : Simulates (machine .client)
    (Sessions.step u.handlers.onDataReceived) State.shown (Tracked u) Going where
  act _ _ _ _ _ _ _ _ hG hx he hσ := matched_act hG hx he hσ
  env _ _ _ _ hG he hσ := matched_osStep hG he hσ
  enter _ _ _ _ _ _ he hσ := .inl (by rw [enter_eq he]; exact ⟨rfl, hσ⟩)

lemma tracked {G : Config Action Action.Res State Tid Label} (hG : Reachable .client u G) :
    Tracked u G :=
  ⟨hG, hG.exists_onTrack code_follows, hG.carried⟩

/-- The session with which a client begins: its peer has just connected. -/
def beginning : Table ConnectionPtr UInt8 :=
  Function.update Table.empty clientConnection (some ⟨[], [], .live⟩)

lemma eq_of_beginning {x : Session UInt8} (h : beginning p = some x) :
    p = clientConnection ∧ x = ⟨[], [], .live⟩ := by
  by_cases hp : p = clientConnection
  · subst hp
    rw [beginning, Function.update_self] at h
    exact ⟨rfl, (Option.some.inj h).symm⟩
  · rw [beginning, Function.update_of_ne hp] at h
    cases h

lemma run_beginning (wants : Bool) :
    (Sessions.step wants).Run Table.empty ([] : List (Notice (Option ConnectionPtr) UInt8))
      beginning :=
  .step (o := none) .nil (Step.connect [] rfl)

lemma going_init (u : Setup) (v : SOCKET) : Going (State.initClient u v) beginning where
  absent p := by
    by_cases hp : p = clientConnection <;>
      simp [beginning, hp, State.initClient, Table.empty, State.init]
  present p x hx := by
    obtain ⟨rfl, rfl⟩ := eq_of_beginning hx
    exact ⟨⟨0, ⟨rfl, rfl⟩, rfl⟩, rfl, by simp [Told, State.initClient, State.init, callbacksIn],
      by simp [Told, State.initClient, State.init, callbacksIn]⟩
  phase p x hx := by
    obtain ⟨-, rfl⟩ := eq_of_beginning hx
    rfl

end Client

/-! ## The results -/

lemma Reachable.sessions {role : Role} {u : Setup} {G : Config Action Action.Res State Tid Label}
    (hG : Reachable role u G) : ∃ σ,
      (Sessions.step u.handlers.onDataReceived).Run Table.empty G.state.shown σ ∧
        Represents role G.state σ := by
  obtain ⟨G₀, h0, hr⟩ := hG
  cases h0 with
  | server =>
      exact (Server.simulates u).sound (fun G' hr' => Server.tracked ⟨_, .server, hr'⟩) hr .nil
        (represents_init u)
  | client v hv =>
      obtain ⟨σ, hσ, hgoing⟩ := (Client.simulates u).sound
        (fun G' hr' => Client.tracked ⟨_, .client v hv, hr'⟩) hr (Client.run_beginning _)
        (Client.going_init u v)
      exact ⟨σ, hσ, hgoing.toRepresents⟩

/-- **Every run refines the sessions.**  What the user is shown in a run of a server or a client is
what a run of the sessions shows, and the sessions at its end stand for the connection objects. -/
theorem sessions_refined {role : Role} {u : Setup} {G : Config Action Action.Res State Tid Label}
    (hG : Reachable role u G) : ∃ σ,
      (Sessions.step u.handlers.onDataReceived).Run Table.empty G.state.shown σ ∧
        Represents role G.state σ := hG.sessions

/-- What the user was shown of connection `p`, whose bytes arrive on the socket object `k`. -/
structure ShownOf (role : Role) (u : Setup) (s : State) (p : ConnectionPtr) (k : SockId) :
    Prop where
  carries : Carries role s p k
  /-- The first bytes of the socket. -/
  inOrder : dataOf p s.shown <+: (s.sockets k).stream
  /-- All of them, when the connection has been torn down. -/
  all : u.handlers.onDataReceived = true → Told s p → ContextFreed s p →
    dataOf p s.shown = (s.sockets k).stream
  /-- Data, as long as `onDisconnected` was not called, -/
  onlyData : ¬ Told s p → OnlyData p s.shown
  /-- and one farewell after it. -/
  farewell : Told s p → Farewell p s.shown

/-- **What the user is shown of a connection**, by a server or by a client. -/
theorem connection_shown {role : Role} {u : Setup} {G : Config Action Action.Res State Tid Label}
    (hG : Reachable role u G) {p : ConnectionPtr} (hp : G.state.tcpConnections p ≠ none) :
    ∃ k, ShownOf role u G.state p k := by
  obtain ⟨σ, hrun, hσ⟩ := hG.sessions
  obtain ⟨x, hx, hstands⟩ := hσ.exists_session hp
  have hok := (ok_of_run hrun).present p x hx
  obtain ⟨k, hk, harrived⟩ := hstands.arrived
  refine ⟨k, hk, ?_, fun hwants htold hfreed => ?_, fun htold => ?_, fun htold => ?_⟩
  · rw [hok.shown, ← harrived]
    exact hok.inOrder
  · rw [hok.shown, ← harrived]
    exact hok.all (hstands.closed.mpr ⟨htold, hfreed⟩) hwants
  · exact hok.live (hstands.live.mpr htold)
  · exact hok.told fun hlive => hstands.live.mp hlive htold

/-- Two bytes arrive at a server and are passed on; then the connection breaks. -/
lemma exists_closed : ∃ G, Reachable .server fullServer G ∧
    G.state.shown = [.disconnected (some 0), .data (some 0) [7, 8]] ∧
    G.state.tcpConnections 0 ≠ none ∧ ContextFreed G.state 0 := by
  obtain ⟨G, hG, hφ⟩ := reachable_of_run (.server (u := fullServer))
    (startMoves ++ acceptMoves 1 102 ++ .env (.complete ⟨.recv, 1, 1, maxBuffSize⟩ [7, 8]) ::
      steps (.worker 0) (List.replicate 16 .ok ++ [.pending, .ok, .ok]) ++ breakMoves 1 1)
    (φ := fun G => G.state.shown = [.disconnected (some 0), .data (some 0) [7, 8]] ∧
      (G.state.tcpConnections 0).map TcpConnection.overlapped = some (some 1) ∧
      G.state.contexts 1 = none) (by decide +kernel)
  obtain ⟨hshown, hobject, hfreed⟩ := of_decide_eq_true hφ
  refine ⟨G, hG, hshown, fun hnone => ?_, ?_⟩
  · rw [hnone] at hobject
    cases hobject
  · rintro c ⟨y, hy, hc⟩ ⟨x, hx⟩
    rw [hy, Option.map_some, hc] at hobject
    obtain rfl : c = 1 := Option.some.inj (Option.some.inj hobject)
    rw [hfreed] at hx
    cases hx

theorem sessions_refined_closed : ∃ G σ, Reachable .server fullServer G ∧
    (Sessions.step true).Run Table.empty
      [.disconnected (some 0), .data (some 0) [7, 8]] σ ∧ Represents .server G.state σ := by
  obtain ⟨G, hG, hshown, -⟩ := exists_closed
  obtain ⟨σ, hrun, hσ⟩ := sessions_refined hG
  rw [hshown] at hrun
  exact ⟨G, σ, hG, hrun, hσ⟩

theorem connection_shown_closed : ∃ G k, Reachable .server fullServer G ∧
    Carries .server G.state 0 k ∧ (G.state.sockets k).stream = [7, 8] ∧
    Farewell 0 G.state.shown := by
  obtain ⟨G, hG, hshown, hobject, hfreed⟩ := exists_closed
  obtain ⟨k, h⟩ := connection_shown hG hobject
  have htold : Told G.state 0 := by
    by_contra hnot
    obtain ⟨bytes, hbytes⟩ := h.onlyData hnot (.disconnected (some 0))
      (by rw [hshown]; exact List.mem_cons_self)
    cases hbytes
  have hall := h.all rfl htold hfreed
  rw [hshown] at hall
  exact ⟨G, k, hG, h.carries, hall.symm, h.farewell htold⟩

end Alpl.Net
