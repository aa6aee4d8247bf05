import Alpl.Server.Completion

/-!
# Every allowed action keeps the contract of a server

The moves of the preceding modules, put together: whatever action a thread performs under the
condition `Server.Allowed`, with whatever outcome, the invariant holds afterwards and the others
can still count on what they could count on.
-/

namespace Alpl.Net

open Interleaving

namespace Server

variable {u : Setup} {t : Tid} {a : Action} {o : Outcome} {s s' : State}

/-! ## The remaining moves -/

/-- What neither the invariant nor anybody's rely speaks of. -/
lemma Move.setLocker (hI : Inv s) (cs : CriticalSection Tid) :
    Move (some t) s { s with locker := cs } :=
  ⟨{ hI with }, fun v _ => { Respects.refl v s with
    alone := fun _ _ => ⟨rfl, rfl, rfl, rfl, rfl, rfl, rfl, rfl, rfl, rfl, rfl, rfl, rfl, rfl, rfl⟩
    kept := fun c _ => { Kept.refl c s with }
    listener := fun l _ _ => { KeptListener.refl v l s with } }, fun _ _ _ _ h _ => h⟩

lemma Move.setExitEvent (hI : Inv s) : Move (some t) s { s with exitEvent := true } :=
  ⟨{ hI with }, fun v _ => { Respects.refl v s with
    alone := fun _ _ => ⟨rfl, rfl, rfl, rfl, rfl, rfl, rfl, rfl, rfl, rfl, rfl, rfl, rfl, rfl, rfl⟩
    kept := fun c _ => { Kept.refl c s with }
    listener := fun l _ _ => { KeptListener.refl v l s with } }, fun _ _ _ _ h _ => h⟩

lemma Move.setSent (hI : Inv s) (f : SockId → List UInt8) :
    Move (some t) s { s with sent := f } :=
  ⟨{ hI with }, fun v _ => { Respects.refl v s with
    alone := fun _ _ => ⟨rfl, rfl, rfl, rfl, rfl, rfl, rfl, rfl, rfl, rfl, rfl, rfl, rfl, rfl, rfl⟩
    kept := fun c _ => { Kept.refl c s with }
    listener := fun l _ _ => { KeptListener.refl v l s with } }, fun _ _ _ _ h _ => h⟩

lemma Move.exitThread (hI : Inv s) (hthe : s.theSocketContext ≠ none) :
    Move (some t) s { s with alive := Function.update s.alive t false } :=
  ⟨{ hI with }, fun v _ => { Respects.refl v s with
    alone := fun _ h0 => absurd h0 hthe
    kept := fun c _ => { Kept.refl c s with }
    listener := fun l _ _ => { KeptListener.refl v l s with } }, fun _ _ _ _ h _ => h⟩

/-- `exiting_` is set: what holds only of a server that is not exiting is no longer claimed. -/
lemma Move.setExiting (hI : Inv s) : Move (some t) s { s with exiting := true } :=
  ⟨{ hI with
    placed := fun _ _ he => nomatch he
    packet := fun pkt hpkt => (hI.packet pkt hpkt).imp_left fun h => ⟨h.1, rfl⟩
    complete := fun _ _ _ he => nomatch he
    armed := fun _ _ he => nomatch he }, fun v _ => { Respects.refl v s with
    alone := fun _ _ => ⟨rfl, rfl, rfl, rfl, rfl, rfl, rfl, rfl, rfl, rfl, rfl, rfl, rfl, rfl, rfl⟩
    kept := fun c _ => { Kept.refl c s with }
    listener := fun l _ _ => { KeptListener.refl v l s with } }, fun _ _ _ _ h _ => h⟩

/-! ## Calls and returns -/

/-- An entry that is not plain, with a change of the stack, as far as the others are concerned. -/
lemma Move.of_run {fs : List Frame} {r : Record} (h : Inv ((s.setStack t fs).record r))
    (hrespects : ∀ v, v ≠ t → Respects v s ((s.setStack t fs).record r)) :
    Move (some t) s ((s.setStack t fs).record r) :=
  ⟨h, fun v hv => hrespects v fun hvt => hv (congrArg some hvt.symm),
    fun _ _ _ _ hr _ => hr⟩

lemma sameMemory_run {fs : List Frame} {r : Record} :
    SameMemory s ((s.setStack t fs).record r) :=
  ⟨rfl, rfl, rfl, rfl, rfl, rfl, rfl, rfl, rfl, rfl, rfl, rfl, rfl, rfl, rfl⟩

lemma Move.enter (hI : Inv s) {f : Frame} (hA : Allowed t (.enter f) s) :
    Move (some t) s ((s.setStack t (f :: s.stack t)).record (.entered t f)) := by
  have hpush : (∀ p, f ≠ .callback .onDataReceived p) → (∀ c, f ≠ .handleReceive c) →
      f ≠ .start → Inside t (f :: s.stack t) s := fun hc hr hs =>
    (hI.inside t).push (fun p h => absurd h (hc p)) (fun c h => absurd h (hr c))
      fun h => absurd h hs
  cases f with
  | startAccept =>
      obtain ⟨l, hl, hc, hf⟩ := hA
      have hstack : (s.setStack t (.startAccept :: s.stack t)).stack t =
          .startAccept :: s.stack t := Function.update_self _ _ _
      refine .of_run ((hI.setStack (hpush nofun nofun nofun)).enterStartAccept hl hc ?_) ?_
      · rw [hstack]
        refine hf.imp (List.mem_cons_of_mem _) fun ⟨ht, hm⟩ => ⟨ht, ?_⟩
        rw [← ht, hstack]
        exact List.mem_cons_of_mem _ (ht ▸ hm)
      · intro v hv
        refine .of_run sameMemory_run (fun _ _ _ _ => delivered_of_data rfl) (fun _ _ => rfl)
          fun l' hl' hc' => ?_
        obtain rfl := Option.some.inj (hl.symm.trans hl')
        exact absurd (hI.single v t l hc' hc) hv
  | disconnect c =>
      obtain ⟨c, rfl, ⟨hc, -⟩, h0⟩ := hA
      refine .of_run ((hI.setStack (hpush nofun nofun nofun)).enterDisconnect hc h0) ?_
      intro v hv
      refine .of_run sameMemory_run (fun _ _ _ _ => delivered_of_data rfl) (fun d hd => ?_)
        fun _ _ _ => ⟨fun _ h => h, id⟩
      refine disconnects_entered_of_ne ?_
      rintro rfl
      exact hv (hI.single v t d hd hc)
  | handleReceive c =>
      obtain ⟨w, k, p, hr⟩ := hA
      refine (Move.setStack hI ((hI.inside t).push (by rintro _ ⟨⟩) ?_ (by rintro ⟨⟩))).record rfl
      rintro d ⟨⟩
      exact ⟨hI.lt_of_live hr.live, w, k, p, hr⟩
  | start =>
      exact (Move.setStack hI ((hI.inside t).push (by rintro _ ⟨⟩) (by rintro _ ⟨⟩)
        fun _ => hA)).record rfl
  | completion op c => exact hA.elim
  | callback k p => exact hA.elim
  | stop => exact (Move.setStack hI (hpush nofun nofun nofun)).record rfl
  | exitPacket => exact (Move.setStack hI (hpush nofun nofun nofun)).record rfl
  | createSocketContext => exact (Move.setStack hI (hpush nofun nofun nofun)).record rfl
  | handleNewConnection c => exact (Move.setStack hI (hpush nofun nofun nofun)).record rfl
  | send p => exact (Move.setStack hI (hpush nofun nofun nofun)).record rfl

lemma Move.leave (hI : Inv s) {f : Frame} {rc : ℤ} (hA : Allowed t (.leave f rc) s) :
    Move (some t) s ((s.setStack t (s.stack t).tail).record (.returned t f rc)) := by
  obtain ⟨⟨fs, hfs⟩, hA⟩ := hA
  have htail : (s.stack t).tail = fs := by rw [hfs]; rfl
  rw [htail]
  have hin : Inside t (f :: fs) s := hfs ▸ hI.inside t
  have hself : (s.setStack t fs).stack t = fs := Function.update_self _ _ _
  cases f with
  | startAccept =>
      refine .of_run ((hI.setStack (hin.pop nofun nofun nofun nofun)).leaveStartAccept hA) ?_
      intro v hv
      refine .of_run sameMemory_run (fun _ _ _ _ => delivered_of_data rfl) (fun _ _ => rfl)
        fun l hl hc => ⟨fun z hz => ?_, fun hz => ?_⟩
      · refine (lastStartAccept_returned ?_).trans hz
        intro h
        have hz' : some (v, z) = some (t, none) := hz.symm.trans h
        cases hz'
        exact hv rfl
      · exact (lastStartAccept_returned fun h => nomatch h.symm.trans hz).trans hz
  | disconnect c =>
      refine (Move.setStack hI (hin.pop nofun ?_ nofun nofun)).record rfl
      rintro d ⟨⟩
      exact hA.1
  | start =>
      obtain ⟨rfl, hmain, hrc, hl⟩ := hA
      obtain rfl : fs = [] := (List.cons.inj (hfs.symm.trans hmain)).2
      refine .of_run ((hI.setStack (hin.pop nofun nofun nofun fun _ => hl)).leaveStart ?_ hrc) ?_
      · rw [hself]
        exact List.not_mem_nil
      · intro v hv
        exact .of_run sameMemory_run (fun _ _ _ _ => delivered_of_data rfl) (fun _ _ => rfl)
          fun _ _ _ => ⟨fun _ h => h, id⟩
  | stop =>
      obtain ⟨-, l, hl, hlisten, -⟩ := hA
      refine (Move.setStack hI (hin.pop (fun _ l' hl' => ?_) nofun nofun nofun)).record rfl
      exact Option.some.inj (hl.symm.trans hl') ▸ hlisten
  | completion op c => exact hA.elim
  | callback k p => exact (Move.setStack hI (hin.pop nofun nofun nofun nofun)).record rfl
  | handleReceive c => exact (Move.setStack hI (hin.pop nofun nofun nofun nofun)).record rfl
  | exitPacket => exact (Move.setStack hI (hin.pop nofun nofun nofun nofun)).record rfl
  | createSocketContext => exact (Move.setStack hI (hin.pop nofun nofun nofun nofun)).record rfl
  | handleNewConnection c => exact (Move.setStack hI (hin.pop nofun nofun nofun nofun)).record rfl
  | send p => exact (Move.setStack hI (hin.pop nofun nofun nofun nofun)).record rfl

/-! ## Callbacks -/

lemma Move.callbackReturns (hI : Inv s) {k : CallbackKind} {p : Option ConnectionPtr}
    {fs : List Frame} (hfs : s.stack t = .callback k p :: fs) :
    Move (some t) s (s.setStack t (s.stack t).tail) := by
  have hin : Inside t (.callback k p :: fs) s := hfs ▸ hI.inside t
  rw [hfs]
  exact Move.setStack hI (hin.pop nofun nofun nofun nofun)

/-- A callback that does not concern data, or that is empty. -/
lemma Move.invoke (hI : Inv s) {k : CallbackKind} {p : Option ConnectionPtr} {data : List UInt8}
    {isSet : Bool} (hk : k ≠ .onDataReceived) :
    Move (some t) s (exec.invoke t k p data isSet s).2 := by
  unfold exec.invoke
  split
  · refine (Move.setStack hI ((hI.inside t).push ?_ (by rintro _ ⟨⟩) (by rintro ⟨⟩))).record ?_
    · rintro q ⟨⟩
      exact absurd rfl hk
    · cases k <;> first | rfl | exact absurd rfl hk
  · exact (Move.refl hI).record rfl

/-- The next bytes of a connection go to the user. -/
lemma Move.invokeData (hI : Inv s) (hH : Handler.Inv s) {q : ConnectionPtr} {c : ContextPtr}
    {data : List UInt8} {isSet : Bool} (hS : Serving t c s) (hq : MadeFor s q c)
    (hdata : Pending s q c data) :
    Move (some t) s (exec.invoke t .onDataReceived (some q) data isSet s).2 := by
  unfold exec.invoke
  split
  · have hn : q < s.nextConnection := by
      obtain ⟨y, hy, -⟩ := hq
      by_contra h
      rw [hH.unnamed q (Nat.le_of_not_lt h)] at hy
      cases hy
    have hin : Inside t (.callback .onDataReceived (some q) :: s.stack t) s := by
      refine (hI.inside t).push ?_ (by rintro _ ⟨⟩) (by rintro ⟨⟩)
      rintro q' ⟨⟩
      exact ⟨c, hS.1, hq⟩
    refine .of_run ((hI.setStack hin).data hS.1 hq hn hdata) fun v hv => ?_
    refine .of_run sameMemory_run (fun d hd p hp => delivered_of_data ?_) (fun _ _ => rfl)
      fun _ _ _ => ⟨fun _ h => h, id⟩
    refine if_neg ?_
    rintro rfl
    obtain rfl := hq.context_eq hp
    exact hv (hI.single v t c hd hS.1)
  · exact (Move.refl hI).record rfl

/-! ## Every action -/

/-- The value that an action writes into the context of a connection. -/
lemma rewrites_of_serving (hI : Inv s) {c : ContextPtr} {x y : SocketContext}
    (hS : Serving t c s) (hx : s.contexts c = some x)
    (hkind : y.ioContext.lastOperation ≠ .ioAccept)
    (hsock : y.socket = x.socket ∨ Closed s c ∧ y.socket = invalidSocket)
    (haccept : y.ioContext.socketAccept = x.ioContext.socketAccept) : Rewrites s c y := by
  obtain ⟨hc, l, hl, hcl⟩ := hS
  refine ⟨⟨x, hx⟩, hI.quiet t c hc, hl ▸ nofun, ?_, hkind, fun z hz => ?_, fun z hz => ?_⟩
  · rw [hl]
    exact fun h => hcl (Option.some.inj h).symm
  · obtain rfl := Option.some.inj (hx.symm.trans hz)
    exact hsock
  · obtain rfl := Option.some.inj (hx.symm.trans hz)
    exact haccept

lemma kind_of_serving (hI : Inv s) {c : ContextPtr} {x : SocketContext} (hS : Serving t c s)
    (hx : s.contexts c = some x) : x.ioContext.lastOperation ≠ .ioAccept := by
  obtain ⟨-, l, hl, hcl⟩ := hS
  exact fun h => hcl ((hI.kind l c x hl hx).mp h)

lemma move_newContext (hI : Inv s) {sd : SOCKET} {op : LastIoOperation}
    {r : Action.Res (.newContext sd op)} (hA : Allowed t (.newContext sd op) s)
    (h : exec t (.newContext sd op) o s = some (r, s')) : Move (some t) s s' := by
  cases o <;> cases h
  exact .newContext hI hA

lemma move_setSocket (hI : Inv s) {c : ContextPtr} {v : SOCKET} {r : Action.Res (.setSocket c v)}
    (hA : Allowed t (.setSocket c v) s) (h : exec t (.setSocket c v) o s = some (r, s')) :
    Move (some t) s s' := by
  obtain ⟨rfl, hclosed, hS⟩ := hA
  obtain ⟨x, hx, rfl⟩ := exec_setSocket h
  rcases hS with hS | ⟨rfl, hl, -⟩
  · have hkind := kind_of_serving hI hS hx
    exact .setContext hI hS.1 (rewrites_of_serving hI hS hx hkind (.inr ⟨hclosed, rfl⟩) rfl)
  · have hself : ∀ y, s.contexts c = some y → x = y := fun y hy =>
      Option.some.inj (hx.symm.trans hy)
    refine .setThe hI ⟨hl, (hI.kind c c x hl hx).mpr rfl, fun _ _ => .inr ⟨hclosed, rfl⟩,
      fun y hy _ => ?_⟩ (.inr ⟨rfl, fun y hy => ?_⟩) <;> rw [← hself y hy]

lemma move_setLastOperation (hI : Inv s) {c : ContextPtr} {op : LastIoOperation}
    {r : Action.Res (.setLastOperation c op)} (hA : Allowed t (.setLastOperation c op) s)
    (h : exec t (.setLastOperation c op) o s = some (r, s')) : Move (some t) s s' := by
  obtain ⟨hS, rfl⟩ := hA
  obtain ⟨x, hx, rfl⟩ := exec_setLastOperation h
  exact .setContext hI hS.1 (rewrites_of_serving hI hS hx nofun (.inl rfl) rfl)

lemma move_setSocketAccept (hI : Inv s) {c : ContextPtr} {v : SOCKET}
    {r : Action.Res (.setSocketAccept c v)} (hA : Allowed t (.setSocketAccept c v) s)
    (h : exec t (.setSocketAccept c v) o s = some (r, s')) : Move (some t) s s' := by
  obtain ⟨hl, hc⟩ := hA
  obtain ⟨x, hx, rfl⟩ := exec_setSocketAccept h
  have hself : ∀ y, s.contexts c = some y → x = y := fun y hy =>
    Option.some.inj (hx.symm.trans hy)
  refine .setThe hI ⟨hl, (hI.kind c c x hl hx).mpr rfl, fun y hy => .inl ?_, fun _ _ ho => ?_⟩
    (.inl ⟨hc, fun y hy => ?_⟩)
  · rw [← hself y hy]
  · exact absurd (hI.quiet t c hc) ho
  · rw [← hself y hy]

lemma move_listen (hI : Inv s) {v : SOCKET} {n : ℕ} {r : Action.Res (.listen v n)}
    (hA : Allowed t (.listen v n) s) (h : exec t (.listen v n) o s = some (r, s')) :
    Move (some t) s s' := by
  obtain ⟨rfl, k, hk, rfl⟩ | ⟨rfl, rfl⟩ := exec_listen h
  · exact (Move.listen hI hA (hI.freshHandle v k hk)).record rfl
  · exact (Move.refl hI).record rfl

lemma move_wsaSocket (hI : Inv s) {r : Action.Res .wsaSocket} (hA : Allowed t .wsaSocket s)
    (h : exec t .wsaSocket o s = some (r, s')) : Move (some t) s s' := by
  obtain ⟨hclosed, hvalid, rfl⟩ | ⟨rfl, rfl⟩ := exec_wsaSocket h
  · rw [withSocket_eq hI]
    exact (Move.wsaSocket hI hclosed hvalid hA).record rfl
  · exact (Move.refl hI).record rfl

lemma move_createIoCompletionPort (hI : Inv s) {v : SOCKET} {port : Option Port} {c : ContextPtr}
    {r : Action.Res (.createIoCompletionPort v port c)}
    (hA : Allowed t (.createIoCompletionPort v port c) s)
    (h : exec t (.createIoCompletionPort v port c) o s = some (r, s')) : Move (some t) s s' := by
  obtain ⟨rfl, hc, hS, hkey, hmade, hx⟩ := hA
  obtain ⟨rfl, k, hk, hassoc, rfl⟩ | ⟨rfl, rfl⟩ := exec_createIoCompletionPort h
  · exact (Move.associate hI hk hassoc hc hS hkey hmade hx).record rfl
  · exact (Move.refl hI).record rfl

lemma move_acceptEx (hI : Inv s) {ls v : SOCKET} {c : ContextPtr} {len : ℕ}
    {r : Action.Res (.acceptEx ls v c len)} (hA : Allowed t (.acceptEx ls v c len) s)
    (h : exec t (.acceptEx ls v c len) o s = some (r, s')) : Move (some t) s s' := by
  obtain ⟨-, ⟨kl, ka, hl, ha, hlisten, rfl⟩ | rfl⟩ := exec_acceptEx h
  · exact (Move.post hI (.acceptEx hI hA hl ha hlisten)).record rfl
  · exact (Move.refl hI).record rfl

lemma move_wsaRecv (hI : Inv s) {v : SOCKET} {c : ContextPtr} {len : ℕ}
    {r : Action.Res (.wsaRecv v c len)} (hA : Allowed t (.wsaRecv v c len) s)
    (h : exec t (.wsaRecv v c len) o s = some (r, s')) : Move (some t) s s' := by
  obtain ⟨-, k, hk, rfl⟩ | ⟨-, rfl⟩ := exec_wsaRecv h
  · exact (Move.post hI (.wsaRecv hA hk)).record rfl
  · exact (Move.refl hI).record rfl

lemma move_getQueuedCompletionStatus (hI : Inv s) {q : Port}
    {r : Action.Res (.getQueuedCompletionStatus q)}
    (hA : Allowed t (.getQueuedCompletionStatus q) s)
    (h : exec t (.getQueuedCompletionStatus q) o s = some (r, s')) : Move (some t) s s' := by
  obtain ⟨rfl, hempty, ht⟩ := hA
  obtain ⟨rest, hq, rfl⟩ := exec_getQueuedCompletionStatus h
  exact .take hI hq hempty ht

lemma move_indexConnection (hI : Inv s) {v : SOCKET} {r : Action.Res (.indexConnection v)}
    (hA : Allowed t (.indexConnection v) s)
    (h : exec t (.indexConnection v) o s = some (r, s')) : Move (some t) s s' := by
  obtain ⟨p, hp⟩ := hA
  obtain ⟨-, rfl⟩ | ⟨hnone, -⟩ := exec_indexConnection h
  · exact .refl hI
  · cases hnone.symm.trans hp

/-- **Every allowed action is a move.** -/
lemma move {r : a.Res} (hI : Inv s) (hH : Handler.Inv s) (hA : Allowed t a s)
    (h : exec t a o s = some (r, s')) : Move (some t) s s' := by
  cases a
  case enterCriticalSection f =>
    obtain ⟨-, cs, -, rfl⟩ | ⟨-, rfl⟩ := exec_enterCriticalSection h
    · exact .setLocker hI cs
    · exact (Move.refl hI).record rfl
  case leaveCriticalSection =>
    obtain ⟨cs, -, rfl⟩ := exec_leaveCriticalSection h
    exact .setLocker hI cs
  case newContext sd op => exact move_newContext hI hA h
  case freeContext c =>
    obtain ⟨x, -, rfl⟩ := exec_freeContext h
    exact .freeContext hI hA
  case setSocket c v => exact move_setSocket hI hA h
  case setLastOperation c op => exact move_setLastOperation hI hA h
  case setSocketAccept c v => exact move_setSocketAccept hI hA h
  case pushFrontContext c =>
    cases o <;> cases h
    exact .pushFrontContext hI hA.1
  case removeContext c =>
    cases o <;> cases h
    exact .removeContext hI hA.1 hA.2
  case indexConnection v => exact move_indexConnection hI hA h
  case assignConnection v p =>
    obtain ⟨hnone, c, k, hS, ha, ho⟩ := hA
    cases o <;> cases h
    exact .assignConnection hI hnone hS ha ho
  case eraseConnection v =>
    cases o <;> cases h
    exact .eraseConnection hI hA
  case newConnection y =>
    cases o <;> cases h
    exact .newConnection hI hH hA
  case setIocpHandle q =>
    cases o <;> cases h
    exact .setIocpHandle hI hA
  case setTheSocketContext c =>
    cases o <;> cases h
    exact .setTheSocketContext hI hA
  case sysCall f =>
    cases o <;> cases h <;> exact (Move.refl hI).record rfl
  case listen v n => exact move_listen hI hA h
  case wsaSocket => exact move_wsaSocket hI hA h
  case closesocket v =>
    cases o <;> cases h
    exact (Move.closesocket hI hA).record rfl
  case createIoCompletionPort v port c => exact move_createIoCompletionPort hI hA h
  case acceptEx ls v c len => exact move_acceptEx hI hA h
  case wsaRecv v c len => exact move_wsaRecv hI hA h
  case send v data len =>
    obtain ⟨n, k, -, -, -, rfl⟩ | ⟨-, rfl⟩ := exec_send h
    · exact (Move.setSent hI _).record rfl
    · exact (Move.refl hI).record rfl
  case getQueuedCompletionStatus q => exact move_getQueuedCompletionStatus hI hA h
  case postQueuedCompletionStatus q =>
    obtain ⟨rfl, he, hthe⟩ := hA
    obtain rfl | rfl := exec_postQueuedCompletionStatus h
    · exact (Move.postExit hI he hthe).record rfl
    · exact (Move.refl hI).record rfl
  case waitForWorkers =>
    cases o
    case ok =>
      simp only [exec] at h
      split at h <;> cases h
      exact .refl hI
    case fail err =>
      cases h
      exact .refl hI
    all_goals cases h
  case setExitEvent =>
    cases o <;> cases h
    · exact .setExitEvent hI
    · exact .refl hI
  case waitExitEvent =>
    cases o
    case ok =>
      simp only [exec] at h
      split at h <;> cases h
      exact .refl hI
    all_goals cases h
  case setExiting =>
    cases o <;> cases h
    exact .setExiting hI
  case invokeHandler k p data =>
    cases o
    case ok =>
      have hs' := congrArg Prod.snd (Option.some.inj h)
      subst hs'
      exact .invoke hI hA.1
    all_goals cases h
  case invokeConnection q k p data =>
    obtain ⟨y, -, hr⟩ := exec_invokeConnection h
    have hs' := congrArg Prod.snd hr
    subst hs'
    by_cases hk : k = .onDataReceived
    · subst hk
      obtain ⟨q', c, rfl, hS, hq, hdata⟩ := hA rfl
      exact .invokeData hI hH hS hq hdata
    · exact .invoke hI hk
  case callbackReturns =>
    obtain ⟨k, p, fs, hfs⟩ := hA
    cases o <;> cases h
    exact .callbackReturns hI hfs
  case enter f =>
    cases o <;> cases h
    exact .enter hI hA
  case leave f rc =>
    cases o <;> cases h
    exact .leave hI hA
  case finish =>
    cases o <;> cases h
    exact .finish hI hA.1 hA.2
  case exitThread =>
    cases o <;> cases h
    exact .exitThread hI hA
  case setSentBytes c n => exact hA.elim
  case wsaSend v c data => exact hA.elim
  case nullDereference => exact hA.elim
  case getSocket c =>
    obtain ⟨x, -, -, rfl⟩ := exec_getSocket h
    exact .refl hI
  case getIoContext c =>
    obtain ⟨x, -, -, rfl⟩ := exec_getIoContext h
    exact .refl hI
  case getConnection p =>
    obtain ⟨-, rfl⟩ := exec_getConnection h
    exact .refl hI
  all_goals
    cases o <;> cases h
    exact .refl hI

/-- **Every allowed action keeps the contract.** -/
lemma guarantee {r : a.Res} (hI : (contract u).Ok s) (hA : Allowed t a s)
    (h : exec t a o s = some (r, s')) : (contract u).Guarantee (some t) s s' :=
  have hm := move hI.inv hI.known.1 hA h
  { inv := hm.inv
    rely := fun v hv =>
      { toSteady := (exec_effect _ h).steady hI.known.1 fun ht => hv (congrArg some ht.symm)
        toRespects := hm.respects v hv }
    guar := hm.keeps }

/-- The network keeps the contract. -/
lemma guarantee_osStep {e : OsEvent} (hI : (contract u).Ok s) (h : osStep e s = some s') :
    (contract u).Guarantee none s s' :=
  have hm := Move.osStep hI.inv h
  { inv := hm.inv
    rely := fun v hv =>
      { toSteady := (undisturbed_osStep h).steady v
        toRespects := hm.respects v hv }
    guar := hm.keeps }

end Server

end Alpl.Net
