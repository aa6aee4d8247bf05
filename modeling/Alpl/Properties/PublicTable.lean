import Alpl.Interleaving.Beside
import Alpl.Handler.Passing
import Alpl.Properties.SocketsClosed

/-!
# The connection table that the user sees

`SetIocpHandler` hands the public map `TcpConnections` to the constructor of `IocpHandler` by
reference, and the constructor copies it: `connections_` is a map of its own.  Nothing in the
library touches the public map again, so a run of the server has it beside the state of the handler
(`Machine.beside`), and it stays as empty as it was.

The two maps agree exactly as long as no connection is left.  That takes the place of each
connection that was made: it is in `connections_`, or a worker is inside `handle_new_connection` or
`disconnect` for it, or its context is freed (`Server.Placed`).
-/

namespace Alpl.Net

open Interleaving Typestate

/-! ## The server with its public map -/

/-- A `TcpConnectionMap`. -/
abbrev ConnectionMap := SOCKET → Option (Option ConnectionPtr)

/-- `SetIocpHandler`, and what follows until `iocph_->start()` has returned: the handler begins with
a copy of the map it is handed. -/
def State.handed (u : Setup) (TcpConnections : ConnectionMap) : State :=
  { State.init u with connections := TcpConnections }

/-- A `TcpServer` that has started its handler, with `TcpConnections` as its constructor left it. -/
def publicInit (u : Setup) : Config Action Action.Res (State × ConnectionMap) Tid Label :=
  ⟨initThreads u .startServer, (State.handed u fun _ => none, fun _ => none)⟩

/-- A configuration of the server and its public map that is reached in some run. -/
def PublicReachable (u : Setup)
    (G : Config Action Action.Res (State × ConnectionMap) Tid Label) : Prop :=
  ((machine .server).beside ConnectionMap).Reaches (publicInit u) G

/-- No thread is inside `handle_new_connection` or `disconnect`. -/
def State.Settled (s : State) : Prop :=
  ∀ t, (∀ c, .handleNewConnection c ∉ s.stack t) ∧ ∀ c, .disconnect c ∉ s.stack t

/-- Every connection that was made has been torn down: `disconnect` has freed its context. -/
def State.AllTornDown (s : State) : Prop :=
  ∀ p y c, s.tcpConnections p = some y → y.overlapped = some c → s.contexts c = none

lemma PublicReachable.server {u : Setup}
    {G : Config Action Action.Res (State × ConnectionMap) Tid Label} (h : PublicReachable u G) :
    ∃ G₀, Reachable .server u G₀ ∧ G = G₀.beside fun _ => none := by
  have hinit : publicInit u = (serverInit u).beside fun _ => none := rfl
  rw [PublicReachable, hinit] at h
  obtain ⟨G₀, hr, rfl⟩ := Machine.beside_reaches.mp h
  exact ⟨G₀, ⟨_, .server, hr⟩, rfl⟩

/-! ## Where a thread is with a connection -/

/-- Where a thread stands, as far as it matters for the connection it sets up or tears down. -/
inductive Site
  | elsewhere
  /-- Inside `handle_new_connection` for `c`, before the object is made. -/
  | entered (c : ContextPtr)
  /-- Inside `handle_new_connection` for `c`, before the object `p` is in the map. -/
  | made (c : ContextPtr) (p : ConnectionPtr)
  /-- Inside `disconnect`. -/
  | tearing
  deriving DecidableEq, Repr

/-- What a thread may do at a site. -/
@[simp] def Site.allows : Site → Action → Bool
  | .elsewhere, .newConnection _ => false
  | .elsewhere, .assignConnection _ _ => false
  | .elsewhere, .leave (.disconnect _) _ => false
  | .elsewhere, _ => true
  | .entered _, .getSocket _ => true
  | .entered _, .getIocpHandle => true
  | .entered _, .getHandlers => true
  | .entered c, .newConnection y => y.overlapped = some c
  | .entered _, _ => false
  | .made _ p, .assignConnection _ q => q = p
  | .made _ _, _ => false
  | .tearing, .newConnection _ => false
  | .tearing, .assignConnection _ _ => false
  | .tearing, .enter (.disconnect _) => false
  | .tearing, .enter (.handleNewConnection _) => false
  | .tearing, .getQueuedCompletionStatus _ => false
  | .tearing, .finish => false
  | .tearing, _ => true

/-- The site after an action. -/
@[simp] def Site.next (q : Site) (a : Action) : a.Res → Site :=
  match q, a with
  | .elsewhere, .enter (.handleNewConnection c) => fun _ => .entered c
  | .elsewhere, .enter (.disconnect _) => fun _ => .tearing
  | .entered c, .newConnection _ => fun p => .made c p
  | .made _ _, .assignConnection _ _ => fun _ => .elsewhere
  | .tearing, .leave (.disconnect _) _ => fun _ => .elsewhere
  | q, _ => fun _ => q

/-- The automaton of the sites. -/
def sites : Typestate Action Action.Res Label Site where
  allowed q a := q.allows a = true
  next := Site.next
  entry _ := .elsewhere

@[simp] lemma sites_allowed (q : Site) (a : Action) :
    sites.allowed q a ↔ q.allows a = true := Iff.rfl

@[simp] lemma sites_next (q : Site) (a : Action) (r : a.Res) : sites.next q a r = q.next a r := rfl

lemma sites_ordinary (a : Action) (ha : a.isOrdinary = true) :
    sites.allowed .elsewhere a ∧ ∀ r, sites.next .elsewhere a r = .elsewhere := by
  unfold Action.isOrdinary at ha
  split at ha <;> simp_all

lemma tearing_closeSocketAccept (c : ContextPtr) :
    sites.Stays (closeSocketAccept c) .tearing := by
  simp [Stays, closeSocketAccept]

/-- Inside `disconnect` a thread stays until it leaves. -/
lemma tearing_disconnectClient (c : ContextPtr) (g : Bool) :
    sites.Stays (disconnectClient c g) .tearing := by
  have hlinger : sites.Stays (setLinger c g) .tearing := by
    cases g <;> simp [Stays, setLinger]
  refine hlinger.bind fun _ => (tearing_closeSocketAccept c).bind fun _ => ?_
  simp [callHandler]

lemma tearing_disconnectLocked (c : Option ContextPtr) (g : Bool) :
    sites.Stays (disconnectLocked c g) .tearing := by
  cases c with
  | none => simp [Stays, disconnectLocked]
  | some c =>
      refine .step rfl fun l => follows_deref rfl fun l => .step rfl fun v => .step rfl fun w => ?_
      refine Stays.bind ?_ fun _ => .step rfl fun _ => rfl
      split
      · rfl
      · exact tearing_disconnectClient c g

lemma tearing_body (c : Option ContextPtr) (g : Bool) :
    sites.Stays (act (.enterCriticalSection (.disconnect c)) >>= fun entered =>
      if entered then disconnectLocked c g else pure commFailed) .tearing := by
  refine .step rfl fun entered => ?_
  cases entered with
  | false => rfl
  | true => exact tearing_disconnectLocked c g

lemma sites_passes : Passes sites .elsewhere where
  ordinary := sites_ordinary
  disconnect c g := .step rfl fun _ => (tearing_body c g).bind fun _ => .step rfl fun _ => rfl

lemma sites_handleNewConnection (c n : ContextPtr) (arg : IocpParam) :
    sites.Stays (handleNewConnection c n arg) .elsewhere := by
  refine .step rfl fun _ => Follows.bind (N := fun _ q => q = .elsewhere) ?_ ?_
  · refine .step rfl fun v => .step rfl fun port => .step rfl fun hs =>
      .step (by simp [newTcpConnection, TcpConnection.new]) fun p => .step (by simp) fun _ => ?_
    refine Stays.bind ?_ fun _ => sites_passes.firstReceive n
    split
    · exact sites_passes.stays (ordinary_deliver p c arg.ioSize)
    · rfl
  · rintro rc q rfl
    exact .step rfl fun _ => rfl

lemma sites_turn (pkt : Packet) : sites.Stays (turn pkt) .elsewhere := by
  refine .step rfl fun exiting => ?_
  split
  · rfl
  · refine .step rfl fun isRunning => ?_
    split
    · rfl
    · exact sites_passes.handlePacket sites_handleNewConnection pkt

lemma sites_workerThread (hIOCP : Port) :
    sites.Follows (workerThread hIOCP) .elsewhere sites.Ends := by
  refine .step rfl fun pkt => (sites_turn pkt).bind fun next => .step rfl fun _ => ?_
  cases next with
  | again => rfl
  | leave => exact .step rfl fun _ => trivial

lemma sites_postExitPackets (n : ℕ) : sites.Stays (postExitPackets n) .elsewhere := by
  induction n with
  | zero => rfl
  | succ n ih =>
      refine .step rfl fun h => ?_
      cases h with
      | none => exact ih
      | some port => exact .step rfl fun _ => ih

lemma sites_stop : sites.Stays stop .elsewhere := by
  have hexiting : sites.Stays exiting .elsewhere := by
    refine .step rfl fun _ => .step rfl fun h => .step rfl fun n => Stays.bind ?_ fun _ =>
      .step rfl fun _ => .step rfl fun l => sites_passes.stays (ordinary_afterWait l)
    split
    · exact sites_postExitPackets n
    · rfl
  exact .step rfl fun _ => Stays.bind (hexiting.bind fun _ => .step rfl fun _ => rfl) fun _ =>
    .step rfl fun _ => rfl

lemma sites_run {f : P ℤ} (hf : sites.Stays f .elsewhere) :
    sites.Follows (run f) .elsewhere sites.Ends :=
  hf.bind fun _ => .step rfl fun _ => trivial

/-- All code takes a connection through the sites in order. -/
lemma sites_code (l : Label) : sites.Follows (code l) .elsewhere sites.Ends := by
  cases l with
  | workerThread hIOCP => exact sites_workerThread hIOCP
  | startServer => exact sites_run (sites_passes.stays ordinary_startServer)
  | startClient => exact sites_run (sites_passes.startClient clientConnection)
  | stop => exact sites_run sites_stop
  | send p data => exact sites_run (sites_passes.stays (ordinary_send p data))

/-! ## Where a connection is -/

/-- The frame of `disconnect`. -/
def Frame.isDisconnect : Frame → Bool
  | .disconnect _ => true
  | _ => false

namespace Server

/-- What the sites of the threads say, and the place of every connection that was made. -/
structure Placed (σ : Tid → Site) (s : State) : Prop where
  inside : ∀ t c, (σ t = .entered c ∨ ∃ p, σ t = .made c p) →
    .handleNewConnection c ∈ s.stack t
  tearing : ∀ t, (s.stack t).countP Frame.isDisconnect = if σ t = .tearing then 1 else 0
  placed : ∀ p c, MadeFor s p c → Live s c → (∃ v k, Registered s c v k p) ∨
    (∃ t, .disconnect (some c) ∈ s.stack t) ∨ ∃ t, σ t = .made c p

lemma placed_init (u : Setup) : Placed (fun _ => .elsewhere) (State.init u) := by
  refine ⟨fun t c h => ?_, fun t => rfl, fun p c h => ?_⟩
  · rcases h with h | ⟨p, h⟩ <;> cases h
  · obtain ⟨y, hy, -⟩ := h
    cases hy

section Act

variable {u : Setup} {G : Config Action Action.Res State Tid Label} {t : Tid} {a : Action}
variable {k : a.Res → P (Option Label)} {o : Outcome} {r : a.Res} {s' : State} {σ : Tid → Site}

/-- Whoever is setting up a connection is still inside `handle_new_connection`. -/
lemma next_eq_entered {q : Site} {c : ContextPtr} (ha : q.allows a = true)
    (h : q.next a r = .entered c ∨ ∃ p, q.next a r = .made c p) :
    a = .enter (.handleNewConnection c) ∨
      (q = .entered c ∨ ∃ p, q = .made c p) ∧ a.pushes = false ∧ a ≠ .callbackReturns ∧
        a.clears = false := by
  cases q with
  | elsewhere =>
      left
      cases a with
      | enter f => cases f <;> simp_all
      | _ => simp_all
  | entered d => cases a <;> simp_all [Action.pushes, Action.clears]
  | made d p => cases a <;> simp_all
  | tearing =>
      exfalso
      cases a with
      | leave f rc => cases f <;> simp_all
      | _ => simp_all

/-- What an action can push. -/
lemma pushed_frame {s : State} {f : Frame} (he : exec t a o s = some (r, s'))
    (ha : a.pushes = true) (hs : s'.stack t = f :: s.stack t) :
    a = .enter f ∨ ∃ kind p, f = .callback kind p := by
  cases a with
  | enter g =>
      cases o <;> cases he
      simp [State.setStack, State.record] at hs
      exact .inl (congrArg Action.enter hs)
  | invokeHandler kind p data =>
      right
      cases o <;> simp [exec, exec.invoke] at he
      split at he <;> cases he
      · simp [State.setStack, State.record] at hs
        exact ⟨kind, p, hs.symm⟩
      · simp [State.record] at hs
  | invokeConnection q kind p data =>
      right
      cases o <;> simp [exec, exec.invoke] at he
      obtain ⟨y, -, he⟩ := he
      split at he <;> cases he
      · simp [State.setStack, State.record] at hs
        exact ⟨kind, p, hs.symm⟩
      · simp [State.record] at hs
  | _ => cases ha

/-- Elsewhere a thread has no frame of `disconnect`. -/
lemma Placed.not_mem {s : State} (hI : Placed σ s) (ht : σ t ≠ .tearing)
    (c : Option ContextPtr) : .disconnect c ∉ s.stack t := by
  have hcount := hI.tearing t
  rw [if_neg ht, List.countP_eq_zero] at hcount
  exact fun hc => hcount _ hc rfl

/-- Only `disconnect` begins and ends the site inside it. -/
lemma next_eq_tearing {q : Site} (henter : ∀ c, a ≠ .enter (.disconnect c))
    (hleave : ∀ c rc, a ≠ .leave (.disconnect c) rc) :
    q.next a r = .tearing ↔ q = .tearing := by
  cases a with
  | enter f => cases q <;> cases f <;> simp_all
  | leave f rc => cases q <;> cases f <;> simp_all
  | _ => cases q <;> simp

variable (hG : Reachable .server u G) (hx : G.threads t = .running (.act a k))
variable (ha : (σ t).allows a = true) (he : exec t a o G.state = some (r, s'))
variable (hI : Placed σ G.state)
include ha he hI

lemma Placed.act_inside (v : Tid) (c : ContextPtr)
    (hv : Function.update σ t ((σ t).next a r) v = .entered c ∨
      ∃ p, Function.update σ t ((σ t).next a r) v = .made c p) :
    .handleNewConnection c ∈ s'.stack v := by
  have hE := exec_effect _ he
  by_cases hvt : v = t
  · subst hvt
    simp only [Function.update_self] at hv
    rcases next_eq_entered ha hv with rfl | ⟨hq, hpush, hreturn, hclear⟩
    · cases o <;> cases he
      show .handleNewConnection c ∈ Function.update G.state.stack v (_ :: G.state.stack v) v
      rw [Function.update_self]
      exact List.mem_cons_self
    · rcases hE.ownStack with hs | ⟨h, -⟩ | ⟨h, -⟩ | h
      · exact hs ▸ hI.inside v c hq
      · exact nomatch hpush.symm.trans h
      · exact absurd h hreturn
      · exact nomatch hclear.symm.trans h
  · simp only [Function.update_of_ne hvt] at hv
    rw [hE.stack v hvt]
    exact hI.inside v c hv

include hG hx

omit hI in
/-- Inside `disconnect` a thread has its frame until it leaves with it on top. -/
lemma frames_kept (hq : σ t = .tearing) :
    (∃ c rc, a = .leave (.disconnect c) rc) ∨
      (s'.stack t).countP Frame.isDisconnect = (G.state.stack t).countP Frame.isDisconnect ∧
        ∀ c, .disconnect c ∈ G.state.stack t → .disconnect c ∈ s'.stack t := by
  have hA := hG.server.allowed hx
  rw [hq] at ha
  -- what a frame that is no `disconnect` does on top of the others
  have hpush : ∀ f fs, f.isDisconnect = false →
      (f :: fs).countP Frame.isDisconnect = fs.countP Frame.isDisconnect := by
    intro f fs hf
    exact List.countP_cons_of_neg (by simp [hf])
  have hpop : ∀ f fs, f.isDisconnect = false → G.state.stack t = f :: fs → s'.stack t = fs →
      (s'.stack t).countP Frame.isDisconnect = (G.state.stack t).countP Frame.isDisconnect ∧
        ∀ c, .disconnect c ∈ G.state.stack t → .disconnect c ∈ s'.stack t := by
    rintro f fs hf hs hs'
    rw [hs, hs', hpush f fs hf]
    refine ⟨rfl, fun c hc => (List.mem_cons.mp hc).resolve_left ?_⟩
    rintro rfl
    cases hf
  rcases (exec_effect _ he).ownStack with hs | ⟨h, f, hs⟩ | ⟨rfl, hs⟩ | h
  · exact .inr (hs ▸ ⟨rfl, fun c hc => hc⟩)
  · right
    have hf : f.isDisconnect = false := by
      rcases pushed_frame he h hs with rfl | ⟨kind, p, rfl⟩
      · cases f <;> simp_all [Frame.isDisconnect]
      · rfl
    rw [hs]
    exact ⟨hpush f _ hf, fun c hc => List.mem_cons_of_mem f hc⟩
  · obtain ⟨kind, p, fs, hstack⟩ := hA
    exact .inr (hpop _ fs rfl hstack (by rw [hs, hstack]; rfl))
  · cases a with
    | leave f rc =>
        cases o <;> cases he
        obtain ⟨⟨fs, hstack⟩, -⟩ := hA
        cases hf : f.isDisconnect with
        | true =>
            left
            cases f with
            | disconnect c => exact ⟨c, rc, rfl⟩
            | _ => cases hf
        | false =>
            refine .inr (hpop f fs hf hstack ?_)
            show Function.update G.state.stack t (G.state.stack t).tail t = fs
            rw [Function.update_self, hstack]
            rfl
    | finish => cases ha
    | getQueuedCompletionStatus port => cases ha
    | _ => cases h

lemma Placed.act_tearing (v : Tid) : (s'.stack v).countP Frame.isDisconnect =
    if Function.update σ t ((σ t).next a r) v = .tearing then 1 else 0 := by
  by_cases hvt : v = t
  · subst hvt
    rw [Function.update_self]
    have hold := hI.tearing v
    by_cases henter : ∃ c, a = .enter (.disconnect c)
    · obtain ⟨c, rfl⟩ := henter
      have hσ : σ v = .elsewhere := by
        cases hq : σ v <;> simp_all
      rw [hσ, if_neg nofun] at hold
      cases o <;> cases he
      rw [hσ, if_pos (by rfl)]
      show (Function.update G.state.stack v (_ :: G.state.stack v) v).countP _ = 1
      rw [Function.update_self, List.countP_cons_of_pos rfl, hold]
    by_cases hleave : ∃ c rc, a = .leave (.disconnect c) rc
    · obtain ⟨c, rc, rfl⟩ := hleave
      have hσ : σ v = .tearing := by
        cases hq : σ v <;> simp_all
      obtain ⟨⟨fs, hfs⟩, -⟩ := hG.server.allowed hx
      rw [hσ, if_pos rfl, hfs, List.countP_cons_of_pos rfl] at hold
      cases o <;> cases he
      rw [hσ, if_neg (by simp)]
      show (Function.update G.state.stack v (G.state.stack v).tail v).countP _ = 0
      rw [Function.update_self, hfs]
      exact Nat.succ.inj hold
    simp only [next_eq_tearing (fun c h => henter ⟨c, h⟩) fun c rc h => hleave ⟨c, rc, h⟩]
    by_cases hσ : σ v = .tearing
    · rw [((frames_kept hG hx ha he hσ).resolve_left hleave).1, hold]
    · rw [if_neg hσ, List.countP_eq_zero]
      rintro f hf hdisconnect
      cases f with
      | disconnect c =>
          rcases (exec_contextEffect _ he).frames c hf with ⟨hmem, -⟩ | rfl
          · exact hI.not_mem hσ c hmem
          · exact henter ⟨c, rfl⟩
      | _ => cases hdisconnect
  · rw [Function.update_of_ne hvt, (exec_effect _ he).stack v hvt]
    exact hI.tearing v

omit ha hI in
/-- A registration is lost only to a `disconnect` for its context. -/
lemma registered_kept {p : ConnectionPtr} {c : ContextPtr} {v : SOCKET} {j : SockId}
    (h : Registered G.state c v j p) :
    (∃ v j, Registered s' c v j p) ∨ .disconnect (some c) ∈ G.state.stack t := by
  by_cases hframe : .disconnect (some c) ∈ G.state.stack t
  · exact .inr hframe
  · have hg := guarantee hG.server.ok (hG.server.allowed hx) he
    refine .inl ⟨v, j, hg.guar c v j p h fun w hw => ?_⟩
    obtain rfl := Option.some.inj hw
    exact hframe

/-- Whoever leaves `disconnect` with the context still there has not removed it from the map. -/
lemma Placed.frame_left {p : ConnectionPtr} {c : ContextPtr} (hp : MadeFor G.state p c)
    (hlive : Live G.state c) (hframe : .disconnect (some c) ∈ G.state.stack t) :
    (∃ v j, Registered s' c v j p) ∨ .disconnect (some c) ∈ s'.stack t := by
  have hσ : σ t = .tearing := by
    by_contra hσ
    exact hI.not_mem hσ _ hframe
  rcases frames_kept hG hx ha he hσ with ⟨d, rc, rfl⟩ | ⟨-, hkept⟩
  · left
    obtain ⟨⟨fs, hfs⟩, hA⟩ := hG.server.allowed hx
    have hcount := hI.tearing t
    rw [if_pos hσ, hfs, List.countP_cons_of_pos rfl] at hcount
    -- there is one frame of `disconnect`, and it is on top
    have hd : d = some c := by
      rw [hfs] at hframe
      rcases List.mem_cons.mp hframe with h | h
      · exact (Frame.disconnect.inj h).symm
      · exact absurd rfl (List.countP_eq_zero.mp (Nat.succ.inj hcount) _ h)
    subst hd
    have hheld : c ∈ G.state.holds t := by
      obtain ⟨-, -, -, h⟩ := (filed hG).inside t c hframe
      obtain ⟨x, hx⟩ := hlive
      exact h.resolve_right fun hnone => nomatch hx.symm.trans hnone
    obtain ⟨v, j, q, hreg⟩ := hA.1 hheld
    obtain rfl := hG.server.ok.inv.objectUnique p q c hp hreg.madeFor
    cases o <;> cases he
    exact ⟨v, j, hreg⟩
  · exact .inr (hkept _ hframe)

omit hG hx hI in
/-- The connection that was just made is entered into the map before anything else. -/
lemma made_placed {p : ConnectionPtr} {c : ContextPtr} {v : Tid}
    (hp : MadeFor G.state p c) (hA : Allowed t a G.state) (hv : σ v = .made c p) :
    (∃ w j, Registered s' c w j p) ∨
      ∃ v, Function.update σ t ((σ t).next a r) v = .made c p := by
  by_cases hvt : v = t
  · subst hvt
    rw [hv] at ha
    cases a with
    | assignConnection w q =>
        obtain rfl : q = p := of_decide_eq_true ha
        obtain ⟨-, d, j, -, hattached, y, hy, hd, hsock⟩ := hA
        obtain rfl := MadeFor.context_eq hp ⟨y, hy, hd⟩
        cases o <;> cases he
        exact .inl ⟨w, j, hattached, Function.update_self _ _ _, y, hy, hd, hsock⟩
    | _ => cases ha
  · exact .inr ⟨v, (Function.update_of_ne hvt _ _).trans hv⟩

lemma Placed.act_placed (p : ConnectionPtr) (c : ContextPtr) (hp : MadeFor s' p c)
    (hlive : Live s' c) : (∃ v j, Registered s' c v j p) ∨
      (∃ v, .disconnect (some c) ∈ s'.stack v) ∨
      ∃ v, Function.update σ t ((σ t).next a r) v = .made c p := by
  have hS := hG.server.ok.inv
  have hold : MadeFor G.state p c → (∃ v j, Registered s' c v j p) ∨
      (∃ v, .disconnect (some c) ∈ s'.stack v) ∨
      ∃ v, Function.update σ t ((σ t).next a r) v = .made c p := by
    intro hp
    obtain ⟨y, hy, hc⟩ := hp
    obtain ⟨d, hlt, hd, -⟩ := hS.objectOf p y hy
    obtain rfl : c = d := Option.some.inj (hc.symm.trans hd)
    have hlive' : Live G.state c := by
      by_contra hdead
      have hnone : G.state.contexts c = none := by
        by_contra hsome
        exact hdead (Option.ne_none_iff_exists'.mp hsome)
      obtain ⟨x, hx'⟩ := hlive
      rw [(exec_footprint _ he).gone c (Nat.ne_of_lt hlt) hnone] at hx'
      cases hx'
    have hframe : .disconnect (some c) ∈ G.state.stack t → (∃ v j, Registered s' c v j p) ∨
        ∃ v, .disconnect (some c) ∈ s'.stack v := fun h =>
      (hI.frame_left hG hx ha he ⟨y, hy, hc⟩ hlive' h).imp_right fun h => ⟨t, h⟩
    rw [← or_assoc]
    rcases hI.placed p c ⟨y, hy, hc⟩ hlive' with ⟨v, j, hreg⟩ | ⟨v, hv⟩ | ⟨v, hv⟩
    · exact .inl ((registered_kept hG hx he hreg).elim .inl hframe)
    · by_cases hvt : v = t
      · exact .inl (hframe (hvt ▸ hv))
      · exact .inl (.inr ⟨v, (exec_effect _ he).stack v hvt ▸ hv⟩)
    · exact (made_placed ha he ⟨y, hy, hc⟩ (hG.server.allowed hx) hv).imp_left .inl
  rcases (exec_effect _ he).objects with ⟨hsame, -⟩ | ⟨y, rfl, -, hobjects⟩
  · exact hold (by rwa [MadeFor, hsame] at hp)
  · obtain ⟨z, hz, hc⟩ := hp
    rw [hobjects] at hz
    by_cases hpn : p = G.state.nextConnection
    · subst hpn
      rw [Function.update_self] at hz
      obtain rfl := Option.some.inj hz
      refine .inr (.inr ⟨t, ?_⟩)
      rw [Function.update_self]
      cases hq : σ t <;> rw [hq] at ha <;> simp at ha
      cases o <;> cases he
      obtain rfl := Option.some.inj (hc.symm.trans ha)
      rfl
    · exact hold ⟨z, (Function.update_of_ne hpn _ _).symm.trans hz, hc⟩

lemma Placed.act : Placed (Function.update σ t ((σ t).next a r)) s' where
  inside := hI.act_inside ha he
  tearing := hI.act_tearing hG hx ha he
  placed := hI.act_placed hG hx ha he

end Act

/-! ### Runs -/

variable {u : Setup} {G : Config Action Action.Res State Tid Label} {σ : Tid → Site} {t : Tid}

lemma Placed.osStep {e : OsEvent} {s' : State} (hG : Reachable .server u G)
    (hI : Placed σ G.state) (h : osStep e G.state = some s') : Placed σ s' := by
  have hU := undisturbed_osStep h
  refine ⟨fun t c ht => ?_, fun t => ?_, fun p c hp hlive => ?_⟩
  · rw [hU.stack]
    exact hI.inside t c ht
  · rw [hU.stack]
    exact hI.tearing t
  · have hlive' : Live G.state c := by
      obtain ⟨x, hx⟩ := hlive
      obtain ⟨op, hop⟩ := osStep_effect h
      obtain ⟨g, hg⟩ := hop.contexts c
      rw [hg] at hx
      exact (Option.map_eq_some_iff.mp hx).imp fun x hx => hx.1
    have hp' : MadeFor G.state p c := by
      rwa [MadeFor, hU.tcpConnections] at hp
    rw [hU.stack]
    have hg := (guarantee_osStep hG.server.ok h).guar
    refine (hI.placed p c hp' hlive').imp_left ?_
    rintro ⟨v, j, hreg⟩
    exact ⟨v, j, hg c v j p hreg fun t ht => absurd ht.symm (Option.some_ne_none t)⟩

/-- An idle thread is not inside anything. -/
lemma Placed.enter (hG : Reachable .server u G) (hx : G.threads t = .idle)
    (hI : Placed σ G.state) : Placed (Function.update σ t .elsewhere) G.state := by
  have hidle := hG.server.threads t
  rw [hx] at hidle
  obtain ⟨⟨hstack, -⟩, -⟩ := hidle
  refine ⟨fun v c hv => ?_, fun v => ?_, fun p c hp hlive => ?_⟩
  · by_cases hvt : v = t
    · rw [hvt, Function.update_self] at hv
      rcases hv with hv | ⟨p, hv⟩ <;> cases hv
    · rw [Function.update_of_ne hvt] at hv
      exact hI.inside v c hv
  · by_cases hvt : v = t
    · rw [hvt, Function.update_self, hstack]
      rfl
    · rw [Function.update_of_ne hvt]
      exact hI.tearing v
  · refine (hI.placed p c hp hlive).imp_right fun h => h.imp_right fun ⟨v, hv⟩ => ⟨v, ?_⟩
    rw [Function.update_of_ne _ _ _, hv]
    rintro rfl
    have hmem := hI.inside v c (.inr ⟨p, hv⟩)
    rw [hstack] at hmem
    cases hmem

lemma placed_keeps (u : Setup) :
    sites.Keeps (machine .server) (Reachable .server u) Placed where
  code := sites_code
  act _ _ _ _ _ _ _ _ hG hx ha he hI := hI.act hG hx ha he
  env _ _ _ _ hG he hI := hI.osStep hG he
  enter _ _ _ _ _ hG hx he hI := by
    obtain rfl := enter_eq he
    exact hI.enter hG hx

end Server

lemma Reachable.placed {u : Setup} {G : Config Action Action.Res State Tid Label}
    (h : Reachable .server u G) : ∃ σ, Server.Placed σ G.state := by
  obtain ⟨G₀, h0, hr⟩ := h
  cases h0
  have htrack : ∀ t, sites.OnTrack ((serverInit u).threads t) .elsewhere := by
    intro t
    cases t with
    | main => exact sites_code .startServer
    | worker i =>
        show sites.OnTrack (initThreads u .startServer (.worker i)) .elsewhere
        rw [initThreads_worker]
        split
        · exact sites_code (.workerThread handlerPort)
        · trivial
    | user i => trivial
  obtain ⟨σ, -, hσ⟩ := (Server.placed_keeps u).sound (fun G' hr' => ⟨_, .server, hr'⟩) hr
    htrack (Server.placed_init u)
  exact ⟨σ, hσ⟩

/-! ## The result -/

/-- **The public table is the live one as long as there is nothing in it to see.**  While no worker
is inside `handle_new_connection` or `disconnect`, `TcpConnections` equals `connections_` exactly if
every connection that was made has been torn down. -/
theorem public_table_iff {u : Setup}
    {G : Config Action Action.Res (State × ConnectionMap) Tid Label} (h : PublicReachable u G)
    (hsettled : G.state.1.Settled) :
    G.state.2 = G.state.1.connections ↔ G.state.1.AllTornDown := by
  obtain ⟨G₀, hG, rfl⟩ := h.server
  obtain ⟨σ, hσ⟩ := hG.placed
  constructor
  · intro heq p y c hy hc
    by_contra hlive
    have hlive := Option.ne_none_iff_exists'.mp hlive
    rcases hσ.placed p c ⟨y, hy, hc⟩ hlive with ⟨v, k, -, hmapped, -⟩ | ⟨t, ht⟩ | ⟨t, ht⟩
    · exact nomatch (congrFun heq v).trans hmapped
    · exact (hsettled t).2 _ ht
    · exact (hsettled t).1 c (hσ.inside t c (.inr ⟨p, ht⟩))
  · intro hgone
    funext v
    cases hv : G₀.state.connections v with
    | none => exact hv.symm
    | some o =>
        obtain ⟨c, k, p, -, hreg⟩ := hG.server.ok.inv.mapped v o hv
        obtain ⟨y, hy, hc⟩ := hreg.madeFor
        obtain ⟨x, hx⟩ := hreg.live
        exact nomatch hx.symm.trans (hgone p y c hy hc)

/-- What a script shows after which the main thread and the workers are between two functions. -/
lemma settled_of_moves (es : List (Event Tid Label Outcome OsEvent))
    (hes : ∀ e ∈ es, e.mover.all (· ∈ crew) = true)
    {φ : Config Action Action.Res State Tid Label → Bool}
    (h : ((machine .server).run (serverInit fullServer) es).any (fun G =>
      φ G && decide (∀ t ∈ crew, G.state.stack t = [])) = true) :
    ∃ G, Reachable .server fullServer G ∧ PublicReachable fullServer (G.beside fun _ => none) ∧
      G.state.Settled ∧ φ G = true := by
  obtain ⟨G, hG, hφ, hidle⟩ := reachable_of_moves es hes h
  simp only [Bool.and_eq_true, decide_eq_true_eq] at hφ
  obtain ⟨hφ, hstack⟩ := hφ
  have hempty : ∀ t, G.state.stack t = [] := by
    intro t
    by_cases hcrew : t ∈ crew
    · exact hstack t hcrew
    have ht := hG.server.threads t
    rw [hidle t hcrew] at ht
    exact ht.1.1
  obtain ⟨G₀, h0, hr⟩ := hG
  cases h0
  refine ⟨G, ⟨_, .server, hr⟩, Machine.beside_reaches.mpr ⟨G, hr, rfl⟩, fun t => ?_, hφ⟩
  rw [hempty t]
  exact ⟨fun _ => List.not_mem_nil, fun _ => List.not_mem_nil⟩

/-- A client comes and goes, and the two tables are equal again. -/
theorem public_table_iff_gone : ∃ G, PublicReachable fullServer G ∧ G.state.1.Settled ∧
    G.state.2 = G.state.1.connections := by
  obtain ⟨G, hG, hpublic, hsettled, hφ⟩ :=
    settled_of_moves (startMoves ++ acceptMoves 1 102 ++ breakMoves 1 1) (by decide)
      (φ := fun G => G.state.nextConnection = 1 ∧ G.state.contexts 1 = none ∧
        (G.state.tcpConnections 0).map TcpConnection.overlapped = some (some 1))
      (by decide +kernel)
  obtain ⟨hnext, hfreed, hobject⟩ := of_decide_eq_true hφ
  refine ⟨_, hpublic, hsettled, (public_table_iff hpublic hsettled).mpr fun p y c hy hc => ?_⟩
  have hp : p < 1 := by
    by_contra hp
    rw [← hnext] at hp
    exact nomatch hy.symm.trans (hG.handler.ok.inv.unnamed p (Nat.le_of_not_lt hp))
  obtain rfl := Nat.lt_one_iff.mp hp
  rw [show G.state.tcpConnections 0 = some y from hy, Option.map_some, hc] at hobject
  obtain rfl : c = 1 := Option.some.inj (Option.some.inj hobject)
  exact hfreed

/-- A client is connected, and the public table does not show it. -/
theorem public_table_empty :
    ¬ ∀ u G, PublicReachable u G → G.state.1.Settled → G.state.2 = G.state.1.connections := by
  intro h
  obtain ⟨G, -, hpublic, hsettled, hφ⟩ := settled_of_moves (startMoves ++ acceptMoves 1 102)
    (by decide) (φ := fun G => G.state.connections 101 = some (some 0)) (by decide +kernel)
  have hshown := congrFun (h _ _ hpublic hsettled) 101
  exact nomatch hshown.trans (of_decide_eq_true hφ)

end Alpl.Net
