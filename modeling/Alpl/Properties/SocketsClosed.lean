import Alpl.Handler.Sockets
import Alpl.Server.Runs

/-!
# The sockets a server leaves open

The sockets of a run balance (`Reachable.account`); what is left open when `Stop` returns, or when
`Start` fails, depends on how far each of them has come.  `Server.Filed` is the account of the
contexts: one in the list belongs to a connection whose socket is associated with the port, one
whose `disconnect` has returned is freed, and once `Stop` has returned the listening socket is
closed.

`Stop` closes the listening socket and nothing else, and a failing `Start` closes nothing.
-/

namespace Alpl.Net

open HandleTable Interleaving

namespace Server

variable {t : Tid} {a : Action} {o : Outcome} {s s' : State} {c l : ContextPtr} {u : Setup}

/-- There is a listening context, and it is not `c`. -/
def Apart (s : State) (c : ContextPtr) : Prop := ∃ l, s.theSocketContext = some l ∧ c ≠ l

/-- What is on record of the contexts. -/
structure Filed (s : State) : Prop where
  named : .close false ∉ s.ledger
  listed : ∀ c ∈ s.socketContexts, Live s c ∧ (∃ k, KeyOf s k c) ∧ Apart s c
  inside : ∀ t c, .disconnect (some c) ∈ s.stack t → c < s.nextContext ∧ Apart s c ∧
    (∃ u, .entered u (.disconnect (some c)) ∈ s.history) ∧ (c ∈ s.holds t ∨ s.contexts c = none)
  dropped : ∀ t c, .returned t (.disconnect (some c)) commSuccess ∈ s.history →
    c < s.nextContext ∧ s.contexts c = none
  stopped : ∀ rc, .returned .main .stop rc ∈ s.history →
    ∃ l, s.theSocketContext = some l ∧ Closed s l

lemma filed_init (u : Setup) : Filed (State.init u) where
  named := List.not_mem_nil
  listed _ h := absurd h List.not_mem_nil
  inside _ _ h := absurd h List.not_mem_nil
  dropped _ _ h := absurd h List.not_mem_nil
  stopped _ h := absurd h List.not_mem_nil

/-! ## One action -/

lemma disconnects_of_entered {h : List Record}
    (hm : .entered t (.disconnect (some c)) ∈ h) : disconnectsIn c h ≠ 0 := by
  induction h with
  | nil => cases hm
  | cons r h ih =>
      rcases List.mem_cons.mp hm with rfl | hm
      · rw [disconnectsIn, if_pos rfl]
        exact Nat.succ_ne_zero _
      · have hrest := ih hm
        rw [disconnectsIn.eq_def]
        grind

/-- A context that is being torn down is submitted nowhere. -/
lemma act_submits (hA : Allowed t a s) (hap : Apart s c)
    (hentered : ∃ u, .entered u (.disconnect (some c)) ∈ s.history) : a.submits ≠ some c := by
  intro hsub
  obtain ⟨l, hl, hne⟩ := hap
  obtain ⟨u, hu⟩ := hentered
  cases a <;> cases hsub
  · exact hne (Option.some.inj (hA.1.symm.trans hl))
  · exact disconnects_of_entered hu hA.2.1
  · exact hA.elim

/-- Only `closesocket` can close a handle that names nothing. -/
lemma entry_close {ρ : Record} {named : Bool} (h : ρ.entry = some (.close named)) :
    ∃ t v, ρ = .call t (.closesocket v) named := by
  unfold Record.entry at h
  split at h <;> cases h
  exact ⟨_, _, rfl⟩

section Act

variable {r : a.Res} (he : exec t a o s = some (r, s'))
include he

lemma mem_history {ρ : Record} (h : ρ ∈ s'.history) : ρ ∈ s.history ∨ Record.IsOf t s a ρ := by
  rcases (exec_effect _ he).history with hh | ⟨ρ', hρ, hh⟩
  · exact .inl (hh ▸ h)
  · rcases List.mem_cons.mp (hh ▸ h) with rfl | h
    · exact .inr hρ
    · exact .inl h

lemma history_mem {ρ : Record} (h : ρ ∈ s.history) : ρ ∈ s'.history := by
  rcases (exec_effect _ he).history with hh | ⟨ρ', -, hh⟩
  · exact hh.symm ▸ h
  · exact hh.symm ▸ List.mem_cons_of_mem ρ' h

lemma gone_of_exec (hc : c < s.nextContext) (h : s.contexts c = none) :
    c < s'.nextContext ∧ s'.contexts c = none :=
  ⟨Nat.lt_of_lt_of_le hc (exec_contextEffect _ he).next,
    (exec_footprint _ he).gone c (Nat.ne_of_lt hc) h⟩

variable (hI : Inv s) (hA : Allowed t a s)

omit he in
lemma key_fresh {k : SockId} (hI : Inv s) (h : KeyOf s k c) : k < s.nextSock := by
  by_contra hk
  obtain ⟨q, hq⟩ := h
  rw [hI.freshSocket k (Nat.le_of_not_lt hk)] at hq
  cases hq

include hI in
lemma key_of_exec {k : SockId} (h : KeyOf s k c) : KeyOf s' k c :=
  h.imp fun _ hq =>
    (exec_effect _ he).assocKept k _ (Nat.ne_of_lt (key_fresh hI h)) hq

include hA

lemma the_of_exec (h : s.theSocketContext = some l) : s'.theSocketContext = some l := by
  rcases (exec_contextEffect _ he).the with hthe | ⟨l', rfl⟩
  · exact hthe.trans h
  · exact nomatch hA.1.2.symm.trans h

lemma apart_of_exec (h : Apart s c) : Apart s' c :=
  h.imp fun _ hl => ⟨the_of_exec he hA hl.1, hl.2⟩

include hI

/-- Nothing opens the socket of the listening context again. -/
lemma closed_of_exec (hl : s.theSocketContext = some l) (h : Closed s l) : Closed s' l := by
  rintro v k hv ⟨q, hq⟩
  have hkey : KeyOf s k l := by
    rcases (exec_effect _ he).assoc k q l hq with hold | ⟨w, port, rfl, -⟩
    · exact ⟨q, hold⟩
    · obtain ⟨-, -, ⟨-, hnone⟩ | ⟨-, hne⟩, -⟩ := hA
      · exact nomatch hnone.symm.trans hl
      · exact absurd hl hne
  rcases (exec_contextEffect _ he).handles v k hv with hold | ⟨-, rfl⟩
  · exact h v k hold hkey
  · exact Nat.lt_irrefl _ (key_fresh hI hkey)

/-! ### The fields -/

variable (hF : Filed s)
include hF

omit hI in
lemma act_named : .close false ∉ s'.ledger := by
  intro hm
  obtain ⟨ρ, hρ, hentry⟩ := List.mem_filterMap.mp hm
  rcases mem_history he hρ with hold | hnew
  · exact hF.named (List.mem_filterMap.mpr ⟨ρ, hold, hentry⟩)
  · obtain ⟨w, v, rfl⟩ := entry_close hentry
    cases hnew
    cases o <;> cases he
    rcases List.mem_cons.mp hρ with heq | hold
    · have hopen : (s.handles v).isSome := by
        rcases hA with ⟨-, k, -, hk, -⟩ | ⟨-, -, -, k, -, hk, -⟩ <;> rw [hk] <;> rfl
      rw [hopen] at heq
      cases heq
    · exact hF.named (List.mem_filterMap.mpr ⟨_, hold, hentry⟩)

lemma act_listed (hc : c ∈ s'.socketContexts) :
    Live s' c ∧ (∃ k, KeyOf s' k c) ∧ Apart s' c := by
  have hE := exec_contextEffect _ he
  have hlive : Live s c → a ≠ .freeContext c → Live s' c := fun ⟨x, hx⟩ ha =>
    (hE.live c x hx).resolve_right ha
  rcases hE.listed c hc with hold | hpush
  · obtain ⟨hl, ⟨k, hk⟩, hap⟩ := hF.listed c hold
    refine ⟨hlive hl ?_, ⟨k, key_of_exec he hI hk⟩, apart_of_exec he hA hap⟩
    rintro rfl
    obtain ⟨-, -, -, -, -, hnot⟩ := hA
    exact hnot k hk hold
  · subst hpush
    obtain ⟨k, hk⟩ := hA.2
    exact ⟨hlive (hI.live t c hA.1.1) nofun, ⟨k, key_of_exec he hI hk⟩,
      apart_of_exec he hA hA.1.2⟩

lemma act_inside {v : Tid} (hc : .disconnect (some c) ∈ s'.stack v) :
    c < s'.nextContext ∧ Apart s' c ∧ (∃ u, .entered u (.disconnect (some c)) ∈ s'.history) ∧
      (c ∈ s'.holds v ∨ s'.contexts c = none) := by
  have hold : .disconnect (some c) ∈ s.stack v → (c ∈ s.holds v → c ∈ s'.holds v ∨
      s'.contexts c = none) → c < s'.nextContext ∧ Apart s' c ∧
        (∃ u, .entered u (.disconnect (some c)) ∈ s'.history) ∧
        (c ∈ s'.holds v ∨ s'.contexts c = none) := by
    intro hm hheld
    obtain ⟨hlt, hap, ⟨w, hw⟩, hor⟩ := hF.inside v c hm
    have hnext := Nat.lt_of_lt_of_le hlt (exec_contextEffect _ he).next
    refine ⟨hnext, apart_of_exec he hA hap, ⟨w, history_mem he hw⟩, ?_⟩
    exact hor.elim hheld fun hnone => .inr (gone_of_exec he hlt hnone).2
  by_cases hvt : v = t
  · subst hvt
    rcases (exec_contextEffect _ he).frames _ hc with ⟨hm, hkeep⟩ | rfl
    · refine hold hm fun hmem => ?_
      rcases (exec_contextEffect _ he).held c hmem with hmem' | hfree | hsub | hre
      · exact .inl hmem'
      · exact .inr ((exec_contextEffect _ he).freed c hfree)
      · obtain ⟨-, hap, hentered, -⟩ := hF.inside v c hm
        exact absurd hsub (act_submits hA hap hentered)
      · exact nomatch hkeep.symm.trans hre
    · obtain ⟨d, hd, hserving, -⟩ := hA
      cases hd
      cases o <;> cases he
      exact ⟨hI.lt_of_live (hI.live v c hserving.1), hserving.2, ⟨v, List.mem_cons_self⟩,
        .inl hserving.1⟩
  · refine hold ((exec_effect _ he).stack v hvt ▸ hc) fun hmem => .inl ?_
    rwa [(exec_footprint _ he).holds v hvt]

omit hI in
lemma act_dropped {v : Tid} (h : .returned v (.disconnect (some c)) commSuccess ∈ s'.history) :
    c < s'.nextContext ∧ s'.contexts c = none := by
  rcases mem_history he h with hold | hnew
  · obtain ⟨hlt, hnone⟩ := hF.dropped v c hold
    exact gone_of_exec he hlt hnone
  · cases hnew
    obtain ⟨⟨fs, hfs⟩, -, hnot⟩ := hA
    obtain ⟨hlt, -, -, hmem⟩ := hF.inside t c (hfs ▸ List.mem_cons_self)
    exact gone_of_exec he hlt (hmem.resolve_left (hnot rfl))

lemma act_stopped {rc : ℤ} (h : .returned .main .stop rc ∈ s'.history) :
    ∃ l, s'.theSocketContext = some l ∧ Closed s' l := by
  have hclosed : ∀ l, s.theSocketContext = some l ∧ Closed s l →
      s'.theSocketContext = some l ∧ Closed s' l := fun l hl =>
    ⟨the_of_exec he hA hl.1, closed_of_exec he hI hA hl.1 hl.2⟩
  rcases mem_history he h with hold | hnew
  · exact (hF.stopped rc hold).imp hclosed
  · cases hnew
    obtain ⟨-, -, l, hl, -, hcl⟩ := hA
    exact ⟨l, hclosed l ⟨hl, hcl⟩⟩

end Act

/-! ## Whole runs -/

lemma filed_osStep {e : OsEvent} (hF : Filed s) (h : osStep e s = some s') : Filed s' := by
  have hU := undisturbed_osStep h
  obtain ⟨op, hop⟩ := osStep_effect h
  have htables := osStep_sameTables h
  have hkey : ∀ k c, KeyOf s' k c ↔ KeyOf s k c := fun k c =>
    exists_congr fun q => by rw [hU.assoc]
  have hnone : ∀ c, s.contexts c = none → s'.contexts c = none := fun c hc => by
    obtain ⟨g, hg⟩ := hop.contexts c
    rw [hg, hc]
    rfl
  have hlive : ∀ c, Live s c → Live s' c := fun c ⟨x, hx⟩ => by
    obtain ⟨g, hg⟩ := hop.contexts c
    rw [hx] at hg
    exact ⟨_, hg⟩
  have hnext : s'.nextContext = s.nextContext := osStep_nextContext h
  have hapart : ∀ c, Apart s c → Apart s' c := fun c ⟨l, hl, hne⟩ =>
    ⟨l, hop.theSocketContext.trans hl, hne⟩
  refine ⟨?_, fun c hc => ?_, fun t c hc => ?_, fun t c hc => ?_, fun rc hrc => ?_⟩
  · rw [(osStep_table h).2]
    exact hF.named
  · obtain ⟨hl, ⟨k, hk⟩, hap⟩ := hF.listed c (htables.socketContexts ▸ hc)
    exact ⟨hlive c hl, ⟨k, (hkey k c).mpr hk⟩, hapart c hap⟩
  · obtain ⟨hlt, hap, hentered, hor⟩ := hF.inside t c (hU.stack ▸ hc)
    rw [hnext, hU.history, osStep_holds h]
    exact ⟨hlt, hapart c hap, hentered, hor.imp_right (hnone c)⟩
  · obtain ⟨hlt, hc⟩ := hF.dropped t c (hU.history ▸ hc)
    exact ⟨hnext ▸ hlt, hnone c hc⟩
  · obtain ⟨l, hl, hclosed⟩ := hF.stopped rc (hU.history ▸ hrc)
    refine ⟨l, hop.theSocketContext.trans hl, fun v k hv hk => ?_⟩
    exact hclosed v k (htables.handles ▸ hv) ((hkey k l).mp hk)

lemma filed {G : Config Action Action.Res State Tid Label} (h : Reachable .server u G) :
    Filed G.state := by
  obtain ⟨G₀, h0, hr⟩ := h
  cases h0
  refine Machine.run_state (M := machine .server) (K := Reachable .server u)
    (fun G t l s' _ hs' hF => enter_eq hs' ▸ hF) (fun G t a k o r s' hG hx hs' hF => ?_)
    (fun G e s' _ hs' hF => filed_osStep hF hs') (fun G hr₁ => ⟨_, .server, hr₁⟩) hr
    (filed_init u)
  have hI := hG.server.ok.inv
  have hA : Allowed t a G.state := hG.server.allowed hx
  exact ⟨act_named hs' hA hF, fun c => act_listed hs' hI hA hF,
    fun v c => act_inside hs' hI hA hF, fun v c => act_dropped hs' hA hF,
    fun rc => act_stopped hs' hI hA hF⟩

end Server

/-! ## What is left open -/

/-- `Start` has returned, and not `COMM_SUCCESS`. -/
def StartFailed (s : State) : Prop :=
  ∃ rc, rc ≠ commSuccess ∧ .returned .main .start rc ∈ s.history

def StopReturned (s : State) : Prop := ∃ rc, .returned .main .stop rc ∈ s.history

def WorkersEnded (s : State) : Prop := ∀ i < s.numWorkerThreads, s.alive (.worker i) = false

/-- Every socket of the server was closed, and once, and the tables are empty. -/
structure AllClosed (s : State) : Prop where
  handles : ∀ v, s.handles v = none
  closed : s.ledger.countP Entry.isClose = s.ledger.countP Entry.isMake
  once : .close false ∉ s.ledger
  connections : ∀ v, s.connections v = none
  socketContexts : s.socketContexts = []

/-- Every socket that was made was associated with the port, that of the last `start_accept` too,
and every connection was torn down by a `disconnect` that succeeded. -/
structure AllServed (s : State) : Prop where
  associated : s.ledger.countP Entry.isBind = s.ledger.countP Entry.isMake
  disconnected : ∀ c, .bind c ∈ s.ledger → s.theSocketContext = some c ∨
    ∃ t, .returned t (.disconnect (some c)) commSuccess ∈ s.history

namespace Server

variable {u : Setup} {G : Config Action Action.Res State Tid Label} {c : ContextPtr} {k : SockId}

lemma bind_of_key (hG : Reachable .server u G) (h : KeyOf G.state k c) :
    .bind c ∈ G.state.ledger := by
  obtain ⟨q, hq⟩ := h
  exact (hG.account.bound k c (congrArg (Option.map Prod.snd) hq)).2

/-- A connection whose context is still in the heap was not torn down. -/
lemma the_of_live (hG : Reachable .server u G) (hserved : AllServed G.state)
    (hk : KeyOf G.state k c) (hlive : Live G.state c) : G.state.theSocketContext = some c := by
  refine (hserved.disconnected c (bind_of_key hG hk)).resolve_right ?_
  rintro ⟨t, ht⟩
  obtain ⟨x, hx⟩ := hlive
  exact nomatch hx.symm.trans ((filed hG).dropped t c ht).2

lemma allClosed_of_handles (hG : Reachable .server u G) (h : ∀ v, G.state.handles v = none)
    (hlist : G.state.socketContexts = []) : AllClosed G.state where
  handles := h
  closed := hG.account.closed_of_names h
  once := (filed hG).named
  connections v := by
    cases hv : G.state.connections v with
    | none => rfl
    | some o =>
        obtain ⟨c, k, p, -, hreg⟩ := hG.server.ok.inv.mapped v o hv
        exact nomatch (h v).symm.trans hreg.opened
  socketContexts := hlist

/-- A server that has made no socket has nothing to close. -/
lemma allClosed_of_none_made (hG : Reachable .server u G) (h : .make ∉ G.state.ledger) :
    AllClosed G.state := by
  refine allClosed_of_handles hG (hG.account.names_of_none_made h) ?_
  refine List.eq_nil_iff_forall_not_mem.mpr fun c hc => ?_
  obtain ⟨-, ⟨k, q, hq⟩, -⟩ := (filed hG).listed c hc
  have hlt := (hG.account.bound k c (congrArg (Option.map Prod.snd) hq)).1
  rw [hG.account.made_eq_zero h] at hlt
  exact Nat.not_lt_zero k hlt

/-- After `Stop`, nothing is left of a server that has served every socket. -/
lemma allClosed_of_stop (hG : Reachable .server u G) (hstop : StopReturned G.state)
    (hserved : AllServed G.state) : AllClosed G.state := by
  obtain ⟨rc, hrc⟩ := hstop
  obtain ⟨l, hl, hclosed⟩ := (filed hG).stopped rc hrc
  refine allClosed_of_handles hG (fun v => ?_) ?_
  · cases hv : G.state.handles v with
    | none => rfl
    | some k =>
        have hbound := hG.account.bound_iff.mpr hserved.associated k (hG.account.lt_made v k hv)
        obtain ⟨⟨q, c⟩, hq⟩ : ∃ x, (G.state.sockets k).assoc = some x :=
          Option.ne_none_iff_exists'.mp fun hnone => hbound (congrArg (Option.map Prod.snd) hnone)
        obtain ⟨-, x, hx, -⟩ := hG.server.ok.inv.socketOf v k q c hv hq
        have hthe := the_of_live hG hserved ⟨q, hq⟩ ⟨x, hx⟩
        obtain rfl := Option.some.inj (hl.symm.trans hthe)
        exact absurd ⟨q, hq⟩ (hclosed v k hv)
  · refine List.eq_nil_iff_forall_not_mem.mpr fun c hc => ?_
    obtain ⟨hlive, ⟨k, hk⟩, l', hl', hne⟩ := (filed hG).listed c hc
    exact hne (Option.some.inj ((the_of_live hG hserved hk hlive).symm.trans hl'))

end Server

/-- **When no socket outlives the server.**  If `Start` fails before it has made a socket, or `Stop`
returns when every socket made was associated with the port and every connection was torn down, then
every socket has been closed exactly once. -/
theorem sockets_closed {u : Setup} {G : Config Action Action.Res State Tid Label}
    (hG : Reachable .server u G) (hend : StartFailed G.state ∧ .make ∉ G.state.ledger ∨
      StopReturned G.state ∧ AllServed G.state) : AllClosed G.state := by
  rcases hend with ⟨-, hnone⟩ | ⟨hstop, hserved⟩
  · exact Server.allClosed_of_none_made hG hnone
  · exact Server.allClosed_of_stop hG hstop hserved

/-- A server with two workers: a client connects and leaves, and between the two `WSASocket` fails
for the next socket to accept into.  `Stop` then leaves nothing open. -/
theorem sockets_closed_served : ∃ G,
    Reachable .server fullServer G ∧ StopReturned G.state ∧
      WorkersEnded G.state ∧ AllClosed G.state := by
  obtain ⟨G, hG, hφ⟩ := reachable_of_run
    (.server (u := fullServer))
    (startMoves ++ .env (.complete ⟨.accept 1, 0, 0, acceptReceiveLength⟩ []) ::
      steps (.worker 0) (List.replicate 28 .ok ++ [.pending, .ok, .ok, .ok, .fail 0] ++
        List.replicate 5 .ok) ++
      .env (.abort ⟨.recv, 1, 1, maxBuffSize⟩) :: steps (.worker 1) (List.replicate 26 .ok) ++
      .enter .main .stop :: steps .main (List.replicate 8 .ok) ++
      steps (.worker 1) (List.replicate 4 .ok) ++ steps .main (List.replicate 8 .ok))
    (φ := fun G => .returned .main .stop commSuccess ∈ G.state.history ∧
      (∀ i < G.state.numWorkerThreads, G.state.alive (.worker i) = false) ∧
      G.state.ledger = [.close true, .close true, .bind 1, .make, .bind 0, .make] ∧
      G.state.theSocketContext = some 0 ∧
      .returned (.worker 1) (.disconnect (some 1)) commSuccess ∈ G.state.history)
    (by decide +kernel)
  obtain ⟨hstop, hended, hledger, hthe, hdisconnect⟩ := of_decide_eq_true hφ
  refine ⟨G, hG, ⟨_, hstop⟩, hended, sockets_closed hG (.inr ⟨⟨_, hstop⟩, ?_, ?_⟩)⟩
  · rw [hledger]
    rfl
  · rw [hledger, hthe]
    intro c hc
    simp only [List.mem_cons, reduceCtorEq, Entry.bind.injEq, List.not_mem_nil, or_false,
      false_or] at hc
    rcases hc with rfl | rfl
    · exact .inr ⟨_, hdisconnect⟩
    · exact .inl rfl

/-- A server is started and stopped before any client has come.  The socket in `SocketAccept` is
still open when `Stop` returns and the workers have ended. -/
theorem socketAccept_left_open : ¬ ∀ (u : Setup) (G : Config Action Action.Res State Tid Label),
    Reachable .server u G → StartFailed G.state ∨ StopReturned G.state ∧ WorkersEnded G.state →
      AllClosed G.state := by
  intro h
  obtain ⟨G, hG, hφ⟩ := reachable_of_run (.server (u := fullServer))
    (startMoves ++ .enter .main .stop :: steps .main (List.replicate 8 .ok) ++
      steps (.worker 0) (List.replicate 4 .ok) ++ steps (.worker 1) (List.replicate 4 .ok) ++
      steps .main (List.replicate 8 .ok))
    (φ := fun G => .returned .main .stop commSuccess ∈ G.state.history ∧
      (∀ i < G.state.numWorkerThreads, G.state.alive (.worker i) = false) ∧
      G.state.handles 101 = some 1)
    (by decide +kernel)
  obtain ⟨hstop, hended, hopen⟩ := of_decide_eq_true hφ
  exact nomatch hopen.symm.trans ((h _ G hG (.inr ⟨⟨_, hstop⟩, hended⟩)).handles 101)

end Alpl.Net
