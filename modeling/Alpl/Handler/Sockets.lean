import Alpl.Kernel.HandleTable
import Alpl.Handler.Memory

/-!
# The sockets of a run

The sockets as a handle table: a value names an object, an object is bound once it is associated
with a completion port.  Every action is a step of that table, and the history is its ledger, so
in every state a run of a server reaches the sockets made, closed and associated balance.
-/

namespace Alpl.Net

open HandleTable Interleaving

/-- What an entry of the history says about the sockets. -/
def Record.entry : Record → Option (Entry ContextPtr)
  | .call _ .wsaSocket true => some .make
  | .call _ (.closesocket _) ok => some (.close ok)
  | .call _ (.createIoCompletionPort _ _ c) true => some (.bind c)
  | _ => none

namespace State

/-- The handle table of the sockets. -/
def table (s : State) : Table SOCKET ContextPtr :=
  ⟨s.handles, s.nextSock, fun k => (s.sockets k).assoc.map Prod.snd⟩

/-- The calls that made, closed and associated a socket, the newest first. -/
def ledger (s : State) : List (Entry ContextPtr) := s.history.filterMap Record.entry

end State

variable {t : Tid} {a : Action} {o : Outcome} {s s' : State} {u : Setup}

/-- A step of the table that writes one socket object. -/
lemma step_write {e : Option (Entry ContextPtr)} {names : SOCKET → Option SockId}
    {made k : SockId} {x : SocketObject} (h : s.table.Step e
      ⟨names, made, Function.update s.table.bound k (x.assoc.map Prod.snd)⟩) :
    s.table.Step e
      ⟨names, made, fun j => (Function.update s.sockets k x j).assoc.map Prod.snd⟩ := by
  rw [show (fun j => (Function.update s.sockets k x j).assoc.map Prod.snd) =
    Function.update s.table.bound k (x.assoc.map Prod.snd) from
      Function.comp_update (fun y : SocketObject => y.assoc.map Prod.snd) s.sockets k x]
  exact h

lemma step_write_same {k : SockId} {x : SocketObject} (hx : x.assoc = (s.sockets k).assoc) :
    s.table.Step none ⟨s.handles, s.nextSock,
      fun j => (Function.update s.sockets k x j).assoc.map Prod.snd⟩ := by
  refine step_write ?_
  rw [hx, show Function.update s.table.bound k ((s.sockets k).assoc.map Prod.snd) =
    s.table.bound from Function.update_eq_self k s.table.bound]
  exact .idle s.table

/-- Every action is a step of the table, and writes its entry. -/
lemma exec_table : ∀ rs ∈ exec t a o s,
    ∃ e, s.table.Step e rs.2.table ∧ rs.2.ledger = e.toList ++ s.ledger := by
  unfold exec exec.acceptEx exec.post exec.invoke
  split
  all_goals try split
  all_goals try split
  all_goals simp only [Option.mem_def, Option.map_eq_some_iff, Option.some.injEq, reduceCtorEq,
    IsEmpty.forall_iff, implies_true, forall_exists_index, and_imp, forall_eq',
    forall_apply_eq_imp_iff₂]
  all_goals intros
  all_goals try split
  all_goals first
    | exact ⟨none, .idle _, rfl⟩
    | skip
  case h_31 => exact ⟨none, step_write_same rfl, rfl⟩
  case h_33.isTrue h => exact ⟨some .make, step_write (.make h.1), rfl⟩
  case h_35 v => exact ⟨some (.close _), .close s.table v, rfl⟩
  all_goals exact ⟨some (.bind _), step_write (.bind ‹_› (by simp [State.table, *])), rfl⟩

/-! ## What an action does to the contexts -/

/-- The context that an action submits with an overlapped operation. -/
def Action.submits : Action → Option ContextPtr
  | .acceptEx _ _ c _ => some c
  | .wsaRecv _ c _ => some c
  | .wsaSend _ c _ => some c
  | _ => none

/-- The actions that start the frames and contexts of a thread anew. -/
def Action.restarts : Action → Bool
  | .finish => true
  | .getQueuedCompletionStatus _ => true
  | _ => false

/-- What performing `a` can do to the contexts, and to what leads to them. -/
structure ContextEffect (t : Tid) (a : Action) (s s' : State) : Prop where
  live : ∀ c x, s.contexts c = some x → (∃ x', s'.contexts c = some x') ∨ a = .freeContext c
  freed : ∀ c, a = .freeContext c → s'.contexts c = none
  next : s.nextContext ≤ s'.nextContext
  listed : ∀ c ∈ s'.socketContexts, c ∈ s.socketContexts ∨ a = .pushFrontContext c
  the : s'.theSocketContext = s.theSocketContext ∨ ∃ l, a = .setTheSocketContext l
  handles : ∀ v k, s'.handles v = some k →
    s.handles v = some k ∨ a = .wsaSocket ∧ k = s.nextSock
  held : ∀ c ∈ s.holds t, c ∈ s'.holds t ∨ a = .freeContext c ∨ a.submits = some c ∨
    a.restarts = true
  frames : ∀ c, .disconnect c ∈ s'.stack t → .disconnect c ∈ s.stack t ∧ a.restarts = false ∨
    a = .enter (.disconnect c)

lemma live_update {c d : ContextPtr} {x y : SocketContext} (h : s.contexts c = some x) :
    ∃ x', Function.update s.contexts d (some y) c = some x' := by
  by_cases hc : c = d
  · exact ⟨y, hc ▸ Function.update_self _ _ _⟩
  · exact ⟨x, (Function.update_of_ne hc _ _).trans h⟩

lemma live_free {c d : ContextPtr} {x : SocketContext} (h : s.contexts c = some x) :
    (∃ x', Function.update s.contexts d none c = some x') ∨
      Action.freeContext d = .freeContext c := by
  by_cases hc : c = d
  · exact .inr (congrArg Action.freeContext hc.symm)
  · exact .inl ⟨x, (Function.update_of_ne hc _ _).trans h⟩

lemma freed_free {c d : ContextPtr} (h : Action.freeContext d = .freeContext c) :
    Function.update s.contexts d none c = none := by
  cases h
  exact Function.update_self _ _ _

lemma handles_update {v w : SOCKET} {j k : SockId}
    (h : Function.update s.handles w (some j) v = some k) :
    s.handles v = some k ∨ k = j := by
  by_cases hv : v = w
  · subst hv
    rw [Function.update_self] at h
    exact .inr (Option.some.inj h).symm
  · exact .inl ((Function.update_of_ne hv _ _).symm.trans h)

lemma handles_close {v w : SOCKET} {k : SockId}
    (h : Function.update s.handles w none v = some k) : s.handles v = some k := by
  by_cases hv : v = w
  · subst hv
    exact nomatch (Function.update_self v none s.handles).symm.trans h
  · exact (Function.update_of_ne hv _ _).symm.trans h

lemma held_cons {c d : ContextPtr} (h : c ∈ s.holds t) :
    c ∈ Function.update s.holds t (d :: s.holds t) t := by
  rw [Function.update_self]
  exact List.mem_cons_of_mem d h

lemma held_erase {c d : ContextPtr} (h : c ∈ s.holds t) :
    c ∈ Function.update s.holds t ((s.holds t).erase d) t ∨ d = c := by
  rw [Function.update_self]
  by_cases hc : c = d
  · exact .inr hc.symm
  · exact .inl ((List.mem_erase_of_ne hc).mpr h)

lemma held_submit {c d : ContextPtr} (ha : a.submits = some d) (h : c ∈ s.holds t) :
    c ∈ Function.update s.holds t ((s.holds t).erase d) t ∨ a.submits = some c := by
  rcases held_erase (d := d) h with hmem | rfl
  · exact .inl hmem
  · exact .inr ha

lemma listed_cons {c d : ContextPtr} (h : c ∈ d :: s.socketContexts) :
    c ∈ s.socketContexts ∨ Action.pushFrontContext d = .pushFrontContext c :=
  (List.mem_cons.mp h).symm.imp_right fun he => congrArg _ he.symm

lemma frame_ne_disconnect {pkt : Packet} {c : Option ContextPtr} :
    pkt.frame s ≠ .disconnect c := by
  rw [Packet.frame]
  split
  · nofun
  · split <;> nofun

/-- A frame below the top was there before. -/
lemma mem_push {f : Frame} {fs : List Frame} {c : Option ContextPtr}
    (h : .disconnect c ∈ Function.update s.stack t (f :: fs) t) :
    .disconnect c ∈ fs ∨ f = .disconnect c := by
  rw [Function.update_self] at h
  exact (List.mem_cons.mp h).symm.imp_right Eq.symm

lemma mem_pop {c : Option ContextPtr}
    (h : .disconnect c ∈ Function.update s.stack t (s.stack t).tail t) :
    .disconnect c ∈ s.stack t := by
  rw [Function.update_self] at h
  exact List.mem_of_mem_tail h

lemma exec_contextEffect : ∀ rs ∈ exec t a o s, ContextEffect t a s rs.2 := by
  unfold exec exec.acceptEx exec.post exec.invoke
  split
  all_goals try split
  all_goals try split
  all_goals simp only [Option.mem_def, Option.map_eq_some_iff, Option.some.injEq, reduceCtorEq,
    IsEmpty.forall_iff, implies_true, forall_exists_index, and_imp, forall_eq',
    forall_apply_eq_imp_iff₂]
  all_goals intros
  all_goals try split
  all_goals exact
    { live := by
        first
        | exact fun _ x h => .inl ⟨x, h⟩
        | exact fun _ _ h => .inl (live_update h)
        | exact fun _ _ h => live_free h
      freed := by
        first
        | exact fun _ h => freed_free h
        | exact fun _ h => nomatch h
      next := by first | exact Nat.le_refl _ | exact Nat.le_succ _
      listed := by
        first
        | exact fun _ h => .inl h
        | exact fun _ h => .inl (List.mem_filter.mp h).1
        | exact fun _ h => listed_cons h
      the := by first | exact .inl rfl | exact .inr ⟨_, rfl⟩
      handles := by
        first
        | exact fun _ _ h => .inl h
        | exact fun _ _ h => .inl (handles_close h)
        | exact fun _ _ h => (handles_update h).imp_right fun he => ⟨rfl, he⟩
      held := by
        first
        | exact fun _ h => .inl h
        | exact fun _ _ => .inr (.inr (.inr rfl))
        | exact fun _ h => .inl (held_cons h)
        | exact fun _ h => (held_erase h).imp_right fun he => .inl (congrArg _ he)
        | exact fun _ h => (held_submit rfl h).imp_right fun he => .inr (.inl he)
      frames := by
        first
        | exact fun _ h => .inl ⟨h, rfl⟩
        | exact fun _ h => .inl ⟨mem_pop h, rfl⟩
        | exact fun _ h => (mem_push h).imp (fun hm => ⟨hm, rfl⟩) (congrArg Action.enter)
        | exact fun _ h => .inl ⟨(mem_push h).resolve_right nofun, rfl⟩
        | exact fun _ h => absurd ((mem_push h).resolve_left List.not_mem_nil) frame_ne_disconnect
        | exact fun _ h => absurd ((Function.update_self _ _ _).subst h) List.not_mem_nil }

/-! ## What the network does -/

lemma osStep_nextSock {e : OsEvent} (h : osStep e s = some s') : s'.nextSock = s.nextSock := by
  cases e <;> grind [osStep, State.postPacket, State.receiveData, State.fill]

lemma osStep_nextContext {e : OsEvent} (h : osStep e s = some s') :
    s'.nextContext = s.nextContext := by
  cases e <;> grind [osStep, State.postPacket, State.receiveData, State.fill]

/-- The network makes, closes and associates nothing. -/
lemma osStep_table {e : OsEvent} (h : osStep e s = some s') :
    s'.table = s.table ∧ s'.ledger = s.ledger := by
  have hU := undisturbed_osStep h
  refine ⟨?_, congrArg (List.filterMap Record.entry) hU.history⟩
  rw [State.table, State.table, (osStep_sameTables h).handles, osStep_nextSock h]
  exact congrArg (Table.mk s.handles s.nextSock) (funext fun k =>
    congrArg (Option.map Prod.snd) (hU.assoc k))

lemma account_init (u : Setup) : Account (State.init u).table (State.init u).ledger :=
  .start (fun _ => rfl) rfl fun _ => rfl

/-- **The sockets of a server balance.**  In every state of every run, those that are open and
those that were closed make up those that were made, and so do those with no completion port and
the associations. -/
theorem Reachable.account {G : Config Action Action.Res State Tid Label}
    (h : Reachable .server u G) : Account G.state.table G.state.ledger := by
  obtain ⟨G₀, h0, hr⟩ := h
  cases h0
  refine Machine.run_state (K := fun _ => True) (I := fun s => Account s.table s.ledger)
    (fun G t l s' _ hs' ha => enter_eq hs' ▸ ha) (fun G t a k o r s' _ _ hs' ha => ?_)
    (fun G e s' _ hs' ha => ?_) (fun _ _ => trivial) hr (account_init u)
  · obtain ⟨e, hstep, hledger⟩ := exec_table _ hs'
    rw [show s'.ledger = e.toList ++ G.state.ledger from hledger]
    exact ha.step hstep
  · obtain ⟨htable, hledger⟩ := osStep_table hs'
    rw [htable, hledger]
    exact ha

end Alpl.Net
