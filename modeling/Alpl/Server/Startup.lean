import Alpl.Server.Loop

/-!
# `Start`

The triple of `TcpServer::Start`.  Until `the_socket_context_` is set, the main thread is alone: no
worker has anything to do, and what the main thread knows only it can change.  From then on it has
the listening context in hand like any worker, up to the first `start_accept`.
-/

namespace Alpl.Net

open Interleaving

namespace Server

variable {u : Setup} {fs : List Frame} {s s' : State} {Φ : State → Prop}
variable {ls : SOCKET} {l c : ContextPtr}

/-! ## What the main thread knows -/

/-- Before there is a `the_socket_context_`, the memory is the main thread's alone. -/
lemma fact_of_alone (h0 : ∀ s, Φ s → s.theSocketContext = none)
    (h : ∀ s s', SameMemory s s' → s'.workersPort = s.workersPort → Φ s → Φ s') :
    Fact .main Φ := fun s s' _ hO hR hs =>
  h s s' (hR.alone rfl (h0 s hs)) hO.workersPort hs

/-- There is no `the_socket_context_`, and the main thread has no context in hand. -/
structure Unset (s : State) : Prop where
  the : s.theSocketContext = none
  holds : s.holds .main = []

/-- Nothing was made yet but sockets. -/
structure Begun (s : State) : Prop extends Unset s where
  port : s.iocpHandle = some s.workersPort
  contexts : ∀ c, s.contexts c = none
  sockets : ∀ k, s.sockets k = SocketObject.fresh

/-- The socket `ls` listens, and nothing is associated with the port. -/
structure Bound (ls : SOCKET) (s : State) : Prop extends Unset s where
  port : s.iocpHandle = some s.workersPort
  contexts : ∀ c, s.contexts c = none
  assoc : ∀ k, (s.sockets k).assoc = none
  listening : ∀ k, (s.sockets k).listening = true → s.handles ls = some k

/-- The main thread has made the context `c` for the listening socket, and there is no other. -/
structure Sole (ls : SOCKET) (c : ContextPtr) (s : State) : Prop where
  the : s.theSocketContext = none
  holds : s.holds .main = [c]
  port : s.iocpHandle = some s.workersPort
  context : ∃ x, s.contexts c = some x ∧ x.socket = ls ∧ x.ioContext.lastOperation = .ioAccept
  only : ∀ d, Live s d → d = c

/-- The listening socket is not associated with the port yet. -/
structure Prepared (ls : SOCKET) (c : ContextPtr) (s : State) : Prop extends Sole ls c s where
  assoc : ∀ k, (s.sockets k).assoc = none
  listening : ∀ k, (s.sockets k).listening = true → s.handles ls = some k

/-- The listening socket completes under `c`. -/
structure Attuned (ls : SOCKET) (c : ContextPtr) (s : State) : Prop extends Sole ls c s where
  opened : ∃ k, s.handles ls = some k ∧ KeyOf s k c
  listening : ∀ k, (s.sockets k).listening = true → (s.sockets k).assoc = some (s.workersPort, c)

/-- The association of the listening socket failed. -/
structure Stranded (c : ContextPtr) (s : State) : Prop where
  the : s.theSocketContext = none
  holds : s.holds .main = [c]
  lost : s.iocpHandle = none
  assoc : ∀ k, (s.sockets k).assoc = none

lemma Unset.of_same (h : SameMemory s s') (hs : Unset s) : Unset s' :=
  ⟨h.theSocketContext.trans hs.the, (congrFun h.holds _).trans hs.holds⟩

lemma Sole.of_same (h : SameMemory s s') (hw : s'.workersPort = s.workersPort)
    (hs : Sole ls c s) : Sole ls c s' where
  the := h.theSocketContext.trans hs.the
  holds := (congrFun h.holds _).trans hs.holds
  port := by
    rw [h.iocpHandle, hw]
    exact hs.port
  context := by
    rw [h.contexts]
    exact hs.context
  only := by
    unfold Live
    rw [h.contexts]
    exact hs.only

lemma fact_unset : Fact .main Unset :=
  fact_of_alone (fun _ h => h.the) fun _ _ h _ => Unset.of_same h

lemma fact_begun : Fact .main Begun := fact_of_alone (fun _ h => h.the) fun s s' h hw hs =>
  { hs.toUnset.of_same h with
    port := by
      rw [h.iocpHandle, hw]
      exact hs.port
    contexts := by
      rw [h.contexts]
      exact hs.contexts
    sockets := by
      rw [h.sockets]
      exact hs.sockets }

lemma fact_bound : Fact .main (Bound ls) := fact_of_alone (fun _ h => h.the) fun s s' h hw hs =>
  { hs.toUnset.of_same h with
    port := by
      rw [h.iocpHandle, hw]
      exact hs.port
    contexts := by
      rw [h.contexts]
      exact hs.contexts
    assoc := by
      rw [h.sockets]
      exact hs.assoc
    listening := by
      rw [h.sockets, h.handles]
      exact hs.listening }

lemma fact_prepared : Fact .main (Prepared ls c) :=
  fact_of_alone (fun _ h => h.the) fun s s' h hw hs =>
    { hs.toSole.of_same h hw with
      assoc := by
        rw [h.sockets]
        exact hs.assoc
      listening := by
        rw [h.sockets, h.handles]
        exact hs.listening }

lemma fact_attuned : Fact .main (Attuned ls c) :=
  fact_of_alone (fun _ h => h.the) fun s s' h hw hs =>
    { hs.toSole.of_same h hw with
      opened := by
        unfold KeyOf
        rw [h.sockets, h.handles]
        exact hs.opened
      listening := by
        rw [h.sockets, hw]
        exact hs.listening }

lemma fact_stranded : Fact .main (Stranded c) :=
  fact_of_alone (fun _ h => h.the) fun s s' h _ hs =>
    { the := h.theSocketContext.trans hs.the
      holds := (congrFun h.holds _).trans hs.holds
      lost := h.iocpHandle.trans hs.lost
      assoc := by
        rw [h.sockets]
        exact hs.assoc }

/-! ## The listening socket -/

lemma atomic_listen {n : ℕ} :
    (contract u).Atomic (machine .server) .main (At .main fs Begun) (.listen ls n)
      fun ok => At .main fs fun s => ok = true ∧ Bound ls s ∨ ok = false ∧ Begun s := by
  refine change (fun _ => ((Fact.const _).and fact_bound).or ((Fact.const _).and fact_begun))
    (fun s _ hP => ⟨rfl, hP.fact.the⟩) ?_ ?_
  · intro s o r s' he
    obtain ⟨-, k, -, rfl⟩ | ⟨-, rfl⟩ := exec_listen he <;> rfl
  · intro s o r s' _ _ hs he
    obtain ⟨rfl, k, hk, rfl⟩ | ⟨rfl, rfl⟩ := exec_listen he
    · refine .inl ⟨rfl, { hs.toUnset with
        port := hs.port
        contexts := hs.contexts
        assoc := fun j => ?_
        listening := fun j hj => ?_ }⟩
      · by_cases hjk : j = k
        · subst hjk
          refine (congrArg SocketObject.assoc (Function.update_self _ _ _)).trans ?_
          exact congrArg SocketObject.assoc (hs.sockets j)
        · refine (congrArg SocketObject.assoc (Function.update_of_ne hjk _ _)).trans ?_
          exact congrArg SocketObject.assoc (hs.sockets j)
      · by_cases hjk : j = k
        · exact hjk ▸ hk
        · have hsame := congrArg SocketObject.listening
            ((Function.update_of_ne hjk { s.sockets k with listening := true } s.sockets).trans
              (hs.sockets j))
          exact nomatch hj.symm.trans hsame
    · exact .inr ⟨rfl, { hs.toUnset with
        port := hs.port, contexts := hs.contexts, sockets := hs.sockets }⟩

/-- `create_listener` leaves a listening socket, or it has failed. -/
lemma safe_createListener {n : ℕ} :
    (contract u).Safe (machine .server) .main (createListener n) (At .main fs Begun)
      fun r => At .main fs fun s => r.1 = commSuccess ∧ Bound r.2 s ∨
        r.1 ≠ commSuccess ∧ Unset s := by
  have hfail : ∀ v s, At .main fs Begun s → At .main fs (fun s =>
      ((commInitFailed, v) : ℤ × SOCKET).1 = commSuccess ∧ Bound v s ∨
        ((commInitFailed, v) : ℤ × SOCKET).1 ≠ commSuccess ∧ Unset s) s :=
    fun v s h => h.imp fun hs => .inr ⟨show commInitFailed ≠ commSuccess by decide, hs.toUnset⟩
  refine Contract.Safe.step _ (skip' rfl (fun _ => trivial) fact_begun) fun resolved => ?_
  split
  · exact fun s _ h => hfail _ s h
  refine Contract.Safe.bind (safe_createTcpSocket (Ψ := fun _ => Begun) (fun _ => fact_begun)
    (fun s _ h => .inl ⟨rfl, h.the⟩) (fun s v _ h _ _ => ?_) fun s _ h => ?_) fun v => ?_
  · exact { h.toUnset with port := h.port, contexts := h.contexts, sockets := h.sockets }
  · exact { h.toUnset with port := h.port, contexts := h.contexts, sockets := h.sockets }
  split
  · exact fun s _ h => hfail _ s h
  refine Contract.Safe.step _ (skip' rfl (fun _ => trivial) fact_begun) fun bound => ?_
  split
  · exact fun s _ h => hfail _ s h
  refine Contract.Safe.step _ atomic_listen fun ok => ?_
  cases ok with
  | false => exact fun s _ h => hfail v s (h.imp fun hs => (hs.resolve_left fun h => nomatch h.1).2)
  | true => exact fun s _ h => h.imp fun hs => .inl ⟨rfl, (hs.resolve_right fun h => nomatch h.1).2⟩

/-! ## The listening context -/

lemma noObject_of_unset (hI : Inv s) (h : s.theSocketContext = none) (p : ConnectionPtr) :
    ¬ MadeFor s p c := by
  rintro ⟨y, hy, -⟩
  rw [(hI.idle h).2.2.2.1 p] at hy
  cases hy

lemma prepared_of_bound (h : Bound ls s) :
    Prepared ls s.nextContext (withNewContext s .main (SocketContext.new ls .ioAccept)) where
  the := h.the
  holds := (Function.update_self Tid.main _ s.holds).trans (congrArg (List.cons _) h.holds)
  port := h.port
  context := ⟨_, Function.update_self _ _ _, rfl, rfl⟩
  only d := by
    rintro ⟨x, hx⟩
    by_contra hd
    have hold := (Function.update_of_ne hd _ s.contexts).symm.trans hx
    exact nomatch (h.contexts d).symm.trans hold
  assoc := h.assoc
  listening := h.listening

lemma attuned_of_prepared {r : Record} {k : SockId} {m : ℕ} (h : Prepared ls c s)
    (hk : s.handles ls = some k) : Attuned ls c ((withKey s k c m).record r) where
  the := h.the
  holds := h.holds
  port := h.port
  context := h.context
  only := h.only
  opened := ⟨k, hk, _, congrArg SocketObject.assoc (Function.update_self k _ s.sockets)⟩
  listening j hj := by
    by_cases hjk : j = k
    · subst hjk
      exact congrArg SocketObject.assoc (Function.update_self j _ s.sockets)
    · have hold : ((withKey s k c m).record r).sockets j = s.sockets j :=
        Function.update_of_ne hjk _ _
      rw [hold] at hj
      exact absurd (Option.some.inj ((h.listening j hj).symm.trans hk)) hjk

/-- The stages of `updateCompletionPort` on the main thread. -/
lemma joins_listener : Joins u .main ls .ioAccept (Bound ls) (Prepared ls) (Attuned ls) Stranded
    Unset where
  fact := fact_bound
  factMade _ := fact_prepared
  factJoined _ := fact_attuned
  factLost _ := fact_stranded
  factFailed := fact_unset
  allowedNew s _ h := .inl ⟨rfl, h.the⟩
  new s _ h := prepared_of_bound h
  notMade _ h _ := h.toUnset
  port _ _ h := h.port
  portJoined _ _ h := h.port
  portLost _ _ h := h.lost
  mine c s h := .inl ⟨rfl, h.elim (fun h => h.the) fun h => h.the⟩
  allowedJoin c s hI h := by
    refine ⟨rfl, h.holds ▸ List.mem_singleton_self c, .inl ⟨rfl, h.the⟩, ?_,
      noObject_of_unset hI.inv h.the, h.context.imp fun _ hx => ⟨hx.1, hx.2.1⟩⟩
    rintro k ⟨q, hq⟩
    exact nomatch (h.assoc k).symm.trans hq
  join _ _ _ _ _ _ h hk _ _ := attuned_of_prepared h hk
  lose _ _ h _ := ⟨h.the, h.holds, rfl, h.assoc⟩
  allowedFree c s hI hout h := by
    have hkey : ∀ k, ¬ KeyOf s k c := fun k ⟨q, hq⟩ => nomatch (h.assoc k).symm.trans hq
    refine ⟨h.holds ▸ List.mem_singleton_self c, .inl ⟨rfl, h.the⟩, fun _ k _ => hkey k, ?_, hout,
      fun k hk => absurd hk (hkey k)⟩
    · exact fun p _ hp => absurd hp (noObject_of_unset hI.inv h.the p)
  free c s _ h := by
    have herase : (s.holds .main).erase c = [] := by
      rw [h.holds]
      exact List.erase_cons_head c []
    exact ⟨h.the, (Function.update_self Tid.main _ s.holds).trans herase⟩

/-- The main thread has set `the_socket_context_` and not called `start_accept` yet. -/
def Installed (l : ContextPtr) (s : State) : Prop :=
  Left .main l s ∧ lastStartAccept s.history = none

lemma fact_installed : Fact .main (Installed l) := fun s s' hI hO hR h =>
  ⟨fact_left s s' hI hO hR h.1, (hR.listener l h.1.the h.1.mem).first h.2⟩

lemma Installed.over (h : Installed l s) : Over .main l (GaveUp .main) s :=
  ⟨h.1.the, h.1.others, fun _ => .inr (.inl h.2)⟩

lemma atomic_setTheSocketContext (hfs : .start ∈ fs) :
    (contract u).Atomic (machine .server) .main (At .main fs (Attuned ls l))
      (.setTheSocketContext (some l)) fun _ => At .main fs (Installed l) := by
  refine change (fun _ => fact_installed) ?_ ?_ ?_
  · intro s _ hP
    have hs := hP.fact
    refine ⟨⟨rfl, hs.the⟩, hP.stack ▸ hfs, ?_⟩
    rintro l' ⟨⟩
    refine ⟨hs.holds, hs.only, hs.context.imp fun _ hx => ⟨hx.1, hx.2.2⟩, ?_, hs.listening⟩
    obtain ⟨x, hx, rfl, -⟩ := hs.context
    exact ⟨x, hx, .inr hs.opened⟩
  · intro s o r s' he
    cases o <;> cases he
    rfl
  · intro s o r s' hI _ hs he
    cases o <;> cases he
    refine ⟨⟨rfl, ?_, hs.port, ?_⟩, (hI.inv.idle hs.the).2.2.2.2⟩
    · show l ∈ s.holds .main
      rw [hs.holds]
      exact List.mem_singleton_self l
    · intro d hd hne
      have hd : d ∈ s.holds .main := hd
      rw [hs.holds] at hd
      exact absurd (List.mem_singleton.mp hd) hne

lemma atomic_setTheSocketContext_none (hfs : .start ∈ fs) :
    (contract u).Atomic (machine .server) .main (At .main fs Unset) (.setTheSocketContext none)
      fun _ => At .main fs Unset := by
  refine change (fun _ => fact_unset) ?_ ?_ ?_
  · exact fun s _ hP => ⟨⟨rfl, hP.fact.the⟩, hP.stack ▸ hfs, nofun⟩
  · intro s o r s' he
    cases o <;> cases he
    rfl
  · intro s o r s' _ _ hs he
    cases o <;> cases he
    exact ⟨rfl, hs.holds⟩

/-- What `Start` has achieved when it returns `rc`. -/
def Opened (rc : ℤ) (s : State) : Prop :=
  rc ≠ commSuccess ∧ Unset s ∨
    ∃ l, Over .main l (GaveUp .main) s ∧ (rc = commSuccess → Asked s)

lemma fact_opened (rc : ℤ) : Fact .main (Opened rc) :=
  ((Fact.const _).and fact_unset).or fun s s' hI hO hR ⟨l, h, ha⟩ =>
    ⟨l, fact_gaveUp s s' hI hO hR h, fun hrc => lasting_asked s s' hO (ha hrc)⟩

lemma safe_initAccept (hfs : .start ∈ fs) (hdata : NoData fs) :
    (contract u).Safe (machine .server) .main (initAccept ls) (At .main fs (Bound ls))
      fun rc => At .main fs (Opened rc) := by
  refine Contract.Safe.bind (safe_updateCompletionPort joins_listener hdata false (Attuned ls)
    fun c _ _ h => h) fun o => Contract.Safe.or
      (Contract.Safe.pure fun ho => ?_) (Contract.Safe.exists fun l =>
        Contract.Safe.pure fun ho => ?_)
  · subst ho
    refine Contract.Safe.step _ (atomic_setTheSocketContext_none hfs) fun _ s _ h => ?_
    exact h.imp fun hs => .inl ⟨by decide, hs⟩
  subst ho
  refine Contract.Safe.step _ (atomic_setTheSocketContext hfs) fun _ => ?_
  refine Contract.Safe.step _ (skip' rfl (fun _ => trivial) fact_installed) fun loaded => ?_
  split
  · exact fun s _ h => h.imp fun hs => .inr ⟨l, hs.over, fun h => absurd h (by decide)⟩
  refine Contract.Safe.bind ((safe_startAccept (.inr ⟨rfl, hfs⟩)).pre fun _ _ h => h.imp And.left)
    fun rc => ?_
  split
  · exact fun s _ h => h.imp fun hs => .inr ⟨l, hs.1, fun h => absurd h (by decide)⟩
  · exact fun s _ h => h.imp fun hs => .inr ⟨l, hs.1, fun _ => hs.2.1⟩

/-! ## `Start` -/

lemma atomic_leaveStart {rc : ℤ} :
    (contract u).Atomic (machine .server) .main (At .main [.start] (Opened rc)) (.leave .start rc)
      fun _ => At .main [] (Opened rc) := by
  refine atomic (fun _ => stable_at (fact_opened rc)) ?_ ?_
  · intro s _ hP
    refine ⟨⟨[], hP.stack⟩, rfl, hP.stack, fun hrc => ?_, fun l hl hc => ?_⟩
    · rcases hP.fact with ⟨hne, -⟩ | ⟨l, -, ha⟩
      · exact absurd hrc hne
      · exact ha hrc
    · rcases hP.fact with ⟨-, hu⟩ | ⟨l', ho, -⟩
      · exact nomatch hu.the.symm.trans hl
      · obtain rfl := Option.some.inj (ho.the.symm.trans hl)
        exact (ho.excused hc).notRearmed
  · intro s o r s' hI _ hP he
    refine ⟨stack_leave hP.stack he, ?_⟩
    have hasked := lasting_asked s s' (onward_of_exec hI he)
    cases o <;> cases he
    rcases hP.fact with ⟨hne, hu⟩ | ⟨l, ho, ha⟩
    · exact .inl ⟨hne, { hu with }⟩
    · refine .inr ⟨l, ⟨ho.the, others_record (s := s.setStack .main _) (fun _ => rfl) ho.others,
        fun hl => ?_⟩, fun hrc => hasked (ha hrc)⟩
      exact (ho.excused hl).imp AcceptFault.record id

lemma safe_startServer :
    (contract u).Safe (machine .server) .main startServer (fun s => Empty .main s ∧ Blank s)
      fun rc => At .main [] (Opened rc) := by
  have hdata : NoData [.start] := fun p hp => nomatch List.mem_singleton.mp hp
  refine Contract.Safe.step (fun _ => At .main [.start] Begun)
    (atomic (fun _ => stable_at fact_begun) (fun s _ hP => hP.2.2.2.2.2) ?_) fun _ => ?_
  · rintro s o r s' - - ⟨⟨hstack, hholds⟩, hthe, hport, hcontexts, hsockets, -⟩ he
    cases o <;> cases he
    refine ⟨(Function.update_self Tid.main _ s.stack).trans (congrArg (List.cons _) hstack),
      ⟨hthe, hholds⟩, hport, hcontexts, hsockets⟩
  refine Contract.Safe.bind (N := fun rc => At .main [.start] (Opened rc)) ?_ fun rc =>
    Contract.Safe.step _ atomic_leaveStart fun _ _ _ h => h
  refine Contract.Safe.bind safe_createListener fun r => ?_
  by_cases hr : r.1 = commSuccess
  · rw [if_neg (not_not_intro hr)]
    refine Contract.Safe.pre (N := At .main [.start] (Bound r.2)) ?_ fun s _ h =>
      h.imp fun hs => (hs.resolve_right fun h => h.1 hr).2
    refine Contract.Safe.bind (safe_initAccept (List.mem_singleton_self _) hdata) fun rc => ?_
    by_cases hrc : rc = commSuccess
    · subst hrc
      exact fun _ _ h => h
    · rw [if_pos hrc]
      refine fun s _ h => h.imp fun hs => hs.imp (fun hs => ⟨by decide, hs.2⟩) ?_
      exact fun ⟨l, ho, _⟩ => ⟨l, ho, fun h => absurd h (by decide)⟩
  · rw [if_pos hr]
    exact fun s _ h => h.imp fun hs =>
      .inl ⟨by decide, (hs.resolve_left fun h => hr h.1).2⟩

end Server

end Alpl.Net
