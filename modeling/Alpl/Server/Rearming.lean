import Alpl.Server.NewConnection

/-!
# `start_accept`

The triple of `start_accept`, for a worker that has handled an accept and for the main thread
inside `Start`.  Its result tests `AcceptEx`, which returns a `BOOL`, against `SOCKET_ERROR`, so a
failure of `AcceptEx` is never noticed; only a failure to make a socket is reported.
-/

namespace Alpl.Net

open Interleaving

namespace Server

variable {u : Setup} {t : Tid} {fs : List Frame} {s s' : State}
variable {l : ContextPtr} {v ls : SOCKET} {φ : State → Prop}

/-! ## The account of the last call -/

lemma lastStartAccept_ne_none {h : List Record} (r : Record) (hn : lastStartAccept h ≠ none) :
    lastStartAccept (r :: h) ≠ none := by
  rw [lastStartAccept.eq_def]
  split
  · rename_i he
    cases he
  · nofun
  · rename_i he
    cases he
    cases hl : lastStartAccept h with
    | none => exact absurd hl hn
    | some z =>
        obtain ⟨w, o⟩ := z
        cases o with
        | none =>
            dsimp only
            split <;> nofun
        | some rc => nofun
  · rename_i he
    cases he
    exact hn

/-- `start_accept` was called. -/
def Asked (s : State) : Prop := lastStartAccept s.history ≠ none

lemma lasting_asked : Lasting Asked := by
  intro s s' hO h
  obtain ⟨h', hh'⟩ := hO.history
  rw [Asked, ← hh']
  clear hh'
  induction h' with
  | nil => exact h
  | cons r h' ih => exact lastStartAccept_ne_none r ih

/-- Thread `t` may leave the listening context without an accept. -/
def GaveUp (t : Tid) (s : State) : Prop :=
  AcceptFault s ∨ lastStartAccept s.history = none ∨
    ∃ rc, rc ≠ commSuccess ∧ lastStartAccept s.history = some (t, some rc)

lemma GaveUp.notRearmed (h : GaveUp t s) : NotRearmed s :=
  h.imp_right (Or.imp_right fun ⟨rc, hrc, hl⟩ => ⟨t, rc, hl, hrc⟩)

lemma fact_gaveUp : Fact t (Over t l (GaveUp t)) :=
  fact_over fun s s' hO hR hl hc h => by
    have hlistener := hR.listener l hl hc
    rcases h with h | h | ⟨rc, hrc, h⟩
    · exact .inl (lasting_acceptFault s s' hO h)
    · exact .inr (.inl (hlistener.first h))
    · exact .inr (.inr ⟨rc, hrc, hlistener.last _ h⟩)

/-! ## The stages of a call -/

/-- Thread `t` is inside `start_accept`. -/
def Trying (t : Tid) (l : ContextPtr) (s : State) : Prop :=
  Left t l s ∧ lastStartAccept s.history = some (t, none)

/-- The value `v` is that of a new socket. -/
def Spare (v : SOCKET) (s : State) : Prop :=
  ∃ k, s.handles v = some k ∧ (s.sockets k).assoc = none ∧ (s.sockets k).stream = []

/-- `create_tcp_socket` has answered with `v`. -/
def Offered (t : Tid) (l : ContextPtr) (v : SOCKET) (s : State) : Prop :=
  Trying t l s ∧ (v = invalidSocket ∧ WorkerFault t s ∨ Spare v s)

/-- The listening context has `v` as the socket to accept into. -/
def Aimed (t : Tid) (l : ContextPtr) (v : SOCKET) (s : State) : Prop :=
  Offered t l v s ∧ ∃ x, s.contexts l = some x ∧ x.ioContext.socketAccept = v

/-- The listening socket was read as `ls`; it may be closed since. -/
def Pointed (t : Tid) (l : ContextPtr) (ls v : SOCKET) (s : State) : Prop :=
  Offered t l v s ∧ ∃ x, s.contexts l = some x ∧ (x.socket = ls ∨ x.socket = invalidSocket) ∧
    x.ioContext.socketAccept = v

lemma fact_trying : Fact t (Trying t l) := fun s s' hI hO hR h =>
  ⟨fact_left s s' hI hO hR h.1, (hR.listener l h.1.the h.1.mem).last _ h.2⟩

lemma fact_offered : Fact t (Offered t l v) := fun s s' hI hO hR h => by
  refine ⟨fact_trying s s' hI hO hR h.1,
    h.2.imp (fun hv => ⟨hv.1, lasting_workerFault s s' hO hv.2⟩) fun ⟨k, hk, ha, hst⟩ => ?_⟩
  obtain ⟨hk', hsame⟩ := (hR.listener l h.1.1.the h.1.1.mem).unassociated v k hk ha
  exact ⟨k, hk', by rw [hsame]; exact ha, by rw [hsame]; exact hst⟩

lemma fact_aimed : Fact t (Aimed t l v) := fun s s' hI hO hR h => by
  obtain ⟨x, hx, hv⟩ := h.2
  obtain ⟨x', hx', hio, -⟩ := hR.listening h.1.1.1.the h.1.1.1.mem hx
  exact ⟨fact_offered s s' hI hO hR h.1, x', hx', by rw [hio]; exact hv⟩

lemma fact_pointed : Fact t (Pointed t l ls v) := fun s s' hI hO hR h => by
  obtain ⟨x, hx, hls, hv⟩ := h.2
  obtain ⟨x', hx', hio, hsock⟩ := hR.listening h.1.1.1.the h.1.1.1.mem hx
  refine ⟨fact_offered s s' hI hO hR h.1, x', hx', ?_, by rw [hio]; exact hv⟩
  rcases hsock with hsock | hsock <;> rw [hsock]
  · exact hls
  · exact .inr rfl

/-! ## The steps of a call -/

lemma others_record {r : Record} (hr : ∀ p, State.dataFor p r = [])
    (h : ∀ d ∈ s.holds t, d ≠ l → Abandoned s d ∧ Drained s d) :
    ∀ d ∈ s.holds t, d ≠ l → Abandoned (s.record r) d ∧ Drained (s.record r) d :=
  fun d hd hne => ⟨(h d hd hne).1.record, (h d hd hne).2.record hr⟩

/-- The frames that may call `start_accept`. -/
def MayAccept (t : Tid) (l : ContextPtr) (fs : List Frame) : Prop :=
  .completion .ioAccept l ∈ fs ∨ t = .main ∧ .start ∈ fs

lemma atomic_enterStartAccept (hfs : MayAccept t l fs) :
    (contract u).Atomic (machine .server) t (At t fs (Left t l)) (.enter .startAccept)
      fun _ => At t (.startAccept :: fs) (Trying t l) := by
  refine atomic (fun _ => stable_at fact_trying) ?_ ?_
  · intro s _ hP
    refine ⟨l, hP.fact.the, hP.fact.mem, hfs.imp (fun h => hP.stack ▸ h) fun h => ⟨h.1, ?_⟩⟩
    rw [← h.1, hP.stack]
    exact h.2
  · intro s o r s' _ _ hP he
    cases o <;> cases he
    refine ⟨?_, { hP.fact with
      others := others_record (s := s.setStack t _) (fun _ => rfl) hP.fact.others }, rfl⟩
    rw [← hP.stack]
    exact Function.update_self _ _ _

lemma offered_of_withSocket (hI : Inv s) (h : Trying t l s) {r : Record} (hr : r.plain = true) :
    Offered t l v ((withSocket s v).record r) := by
  have hrec := fact_trying.record hI hr h
  have hfresh := hI.freshSocket s.nextSock (Nat.le_refl _)
  refine ⟨⟨{ hrec.1 with }, hrec.2⟩, .inr ⟨s.nextSock, Function.update_self _ _ _, ?_, ?_⟩⟩
  · exact congrArg SocketObject.assoc hfresh
  · exact congrArg SocketObject.stream hfresh

lemma offered_of_fault (hI : Inv s) (h : Trying t l s) :
    Offered t l invalidSocket (s.record (.call t .wsaSocket false)) :=
  ⟨fact_trying.record hI rfl h, .inl ⟨rfl, _, List.mem_cons_self, decide_eq_true rfl⟩⟩

lemma atomic_setSocketAccept :
    (contract u).Atomic (machine .server) t (At t fs (Offered t l v)) (.setSocketAccept l v)
      fun _ => At t fs (Aimed t l v) := by
  refine change (fun _ => fact_aimed) ?_ ?_ ?_
  · exact fun s _ hP => ⟨hP.fact.1.1.the, hP.fact.1.1.mem⟩
  · intro s o r s' he
    obtain ⟨x, -, rfl⟩ := exec_setSocketAccept he
    rfl
  · intro s o r s' _ _ h he
    obtain ⟨x, -, rfl⟩ := exec_setSocketAccept he
    exact ⟨⟨⟨{ h.1.1 with }, h.1.2⟩, h.2⟩, _, Function.update_self _ _ _, rfl⟩

/-- A call of `AcceptEx` was made; if it failed, the listening context is still in hand. -/
def AcceptTried (t : Tid) (l : ContextPtr) (fs : List Frame) (s : State) : Prop :=
  At t fs (fun s => Over t l AcceptFault s ∧ Asked s) s ∧
    (AcceptFault s ∨ AcceptCalled t s.history)

lemma fact_overFault : Fact t fun s => Over t l AcceptFault s ∧ Asked s :=
  (fact_over fun s s' hO _ _ _ => lasting_acceptFault s s' hO).and (.of_lasting lasting_asked)

lemma stable_acceptTried : (contract u).Stable t (AcceptTried t l fs) :=
  (stable_at fact_overFault).and
    (Contract.Stable.or (fun s s' _ _ hR => lasting_acceptFault s s' hR.toOnward)
      stable_acceptCalled)

lemma atomic_acceptEx {len : ℕ} :
    (contract u).Atomic (machine .server) t
      (At t (.startAccept :: fs) fun s => Pointed t l ls v s ∧ v ≠ invalidSocket)
      (.acceptEx ls v l len)
      fun r s => r.ret ≠ socketError ∧ AcceptTried t l (.startAccept :: fs) s := by
  refine atomic (fun _ => (Contract.Stable.const _).and stable_acceptTried) ?_ ?_
  · rintro s hI ⟨-, ⟨⟨⟨hleft, -⟩, hspare⟩, x, hx, hls, hv⟩, hne⟩
    refine ⟨hleft.the, hleft.mem, hleft.port, ⟨x, hx, hls, hv⟩, fun k hk => ?_⟩
    obtain ⟨k', hk', ha, hst⟩ := hspare.resolve_left fun h => hne h.1
    obtain rfl := Option.some.inj (hk.symm.trans hk')
    exact ⟨ha, hst⟩
  · rintro s o r s' hI - ⟨hstack, ⟨⟨⟨hleft, hlast⟩, -⟩, -⟩, -⟩ he
    have hasked : Asked s' := by
      refine lasting_asked s s' (onward_of_exec hI he) ?_
      rw [Asked, hlast]
      nofun
    obtain ⟨hr, ⟨kl, ka, -, -, -, rfl⟩ | rfl⟩ := exec_acceptEx he
    · have hholds : (posted s t ⟨.accept ka, kl, l, len⟩).holds t = (s.holds t).erase l :=
        Function.update_self _ _ _
      refine ⟨hr, ⟨hstack, ⟨hleft.the, ?_, fun hl => ?_⟩, hasked⟩, .inr ?_⟩
      · intro d hd hne
        have hd' : d ∈ s.holds t :=
          List.mem_of_mem_erase (hholds ▸ show d ∈ (posted s t _).holds t from hd)
        exact others_record (s := s) (fun _ => rfl) hleft.others d hd' hne
      · have hl' : l ∈ (s.holds t).erase l :=
          hholds ▸ show l ∈ (posted s t _).holds t from hl
        exact absurd rfl ((hI.inv.nodup t).mem_erase_iff.mp hl').1
      · refine ⟨ls, v, l, len, ?_⟩
        rw [record_history, since, List.takeWhile_cons_of_pos rfl]
        exact List.mem_cons_self
    · have hfault : AcceptFault (s.record (.call t (.acceptEx ls v l len) false)) :=
        ⟨_, List.mem_cons_self, rfl⟩
      exact ⟨hr, ⟨hstack, ⟨hleft.the, others_record (fun _ => rfl) hleft.others,
        fun _ => hfault⟩, hasked⟩, .inl hfault⟩

/-- What `start_accept` has achieved when it returns `rc`. -/
def Rearmed (t : Tid) (l : ContextPtr) (rc : ℤ) (s : State) : Prop :=
  Over t l (GaveUp t) s ∧ Asked s ∧ (rc ≠ commSuccess → WorkerFault t s)

lemma fact_rearmed (rc : ℤ) : Fact t (Rearmed t l rc) :=
  fact_gaveUp.and ((Fact.of_lasting lasting_asked).and
    (.of_lasting fun s s' hO h hrc => lasting_workerFault s s' hO (h hrc)))

lemma stack_leave {f : Frame} {rc : ℤ} {o : Outcome} {r : Action.Res (.leave f rc)}
    (hs : s.stack t = f :: fs) (he : exec t (.leave f rc) o s = some (r, s')) :
    s'.stack t = fs := by
  cases o <;> cases he
  refine (Function.update_self _ _ _).trans ?_
  rw [hs]
  rfl

lemma atomic_leaveSuccess :
    (contract u).Atomic (machine .server) t (AcceptTried t l (.startAccept :: fs))
      (.leave .startAccept commSuccess) fun _ => At t fs (Rearmed t l commSuccess) := by
  refine atomic (fun _ => stable_at (fact_rearmed _)) ?_ ?_
  · exact fun s _ hP => ⟨⟨fs, hP.1.stack⟩, fun _ => hP.2⟩
  · rintro s o r s' hI - ⟨hP, -⟩ he
    have hO := onward_of_exec hI he
    refine ⟨stack_leave hP.stack he, ?_, lasting_asked s s' hO hP.fact.2, fun h => absurd rfl h⟩
    cases o <;> cases he
    exact ⟨hP.fact.1.the, others_record (s := s.setStack t _) (fun _ => rfl) hP.fact.1.others,
      fun hl => .inl (hP.fact.1.excused hl).record⟩

lemma atomic_leaveFailure :
    (contract u).Atomic (machine .server) t
      (At t (.startAccept :: fs) fun s => Trying t l s ∧ WorkerFault t s)
      (.leave .startAccept commInitFailed) fun _ => At t fs (Rearmed t l commInitFailed) := by
  refine atomic (fun _ => stable_at (fact_rearmed _)) ?_ ?_
  · exact fun s _ hP => ⟨⟨fs, hP.stack⟩, fun h => absurd h (by decide)⟩
  · rintro s o r s' hI - ⟨hstack, ⟨hleft, hlast⟩, hfault⟩ he
    have hO := onward_of_exec hI he
    have hasked : Asked s := by
      rw [Asked, hlast]
      nofun
    refine ⟨stack_leave hstack he, ?_, lasting_asked s s' hO hasked,
      fun _ => lasting_workerFault s s' hO hfault⟩
    cases o <;> cases he
    refine ⟨hleft.the, others_record (s := s.setStack t _) (fun _ => rfl) hleft.others,
      fun _ => .inr (.inr ⟨commInitFailed, by decide, ?_⟩)⟩
    exact lastStartAccept_returned_self hlast

/-! ## `start_accept` -/

/-- `start_accept` puts a new accept in flight, or says why there is none. -/
lemma safe_startAccept (hfs : MayAccept t l fs) :
    (contract u).Safe (machine .server) t startAccept (At t fs (Left t l))
      fun rc => At t fs (Rearmed t l rc) := by
  refine Contract.Safe.step _ (atomic_enterStartAccept hfs) fun _ => Contract.Safe.bind
    (N := fun rc s => rc = commSuccess ∧ AcceptTried t l (.startAccept :: fs) s ∨
      rc = commInitFailed ∧ At t (.startAccept :: fs) (fun s => Trying t l s ∧ WorkerFault t s) s)
    ?_ fun rc => Contract.Safe.or (Contract.Safe.pure fun hrc => ?_)
      (Contract.Safe.pure fun hrc => ?_)
  · refine Contract.Safe.step _ (read_theSocketContext fact_trying fun _ h => h.1.the) fun l' =>
      Contract.Safe.pure fun hl => ?_
    subst hl
    refine Contract.Safe.bind (safe_createTcpSocket (fun _ => fact_offered)
      (fun s _ h => .inr ⟨l, h.1.the, h.1.mem⟩)
      (fun s v hI h _ _ => offered_of_withSocket hI.inv h rfl)
      fun s hI h => offered_of_fault hI.inv h) fun v => ?_
    refine Contract.Safe.step _ atomic_setSocketAccept fun _ => ?_
    refine Contract.Safe.step _ (read_getIoContext (fun io => io.socketAccept = v) fact_aimed
      (fun _ h => .inl h.1.1.1.mem) fun s x _ h hx => ?_) fun io => Contract.Safe.pure fun hio => ?_
    · obtain ⟨y, hy, hv⟩ := h.2
      obtain rfl := Option.some.inj (hx.symm.trans hy)
      exact hv
    rw [hio]
    by_cases hv : v = invalidSocket
    · rw [if_pos hv]
      refine fun s hI h => .inr ⟨rfl, h.imp fun hs => ⟨hs.1.1, ?_⟩⟩
      rcases hs.1.2 with hfault | ⟨k, hk, -⟩
      · exact hfault.2
      · rw [hv, hI.inv.invalid] at hk
        cases hk
    · rw [if_neg hv]
      refine Contract.Safe.step (fun ls => At t (.startAccept :: fs) fun s =>
        Pointed t l ls v s ∧ v ≠ invalidSocket) (ask (a := .getSocket l) rfl
          (fun _ => fact_pointed.and (.const _)) (fun s _ hP => .inl hP.fact.1.1.1.mem) ?_)
        fun ls => Contract.Safe.step _ atomic_acceptEx fun r => Contract.Safe.pure fun hr => ?_
      · rintro s o r s' - ⟨hoffered, x, hx, hxv⟩ he
        obtain ⟨y, hy, rfl, rfl⟩ := exec_getSocket he
        obtain rfl := Option.some.inj (hx.symm.trans hy)
        exact ⟨⟨hoffered, x, hx, .inl rfl, hxv⟩, hv⟩
      · rw [if_neg fun h => hr h.1]
        exact fun _ _ h => .inl ⟨rfl, h⟩
  · subst hrc
    exact Contract.Safe.step _ atomic_leaveSuccess fun _ _ _ h => h
  · subst hrc
    exact Contract.Safe.step _ atomic_leaveFailure fun _ _ _ h => h

end Server

end Alpl.Net
