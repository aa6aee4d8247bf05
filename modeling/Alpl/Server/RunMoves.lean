import Alpl.Server.Contract

/-!
# Moves that concern the run alone

The history and the stacks are read by the invariant of a server through a few accounts: what was
delivered, how often `disconnect` was called for a context, the last `start_accept`.  A *plain*
entry of the history changes none of them, so adding one to the state after a move keeps what
the move has shown (`Move.record`).  The entries that are not plain, and the frames, are treated
one by one.
-/

namespace Alpl.Net

open Interleaving

namespace Server

variable {s s' : State} {r : Record} {m : Option Tid} {t u : Tid}

/-! ## Plain entries -/

@[simp] lemma record_history (s : State) (r : Record) : (s.record r).history = r :: s.history := rfl

lemma delivered_of_data {p : ConnectionPtr} (h : State.dataFor p r = []) :
    (s.record r).delivered p = s.delivered p := by
  rw [State.delivered, record_history, State.deliveredIn, h, List.append_nil]
  rfl

lemma dataFor_of_plain (hr : r.plain = true) (p : ConnectionPtr) : State.dataFor p r = [] := by
  unfold State.dataFor
  split
  · cases hr
  · rfl

lemma delivered_record (hr : r.plain = true) (p : ConnectionPtr) :
    (s.record r).delivered p = s.delivered p :=
  delivered_of_data (dataFor_of_plain hr p)

lemma disconnects_entered (s : State) (t : Tid) (c : ContextPtr) :
    disconnects (s.record (.entered t (.disconnect (some c)))) c = disconnects s c + 1 := by
  rw [disconnects, record_history, disconnectsIn, if_pos rfl]
  rfl

lemma disconnects_entered_of_ne {c d : ContextPtr} (h : d ≠ c) :
    disconnects (s.record (.entered t (.disconnect (some c)))) d = disconnects s d := by
  rw [disconnects, record_history, disconnectsIn, if_neg (Ne.symm h)]
  rfl

lemma disconnects_record (hr : r.plain = true) (c : ContextPtr) :
    disconnects (s.record r) c = disconnects s c := by
  rw [disconnects, record_history, disconnectsIn.eq_def]
  split
  · rename_i h
    cases h
  · rename_i h
    cases h
    cases hr
  · rename_i h
    cases h
    rfl

lemma lastStartAccept_record (hr : r.plain = true) :
    lastStartAccept (s.record r).history = lastStartAccept s.history := by
  rw [record_history, lastStartAccept.eq_def]
  split
  · rename_i h
    cases h
  · rename_i h
    cases h
    cases hr
  · rename_i h
    cases h
    cases hr
  · rename_i h
    cases h
    rfl

lemma Abandoned.record {c : ContextPtr} (h : Abandoned s c) : Abandoned (s.record r) c :=
  h.imp fun _ ht => List.mem_cons_of_mem _ ht

lemma AcceptFault.record (h : AcceptFault s) : AcceptFault (s.record r) :=
  h.imp fun _ hr => ⟨List.mem_cons_of_mem _ hr.1, hr.2⟩

lemma NotRearmed.of_last (hl : lastStartAccept (s.record r).history = lastStartAccept s.history)
    (h : NotRearmed s) : NotRearmed (s.record r) := by
  refine h.imp AcceptFault.record (Or.imp hl.trans ?_)
  rintro ⟨t, rc, ht, hrc⟩
  exact ⟨t, rc, hl.trans ht, hrc⟩

lemma started_record (hr : r.plain = true) (h : (s.record r).started) : s.started := by
  rcases List.mem_cons.mp h with h | h
  · rw [← h] at hr
    cases hr
  · exact h

/-! The fields of the invariant that look at the history, for an entry that leaves the account in
question alone. -/

lemma Inv.placed_record (hI : Inv s) (l c : ContextPtr) (he : s.exiting = false)
    (hl : s.theSocketContext = some l) (hc : Live s c) (hne : c ≠ l) :
    (∃ t, c ∈ s.holds t) ∨ s.outstanding c = 1 ∨ Abandoned (s.record r) c :=
  (hI.placed l c he hl hc hne).imp_right (Or.imp_right Abandoned.record)

lemma Inv.freshDelivered_record (hI : Inv s) (hr : ∀ p, State.dataFor p r = [])
    (p : ConnectionPtr) (hp : s.nextConnection ≤ p) : (s.record r).delivered p = [] :=
  (delivered_of_data (hr p)).trans (hI.freshDelivered p hp)

lemma Inv.inOrder_record (hI : Inv s) (hr : ∀ p, State.dataFor p r = []) (p : ConnectionPtr)
    (c : ContextPtr) (k : SockId) (hp : MadeFor s p c) (hk : KeyOf s k c) :
    (s.record r).delivered p <+: (s.sockets k).stream := by
  rw [delivered_of_data (hr p)]
  exact hI.inOrder p c k hp hk

lemma Inv.complete_record (hI : Inv s) (hr : ∀ p, State.dataFor p r = []) (p : ConnectionPtr)
    (c : ContextPtr) (hd : s.handlers.onDataReceived = true) (he : s.exiting = false)
    (hp : MadeFor s p c) (hc : ∀ t, c ∉ s.holds t) :
    Pending (s.record r) p c (queuedBytes s c) := by
  intro k hk
  rw [delivered_of_data (hr p)]
  exact hI.complete p c hd he hp hc k hk

lemma Inv.acceptFrame_record (hI : Inv s) (hr : NotRearmed s → NotRearmed (s.record r)) (t : Tid)
    (l : ContextPtr) (hl : s.theSocketContext = some l) (hc : l ∈ s.holds t) :
    .completion .ioAccept l ∈ s.stack t ∨
      t = .main ∧ (.start ∈ s.stack .main ∨ NotRearmed (s.record r)) :=
  (hI.acceptFrame t l hl hc).imp_right (And.imp_right (Or.imp_right hr))

lemma Inv.armed_record (hI : Inv s) (hr : NotRearmed s → NotRearmed (s.record r)) (l : ContextPtr)
    (hl : s.theSocketContext = some l) (he : s.exiting = false) (hn : ¬ NotRearmed (s.record r)) :
    (∃ t, l ∈ s.holds t) ∨ s.outstanding l = 1 :=
  hI.armed l hl he fun h => hn (hr h)

lemma Inv.accepted_record (hI : Inv s) (hr : ∀ t, r ≠ .returned t .startAccept commSuccess)
    (t : Tid) (h h' : List Record)
    (hh : (s.record r).history = h ++ .returned t .startAccept commSuccess :: h') :
    AcceptFault (s.record r) ∨ AcceptCalled t h' := by
  cases h with
  | nil => exact absurd (List.cons.inj hh).1 (hr t)
  | cons r₁ h₁ => exact (hI.accepted t h₁ h' (List.cons.inj hh).2).imp_left AcceptFault.record

lemma Inv.record (hI : Inv s) (hr : r.plain = true) : Inv (s.record r) :=
  have hdata : ∀ p, State.dataFor p r = [] := dataFor_of_plain hr
  have hn : NotRearmed s → NotRearmed (s.record r) :=
    NotRearmed.of_last (lastStartAccept_record hr)
  { hI with
    freshDelivered := hI.freshDelivered_record hdata
    freshDisconnects := fun c hc => (disconnects_record hr c).trans (hI.freshDisconnects c hc)
    disconnectOnce := fun c => by
      rw [disconnects_record hr]
      exact hI.disconnectOnce c
    placed := hI.placed_record
    clientOut := fun l c hl hne ho => by
      rw [disconnects_record hr]
      exact hI.clientOut l c hl hne ho
    idle := fun h0 => by
      rw [lastStartAccept_record hr]
      exact hI.idle h0
    inOrder := hI.inOrder_record hdata
    complete := hI.complete_record hdata
    acceptFrame := hI.acceptFrame_record hn
    started := fun hs => by
      rw [lastStartAccept_record hr]
      exact hI.started (started_record hr hs)
    armed := hI.armed_record hn
    accepted := hI.accepted_record (by rintro t rfl; cases hr) }

lemma Kept.record {c : ContextPtr} (h : Kept c s s') (hr : r.plain = true) :
    Kept c s (s'.record r) :=
  { h with
    delivered := fun p hp => (delivered_record hr p).trans (h.delivered p hp)
    disconnects := (disconnects_record hr c).trans h.disconnects }

lemma KeptListener.record {l : ContextPtr} (h : KeptListener t l s s') (hr : r.plain = true) :
    KeptListener t l s (s'.record r) :=
  { h with
    last := fun z hz => (lastStartAccept_record hr).trans (h.last z hz)
    first := fun hz => (lastStartAccept_record hr).trans (h.first hz) }

lemma SameMemory.record (h : SameMemory s s') : SameMemory s (s'.record r) :=
  ⟨h.theSocketContext, h.socketContexts, h.connections, h.iocpHandle, h.contexts, h.nextContext,
    h.tcpConnections, h.nextConnection, h.handles, h.sockets, h.nextSock, h.pending, h.queue,
    h.holds, h.alive⟩

lemma Respects.record (h : Respects t s s') (hr : r.plain = true) : Respects t s (s'.record r) :=
  { h with
    alone := fun ht h0 => SameMemory.record (h.alone ht h0)
    kept := fun c hc => (h.kept c hc).record hr
    listener := fun l hl hc => (h.listener l hl hc).record hr }

/-- A plain entry of the history, on top of a move. -/
lemma Move.record (h : Move m s s') (hr : r.plain = true) : Move m s (s'.record r) :=
  ⟨h.inv.record hr, fun u hu => (h.respects u hu).record hr, h.keeps⟩

/-! ## Frames -/

/-- The condition under which thread `t` may be inside the functions `fs`. -/
structure Inside (t : Tid) (fs : List Frame) (s : State) : Prop where
  listenSock : t = .main → .stop ∈ s.stack .main → .stop ∈ fs ∨
    ∀ l, s.theSocketContext = some l → ListenSock s l
  callback : ∀ p, .callback .onDataReceived (some p) ∈ fs → ∃ c ∈ s.holds t, MadeFor s p c
  fresh : ∀ c, .handleReceive c ∈ fs → c < s.nextContext
  receive : ∀ c, .handleReceive c ∈ fs → c ∈ s.holds t → .disconnect (some c) ∉ fs →
    ∃ v k p, Registered s c v k p
  accept : ∀ l, s.theSocketContext = some l → l ∈ s.holds t →
    .completion .ioAccept l ∈ fs ∨ t = .main ∧ (.start ∈ fs ∨ NotRearmed s)
  started : s.started → t = .main → .start ∉ fs

lemma stack_setStack (s : State) (t : Tid) (fs : List Frame) (u : Tid) :
    (s.setStack t fs).stack u = if u = t then fs else s.stack u :=
  Function.update_apply _ _ _ _

lemma Inv.setStack (hI : Inv s) {fs : List Frame} (h : Inside t fs s) : Inv (s.setStack t fs) :=
  { hI with
    listenSock := fun l hl => by
      rcases hI.listenSock l hl with hs | hs
      · exact .inl hs
      · rw [stack_setStack]
        split
        · rename_i ht
          exact (h.listenSock ht.symm hs).symm.imp_left fun h => h l hl
        · exact .inr hs
    callbackFrame := fun u p hp => by
      rw [stack_setStack] at hp
      split at hp
      · rename_i hu
        subst hu
        exact h.callback p hp
      · exact hI.callbackFrame u p hp
    freshFrame := fun u c hf => by
      rw [stack_setStack] at hf
      split at hf
      · exact h.fresh c hf
      · exact hI.freshFrame u c hf
    receiveFrame := fun u c hf hc hd => by
      rw [stack_setStack] at hf hd
      split at hf
      · rename_i hu
        subst hu
        rw [if_pos rfl] at hd
        exact h.receive c hf hc hd
      · rename_i hu
        rw [if_neg hu] at hd
        exact hI.receiveFrame u c hf hc hd
    acceptFrame := fun u l hl hc => by
      rw [stack_setStack, stack_setStack]
      by_cases hu : u = t
      · subst hu
        rw [if_pos rfl]
        refine (h.accept l hl hc).imp_right fun ⟨hm, ho⟩ => ⟨hm, ?_⟩
        rw [if_pos hm.symm]
        exact ho
      · rw [if_neg hu]
        refine (hI.acceptFrame u l hl hc).imp_right fun ⟨hm, ho⟩ => ⟨hm, ?_⟩
        rw [if_neg (hm ▸ hu)]
        exact ho
    started := fun hs => by
      rw [stack_setStack]
      split
      · rename_i ht
        exact ⟨h.started hs ht.symm, (hI.started hs).2⟩
      · exact hI.started hs }

/-- A change of the stack of `t` concerns nobody else. -/
lemma Move.setStack (hI : Inv s) {fs : List Frame} (h : Inside t fs s) :
    Move (some t) s (s.setStack t fs) where
  inv := hI.setStack h
  respects u _ := { Respects.refl u s with
    alone := fun _ _ => ⟨rfl, rfl, rfl, rfl, rfl, rfl, rfl, rfl, rfl, rfl, rfl, rfl, rfl, rfl, rfl⟩
    kept := fun c _ => { Kept.refl c s with }
    listener := fun l _ _ => { KeptListener.refl u l s with } }
  keeps _ _ _ _ h _ := h

lemma Inv.inside (hI : Inv s) (t : Tid) : Inside t (s.stack t) s where
  listenSock ht hs := .inl (ht ▸ hs)
  callback p := hI.callbackFrame t p
  fresh c := hI.freshFrame t c
  receive c := hI.receiveFrame t c
  accept l hl hc := by
    rcases hI.acceptFrame t l hl hc with h | ⟨rfl, h⟩
    · exact .inl h
    · exact .inr ⟨rfl, h⟩
  started hs ht := ht ▸ (hI.started hs).1

/-- One more frame. -/
lemma Inside.push {f : Frame} {fs : List Frame} (h : Inside t fs s)
    (hcall : ∀ p, f = .callback .onDataReceived (some p) → ∃ c ∈ s.holds t, MadeFor s p c)
    (hrecv : ∀ c, f = .handleReceive c → c < s.nextContext ∧ ∃ v k p, Registered s c v k p)
    (hstart : f = .start → ¬ s.started) : Inside t (f :: fs) s where
  fresh c hc := (List.mem_cons.mp hc).elim (fun he => (hrecv c he.symm).1) (h.fresh c)
  listenSock ht hs := (h.listenSock ht hs).imp_left (List.mem_cons_of_mem f)
  callback p hp := (List.mem_cons.mp hp).elim (fun he => hcall p he.symm) (h.callback p)
  receive c hc hh hd := (List.mem_cons.mp hc).elim (fun he => (hrecv c he.symm).2) fun hc =>
    h.receive c hc hh fun hm => hd (List.mem_cons_of_mem f hm)
  accept l hl hc := (h.accept l hl hc).imp (List.mem_cons_of_mem f)
    fun h => ⟨h.1, h.2.imp_left (List.mem_cons_of_mem f)⟩
  started hs ht hm := (List.mem_cons.mp hm).elim (fun he => hstart he.symm hs) (h.started hs ht)

/-- One frame less. -/
lemma Inside.pop {f : Frame} {fs : List Frame} (h : Inside t (f :: fs) s)
    (hstop : f = .stop → ∀ l, s.theSocketContext = some l → ListenSock s l)
    (hdisc : ∀ c, f = .disconnect (some c) → c ∈ s.holds t → ∃ v k p, Registered s c v k p)
    (haccept : ∀ op c, f ≠ .completion op c)
    (hstart : f = .start → ∀ l, s.theSocketContext = some l → l ∈ s.holds t → NotRearmed s) :
    Inside t fs s where
  listenSock ht hs := by
    rcases h.listenSock ht hs with hm | hm
    · exact (List.mem_cons.mp hm).elim (fun he => .inr (hstop he.symm)) .inl
    · exact .inr hm
  callback p hp := h.callback p (List.mem_cons_of_mem f hp)
  fresh c hc := h.fresh c (List.mem_cons_of_mem f hc)
  receive c hc hh hd := by
    by_cases hf : f = .disconnect (some c)
    · exact hdisc c hf hh
    · exact h.receive c (List.mem_cons_of_mem f hc) hh fun hm =>
        (List.mem_cons.mp hm).elim (fun he => hf he.symm) hd
  accept l hl hc := by
    rcases h.accept l hl hc with hm | ⟨ht, hm | hm⟩
    · exact .inl ((List.mem_cons.mp hm).resolve_left (haccept _ _).symm)
    · refine .inr ⟨ht, (List.mem_cons.mp hm).elim (fun he => ?_) .inl⟩
      exact .inr (hstart he.symm l hl hc)
    · exact .inr ⟨ht, .inr hm⟩
  started hs ht hm := h.started hs ht (List.mem_cons_of_mem f hm)

/-! ## Entries that are not plain -/

/-- What nobody but the memory knows, nobody else notices. -/
lemma Respects.of_run {s s' : State} (h : SameMemory s s')
    (hdelivered : ∀ c ∈ s.holds u, ∀ p, MadeFor s p c → s'.delivered p = s.delivered p)
    (hdisconnects : ∀ c ∈ s.holds u, disconnects s' c = disconnects s c)
    (hlast : ∀ l, s.theSocketContext = some l → l ∈ s.holds u →
      (∀ z, lastStartAccept s.history = some (u, z) →
        lastStartAccept s'.history = some (u, z)) ∧
      (lastStartAccept s.history = none → lastStartAccept s'.history = none)) :
    Respects u s s' where
  alone _ _ := h
  the _ hl := h.theSocketContext.trans hl
  theContext _ x _ hx := ⟨x, by rw [h.contexts, hx], .inl rfl⟩
  theSocket _ _ x _ hx := ⟨x, by rw [h.contexts, hx], rfl⟩
  listenSock _ l _ hs := by
    unfold ListenSock KeyOf
    rw [h.contexts, h.handles, h.sockets]
    exact hs
  closed _ l _ hs := by
    unfold Closed KeyOf
    rw [h.handles, h.sockets]
    exact hs
  holds := by rw [h.holds]
  kept c hc :=
    { context := fun _ => by rw [h.contexts]
      listed := by rw [h.socketContexts]
      assoc := fun _ _ => by rw [h.sockets]
      stream := fun _ _ => by rw [h.sockets]
      handles := fun _ _ _ _ => by rw [h.handles]
      connections := fun _ _ _ _ _ => by rw [h.connections]
      madeFor := fun _ => by rw [MadeFor, MadeFor, h.tcpConnections]
      delivered := hdelivered c hc
      disconnects := hdisconnects c hc }
  listener l hl hc :=
    { ioContext := fun x hx => ⟨x, by rw [h.contexts, hx], rfl⟩
      port := h.iocpHandle
      last := (hlast l hl hc).1
      first := (hlast l hl hc).2
      unassociated := fun _ _ hv _ => ⟨by rw [h.handles, hv], by rw [h.sockets]⟩ }

/-- `start_accept` is entered by the thread that has the listening context. -/
lemma Inv.enterStartAccept (hI : Inv s) {l : ContextPtr} (hl : s.theSocketContext = some l)
    (hc : l ∈ s.holds t) (hf : .completion .ioAccept l ∈ s.stack t ∨
      t = .main ∧ .start ∈ s.stack .main) : Inv (s.record (.entered t .startAccept)) :=
  { hI with
    freshDelivered := hI.freshDelivered_record fun _ => rfl
    placed := hI.placed_record
    idle := fun h0 => nomatch h0.symm.trans hl
    inOrder := hI.inOrder_record fun _ => rfl
    complete := hI.complete_record fun _ => rfl
    acceptFrame := fun u l' hl' hc' => by
      obtain rfl := Option.some.inj (hl.symm.trans hl')
      obtain rfl := hI.single t u l hc hc'
      exact hf.imp_right fun h => ⟨h.1, .inl h.2⟩
    started := fun hs => ⟨(hI.started ((List.mem_cons.mp hs).resolve_left nofun)).1, nofun⟩
    armed := fun l' hl' _ _ => .inl ⟨t, Option.some.inj (hl.symm.trans hl') ▸ hc⟩
    accepted := hI.accepted_record (by rintro _ ⟨⟩) }

/-- What the return of a call of `start_accept` does to the account of the last one. -/
lemma lastStartAccept_returned {rc : ℤ} {h : List Record}
    (hn : lastStartAccept h ≠ some (t, none)) :
    lastStartAccept (.returned t .startAccept rc :: h) = lastStartAccept h := by
  rw [lastStartAccept]
  split
  · rename_i u hu
    split
    · rename_i hut
      exact absurd (hut ▸ hu) hn
    · exact hu.symm
  · rfl

lemma lastStartAccept_returned_self {rc : ℤ} {h : List Record}
    (hn : lastStartAccept h = some (t, none)) :
    lastStartAccept (.returned t .startAccept rc :: h) = some (t, some rc) := by
  rw [lastStartAccept, hn]
  exact if_pos rfl

lemma NotRearmed.returned {rc : ℤ} (h : NotRearmed s) :
    NotRearmed (s.record (.returned t .startAccept rc)) := by
  have hl : lastStartAccept s.history ≠ some (t, none) →
      lastStartAccept (s.record (.returned t .startAccept rc)).history =
        lastStartAccept s.history := lastStartAccept_returned
  rcases h with h | h | ⟨u, rc', h, hrc⟩
  · exact .inl h.record
  · exact .inr (.inl ((hl (by rw [h]; nofun)).trans h))
  · exact .inr (.inr ⟨u, rc', (hl (by rw [h]; nofun)).trans h, hrc⟩)

/-- A call of `start_accept` returns, with success only if an accept is outstanding. -/
lemma Inv.leaveStartAccept (hI : Inv s) {rc : ℤ}
    (hrc : rc = commSuccess → AcceptFault s ∨ AcceptCalled t s.history) :
    Inv (s.record (.returned t .startAccept rc)) :=
  { hI with
    freshDelivered := hI.freshDelivered_record fun _ => rfl
    placed := hI.placed_record
    idle := fun h0 => by
      obtain ⟨hp, hq, hh, ho, hl⟩ := hI.idle h0
      refine ⟨hp, hq, hh, ho, (lastStartAccept_returned (by rw [hl]; nofun)).trans hl⟩
    inOrder := hI.inOrder_record fun _ => rfl
    complete := hI.complete_record fun _ => rfl
    acceptFrame := hI.acceptFrame_record NotRearmed.returned
    started := fun hs => by
      obtain ⟨hst, hl⟩ := hI.started ((List.mem_cons.mp hs).resolve_left nofun)
      refine ⟨hst, ?_⟩
      by_cases hn : lastStartAccept s.history = some (t, none)
      · rw [record_history, lastStartAccept_returned_self hn]
        nofun
      · rw [record_history, lastStartAccept_returned hn]
        exact hl
    armed := hI.armed_record NotRearmed.returned
    accepted := fun v h h' hh => by
      cases h with
      | nil =>
          obtain ⟨he, rfl⟩ := List.cons.inj hh
          cases he
          exact (hrc rfl).imp_left AcceptFault.record
      | cons r₁ h₁ => exact (hI.accepted v h₁ h' (List.cons.inj hh).2).imp_left AcceptFault.record }

/-- `disconnect` is entered, for the first time for this context. -/
lemma Inv.enterDisconnect (hI : Inv s) {c : ContextPtr} (hc : c ∈ s.holds t)
    (h0 : disconnects s c = 0) : Inv (s.record (.entered t (.disconnect (some c)))) :=
  have hself : disconnects (s.record (.entered t (.disconnect (some c)))) c = 1 := by
    rw [disconnects_entered, h0]
  { hI with
    freshDelivered := hI.freshDelivered_record fun _ => rfl
    freshDisconnects := fun d hd => by
      have hne : d ≠ c := by
        rintro rfl
        obtain ⟨x, hx⟩ := hI.live t d hc
        rw [hI.freshContext d hd] at hx
        cases hx
      rw [disconnects_entered_of_ne hne]
      exact hI.freshDisconnects d hd
    disconnectOnce := fun d => by
      by_cases hd : d = c
      · exact Nat.le_of_eq (hd ▸ hself)
      · rw [disconnects_entered_of_ne hd]
        exact hI.disconnectOnce d
    placed := hI.placed_record
    clientOut := fun l d hl hd ho => by
      have hne : d ≠ c := by
        rintro rfl
        exact ho (hI.quiet t d hc)
      rw [disconnects_entered_of_ne hne]
      exact hI.clientOut l d hl hd ho
    inOrder := hI.inOrder_record fun _ => rfl
    complete := hI.complete_record fun _ => rfl
    acceptFrame := hI.acceptFrame_record (NotRearmed.of_last rfl)
    started := fun hs => hI.started ((List.mem_cons.mp hs).resolve_left nofun)
    armed := hI.armed_record (NotRearmed.of_last rfl)
    accepted := hI.accepted_record (by rintro _ ⟨⟩) }

/-- `Start` returns, with success only if it has called `start_accept`. -/
lemma Inv.leaveStart (hI : Inv s) {rc : ℤ} (hs : .start ∉ s.stack .main)
    (hrc : rc = commSuccess → lastStartAccept s.history ≠ none) :
    Inv (s.record (.returned .main .start rc)) :=
  { hI with
    freshDelivered := hI.freshDelivered_record fun _ => rfl
    placed := hI.placed_record
    inOrder := hI.inOrder_record fun _ => rfl
    complete := hI.complete_record fun _ => rfl
    acceptFrame := hI.acceptFrame_record (NotRearmed.of_last rfl)
    started := fun hst => by
      refine ⟨hs, ?_⟩
      rcases List.mem_cons.mp hst with he | hst
      · cases he
        exact hrc rfl
      · exact (hI.started hst).2
    armed := hI.armed_record (NotRearmed.of_last rfl)
    accepted := hI.accepted_record (by rintro _ ⟨⟩) }

/-- The user is given the next bytes of a connection, by the thread that has its context. -/
lemma Inv.data (hI : Inv s) {c : ContextPtr} {q : ConnectionPtr} {bytes : List UInt8}
    (hc : c ∈ s.holds t) (hq : MadeFor s q c) (hn : q < s.nextConnection)
    (hb : Pending s q c bytes) :
    Inv (s.record (.callback t .onDataReceived (some q) bytes)) :=
  have hself : (s.record (.callback t .onDataReceived (some q) bytes)).delivered q =
      s.delivered q ++ bytes := by
    rw [State.delivered, record_history, State.deliveredIn, State.dataFor, if_pos rfl]
    rfl
  have hother : ∀ p, p ≠ q →
      (s.record (.callback t .onDataReceived (some q) bytes)).delivered p = s.delivered p :=
    fun p hp => delivered_of_data (if_neg (Ne.symm hp))
  { hI with
    freshDelivered := fun p hp =>
      (hother p (Nat.ne_of_gt (Nat.lt_of_lt_of_le hn hp))).trans (hI.freshDelivered p hp)
    placed := hI.placed_record
    inOrder := fun p d k hp hk => by
      by_cases hpq : p = q
      · subst hpq
        obtain rfl := MadeFor.context_eq hq hp
        have hall : s.delivered p ++ bytes = (s.sockets k).stream := hb k hk
        rw [hself, hall]
        exact List.prefix_refl _
      · rw [hother p hpq]
        exact hI.inOrder p d k hp hk
    complete := fun p d hd he hp hnot k hk => by
      have hpq : p ≠ q := by
        rintro rfl
        obtain rfl := MadeFor.context_eq hq hp
        exact hnot t hc
      rw [hother p hpq]
      exact hI.complete p d hd he hp hnot k hk
    acceptFrame := hI.acceptFrame_record (NotRearmed.of_last rfl)
    started := fun hs => hI.started ((List.mem_cons.mp hs).resolve_left nofun)
    armed := hI.armed_record (NotRearmed.of_last rfl)
    accepted := hI.accepted_record (by rintro _ ⟨⟩) }

end Server

end Alpl.Net
