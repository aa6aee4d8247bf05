import Alpl.Server.Receiving
import Alpl.Server.Creation

/-!
# A new connection

The triples of `handle_accept` and `handle_new_connection`.  The worker that got the accept
completion has the listening context in hand, so nobody else touches the new socket, which is not
associated with a port yet.  The association, the entry in the list, the connection object and its
entry in `connections_` follow one by one; after the last of them the connection is registered,
and its first bytes are passed on before anything is received on the new socket.
-/

namespace Alpl.Net

open Interleaving

namespace Server

variable {u : Setup} {t : Tid} {fs : List Frame} {s s' : State}
variable {l c n : ContextPtr} {v : SOCKET} {k : SockId} {p : ConnectionPtr}
variable {size : ℕ} {data : List UInt8} {hs : List ContextPtr} {φ : State → Prop}

/-! ## Before the association -/

/-- Thread `t` has the listening context `l` in hand, with the accepted socket `v` and the bytes
that came with it. -/
structure Arrived (t : Tid) (l : ContextPtr) (hs : List ContextPtr) (v : SOCKET) (k : SockId)
    (size : ℕ) (data : List UInt8) (s : State) : Prop extends Hand t l hs s where
  context : ∃ x, s.contexts l = some x ∧ x.ioContext.socketAccept = v ∧
    x.ioContext.buffer.take size = data ∧ v ≠ x.socket
  opened : s.handles v = some k
  free : (s.sockets k).assoc = none
  stream : (s.sockets k).stream = data

/-- The listening context in hand: its `io_context` stays, its socket may be closed. -/
lemma Respects.listening (hR : Respects t s s') {x : SocketContext}
    (hl : s.theSocketContext = some l) (hc : l ∈ s.holds t) (hx : s.contexts l = some x) :
    ∃ x', s'.contexts l = some x' ∧ x'.ioContext = x.ioContext ∧
      (x'.socket = x.socket ∨ x'.socket = invalidSocket) := by
  obtain ⟨x', hx', hio⟩ := (hR.listener l hl hc).ioContext x hx
  obtain ⟨x'', hx'', hsock⟩ := hR.theContext l x hl hx
  obtain rfl := Option.some.inj (hx'.symm.trans hx'')
  exact ⟨x', hx', hio, hsock⟩

lemma fact_arrived (hl : l ∈ hs) : Fact t (Arrived t l hs v k size data) :=
  fun s s' hI hO hR h => by
  have hc : l ∈ s.holds t := h.holds ▸ hl
  obtain ⟨hopen, hsame⟩ := (hR.listener l h.the hc).unassociated v k h.opened h.free
  refine { fact_hand s s' hI hO hR h.toHand with
    context := ?_
    opened := hopen
    free := hsame ▸ h.free
    stream := hsame ▸ h.stream }
  obtain ⟨x, hx, hv, hb, hne⟩ := h.context
  obtain ⟨x', hx', hio, hsock⟩ := hR.listening h.the hc hx
  refine ⟨x', hx', by rw [hio]; exact hv, by rw [hio]; exact hb, ?_⟩
  rcases hsock with hsock | hsock <;> rw [hsock]
  · exact hne
  · rintro rfl
    exact nomatch hI.invalid.symm.trans h.opened

/-- The context `n` was made for the socket `v`, and no connection object for it yet. -/
structure New (n : ContextPtr) (v : SOCKET) (s : State) : Prop where
  context : ∃ x, s.contexts n = some x ∧ x.socket = v ∧
    x.ioContext.socketAccept = invalidSocket
  noObject : ∀ p, ¬ MadeFor s p n
  never : NotCalled n s

lemma Respects.new (hR : Respects t s s') (hn : n ∈ s.holds t) (hthe : s.theSocketContext ≠ some n)
    (h : New n v s) : New n v s' where
  context := by
    rw [(hR.kept n hn).context hthe]
    exact h.context
  noObject p hp := h.noObject p (((hR.kept n hn).madeFor p).mp hp)
  never := hR.notCalled hn h.never

/-- The new context is not associated with a socket yet. -/
structure Made (t : Tid) (l n : ContextPtr) (v : SOCKET) (k : SockId) (size : ℕ)
    (data : List UInt8) (s : State) : Prop extends Arrived t l [n, l] v k size data s where
  apart : n ≠ l
  new : New n v s
  noKey : ∀ j, ¬ KeyOf s j n

/-- The new socket completes under the new context. -/
structure Joined (t : Tid) (l n : ContextPtr) (v : SOCKET) (k : SockId) (size : ℕ)
    (data : List UInt8) (s : State) : Prop extends Hand t l [n, l] s where
  apart : n ≠ l
  new : New n v s
  brings : Brings l size data s
  opened : s.handles v = some k
  assoc : (s.sockets k).assoc = some (s.workersPort, n)
  stream : (s.sockets k).stream = data
  unmapped : s.connections v = none

/-- The association failed, and the handler has no port any more. -/
structure Lost (t : Tid) (l n : ContextPtr) (s : State) : Prop where
  holds : s.holds t = [n, l]
  the : s.theSocketContext = some l
  lost : s.iocpHandle = none
  apart : n ≠ l
  noObject : ∀ p, ¬ MadeFor s p n
  noKey : ∀ j, ¬ KeyOf s j n
  faulted : Faulted t s

lemma fact_made : Fact t (Made t l n v k size data) := fun s s' hI hO hR h =>
  { fact_arrived (List.mem_cons_of_mem n List.mem_cons_self) s s' hI hO hR h.toArrived with
    apart := h.apart
    new := hR.new h.mem (h.the_ne h.apart) h.new
    noKey := fun j hj => h.noKey j ((hR.keyOf h.mem).mp hj) }

lemma fact_joined : Fact t (Joined t l n v k size data) := fun s s' hI hO hR h =>
  have hthe := h.the_ne h.apart
  have hkey : KeyOf s k n := ⟨_, h.assoc⟩
  { fact_hand s s' hI hO hR h.toHand with
    apart := h.apart
    new := hR.new h.mem hthe h.new
    brings := hR.brings (h.holds ▸ List.mem_cons_of_mem n List.mem_cons_self) h.brings
    opened := hR.opened h.mem hthe hkey h.opened
    assoc := by
      rw [hO.workersPort]
      exact ((hR.kept n h.mem).assoc k _).mpr h.assoc
    stream := ((hR.kept n h.mem).stream k hkey).trans h.stream
    unmapped := ((hR.kept n h.mem).connections hthe v k h.opened hkey).trans h.unmapped }

lemma fact_lost : Fact t (Lost t l n) := fun s s' hI hO hR h =>
  have hn : n ∈ s.holds t := h.holds ▸ List.mem_cons_self
  { holds := hR.holds.trans h.holds
    the := hR.the l h.the
    lost := by
      rw [(hR.listener l h.the (h.holds ▸ List.mem_cons_of_mem n List.mem_cons_self)).port]
      exact h.lost
    apart := h.apart
    noObject := fun p hp => h.noObject p (((hR.kept n hn).madeFor p).mp hp)
    noKey := fun j hj => h.noKey j ((hR.keyOf hn).mp hj)
    faulted := lasting_faulted s s' hO h.faulted }

/-! ## When the listening context has been handled -/

/-- Thread `t` is done with its contexts, except that it still has to see to the listening context
`l`, if it has it in hand and `φ` does not hold. -/
structure Over (t : Tid) (l : ContextPtr) (φ : State → Prop) (s : State) : Prop where
  the : s.theSocketContext = some l
  others : ∀ d ∈ s.holds t, d ≠ l → Abandoned s d ∧ Drained s d
  excused : l ∈ s.holds t → φ s

lemma fact_over (hφ : ∀ s s', Onward s s' → Respects t s s' → s.theSocketContext = some l →
    l ∈ s.holds t → φ s → φ s') : Fact t (Over t l φ) := fun s s' _ hO hR h =>
  { the := hR.the l h.the
    others := fun d hd hne => by
      rw [hR.holds] at hd
      obtain ⟨ha, hdr⟩ := h.others d hd hne
      exact ⟨lasting_abandoned s s' hO ha, hR.drained hO hd hdr⟩
    excused := fun hl => by
      rw [hR.holds] at hl
      exact hφ s s' hO hR h.the hl (h.excused hl) }

/-- Accepting has failed for good, and with it the worker. -/
def AcceptFailed (t : Tid) (l : ContextPtr) (s : State) : Prop :=
  Over t l AcceptFault s ∧ WorkerFault t s

lemma fact_acceptFailed : Fact t (AcceptFailed t l) :=
  (fact_over fun s s' hO _ _ _ => lasting_acceptFault s s' hO).and (.of_lasting lasting_workerFault)

lemma Over.of_holds (hthe : s.theSocketContext = some l) (hholds : s.holds t = [l])
    (h : φ s) : Over t l φ s :=
  ⟨hthe, fun _ hd hne => absurd (List.mem_singleton.mp (hholds ▸ hd)) hne, fun _ => h⟩

/-! ## From the accept to the association -/

lemma new_of_withNewContext (hI : Inv s) (op : LastIoOperation) :
    New s.nextContext v (withNewContext s t (SocketContext.new v op)) where
  context := ⟨_, Function.update_self _ _ _, rfl, rfl⟩
  noObject p := by
    rintro ⟨y, hy, hc⟩
    obtain ⟨d, hd, hyd, -⟩ := hI.objectOf p y hy
    obtain rfl := Option.some.inj (hc.symm.trans hyd)
    exact Nat.lt_irrefl _ hd
  never := hI.freshDisconnects _ (Nat.le_refl _)

lemma made_of_arrived (hI : Inv s) (h : Arrived t l [l] v k size data s) (op : LastIoOperation) :
    Made t l s.nextContext v k size data (withNewContext s t (SocketContext.new v op)) where
  holds := (Function.update_self _ _ _).trans (congrArg (List.cons _) h.holds)
  the := h.the
  port _ := h.port List.mem_cons_self
  context := by
    rw [withNewContext_contexts (hI.theLive l h.the) hI]
    exact h.context
  opened := h.opened
  free := h.free
  stream := h.stream
  apart := Nat.ne_of_gt (hI.lt_of_live (hI.theLive l h.the))
  new := new_of_withNewContext hI op
  noKey j hj := Nat.lt_irrefl _ (hI.freshKey j _ hj)

lemma joined_of_made {r : Record} {m : ℕ} (hI : Inv s) (h : Made t l n v k size data s)
    (hr : r.plain = true) : Joined t l n v k size data ((withKey s k n m).record r) where
  holds := h.holds
  the := h.the
  port := h.port
  apart := h.apart
  new := ⟨h.new.context, h.new.noObject,
    (disconnects_record (s := withKey s k n m) hr n).trans h.new.never⟩
  brings := h.context.imp fun _ hx => ⟨hx.1, hx.2.2.1⟩
  opened := h.opened
  assoc := congrArg SocketObject.assoc (Function.update_self k _ s.sockets)
  stream := (congrArg SocketObject.stream (Function.update_self k _ s.sockets)).trans h.stream
  unmapped := by
    -- whatever `connections_` has is associated
    by_contra hv
    obtain ⟨o, ho⟩ := Option.ne_none_iff_exists'.mp hv
    obtain ⟨c, j, q, -, hreg⟩ := hI.mapped v o ho
    obtain rfl := Option.some.inj (hreg.opened.symm.trans h.opened)
    exact nomatch hreg.1.2.2.2.symm.trans h.free

lemma acceptFailed_of_lost (h : Lost t l n s) : AcceptFailed t l (withoutContext s t n) := by
  refine ⟨Over.of_holds h.the ?_ h.faulted.1, h.faulted.2⟩
  refine (Function.update_self _ _ _).trans ?_
  rw [h.holds]
  exact List.erase_cons_head n [l]

/-- The stages of `updateCompletionPort` on the worker that handles an accept. -/
lemma joins_accept (ht : ∃ i, t = .worker i) :
    Joins u t v .ioConnect (Arrived t l [l] v k size data)
      (fun n => Made t l n v k size data) (fun n => Joined t l n v k size data) (Lost t l)
      (AcceptFailed t l) where
  fact := fact_arrived List.mem_cons_self
  factMade _ := fact_made
  factJoined _ := fact_joined
  factLost _ := fact_lost
  factFailed := fact_acceptFailed
  allowedNew s _ h := by
    obtain ⟨x, hx, -, -, hne⟩ := h.context
    exact .inr ⟨rfl, ht, l, x, h.the, h.mem, hx, hne⟩
  new s hI h := made_of_arrived hI.inv h .ioConnect
  notMade s h hf := ⟨Over.of_holds h.the h.holds hf.1, hf.2⟩
  port n s h := h.port (List.mem_cons_of_mem n List.mem_cons_self)
  portJoined n s h := h.port (List.mem_cons_of_mem n List.mem_cons_self)
  portLost _ _ h := h.lost
  mine n s h := by
    have hhand : Hand t l [n, l] s := h.elim (fun h => h.toHand) fun h => h.toHand
    exact .inr ⟨l, hhand.the, hhand.holds ▸ List.mem_cons_of_mem n List.mem_cons_self⟩
  allowedJoin n s _ h :=
    ⟨rfl, h.mem, .inr ⟨⟨l, h.the, h.holds ▸ List.mem_cons_of_mem n List.mem_cons_self⟩,
      h.the_ne h.apart⟩, h.noKey, h.new.noObject, h.new.context.imp fun _ hx => ⟨hx.1, hx.2.1⟩⟩
  join n s j m r hI h hv _ hr := by
    obtain rfl := Option.some.inj (h.opened.symm.trans hv)
    exact joined_of_made hI.inv h hr
  lose _ _ h hf := ⟨h.holds, h.the, rfl, h.apart, h.new.noObject, h.noKey, hf⟩
  allowedFree n s _ hout h := by
    have hn : n ∈ s.holds t := h.holds ▸ List.mem_cons_self
    refine ⟨hn, .inr ⟨hn, l, h.the, h.apart⟩, fun w j _ hj => h.noKey j hj, ?_, hout,
      fun j hj => absurd hj (h.noKey j)⟩
    exact fun p _ hp => absurd hp (h.noObject p)
  free _ _ _ h := acceptFailed_of_lost h

/-- The new context is in the list. -/
def Listed (t : Tid) (l n : ContextPtr) (v : SOCKET) (k : SockId) (size : ℕ) (data : List UInt8)
    (s : State) : Prop :=
  Joined t l n v k size data s ∧ n ∈ s.socketContexts

lemma fact_listed : Fact t (Listed t l n v k size data) := fun s s' hI hO hR h =>
  ⟨fact_joined s s' hI hO hR h.1, (hR.kept n h.1.mem).listed.mpr h.2⟩

lemma safe_pushFrontContext :
    (contract u).Safe (machine .server) t (act (.pushFrontContext n))
      (At t fs (Joined t l n v k size data)) fun _ => At t fs (Listed t l n v k size data) := by
  refine Contract.Safe.perform (change (fun _ => fact_listed) ?_ ?_ ?_)
  · exact fun s _ hP => ⟨hP.fact.serving hP.fact.apart, k, _, hP.fact.assoc⟩
  · intro s o r s' he
    cases o <;> cases he
    rfl
  · intro s o r s' _ _ h he
    cases o <;> cases he
    exact ⟨{ h with new := { h.new with } }, List.mem_cons_self⟩

/-! ## `handle_new_connection` -/

/-- The connection object was made, and is not in `connections_` yet. -/
structure Built (t : Tid) (l n : ContextPtr) (v : SOCKET) (k : SockId) (p : ConnectionPtr)
    (size : ℕ) (data : List UInt8) (s : State) : Prop extends Hand t l [n, l] s where
  apart : n ≠ l
  brings : Brings l size data s
  attached : Attached s n v k
  object : ObjectOf s p n v
  unmapped : s.connections v = none
  todo : Pending s p n data
  never : NotCalled n s

lemma ObjectOf.madeFor (h : ObjectOf s p n v) : MadeFor s p n :=
  h.imp fun _ hy => ⟨hy.1, hy.2.1⟩

lemma fact_built : Fact t (Built t l n v k p size data) := fun s s' hI hO hR h =>
  have hthe := h.the_ne h.apart
  have hkey : KeyOf s k n := ⟨_, h.attached.2.2.2⟩
  { fact_hand s s' hI hO hR h.toHand with
    apart := h.apart
    brings := hR.brings (h.holds ▸ List.mem_cons_of_mem n List.mem_cons_self) h.brings
    attached := hR.attached hO h.mem hthe h.attached
    object := h.object.onward hO
    unmapped := ((hR.kept n h.mem).connections hthe v k h.attached.2.2.1 hkey).trans h.unmapped
    todo := hR.pending h.mem h.object.madeFor h.todo
    never := hR.notCalled h.mem h.never }

lemma atomic_newConnection {y : TcpConnection} (hn : y.overlapped = some n) (hv : y.socket = v) :
    (contract u).Atomic (machine .server) t (At t fs (Listed t l n v k size data))
      (.newConnection y) fun p => At t fs (Built t l n v k p size data) := by
  refine change (fun _ => fact_built) ?_ ?_ ?_
  · exact fun s _ hP => ⟨n, hn, hP.fact.1.serving hP.fact.1.apart, hP.fact.1.new.noObject⟩
  · intro s o r s' he
    cases o <;> cases he
    rfl
  · intro s o r s' hI _ h he
    cases o <;> cases he
    exact
      { h.1.toHand with
        apart := h.1.apart
        brings := h.1.brings
        attached := ⟨h.1.new.context, h.2, h.1.opened, h.1.assoc⟩
        object := ⟨y, Function.update_self _ _ _, hn, hv⟩
        unmapped := h.1.unmapped
        todo := fun j hj => by
          obtain rfl := hI.inv.keyUnique j k n hj ⟨_, h.1.assoc⟩
          have hnone := hI.inv.freshDelivered s.nextConnection (Nat.le_refl _)
          exact (congrArg (· ++ data) hnone).trans h.1.stream.symm
        never := h.1.new.never }

lemma atomic_assignConnection :
    (contract u).Atomic (machine .server) t (At t fs (Built t l n v k p size data))
      (.assignConnection v p)
      fun _ => At t fs fun s => Works t l n [l] v k p data s ∧ Brings l size data s := by
  refine change (fun _ => fact_brings (List.mem_cons_of_mem n List.mem_cons_self)) ?_ ?_ ?_
  · exact fun s _ hP => ⟨hP.fact.unmapped, n, k, hP.fact.serving hP.fact.apart, hP.fact.attached,
      hP.fact.object⟩
  · intro s o r s' he
    cases o <;> cases he
    rfl
  · intro s o r s' _ _ h he
    cases o <;> cases he
    exact ⟨⟨{ h.toHand with
      apart := h.apart
      registered := ⟨h.attached, Function.update_self _ _ _, h.object⟩
      todo := fun _ => h.todo }, h.never⟩, h.brings⟩

/-- The new connection is set up, its first bytes are passed on, and it receives. -/
lemma safe_handleNewConnection (hfs : NoData fs) {o : ContextPtr} :
    (contract u).Safe (machine .server) t (handleNewConnection l n ⟨size, o⟩)
      (At t fs (Listed t l n v k size data))
      fun _ => At t fs fun s => ∃ p, Released t l n [l] v k p s := by
  have hfs' : NoData (.handleNewConnection n :: fs) := hfs.cons nofun
  refine safe_call rfl (fun _ => rfl) fact_listed
    (fun _ s s' hI hO hR ⟨p, h⟩ => ⟨p, fact_released s s' hI hO hR h⟩) (fun _ _ _ => trivial)
    (fun rc s _ hP => ⟨⟨fs, hP.stack⟩, trivial⟩) ?_
  refine Contract.Safe.step _ (read_getSocket (· = v) fact_listed (fun _ h => .inl h.1.mem)
    fun s x _ h hx => ?_) fun w => Contract.Safe.pure fun hw => ?_
  · obtain ⟨y, hy, hv, -⟩ := h.1.new.context
    obtain rfl := Option.some.inj (hx.symm.trans hy)
    exact hv
  subst hw
  refine Contract.Safe.step _ (skip' rfl (fun _ => trivial) fact_listed) fun port => ?_
  refine Contract.Safe.step _ (skip' rfl (fun _ => trivial) fact_listed) fun handlers => ?_
  refine Contract.Safe.step _ (atomic_newConnection rfl rfl) fun p => ?_
  refine Contract.Safe.step _ atomic_assignConnection fun _ => ?_
  refine Contract.Safe.bind (N := fun _ => At t (.handleNewConnection n :: fs)
    (Works t l n [l] w k p [])) ?_ fun _ => ?_
  · split
    · exact safe_deliver (List.mem_cons_of_mem n List.mem_cons_self)
    · rename_i hsize
      obtain rfl : size = 0 := not_not.mp hsize
      refine fun s _ h => h.imp fun hs => ?_
      obtain ⟨x, -, hb⟩ := hs.2
      obtain rfl : [] = data := (List.take_zero ..).symm.trans hb
      exact hs.1
  · exact (safe_firstReceive hfs').post fun _ _ _ h => h.imp fun hs => ⟨p, hs.2⟩

/-! ## `handle_accept` -/

/-- Thread `t` has nothing to see to any more but the listening context. -/
structure Left (t : Tid) (l : ContextPtr) (s : State) : Prop where
  the : s.theSocketContext = some l
  mem : l ∈ s.holds t
  port : s.iocpHandle = some s.workersPort
  others : ∀ d ∈ s.holds t, d ≠ l → Abandoned s d ∧ Drained s d

lemma fact_left : Fact t (Left t l) := fun s s' _ hO hR h =>
  { the := hR.the l h.the
    mem := by
      rw [hR.holds]
      exact h.mem
    port := by
      rw [(hR.listener l h.the h.mem).port, hO.workersPort]
      exact h.port
    others := fun d hd hne => by
      rw [hR.holds] at hd
      obtain ⟨ha, hdr⟩ := h.others d hd hne
      exact ⟨lasting_abandoned s s' hO ha, hR.drained hO hd hdr⟩ }

lemma Left.of_released (hI : Inv s) (h : Released t l n [l] v k p s) : Left t l s := by
  rcases h with h | ⟨h, ha⟩
  · refine ⟨h.the, h.mem, h.port List.mem_cons_self, fun d hd hne => ?_⟩
    exact absurd (List.mem_singleton.mp (h.holds ▸ hd)) hne
  · have hl : l ∈ [n, l] := List.mem_cons_of_mem n List.mem_cons_self
    refine ⟨h.the, h.holds ▸ hl, h.port hl, fun d hd hne => ?_⟩
    rw [h.holds] at hd
    rcases List.mem_cons.mp hd with rfl | hd
    · exact ⟨ha, h.drained hI⟩
    · exact absurd (List.mem_singleton.mp hd) hne

/-- What `handle_accept` has achieved when it returns `rc`. -/
def Handled (t : Tid) (l : ContextPtr) (rc : ℤ) (s : State) : Prop :=
  rc = commSuccess ∧ Left t l s ∨ rc ≠ commSuccess ∧ AcceptFailed t l s

lemma fact_arrivedOr (ok : Bool) :
    Fact t fun s => Arrived t l [l] v k size data s ∧ (ok = false → Faulted t s) :=
  (fact_arrived List.mem_cons_self).and
    (.of_lasting fun s s' hO h hok => lasting_faulted s s' hO (h hok))

lemma read_socketAccept :
    (contract u).Atomic (machine .server) t (At t fs (Arrived t l [l] v k size data))
      (.getIoContext l)
      fun io s => io.socketAccept = v ∧ At t fs (Arrived t l [l] v k size data) s := by
  refine read_getIoContext (fun io => io.socketAccept = v) (fact_arrived List.mem_cons_self)
    (fun _ h => .inl h.mem) fun s x _ h hx => ?_
  obtain ⟨y, hy, hv, -⟩ := h.context
  obtain rfl := Option.some.inj (hx.symm.trans hy)
  exact hv

/-- A worker takes a new connection in, or a call has failed and its loop ends. -/
lemma safe_handleAccept (ht : ∃ i, t = .worker i) (hfs : NoData fs) {o : ContextPtr} :
    (contract u).Safe (machine .server) t (handleAccept l ⟨size, o⟩)
      (At t fs (Arrived t l [l] v k size data)) fun rc => At t fs (Handled t l rc) := by
  have hfact : Fact t (Arrived t l [l] v k size data) := fact_arrived List.mem_cons_self
  refine Contract.Safe.step _ read_socketAccept fun io => Contract.Safe.pure fun hio => ?_
  refine Contract.Safe.step _ (read_theSocketContext hfact fun _ h => h.the) fun l' =>
    Contract.Safe.pure fun hl => ?_
  subst hl
  refine Contract.Safe.step _ (read_getSocket (fun _ => True) hfact (fun _ h => .inr h.the)
    fun _ _ _ _ _ => trivial) fun _ => Contract.Safe.pure fun _ => ?_
  refine Contract.Safe.step (fun ok => At t fs fun s =>
    Arrived t l [l] v k size data s ∧ (ok = false → Faulted t s))
    (still rfl fact_arrivedOr (fun _ _ _ => trivial) ?_) fun ok => ?_
  · intro s o r s' hI h he hkeep
    refine ⟨hkeep _ hfact h, fun hr => ?_⟩
    subst hr
    cases o <;> cases he
    exact faulted_record rfl (decide_eq_true rfl)
  cases ok with
  | false =>
      exact fun s _ h => h.imp fun hs =>
        .inr ⟨by decide, Over.of_holds hs.1.the hs.1.holds (hs.2 rfl).1, (hs.2 rfl).2⟩
  | true =>
      refine Contract.Safe.pre (N := At t fs (Arrived t l [l] v k size data)) ?_
        fun _ _ h => h.imp And.left
      refine Contract.Safe.step _ read_socketAccept fun io' => Contract.Safe.pure fun hio' => ?_
      rw [hio']
      refine Contract.Safe.bind (safe_updateCompletionPort (joins_accept ht) hfs true _
        fun n => safe_pushFrontContext) fun o' => Contract.Safe.or
          (Contract.Safe.pure fun ho => ?_) (Contract.Safe.exists fun n =>
            Contract.Safe.pure fun ho => ?_)
      · subst ho
        exact fun _ _ h => h.imp fun hs => .inr ⟨by decide, hs⟩
      · subst ho
        refine Contract.Safe.bind (safe_handleNewConnection hfs) fun _ s hI h => ?_
        exact h.imp fun ⟨p, hs⟩ => .inl ⟨rfl, Left.of_released hI.inv hs⟩

end Server

end Alpl.Net
