import Alpl.Server.Rules

/-!
# What a thread knows of the contexts in its hands

The facts that the triples of a server's functions are made of.  A thread that serves a connection
knows its context, its registration in `connections_` and how many bytes the user still has to be
given (`Serves`); a thread that has the listening context in hand knows `iocp_handle_`, the
`io_context` and, after an accept, the new socket (`Arrived`).  Each of them is shown to be a
`Fact` once, from the parts of `Respects`.
-/

namespace Alpl.Net

open Interleaving

namespace Server

variable {t : Tid} {s s' : State} {l c n : ContextPtr} {v : SOCKET} {k : SockId}
variable {p : ConnectionPtr} {data : List UInt8} {hs rest : List ContextPtr}

/-! ## What survives the moves of the others -/

lemma ObjectOf.onward (hO : Onward s s') (h : ObjectOf s p c v) : ObjectOf s' p c v :=
  h.imp fun y hy => ⟨hO.objects p y hy.1, hy.2⟩

namespace Respects

variable (hR : Respects t s s')
include hR

lemma keyOf (hc : c ∈ s.holds t) : KeyOf s' k c ↔ KeyOf s k c :=
  exists_congr fun q => (hR.kept c hc).assoc k q

lemma opened (hc : c ∈ s.holds t) (hthe : s.theSocketContext ≠ some c) (hk : KeyOf s k c)
    (hv : s.handles v = some k) : s'.handles v = some k :=
  ((hR.kept c hc).handles hthe v k hk).mpr hv

lemma closed_of_held (hc : c ∈ s.holds t) (hthe : s.theSocketContext ≠ some c) (h : Closed s c) :
    Closed s' c := fun v k hv hk =>
  have hk := (hR.keyOf hc).mp hk
  h v k (((hR.kept c hc).handles hthe v k hk).mp hv) hk

lemma attached (hO : Onward s s') (hc : c ∈ s.holds t) (hthe : s.theSocketContext ≠ some c)
    (h : Attached s c v k) : Attached s' c v k := by
  obtain ⟨hx, hlisted, hv, hk⟩ := h
  have hkept := hR.kept c hc
  refine ⟨?_, hkept.listed.mpr hlisted, hR.opened hc hthe ⟨_, hk⟩ hv, ?_⟩
  · rw [hkept.context hthe]
    exact hx
  · rw [hO.workersPort]
    exact (hkept.assoc k _).mpr hk

lemma registered (hO : Onward s s') (hc : c ∈ s.holds t) (hthe : s.theSocketContext ≠ some c)
    (h : Registered s c v k p) : Registered s' c v k p := by
  obtain ⟨ha, hv, ho⟩ := h
  refine ⟨hR.attached hO hc hthe ha, ?_, ho.onward hO⟩
  rw [(hR.kept c hc).connections hthe v k ha.2.2.1 ⟨_, ha.2.2.2⟩]
  exact hv

lemma pending (hc : c ∈ s.holds t) (hp : MadeFor s p c) (h : Pending s p c data) :
    Pending s' p c data := by
  intro k hk
  have hk := (hR.keyOf hc).mp hk
  rw [(hR.kept c hc).delivered p hp, (hR.kept c hc).stream k hk]
  exact h k hk

lemma drained (hO : Onward s s') (hc : c ∈ s.holds t) (h : Drained s c) : Drained s' c := by
  intro p hd hp
  have hp := ((hR.kept c hc).madeFor p).mp hp
  exact hR.pending hc hp (h p (hO.handlers ▸ hd) hp)

end Respects

/-! ## The contexts in hand -/

/-- Thread `t` has the contexts `hs` in hand; if the listening context `l` is one of them, the
handler still has its port. -/
structure Hand (t : Tid) (l : ContextPtr) (hs : List ContextPtr) (s : State) : Prop where
  holds : s.holds t = hs
  the : s.theSocketContext = some l
  port : l ∈ hs → s.iocpHandle = some s.workersPort

lemma fact_hand : Fact t (Hand t l hs) := fun s s' _ hO hR h =>
  { holds := hR.holds.trans h.holds
    the := hR.the l h.the
    port := fun hl => by
      rw [(hR.listener l h.the (h.holds ▸ hl)).port, hO.workersPort]
      exact h.port hl }

lemma lasting_acceptFault : Lasting AcceptFault := Lasting.history

lemma lasting_abandoned : Lasting fun s => Abandoned s c := fun _ _ hO h =>
  h.imp fun _ hm => hO.history.mem hm

/-! ## A connection in hand -/

/-- Thread `t` serves the connection `p` with context `c`; it has also the contexts `rest` in hand.
The user has not been given `data` yet. -/
structure Serves (t : Tid) (l c : ContextPtr) (rest : List ContextPtr) (v : SOCKET) (k : SockId)
    (p : ConnectionPtr) (data : List UInt8) (s : State) : Prop extends Hand t l (c :: rest) s where
  apart : c ≠ l
  registered : Registered s c v k p
  todo : s.handlers.onDataReceived = true → Pending s p c data

/-- The connection was taken out of `connections_`. -/
structure Erased (t : Tid) (l c : ContextPtr) (rest : List ContextPtr) (v : SOCKET) (k : SockId)
    (s : State) : Prop extends Hand t l (c :: rest) s where
  apart : c ≠ l
  context : ∃ x, s.contexts c = some x ∧ x.socket = v
  opened : s.handles v = some k
  key : KeyOf s k c
  erased : s.connections v = none
  drained : Drained s c

/-- The socket of the connection was closed. -/
structure Parted (t : Tid) (l c : ContextPtr) (rest : List ContextPtr) (s : State) :
    Prop extends Hand t l (c :: rest) s where
  apart : c ≠ l
  live : Live s c
  closed : Closed s c
  drained : Drained s c

lemma Hand.mem (h : Hand t l (c :: rest) s) : c ∈ s.holds t := h.holds ▸ List.mem_cons_self

lemma Hand.the_ne (h : Hand t l hs s) (hc : c ≠ l) : s.theSocketContext ≠ some c := by
  rw [h.the]
  exact fun hl => hc (Option.some.inj hl).symm

lemma Hand.serving (h : Hand t l (c :: rest) s) (hc : c ≠ l) : Serving t c s :=
  ⟨h.mem, l, h.the, hc⟩

lemma fact_serves : Fact t (Serves t l c rest v k p data) := fun s s' hI hO hR h =>
  { fact_hand s s' hI hO hR h.toHand with
    apart := h.apart
    registered := hR.registered hO h.mem (h.the_ne h.apart) h.registered
    todo := fun hd => hR.pending h.mem h.registered.madeFor (h.todo (hO.handlers ▸ hd)) }

lemma fact_erased : Fact t (Erased t l c rest v k) := fun s s' hI hO hR h =>
  have hthe := h.the_ne h.apart
  { fact_hand s s' hI hO hR h.toHand with
    apart := h.apart
    context := by
      rw [(hR.kept c h.mem).context hthe]
      exact h.context
    opened := hR.opened h.mem hthe h.key h.opened
    key := (hR.keyOf h.mem).mpr h.key
    erased := ((hR.kept c h.mem).connections hthe v k h.opened h.key).trans h.erased
    drained := hR.drained hO h.mem h.drained }

lemma fact_parted : Fact t (Parted t l c rest) := fun s s' hI hO hR h =>
  have hthe := h.the_ne h.apart
  { fact_hand s s' hI hO hR h.toHand with
    apart := h.apart
    live := by
      rw [Live, (hR.kept c h.mem).context hthe]
      exact h.live
    closed := hR.closed_of_held h.mem hthe h.closed
    drained := hR.drained hO h.mem h.drained }

/-- A connection whose bytes are all delivered is drained: no other object was made for it. -/
lemma Serves.drained (h : Serves t l c rest v k p [] s) (hI : Inv s) : Drained s c := by
  intro q hd hq
  obtain rfl := hI.objectUnique p q c h.registered.madeFor hq
  exact h.todo hd

/-- An entry of the history that delivers nothing. -/
lemma Drained.record {r : Record} (h : Drained s c) (hr : ∀ p, State.dataFor p r = []) :
    Drained (s.record r) c := by
  intro p hd hp k hk
  rw [delivered_of_data (hr p)]
  exact h p hd hp k hk

/-- `disconnect` was not called for the connection yet. -/
def NotCalled (c : ContextPtr) (s : State) : Prop := disconnects s c = 0

/-- The next bytes for a connection are in the buffer of the context `c`. -/
def Brings (c : ContextPtr) (size : ℕ) (data : List UInt8) (s : State) : Prop :=
  ∃ x, s.contexts c = some x ∧ x.ioContext.buffer.take size = data

lemma Respects.notCalled (hR : Respects t s s') (hc : c ∈ s.holds t) (h : NotCalled c s) :
    NotCalled c s' :=
  (hR.kept c hc).disconnects.trans h

lemma Respects.brings {size : ℕ} (hR : Respects t s s') (hc : c ∈ s.holds t)
    (h : Brings c size data s) : Brings c size data s' := by
  obtain ⟨x, hx, hb⟩ := h
  by_cases hthe : s.theSocketContext = some c
  · obtain ⟨x', hx', hio⟩ := (hR.listener c hthe hc).ioContext x hx
    exact ⟨x', hx', by rw [hio]; exact hb⟩
  · exact ⟨x, ((hR.kept c hc).context hthe).trans hx, hb⟩

end Server

end Alpl.Net
