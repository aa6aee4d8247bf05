import Alpl.Server.TableMoves

/-!
# Moves on the sockets

Opening and closing a handle, listening, and the association with the completion port.  A closed
value may come back for a new object at once; what keeps the tables right is that a value is
closed only after its entry has left `connections_`, by the thread that has the context in hand.
-/

namespace Alpl.Net

open Interleaving

namespace Server

variable {s s' : State} {t u : Tid} {l c d : ContextPtr} {v : SOCKET} {k : SockId}
variable {p : ConnectionPtr}

/-! ## Opening -/

/-- The state after `WSASocket` has handed out `v`. -/
def withSocket (s : State) (v : SOCKET) : State :=
  { s with
    handles := Function.update s.handles v (some s.nextSock)
    nextSock := s.nextSock + 1 }

lemma withSocket_eq (hI : Inv s) (v : SOCKET) : { s with
      handles := Function.update s.handles v (some s.nextSock)
      sockets := Function.update s.sockets s.nextSock SocketObject.fresh
      nextSock := s.nextSock + 1 } = withSocket s v := by
  have hfresh : Function.update s.sockets s.nextSock SocketObject.fresh = s.sockets := by
    rw [← hI.freshSocket s.nextSock (Nat.le_refl _), Function.update_eq_self]
  rw [hfresh]
  rfl

lemma not_key_nextSock (hI : Inv s) : ¬ KeyOf s s.nextSock c := by
  rintro ⟨q, hq⟩
  rw [hI.freshSocket s.nextSock (Nat.le_refl _)] at hq
  cases hq

lemma Move.wsaSocket (hI : Inv s) (hv : s.handles v = none) (hinvalid : v ≠ invalidSocket)
    (hS : Starting t s ∨ Accepting t s) : Move (some t) s (withSocket s v) := by
  have hold : ∀ {w k}, s.handles w = some k → (withSocket s v).handles w = some k := by
    intro w k hw
    refine (Function.update_of_ne ?_ _ _).trans hw
    rintro rfl
    exact nomatch hv.symm.trans hw
  have hcases : ∀ {w k}, (withSocket s v).handles w = some k →
      (w = v ∧ k = s.nextSock) ∨ s.handles w = some k := by
    intro w k hw
    by_cases hwv : w = v
    · subst hwv
      have hself := Function.update_self w (some s.nextSock) s.handles
      exact .inl ⟨rfl, (Option.some.inj (hself.symm.trans hw)).symm⟩
    · exact .inr ((Function.update_of_ne hwv _ _).symm.trans hw)
  have hkey : ∀ {w k d}, (withSocket s v).handles w = some k → KeyOf s k d →
      s.handles w = some k := by
    intro w k d hw hk
    refine (hcases hw).resolve_left ?_
    rintro ⟨-, rfl⟩
    exact not_key_nextSock hI hk
  have hquiet : ∀ l, s.theSocketContext = some l → s.outstanding l = 0 := by
    intro l hl
    rcases hS with ⟨-, h0⟩ | ⟨l', hl', hc⟩
    · exact nomatch h0.symm.trans hl
    · exact Option.some.inj (hl'.symm.trans hl) ▸ hI.quiet t l' hc
  have hreg : ∀ {d w j q}, Registered s d w j q → Registered (withSocket s v) d w j q :=
    fun hr => hr.congr rfl id ((hold hr.opened).trans hr.opened.symm) rfl rfl rfl fun _ hy => hy
  refine ⟨?_, fun u hu => ?_, fun d w j q hr _ => hreg hr⟩
  · exact { hI with
      freshSocket := fun j hj => hI.freshSocket j (Nat.le_of_succ_le hj)
      freshHandle := fun w j hw => by
        rcases hcases hw with ⟨-, rfl⟩ | hw
        · exact Nat.lt_succ_self _
        · exact Nat.lt_succ_of_lt (hI.freshHandle w j hw)
      invalid := (Function.update_of_ne hinvalid.symm _ _).trans hI.invalid
      handleUnique := fun w w' j hw hw' => by
        rcases hcases hw with ⟨hwv, hj⟩ | h <;> rcases hcases hw' with ⟨hwv', hj'⟩ | h'
        · exact hwv.trans hwv'.symm
        · exact absurd (hj ▸ hI.freshHandle _ _ h') (Nat.lt_irrefl _)
        · exact absurd (hj' ▸ hI.freshHandle _ _ h) (Nat.lt_irrefl _)
        · exact hI.handleUnique w w' j h h'
      acceptOut := fun l hl ho => absurd (hquiet l hl) ho
      acceptOp := fun l op hop hl ho => absurd (hquiet l hl) (outstanding_of_op hop ho)
      acceptPacket := fun l k pkt hpkt hl ho =>
        absurd (hquiet l hl) (outstanding_of_packet hpkt ho)
      clientOut := fun l d hl hdl ho => by
        obtain ⟨hd, hrecv, w, j, q, hr⟩ := hI.clientOut l d hl hdl ho
        exact ⟨hd, hrecv, w, j, q, hreg hr⟩
      listenSock := fun l hl => (hI.listenSock l hl).imp_left
        fun hs => hs.congr rfl (fun _ _ _ => hold) fun _ _ h => h
      mapped := fun w o hw => by
        obtain ⟨d, j, q, ho, hr⟩ := hI.mapped w o hw
        exact ⟨d, j, q, ho, hreg hr⟩
      socketOf := fun w j q d hw hj => hI.socketOf w j q d (hkey hw ⟨q, hj⟩) hj
      receiveFrame := fun u d hf hd hn => by
        obtain ⟨w, j, q, hr⟩ := hI.receiveFrame u d hf hd hn
        exact ⟨w, j, q, hreg hr⟩ }
  · have hut : u ≠ t := fun h => hu (congrArg some h.symm)
    rcases hS with hS | ⟨l, hl, hc⟩
    · exact .of_starting hI hS hut rfl
    · exact { Respects.refl u s with
        alone := fun _ h0 => nomatch h0.symm.trans hl
        listenSock := fun _ l' _ hs => hs.congr rfl (fun _ _ _ => hold) fun _ _ h => h
        closed := fun _ l' _ hs w j hw hj => hs w j (hkey hw hj) hj
        kept := fun d _ => { Kept.refl d s with
          handles := fun _ w j hj => ⟨fun hw => hkey hw hj, hold⟩ }
        listener := fun l' hl' hc' => by
          obtain rfl := Option.some.inj (hl.symm.trans hl')
          exact absurd (hI.single u t l hc' hc) hut }

/-! ## Closing -/

/-- The handle `v`, if it is open, is that of the context `c`, which is no longer in
`connections_`: a connection that is being torn down, or the listening socket. -/
lemma Move.closesocket_of (hI : Inv s) (hv : ∀ k, s.handles v = some k → KeyOf s k c)
    (hS : Serving t c s ∧ s.connections v = none ∨
      t = .main ∧ .stop ∈ s.stack .main ∧ s.theSocketContext = some c) :
    Move (some t) s { s with handles := Function.update s.handles v none } := by
  have hback : ∀ {w k}, Function.update s.handles v none w = some k →
      w ≠ v ∧ s.handles w = some k := by
    intro w k hw
    have hwv : w ≠ v := by
      rintro rfl
      exact nomatch (Function.update_self w none s.handles).symm.trans hw
    exact ⟨hwv, (Function.update_of_ne hwv _ _).symm.trans hw⟩
  have hother : ∀ {w k d}, s.handles w = some k → KeyOf s k d → d ≠ c →
      Function.update s.handles v none w = some k := by
    intro w k d hw hk hdc
    refine (Function.update_of_ne ?_ _ _).trans hw
    rintro rfl
    exact hdc (hk.context_eq (hv k hw))
  have hunassoc : ∀ {w k}, s.handles w = some k → (s.sockets k).assoc = none →
      Function.update s.handles v none w = some k := by
    intro w k hw hk
    refine (Function.update_of_ne ?_ _ _).trans hw
    rintro rfl
    obtain ⟨q, hq⟩ := hv k hw
    exact nomatch hk.symm.trans hq
  have hreg : ∀ {d w j q}, Registered s d w j q →
      Registered { s with handles := Function.update s.handles v none } d w j q := by
    intro d w j q hr
    have hw : Function.update s.handles v none w = s.handles w := by
      refine Function.update_of_ne ?_ _ _
      rintro rfl
      rcases hS with ⟨-, hnone⟩ | ⟨-, -, hl⟩
      · exact nomatch hnone.symm.trans hr.2.1
      · obtain rfl := hr.key.context_eq (hv j hr.opened)
        exact hI.ne_the hr.madeFor hl
    exact hr.congr rfl id hw rfl rfl rfl fun _ hy => hy
  have hready : ∀ {l k}, AcceptReady s l k →
      AcceptReady { s with handles := Function.update s.handles v none } l k :=
    fun hk => hk.congr rfl (fun w hw => hunassoc hw hk.2) rfl
  refine ⟨?_, fun u hu => ?_, fun d w j q hr _ => hreg hr⟩
  · exact { hI with
      freshHandle := fun w j hw => hI.freshHandle w j (hback hw).2
      invalid := by
        refine (Function.update_apply s.handles v none invalidSocket).trans ?_
        split
        · rfl
        · exact hI.invalid
      handleUnique := fun w w' j hw hw' => hI.handleUnique w w' j (hback hw).2 (hback hw').2
      acceptOut := fun l hl ho => by
        obtain ⟨hport, k, hk⟩ := hI.acceptOut l hl ho
        exact ⟨hport, k, hready hk⟩
      acceptOp := fun l op hop hl ho => by
        obtain ⟨k, hk, hrest⟩ := hI.acceptOp l op hop hl ho
        exact ⟨k, hready hk, hrest⟩
      acceptPacket := fun l k pkt hpkt hl ho hk =>
        hI.acceptPacket l k pkt hpkt hl ho (hk.congr rfl (fun w hw => (hback hw).2) rfl)
      clientOut := fun l d hl hdl ho => by
        obtain ⟨hd, hrecv, w, j, q, hr⟩ := hI.clientOut l d hl hdl ho
        exact ⟨hd, hrecv, w, j, q, hreg hr⟩
      listenSock := fun l hl => by
        rcases hS with ⟨⟨-, l', hl', hcl⟩, -⟩ | ⟨-, hf, -⟩
        · obtain rfl := Option.some.inj (hl'.symm.trans hl)
          exact (hI.listenSock l' hl).imp_left
            fun hs => hs.congr rfl (fun _ _ hk hw => hother hw hk hcl.symm) fun _ _ h => h
        · exact .inr hf
      mapped := fun w o hw => by
        obtain ⟨d, j, q, ho, hr⟩ := hI.mapped w o hw
        exact ⟨d, j, q, ho, hreg hr⟩
      socketOf := fun w j q d hw => hI.socketOf w j q d (hback hw).2
      receiveFrame := fun u d hf hd hn => by
        obtain ⟨w, j, q, hr⟩ := hI.receiveFrame u d hf hd hn
        exact ⟨w, j, q, hreg hr⟩ }
  · have hut : u ≠ t := fun h => hu (congrArg some h.symm)
    have hthe : s.theSocketContext ≠ none := by
      rcases hS with ⟨⟨-, l, hl, -⟩, -⟩ | ⟨-, -, hl⟩ <;> rw [hl] <;> nofun
    exact { Respects.refl u s with
      alone := fun _ h0 => absurd h0 hthe
      listenSock := fun hm l hl hs => by
        rcases hS with ⟨⟨-, l', hl', hcl⟩, -⟩ | ⟨ht, -, -⟩
        · obtain rfl := Option.some.inj (hl'.symm.trans hl)
          exact hs.congr rfl (fun _ _ hk hw => hother hw hk hcl.symm) fun _ _ h => h
        · exact absurd (hm.trans ht.symm) hut
      closed := fun _ l _ hs w j hw => hs w j (hback hw).2
      kept := fun d hd => { Kept.refl d s with
        handles := fun hdl w j hj => by
          refine ⟨fun hw => (hback hw).2, fun hw => hother hw hj ?_⟩
          rintro rfl
          rcases hS with ⟨⟨hc, -⟩, -⟩ | ⟨-, -, hl⟩
          · exact hut (hI.single u t d hd hc)
          · exact hdl hl }
      listener := fun l _ _ => { KeptListener.refl u l s with
        unassociated := fun w j hw hj => ⟨hunassoc hw hj, rfl⟩ } }

lemma Move.closesocket (hI : Inv s) (hA : Allowed t (.closesocket v) s) :
    Move (some t) s { s with handles := Function.update s.handles v none } := by
  have hkey : ∀ {c k}, s.handles v = some k → KeyOf s k c →
      ∀ j, s.handles v = some j → KeyOf s j c := fun hv hk j hj =>
    Option.some.inj (hv.symm.trans hj) ▸ hk
  rcases hA with ⟨c, k, hS, hv, hk, hnone, -⟩ | ⟨ht, hf, l, k, hl, hv, hk⟩
  · exact .closesocket_of hI (hkey hv hk) (.inl ⟨hS, hnone⟩)
  · exact .closesocket_of hI (hkey hv hk) (.inr ⟨ht, hf, hl⟩)

/-! ## Listening -/

lemma Move.listen (hI : Inv s) (hS : Starting t s) (hk : k < s.nextSock) :
    Move (some t) s { s with
      sockets := Function.update s.sockets k { s.sockets k with listening := true } } := by
  have hsame : ∀ j, (Function.update s.sockets k { s.sockets k with listening := true } j).assoc =
      (s.sockets j).assoc ∧
      (Function.update s.sockets k { s.sockets k with listening := true } j).stream =
        (s.sockets j).stream := by
    intro j
    rw [Function.update_apply]
    split
    · rename_i hj
      rw [hj]
      exact ⟨rfl, rfl⟩
    · exact ⟨rfl, rfl⟩
  have hkey : ∀ {j d}, KeyOf { s with
      sockets := Function.update s.sockets k { s.sockets k with listening := true } } j d →
      KeyOf s j d := fun ⟨q, hq⟩ => ⟨q, (hsame _).1.symm.trans hq⟩
  obtain ⟨hpending, hqueue, -, hobjects, -⟩ := hI.idle hS.2
  have hvac : ∀ {l}, s.theSocketContext = some l → False := fun hl =>
    nomatch hS.2.symm.trans hl
  have hmade : ∀ {q d}, MadeFor s q d → False := fun ⟨y, hy, _⟩ =>
    nomatch (hobjects _).symm.trans hy
  refine ⟨?_, fun u hu => .of_starting hI hS (fun h => hu (congrArg some h.symm)) rfl,
    Keeps.of_starting hI hS⟩
  exact { hI with
    freshSocket := fun j hj =>
      (Function.update_of_ne (Nat.ne_of_gt (Nat.lt_of_lt_of_le hk hj)) _ _).trans
        (hI.freshSocket j hj)
    freshKey := fun j d hj => hI.freshKey j d (hkey hj)
    keyUnique := fun j j' d hj hj' => hI.keyUnique j j' d (hkey hj) (hkey hj')
    opKey := fun op hop => absurd (hpending ▸ hop) List.not_mem_nil
    acceptOut := fun l hl => (hvac hl).elim
    acceptOp := fun l op hop hl => (hvac hl).elim
    acceptPacket := fun l k pkt hpkt hl => (hvac hl).elim
    clientOut := fun l d hl => (hvac hl).elim
    listenSock := fun l hl => (hvac hl).elim
    listener := fun l j hl => (hvac hl).elim
    mapped := fun v o hv => by
      obtain ⟨d, j, q, ho, hr⟩ := hI.mapped v o hv
      exact (hmade hr.madeFor).elim
    socketOf := fun v j q d hv hj => hI.socketOf v j q d hv ((hsame j).1.symm.trans hj)
    inOrder := fun q d j hq => (hmade hq).elim
    complete := fun q d hd he hq => (hmade hq).elim
    receiveFrame := fun u d hf hd hn => by
      obtain ⟨v, j, q, hr⟩ := hI.receiveFrame u d hf hd hn
      exact (hmade hr.madeFor).elim }

/-! ## Association -/

/-- The state after the association of the object `k` with the workers' port. -/
def withKey (s : State) (k : SockId) (c : ContextPtr) (nextPort : ℕ) : State :=
  { s with
    nextPort := nextPort
    sockets := Function.update s.sockets k
      { s.sockets k with assoc := some (s.workersPort, c) } }

lemma Move.associate (hI : Inv s) {n : ℕ} (hv : s.handles v = some k)
    (hk : (s.sockets k).assoc = none) (hc : c ∈ s.holds t)
    (hS : Starting t s ∨ Accepting t s ∧ s.theSocketContext ≠ some c)
    (hkey : ∀ k, ¬ KeyOf s k c) (hmade : ∀ p, ¬ MadeFor s p c)
    (hx : ∃ x, s.contexts c = some x ∧ x.socket = v) :
    Move (some t) s (withKey s k c n) := by
  have hne : ∀ {j}, j ≠ k → (withKey s k c n).sockets j = s.sockets j :=
    fun hj => Function.update_of_ne hj _ _
  have hself : ((withKey s k c n).sockets k).assoc = some (s.workersPort, c) :=
    congrArg SocketObject.assoc (Function.update_self k _ s.sockets)
  have hassoc : ∀ {j q d}, ((withKey s k c n).sockets j).assoc = some (q, d) →
      (j = k ∧ q = s.workersPort ∧ d = c) ∨ (s.sockets j).assoc = some (q, d) := by
    intro j q d hj
    by_cases hjk : j = k
    · subst hjk
      have h := hself.symm.trans hj
      cases h
      exact .inl ⟨rfl, rfl, rfl⟩
    · exact .inr (hne hjk ▸ hj)
  have hold : ∀ {j q d}, (s.sockets j).assoc = some (q, d) →
      (withKey s k c n).sockets j = s.sockets j := by
    intro j q d hj
    refine hne ?_
    rintro rfl
    exact nomatch hk.symm.trans hj
  have hkeys : ∀ {j d}, KeyOf (withKey s k c n) j d → (j = k ∧ d = c) ∨ KeyOf s j d :=
    fun ⟨q, hq⟩ => (hassoc hq).imp (fun h => ⟨h.1, h.2.2⟩) fun h => ⟨q, h⟩
  have hstream : ∀ j, ((withKey s k c n).sockets j).stream = (s.sockets j).stream := by
    intro j
    by_cases hjk : j = k
    · subst hjk
      exact (congrArg SocketObject.stream (Function.update_self j _ s.sockets)).trans rfl
    · rw [hne hjk]
  have hlistening : ∀ j, ((withKey s k c n).sockets j).listening = (s.sockets j).listening := by
    intro j
    by_cases hjk : j = k
    · subst hjk
      exact (congrArg SocketObject.listening (Function.update_self j _ s.sockets)).trans rfl
    · rw [hne hjk]
  have hreg : ∀ {d w j q}, Registered s d w j q → Registered (withKey s k c n) d w j q :=
    fun hr => hr.congr rfl id rfl (by rw [hold hr.1.2.2.2]) rfl rfl fun _ hy => hy
  have hsock : ∀ {l}, ListenSock s l → ListenSock (withKey s k c n) l :=
    fun hs => hs.congr rfl (fun _ _ _ h => h) fun j q hj => by rw [hold hj, hj]
  have hquiet : ∀ l, s.theSocketContext = some l → s.outstanding l = 0 := by
    intro l hl
    rcases hS with ⟨-, h0⟩ | ⟨⟨l', hl', hc'⟩, -⟩
    · exact nomatch h0.symm.trans hl
    · exact Option.some.inj (hl'.symm.trans hl) ▸ hI.quiet t l' hc'
  refine ⟨?_, fun u hu => ?_, fun d w j q hr _ => hreg hr⟩
  · exact { hI with
      freshSocket := fun j hj => by
        have hjk : j ≠ k := Nat.ne_of_gt (Nat.lt_of_lt_of_le (hI.freshHandle v k hv) hj)
        exact (hne hjk).trans (hI.freshSocket j hj)
      freshKey := fun j d hj => by
        rcases hkeys hj with ⟨-, rfl⟩ | hj
        · exact hI.lt_of_live (hI.live t d hc)
        · exact hI.freshKey j d hj
      keyUnique := fun j j' d hj hj' => by
        rcases hkeys hj with ⟨rfl, rfl⟩ | hj <;> rcases hkeys hj' with ⟨hj'k, hd⟩ | hj'
        · exact hj'k.symm
        · exact absurd hj' (hkey j')
        · exact absurd (hd ▸ hj) (hkey j)
        · exact hI.keyUnique j j' d hj hj'
      opKey := fun op hop => by
        rw [hold (hI.opKey op hop)]
        exact hI.opKey op hop
      acceptOut := fun l hl ho => absurd (hquiet l hl) ho
      acceptOp := fun l op hop hl ho => absurd (hquiet l hl) (outstanding_of_op hop ho)
      acceptPacket := fun l k pkt hpkt hl ho =>
        absurd (hquiet l hl) (outstanding_of_packet hpkt ho)
      clientOut := fun l d hl hdl ho => by
        obtain ⟨hd, hrecv, w, j, q, hr⟩ := hI.clientOut l d hl hdl ho
        exact ⟨hd, hrecv, w, j, q, hreg hr⟩
      listenSock := fun l hl => (hI.listenSock l hl).imp_left hsock
      listener := fun l j hl hj => by
        rw [hlistening j] at hj
        have h := hI.listener l j hl hj
        rw [hold h]
        exact h
      mapped := fun w o hw => by
        obtain ⟨d, j, q, ho, hr⟩ := hI.mapped w o hw
        exact ⟨d, j, q, ho, hreg hr⟩
      socketOf := fun w j q d hw hj => by
        rcases hassoc hj with ⟨rfl, rfl, rfl⟩ | hj
        · obtain rfl := hI.handleUnique v w j hv hw
          exact ⟨rfl, hx⟩
        · exact hI.socketOf w j q d hw hj
      inOrder := fun q d j hq hj => by
        rw [hstream j]
        rcases hkeys hj with ⟨-, rfl⟩ | hj
        · exact absurd hq (hmade q)
        · exact hI.inOrder q d j hq hj
      complete := fun q d hd he hq hnot => by
        refine (hI.complete q d hd he hq hnot).congr (fun j hj => ?_) (fun j _ => hstream j) rfl
        rcases hkeys hj with ⟨-, rfl⟩ | hj
        · exact absurd hq (hmade q)
        · exact hj
      receiveFrame := fun u d hf hd hn => by
        obtain ⟨w, j, q, hr⟩ := hI.receiveFrame u d hf hd hn
        exact ⟨w, j, q, hreg hr⟩ }
  · have hut : u ≠ t := fun h => hu (congrArg some h.symm)
    rcases hS with hS | ⟨⟨l, hl, hc'⟩, hthe⟩
    · exact .of_starting hI hS hut rfl
    · exact { Respects.refl u s with
        alone := fun _ h0 => nomatch h0.symm.trans hl
        listenSock := fun _ l' _ hs => hsock hs
        closed := fun _ l' hl' hs w j hw hj => (hkeys hj).elim
          (fun h => hthe (hl'.trans (congrArg some h.2))) (hs w j hw)
        kept := fun d hd => { Kept.refl d s with
          assoc := fun j q => by
            refine ⟨fun hj => (hassoc hj).resolve_left ?_, fun hj => by rw [hold hj, hj]⟩
            rintro ⟨-, -, rfl⟩
            exact hut (hI.single u t d hd hc)
          stream := fun j _ => hstream j }
        listener := fun l' hl' hc'' => by
          obtain rfl := Option.some.inj (hl.symm.trans hl')
          exact absurd (hI.single u t l hc'' hc') hut }

end Server

end Alpl.Net
