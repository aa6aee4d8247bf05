import Alpl.Handler.Memory
import Alpl.Handler.Stages
import Alpl.Server.Runs
import Mathlib.Data.Set.Card

/-!
# Every worker is woken to leave

`exiting` sets `exiting_` and posts one empty packet for each worker.  Which worker takes which
packet nobody decides: a worker may come to the queue late, and may take a completion where an empty
packet was meant for it.  It ends all the same, for whatever packet it takes, it looks at `exiting_`
before it looks at the packet.

So what matters is a count (`Counting.enough`): from the moment `exiting_` is set, the packets that
are still to be taken are at least as many as the workers that still need one, less the packets that
`exiting` has not posted yet.
-/

namespace Alpl.Net

open Interleaving

/-! ## What is counted -/

/-- A packet that `exiting` has posted. -/
def Record.isPost : Record → Bool
  | .call _ (.postQueuedCompletionStatus _) true => true
  | _ => false

/-- A packet that `exiting` could not post. -/
def Record.isFailedPost : Record → Bool
  | .call _ (.postQueuedCompletionStatus _) false => true
  | _ => false

def PostFailed (s : State) : Prop := ∃ r ∈ s.history, r.isFailedPost = true

instance (s : State) : Decidable (PostFailed s) := by
  unfold PostFailed
  infer_instance

/-- How many packets `exiting` has posted. -/
def State.posted (s : State) : ℕ := s.history.countP Record.isPost

/-- The thread runs and has not taken the packet that ends it: it is not between a packet and the
test of `exiting_`, and it has not returned from `WorkerThread`. -/
def StillRunning (x : Control Action Action.Res Label) : Prop :=
  ∃ a, x.next = some a ∧ a ≠ .getExiting ∧ a ≠ .exitThread ∧
    (a = .finish → ∃ l, x = .running (.act .finish fun _ => .ret (some l)))

/-- The stages in which a worker that finds `exiting_` set goes back to the queue. -/
def Stage.isActive : Stage → Bool
  | .taken => false
  | .leaving => false
  | _ => true

/-- The stages inside `exiting` before the workers are waited for. -/
def Stage.isStopping : Stage → Bool
  | .exiting => true
  | .posting _ => true
  | .portless => true
  | _ => false

/-- How many of the first `n` workers are active. -/
def activeWorkers (n : ℕ) (σ : Tid → Stage) : ℕ :=
  ((Finset.range n).filter fun i => (σ (.worker i)).isActive = true).card

/-- What the stages, the queue and the packets posted have to do with each other. -/
structure Counting (n : ℕ) (σ : Tid → Stage) (s : State) : Prop where
  unposted : s.exiting = false → s.posted = 0
  enough : s.exiting = true → activeWorkers n σ + s.posted ≤ (s.queue handlerPort).length + n
  posting : ∀ t k, σ t = .posting k → PostFailed s ∨ n ≤ s.posted + k
  portless : ∀ t, σ t = .portless → AssociationFailed s
  stopping : ∀ t, (σ t).isStopping = true → s.exiting = true

/-! ## The stages -/

lemma isActive_of_stillRunning {x : Control Action Action.Res Label} {q : Stage}
    (hx : stages.OnTrack x q) (hr : StillRunning x) : q.isActive = true := by
  obtain ⟨a, ha, hget, hexit, hfinish⟩ := hr
  obtain ⟨k, rfl⟩ := Control.eq_of_next ha
  obtain ⟨hallowed, hk⟩ := hx
  cases q with
  | taken =>
      cases a <;> first | exact absurd rfl hget | cases hallowed
  | leaving =>
      exfalso
      cases a <;> first | exact absurd rfl hexit | cases hallowed; done | skip
      obtain ⟨l, hl⟩ := hfinish rfl
      cases hl
      have hend : Stage.leaving = l.stage := hk ()
      cases l <;> cases hend
  | _ => rfl

/-- Only the test of `exiting_` makes a stage active. -/
lemma isActive_of_next {q : Stage} {a : Action} {r : a.Res} (ha : q.allows a = true)
    (hne : a ≠ .getExiting) (h : (q.next a r).isActive = true) : q.isActive = true := by
  cases q with
  | taken => cases a <;> first | exact absurd rfl hne | cases ha
  | leaving => cases a <;> cases h
  | _ => rfl

/-- Who has packets to post has just asked how many, or has posted one, or goes on to. -/
lemma next_eq_posting {q : Stage} {a : Action} {r : a.Res} {k : ℕ} (ha : q.allows a = true)
    (h : q.next a r = .posting k) : (q = .exiting ∧ a = .getNumWorkerThreads ∧ HEq r k) ∨
      (q = .posting k ∧ a = .getIocpHandle) ∨
      q = .posting (k + 1) ∧ ∃ p, a = .postQueuedCompletionStatus p := by
  cases q with
  | working =>
      obtain hq | ⟨d, -, hq⟩ | ⟨-, hq⟩ | ⟨-, hq⟩ := next_working h <;> cases hq
  | posting n =>
      cases a <;> simp_all [Stage.next]
      · split at h <;> simp_all
      · omega
  | taken | exiting =>
      cases a <;> simp_all [Stage.next]
      grind
  | _ => cases a <;> simp_all [Stage.next]

lemma next_eq_portless {q : Stage} {a : Action} {r : a.Res} (ha : q.allows a = true)
    (h : q.next a r = .portless) :
    q = .portless ∨ a = .getIocpHandle ∧ HEq r (none : Option Port) := by
  cases q with
  | working =>
      obtain hq | ⟨d, -, hq⟩ | ⟨-, hq⟩ | ⟨-, hq⟩ := next_working h <;> cases hq
  | taken | exiting | posting =>
      cases a <;> simp_all [Stage.next]
      try grind
  | _ => cases a <;> simp_all [Stage.next]

/-- The way into the loop of `exiting` begins with `exiting_ = true`. -/
lemma isStopping_of_next {q : Stage} {a : Action} {r : a.Res} (ha : q.allows a = true)
    (h : (q.next a r).isStopping = true) : q.isStopping = true ∨ a = .setExiting := by
  cases q with
  | working =>
      obtain hq | ⟨d, -, hq⟩ | ⟨-, hq⟩ | ⟨ha, -⟩ := next_working rfl
      · rw [hq] at h
        cases h
      · rw [hq] at h
        cases h
      · rw [hq] at h
        cases h
      · exact .inr ha
  | exiting => exact .inl rfl
  | posting => exact .inl rfl
  | portless => exact .inl rfl
  | taken =>
      cases a <;> simp_all [Stage.next, Stage.isStopping]
      grind
  | _ => cases a <;> simp_all [Stage.next, Stage.isStopping]

/-! ## One action -/

lemma posted_effect {s s' : State} {t : Tid} {a : Action} (h : Effect t a s s')
    (ha : ∀ q, a ≠ .postQueuedCompletionStatus q) : s'.posted = s.posted := by
  rcases h.history with he | ⟨r, hr, he⟩
  · rw [State.posted, he]
    rfl
  · rw [State.posted, he, List.countP_cons_of_neg, State.posted]
    cases hr with
    | call _ ok =>
        cases a
        case postQueuedCompletionStatus q => exact absurd rfl (ha q)
        all_goals exact nofun
    | _ => exact nofun

lemma posted_le {s s' : State} (h : Onward s s') : s.posted ≤ s'.posted :=
  h.history.sublist.countP_le

lemma lasting_posted (n : ℕ) : Lasting fun s => n ≤ s.posted :=
  fun _ _ ho h => h.trans (posted_le ho)

lemma activeWorkers_update_le {n : ℕ} {σ : Tid → Stage} {t : Tid} {q : Stage}
    (h : q.isActive = true → (σ t).isActive = true) :
    activeWorkers n (Function.update σ t q) ≤ activeWorkers n σ := by
  refine Finset.card_le_card fun i hi => ?_
  obtain ⟨hmem, hact⟩ := Finset.mem_filter.mp hi
  refine Finset.mem_filter.mpr ⟨hmem, ?_⟩
  by_cases ht : Tid.worker i = t
  · subst ht
    exact h (by simpa using hact)
  · rwa [Function.update_of_ne ht] at hact

lemma activeWorkers_update_lt {n i : ℕ} {σ : Tid → Stage} {q : Stage} (hi : i < n)
    (hσ : (σ (.worker i)).isActive = true) (hq : q.isActive = false) :
    activeWorkers n (Function.update σ (.worker i) q) < activeWorkers n σ := by
  refine Finset.card_lt_card (Finset.ssubset_iff_subset_ne.mpr ⟨fun j hj => ?_, fun he => ?_⟩)
  · obtain ⟨hmem, hact⟩ := Finset.mem_filter.mp hj
    refine Finset.mem_filter.mpr ⟨hmem, ?_⟩
    by_cases ht : Tid.worker j = .worker i
    · rwa [ht]
    · rwa [Function.update_of_ne ht] at hact
  · have hmem := (Finset.ext_iff.mp he i).mpr
      (Finset.mem_filter.mpr ⟨Finset.mem_range.mpr hi, hσ⟩)
    have hact := (Finset.mem_filter.mp hmem).2
    rw [Function.update_self, hq] at hact
    cases hact

lemma activeWorkers_le (n : ℕ) (σ : Tid → Stage) : activeWorkers n σ ≤ n :=
  (Finset.card_filter_le _ _).trans_eq (Finset.card_range n)

/-- A packet taken is one packet less. -/
lemma length_of_take {s s' : State} {t : Tid} {q : Port} {o : Outcome} {pkt : Packet}
    (he : exec t (.getQueuedCompletionStatus q) o s = some (pkt, s')) :
    (s.queue q).length = (s'.queue q).length + 1 := by
  obtain ⟨rest, hq, rfl⟩ := exec_getQueuedCompletionStatus he
  simp [hq, State.setStack, State.setHolds]

/-- A packet posted is one packet more, and one that `exiting` has posted. -/
lemma length_of_post {s s' : State} {t : Tid} {q : Port} {o : Outcome} {x : Unit}
    (he : exec t (.postQueuedCompletionStatus q) o s = some (x, s')) :
    (s'.queue q).length + s.posted = (s.queue q).length + s'.posted := by
  obtain rfl | rfl := exec_postQueuedCompletionStatus he
  · have hcount : List.countP Record.isPost
        (.call t (.postQueuedCompletionStatus q) true :: s.history) = s.posted + 1 :=
      List.countP_cons_of_pos rfl
    have hlength : (Function.update s.queue q (s.queue q ++ [Packet.exit]) q).length =
        (s.queue q).length + 1 := by rw [Function.update_self, List.length_append]; rfl
    simp only [State.record, State.posted] at hcount hlength ⊢
    omega
  · rfl

lemma posted_of_post {s s' : State} {t : Tid} {q : Port} {o : Outcome} {x : Unit}
    (he : exec t (.postQueuedCompletionStatus q) o s = some (x, s')) :
    PostFailed s' ∨ s'.posted = s.posted + 1 := by
  obtain rfl | rfl := exec_postQueuedCompletionStatus he
  · exact .inr (List.countP_cons_of_pos rfl)
  · exact .inl ⟨_, List.mem_cons_self, rfl⟩

lemma lasting_postFailed : Lasting PostFailed := Lasting.history

/-- What a count needs to know about an action. -/
structure Counted (n : ℕ) (t : Tid) (a : Action) (s : State) : Prop where
  inv : Handler.Inv s
  workers : s.numWorkerThreads = n
  taken : ∀ q, a = .getQueuedCompletionStatus q → q = handlerPort ∧ ∃ i < n, t = .worker i
  posted : ∀ q, a = .postQueuedCompletionStatus q → q = handlerPort

section

variable {n : ℕ} {σ : Tid → Stage} {s s' : State} {t : Tid} {a : Action} {o : Outcome} {r : a.Res}
variable (hC : Counted n t a s) (ha : (σ t).allows a = true) (he : exec t a o s = some (r, s'))
variable (hI : Counting n σ s)
include hC ha he hI

lemma Counting.act_unposted (hexit : s'.exiting = false) : s'.posted = 0 := by
  have hE := exec_effect _ he
  have hbefore : s.exiting = false := by
    by_contra h
    have hset := (hE.onward hC.inv).exiting (by simpa using h)
    rw [hexit] at hset
    cases hset
  have hstage : (σ t).isStopping = false := by
    by_contra h
    have hset := hI.stopping t (by simpa using h)
    rw [hbefore] at hset
    cases hset
  rw [posted_effect hE ?_, hI.unposted hbefore]
  rintro q rfl
  cases hq : σ t <;> rw [hq] at ha hstage <;> first | cases hstage; done | cases ha

lemma Counting.act_enough (hexit : s'.exiting = true) :
    activeWorkers n (Function.update σ t ((σ t).next a r)) + s'.posted ≤
      (s'.queue handlerPort).length + n := by
  have hE := exec_effect _ he
  have hF := exec_footprint _ he
  cases hbefore : s.exiting with
  | false =>
      -- the flag is set now, and nothing has been posted
      obtain ⟨rfl, -⟩ := hE.exiting.resolve_left (by rw [hbefore, hexit]; nofun)
      rw [posted_effect hE fun _ => nofun, hI.unposted hbefore]
      exact (activeWorkers_le n _).trans (Nat.le_add_left _ _)
  | true =>
      have henough := hI.enough hbefore
      by_cases hget : a = .getExiting
      · subst hget
        -- the thread finds the flag set
        have hq : σ t = .taken := by
          cases hq : σ t <;> rw [hq] at ha <;> first | rfl | cases ha
        have hnext : (σ t).next .getExiting r = .leaving := by
          cases o <;> cases he
          rw [hq]
          exact if_pos hbefore
        have hle : activeWorkers n (Function.update σ t .leaving) ≤ activeWorkers n σ :=
          activeWorkers_update_le nofun
        rw [hnext, hF.queue.resolve_right (by simp), posted_effect hE fun _ => nofun]
        omega
      have hle : activeWorkers n (Function.update σ t ((σ t).next a r)) ≤ activeWorkers n σ :=
        activeWorkers_update_le (isActive_of_next ha hget)
      by_cases htake : ∃ q, a = .getQueuedCompletionStatus q
      · obtain ⟨q, rfl⟩ := htake
        obtain ⟨rfl, i, hi, rfl⟩ := hC.taken q rfl
        have hq : σ (.worker i) = .waiting := by
          cases hq : σ (.worker i) <;> rw [hq] at ha <;> first | rfl | cases ha
        have hlt : activeWorkers n (Function.update σ (.worker i) .taken) < activeWorkers n σ :=
          activeWorkers_update_lt hi (by rw [hq]; rfl) rfl
        have hnext : (σ (.worker i)).next (.getQueuedCompletionStatus handlerPort) r = .taken := by
          rw [hq]
          rfl
        have hlength := length_of_take he
        rw [hnext, posted_effect hE fun _ => nofun]
        omega
      by_cases hpost : ∃ q, a = .postQueuedCompletionStatus q
      · obtain ⟨q, rfl⟩ := hpost
        obtain rfl := hC.posted q rfl
        have hlength := length_of_post he
        omega
      · have hqueue := hF.queue.resolve_right (not_or.mpr ⟨htake, hpost⟩)
        rw [hqueue, posted_effect hE (not_exists.mp hpost)]
        omega

lemma Counting.act_posting (v : Tid) (k : ℕ)
    (hv : Function.update σ t ((σ t).next a r) v = .posting k) :
    PostFailed s' ∨ n ≤ s'.posted + k := by
  have hO : Onward s s' := (exec_effect _ he).onward hC.inv
  have hold : ∀ j, PostFailed s ∨ n ≤ s.posted + j → PostFailed s' ∨ n ≤ s'.posted + j :=
    fun j h => h.imp (lasting_postFailed s s' hO) fun hn => hn.trans (by
      have hle := posted_le hO
      omega)
  by_cases hvt : v = t
  · subst hvt
    rw [Function.update_self] at hv
    rcases next_eq_posting ha hv with ⟨-, rfl, hr⟩ | ⟨hq, -⟩ | ⟨hq, q, rfl⟩
    · cases o <;> cases he
      rw [← eq_of_heq hr, hC.workers]
      exact .inr (Nat.le_add_left _ _)
    · exact hold k (hI.posting v k hq)
    · refine (hI.posting v (k + 1) hq).elim (fun hf => .inl (lasting_postFailed s s' hO hf))
        fun hn => (posted_of_post he).imp_right fun hposted => ?_
      omega
  · rw [Function.update_of_ne hvt] at hv
    exact hold k (hI.posting v k hv)

lemma Counting.act_portless (hport : s.iocpHandle = none → AssociationFailed s) (v : Tid)
    (hv : Function.update σ t ((σ t).next a r) v = .portless) : AssociationFailed s' := by
  have hO := (exec_effect _ he).onward hC.inv
  refine lasting_associationFailed s s' hO ?_
  by_cases hvt : v = t
  · subst hvt
    rw [Function.update_self] at hv
    rcases next_eq_portless ha hv with hq | ⟨rfl, hr⟩
    · exact hI.portless v hq
    · cases o <;> cases he
      exact hport (eq_of_heq hr)
  · rw [Function.update_of_ne hvt] at hv
    exact hI.portless v hv

lemma Counting.act_stopping (v : Tid)
    (hv : (Function.update σ t ((σ t).next a r) v).isStopping = true) : s'.exiting = true := by
  have hO := (exec_effect _ he).onward hC.inv
  by_cases hvt : v = t
  · subst hvt
    rw [Function.update_self] at hv
    rcases isStopping_of_next ha hv with hq | rfl
    · exact hO.exiting (hI.stopping v hq)
    · cases o <;> cases he
      rfl
  · rw [Function.update_of_ne hvt] at hv
    exact hO.exiting (hI.stopping v hv)

lemma Counting.act (hport : s.iocpHandle = none → AssociationFailed s) :
    Counting n (Function.update σ t ((σ t).next a r)) s' where
  unposted := hI.act_unposted hC ha he
  enough := hI.act_enough hC ha he
  posting := hI.act_posting hC ha he
  portless := hI.act_portless hC ha he hport
  stopping := hI.act_stopping hC ha he

end

/-! ## Runs -/

lemma length_postPacket (s : State) (op : PendingOp) (ok : Bool) (n : ℕ) (q : Port) :
    (s.queue q).length ≤ ((s.postPacket op ok n).queue q).length := by
  rw [State.postPacket]
  split
  · simp only [Function.update_apply]
    split
    · rename_i hq
      simp [hq]
    · exact Nat.le_refl _
  · exact Nat.le_refl _

/-- The network takes no packets. -/
lemma length_osStep {s s' : State} {e : OsEvent} (h : osStep e s = some s') (q : Port) :
    (s.queue q).length ≤ (s'.queue q).length := by
  obtain ⟨op, bytes, rfl, -, -, rfl⟩ | ⟨op, rfl, -, rfl⟩ := osStep_cases h
  · have hsame := (receiveData_rest { s with pending := s.pending.erase op } op bytes).2.1
    have hle := length_postPacket
      ({ s with pending := s.pending.erase op }.receiveData op bytes) op true bytes.length q
    rwa [hsame] at hle
  · exact length_postPacket { s with pending := s.pending.erase op } op false 0 q

lemma Counting.osStep {n : ℕ} {σ : Tid → Stage} {s s' : State} {e : OsEvent}
    (hI : Counting n σ s) (h : osStep e s = some s') : Counting n σ s' := by
  have hU := undisturbed_osStep h
  have hposted : s'.posted = s.posted := by rw [State.posted, hU.history]; rfl
  refine ⟨fun hx => ?_, fun hx => ?_, fun t k ht => ?_, fun t ht => ?_, fun t ht => ?_⟩
  · rw [hposted]
    exact hI.unposted (hU.exiting ▸ hx)
  · have hlength := length_osStep h handlerPort
    have henough := hI.enough (hU.exiting ▸ hx)
    omega
  · rw [hposted]
    exact (hI.posting t k ht).imp_left (lasting_postFailed s s' hU.onward)
  · exact lasting_associationFailed s s' hU.onward (hI.portless t ht)
  · rw [hU.exiting]
    exact hI.stopping t ht

/-- A thread that enters the library is no worker, and not in `exiting` yet. -/
lemma Counting.enter {n : ℕ} {σ : Tid → Stage} {s : State} {t : Tid} {l : Label}
    (hI : Counting n σ s) (ht : ∀ i, t ≠ .worker i) :
    Counting n (Function.update σ t l.stage) s := by
  have hold : ∀ v q, Function.update σ t l.stage v = q → q.isStopping = true → σ v = q := by
    rintro v q rfl hq
    by_cases hv : v = t
    · subst hv
      rw [Function.update_self] at hq
      cases l <;> cases hq
    · rw [Function.update_of_ne hv]
  refine ⟨hI.unposted, fun hx => ?_, fun v k hv => ?_, fun v hv => ?_, fun v hv => ?_⟩
  · have hsame : activeWorkers n (Function.update σ t l.stage) = activeWorkers n σ := by
      simp [activeWorkers, Function.update_of_ne (ht _).symm]
    rw [hsame]
    exact hI.enough hx
  · exact hI.posting v k (hold v _ hv rfl)
  · exact hI.portless v (hold v _ hv rfl)
  · refine hI.stopping v ?_
    rw [hold v _ rfl hv]
    exact hv

lemma counting_init (u : Setup) : Counting u.workers firstStage (State.init u) where
  unposted _ := rfl
  enough := nofun
  posting t k h := by cases t <;> cases h
  portless t h := by cases t <;> cases h
  stopping t h := by cases t <;> cases h

lemma counting_keeps (u : Setup) :
    stages.Keeps (machine .server) (Reachable .server u) (Counting u.workers) where
  code := code_follows
  act G t a k c r s' σ hG hx ha he hI := by
    have hH := hG.handler.ok.inv
    have hS := hG.setUp
    refine hI.act ⟨hH, hS.workers, ?_, ?_⟩ ha he fun hnone => ?_
    · rintro q rfl
      obtain ⟨hq, -, i, rfl⟩ := hG.server.allowed hx
      refine ⟨hq.trans hS.workersPort, i, ?_, rfl⟩
      by_contra hi
      rw [idle_of_le hG (Nat.le_of_not_lt hi)] at hx
      cases hx
    · rintro q rfl
      exact (hG.server.allowed hx).1.trans hS.workersPort
    · exact hH.port.resolve_right fun hp => nomatch hnone.symm.trans hp.handle
  env _ _ _ _ _ he hI := hI.osStep he
  enter _ t l _ _ hG hx he hI := by
    obtain rfl := enter_eq he
    refine hI.enter fun i ht => ?_
    subst ht
    cases he

lemma Reachable.counting {u : Setup} {G : Config Action Action.Res State Tid Label}
    (h : Reachable .server u G) :
    ∃ σ, (∀ t, stages.OnTrack (G.threads t) (σ t)) ∧ Counting u.workers σ G.state := by
  obtain ⟨G₀, h0, hr⟩ := h
  cases h0
  exact (counting_keeps u).sound (fun G' hr' => ⟨_, .server, hr'⟩) hr (onTrack_init u)
    (counting_init u)

/-- What nobody takes back stays along a run. -/
lemma Reachable.onward {role : Role} {u : Setup} {G₁ G : Config Action Action.Res State Tid Label}
    (h₁ : Reachable role u G₁) (hr : (machine role).Reaches G₁ G) {Φ : State → Prop}
    (hΦ : Lasting Φ) (h : Φ G₁.state) : Φ G.state :=
  (handler_holds role).sound_and (fun _ _ => trivial) (fun _ s s' ho hs => hΦ s s' ho hs) hr
    h₁.handler h

/-- All packets have been posted where the workers are waited for. -/
lemma Counting.posted_of_waiting {u : Setup} {G : Config Action Action.Res State Tid Label}
    {σ : Tid → Stage} {t : Tid} (hσ : stages.OnTrack (G.threads t) (σ t))
    (hI : Counting u.workers σ G.state) (ht : (G.threads t).next = some .waitForWorkers) :
    PostFailed G.state ∨ AssociationFailed G.state ∨ u.workers ≤ G.state.posted := by
  obtain ⟨k, hk⟩ := Control.eq_of_next ht
  rw [hk] at hσ
  have hallowed := hσ.1
  cases hq : σ t <;> rw [hq] at hallowed <;> first | cases hallowed; done | skip
  · rename_i n
    obtain rfl : n = 0 := of_decide_eq_true hallowed
    exact (hI.posting t 0 hq).imp_right .inr
  · exact .inr (.inl (hI.portless t hq))

/-- The workers that are still running are active. -/
lemma encard_stillRunning_le {u : Setup} {G : Config Action Action.Res State Tid Label}
    {σ : Tid → Stage} (hG : Reachable .server u G)
    (hσ : ∀ t, stages.OnTrack (G.threads t) (σ t)) :
    {i | StillRunning (G.threads (.worker i))}.encard ≤ activeWorkers u.workers σ := by
  refine (Set.encard_le_encard fun i hi => ?_).trans_eq (Set.encard_coe_eq_coe_finsetCard _)
  refine Finset.mem_coe.mpr (Finset.mem_filter.mpr ⟨Finset.mem_range.mpr ?_,
    isActive_of_stillRunning (hσ _) hi⟩)
  by_contra hle
  obtain ⟨a, ha, -⟩ := hi
  rw [idle_of_le hG (Nat.le_of_not_lt hle)] at ha
  cases ha

/-- **Every worker is woken to leave.**  Once `exiting` has posted its packets, there is a packet
for each worker that is still running, so none waits at an empty queue; and none reads through
`NULL`, whatever packet it takes. -/
theorem shutdown_reaches_every_worker {u : Setup}
    {G : Config Action Action.Res State Tid Label} (hG : Reachable .server u G)
    (hassoc : ¬ AssociationFailed G.state) (hpost : ¬ PostFailed G.state) :
    (∀ i, (G.threads (.worker i)).next ≠ some .nullDereference) ∧
      ∀ G₁ t, Reachable .server u G₁ → (G₁.threads t).next = some .waitForWorkers →
        (machine .server).Reaches G₁ G →
          {i | StillRunning (G.threads (.worker i))}.encard ≤ (G.state.queue handlerPort).length ∧
          ∀ i q, (G.threads (.worker i)).next = some (.getQueuedCompletionStatus q) →
            G.state.queue q ≠ [] := by
  refine ⟨fun i hi => ?_, fun G₁ t h₁ ht hr => ?_⟩
  · obtain ⟨k, hk⟩ := Control.eq_of_next hi
    exact hG.server.allowed hk
  obtain ⟨σ₁, hσ₁, hI₁⟩ := h₁.counting
  obtain ⟨σ, hσ, hI⟩ := hG.counting
  have hposted : u.workers ≤ G.state.posted := by
    refine h₁.onward hr (lasting_posted _) ?_
    rcases hI₁.posted_of_waiting (hσ₁ t) ht with hf | hf | hn
    · exact absurd (h₁.onward hr lasting_postFailed hf) hpost
    · exact absurd (h₁.onward hr lasting_associationFailed hf) hassoc
    · exact hn
  have hexit : G.state.exiting = true := by
    by_contra hx
    have hnone := hI.unposted (by simpa using hx)
    have hpos := u.workers_pos
    omega
  have hcount : {i | StillRunning (G.threads (.worker i))}.encard ≤
      (G.state.queue handlerPort).length := by
    refine (encard_stillRunning_le hG hσ).trans ?_
    have henough := hI.enough hexit
    exact_mod_cast (by omega : activeWorkers u.workers σ ≤ (G.state.queue handlerPort).length)
  refine ⟨hcount, fun i q hi hempty => ?_⟩
  obtain ⟨k, hk⟩ := Control.eq_of_next hi
  have hq := (hG.server.allowed hk).1.trans hG.setUp.workersPort
  rw [hq] at hempty
  rw [hempty] at hcount
  have hnone := Set.encard_eq_zero.mp (nonpos_iff_eq_zero.mp hcount)
  exact (Set.ext_iff.mp hnone i).mp ⟨_, hi, nofun, nofun, nofun⟩

/-- `exiting` posts its packet while the worker is inside `handle_accept`; the worker comes back to
the queue after that, and finds the packet. -/
theorem shutdown_reaches_every_worker_accepting : ∃ G₁ G, Reachable .server fullServer G₁ ∧
    (G₁.threads .main).next = some .waitForWorkers ∧ (machine .server).Reaches G₁ G ∧
    (G.threads (.worker 0)).next = some (.getQueuedCompletionStatus handlerPort) ∧
    {i | StillRunning (G.threads (.worker i))}.encard ≤ (G.state.queue handlerPort).length ∧
    G.state.queue handlerPort ≠ [] := by
  obtain ⟨G₁, h₁, hφ⟩ := reachable_of_run (.server (u := fullServer))
    (startMoves ++ (acceptMoves 1 102).take 6 ++ .enter .main .stop ::
      steps .main (List.replicate 8 .ok))
    (φ := fun G => (G.threads .main).next = some .waitForWorkers ∧
      ((machine .server).run G ((acceptMoves 1 102).drop 6)).any fun G =>
        ¬ AssociationFailed G.state ∧ ¬ PostFailed G.state ∧
          (G.threads (.worker 0)).next = some (.getQueuedCompletionStatus handlerPort))
    (by decide +kernel)
  obtain ⟨hwait, hrun⟩ := of_decide_eq_true hφ
  obtain ⟨G, hG, hψ⟩ := (Option.any_eq_true _ _).mp hrun
  obtain ⟨hassoc, hpost, hnext⟩ := of_decide_eq_true hψ
  obtain ⟨G₀, h0, hr₁⟩ := h₁
  have hr : (machine .server).Reaches G₁ G := ⟨_, hG⟩
  have hmain := (shutdown_reaches_every_worker ⟨G₀, h0, hr₁.trans hr⟩ hassoc hpost).2 G₁ .main
    ⟨G₀, h0, hr₁⟩ hwait hr
  exact ⟨G₁, G, ⟨G₀, h0, hr₁⟩, hwait, hr, hnext, hmain.1, hmain.2 0 _ hnext⟩

end Alpl.Net
