import Alpl.Handler.Pointers
import Alpl.Interleaving.Quiescence
import Alpl.Properties.LockDiscipline
import Alpl.Properties.Ownership

/-!
# No thread of a server is ever stuck

An action has no successor state where it would touch memory that is not there: a context or a
connection that does not exist, the lock of another thread, a `NULL` pointer.  A server comes to no
such action, so a thread of it can always go on, except that it waits in one of four calls.

And while a thread waits for `locker_`, its owner can go on, for inside the lock nobody waits.
So, if `onDisconnected` is set, the server never locks up: when nobody can go on, the workers wait
for packets, and the main thread for the workers or for the exit event.
-/

namespace Alpl.Net

open Interleaving

/-- The calls that wait. -/
def Action.waits : Action → Bool
  | .enterCriticalSection _ => true
  | .getQueuedCompletionStatus _ => true
  | .waitForWorkers => true
  | .waitExitEvent => true
  | _ => false

/-- Thread `t` can perform `a` now.  A call that waits does not help itself by failing. -/
def Proceeds (t : Tid) (a : Action) (s : State) : Prop :=
  ∃ o, (exec t a o s).isSome = true ∧ (a.waits = true → o = .ok)

/-- There is nothing to do: no packet, or something still to wait for. -/
def AtRest : Action → State → Prop
  | .getQueuedCompletionStatus q, s => s.queue q = []
  | .waitForWorkers, s => ∃ i < s.numWorkerThreads, s.alive (.worker i) = true
  | .waitExitEvent, s => s.exitEvent = false
  | _, _ => False

/-- Thread `t` is about to enter `locker_`, and another thread owns it. -/
def WaitsForLock (t : Tid) (a : Action) (s : State) : Prop :=
  (∃ f, a = .enterCriticalSection f) ∧ ∃ v, v ≠ t ∧ s.locker.owner = some v

/-- The context that an action uses. -/
def Action.context : Action → Option ContextPtr
  | .acceptEx _ _ c _ => some c
  | a => a.touches

/-- The connection object that an action uses. -/
def Action.connection : Action → Option ConnectionPtr
  | .getConnection p => some p
  | .invokeConnection p _ _ _ => some p
  | _ => none

/-- What thread `t` uses in `a` is there. -/
structure Backed (t : Tid) (a : Action) (s : State) : Prop where
  context : ∀ c, a.context = some c → ∃ x, s.contexts c = some x
  connection : ∀ p, a.connection = some p → ∃ y, s.tcpConnections p = some y
  lock : a = .leaveCriticalSection → s.locker.owner = some t
  /-- No socket is closed twice. -/
  socket : ∀ v, a = .closesocket v → ∃ k, s.handles v = some k
  null : a ≠ .nullDereference

section

variable {t : Tid} {a : Action} {s : State}

/-- An action with what it uses at hand can be performed, or waits. -/
lemma Backed.proceeds_or (h : Backed t a s) :
    Proceeds t a s ∨ AtRest a s ∨ WaitsForLock t a s := by
  have hok : (exec t a .ok s).isSome = true → Proceeds t a s := fun hs => ⟨.ok, hs, fun _ => rfl⟩
  have hfail : a.waits = false → (exec t a (.fail 0) s).isSome = true → Proceeds t a s :=
    fun hw hs => ⟨.fail 0, hs, fun hw' => absurd hw' (by simp [hw])⟩
  have hcontext : ∀ c, a.context = some c → (s.contexts c).isSome = true := fun c hc =>
    Option.isSome_iff_exists.mpr (h.context c hc)
  have hconnection : ∀ p, a.connection = some p → (s.tcpConnections p).isSome = true := fun p hp =>
    Option.isSome_iff_exists.mpr (h.connection p hp)
  cases a
  case enterCriticalSection f =>
    cases ho : s.locker.owner with
    | none => exact .inl (hok (by simp [exec, CriticalSection.enter, ho]))
    | some v =>
        by_cases hv : v = t
        · exact .inl (hok (by simp [exec, CriticalSection.enter, ho, hv]))
        · exact .inr (.inr ⟨⟨f, rfl⟩, v, hv, ho⟩)
  case leaveCriticalSection =>
    exact .inl (hok (by simp [exec, CriticalSection.leave, h.lock rfl]))
  case getQueuedCompletionStatus q =>
    cases hq : s.queue q with
    | nil => exact .inr (.inl hq)
    | cons pkt rest => exact .inl (hok (by simp [exec, hq]))
  case waitForWorkers =>
    by_cases hw : ∀ i < s.numWorkerThreads, s.alive (.worker i) = false
    · exact .inl (hok (by simp only [exec, if_pos hw, Option.isSome_some]))
    · simp only [not_forall] at hw
      obtain ⟨i, hi, halive⟩ := hw
      exact .inr (.inl ⟨i, hi, by simpa using halive⟩)
  case waitExitEvent =>
    cases he : s.exitEvent with
    | true => exact .inl (hok (by simp [exec, he]))
    | false => exact .inr (.inl he)
  case indexConnection v =>
    refine .inl (hok ?_)
    simp only [exec]
    split <;> rfl
  case nullDereference => exact absurd rfl h.null
  case freeContext c => exact .inl (hok (by simpa [exec] using hcontext c rfl))
  case getSocket c => exact .inl (hok (by simpa [exec] using hcontext c rfl))
  case setSocket c v => exact .inl (hok (by simpa [exec] using hcontext c rfl))
  case getIoContext c => exact .inl (hok (by simpa [exec] using hcontext c rfl))
  case setLastOperation c op => exact .inl (hok (by simpa [exec] using hcontext c rfl))
  case setSocketAccept c v => exact .inl (hok (by simpa [exec] using hcontext c rfl))
  case setSentBytes c n => exact .inl (hok (by simpa [exec] using hcontext c rfl))
  case getConnection p => exact .inl (hok (by simpa [exec] using hconnection p rfl))
  case invokeConnection p k q data =>
    exact .inl (hok (by simpa [exec] using hconnection p rfl))
  all_goals first
    | exact .inl (hok rfl)
    | exact .inl (hfail rfl rfl)

end

/-! ## A server -/

namespace Server

variable {u : Setup} {G : Config Action Action.Res State Tid Label} {t : Tid} {a : Action}

lemma live_of_allowed {s : State} {c : ContextPtr} (hI : Inv s) (hA : Allowed t a s)
    (ha : a.context = some c) : Live s c := by
  have hlive : c ∈ s.holds t ∨ s.theSocketContext = some c → Live s c := fun h =>
    h.elim (hI.live t c) (hI.theLive c)
  by_cases haccept : ∃ ls v len, a = .acceptEx ls v c len
  · obtain ⟨ls, v, len, rfl⟩ := haccept
    exact hlive (.inl hA.2.1)
  · refine hlive (held_of_touches hA ?_)
    cases a <;> first
      | exact ha
      | (cases ha; exact absurd ⟨_, _, _, rfl⟩ haccept)

/-- What a thread of a server uses is there. -/
lemma backed (hG : Reachable .server u G) (ha : (G.threads t).next = some a) :
    Backed t a G.state := by
  have hA := hG.server.allowed_next ha
  have hI := hG.server.ok.inv
  refine ⟨fun c hc => live_of_allowed hI hA hc, fun p hp => ?_, ?_, ?_, ?_⟩
  · cases a <;> first
      | (cases hp; done)
      | skip
    case getConnection q =>
      cases hp
      obtain ⟨σ, hσ, hpointing⟩ := hG.pointers
      obtain ⟨k, hk⟩ := Control.eq_of_next ha
      have htrack := hσ t
      rw [hk] at htrack
      exact Option.isSome_iff_exists.mp (hpointing.had t p (of_decide_eq_true htrack.1))
    case invokeConnection q k r data =>
      cases hp
      obtain ⟨y, hy, -⟩ := hG.handler.allowed_next ha
      exact ⟨y, hy⟩
  · rintro rfl
    refine CriticalSection.owner_of_heldBy ?_
    rw [hG.lockDiscipline.guarded t _ ha rfl]
    decide
  · rintro v rfl
    obtain ⟨c, k, -, hk, -⟩ | ⟨-, -, l, k, -, hk, -⟩ := hA
    · exact ⟨k, hk⟩
    · exact ⟨k, hk⟩
  · rintro rfl
    exact hA

end Server

/-- Worker 0 is inside `onDisconnected`, and worker 1 is about to make a context. -/
lemma exists_waiting : ∃ G, Reachable .server fullServer G ∧
    (G.threads (.worker 1)).next = some (.enterCriticalSection .createSocketContext) ∧
      G.state.locker.owner = some (.worker 0) := by
  obtain ⟨G, hG, hφ⟩ := reachable_of_run (.server (u := fullServer))
    (startMoves ++ acceptMoves 1 102 ++
      .env (.abort ⟨.recv, 1, 1, maxBuffSize⟩) :: steps (.worker 0) (List.replicate 15 .ok) ++
      .env (.complete ⟨.accept 2, 0, 0, acceptReceiveLength⟩ []) ::
        steps (.worker 1) (List.replicate 11 .ok))
    (φ := fun G => (G.threads (.worker 1)).next =
      some (.enterCriticalSection .createSocketContext) ∧
      G.state.locker.owner = some (.worker 0)) (by decide +kernel)
  exact ⟨G, hG, of_decide_eq_true hφ⟩

lemma code_begins (l : Label) : ∃ a k, code l = .act a k := by
  cases l <;> exact ⟨_, _, rfl⟩

lemma next_of_begins {role : Role} {u : Setup} {G : Config Action Action.Res State Tid Label}
    (h : Begins u role G) (t : Tid) (p : P (Option Label)) (hp : G.threads t = .running p) :
    (G.threads t).next ≠ none := by
  have hcode : ∀ l, (Control.running (code l) : Control Action Action.Res Label).next ≠ none := by
    intro l
    obtain ⟨a, k, hl⟩ := code_begins l
    rw [hl]
    exact nofun
  have hinit : ∀ l, initThreads u l t = .running p → (initThreads u l t).next ≠ none := by
    intro l hl
    cases t with
    | main => exact hcode l
    | worker i =>
        rw [initThreads_worker] at hl ⊢
        split at hl
        · rename_i hi
          rw [if_pos hi]
          exact hcode (.workerThread handlerPort)
        · cases hl
    | user i => cases hl
  cases h with
  | server => exact hinit _ hp
  | client v hv => exact hinit _ hp

/-- A thread inside a piece of code has a next action. -/
lemma Reachable.next {role : Role} {u : Setup} {G : Config Action Action.Res State Tid Label}
    (hG : Reachable role u G) {t : Tid} (ht : (G.threads t).isRunning = true) :
    ∃ a, (G.threads t).next = some a := by
  obtain ⟨G₀, h0, hr⟩ := hG
  cases hx : G.threads t with
  | running p =>
      have hne := Machine.next_of_running code_begins hr (next_of_begins h0) t p hx
      rw [hx] at hne
      exact Option.ne_none_iff_exists'.mp hne
  | idle =>
      rw [hx] at ht
      cases ht
  | dead =>
      rw [hx] at ht
      cases ht

/-- Nobody waits inside the lock. -/
lemma not_waits_of_guarded {a : Action} (h : a.isGuarded = true ∨ a = .callbackReturns) :
    a.waits = false := by
  rcases h with h | rfl
  · cases a <;> first | rfl | cases h
  · rfl

/-- What can keep a server from going on. -/
structure DeadlockFree (G : Config Action Action.Res State Tid Label) : Prop where
  /-- The owner of the lock can go on. -/
  owner : ∀ t, G.state.locker.owner = some t →
    ∃ a, (G.threads t).next = some a ∧ a.waits = false ∧ Proceeds t a G.state
  /-- If nobody can go on, then there is nothing to do. -/
  rest : (∀ t a, (G.threads t).next = some a → ¬ Proceeds t a G.state) →
    G.state.locker.owner = none ∧ ∀ t a, (G.threads t).next = some a → AtRest a G.state

lemma Reachable.deadlockFree {u : Setup} {G : Config Action Action.Res State Tid Label}
    (hG : Reachable .server u G) (hu : u.handlers.onDisconnected = true) : DeadlockFree G := by
  have howner : ∀ t, G.state.locker.owner = some t →
      ∃ a, (G.threads t).next = some a ∧ a.waits = false ∧ Proceeds t a G.state := by
    intro t ht
    obtain ⟨σ, -, hlocated⟩ := hG.located
    have hheld := CriticalSection.heldBy_of_owner hlocated.entered ht
    have hrunning : (G.threads t).isRunning = true := by
      by_contra hnot
      exact hheld ((callbacksOptional_of_set hG hu).gone t (by simpa using hnot))
    obtain ⟨a, ha⟩ := hG.next hrunning
    have hwaits := not_waits_of_guarded (hG.lockDiscipline.owner t a ha hheld)
    refine ⟨a, ha, hwaits, ?_⟩
    obtain hproceeds | hrest | ⟨⟨f, rfl⟩, -⟩ := (Server.backed hG ha).proceeds_or
    · exact hproceeds
    · cases a <;> first | cases hrest; done | cases hwaits
    · cases hwaits
  refine ⟨howner, fun hnone => ?_⟩
  have hfree : G.state.locker.owner = none := by
    cases ho : G.state.locker.owner with
    | none => rfl
    | some t =>
        obtain ⟨a, ha, -, hproceeds⟩ := howner t ho
        exact absurd hproceeds (hnone t a ha)
  refine ⟨hfree, fun t a ha => ?_⟩
  obtain hproceeds | hrest | ⟨-, v, -, hv⟩ := (Server.backed hG ha).proceeds_or
  · exact absurd hproceeds (hnone t a ha)
  · exact hrest
  · rw [hfree] at hv
    cases hv

end Alpl.Net
