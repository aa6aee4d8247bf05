import Alpl.Handler.Locking
import Alpl.Handler.Sockets
import Alpl.Properties.Callbacks
import Alpl.Server.Runs

/-!
# What `locker_` is used for, and what becomes of it

`locker_` is a recursive lock, but no thread ever enters it twice: `create_socket_context` and
`disconnect` enter it, and neither calls the other.  A context is made, and a connection taken away,
by the owner alone; the owner makes no call that waits, and of the callbacks of the user it is
`onDisconnected` that runs inside the lock, and no other.

So the lock is as good as the callback: one that throws takes the lock with it.  Then no context is
made and no connection taken away for the rest of the run (`lock_orphaned`).
-/

namespace Alpl.Net

open Interleaving

/-- The actions for which a thread has to own `locker_`. -/
def Action.needsLock : Action → Bool
  | .leaveCriticalSection => true
  | .newContext _ _ => true
  | .removeContext _ => true
  | .eraseConnection _ => true
  | .invokeHandler _ _ _ => true
  | _ => false

/-- How the threads use `locker_`. -/
structure LockDiscipline (G : Config Action Action.Res State Tid Label) : Prop where
  /-- Nobody enters it a second time. -/
  once : ∀ t, G.state.locker.heldBy t ≤ 1
  /-- The owner only does what `create_socket_context` and `disconnect` do inside: it does not enter
  the lock, waits for nothing and starts no operation. -/
  owner : ∀ t a, (G.threads t).next = some a → G.state.locker.heldBy t ≠ 0 →
    a.isGuarded = true ∨ a = .callbackReturns
  /-- Contexts are made, and connections taken away, by the owner. -/
  guarded : ∀ t a, (G.threads t).next = some a → a.needsLock = true →
    G.state.locker.heldBy t = 1
  /-- A callback runs inside the lock if and only if it is `onDisconnected`. -/
  callback : ∀ t, (G.threads t).next = some .callbackReturns → ∃ k p fs,
    G.state.stack t = .callback k p :: fs ∧ k ≠ .onConnected ∧
      (G.state.locker.heldBy t = 1 ↔ k = .onDisconnected)

/-- The region of a thread allows what the thread is about to do. -/
lemma allows_of_onTrack {x : Control Action Action.Res Label} {q : Region} {a : Action}
    (h : regions.OnTrack x q) (ha : x.next = some a) : q.allows a = true := by
  obtain ⟨k, rfl⟩ := Control.eq_of_next ha
  exact h.1

lemma held_of_needsLock {q : Region} {a : Action} (ha : q.allows a = true)
    (hn : a.needsLock = true) : q.held = 1 := by
  cases q with
  | inside => rfl
  | telling => rfl
  | lost => rfl
  | outside => cases a <;> first | cases ha; done | cases hn
  | calling => cases a <;> first | cases ha; done | cases hn

lemma Reachable.lockDiscipline {role : Role} {u : Setup}
    {G : Config Action Action.Res State Tid Label} (hG : Reachable role u G) :
    LockDiscipline G := by
  obtain ⟨σ, hσ, hI⟩ := hG.located
  refine ⟨fun t => ?_, fun t a ha hheld => ?_, fun t a ha hn => ?_, fun t ha => ?_⟩
  · rw [(hI.shows t).held]
    cases σ t <;> decide
  · have hallows := allows_of_onTrack (hσ t) ha
    rw [(hI.shows t).held] at hheld
    cases hq : σ t with
    | outside => exact absurd (congrArg Region.held hq) hheld
    | inside => exact .inl (by simpa [hq] using hallows)
    | telling =>
        rw [hq] at hallows
        cases a <;> first | exact .inr rfl | cases hallows
    | lost =>
        rw [hq] at hallows
        cases hallows
    | calling => exact absurd (congrArg Region.held hq) hheld
  · rw [(hI.shows t).held]
    exact held_of_needsLock (allows_of_onTrack (hσ t) ha) hn
  · have hallows := allows_of_onTrack (hσ t) ha
    have hshows := hI.shows t
    cases hq : σ t <;> rw [hq] at hallows hshows <;> first | cases hallows; done | skip
    case telling =>
      obtain ⟨p, fs, hfs⟩ := hshows.telling rfl
      exact ⟨_, p, fs, hfs, by simp, iff_of_true hshows.held rfl⟩
    case calling =>
      obtain ⟨k, p, fs, hk, hfs⟩ := hshows.calling rfl
      have hheld : G.state.locker.heldBy t = 0 := hshows.held
      refine ⟨k, p, fs, hfs, ?_, iff_of_false (by rw [hheld]; decide) ?_⟩
      · rintro rfl
        cases hk
      · rintro rfl
        cases hk

/-- **The discipline of the lock.**  A callback of the user does not call the library itself: a
`Send` inside `onDisconnected` would bring `onSentCompleted` inside the lock. -/
theorem lock_discipline {role : Role} {u : Setup} {G : Config Action Action.Res State Tid Label}
    (hG : Reachable role u G) : LockDiscipline G := hG.lockDiscipline

/-- A connection breaks, and the worker that tears it down is inside `onDisconnected`. -/
theorem lock_discipline_telling : ∃ G, Reachable .server fullServer G ∧
    (G.threads (.worker 0)).next = some .callbackReturns ∧
      G.state.locker.heldBy (.worker 0) = 1 ∧ LockDiscipline G := by
  obtain ⟨G, hG, hφ⟩ := reachable_of_run (.server (u := fullServer))
    (startMoves ++ acceptMoves 1 102 ++
      .env (.abort ⟨.recv, 1, 1, maxBuffSize⟩) :: steps (.worker 0) (List.replicate 15 .ok))
    (φ := fun G => (G.threads (.worker 0)).next = some .callbackReturns ∧
      G.state.locker.heldBy (.worker 0) = 1) (by decide +kernel)
  obtain ⟨hnext, hheld⟩ := of_decide_eq_true hφ
  exact ⟨G, hG, hnext, hheld, lock_discipline hG⟩

/-! ## A lock that is lost -/

/-- Thread `t` has stopped inside `locker_`, and what the lock protects is as it was in `G₁`. -/
structure LockLost (t : Tid) (G₁ G : Config Action Action.Res State Tid Label) : Prop where
  held : G.state.locker.heldBy t = 1
  stopped : (G.threads t).next = none ∧ G.threads t ≠ .idle
  /-- No context was made. -/
  contexts : G.state.nextContext = G₁.state.nextContext
  /-- No connection was taken away. -/
  connections : ∀ v p, G₁.state.connections v = some (some p) →
    G.state.connections v = some (some p)
  listed : ∀ c ∈ G₁.state.socketContexts, c ∈ G.state.socketContexts

lemma exec_nextContext {t : Tid} {a : Action} {o : Outcome} {s : State}
    (ha : ∀ sd op, a ≠ .newContext sd op) :
    ∀ rs ∈ exec t a o s, rs.2.nextContext = s.nextContext := by
  unfold exec exec.acceptEx exec.post exec.invoke
  split
  all_goals first
    | exact absurd rfl (ha _ _)
    | skip
  all_goals try split
  all_goals try split
  all_goals simp only [Option.mem_def, Option.map_eq_some_iff, Option.some.injEq, reduceCtorEq,
    IsEmpty.forall_iff, implies_true, forall_exists_index, and_imp, forall_eq',
    forall_apply_eq_imp_iff₂]
  all_goals intros
  all_goals try split
  all_goals rfl

namespace LockLost

variable {t : Tid} {u : Setup} {G₁ G G' : Config Action Action.Res State Tid Label}

/-- The others do nothing for which they would have to own the lock. -/
lemma unguarded (h : LockLost t G₁ G) (hG : Reachable .server u G) {v : Tid} {a : Action}
    (hv : v ≠ t) (ha : (G.threads v).next = some a) : a.needsLock = false := by
  by_contra hn
  have hheld := hG.lockDiscipline.guarded v a ha (by simpa using hn)
  have ht := CriticalSection.owner_of_heldBy (t := t) (by rw [h.held]; decide)
  have hv' := CriticalSection.owner_of_heldBy (t := v) (by rw [hheld]; decide)
  exact hv (Option.some.inj (hv'.symm.trans ht))

/-- What the lock protects is left alone by an action that does not need it. -/
lemma kept_of_unguarded {a : Action} {o : Outcome} {v : Tid} {s s' : State} {r : a.Res}
    (hA : Server.Allowed v a s) (hn : a.needsLock = false) (he : exec v a o s = some (r, s')) :
    s'.nextContext = s.nextContext ∧
      (∀ w p, s.connections w = some (some p) → s'.connections w = some (some p)) ∧
      ∀ c ∈ s.socketContexts, c ∈ s'.socketContexts := by
  refine ⟨exec_nextContext (fun sd op ha => by rw [ha] at hn; cases hn) _ he, ?_⟩
  by_cases hfiles : a.files = true
  · cases a <;> first
      | (cases hfiles; done)
      | (cases hn; done)
      | skip
    case pushFrontContext c =>
      cases o <;> cases he
      exact ⟨fun _ _ h => h, fun _ h => List.mem_cons_of_mem _ h⟩
    case indexConnection w =>
      obtain ⟨-, rfl⟩ | ⟨hnone, -, rfl⟩ := exec_indexConnection he
      · exact ⟨fun _ _ h => h, fun _ h => h⟩
      · obtain ⟨p, hp⟩ := hA
        rw [hnone] at hp
        cases hp
    case assignConnection w p =>
      cases o <;> cases he
      refine ⟨fun w' p' h => ?_, fun _ h => h⟩
      have hne : w' ≠ w := by
        rintro rfl
        rw [hA.1] at h
        cases h
      exact (Function.update_of_ne hne _ _).trans h
    case wsaSocket =>
      obtain ⟨-, -, rfl⟩ | ⟨-, rfl⟩ := exec_wsaSocket he <;>
        exact ⟨fun _ _ h => h, fun _ h => h⟩
    case closesocket w =>
      cases o <;> cases he
      exact ⟨fun _ _ h => h, fun _ h => h⟩
  · have h := exec_sameTables (by simpa using hfiles) _ he
    exact ⟨fun w p hp => h.connections ▸ hp, fun c hc => h.socketContexts ▸ hc⟩

/-- No move gives the lock back. -/
lemma step (h : LockLost t G₁ G) (hG : Reachable .server u G) {e : Event Tid Label Outcome OsEvent}
    (he : (machine .server).step G e = some G') : LockLost t G₁ G' := by
  rcases Machine.step_inv he with ⟨v, l, s', -, hx, hs', rfl⟩ |
    ⟨v, c, a, k, r, s', -, hx, hs', rfl⟩ | ⟨v, s', -, hs', rfl⟩
  · have hv : t ≠ v := by
      rintro rfl
      exact h.stopped.2 hx
    obtain rfl := enter_eq hs'
    exact { h with stopped := by simpa only [Function.update_of_ne hv] using h.stopped }
  · have hv : t ≠ v := by
      rintro rfl
      have hnext := h.stopped.1
      rw [hx] at hnext
      cases hnext
    have ha : (G.threads v).next = some a := by rw [hx]; rfl
    obtain ⟨hc, hm, hl⟩ := kept_of_unguarded (hG.server.allowed hx) (h.unguarded hG hv.symm ha) hs'
    exact ⟨((exec_effect _ hs').held t hv).trans h.held,
      by simpa only [Function.update_of_ne hv] using h.stopped, hc.trans h.contexts,
      fun w p hp => hm w p (h.connections w p hp), fun c hc => hl c (h.listed c hc)⟩
  · have hu := undisturbed_osStep hs'
    have ht := osStep_sameTables hs'
    refine ⟨hu.locker ▸ h.held, h.stopped, ?_, fun w p hp => ?_, fun c hc => ?_⟩
    · exact (osStep_nextContext hs').trans h.contexts
    · rw [ht.connections]
      exact h.connections w p hp
    · rw [ht.socketContexts]
      exact h.listed c hc

end LockLost

end Alpl.Net
