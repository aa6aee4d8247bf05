import Alpl.Handler.Pointers
import Alpl.Server.Runs

/-!
# A connection object has its socket

The object of a connection is made for a context whose socket has been associated with the port, so
in every state of a server the bytes of a connection arrive on one socket object
(`exists_keyed`).
-/

namespace Alpl.Net

open Interleaving

namespace Server

variable {u : Setup} {G : Config Action Action.Res State Tid Label} {t : Tid} {a : Action}
variable {o : Outcome} {s' : State} {k : SockId} {c : ContextPtr}

/-- No action takes an association back. -/
lemma keyOf_exec {r : a.Res} (hG : Reachable .server u G)
    (he : exec t a o G.state = some (r, s')) (h : KeyOf G.state k c) : KeyOf s' k c := by
  refine h.imp fun q hq => (exec_effect _ he).assocKept k _ ?_ hq
  rintro rfl
  rw [hG.server.ok.inv.freshSocket _ (Nat.le_refl _)] at hq
  cases hq

/-- What a thread has listed, and what a connection was made for, has a socket. -/
structure Keyed (σ : Tid → Grip) (s : State) : Prop where
  listed : ∀ t c, (σ t).listed = some c → ∃ k, KeyOf s k c
  made : ∀ p c, MadeFor s p c → ∃ k, KeyOf s k c

lemma listed_of_next {q : Grip} {r : a.Res} (h : (q.next a r).listed = some c) :
    q.listed = some c ∨ a = .pushFrontContext c := by
  cases a <;> simp_all

lemma madeFor_of_exec {r : a.Res} {p : ConnectionPtr} (he : exec t a o G.state = some (r, s'))
    (h : MadeFor s' p c) :
    MadeFor G.state p c ∨ ∃ y, a = .newConnection y ∧ y.overlapped = some c := by
  obtain ⟨y, hy, hc⟩ := h
  rcases (exec_effect _ he).objects with ⟨hobjects, -⟩ | ⟨z, rfl, -, hobjects⟩
  · exact .inl ⟨y, hobjects ▸ hy, hc⟩
  · rw [hobjects] at hy
    by_cases hp : p = G.state.nextConnection
    · subst hp
      rw [Function.update_self] at hy
      cases hy
      exact .inr ⟨y, rfl, hc⟩
    · rw [Function.update_of_ne hp] at hy
      exact .inl ⟨y, hy, hc⟩

lemma keyed_keeps (u : Setup) :
    pointers.Keeps (machine .server) (Reachable .server u) Keyed where
  code := code_pointers
  act G t a k o r s' σ hG hx ha he hI := by
    have hkept : ∀ c, (∃ k, KeyOf G.state k c) → ∃ k, KeyOf s' k c := fun c h =>
      h.imp fun k => keyOf_exec hG he
    refine ⟨fun v c hv => ?_, fun p c hp => ?_⟩
    · by_cases hvt : v = t
      · subst hvt
        rw [Function.update_self] at hv
        rcases listed_of_next hv with hv | rfl
        · exact hkept c (hI.listed v c hv)
        · exact hkept c (hG.server.allowed hx).2
      · rw [Function.update_of_ne hvt] at hv
        exact hkept c (hI.listed v c hv)
    · rcases madeFor_of_exec he hp with hp | ⟨y, rfl, hy⟩
      · exact hkept c (hI.made p c hp)
      · have ha : y.overlapped = (σ t).listed ∧ (σ t).listed ≠ none := by simpa using ha
        exact hkept c (hI.listed t c (ha.1.symm.trans hy))
  env G e s' σ _ he hI := by
    have hU := undisturbed_osStep he
    have hkept : ∀ c, (∃ k, KeyOf G.state k c) → ∃ k, KeyOf s' k c := fun c ⟨k, q, hq⟩ =>
      ⟨k, q, (hU.assoc k).trans hq⟩
    refine ⟨fun v c hv => hkept c (hI.listed v c hv), fun p c ⟨y, hy, hc⟩ => ?_⟩
    exact hkept c (hI.made p c ⟨y, hU.tcpConnections ▸ hy, hc⟩)
  enter G t l s' σ _ _ he hI := by
    obtain rfl := enter_eq he
    refine ⟨fun v c hv => ?_, hI.made⟩
    by_cases hvt : v = t
    · subst hvt
      rw [Function.update_self] at hv
      cases l <;> cases hv
    · rw [Function.update_of_ne hvt] at hv
      exact hI.listed v c hv

/-- **In a run of a server what the threads have listed has a socket, and so has every
connection.** -/
theorem exists_keyed (hG : Reachable .server u G) :
    ∃ σ, (∀ t, pointers.OnTrack (G.threads t) (σ t)) ∧ Keyed σ G.state := by
  obtain ⟨G₀, h0, hr⟩ := hG
  refine (keyed_keeps u).sound (fun G' hr' => ⟨G₀, h0, hr'⟩) hr
    (onTrack_beginning code_pointers h0) ?_
  cases h0
  refine ⟨fun t c hc => ?_, fun p c ⟨y, hy, _⟩ => ?_⟩
  · cases t <;> cases hc
  · cases hy

end Server

end Alpl.Net
