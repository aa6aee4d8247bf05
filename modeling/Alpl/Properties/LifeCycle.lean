import Alpl.Handler.Stages
import Alpl.Properties.Delivery

/-!
# The life of a connection, as the user sees it

The user is meant to see each connection come, bring data, and go.  Nobody calls `onConnected`: the
handler copies it into the connection and leaves it there.  What the user does see is in order:
data, and then at most one `onDisconnected`, with the connection's own object.  The order rests on
ownership.  A worker calls back only for a context it has in hand, and from its `onDisconnected` on
it keeps the context until it is freed (`Stage.told`).
-/

namespace Alpl.Net

open Interleaving

/-! ## What the history tells of a connection -/

/-- The callback of the life cycle that a record is, if it was passed connection `p`. -/
def Record.about (p : ConnectionPtr) : Record → Option CallbackKind
  | .callback _ .onSentCompleted _ _ => none
  | .callback _ k (some q) _ => if q = p then some k else none
  | _ => none

/-- The callbacks of connection `p`, the oldest first. -/
def callbacksIn (p : ConnectionPtr) : List Record → List CallbackKind
  | [] => []
  | r :: h => callbacksIn p h ++ (r.about p).toList

/-- The context for which thread `t` called `disconnect` last. -/
def lastDisconnect (t : Tid) : List Record → Option ContextPtr
  | [] => none
  | .entered u (.disconnect c) :: h => if u = t then c else lastDisconnect t h
  | _ :: h => lastDisconnect t h

/-- `onConnected`, any number of `onDataReceived`, `onDisconnected`. -/
def wholeLife (n : ℕ) : List CallbackKind :=
  .onConnected :: (List.replicate n .onDataReceived ++ [.onDisconnected])

/-- The callbacks of connection `p`, whose context is `c`, come in order, and `onDisconnected` is
called with `p`. -/
structure LifeCycle (h : List Record) (p : ConnectionPtr) (c : ContextPtr) : Prop where
  order : ∃ n, callbacksIn p h <+: wholeLife n
  own : ∀ t o data h₁ h₂, h = h₁ ++ .callback t .onDisconnected o data :: h₂ →
    lastDisconnect t h₂ = some c → o = some p

lemma about_eq_some {r : Record} {p : ConnectionPtr} {k : CallbackKind} (h : r.about p = some k) :
    k ≠ .onSentCompleted ∧ ∃ t data, r = .callback t k (some p) data := by
  unfold Record.about at h
  split at h
  · cases h
  · rename_i t k' q data hk
    split at h
    · rename_i hq
      cases h
      exact ⟨fun hs => hk hs, t, data, by rw [hq]⟩
    · cases h
  · cases h

lemma callbacksIn_nil {h : List Record} {p : ConnectionPtr}
    (hn : ∀ r ∈ h, r.about p = none) : callbacksIn p h = [] := by
  induction h with
  | nil => rfl
  | cons r h ih =>
      rw [callbacksIn, hn r List.mem_cons_self, ih fun r' hr' => hn r' (List.mem_cons_of_mem r hr')]
      rfl

lemma callbacksIn_mem {h : List Record} {p : ConnectionPtr} {t : Tid} {k : CallbackKind}
    {data : List UInt8} (hm : .callback t k (some p) data ∈ h) (hk : k ≠ .onSentCompleted) :
    k ∈ callbacksIn p h := by
  induction h with
  | nil => cases hm
  | cons r h ih =>
      refine List.mem_append.mpr ?_
      rcases List.mem_cons.mp hm with rfl | hm
      · right
        cases k with
        | onSentCompleted => exact absurd rfl hk
        | _ => simp [Record.about]
      · exact .inl (ih hm)

lemma mem_callbacksIn {h : List Record} {p : ConnectionPtr} {k : CallbackKind}
    (hk : k ∈ callbacksIn p h) : ∃ t data, .callback t k (some p) data ∈ h := by
  induction h with
  | nil => cases hk
  | cons r h ih =>
      rcases List.mem_append.mp hk with hk | hk
      · obtain ⟨t, data, hm⟩ := ih hk
        exact ⟨t, data, List.mem_cons_of_mem r hm⟩
      · obtain ⟨-, t, data, rfl⟩ := about_eq_some (Option.mem_toList.mp hk)
        exact ⟨t, data, List.mem_cons_self⟩

/-- Only a call of `disconnect` by the thread itself changes what it called last. -/
lemma lastDisconnect_cons {t : Tid} {r : Record} {h : List Record}
    (hr : ∀ c, r ≠ .entered t (.disconnect c)) :
    lastDisconnect t (r :: h) = lastDisconnect t h := by
  cases r with
  | entered u f =>
      cases f with
      | disconnect c => exact if_neg fun hu => hr c (by rw [hu])
      | _ => rfl
  | _ => rfl

/-! ## The invariant -/

namespace Server

/-- What the stages of the threads and the history have to do with each other. -/
structure Telling (σ : Tid → Stage) (s : State) : Prop where
  called : ∀ t c, σ t = .inside c → lastDisconnect t s.history = some c
  stack : ∀ t c, σ t = .inside c → ∃ fs, s.stack t = .disconnect (some c) :: fs
  held : ∀ t c, σ t = .told c → c ∈ s.holds t
  /-- Whoever has told the user of a connection has its context, until the context is freed. -/
  told : ∀ t o data, .callback t .onDisconnected o data ∈ s.history →
    ∃ p c, o = some p ∧ MadeFor s p c ∧ (¬ Live s c ∨ ∃ u, σ u = .told c)
  own : ∀ t o data h₁ h₂, s.history = h₁ ++ .callback t .onDisconnected o data :: h₂ →
    ∃ p c, o = some p ∧ MadeFor s p c ∧ lastDisconnect t h₂ = some c
  order : ∀ p, ∃ n, callbacksIn p s.history = List.replicate n .onDataReceived ∨
    callbacksIn p s.history = List.replicate n .onDataReceived ++ [.onDisconnected]

/-! ### The stages -/

lemma next_eq_inside {q : Stage} {a : Action} {r : a.Res} {c : ContextPtr}
    (ha : q.allows a = true) (h : q.next a r = .inside c) :
    a = .enter (.disconnect (some c)) ∨
      q = .inside c ∧ a.pushes = false ∧ a ≠ .callbackReturns ∧ a.clears = false := by
  cases q with
  | working =>
      obtain hq | ⟨d, rfl, hq⟩ | ⟨-, hq⟩ | ⟨-, hq⟩ := next_working h <;> cases hq
      exact .inl rfl
  | inside d => cases a <;> grind [Stage.next, Stage.allows, Action.pushes, Action.clears]
  | taken | exiting | posting =>
      cases a <;> simp_all [Stage.next]
      grind
  | _ => cases a <;> simp_all [Stage.next]

lemma next_eq_told {q : Stage} {a : Action} {r : a.Res} {c : ContextPtr}
    (ha : q.allows a = true) (h : q.next a r = .told c) :
    q = .told c ∧ a.hands = false ∨ q = .inside c ∧ ∃ k o data, a = .invokeHandler k o data := by
  cases q with
  | inside d => cases a <;> grind [Stage.next, Stage.allows]
  | told d => cases a <;> grind [Stage.next, Stage.allows, Action.hands]
  | working =>
      obtain hq | ⟨d, -, hq⟩ | ⟨-, hq⟩ | ⟨-, hq⟩ := next_working h <;> cases hq
  | taken | exiting | posting =>
      cases a <;> simp_all [Stage.next]
      grind
  | _ => cases a <;> simp_all [Stage.next]

/-- The stage after the callback ends only where the context is freed. -/
lemma next_of_told {a : Action} {r : a.Res} {c : ContextPtr}
    (ha : Stage.allows (.told c) a = true) :
    Stage.next (.told c) a r = .told c ∨ a = .freeContext c := by
  cases a <;> simp_all

/-! ### One action -/

lemma MadeFor.onward {s s' : State} {p : ConnectionPtr} {c : ContextPtr} (h : MadeFor s p c)
    (hO : Onward s s') : MadeFor s' p c := by
  obtain ⟨y, hy, hc⟩ := h
  exact ⟨y, hO.objects p y hy, hc⟩

/-- What thread `t` called last changes only where it calls `disconnect`. -/
lemma lastDisconnect_effect {s s' : State} {t v : Tid} {a : Action} (h : Effect t a s s')
    (hv : v ≠ t ∨ ∀ c, a ≠ .enter (.disconnect c)) :
    lastDisconnect v s'.history = lastDisconnect v s.history := by
  rcases h.history with he | ⟨r, hr, he⟩
  · rw [he]
  · rw [he]
    apply lastDisconnect_cons
    rintro c rfl
    rcases hv with hv | hv
    · exact hv hr.thread_eq
    · cases hr
      exact hv c rfl

section

variable {u : Setup} {G : Config Action Action.Res State Tid Label} {t : Tid} {a : Action}
variable {k : a.Res → P (Option Label)} {o : Outcome} {r : a.Res} {s' : State} {σ : Tid → Stage}

/-- Thread `t` calls the handler's `onDisconnected` for the context it is inside `disconnect`
for. -/
lemma Telling.caller {kind : CallbackKind} {p : Option ConnectionPtr} {data : List UInt8}
    {s : State} (hI : Telling σ s) (ha : (σ t).allows (.invokeHandler kind p data) = true)
    (hA : Allowed t (.invokeHandler kind p data) s) : kind = .onDisconnected ∧
      ∃ q c, p = some q ∧ MadeFor s q c ∧ c ∈ s.holds t ∧ σ t = .inside c := by
  cases hq : σ t with
  | inside d =>
      rw [hq] at ha
      obtain ⟨-, q, c, fs, hp, hstack, hserving, hmade⟩ := hA
      obtain ⟨fs', hstack'⟩ := hI.stack t d hq
      obtain ⟨hf, -⟩ := List.cons.inj (hstack'.symm.trans hstack)
      cases hf
      exact ⟨of_decide_eq_true ha, q, d, hp, hmade, hserving.1, rfl⟩
  | _ =>
      rw [hq] at ha
      cases ha

/-- Nobody has told the user of a connection whose context a thread has in hand before it does so
itself. -/
lemma Telling.untold {s : State} {p : ConnectionPtr} {c : ContextPtr} (hI : Telling σ s)
    (hS : Inv s) (hc : c ∈ s.holds t) (hp : MadeFor s p c) (ht : σ t ≠ .told c) :
    .onDisconnected ∉ callbacksIn p s.history := by
  intro hmem
  obtain ⟨v, data, hm⟩ := mem_callbacksIn hmem
  obtain ⟨q, d, hq, hmade, htold⟩ := hI.told v _ data hm
  cases hq
  obtain rfl := hmade.context_eq hp
  rcases htold with hdead | ⟨w, hw⟩
  · exact hdead (hS.live t d hc)
  · obtain rfl := hS.single w t d (hI.held w d hw) hc
    exact ht hw

variable (hG : Reachable .server u G) (hx : G.threads t = .running (.act a k))
variable (ha : (σ t).allows a = true) (he : exec t a o G.state = some (r, s'))
variable (hI : Telling σ G.state)
include ha he hI

lemma Telling.act_called (v : Tid) (c : ContextPtr)
    (hv : Function.update σ t ((σ t).next a r) v = .inside c) :
    lastDisconnect v s'.history = some c := by
  have hE := exec_effect _ he
  by_cases hvt : v = t
  · subst hvt
    rw [Function.update_self] at hv
    rcases next_eq_inside ha hv with rfl | ⟨hq, hpush, -⟩
    · cases o <;> cases he
      exact if_pos rfl
    · rw [lastDisconnect_effect hE (.inr fun d hd => by rw [hd] at hpush; cases hpush)]
      exact hI.called v c hq
  · rw [Function.update_of_ne hvt] at hv
    rw [lastDisconnect_effect hE (.inl hvt)]
    exact hI.called v c hv

lemma Telling.act_stack (v : Tid) (c : ContextPtr)
    (hv : Function.update σ t ((σ t).next a r) v = .inside c) :
    ∃ fs, s'.stack v = .disconnect (some c) :: fs := by
  have hE := exec_effect _ he
  by_cases hvt : v = t
  · subst hvt
    rw [Function.update_self] at hv
    rcases next_eq_inside ha hv with rfl | ⟨hq, hpush, hreturn, hclear⟩
    · cases o <;> cases he
      exact ⟨_, Function.update_self _ _ _⟩
    · rcases hE.ownStack with hs | ⟨h, -⟩ | ⟨h, -⟩ | h
      · rw [hs]
        exact hI.stack v c hq
      · exact nomatch hpush.symm.trans h
      · exact absurd h hreturn
      · exact nomatch hclear.symm.trans h
  · rw [Function.update_of_ne hvt] at hv
    rw [hE.stack v hvt]
    exact hI.stack v c hv

include hG hx

lemma Telling.act_held (v : Tid) (c : ContextPtr)
    (hv : Function.update σ t ((σ t).next a r) v = .told c) : c ∈ s'.holds v := by
  have hF := exec_footprint _ he
  by_cases hvt : v = t
  · subst hvt
    rw [Function.update_self] at hv
    rcases next_eq_told ha hv with ⟨hq, hhands⟩ | ⟨hq, kind, p, data, rfl⟩
    · rw [hF.ownHolds hhands]
      exact hI.held v c hq
    · rw [hF.ownHolds rfl]
      obtain ⟨-, q, d, -, -, hd, hin⟩ := hI.caller ha (hG.server.allowed hx)
      rw [hq] at hin
      cases hin
      exact hd
  · rw [Function.update_of_ne hvt] at hv
    rw [hF.holds v hvt]
    exact hI.held v c hv

omit hI in
/-- A thread that has told the user still has the context, or has freed it. -/
lemma act_kept {c : ContextPtr} {p : ConnectionPtr} (hp : MadeFor G.state p c)
    (h : ¬ Live G.state c ∨ ∃ v, σ v = .told c) :
    ¬ Live s' c ∨ ∃ v, Function.update σ t ((σ t).next a r) v = .told c := by
  have hF := exec_footprint _ he
  have hS := hG.server.ok.inv
  have hlt : c < G.state.nextContext := by
    obtain ⟨y, hy, hc⟩ := hp
    obtain ⟨d, hd, hyd, -⟩ := hS.objectOf p y hy
    rwa [← Option.some.inj (hc.symm.trans hyd)] at hd
  rcases h with hdead | ⟨v, hv⟩
  · refine .inl fun ⟨x, hlive⟩ => ?_
    have hnone : G.state.contexts c = none := by
      by_contra hsome
      exact hdead (Option.ne_none_iff_exists'.mp hsome)
    rw [hF.gone c (Nat.ne_of_lt hlt) hnone] at hlive
    cases hlive
  · by_cases hvt : v = t
    · subst hvt
      rw [hv] at ha ⊢
      rcases next_of_told (r := r) ha with hnext | rfl
      · exact .inr ⟨v, by rw [Function.update_self, hnext]⟩
      · refine .inl ?_
        obtain ⟨x, -, rfl⟩ := exec_freeContext he
        rintro ⟨y, hy⟩
        have hy' : Function.update G.state.contexts c none c = some y := hy
        rw [Function.update_self] at hy'
        cases hy'
    · exact .inr ⟨v, by rw [Function.update_of_ne hvt, hv]⟩

/-- A record of `onDisconnected` that the action adds. -/
lemma Telling.new_disconnected {v : Tid} {p : Option ConnectionPtr} {data : List UInt8}
    (hr : Record.IsOf t G.state a (.callback v .onDisconnected p data)) :
    v = t ∧ ∃ q c, p = some q ∧ MadeFor G.state q c ∧ c ∈ G.state.holds t ∧ σ t = .inside c ∧
      (σ t).next a r = .told c := by
  cases hr with
  | handler =>
      obtain ⟨-, q, c, hp, hmade, hc, hin⟩ := hI.caller ha (hG.server.allowed hx)
      refine ⟨rfl, q, c, hp, hmade, hc, hin, ?_⟩
      rw [hin]
      rfl
  | connection =>
      cases hq : σ t <;> rw [hq] at ha <;> simp at ha

lemma Telling.act_told (v : Tid) (p : Option ConnectionPtr) (data : List UInt8)
    (hm : .callback v .onDisconnected p data ∈ s'.history) :
    ∃ q c, p = some q ∧ MadeFor s' q c ∧
      (¬ Live s' c ∨ ∃ w, Function.update σ t ((σ t).next a r) w = .told c) := by
  have hE := exec_effect _ he
  have hO := hE.onward hG.handler.ok.inv
  have hold : .callback v .onDisconnected p data ∈ G.state.history →
      ∃ q c, p = some q ∧ MadeFor s' q c ∧
        (¬ Live s' c ∨ ∃ w, Function.update σ t ((σ t).next a r) w = .told c) := by
    intro hm
    obtain ⟨q, c, hp, hmade, htold⟩ := hI.told v p data hm
    exact ⟨q, c, hp, hmade.onward hO, act_kept hG hx ha he hmade htold⟩
  rcases hE.history with hh | ⟨rec, hrec, hh⟩
  · exact hold (hh ▸ hm)
  · rw [hh] at hm
    rcases List.mem_cons.mp hm with rfl | hm
    · obtain ⟨rfl, q, c, hp, hmade, -, -, hnext⟩ := hI.new_disconnected hG hx ha he hrec
      exact ⟨q, c, hp, hmade.onward hO, .inr ⟨v, by rw [Function.update_self, hnext]⟩⟩
    · exact hold hm

lemma Telling.act_own (v : Tid) (p : Option ConnectionPtr) (data : List UInt8)
    (h₁ h₂ : List Record) (hm : s'.history = h₁ ++ .callback v .onDisconnected p data :: h₂) :
    ∃ q c, p = some q ∧ MadeFor s' q c ∧ lastDisconnect v h₂ = some c := by
  have hE := exec_effect _ he
  have hO := hE.onward hG.handler.ok.inv
  have hold : ∀ h, G.state.history = h ++ .callback v .onDisconnected p data :: h₂ →
      ∃ q c, p = some q ∧ MadeFor s' q c ∧ lastDisconnect v h₂ = some c := by
    intro h hh
    obtain ⟨q, c, hp, hmade, hlast⟩ := hI.own v p data h h₂ hh
    exact ⟨q, c, hp, hmade.onward hO, hlast⟩
  rcases hE.history with hh | ⟨rec, hrec, hh⟩
  · exact hold h₁ (hh ▸ hm)
  · rw [hh] at hm
    cases h₁ with
    | nil =>
        obtain ⟨rfl, rfl⟩ := List.cons.inj hm
        obtain ⟨rfl, q, c, hp, hmade, -, hin, -⟩ := hI.new_disconnected hG hx ha he hrec
        exact ⟨q, c, hp, hmade.onward hO, hI.called v c hin⟩
    | cons r' h₁ => exact hold h₁ (List.cons.inj hm).2

lemma Telling.act_order (p : ConnectionPtr) :
    ∃ n, callbacksIn p s'.history = List.replicate n .onDataReceived ∨
      callbacksIn p s'.history = List.replicate n .onDataReceived ++ [.onDisconnected] := by
  have hE := exec_effect _ he
  have hS := hG.server.ok.inv
  obtain ⟨n, hn⟩ := hI.order p
  -- while the user has not been told, there was data only
  have hdata : .onDisconnected ∉ callbacksIn p G.state.history →
      callbacksIn p G.state.history = List.replicate n .onDataReceived := by
    intro hnot
    refine hn.resolve_right fun h => hnot ?_
    rw [h]
    exact List.mem_append_right _ (List.mem_singleton_self _)
  rcases hE.history with hh | ⟨rec, hrec, hh⟩
  · rw [hh]
    exact ⟨n, hn⟩
  rw [hh, callbacksIn]
  cases hk : rec.about p with
  | none =>
      rw [Option.toList_none, List.append_nil]
      exact ⟨n, hn⟩
  | some kind =>
      obtain ⟨hsent, v, data, rfl⟩ := about_eq_some hk
      rw [Option.toList_some]
      cases kind with
      | onSentCompleted => exact absurd rfl hsent
      | onConnected =>
          exfalso
          cases hrec with
          | handler => exact nomatch (hI.caller ha (hG.server.allowed hx)).1
          | connection => cases hq : σ t <;> rw [hq] at ha <;> simp at ha
      | onDisconnected =>
          obtain ⟨-, q, c, hp, hmade, hc, hin, -⟩ := hI.new_disconnected hG hx ha he hrec
          cases hp
          rw [hdata (hI.untold hS hc hmade fun ht => nomatch hin.symm.trans ht)]
          exact ⟨n, .inr rfl⟩
      | onDataReceived =>
          cases hrec with
          | handler => exact nomatch (hI.caller ha (hG.server.allowed hx)).1
          | connection =>
              obtain ⟨q, c, hp, hserving, hmade, -⟩ := hG.server.allowed hx rfl
              cases hp
              have hstage : σ t ≠ .told c := by
                intro ht
                rw [ht] at ha
                cases ha
              rw [hdata (hI.untold hS hserving.1 hmade hstage)]
              exact ⟨n + 1, .inl List.replicate_succ'.symm⟩

lemma Telling.act : Telling (Function.update σ t ((σ t).next a r)) s' where
  called := hI.act_called ha he
  stack := hI.act_stack ha he
  held := hI.act_held hG hx ha he
  told := hI.act_told hG hx ha he
  own := hI.act_own hG hx ha he
  order := hI.act_order hG hx ha he

end

/-! ### Runs -/

lemma Telling.osStep {σ : Tid → Stage} {s s' : State} {e : OsEvent} (hI : Telling σ s)
    (h : osStep e s = some s') : Telling σ s' := by
  have hU := undisturbed_osStep h
  have hgone : ∀ c, ¬ Live s c → ¬ Live s' c := by
    rintro c hdead ⟨y, hy⟩
    obtain ⟨op, hop⟩ := osStep_effect h
    obtain ⟨g, hg⟩ := hop.contexts c
    rw [hg] at hy
    obtain ⟨x, hx, -⟩ := Option.map_eq_some_iff.mp hy
    exact hdead ⟨x, hx⟩
  refine ⟨?_, ?_, ?_, fun t o data hm => ?_, fun t o data h₁ h₂ hm => ?_, ?_⟩
  · rw [hU.history]
    exact hI.called
  · rw [hU.stack]
    exact hI.stack
  · rw [osStep_holds h]
    exact hI.held
  · rw [hU.history] at hm
    obtain ⟨p, c, hp, hmade, htold⟩ := hI.told t o data hm
    exact ⟨p, c, hp, hmade.onward hU.onward, htold.imp_left (hgone c)⟩
  · rw [hU.history] at hm
    obtain ⟨p, c, hp, hmade, hlast⟩ := hI.own t o data h₁ h₂ hm
    exact ⟨p, c, hp, hmade.onward hU.onward, hlast⟩
  · rw [hU.history]
    exact hI.order

/-- An idle thread has told nobody anything that it still has to see through. -/
lemma Telling.enter {u : Setup} {G : Config Action Action.Res State Tid Label} {t : Tid}
    {σ : Tid → Stage} (hG : Reachable .server u G) (hx : G.threads t = .idle)
    (hI : Telling σ G.state) (l : Label) :
    Telling (Function.update σ t l.stage) G.state := by
  have hidle := hG.server.threads t
  rw [hx] at hidle
  have hstage : (∀ c, l.stage ≠ .inside c) ∧ ∀ c, l.stage ≠ .told c := by
    cases l <;> exact ⟨fun _ => nofun, fun _ => nofun⟩
  have hcases : ∀ v q, Function.update σ t l.stage v = q → q ≠ l.stage → v ≠ t ∧ σ v = q := by
    rintro v q rfl hne
    by_cases hv : v = t
    · rw [hv, Function.update_self] at hne
      exact absurd rfl hne
    · exact ⟨hv, (Function.update_of_ne hv _ _).symm⟩
  refine ⟨fun v c hv => ?_, fun v c hv => ?_, fun v c hv => ?_, fun v o data hm => ?_, hI.own,
    hI.order⟩
  · exact hI.called v c (hcases v _ hv (hstage.1 c).symm).2
  · exact hI.stack v c (hcases v _ hv (hstage.1 c).symm).2
  · exact hI.held v c (hcases v _ hv (hstage.2 c).symm).2
  · obtain ⟨p, c, hp, hmade, htold⟩ := hI.told v o data hm
    refine ⟨p, c, hp, hmade, htold.imp_right fun ⟨w, hw⟩ => ⟨w, ?_⟩⟩
    have hwt : w ≠ t := by
      rintro rfl
      have hc := hI.held w c hw
      rw [hidle.1.2] at hc
      cases hc
    rw [Function.update_of_ne hwt, hw]

lemma telling_keeps (u : Setup) :
    stages.Keeps (machine .server) (Reachable .server u) Telling where
  code := code_follows
  act _ _ _ _ _ _ _ _ hG hx ha he hI := hI.act hG hx ha he
  env _ _ _ _ _ he hI := hI.osStep he
  enter _ _ l _ _ hG hx he hI := by
    obtain rfl := enter_eq he
    exact hI.enter hG hx l

lemma telling_init (u : Setup) : Telling firstStage (State.init u) := by
  have hin : ∀ t c, firstStage t ≠ .inside c ∧ firstStage t ≠ .told c := by
    intro t c
    cases t <;> exact ⟨nofun, nofun⟩
  refine ⟨fun t c h => absurd h (hin t c).1, fun t c h => absurd h (hin t c).1,
    fun t c h => absurd h (hin t c).2, fun _ _ _ h => absurd h List.not_mem_nil,
    fun _ _ _ h₁ _ h => ?_, fun p => ⟨0, .inl rfl⟩⟩
  cases h₁ <;> cases h

end Server

lemma Reachable.telling {u : Setup} {G : Config Action Action.Res State Tid Label}
    (h : Reachable .server u G) : ∃ σ, Server.Telling σ G.state := by
  obtain ⟨G₀, h0, hr⟩ := h
  cases h0
  obtain ⟨σ, -, hσ⟩ := (Server.telling_keeps u).sound (fun G' hr' => ⟨_, .server, hr'⟩) hr
    (onTrack_init u) (Server.telling_init u)
  exact ⟨σ, hσ⟩

/-! ## The result -/

/-- No step of the run so far called back for connection `p`. -/
def NotCalledBack (p : ConnectionPtr) (h : List Record) : Prop :=
  ∀ t k data, .callback t k (some p) data ∈ h → k = .onSentCompleted

/-- **The user sees the life of a connection exactly as long as nothing of it is shown.**  What is
shown after that is data and then at most one `onDisconnected`, with the connection's own object,
but never the `onConnected` that should come first. -/
theorem life_cycle_iff {u : Setup} {G₁ G : Config Action Action.Res State Tid Label}
    (h₁ : Reachable .server u G₁) (hr : (machine .server).Reaches G₁ G) {v : SOCKET}
    {p : ConnectionPtr} (hp : G₁.state.connections v = some (some p)) :
    ∃ c, Server.MadeFor G.state p c ∧
      (LifeCycle G.state.history p c ↔ NotCalledBack p G.state.history) ∧
      ∃ n, callbacksIn p G.state.history = List.replicate n .onDataReceived ∨
        callbacksIn p G.state.history = List.replicate n .onDataReceived ++ [.onDisconnected] := by
  obtain ⟨c, k, q, hq, hreg⟩ := h₁.server.ok.inv.mapped v _ hp
  obtain rfl := Option.some.inj hq
  have hmade := Server.madeFor_reaches h₁ hr hreg.madeFor
  obtain ⟨hG, -⟩ := Server.keyOf_reaches h₁ hr hreg.key
  obtain ⟨σ, hσ⟩ := hG.telling
  obtain ⟨n, hn⟩ := hσ.order p
  refine ⟨c, hmade, ⟨fun hlife t kind data hm => ?_, fun hnone => ⟨⟨0, ?_⟩, ?_⟩⟩, n, hn⟩
  · by_contra hsent
    have hmem := callbacksIn_mem hm hsent
    obtain ⟨m, hlife⟩ := hlife.order
    cases hc : callbacksIn p G.state.history with
    | nil =>
        rw [hc] at hmem
        cases hmem
    | cons first rest =>
        -- the first callback is not `onConnected`, with which a whole life begins
        rw [hc] at hlife hn
        obtain ⟨hfirst, -⟩ := List.cons_prefix_cons.mp hlife
        subst hfirst
        rcases hn with hn | hn <;> cases n <;> cases hn
  · rw [callbacksIn_nil fun r hr => ?_]
    · exact List.nil_prefix
    · by_contra hsome
      obtain ⟨kind, hkind⟩ := Option.ne_none_iff_exists'.mp hsome
      obtain ⟨hne, t, data, rfl⟩ := about_eq_some hkind
      exact hne (hnone t kind data hr)
  · intro t o data h₁' h₂ hh hlast
    obtain ⟨q, d, ho, hmade', hlast'⟩ := hσ.own t o data h₁' h₂ hh
    obtain rfl := Option.some.inj (hlast.symm.trans hlast')
    rw [ho, hG.server.ok.inv.objectUnique q p c hmade' hmade]

/-- A client connects and sends a byte: the first thing the user hears of it is the byte. -/
lemma data_before_connected : ∃ G, Reachable .server fullServer G ∧
    G.state.connections 101 = some (some 0) ∧
    callbacksIn 0 G.state.history = [.onDataReceived] := by
  obtain ⟨G, hG, hφ⟩ := reachable_of_run (.server (u := fullServer))
    (startMoves ++ acceptMoves 1 102 ++ .env (.complete ⟨.recv, 1, 1, maxBuffSize⟩ [7]) ::
      steps (.worker 0) (List.replicate 13 .ok))
    (φ := fun G => G.state.connections 101 = some (some 0) ∧
      callbacksIn 0 G.state.history = [.onDataReceived]) (by decide +kernel)
  exact ⟨G, hG, of_decide_eq_true hφ⟩

theorem life_cycle_iff_data : ∃ G c, Reachable .server fullServer G ∧
    Server.MadeFor G.state 0 c ∧
    (LifeCycle G.state.history 0 c ↔ NotCalledBack 0 G.state.history) := by
  obtain ⟨G, hG, hmap, -⟩ := data_before_connected
  obtain ⟨c, hmade, hiff, -⟩ := life_cycle_iff hG (.refl G) hmap
  exact ⟨G, c, hG, hmade, hiff⟩

theorem life_cycle_broken : ¬ ∀ G, Reachable .server fullServer G → ∀ v p c,
    G.state.connections v = some (some p) → Server.MadeFor G.state p c →
      LifeCycle G.state.history p c := by
  intro h
  obtain ⟨G, hG, hmap, hdata⟩ := data_before_connected
  obtain ⟨c, k, q, hq, hreg⟩ := hG.server.ok.inv.mapped 101 _ hmap
  obtain rfl := Option.some.inj hq
  obtain ⟨n, hn⟩ := (h G hG 101 0 c hmap hreg.madeFor).order
  rw [hdata] at hn
  exact nomatch (List.cons_prefix_cons.mp hn).1

end Alpl.Net
