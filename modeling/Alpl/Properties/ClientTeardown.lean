import Alpl.Client.Functions

/-!
# A client is never told

When the connection of a client ends, its workers do call `disconnect`.  But `init_receive` has put
the context of the connection into `the_socket_context_`, and `disconnect` takes any context with
the socket of `the_socket_context_` for the listening one: it prints a message and returns.  So a
client calls no `onDisconnected`, and keeps its entry, its context and its socket for ever.
-/

namespace Alpl.Net

open Interleaving

/-! ## What a client never does -/

/-- What no move of a client takes back. -/
structure Client.Keeps (s s' : State) : Prop where
  connections : ∀ v p, s.connections v = some p → s'.connections v = some p
  listed : ∀ c ∈ s.socketContexts, c ∈ s'.socketContexts
  handles : ∀ v k, s.handles v = some k → s'.handles v = some k
  told : ∀ t p data, .callback t .onDisconnected p data ∈ s'.history →
    .callback t .onDisconnected p data ∈ s.history
  closed : ∀ t v ok, .call t (.closesocket v) ok ∈ s'.history →
    .call t (.closesocket v) ok ∈ s.history

namespace Client

variable {u : Setup} {t : Tid} {a : Action} {o : Outcome} {s s' s'' : State} {v : SOCKET}
variable {c : ContextPtr} {G G' : Config Action Action.Res State Tid Label}

lemma Keeps.refl (s : State) : Keeps s s :=
  ⟨fun _ _ h => h, fun _ h => h, fun _ _ h => h, fun _ _ _ h => h, fun _ _ _ h => h⟩

lemma Keeps.trans (h : Keeps s s') (h' : Keeps s' s'') : Keeps s s'' where
  connections v p hv := h'.connections v p (h.connections v p hv)
  listed c hc := h'.listed c (h.listed c hc)
  handles v k hv := h'.handles v k (h.handles v k hv)
  told t p data hm := h.told t p data (h'.told t p data hm)
  closed t v ok hm := h.closed t v ok (h'.closed t v ok hm)

/-- The tables as they were, but for what was put in. -/
lemma exec_tables {r : a.Res} (hA : Allowed t a s) (he : exec t a o s = some (r, s')) :
    (∀ v p, s.connections v = some p → s'.connections v = some p) ∧
      (∀ c ∈ s.socketContexts, c ∈ s'.socketContexts) ∧ s'.handles = s.handles := by
  by_cases hf : a.files = false
  · have h := exec_sameTables hf _ he
    rw [h.connections, h.socketContexts]
    exact ⟨fun _ _ h => h, fun _ h => h, h.handles⟩
  cases a <;> first
    | exact absurd rfl hf
    | (cases hA; done)
    | skip
  case indexConnection v =>
    obtain ⟨-, rfl⟩ | ⟨hnone, -, rfl⟩ := exec_indexConnection he
    · exact ⟨fun _ _ h => h, fun _ h => h, rfl⟩
    · refine ⟨fun w q hw => ?_, fun _ h => h, rfl⟩
      have hne : w ≠ v := by
        rintro rfl
        cases hnone.symm.trans hw
      exact (Function.update_of_ne hne _ _).trans hw
  case pushFrontContext c =>
    cases o <;> cases he
    exact ⟨fun _ _ h => h, fun _ => List.mem_cons_of_mem c, rfl⟩

/-- **No allowed action takes anything back.** -/
lemma keeps_of_allowed {r : a.Res} (hA : Allowed t a s) (he : exec t a o s = some (r, s')) :
    Keeps s s' := by
  obtain ⟨hconnections, hlisted, hhandles⟩ := exec_tables hA he
  refine ⟨hconnections, hlisted, fun v k hv => hhandles ▸ hv, fun w p data hm => ?_,
    fun w v ok hm => ?_⟩
  · rcases (exec_effect _ he).history with h | ⟨r', hr', h⟩
    · rwa [h] at hm
    · rw [h] at hm
      rcases List.mem_cons.mp hm with rfl | hm
      · cases hr' with
        | handler k p data => exact hA.elim
        | connection q k p data => exact absurd rfl hA
      · exact hm
  · rcases (exec_effect _ he).history with h | ⟨r', hr', h⟩
    · rwa [h] at hm
    · rw [h] at hm
      rcases List.mem_cons.mp hm with rfl | hm
      · cases hr'
        cases hA
      · exact hm

lemma keeps_osStep {e : OsEvent} (h : osStep e s = some s') : Keeps s s' := by
  have hhistory := (undisturbed_osStep h).history
  have htables := osStep_sameTables h
  refine ⟨fun v p hv => htables.connections ▸ hv, fun c hc => htables.socketContexts ▸ hc,
    fun v k hv => htables.handles ▸ hv, ?_, ?_⟩
  · rw [hhistory]
    exact fun _ _ _ h => h
  · rw [hhistory]
    exact fun _ _ _ h => h

/-- Along every run of a client, nothing is taken back. -/
lemma keeps_of_reaches (hG : Reachable .client u G) (hr : (machine .client).Reaches G G') :
    Keeps G.state G'.state := by
  refine Machine.run_state (K := Reachable .client u) (fun G₁ t l s' _ hs' hk => ?_)
    (fun G₁ t a k c r s' h₁ hx hs' hk => hk.trans (keeps_of_allowed (h₁.client.allowed hx) hs'))
    (fun G₁ e s' _ hs' hk => hk.trans (keeps_osStep hs')) (fun G₁ hr₁ => ?_) hr (.refl _)
  · exact enter_eq hs' ▸ hk
  · obtain ⟨G₀, h0, hr₀⟩ := hG
    exact ⟨G₀, h0, hr₀.trans hr₁⟩

end Client

/-! ## The result -/

/-- A call of `onDisconnected`. -/
def Record.isDisconnected : Record → Bool
  | .callback _ .onDisconnected _ _ => true
  | _ => false

/-- What the handler should do for a connection that has ended: `v` is the socket of the connection
and `c` its context. -/
structure TornDown (v : SOCKET) (c : ContextPtr) (s : State) : Prop where
  told : s.history.countP Record.isDisconnected = 1
  erased : s.connections v = none
  removed : c ∉ s.socketContexts
  closed : ∃ t, .call t (.closesocket v) true ∈ s.history

/-- **A client does none of what it should do when its connection ends**, in no run and at no
time. -/
theorem client_never_torn_down {u : Setup} {v : SOCKET} (hv : v ≠ invalidSocket)
    {G G' : Config Action Action.Res State Tid Label}
    (hG : (machine .client).Reaches (clientInit u v) G) {c : ContextPtr}
    (hc : c ∈ G.state.socketContexts) (hG' : (machine .client).Reaches G G') :
    ¬ TornDown v c G'.state ∧ (∀ t p data, .callback t .onDisconnected p data ∉ G'.state.history) ∧
      G'.state.connections v = some (some clientConnection) ∧ c ∈ G'.state.socketContexts ∧
      G'.state.handles v = some 0 ∧ ∀ t w ok, .call t (.closesocket w) ok ∉ G'.state.history := by
  have hinit : Reachable .client u (clientInit u v) := ⟨_, .client v hv, .refl _⟩
  have hreach : Reachable .client u G := ⟨_, .client v hv, hG⟩
  have hkeeps := Client.keeps_of_reaches hinit (hG.trans hG')
  have hlisted := (Client.keeps_of_reaches hreach hG').listed c hc
  refine ⟨fun htorn => htorn.removed hlisted, fun t p data hm => ?_, ?_, hlisted, ?_,
    fun t w ok hm => ?_⟩
  · exact absurd (hkeeps.told t p data hm) List.not_mem_nil
  · exact hkeeps.connections v _ (by simp [clientInit, State.initClient])
  · exact hkeeps.handles v 0 (by simp [clientInit, State.initClient])
  · exact absurd (hkeeps.closed t w ok hm) List.not_mem_nil

/-- A client with one worker and all four callbacks. -/
def fullClient : Setup := ⟨⟨true, true, true, true⟩, 1, Nat.one_pos⟩

/-- A `Start` in which every call succeeds. -/
def startClientMoves : List (Event Tid Label Outcome OsEvent) :=
  steps .main (List.replicate 15 .ok ++ [.pending, .ok, .ok])

/-- The peer of the client goes away, and worker 0 serves the packet. -/
def hangUpMoves : List (Event Tid Label Outcome OsEvent) :=
  .env (.abort ⟨.recv, 0, 0, maxBuffSize⟩) :: steps (.worker 0) (List.replicate 12 .ok)

/-- What the two scripts show. -/
lemma hangUp_run {φ : Config Action Action.Res State Tid Label → Bool}
    (h : ((machine .client).run (clientInit fullClient 100)
      (startClientMoves ++ hangUpMoves)).any φ = true) :
    ∃ G, (machine .client).Reaches (clientInit fullClient 100) G ∧ φ G = true := by
  obtain ⟨G, hG, hφ⟩ := (Option.any_eq_true _ _).mp h
  exact ⟨G, ⟨_, hG⟩, hφ⟩

theorem client_never_torn_down_hangUp : ∃ G,
    (machine .client).Reaches (clientInit fullClient 100) G ∧ 0 ∈ G.state.socketContexts ∧
    .returned (.worker 0) (.disconnect (some 0)) commSuccess ∈ G.state.history ∧
    G.state.connections 100 = some (some clientConnection) ∧ G.state.handles 100 = some 0 := by
  obtain ⟨G, hG, hφ⟩ := hangUp_run (φ := fun G => 0 ∈ G.state.socketContexts ∧
    .returned (.worker 0) (.disconnect (some 0)) commSuccess ∈ G.state.history)
    (by decide +kernel)
  obtain ⟨hlisted, hreturned⟩ := of_decide_eq_true hφ
  have hnever := client_never_torn_down (by decide) hG hlisted (.refl G)
  exact ⟨G, hG, hlisted, hreturned, hnever.2.2.1, hnever.2.2.2.2.1⟩

/-- The peer hangs up.  The worker has called `disconnect`, which returned `COMM_SUCCESS`, and waits
for the next packet. -/
theorem client_not_torn_down : ∃ G, (machine .client).Reaches (clientInit fullClient 100) G ∧
    G.state.started ∧
    .returned (.worker 0) (.disconnect (some 0)) commSuccess ∈ G.state.history ∧
    (G.threads (.worker 0)).next = some (.getQueuedCompletionStatus handlerPort) ∧
    ¬ TornDown 100 0 G.state := by
  obtain ⟨G, hG, hφ⟩ := hangUp_run (φ := fun G => G.state.started ∧
    .returned (.worker 0) (.disconnect (some 0)) commSuccess ∈ G.state.history ∧
    (G.threads (.worker 0)).next = some (.getQueuedCompletionStatus handlerPort) ∧
    G.state.history.countP Record.isDisconnected = 0) (by decide +kernel)
  obtain ⟨hstarted, hreturned, hnext, hcount⟩ := of_decide_eq_true hφ
  refine ⟨G, hG, hstarted, hreturned, hnext, fun htorn => ?_⟩
  rw [htorn.told] at hcount
  cases hcount

end Alpl.Net
