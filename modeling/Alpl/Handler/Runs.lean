import Alpl.Handler.Functions

/-!
# Runs of a server and of a client

The surroundings of `Net/Server.lean` leave the members of the handler alone, so every run of a
server or a client keeps `Handler.contract` (`Reachable.handler`).

The last section has the moves from which concrete runs are put together.
-/

namespace Alpl.Net

open Interleaving

/-! ## The network and the owners leave the handler alone -/

lemma undisturbed_postPacket (s : State) (op : PendingOp) (ok : Bool) (n : ℕ) :
    Handler.Undisturbed s (s.postPacket op ok n) := by
  rw [State.postPacket]
  split <;> exact ⟨rfl, rfl, rfl, rfl, rfl, rfl, rfl, rfl, rfl, fun _ => rfl, rfl, rfl⟩

lemma undisturbed_fill (s : State) (k : SockId) (c : ContextPtr) (bytes : List UInt8) :
    Handler.Undisturbed s (s.fill k c bytes) := by
  refine ⟨rfl, rfl, rfl, rfl, rfl, rfl, rfl, rfl, rfl, fun j => ?_, rfl, rfl⟩
  simp only [State.fill, Function.update_apply]
  split
  · rename_i hj
    rw [hj]
  · rfl

lemma undisturbed_receiveData (s : State) (op : PendingOp) (bytes : List UInt8) :
    Handler.Undisturbed s (s.receiveData op bytes) := by
  rw [State.receiveData]
  split
  · exact ⟨rfl, rfl, rfl, rfl, rfl, rfl, rfl, rfl, rfl, fun _ => rfl, rfl, rfl⟩
  · exact undisturbed_fill s _ _ bytes
  · exact undisturbed_fill s _ _ bytes

lemma Handler.Undisturbed.trans {s₁ s₂ s₃ : State} (h : Handler.Undisturbed s₁ s₂)
    (h' : Handler.Undisturbed s₂ s₃) : Handler.Undisturbed s₁ s₃ where
  handlers := h'.handlers.trans h.handlers
  exiting := h'.exiting.trans h.exiting
  isRunning := h'.isRunning.trans h.isRunning
  workers := h'.workers.trans h.workers
  locker := h'.locker.trans h.locker
  iocpHandle := h'.iocpHandle.trans h.iocpHandle
  workersPort := h'.workersPort.trans h.workersPort
  tcpConnections := h'.tcpConnections.trans h.tcpConnections
  nextConnection := h'.nextConnection.trans h.nextConnection
  assoc k := (h'.assoc k).trans (h.assoc k)
  stack := h'.stack.trans h.stack
  history := h'.history.trans h.history

lemma undisturbed_osStep {e : OsEvent} {s s' : State} (h : osStep e s = some s') :
    Handler.Undisturbed s s' := by
  have herase : ∀ op, Handler.Undisturbed s { s with pending := s.pending.erase op } := fun _ =>
    ⟨rfl, rfl, rfl, rfl, rfl, rfl, rfl, rfl, rfl, fun _ => rfl, rfl, rfl⟩
  obtain ⟨op, bytes, rfl, -, -, rfl⟩ | ⟨op, rfl, -, rfl⟩ := osStep_cases h
  · exact ((herase op).trans (undisturbed_receiveData _ op bytes)).trans
      (undisturbed_postPacket _ op true bytes.length)
  · exact (herase op).trans (undisturbed_postPacket _ op false 0)

lemma enter_eq {role : Role} {t : Tid} {l : Label} {s s' : State} (h : enter role t l s = some s') :
    s' = s := by
  unfold enter at h
  split at h
  · split at h <;> cases h
    rfl
  · split at h <;> cases h
    rfl
  · cases h

/-- Nobody becomes a worker later on. -/
lemma enter_ne {role : Role} {t : Tid} {l : Label} {s s' : State} (h : enter role t l s = some s')
    (q : Port) : l ≠ .workerThread q := by
  rintro rfl
  cases t <;> cases h

lemma handler_holds (role : Role) : Handler.contract.Holds (machine role) :=
  Handler.contract_holds (fun _ _ _ => undisturbed_osStep) fun _ _ _ _ h =>
    ⟨enter_eq h, enter_ne h⟩

/-! ## The beginning -/

lemma handler_inv_init (u : Setup) : Handler.Inv (State.init u) where
  unnamed _ _ := rfl
  objects _ _ := nofun
  port := .inr ⟨rfl, fun _ _ _ => nofun, fun _ _ _ => nofun⟩
  emptyCall _ _ := nofun
  sent t p rc h h' hh := by
    cases h <;> cases hh
  lock t ht := absurd (CriticalSection.heldBy_free t) ht

lemma handler_inv_initClient (u : Setup) (v : SOCKET) : Handler.Inv (State.initClient u v) where
  unnamed p hp := by
    have hne : p ≠ clientConnection := Nat.ne_of_gt hp
    simp [State.initClient, hne]
  objects p y hy := by
    simp only [State.initClient, Function.update_apply] at hy
    split at hy <;> cases hy
    exact ⟨rfl, rfl⟩
  port := .inr ⟨rfl, fun _ _ _ => nofun, fun _ _ _ => nofun⟩
  emptyCall _ _ := nofun
  sent t p rc h h' hh := by
    cases h <;> cases hh
  lock t ht := absurd (CriticalSection.heldBy_free t) ht

lemma handler_threads_init {role : Role} {u : Setup} {l : Label} {s : State} (t : Tid)
    (hl : ∀ q, l ≠ .workerThread q) (hlock : s.locker = CriticalSection.free)
    (hstack : s.stack = fun _ => []) (hport : s.workersPort = handlerPort) :
    Handler.contract.ThreadOk (machine role) t (initThreads u l t) s := by
  have hat : ∀ Φ : State → Prop, Φ s → Handler.At t 0 [] Φ s := fun Φ hΦ =>
    ⟨by rw [hlock]; exact CriticalSection.heldBy_free t, by rw [hstack], hΦ⟩
  have hrun : ∀ l', Handler.WaitsOn l' s →
      Handler.contract.ThreadOk (machine role) t (.running (code l')) s := fun l' h =>
    ⟨_, (handler_holds role).entry_stable t l', hat _ h, Handler.safe_code l'⟩
  cases t with
  | main => exact hrun l fun q hq => absurd hq (hl q)
  | worker i =>
      rw [initThreads_worker]
      split
      · refine hrun (.workerThread handlerPort) fun q hq => ?_
        cases hq
        exact hport.symm
      · exact hat _ trivial
  | user i => exact hat _ trivial

lemma handler_good_begins {role : Role} {u : Setup} {G : Config Action Action.Res State Tid Label}
    (h : Begins u role G) : Handler.contract.Good (machine role) G := by
  cases h with
  | server =>
      exact ⟨⟨trivial, handler_inv_init u⟩, fun t =>
        handler_threads_init t (fun _ => nofun) rfl rfl rfl⟩
  | client v hv =>
      exact ⟨⟨trivial, handler_inv_initClient u v⟩, fun t =>
        handler_threads_init t (fun _ => nofun) rfl rfl rfl⟩

/-- **Every run keeps the contract of the handler.** -/
theorem Reachable.handler {role : Role} {u : Setup}
    {G : Config Action Action.Res State Tid Label} (h : Reachable role u G) :
    Handler.contract.Good (machine role) G := by
  obtain ⟨G₀, h0, hr⟩ := h
  exact (handler_holds role).sound (fun _ _ => trivial) hr (handler_good_begins h0)

/-- A run that goes on. -/
lemma Reachable.trans {role : Role} {u : Setup} {G G' : Config Action Action.Res State Tid Label}
    (hG : Reachable role u G) (hr : (machine role).Reaches G G') : Reachable role u G' := by
  obtain ⟨G₀, h0, hr₀⟩ := hG
  exact ⟨G₀, h0, hr₀.trans hr⟩

/-- What was set up before the run stays so. -/
structure SetUp (u : Setup) (s : State) : Prop where
  handlers : s.handlers = u.handlers
  isRunning : s.isRunning = true
  workersPort : s.workersPort = handlerPort
  workers : s.numWorkerThreads = u.workers

lemma Reachable.setUp {role : Role} {u : Setup} {G : Config Action Action.Res State Tid Label}
    (h : Reachable role u G) : SetUp u G.state := by
  obtain ⟨G₀, h0, hr⟩ := h
  refine (handler_holds role).sound_and (fun _ _ => trivial) ?_ hr (handler_good_begins h0) ?_
  · exact fun _ s s' ho hs => ⟨ho.handlers.trans hs.handlers, ho.isRunning.trans hs.isRunning,
      ho.workersPort.trans hs.workersPort, ho.workers.trans hs.workers⟩
  · cases h0 with
    | server => exact ⟨Handlers.copySet_none _, rfl, rfl, rfl⟩
    | client v hv => exact ⟨Handlers.copySet_none _, rfl, rfl, rfl⟩

/-- Threads that are no workers of the handler never begin to be. -/
lemma idle_of_le {role : Role} {u : Setup} {G : Config Action Action.Res State Tid Label}
    (hG : Reachable role u G) {i : ℕ} (hi : u.workers ≤ i) : G.threads (.worker i) = .idle := by
  obtain ⟨G₀, h0, hr⟩ := hG
  have hstep : ∀ G e G', (machine role).step G e = some G' → G.threads (.worker i) = .idle →
      G'.threads (.worker i) = .idle := by
    intro G e G' he hidle
    have hne : e.mover ≠ some (.worker i) := by
      intro hm
      cases e with
      | enter t l =>
          obtain rfl := Option.some.inj hm
          rw [Machine.step, hidle] at he
          cases he
      | step t c =>
          obtain rfl := Option.some.inj hm
          rw [Machine.step, hidle] at he
          cases he
      | env e => cases hm
    have hrun : (machine role).run G [e] = some G' := by
      rw [Machine.run, he]
      rfl
    rw [Machine.run_threads hrun (by simpa using hne), hidle]
  refine Machine.run_invariant hstep hr ?_
  cases h0 <;> exact if_neg (Nat.not_lt.mpr hi)

/-! ## Scripts of runs -/

/-- Thread `t` performs its next actions, with these outcomes. -/
def steps (t : Tid) (os : List Outcome) : List (Event Tid Label Outcome OsEvent) :=
  os.map (.step t)

/-- A `Start` in which every call succeeds: the listening socket is 100, the first socket to accept
into is 101. -/
def startMoves : List (Event Tid Label Outcome OsEvent) :=
  steps .main ([.ok, .ok, .socket 100, .ok, .ok, .ok] ++ List.replicate 11 .ok ++
    [.ok, .ok, .socket 101, .ok, .ok, .ok, .ok, .pending, .ok, .ok, .ok])

/-- A client connects to the socket object `k`, sends nothing yet, and worker 0 serves the accept;
the next socket to accept into is `v`. -/
def acceptMoves (k : SockId) (v : SOCKET) : List (Event Tid Label Outcome OsEvent) :=
  .env (.complete ⟨.accept k, 0, 0, acceptReceiveLength⟩ []) ::
    steps (.worker 0) (List.replicate 28 .ok ++
      [.pending, .ok, .ok, .ok, .socket v, .ok, .ok, .ok, .ok, .pending, .ok, .ok])

/-- The connection with socket object `k` and context `c` breaks, and worker 0 tears it down. -/
def breakMoves (k : SockId) (c : ContextPtr) : List (Event Tid Label Outcome OsEvent) :=
  .env (.abort ⟨.recv, k, c, maxBuffSize⟩) :: steps (.worker 0) (List.replicate 26 .ok)

/-- A thread of the user sends on connection `p`, and the socket takes all bytes. -/
def sendMoves (p : ConnectionPtr) (data : List UInt8) : List (Event Tid Label Outcome OsEvent) :=
  .enter (.user 0) (.send p data) ::
    steps (.user 0) [.ok, .ok, .ok, .bytes data.length, .ok, .ok, .ok, .ok, .ok]

/-- A server with two workers, as on a machine with one processor, and all four callbacks. -/
def fullServer : Setup := ⟨⟨true, true, true, true⟩, 2, Nat.two_pos⟩

/-- The threads of `fullServer`; all others are threads of the user. -/
def crew : List Tid := [.main, .worker 0, .worker 1]

/-- What a script shows. -/
lemma reachable_of_run {role : Role} {u : Setup} {G₀ : Config Action Action.Res State Tid Label}
    (h0 : Begins u role G₀) (es : List (Event Tid Label Outcome OsEvent))
    {φ : Config Action Action.Res State Tid Label → Bool}
    (h : ((machine role).run G₀ es).any φ = true) :
    ∃ G, Reachable role u G ∧ φ G = true := by
  obtain ⟨G, hG, hφ⟩ := (Option.any_eq_true _ _).mp h
  exact ⟨G, ⟨G₀, h0, es, hG⟩, hφ⟩

/-- What a script shows in which no thread of the user moves: all of them are idle. -/
lemma reachable_of_moves (es : List (Event Tid Label Outcome OsEvent))
    (hes : ∀ e ∈ es, e.mover.all (· ∈ crew) = true)
    {φ : Config Action Action.Res State Tid Label → Bool}
    (h : ((machine .server).run (serverInit fullServer) es).any φ = true) :
    ∃ G, Reachable .server fullServer G ∧ φ G = true ∧
      ∀ t ∉ crew, G.threads t = .idle := by
  obtain ⟨G, hG, hφ⟩ := (Option.any_eq_true _ _).mp h
  refine ⟨G, ⟨_, .server, es, hG⟩, hφ, fun t ht => ?_⟩
  have hne : ∀ e ∈ es, e.mover ≠ some t := by
    intro e he hmover
    have hmem := hes e he
    rw [hmover] at hmem
    exact ht (of_decide_eq_true hmem)
  rw [Machine.run_threads hG hne]
  cases t with
  | main => exact absurd List.mem_cons_self ht
  | user i => rfl
  | worker i =>
      refine if_neg fun hi : i < 2 => ht ?_
      obtain rfl | rfl : i = 0 ∨ i = 1 := by omega
      · simp [crew]
      · simp [crew]

end Alpl.Net
