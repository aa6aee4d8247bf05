import Alpl.Net.Members
import Alpl.Net.Server

/-!
# Members that were never assigned

The constructor of `IocpHandler` leaves `worker_threads_`, `exitHandle_` and `the_socket_context_`
unset, and `Start` assigns them one after the other on a way that can end anywhere.  `Stop` reads
all three whatever `Start` has come to, and so does the destructor with the first, when a later
`Start` replaces the handler.

Whether a sequence of calls is free of such reads is decided by the answers of Windows in the latest
`Start` that made a handler (`Call.Fine`).
-/

namespace Alpl.Net

/-! ## The answers that matter -/

/-- The port and the event were made. -/
def StartOutcomes.HandlerMade (o : StartOutcomes) : Prop :=
  o.createPort.isSome = true ∧ o.createEvent.isSome = true

/-- The number of workers that `init_worker_threads` creates. -/
def StartOutcomes.workers (o : StartOutcomes) : ℕ :=
  min (o.numberOfProcessors * 2 % 2 ^ 32) maxWorkerThreads

/-- `Start` came as far as associating the listening socket with the port, and that succeeded. -/
structure StartOutcomes.Associated (o : StartOutcomes) : Prop where
  made : o.HandlerMade
  threads : ∀ i < o.workers, (o.createThread i).isSome = true
  resolved : o.getaddrinfo = true
  socket : o.listenSocket ≠ invalidSocket
  bound : o.bind = true
  listening : o.listen = true
  entered : o.enterCriticalSection = true
  associated : o.associate.isSome = true

/-- The latest `Start` that made a handler, after a call. -/
def Call.made : Call → Option StartOutcomes → Option StartOutcomes
  | .start o, l => if o.initializeCriticalSection then some o else l
  | .stop _, l => l

/-- The latest `Start` that made a handler. -/
def lastMade (cs : List Call) : Option StartOutcomes := cs.foldl (fun l c => c.made l) none

/-- A `Start` that makes a handler finds none, or one whose port and event were made; a `Stop` finds
one whose listening socket was associated. -/
def Call.Fine : Call → Option StartOutcomes → Prop
  | .start o, l => o.initializeCriticalSection = true → ∀ p, l = some p → p.HandlerMade
  | .stop _, l => ∃ p, l = some p ∧ p.Associated

/-! ## The handler -/

/-- A handler that `start` has brought up. -/
structure IocpHandler.Up (h : IocpHandler) : Prop where
  workers : ∃ ws, h.workerThreads = some (some ws) ∧
    ∀ i < h.numWorkerThreads, ∃ x, ws[i]? = some (some x)
  event : h.exitHandle ≠ none

/-- The handler has everything that `exiting` reads. -/
structure IocpHandler.Stoppable (h : IocpHandler) : Prop extends h.Up where
  the : ∃ l, h.theSocketContext = some (some l)

/-- A loop of reads succeeds if each of them does. -/
lemma mapM_ok_iff {α β ε : Type} {f : α → Except ε β} {l : List α} :
    (∃ ys, l.mapM f = .ok ys) ↔ ∀ x ∈ l, ∃ y, f x = .ok y := by
  induction l with
  | nil => simp [pure, Except.pure]
  | cons x l ih =>
      simp only [List.mapM_cons, List.forall_mem_cons, ← ih]
      cases hx : f x with
      | error e => simp [bind, Except.bind]
      | ok y =>
          cases hl : l.mapM f with
          | error e => simp [bind, Except.bind]
          | ok ys => simp [bind, Except.bind, pure, Except.pure]

lemma length_of_mapM {α β ε : Type} {f : α → Except ε β} {l : List α} {ys : List β}
    (h : l.mapM f = .ok ys) : ys.length = l.length := by
  induction l generalizing ys with
  | nil => cases h; rfl
  | cons x l ih =>
      rw [List.mapM_cons] at h
      cases hx : f x with
      | error e => rw [hx] at h; cases h
      | ok y =>
          cases hl : l.mapM f with
          | error e => rw [hx, hl] at h; cases h
          | ok zs =>
              rw [hx, hl] at h
              cases h
              rw [List.length_cons, List.length_cons, ih hl]

lemma readWorkerThreads_ok_iff {ws : List (Option Handle)} {n : ℕ} :
    (∃ hs, readWorkerThreads ws n = .ok hs) ↔ ∀ i < n, ∃ x, ws[i]? = some (some x) := by
  rw [readWorkerThreads, mapM_ok_iff]
  simp only [List.mem_range]
  refine forall₂_congr fun i _ => ?_
  rcases hi : ws[i]? with _ | _ | x <;> simp [readMember]

/-! ### The workers -/

/-- The loop of `init_worker_threads`: it succeeds if every worker is created, and then every
element of the array is set; otherwise an element stays unset. -/
lemma createWorkers_spec {f : ℕ → Option Handle} {k tid : ℕ} {ws : List (Option Handle)}
    (hlen : ws.length = tid + k) (hset : ∀ i < tid, ∃ x, ws[i]? = some (some x))
    (hrest : ∀ i, tid ≤ i → i < tid + k → ws[i]? = some none) :
    ((IocpHandler.createWorkers f k tid ws).1 = commSuccess ↔
      ∀ i, tid ≤ i → i < tid + k → (f i).isSome = true) ∧
    ((∀ i < tid + k, ∃ x, (IocpHandler.createWorkers f k tid ws).2[i]? = some (some x)) ↔
      ∀ i, tid ≤ i → i < tid + k → (f i).isSome = true) := by
  induction k generalizing tid ws with
  | zero =>
      refine ⟨⟨fun _ i hi hik => absurd hik (by omega), fun _ => rfl⟩,
        ⟨fun _ i hi hik => absurd hik (by omega), fun _ => hset⟩⟩
  | succ k ih =>
      rw [IocpHandler.createWorkers]
      cases hf : f tid with
      | none =>
          have hnot : ¬ ∀ i, tid ≤ i → i < tid + (k + 1) → (f i).isSome = true := by
            intro h
            have := h tid (Nat.le_refl _) (by omega)
            rw [hf] at this
            cases this
          refine ⟨⟨nofun, fun h => absurd h hnot⟩, ⟨fun h => ?_, fun h => absurd h hnot⟩⟩
          obtain ⟨x, hx⟩ := h tid (by omega)
          exact nomatch (hrest tid (Nat.le_refl _) (by omega)).symm.trans hx
      | some thread =>
          have hall : (∀ i, tid + 1 ≤ i → i < tid + 1 + k → (f i).isSome = true) ↔
              ∀ i, tid ≤ i → i < tid + (k + 1) → (f i).isSome = true := by
            refine ⟨fun h i hi hik => ?_, fun h i hi hik => h i (by omega) (by omega)⟩
            rcases Nat.eq_or_lt_of_le hi with rfl | hlt
            · rw [hf]
              rfl
            · exact h i hlt (by omega)
          rw [← hall, show tid + (k + 1) = tid + 1 + k by omega]
          refine ih (by rw [List.length_set]; omega) (fun i hi => ?_) fun i hi hik => ?_
          · by_cases htid : i = tid
            · subst htid
              exact ⟨thread, List.getElem?_set_self (by omega)⟩
            · rw [List.getElem?_set_ne (Ne.symm htid)]
              exact hset i (by omega)
          · rw [List.getElem?_set_ne (by omega)]
            exact hrest i (by omega) (by omega)

/-- What `init_worker_threads` makes of a new handler. -/
lemma initWorkerThreads_spec (o : StartOutcomes) {h : IocpHandler}
    (hn : h.numWorkerThreads = maxWorkerThreads) : ∃ rc ws, h.initWorkerThreads o =
      (rc, { h with numWorkerThreads := o.workers, workerThreads := some (some ws) }) ∧
      (rc = commSuccess ↔ ∀ i < o.workers, (o.createThread i).isSome = true) ∧
      ((∀ i < o.workers, ∃ x, ws[i]? = some (some x)) ↔
        ∀ i < o.workers, (o.createThread i).isSome = true) := by
  have hspec := @createWorkers_spec o.createThread o.workers 0 (List.replicate o.workers none)
    (by simp) (fun i hi => absurd hi (Nat.not_lt_zero i))
    fun i _ hi => by rw [List.getElem?_replicate, if_pos (by omega)]
  simp only [Nat.zero_add, Nat.zero_le, true_implies] at hspec
  have hworkers : min (o.numberOfProcessors * 2 % 2 ^ 32) h.numWorkerThreads = o.workers := by
    rw [hn]
    rfl
  refine ⟨_, _, ?_, hspec⟩
  simp only [IocpHandler.initWorkerThreads, hworkers]

lemma initHandler_failed {o : StartOutcomes} (hm : ¬ o.HandlerMade) (h : IocpHandler) :
    ∃ h', h.initHandler o = (commInitFailed, h') ∧ h'.workerThreads = h.workerThreads ∧
      h'.theSocketContext = h.theSocketContext := by
  rw [IocpHandler.initHandler]
  cases hport : o.createPort with
  | none => exact ⟨_, rfl, rfl, rfl⟩
  | some port =>
      cases hevent : o.createEvent with
      | none => exact ⟨_, rfl, rfl, rfl⟩
      | some event => exact absurd ⟨by rw [hport]; rfl, by rw [hevent]; rfl⟩ hm

lemma initHandler_made {o : StartOutcomes} (hm : o.HandlerMade) (h : IocpHandler) :
    h.initHandler o =
      (commSuccess, { h with iocpHandle := o.createPort, exitHandle := some o.createEvent }) := by
  obtain ⟨port, hport⟩ := Option.isSome_iff_exists.mp hm.1
  obtain ⟨event, hevent⟩ := Option.isSome_iff_exists.mp hm.2
  rw [IocpHandler.initHandler, hport, hevent]
  rfl

/-- `start` on a new handler, where nothing fails. -/
lemma start_new_success {o : StartOutcomes} (hm : o.HandlerMade)
    (ht : ∀ i < o.workers, (o.createThread i).isSome = true) : ∃ ws,
    (IocpHandler.new maxWorkerThreads).start o = (commSuccess,
      { IocpHandler.new maxWorkerThreads with
        isRunning := true, iocpHandle := o.createPort, exitHandle := some o.createEvent,
        numWorkerThreads := o.workers, workerThreads := some (some ws) }) ∧
      ∀ i < o.workers, ∃ x, ws[i]? = some (some x) := by
  obtain ⟨rc, ws, heq, hrc, hset⟩ := initWorkerThreads_spec o
    (h := { IocpHandler.new maxWorkerThreads with
      iocpHandle := o.createPort, exitHandle := some o.createEvent }) rfl
  obtain rfl := hrc.mpr ht
  refine ⟨ws, ?_, hset.mpr ht⟩
  simp only [IocpHandler.start, initHandler_made hm, heq, ne_eq, not_true_eq_false, if_false]

/-- `start` on a new handler. -/
lemma start_new (o : StartOutcomes) : ∃ rc h,
    (IocpHandler.new maxWorkerThreads).start o = (rc, h) ∧ h.theSocketContext = none ∧
      (h.workerThreads ≠ none ↔ o.HandlerMade) ∧
      (rc = commSuccess ↔ o.HandlerMade ∧ ∀ i < o.workers, (o.createThread i).isSome = true) ∧
      (rc = commSuccess → h.Up) := by
  by_cases hm : o.HandlerMade
  · by_cases ht : ∀ i < o.workers, (o.createThread i).isSome = true
    · obtain ⟨ws, hstart, hset⟩ := start_new_success hm ht
      exact ⟨_, _, hstart, rfl, ⟨fun _ => hm, fun _ => nofun⟩, ⟨fun _ => ⟨hm, ht⟩, fun _ => rfl⟩,
        fun _ => ⟨⟨ws, rfl, hset⟩, nofun⟩⟩
    · obtain ⟨rc, ws, heq, hrc, -⟩ := initWorkerThreads_spec o
        (h := { IocpHandler.new maxWorkerThreads with
          iocpHandle := o.createPort, exitHandle := some o.createEvent }) rfl
      have hne : rc ≠ commSuccess := fun h => ht (hrc.mp h)
      have hstart : (IocpHandler.new maxWorkerThreads).start o = (commInitFailed,
          { IocpHandler.new maxWorkerThreads with
            iocpHandle := o.createPort, exitHandle := some o.createEvent,
            numWorkerThreads := o.workers, workerThreads := some (some ws) }) := by
        simp only [IocpHandler.start, initHandler_made hm, heq, ne_eq, not_true_eq_false, if_false,
          hne, not_false_eq_true, if_true]
      exact ⟨_, _, hstart, rfl, ⟨fun _ => hm, fun _ => nofun⟩, ⟨nofun, fun h => absurd h.2 ht⟩,
        nofun⟩
  · obtain ⟨h, hh, hworkers, hthe⟩ := initHandler_failed hm (.new maxWorkerThreads)
    have hstart : (IocpHandler.new maxWorkerThreads).start o = (commInitFailed, h) := by
      rw [IocpHandler.start, hh]
      rfl
    exact ⟨_, _, hstart, hthe, ⟨fun hw => absurd hworkers hw, fun h => absurd h hm⟩,
      ⟨nofun, fun h => absurd h.1 hm⟩, nofun⟩

/-! ## The server -/

/-- `start_accept` reads `the_socket_context_` where it is set. -/
lemma startAccept_ok (o : StartOutcomes) {h : IocpHandler} {l : SocketContext}
    (hl : h.theSocketContext = some (some l)) :
    ∃ rc l', h.startAccept o = .ok (rc, { h with theSocketContext := some (some l') }) := by
  simp only [IocpHandler.startAccept, hl, readMember, usePointer, bind, Except.bind]
  split
  · exact ⟨_, _, rfl⟩
  · split <;> exact ⟨_, _, rfl⟩

/-- `updateCompletionPort` answers `NULL` exactly if one of its two calls fails. -/
lemma updateCompletionPort_spec (o : StartOutcomes) (v : SOCKET) (op : LastIoOperation)
    (h : IocpHandler) : ∃ c port,
      h.updateCompletionPort o v op = (c, { h with iocpHandle := port }) ∧
      (c.isSome = true ↔ o.enterCriticalSection = true ∧ o.associate.isSome = true) := by
  rw [IocpHandler.updateCompletionPort]
  cases henter : o.enterCriticalSection with
  | false => exact ⟨none, h.iocpHandle, rfl, nofun, nofun⟩
  | true =>
      cases hassoc : o.associate with
      | none => exact ⟨none, none, rfl, nofun, nofun⟩
      | some port => exact ⟨some (SocketContext.new v op), some port, rfl, by simp, by simp⟩

/-- `init_accept` on a handler that is up. -/
lemma initAccept_ok (o : StartOutcomes) {srv : TcpServer} {h : IocpHandler} {v : SOCKET}
    (hh : srv.iocph = some h) (hv : srv.ls = some v) (hup : h.Up) :
    ∃ rc h', srv.initAccept o = .ok (rc, { srv with iocph := some h' }) ∧
      h'.workerThreads = h.workerThreads ∧
      (h'.Stoppable ↔ o.enterCriticalSection = true ∧ o.associate.isSome = true) := by
  obtain ⟨c, port, hupdate, hc⟩ := updateCompletionPort_spec o v .ioAccept h
  simp only [TcpServer.initAccept, hh, hv, readMember, usePointer, bind, Except.bind, hupdate]
  rw [← hc]
  cases c with
  | none =>
      refine ⟨_, _, rfl, rfl, fun hs => ?_, nofun⟩
      obtain ⟨l, hl⟩ := hs.the
      cases hl
  | some c =>
      have hstoppable : ∀ l, IocpHandler.Stoppable
          { h with iocpHandle := port, theSocketContext := some (some l) } := fun l =>
        ⟨⟨hup.workers, hup.event⟩, l, rfl⟩
      obtain ⟨rc, l, haccept⟩ := startAccept_ok o (l := c)
        (h := { h with iocpHandle := port, theSocketContext := some (some c) }) rfl
      simp only [haccept]
      split
      · exact ⟨_, _, rfl, rfl, fun _ => rfl, fun _ => hstoppable c⟩
      · split
        · exact ⟨_, _, rfl, rfl, fun _ => rfl, fun _ => hstoppable c⟩
        · split <;> exact ⟨_, _, rfl, rfl, fun _ => rfl, fun _ => hstoppable l⟩

/-- `create_listener` leaves the handler alone. -/
lemma createListener_spec (o : StartOutcomes) (srv : TcpServer) : ∃ rc srv',
    srv.createListener o = (rc, srv') ∧ srv'.iocph = srv.iocph ∧
      (rc = commSuccess ↔ o.getaddrinfo = true ∧ o.listenSocket ≠ invalidSocket ∧
        o.bind = true ∧ o.listen = true) ∧
      (rc = commSuccess → srv'.ls = some o.listenSocket) := by
  rw [TcpServer.createListener]
  cases hresolved : o.getaddrinfo with
  | false => exact ⟨_, _, rfl, rfl, ⟨nofun, nofun⟩, nofun⟩
  | true =>
      by_cases hv : o.listenSocket = invalidSocket
      · simp only [hv]
        exact ⟨_, _, rfl, rfl, ⟨nofun, fun h => absurd rfl h.2.1⟩, nofun⟩
      · simp only [hv]
        cases hbound : o.bind with
        | false => exact ⟨_, _, rfl, rfl, ⟨nofun, nofun⟩, nofun⟩
        | true =>
            cases hlisten : o.listen with
            | false => exact ⟨_, _, rfl, rfl, ⟨nofun, nofun⟩, nofun⟩
            | true => exact ⟨_, _, rfl, rfl, by simp [hv], fun _ => rfl⟩

/-- What the latest `Start` that made a handler has left in `iocph_`. -/
def Leaves : Option StartOutcomes → TcpServer → Prop
  | none, srv => srv.iocph = none
  | some o, srv => ∃ h, srv.iocph = some h ∧ (h.workerThreads ≠ none ↔ o.HandlerMade) ∧
      (h.Stoppable ↔ o.Associated)

/-- `init`, when there is no handler yet or the destructor of the old one can read
`worker_threads_`. -/
lemma init_made {o : StartOutcomes} {srv : TcpServer} (hinit : o.initializeCriticalSection = true)
    (hold : ∀ h, srv.iocph = some h → h.workerThreads ≠ none) :
    srv.init o = .ok (commSuccess, { srv with iocph := some (.new maxWorkerThreads) }) := by
  have hset : srv.setIocpHandler =
      .ok (commSuccess, { srv with iocph := some (.new maxWorkerThreads) }) := by
    rw [TcpServer.setIocpHandler]
    cases hh : srv.iocph with
    | none => rfl
    | some h =>
        obtain ⟨ws, hws⟩ := Option.ne_none_iff_exists'.mp (hold h hh)
        simp only [IocpHandler.destroy, hws]
        rfl
  simp only [TcpServer.init, hinit, hset, bind, Except.bind]
  rfl

/-- `Start` beyond `init`. -/
lemma start_made (o : StartOutcomes) {srv : TcpServer} (hinit : o.initializeCriticalSection = true)
    (hold : ∀ h, srv.iocph = some h → h.workerThreads ≠ none) :
    ∃ rc srv', srv.start o = .ok (rc, srv') ∧ Leaves (some o) srv' := by
  have hinit := init_made hinit hold
  obtain ⟨rc, h, hstart, hthe, hworkers, hrc, hup⟩ := start_new o
  have hhandler : TcpServer.startHandler o { srv with iocph := some (.new maxWorkerThreads) } =
      .ok (rc, { srv with iocph := some h }) := by
    simp only [TcpServer.startHandler, usePointer, bind, Except.bind, hstart]
    rfl
  have hunset : ¬ h.Stoppable := fun hs => by
    obtain ⟨l, hl⟩ := hs.the
    rw [hthe] at hl
    cases hl
  simp only [TcpServer.start, bind, Except.bind, hinit, hhandler, ne_eq, not_true_eq_false,
    if_false]
  by_cases hup' : rc = commSuccess
  · obtain ⟨hmade, hthreads⟩ := hrc.mp hup'
    obtain ⟨rc₂, srv₂, hlisten, hh₂, hrc₂, hls⟩ :=
      createListener_spec o { srv with iocph := some h }
    simp only [hup', hlisten, not_true_eq_false, if_false]
    by_cases hlistens : rc₂ = commSuccess
    · obtain ⟨hresolved, hv, hbound, hlistening⟩ := hrc₂.mp hlistens
      obtain ⟨rc₃, h₃, haccept, hworkers₃, hs₃⟩ := initAccept_ok o hh₂ (hls hlistens) (hup hup')
      have hleaves : Leaves (some o) { srv₂ with iocph := some h₃ } := by
        refine ⟨h₃, rfl, by rw [hworkers₃]; exact hworkers, hs₃.trans ⟨fun ha => ?_, fun ha => ?_⟩⟩
        · exact ⟨hmade, hthreads, hresolved, hv, hbound, hlistening, ha.1, ha.2⟩
        · exact ⟨ha.entered, ha.associated⟩
      simp only [hlistens, haccept, not_true_eq_false, if_false]
      split <;> exact ⟨_, _, rfl, hleaves⟩
    · simp only [hlistens, not_false_eq_true, if_true]
      exact ⟨_, _, rfl, h, hh₂, hworkers, iff_of_false hunset fun ha =>
        hlistens (hrc₂.mpr ⟨ha.resolved, ha.socket, ha.bound, ha.listening⟩)⟩
  · simp only [hup', not_false_eq_true, if_true]
    exact ⟨_, _, rfl, h, rfl, hworkers, iff_of_false hunset fun ha =>
      hup' (hrc.mpr ⟨ha.made, ha.threads⟩)⟩

/-- `Stop` on a handler that is up, with `the_socket_context_` set. -/
lemma stop_up (o : StopOutcomes) {srv : TcpServer} {h : IocpHandler} {l : SocketContext}
    (hh : srv.iocph = some h) (hup : h.Up) (hl : h.theSocketContext = some (some l)) : ∃ ws,
      srv.stop o = .ok (commSuccess, { srv with iocph := some { h with
        isExiting := true
        workerThreads := some (some ws)
        theSocketContext := some (some { l with socket := invalidSocket }) } }) ∧
      ∀ i < h.numWorkerThreads, ∃ x, ws[i]? = some (some x) := by
  obtain ⟨ws, hws, hset⟩ := hup.workers
  obtain ⟨e, he⟩ := Option.ne_none_iff_exists'.mp hup.event
  obtain ⟨handles, hread⟩ := readWorkerThreads_ok_iff.mpr hset
  have hclosed : ∀ i < h.numWorkerThreads, ∃ x : Handle,
      (handles.map fun _ => some invalidHandleValue)[i]? = some (some x) := by
    have hlength := length_of_mapM hread
    rw [List.length_range] at hlength
    intro i hi
    refine ⟨invalidHandleValue, ?_⟩
    rw [List.getElem?_map, List.getElem?_eq_getElem (hlength ▸ hi)]
    rfl
  have hsocket : (if l.socket ≠ invalidSocket then { l with socket := invalidSocket } else l) =
      { l with socket := invalidSocket } := by
    split
    · rfl
    · rename_i hv
      rw [← not_not.mp hv]
  cases hwait : o.wait with
  | false =>
      refine ⟨ws, ?_, hset⟩
      simp only [TcpServer.stop, hh, usePointer, IocpHandler.exiting, hws, readMember, bind,
        Except.bind, hread, hl, he, hwait, Bool.false_eq_true, if_false, hsocket]
      cases e <;> rfl
  | true =>
      refine ⟨_, ?_, hclosed⟩
      simp only [TcpServer.stop, hh, usePointer, IocpHandler.exiting, hws, readMember, bind,
        Except.bind, hread, hl, he, hwait, if_true, hsocket]
      cases e <;> rfl

/-- `Stop` on a handler with everything it reads. -/
lemma stop_stoppable (o : StopOutcomes) {srv : TcpServer} {h : IocpHandler}
    (hh : srv.iocph = some h) (hs : h.Stoppable) : ∃ h',
      srv.stop o = .ok (commSuccess, { srv with iocph := some h' }) ∧
      h'.workerThreads ≠ none ∧ h'.Stoppable := by
  obtain ⟨l, hl⟩ := hs.the
  obtain ⟨ws, hstop, hset⟩ := stop_up o hh hs.toUp hl
  exact ⟨_, hstop, nofun, ⟨⟨ws, rfl, hset⟩, hs.event⟩, _, rfl⟩

/-- Everything that `Stop` reads it needs. -/
lemma stoppable_of_stop {o : StopOutcomes} {srv : TcpServer} {r : ℤ × TcpServer}
    (h : srv.stop o = .ok r) : ∃ h, srv.iocph = some h ∧ h.Stoppable := by
  obtain ⟨iocph, ls⟩ := srv
  rcases iocph with _ | ⟨isExiting, isRunning, the, port, event, workers, n⟩
  · cases h
  rcases workers with _ | _ | ws
  · cases h
  · cases h
  cases hread : readWorkerThreads ws n with
  | error e =>
      simp only [TcpServer.stop, usePointer, IocpHandler.exiting, readMember, bind, Except.bind,
        hread] at h
      cases h
  | ok handles =>
      have hset := readWorkerThreads_ok_iff.mp ⟨handles, hread⟩
      simp only [TcpServer.stop, usePointer, IocpHandler.exiting, readMember, bind, Except.bind,
        hread] at h
      refine ⟨_, rfl, ⟨⟨ws, rfl, hset⟩, ?_⟩, ?_⟩
      · rintro rfl
        cases hw : o.wait <;> rw [hw] at h <;> rcases the with _ | _ | l <;> cases h
      · rcases the with _ | _ | l
        · cases hw : o.wait <;> rw [hw] at h <;> cases h
        · cases hw : o.wait <;> rw [hw] at h <;> cases h
        · exact ⟨l, rfl⟩

/-! ## Sequences of calls -/

/-- One `Start`: it is free of faults exactly if it is fine, and it leaves what the next call
finds. -/
lemma start_spec (o : StartOutcomes) {l : Option StartOutcomes} {srv : TcpServer}
    (hl : Leaves l srv) : ((∃ r, srv.start o = .ok r) ↔ (Call.start o).Fine l) ∧
      ∀ r, srv.start o = .ok r → Leaves ((Call.start o).made l) r.2 := by
  cases hinit : o.initializeCriticalSection with
  | false =>
      have hstart : srv.start o = .ok (commInitFailed, srv) := by
        simp only [TcpServer.start, TcpServer.init, hinit, bind, Except.bind]
        rfl
      rw [hstart]
      refine ⟨iff_of_true ⟨_, rfl⟩ (by rw [Call.Fine, hinit]; nofun), fun r hr => ?_⟩
      cases hr
      rwa [Call.made, hinit]
  | true =>
      by_cases hold : ∀ h, srv.iocph = some h → h.workerThreads ≠ none
      · obtain ⟨rc, srv', hstart, hleaves⟩ := start_made o hinit hold
        rw [hstart]
        refine ⟨iff_of_true ⟨_, rfl⟩ fun _ p hp => ?_, fun r hr => ?_⟩
        · subst hp
          obtain ⟨h, hh, hmade, -⟩ := hl
          exact hmade.mp (hold h hh)
        · cases hr
          rwa [Call.made, hinit]
      · -- the destructor of the handler reads `worker_threads_`
        obtain ⟨h, hh, hunset⟩ : ∃ h, srv.iocph = some h ∧ h.workerThreads = none := by
          simpa using hold
        have hstart : srv.start o = .error (.unset .workerThreads) := by
          simp only [TcpServer.start, TcpServer.init, TcpServer.setIocpHandler, hinit, hh,
            IocpHandler.destroy, hunset, readMember, bind, Except.bind]
          rfl
        have hfault : ∀ r, srv.start o ≠ .ok r := fun r hr => by
          rw [hstart] at hr
          cases hr
        refine ⟨iff_of_false (fun ⟨r, hr⟩ => hfault r hr) fun hfine => ?_,
          fun r hr => absurd hr (hfault r)⟩
        cases l with
        | none => exact nomatch hh.symm.trans hl
        | some p =>
            obtain ⟨h', hh', hmade, -⟩ := hl
            obtain rfl := Option.some.inj (hh.symm.trans hh')
            exact hmade.mpr (hfine hinit p rfl) hunset

/-- One `Stop`. -/
lemma stop_spec (o : StopOutcomes) {l : Option StartOutcomes} {srv : TcpServer}
    (hl : Leaves l srv) : ((∃ r, srv.stop o = .ok r) ↔ (Call.stop o).Fine l) ∧
      ∀ r, srv.stop o = .ok r → r.1 = commSuccess ∧ Leaves l r.2 := by
  have hfound : ∀ h, srv.iocph = some h → h.Stoppable → ∃ p, l = some p ∧ p.HandlerMade ∧
      p.Associated := by
    intro h hh hs
    cases l with
    | none => exact nomatch hh.symm.trans hl
    | some p =>
        obtain ⟨h', hh', -, hstop⟩ := hl
        obtain rfl := Option.some.inj (hh.symm.trans hh')
        exact ⟨p, rfl, (hstop.mp hs).made, hstop.mp hs⟩
  refine ⟨⟨fun ⟨r, hr⟩ => ?_, ?_⟩, fun r hr => ?_⟩
  · obtain ⟨h, hh, hs⟩ := stoppable_of_stop hr
    obtain ⟨p, hp, -, ha⟩ := hfound h hh hs
    exact ⟨p, hp, ha⟩
  · rintro ⟨p, rfl, ha⟩
    obtain ⟨h, hh, -, hstop⟩ := hl
    obtain ⟨h', hok, -⟩ := stop_stoppable o hh (hstop.mpr ha)
    exact ⟨_, hok⟩
  · obtain ⟨h, hh, hs⟩ := stoppable_of_stop hr
    obtain ⟨p, rfl, hmade, ha⟩ := hfound h hh hs
    obtain ⟨h', hok, hset, hs'⟩ := stop_stoppable o hh hs
    cases hok.symm.trans hr
    exact ⟨rfl, h', rfl, iff_of_true hset hmade, iff_of_true hs' ha⟩

/-- One call. -/
lemma perform_spec (c : Call) {l : Option StartOutcomes} {srv : TcpServer} (hl : Leaves l srv) :
    ((∃ r, c.perform srv = .ok r) ↔ c.Fine l) ∧
      ∀ r, c.perform srv = .ok r → Leaves (c.made l) r.2 := by
  cases c with
  | start o => exact start_spec o hl
  | stop o => exact ⟨(stop_spec o hl).1, fun r hr => ((stop_spec o hl).2 r hr).2⟩

/-- A sequence of calls that goes on where an earlier one has left the server. -/
lemma performCalls_ok_iff (cs : List Call) {l : Option StartOutcomes} {srv : TcpServer}
    (hl : Leaves l srv) : (∃ r, performCalls cs srv = .ok r) ↔
      ∀ before c after, cs = before ++ c :: after →
        c.Fine (before.foldl (fun l c => c.made l) l) := by
  induction cs generalizing l srv with
  | nil => simp [performCalls]
  | cons c cs ih =>
      obtain ⟨hfine, hleaves⟩ := perform_spec c hl
      cases hc : c.perform srv with
      | error e =>
          refine iff_of_false (fun ⟨r, hr⟩ => ?_) fun h => ?_
          · rw [performCalls, hc] at hr
            cases hr
          · obtain ⟨r, hr⟩ := hfine.mpr (h [] c cs rfl)
            rw [hc] at hr
            cases hr
      | ok r =>
          have hrest : (∃ rs, performCalls (c :: cs) srv = .ok rs) ↔
              ∃ rs, performCalls cs r.2 = .ok rs := by
            rw [performCalls, hc]
            cases hcs : performCalls cs r.2 with
            | error e => simp [bind, Except.bind, hcs]
            | ok rs => simp [bind, Except.bind, pure, Except.pure, hcs]
          rw [hrest, ih (hleaves r hc)]
          refine ⟨fun h before d after heq => ?_, fun h before d after heq =>
            h (c :: before) d after (by rw [heq]; rfl)⟩
          cases before with
          | nil =>
              cases heq
              exact hfine.mp ⟨r, hc⟩
          | cons e before =>
              obtain ⟨rfl, hcs⟩ := List.cons.inj heq
              exact h before d after hcs

/-- **`Start` and `Stop` read no unset member and use no `NULL` exactly if each call is fine** after
the latest `Start` that made a handler. -/
theorem members_set_iff (o : StartOutcomes) (cs : List Call) :
    (∃ r, performCalls (.start o :: cs) TcpServer.new = .ok r) ↔
      ∀ before c after, .start o :: cs = before ++ c :: after → c.Fine (lastMade before) :=
  performCalls_ok_iff (.start o :: cs) (l := none) rfl

/-- Windows refuses the completion port and nothing else. -/
def noPort : StartOutcomes where
  initializeCriticalSection := true
  createPort := none
  createEvent := some 1
  numberOfProcessors := 1
  createThread := fun tid => some (tid + 2)
  getaddrinfo := true
  listenSocket := 100
  bind := true
  listen := true
  enterCriticalSection := true
  associate := some 0
  wsaIoctl := true
  acceptSocket := 101
  acceptEx := ⟨0, errorIoPending⟩

/-- `Stop` after such a `Start` reads `worker_threads_`, which nobody has assigned; so does the
destructor in the next `Start`. -/
theorem members_unset :
    ¬ ∀ o cs, ∃ r, performCalls (.start o :: cs) TcpServer.new = .ok r := by
  intro h
  obtain ⟨r, hr⟩ := h noPort [.stop ⟨true⟩]
  have hfault : performCalls [.start noPort, .stop ⟨true⟩] TcpServer.new =
      .error (.unset .workerThreads) := rfl
  exact nomatch hfault.symm.trans hr

end Alpl.Net
