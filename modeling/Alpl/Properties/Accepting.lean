import Alpl.Server.Runs

/-!
# The server goes on accepting

After an accept completion the server has to ask for the next accept, whatever became of the last
one.  It does so as long as no call on the way fails.  Two things in the source break the chain:
the `return` hidden in `ALPL_ASSERT`, which a failing `handle_accept` takes before `start_accept`
is reached, and the test of the `BOOL` of `AcceptEx` against `SOCKET_ERROR`, which makes a failed
`start_accept` report success.
-/

namespace Alpl.Net

open Interleaving

/-! ## What should hold -/

/-- Whether an operation in flight is an `AcceptEx`. -/
def OpKind.isAccept : OpKind → Bool
  | .accept _ => true
  | _ => false

/-- The accepts outstanding on the listening socket: pending, or with their packet queued. -/
def acceptsOutstanding (s : State) : ℕ :=
  s.pending.countP (fun op => op.kind.isAccept) +
    (s.queue s.workersPort).countP fun pkt =>
      pkt.overlapped.isSome ∧ pkt.overlapped = s.theSocketContext

/-- A worker is between dequeuing an accept completion and finishing with it. -/
def AcceptInHand (G : Config Action Action.Res State Tid Label) : Prop :=
  ∃ t l, (G.threads t).isRunning = true ∧ .completion .ioAccept l ∈ G.state.stack t

/-- The server asks for the next accept: unless a worker is still at it, one accept is
outstanding or the last `start_accept` told its caller that it failed.  And `start_accept` reports
success only if it has made a successful call of `AcceptEx`. -/
structure AcceptKept (G : Config Action Action.Res State Tid Label) : Prop where
  armed : G.state.started → G.state.exiting = false → ¬ AcceptInHand G →
    acceptsOutstanding G.state = 1 ∨ Server.StartAcceptFailed G.state
  honest : ∀ t h h', G.state.history = h ++ .returned t .startAccept commSuccess :: h' →
    Server.AcceptCalled t h'

/-- A call of Windows has failed on the way from an accept completion to the next accept, or an
exception has ended a worker there. -/
def AcceptDisturbed (G : Config Action Action.Res State Tid Label) : Prop :=
  Server.AcceptFault G.state ∨
    ∃ t l, G.threads t = .dead ∧ .completion .ioAccept l ∈ G.state.stack t

instance (s : State) : Decidable (Server.AcceptFault s) := by
  unfold Server.AcceptFault
  infer_instance

/-! ## The accepts in flight are those of the listening context -/

namespace Server

lemma acceptsOutstanding_eq {s : State} {l : ContextPtr} (hI : Inv s)
    (hl : s.theSocketContext = some l) : acceptsOutstanding s = s.outstanding l := by
  have hops : s.pending.countP (fun op => op.kind.isAccept) =
      s.pending.countP fun op => op.overlapped = l := by
    refine List.countP_congr fun op hop => ?_
    by_cases hol : op.overlapped = l
    · obtain ⟨k, -, hkind, -⟩ := hI.acceptOp l op hop hl hol
      simp [hkind, hol, OpKind.isAccept]
    · simp [hI.clientOp l op hop hl hol, hol, OpKind.isAccept]
  rw [acceptsOutstanding, State.outstanding, hops, hl]
  refine congrArg _ (List.countP_congr fun pkt _ => ?_)
  simp only [decide_eq_true_eq, and_iff_right_iff_imp]
  rintro h
  rw [h]
  rfl

/-- Whoever has the listening context in hand after `Start` works on an accept completion. -/
lemma completion_of_holds {s : State} {t : Tid} {l : ContextPtr} (hI : Inv s) (hs : s.started)
    (hl : s.theSocketContext = some l) (hrearm : ¬ NotRearmed s) (ht : l ∈ s.holds t) :
    .completion .ioAccept l ∈ s.stack t := by
  refine (hI.acceptFrame t l hl ht).resolve_right ?_
  rintro ⟨-, hstart | hn⟩
  · exact (hI.started hs).1 hstart
  · exact hrearm hn

end Server

/-! ## The result -/

/-- **Accept is always asked for again, unless it was disturbed.** -/
theorem accept_kept {u : Setup} {G : Config Action Action.Res State Tid Label}
    (hG : Reachable .server u G) (hd : ¬ AcceptDisturbed G) : AcceptKept G := by
  have hI := hG.server.ok.inv
  refine ⟨fun hs he hhand => ?_, fun t h h' hh => ?_⟩
  · by_contra hnot
    rw [not_or] at hnot
    have hrearm : ¬ Server.NotRearmed G.state := by
      rintro (hf | hnone | hfailed)
      · exact hd (.inl hf)
      · exact (hI.started hs).2 hnone
      · exact hnot.2 hfailed
    obtain ⟨l, hl⟩ := Option.ne_none_iff_exists'.mp (Server.the_of_started hI hs)
    rw [Server.acceptsOutstanding_eq hI hl] at hnot
    obtain ⟨t, ht⟩ := (hI.armed l hl he hrearm).resolve_right hnot.1
    have hframe := Server.completion_of_holds hI hs hl hrearm ht
    -- the thread that has the listening context in hand is neither idle, running nor dead
    cases hx : G.threads t with
    | idle =>
        have hidle := hG.server.threads t
        rw [hx] at hidle
        rw [hidle.1.1] at hframe
        cases hframe
    | running p => exact hhand ⟨t, l, by rw [hx]; rfl, hframe⟩
    | dead => exact hd (.inr ⟨t, l, hx, hframe⟩)
  · exact (hI.accepted t h h' hh).resolve_left fun hf => hd (.inl hf)

/-- With `onDisconnected` set no exception ends a thread. -/
lemma not_dead {role : Role} {u : Setup} {G : Config Action Action.Res State Tid Label}
    (hG : Reachable role u G) (hu : u.handlers.onDisconnected = true) (t : Tid) :
    G.threads t ≠ .dead := by
  intro hx
  have hdied := hG.handler.threads t
  rw [hx] at hdied
  have hset : G.state.handlers.onDisconnected = true := hG.setUp.handlers ▸ hu
  exact Bool.noConfusion (hset.symm.trans hdied)

theorem accept_kept_start : ∃ G, Reachable .server fullServer G ∧ G.state.started ∧
    AcceptKept G := by
  obtain ⟨G, hG, hφ⟩ := reachable_of_run (.server (u := fullServer))
    (startMoves ++ acceptMoves 1 102)
    (φ := fun G => G.state.started ∧ ¬ Server.AcceptFault G.state) (by decide +kernel)
  obtain ⟨hs, hf⟩ := of_decide_eq_true hφ
  refine ⟨G, hG, hs, accept_kept hG ?_⟩
  rintro (hfault | ⟨t, l, hx, -⟩)
  · exact hf hfault
  · exact not_dead hG rfl t hx

/-- In a run that no thread of the user has moved in, with all others outside an accept completion,
none is in hand. -/
lemma not_acceptInHand {G : Config Action Action.Res State Tid Label}
    (hidle : ∀ t ∉ crew, G.threads t = .idle) (hstack : ∀ t ∈ crew, G.state.stack t = []) :
    ¬ AcceptInHand G := by
  rintro ⟨t, l, hx, hframe⟩
  by_cases ht : t ∈ crew
  · rw [hstack t ht] at hframe
    cases hframe
  · rw [hidle t ht] at hx
    cases hx

/-- A call of `AcceptEx` that succeeded. -/
def Record.accepts : Record → Bool
  | .call _ (.acceptEx _ _ _ _) ok => ok
  | _ => false

lemma Server.AcceptCalled.any_accepts {t : Tid} {h : List Record} (hc : Server.AcceptCalled t h) :
    (since t .startAccept h).any Record.accepts = true := by
  obtain ⟨ls, v, c, len, hmem⟩ := hc
  exact List.any_eq_true.mpr ⟨_, hmem, rfl⟩

/-- One connection for which `setsockopt` fails, and the server never accepts again; one
`AcceptEx` that fails, and `start_accept` reports success all the same. -/
theorem accept_lost :
    (¬ ∀ G, Reachable .server fullServer G → G.state.started → G.state.exiting = false →
      ¬ AcceptInHand G → acceptsOutstanding G.state = 1 ∨ Server.StartAcceptFailed G.state) ∧
    ¬ ∀ G, Reachable .server fullServer G → ∀ t h h',
      G.state.history = h ++ .returned t .startAccept commSuccess :: h' →
        Server.AcceptCalled t h' := by
  constructor
  · intro h
    obtain ⟨G, hG, hφ, hidle⟩ := reachable_of_moves
      (startMoves ++ .env (.complete ⟨.accept 1, 0, 0, acceptReceiveLength⟩ []) ::
        steps (.worker 0) (List.replicate 8 .ok ++ [.fail 10038, .ok, .ok])) (by decide)
      (φ := fun G => G.state.started ∧ G.state.exiting = false ∧
        (∀ t ∈ crew, G.state.stack t = []) ∧ acceptsOutstanding G.state = 0 ∧
        Server.lastStartAccept G.state.history = some (.main, some commSuccess))
      (by decide +kernel)
    obtain ⟨hs, he, hstack, hnone, hlast⟩ := of_decide_eq_true hφ
    rcases h G hG hs he (not_acceptInHand hidle hstack) with hone | ⟨t, rc, hrc, hne⟩
    · rw [hnone] at hone
      cases hone
    · rw [hlast] at hrc
      cases hrc
      exact hne rfl
  · intro h
    obtain ⟨G, hG, hφ⟩ := reachable_of_run (.server (u := fullServer))
      (steps .main ([.ok, .ok, .socket 100, .ok, .ok, .ok] ++ List.replicate 11 .ok ++
        [.ok, .ok, .socket 101, .ok, .ok, .ok, .ok, .fail 10055, .ok, .ok, .ok]))
      (φ := fun G => G.state.history = G.state.history.take 1 ++
        .returned .main .startAccept commSuccess :: G.state.history.drop 2 ∧
        (since .main .startAccept (G.state.history.drop 2)).any Record.accepts = false)
      (by decide +kernel)
    obtain ⟨hh, hnone⟩ := of_decide_eq_true hφ
    exact Bool.noConfusion ((h G hG _ _ _ hh).any_accepts.symm.trans hnone)

end Alpl.Net
