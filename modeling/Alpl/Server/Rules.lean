import Alpl.Server.Guarantee

/-!
# Rules for the threads of a server

The assertions of a thread have one form: the functions it is inside of, and a *fact* about the
state (`At`).  A fact is what survives every move that respects the thread (`Fact`); it may
speak of the contexts the thread has in hand and of what hangs on them.  The moves of the others
respect the thread by the contract.  Most of its own actions do so too (`Action.plain`), and of
these the *still* ones leave even its frames alone.  The rules below leave to a proof only the
condition under which an action is allowed and what its answer tells.
-/

namespace Alpl.Net

open Interleaving

/-! ## Actions that everybody can live with -/

/-- The actions that leave the memory alone and write no entry that an account depends on. -/
def Action.plain (a : Action) : Bool :=
  a.reads && match a with
    | .enter .startAccept => false
    | .enter (.disconnect _) => false
    | .leave .startAccept _ => false
    | .leave .start _ => false
    | .invokeHandler .onDataReceived _ _ => false
    | .invokeConnection _ .onDataReceived _ _ => false
    | _ => true

/-- The plain actions that leave the frames of the thread alone. -/
def Action.still (a : Action) : Bool :=
  a.plain && !a.pushes && !a.clears && decide (a ≠ .callbackReturns)

lemma Action.plain_of_still {a : Action} (ha : a.still = true) : a.plain = true := by
  simp only [Action.still, Bool.and_eq_true] at ha
  exact ha.1.1.1

namespace Server

variable {u : Setup} {t v : Tid} {a : Action} {o : Outcome} {s s' : State}
variable {f : Frame} {fs : List Frame} {Φ Ψ : State → Prop} {α : Type}

lemma plain_of_isOf {r : Record} (ha : a.plain = true) (h : Record.IsOf t s a r) :
    r.plain = true := by
  cases h with
  | call a ok => rfl
  | entered f => cases f <;> first | rfl | cases ha
  | returned f rc => cases f <;> first | rfl | cases ha
  | handler k p data => cases k <;> first | rfl | cases ha
  | connection q k p data => cases k <;> first | rfl | cases ha
  | emptyHandler k p data hs => rfl
  | emptyConnection q k p data y hy hs => rfl

/-- A plain action respects every thread. -/
lemma respects_of_plain {r : a.Res} (ha : a.plain = true) (he : exec t a o s = some (r, s')) :
    Respects v s s' := by
  have hreads : a.reads = true := by
    simp only [Action.plain, Bool.and_eq_true] at ha
    exact ha.1
  have hmem := exec_sameMemory hreads _ he
  rcases (exec_effect _ he).history with hh | ⟨r, hr, hh⟩
  · have hd : ∀ p, State.delivered s' p = s.delivered p := fun p =>
      congrArg (State.deliveredIn p) hh
    have hc : ∀ c, disconnects s' c = disconnects s c := fun c => congrArg (disconnectsIn c) hh
    refine .of_run hmem (fun _ _ p _ => hd p) (fun c _ => hc c) fun _ _ _ => ?_
    rw [show s'.history = s.history from hh]
    exact ⟨fun _ h => h, id⟩
  · have hplain := plain_of_isOf ha hr
    have hd : ∀ p, State.delivered s' p = (s.record r).delivered p := fun p =>
      congrArg (State.deliveredIn p) hh
    have hc : ∀ c, disconnects s' c = disconnects (s.record r) c := fun c =>
      congrArg (disconnectsIn c) hh
    refine .of_run hmem (fun _ _ p _ => (hd p).trans (delivered_record hplain p))
      (fun c _ => (hc c).trans (disconnects_record hplain c)) fun _ _ _ => ?_
    rw [show s'.history = (s.record r).history from hh, lastStartAccept_record hplain]
    exact ⟨fun _ h => h, id⟩

lemma stack_of_still (ha : a.still = true) (h : Effect t a s s') : s'.stack t = s.stack t := by
  simp only [Action.still, Bool.and_eq_true, Bool.not_eq_true', decide_eq_true_eq] at ha
  obtain ⟨⟨⟨-, hpush⟩, hclear⟩, hreturn⟩ := ha
  rcases h.ownStack with he | ⟨hp, -⟩ | ⟨hr, -⟩ | hc
  · exact he
  · exact nomatch hpush.symm.trans hp
  · exact absurd hr hreturn
  · exact nomatch hclear.symm.trans hc

/-! ## Facts and assertions -/

/-- An assertion that survives every move that respects thread `t`. -/
def Fact (t : Tid) (Φ : State → Prop) : Prop :=
  ∀ s s', Inv s → Onward s s' → Respects t s s' → Φ s → Φ s'

lemma Fact.of_lasting (h : Lasting Φ) : Fact t Φ := fun s s' _ hO _ => h s s' hO

lemma Fact.const (φ : Prop) : Fact t fun _ => φ := fun _ _ _ _ _ h => h

lemma Fact.and (hΦ : Fact t Φ) (hΨ : Fact t Ψ) : Fact t fun s => Φ s ∧ Ψ s :=
  fun s s' hI hO hR h => ⟨hΦ s s' hI hO hR h.1, hΨ s s' hI hO hR h.2⟩

lemma Fact.or (hΦ : Fact t Φ) (hΨ : Fact t Ψ) : Fact t fun s => Φ s ∨ Ψ s :=
  fun s s' hI hO hR h => h.imp (hΦ s s' hI hO hR) (hΨ s s' hI hO hR)

/-- Thread `t` is inside the functions `fs`, and `Φ` holds. -/
structure At (t : Tid) (fs : List Frame) (Φ : State → Prop) (s : State) : Prop where
  stack : s.stack t = fs
  fact : Φ s

lemma At.imp (h : At t fs Φ s) (hΦ : Φ s → Ψ s) : At t fs Ψ s := ⟨h.stack, hΦ h.fact⟩

lemma stable_at (hΦ : Fact t Φ) : (contract u).Stable t (At t fs Φ) :=
  fun s s' hI _ hR h =>
    ⟨hR.stack.trans h.stack, hΦ s s' hI.inv hR.toOnward hR.toRespects h.fact⟩

/-- What the history shows of the last call of `start_accept` stays until `t` makes another. -/
lemma stable_acceptCalled : (contract u).Stable t fun s => AcceptCalled t s.history := by
  rintro s s' - - hR ⟨ls, w, c, len, h⟩
  obtain ⟨h', hh', hother⟩ := hR.records
  refine ⟨ls, w, c, len, ?_⟩
  rw [hh', since, List.takeWhile_append_of_pos]
  · exact List.mem_append_right _ h
  · intro r hr
    refine decide_eq_true ?_
    rintro rfl
    exact hother _ hr rfl

/-! ## One action -/

/-- One action: it has to be allowed, and to lead to what is asserted next. -/
lemma atomic {P : State → Prop} {N : a.Res → State → Prop}
    (hN : ∀ r, (contract u).Stable t (N r)) (hA : ∀ s, (contract u).Ok s → P s → Allowed t a s)
    (hstep : ∀ s o r s', (contract u).Ok s → (contract u).Ok s' → P s →
      exec t a o s = some (r, s') → N r s') :
    (contract u).Atomic (machine .server) t P a N where
  stable := hN
  allowed := hA
  step s o r s' hI hP he hk :=
    have hg := guarantee hI (hA s hI hP) he
    ⟨hg, hstep s o r s' hI ⟨hk, hg.inv⟩ hP he⟩

lemma onward_of_exec {r : a.Res} (hI : (contract u).Ok s) (he : exec t a o s = some (r, s')) :
    Onward s s' :=
  (exec_effect _ he).onward hI.known.1

/-- A still action of whose answer something is known afterwards. -/
lemma still (ha : a.still = true) {Ψ : a.Res → State → Prop} (hΨ : ∀ r, Fact t (Ψ r))
    (hA : ∀ s, (contract u).Ok s → At t fs Φ s → Allowed t a s)
    (h : ∀ s o r s', (contract u).Ok s → Φ s → exec t a o s = some (r, s') →
      (∀ Χ, Fact t Χ → Χ s → Χ s') → Ψ r s') :
    (contract u).Atomic (machine .server) t (At t fs Φ) a fun r => At t fs (Ψ r) := by
  refine atomic (fun r => stable_at (hΨ r)) hA ?_
  intro s o r s' hI _ hP he
  have hkeep : ∀ Χ, Fact t Χ → Χ s → Χ s' := fun Χ hΧ =>
    hΧ s s' hI.inv (onward_of_exec hI he) (respects_of_plain (Action.plain_of_still ha) he)
  exact ⟨(stack_of_still ha (exec_effect _ he)).trans hP.stack, h s o r s' hI hP.fact he hkeep⟩

/-- A still action of whose answer something is known when it is given. -/
lemma ask (ha : a.still = true) {Ψ : a.Res → State → Prop} (hΨ : ∀ r, Fact t (Ψ r))
    (hA : ∀ s, (contract u).Ok s → At t fs Φ s → Allowed t a s)
    (h : ∀ s o r s', (contract u).Ok s → Φ s → exec t a o s = some (r, s') → Ψ r s) :
    (contract u).Atomic (machine .server) t (At t fs Φ) a fun r => At t fs (Ψ r) :=
  still ha hΨ hA fun s o r s' hI hs he hkeep => hkeep _ (hΨ r) (h s o r s' hI hs he)

/-- A still action whose answer is known by itself. -/
lemma read (ha : a.still = true) (hΦ : Fact t Φ) (φ : a.Res → Prop)
    (hA : ∀ s, (contract u).Ok s → At t fs Φ s → Allowed t a s)
    (h : ∀ s o r s', (contract u).Ok s → Φ s → exec t a o s = some (r, s') → φ r) :
    (contract u).Atomic (machine .server) t (At t fs Φ) a fun r s => φ r ∧ At t fs Φ s := by
  refine atomic (fun r => (Contract.Stable.const _).and (stable_at hΦ)) hA ?_
  intro s o r s' hI _ hP he
  exact ⟨h s o r s' hI hP.fact he, (stack_of_still ha (exec_effect _ he)).trans hP.stack,
    hΦ s s' hI.inv (onward_of_exec hI he) (respects_of_plain (Action.plain_of_still ha) he)
      hP.fact⟩

/-- A still action of whose answer nothing is used. -/
lemma skip (ha : a.still = true) (hΦ : Fact t Φ)
    (hA : ∀ s, (contract u).Ok s → At t fs Φ s → Allowed t a s) :
    (contract u).Atomic (machine .server) t (At t fs Φ) a fun _ => At t fs Φ :=
  ask ha (fun _ => hΦ) hA fun _ _ _ _ _ hs _ => hs

/-- A still action that anybody may perform. -/
lemma skip' (ha : a.still = true) (hA : ∀ s, Allowed t a s) (hΦ : Fact t Φ) :
    (contract u).Atomic (machine .server) t (At t fs Φ) a fun _ => At t fs Φ :=
  skip ha hΦ fun s _ _ => hA s

/-- An action that leaves the frames of the thread alone. -/
lemma change {N : a.Res → State → Prop} (hN : ∀ r, Fact t (N r))
    (hA : ∀ s, (contract u).Ok s → At t fs Φ s → Allowed t a s)
    (hstack : ∀ s o r s', exec t a o s = some (r, s') → s'.stack t = s.stack t)
    (h : ∀ s o r s', (contract u).Ok s → (contract u).Ok s' → Φ s →
      exec t a o s = some (r, s') → N r s') :
    (contract u).Atomic (machine .server) t (At t fs Φ) a fun r => At t fs (N r) :=
  atomic (fun r => stable_at (hN r)) hA fun s o r s' hI hI' hP he =>
    ⟨(hstack s o r s' he).trans hP.stack, h s o r s' hI hI' hP.fact he⟩

/-! ## Functions and callbacks -/

/-- The call of a function that no account depends on. -/
lemma atomic_enter (hf : (Action.enter f).plain = true) (hΦ : Fact t Φ)
    (hA : ∀ s, (contract u).Ok s → At t fs Φ s → Allowed t (.enter f) s) :
    (contract u).Atomic (machine .server) t (At t fs Φ) (.enter f) fun _ => At t (f :: fs) Φ := by
  refine atomic (fun _ => stable_at hΦ) hA ?_
  intro s o r s' hI _ hP he
  refine ⟨?_, hΦ s s' hI.inv (onward_of_exec hI he) (respects_of_plain hf he) hP.fact⟩
  cases o <;> cases he
  rw [← hP.stack]
  exact Function.update_self _ _ _

/-- The return of such a function. -/
lemma atomic_leave {rc : ℤ} (hf : (Action.leave f rc).plain = true) (hΦ : Fact t Φ)
    (hA : ∀ s, (contract u).Ok s → At t (f :: fs) Φ s → Allowed t (.leave f rc) s) :
    (contract u).Atomic (machine .server) t (At t (f :: fs) Φ) (.leave f rc)
      fun _ => At t fs Φ := by
  refine atomic (fun _ => stable_at hΦ) hA ?_
  intro s o r s' hI _ hP he
  refine ⟨?_, hΦ s s' hI.inv (onward_of_exec hI he) (respects_of_plain hf he) hP.fact⟩
  cases o <;> cases he
  refine (Function.update_self _ _ _).trans ?_
  rw [hP.stack]
  rfl

/-- Such a function, from its call to its return. -/
lemma safe_call {body : P ℤ} {Ψ : ℤ → State → Prop} (hf : (Action.enter f).plain = true)
    (hf' : ∀ rc, (Action.leave f rc).plain = true) (hΦ : Fact t Φ) (hΨ : ∀ rc, Fact t (Ψ rc))
    (henter : ∀ s, (contract u).Ok s → At t fs Φ s → Allowed t (.enter f) s)
    (hleave : ∀ rc s, (contract u).Ok s → At t (f :: fs) (Ψ rc) s → Allowed t (.leave f rc) s)
    (hbody : (contract u).Safe (machine .server) t body (At t (f :: fs) Φ)
      fun rc => At t (f :: fs) (Ψ rc)) :
    (contract u).Safe (machine .server) t (call f body) (At t fs Φ) fun rc => At t fs (Ψ rc) := by
  refine Contract.Safe.step _ (atomic_enter hf hΦ henter) fun _ => ?_
  refine Contract.Safe.bind hbody fun rc => ?_
  exact Contract.Safe.step _ (atomic_leave (hf' rc) (hΨ rc) (hleave rc)) fun _ _ _ h => h

lemma atomic_callbackReturns {k : CallbackKind} {p : Option ConnectionPtr} (hΦ : Fact t Φ) :
    (contract u).Atomic (machine .server) t (At t (.callback k p :: fs) Φ) .callbackReturns
      fun _ => At t fs Φ := by
  refine atomic (fun _ => stable_at hΦ) (fun s _ hP => ⟨k, p, fs, hP.stack⟩) ?_
  intro s o r s' hI _ hP he
  refine ⟨?_, hΦ s s' hI.inv (onward_of_exec hI he) (respects_of_plain rfl he) hP.fact⟩
  cases o <;> cases he
  refine (Function.update_self _ _ _).trans ?_
  rw [hP.stack]
  rfl

/-- What is asserted once a function object was called: it runs, or it was empty and threw. -/
def Called (t : Tid) (fs : List Frame) (k : CallbackKind) (p : Option ConnectionPtr)
    (Ψ : State → Prop) (r : Bool) (s : State) : Prop :=
  bif r then At t (.callback k p :: fs) Ψ s else WorkerFault t s

lemma lasting_workerFault : Lasting (WorkerFault t) := Lasting.history

lemma stable_called {k : CallbackKind} {p : Option ConnectionPtr} (hΨ : Fact t Ψ) (r : Bool) :
    (contract u).Stable t (Called t fs k p Ψ r) := by
  cases r
  · exact fun s s' _ _ hR => lasting_workerFault s s' hR.toOnward
  · exact stable_at hΨ

lemma called_of_invoke {k : CallbackKind} {p : Option ConnectionPtr} {data : List UInt8}
    {isSet r : Bool} (h : exec.invoke t k p data isSet s = (r, s')) (hfs : s.stack t = fs)
    (hΨ : r = true → Ψ s') : Called t fs k p Ψ r s' := by
  unfold exec.invoke at h
  split at h <;> cases h
  · refine ⟨?_, hΨ rfl⟩
    rw [← hfs]
    exact Function.update_self _ _ _
  · exact ⟨_, List.mem_cons_self, decide_eq_true rfl⟩

lemma safe_called {k : CallbackKind} {p : Option ConnectionPtr} (hΨ : Fact t Ψ) (r : Bool) :
    (contract u).Safe (machine .server) t (if r then act .callbackReturns else .throw)
      (Called t fs k p Ψ r) fun _ => At t fs Ψ := by
  cases r
  · exact fun _ _ h => h
  · exact Contract.Safe.perform (atomic_callbackReturns hΨ)

/-- A call of a function object of the handler, other than that for data. -/
lemma safe_callHandler {k : CallbackKind} {p : Option ConnectionPtr} {data : List UInt8}
    (hk : k ≠ .onDataReceived) (hΦ : Fact t Φ)
    (hA : ∀ s, At t fs Φ s → Allowed t (.invokeHandler k p data) s) :
    (contract u).Safe (machine .server) t (callHandler k p data) (At t fs Φ)
      fun _ => At t fs Φ := by
  refine Contract.Safe.step (Called t fs k p Φ)
    (atomic (stable_called hΦ) (fun s _ => hA s) ?_) (safe_called hΦ)
  intro s o r s' hI _ hP he
  have hplain : (Action.invokeHandler k p data).plain = true := by
    cases k <;> first | rfl | exact absurd rfl hk
  have hfact := hΦ s s' hI.inv (onward_of_exec hI he) (respects_of_plain hplain he) hP.fact
  cases o
  case ok => exact called_of_invoke (Option.some.inj he) hP.stack fun _ => hfact
  all_goals cases he

/-- A call of a function object of a connection, other than that for data. -/
lemma safe_callConnection {q : ConnectionPtr} {k : CallbackKind} {p : Option ConnectionPtr}
    {data : List UInt8} (hk : k ≠ .onDataReceived) (hΦ : Fact t Φ) :
    (contract u).Safe (machine .server) t (callConnection q k p data) (At t fs Φ)
      fun _ => At t fs Φ := by
  refine Contract.Safe.step (Called t fs k p Φ)
    (atomic (stable_called hΦ) (fun _ _ _ h => absurd h hk) ?_) (safe_called hΦ)
  intro s o r s' hI _ hP he
  have hplain : (Action.invokeConnection q k p data).plain = true := by
    cases k <;> first | rfl | exact absurd rfl hk
  have hfact := hΦ s s' hI.inv (onward_of_exec hI he) (respects_of_plain hplain he) hP.fact
  obtain ⟨y, -, hr⟩ := exec_invokeConnection he
  exact called_of_invoke hr hP.stack fun _ => hfact

end Server

end Alpl.Net
