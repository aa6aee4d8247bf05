import Alpl.Interleaving.Trace
import Alpl.Net.Server
import Alpl.Net.Actions

/-!
# The result of `Send`

`TcpConnection::Send` drops what `send` returns.  A connected connection answers `COMM_SUCCESS` and
reports completion whatever the system has accepted (`send_performs`), so its report is right
exactly where all bytes were accepted.
-/

namespace Alpl.Net

open Interleaving

/-- The socket accepted all bytes of the block. -/
def AllAccepted (data : List UInt8) (tr : Trace Action.Res) : Prop :=
  ∃ v len, ⟨.send v data len, (data.length : ℤ)⟩ ∈ tr

/-- `onSentCompleted` was called. -/
def Completed (tr : Trace Action.Res) : Prop :=
  ∃ q p data isSet, ⟨.invokeConnection q .onSentCompleted p data, isSet⟩ ∈ tr

/-- `Send` answers `COMM_SUCCESS`, or reports completion, only if all bytes were accepted. -/
def Reports (data : List UInt8) (tr : Trace Action.Res) (rc : ℤ) : Prop :=
  rc = commSuccess ∨ Completed tr → AllAccepted data tr

/-- What a `Send` performs on a connected connection, where `send` has answered `r`. -/
def sendTrace (p : ConnectionPtr) (y : TcpConnection) (data : List UInt8) (r : ℤ) :
    Trace Action.Res :=
  [⟨.enter (.send p), ()⟩, ⟨.getConnection p, y⟩, ⟨.getConnection p, y⟩,
    ⟨.send y.socket data (toInt32 data.length), r⟩, ⟨.getConnection p, y⟩] ++
  (if y.handlers.onSentCompleted then
    [⟨.invokeConnection p .onSentCompleted (some p) [], true⟩, ⟨.callbackReturns, ()⟩] else []) ++
  [⟨.leave (.send p) commSuccess, ()⟩]

variable {role : Role} {t : Tid} {p : ConnectionPtr} {data : List UInt8} {s s' : State}
  {y : TcpConnection}

/-- What `send` answers. -/
lemma answer_of_exec_send {v : SOCKET} {len : ℤ} {o : Outcome} {r : ℤ}
    (h : exec t (.send v data len) o s = some (r, s')) :
    (r = socketError ∨ 0 ≤ r ∧ r ≤ len) ∧ s'.tcpConnections = s.tcpConnections := by
  obtain ⟨n, k, rfl, hle, -, rfl⟩ | ⟨rfl, rfl⟩ := exec_send h
  · exact ⟨.inr ⟨Int.natCast_nonneg n, hle⟩, rfl⟩
  · exact ⟨.inl rfl, rfl⟩

lemma onSentCompleted_performs (hy : s.tcpConnections p = some y) {tr : Trace Action.Res} {x : Unit}
    (h : (machine role).Performs t (onSentCompleted p) s tr x s') :
    tr = ⟨.getConnection p, y⟩ :: if y.handlers.onSentCompleted then
      [⟨.invokeConnection p .onSentCompleted (some p) [], true⟩, ⟨.callbackReturns, ()⟩]
      else [] := by
  unfold onSentCompleted at h
  obtain ⟨o, r, s₁, tr₁, he, rfl, k⟩ := Machine.performs_perform.mp h
  obtain ⟨hr, rfl⟩ := exec_getConnection he
  cases hy.symm.trans hr
  by_cases hset : y.handlers.onSentCompleted = true
  · rw [if_pos hset, callConnection] at k
    obtain ⟨o₁, isSet, s₂, tr₂, h₁, rfl, k₁⟩ := Machine.performs_perform.mp k
    obtain rfl : isSet = true := by
      obtain ⟨y₁, hy₁, hinvoke⟩ := exec_invokeConnection h₁
      cases hy.symm.trans hy₁
      rw [exec.invoke, if_pos (by exact hset)] at hinvoke
      cases hinvoke
      rfl
    obtain ⟨o₂, r₂, s₃, tr₃, h₂, rfl, k₂⟩ := Machine.performs_act.mp k₁
    obtain ⟨rfl, -, -⟩ := Machine.performs_ret.mp k₂
    rw [if_pos hset]
  · rw [if_neg hset] at k
    obtain ⟨rfl, -, -⟩ := Machine.performs_ret.mp k
    rw [if_neg hset]

/-- **`Send` ends in one way**, whatever `send` answers. -/
lemma send_performs (hy : s.tcpConnections p = some y) (hconn : y.connected = true)
    {tr : Trace Action.Res} {rc : ℤ} (h : (machine role).Performs t (send p data) s tr rc s') :
    rc = commSuccess ∧ ∃ r, tr = sendTrace p y data r ∧
      (r = socketError ∨ 0 ≤ r ∧ r ≤ toInt32 data.length) := by
  unfold send call at h
  obtain ⟨o₁, r₁, s₁, tr₁, h₁, rfl, k₁⟩ := Machine.performs_perform.mp h
  have hy₁ : s₁.tcpConnections p = some y := by
    cases o₁ <;> cases h₁
    exact hy
  obtain ⟨rc', s₂, tr₂, tr₃, rfl, hbody, hleave⟩ := Machine.performs_bind.mp k₁
  obtain ⟨o₃, y₃, s₃, tr₄, h₃, rfl, k₃⟩ := Machine.performs_perform.mp hbody
  obtain ⟨hy₃, rfl⟩ := exec_getConnection h₃
  cases hy₁.symm.trans hy₃
  simp only [hconn, Bool.not_true, Bool.false_eq_true, if_false] at k₃
  obtain ⟨o₄, y₄, s₄, tr₅, h₄, rfl, k₄⟩ := Machine.performs_perform.mp k₃
  obtain ⟨hy₄, rfl⟩ := exec_getConnection h₄
  cases hy₁.symm.trans hy₄
  obtain ⟨o₅, r, s₅, tr₆, h₅, rfl, k₅⟩ := Machine.performs_perform.mp k₄
  obtain ⟨hr, hsame⟩ := answer_of_exec_send h₅
  obtain ⟨x, s₆, tr₇, tr₈, rfl, hcompleted, hret⟩ := Machine.performs_bind.mp k₅
  have htrace := onSentCompleted_performs (by rw [hsame]; exact hy₁) hcompleted
  obtain ⟨rfl, rfl, rfl⟩ := Machine.performs_ret.mp hret
  obtain ⟨o₇, r₇, s₇, tr₉, h₇, rfl, hlast⟩ := Machine.performs_perform.mp hleave
  obtain ⟨rfl, rfl, rfl⟩ := Machine.performs_ret.mp hlast
  refine ⟨rfl, r, ?_, hr⟩
  rw [htrace, sendTrace]
  simp

/-! ## Every answer of the system occurs -/

lemma exists_exec_send {v : SOCKET} {len r : ℤ}
    (hr : r = socketError ∨ (s.handles v).isSome ∧ 0 ≤ r ∧ r ≤ len) :
    ∃ o s', exec t (.send v data len) o s = some (r, s') ∧
      s'.tcpConnections = s.tcpConnections := by
  obtain rfl | ⟨hopen, h0, hle⟩ := hr
  · exact ⟨.fail 0, _, rfl, rfl⟩
  · obtain ⟨k, hk⟩ := Option.isSome_iff_exists.mp hopen
    obtain ⟨n, rfl⟩ := Int.eq_ofNat_of_zero_le h0
    have hbytes : exec t (.send v data len) (.bytes n) s = some ((n : ℤ), { s with
        sent := Function.update s.sent k (s.sent k ++ data.take n) }.record
          (.call t (.send v data len) true)) := by
      simp only [exec, hk, if_pos hle]
    exact ⟨.bytes n, _, hbytes, rfl⟩

lemma exec_getConnection_ok (hy : s.tcpConnections p = some y) :
    (machine role).exec t (.getConnection p) .ok s = some (y, s) := by
  simp only [machine, handlerMachine, exec, hy, Option.map_some]

lemma exists_onSentCompleted (hy : s.tcpConnections p = some y) :
    ∃ tr s', (machine role).Performs t (onSentCompleted p) s tr () s' := by
  have hrest : ∃ tr s', (machine role).Performs t (if y.handlers.onSentCompleted then
      callConnection p .onSentCompleted (some p) [] else pure ()) s tr () s' := by
    by_cases hset : y.handlers.onSentCompleted = true
    · have hcall : (machine role).exec t (.invokeConnection p .onSentCompleted (some p) []) .ok s =
          some (exec.invoke t .onSentCompleted (some p) [] true s) := by
        simp only [machine, handlerMachine, exec, hy, Option.map_some, Handlers.isSet, hset]
      rw [if_pos hset]
      exact ⟨_, _, .perform hcall (.act (c := Outcome.ok) rfl (.ret _ _))⟩
    · rw [if_neg hset]
      exact ⟨_, _, .ret _ _⟩
  obtain ⟨tr, s', hrest⟩ := hrest
  exact ⟨_, _, .perform (exec_getConnection_ok hy) hrest⟩

/-- A connected connection can get every answer: a failure, or on an open socket any number of
bytes up to the length it asked for. -/
lemma exists_send (hy : s.tcpConnections p = some y) (hconn : y.connected = true) {r : ℤ}
    (hr : r = socketError ∨ (s.handles y.socket).isSome ∧ 0 ≤ r ∧ r ≤ toInt32 data.length) :
    ∃ s', (machine role).Performs t (send p data) s (sendTrace p y data r) commSuccess s' := by
  obtain ⟨s₁, hs₁⟩ : ∃ s₁, s₁ = (s.setStack t (.send p :: s.stack t)).record
      (.entered t (.send p)) := ⟨_, rfl⟩
  have hy₁ : s₁.tcpConnections p = some y := by
    rw [hs₁]
    exact hy
  have hget : (machine role).exec t (.getConnection p) .ok s₁ = some (y, s₁) :=
    exec_getConnection_ok hy₁
  obtain ⟨o, s₂, hsend, hsame⟩ : ∃ o s₂,
      exec t (.send y.socket data (toInt32 data.length)) o s₁ = some (r, s₂) ∧
        s₂.tcpConnections = s₁.tcpConnections :=
    exists_exec_send (by rw [hs₁]; exact hr)
  have hy₂ : s₂.tcpConnections p = some y := by
    rw [hsame]
    exact hy₁
  obtain ⟨tr, s₃, hcompleted⟩ : ∃ tr s₃,
      (machine role).Performs t (onSentCompleted p) s₂ tr () s₃ :=
    exists_onSentCompleted hy₂
  have htrace := onSentCompleted_performs hy₂ hcompleted
  have heq : sendTrace p y data r = ⟨.enter (.send p), ()⟩ ::
      ((⟨.getConnection p, y⟩ :: ⟨.getConnection p, y⟩ ::
        ⟨.send y.socket data (toInt32 data.length), r⟩ :: (tr ++ [])) ++
          [⟨.leave (.send p) commSuccess, ()⟩]) := by
    rw [htrace, sendTrace]
    simp
  rw [heq]
  unfold send call
  refine ⟨(s₃.setStack t (s₃.stack t).tail).record (.returned t (.send p) commSuccess),
    .perform (c := Outcome.ok) (congrArg (fun x => some ((), x)) hs₁.symm)
      (Machine.performs_bind.mpr ⟨commSuccess, s₃, _, _, rfl, ?_,
      .perform (c := Outcome.ok) rfl (.ret _ _)⟩)⟩
  refine .perform hget ?_
  rw [if_neg (by simp [hconn])]
  exact .perform hget (.perform hsend (.bind hcompleted (.ret _ _)))

/-! ## What `Send` reports -/

lemma allAccepted_sendTrace {r : ℤ} :
    AllAccepted data (sendTrace p y data r) ↔ r = data.length := by
  constructor
  · rintro ⟨v, len, hmem⟩
    unfold sendTrace at hmem
    split at hmem <;> simp at hmem <;> exact hmem.2.symm
  · rintro rfl
    exact ⟨y.socket, toInt32 data.length, by simp [sendTrace]⟩

/-- **`Send` reports what happened exactly if the socket accepted the whole block**, which it can
do for lengths below `2 ^ 31` only. -/
theorem reports_iff (hy : s.tcpConnections p = some y) (hconn : y.connected = true)
    {tr : Trace Action.Res} {rc : ℤ} (h : (machine role).Performs t (send p data) s tr rc s') :
    Reports data tr rc ↔ data.length < 2 ^ 31 ∧ AllAccepted data tr := by
  obtain ⟨rfl, r, rfl, hr⟩ := send_performs hy hconn h
  have hlt : toInt32 data.length < 2 ^ 31 := BitVec.toInt_lt
  rw [allAccepted_sendTrace, Reports, allAccepted_sendTrace]
  constructor
  · intro hreports
    have hall := hreports (.inl rfl)
    refine ⟨?_, hall⟩
    rw [socketError] at hr
    omega
  · rintro ⟨-, hall⟩ -
    exact hall

/-- A client whose user has set all callbacks, connected through the socket value `100`. -/
def exampleClient : State := State.initClient ⟨⟨true, true, true, true⟩, 1, Nat.one_pos⟩ 100

def exampleConnection : TcpConnection :=
  { TcpConnection.new 100 none none with
    connected := true
    handlers := ⟨true, true, true, true⟩ }

lemma exampleClient_connected : exampleClient.tcpConnections 0 = some exampleConnection := by
  decide

lemma exampleClient_sends {r : ℤ} (hr : r = socketError ∨ 0 ≤ r ∧ r ≤ 3) : ∃ s',
    (machine .client).Performs (.user 0) (send 0 [1, 2, 3]) exampleClient
      (sendTrace 0 exampleConnection [1, 2, 3] r) commSuccess s' :=
  exists_send exampleClient_connected rfl (hr.imp_right fun h => ⟨by decide, h⟩)

theorem reports_whole :
    Reports [1, 2, 3] (sendTrace 0 exampleConnection [1, 2, 3] 3) commSuccess := by
  obtain ⟨s', h⟩ := exampleClient_sends (r := 3) (by decide)
  exact (reports_iff exampleClient_connected rfl h).mpr ⟨by decide, allAccepted_sendTrace.mpr rfl⟩

/-- A `send` that fails is reported as a success, and as complete. -/
theorem failure_unreported : ¬ ∀ (role : Role) (t : Tid) (p : ConnectionPtr) (data : List UInt8)
    (s s' : State) (y : TcpConnection) (tr : Trace Action.Res) (rc : ℤ),
      s.tcpConnections p = some y → y.connected = true →
        (machine role).Performs t (send p data) s tr rc s' → Reports data tr rc := by
  intro hall
  obtain ⟨s', h⟩ := exampleClient_sends (.inl rfl)
  have haccepted := hall _ _ _ _ _ _ _ _ _ exampleClient_connected rfl h (.inl rfl)
  exact absurd (allAccepted_sendTrace.mp haccepted) (by decide)

end Alpl.Net
