import Alpl.Interleaving.Trace
import Alpl.Net.Server
import Alpl.Net.Actions

/-!
# Sends that are completed in parts

A worker that gets the completion of a send adds its size to `SentBytes` and sends the rest of the
buffer again, until nothing is left.  The three members that carry this from one turn to the next
are `SentBytes`, `TotalBytes` and `LastOperation`; between two turns `SentBytes` is the number of
bytes the socket has accepted, and what is outstanding is the rest of the buffer (`InFlight`).
-/

namespace Alpl.Net

open Interleaving

/-! ## What a turn posts -/

/-- The data of the sends on the context `c`, in order. -/
def postedSends (c : ContextPtr) : Trace Action.Res → List (List UInt8)
  | [] => []
  | ⟨.wsaSend _ o data, _⟩ :: tr =>
    if o = c then data :: postedSends c tr else postedSends c tr
  | _ :: tr => postedSends c tr

/-- Each send of the trace was taken by the system. -/
def SendsPosted (tr : Trace Action.Res) : Prop :=
  ∀ v c data r, ⟨.wsaSend v c data, r⟩ ∈ tr → CallResult.failed r = false

/-- The bytes from `i` up to `n`. -/
def slice (buffer : List UInt8) (i n : ℕ) : List UInt8 := (buffer.drop i).take (n - i)

variable {role : Role} {t : Tid} {k c : ContextPtr} {s s' : State} {x : SocketContext}

/-! ## `handle_send` -/

/-- The context after a completion of `n` bytes has been added. -/
def SocketContext.sentMore (x : SocketContext) (n : ℕ) : SocketContext :=
  { x with
    ioContext.lastOperation := .ioSend
    ioContext.sentBytes := x.ioContext.sentBytes + n }

/-- The context after the last completion. -/
def SocketContext.sentAll (x : SocketContext) : SocketContext :=
  { x with
    ioContext.lastOperation := .ioReceive
    ioContext.sentBytes := 0 }

/-- What a turn of the loop leaves of the context `x` after a completion of `n` bytes, and what it
posts. -/
def SocketContext.Advances (x : SocketContext) (n : ℕ) (x' : SocketContext)
    (posted : List (List UInt8)) : Prop :=
  if x.ioContext.sentBytes + n < x.ioContext.totalBytes then
    x' = x.sentMore n ∧
      posted = [(x.ioContext.buffer.drop (x.ioContext.sentBytes + n).toNat).take
        (x.ioContext.totalBytes - (x.ioContext.sentBytes + n)).toNat]
  else x' = x.sentAll ∧ posted = []

/-- **`handle_send`** sends the rest of the buffer, or is done with it. -/
lemma handleSend_performs {n : ℕ} {rc : ℤ} {tr : Trace Action.Res} (hx : s.contexts c = some x)
    (h : (machine role).Performs t (handleSend k ⟨n, c⟩) s tr rc s') (hposted : SendsPosted tr) :
    rc = commSuccess ∧ ∃ x', s'.contexts c = some x' ∧ x.Advances n x' (postedSends c tr) := by
  unfold handleSend at h
  obtain ⟨o₁, r₁, s₁, tr₁, h₁, rfl, k₁⟩ := Machine.performs_perform.mp h
  obtain ⟨y₁, hy₁, rfl⟩ := exec_setLastOperation h₁
  cases hx.symm.trans hy₁
  obtain ⟨o₂, io₂, s₂, tr₂, h₂, rfl, k₂⟩ := Machine.performs_perform.mp k₁
  obtain ⟨y₂, hy₂, rfl, rfl⟩ := exec_getIoContext h₂
  cases (Function.update_self ..).symm.trans hy₂
  obtain ⟨o₃, r₃, s₃, tr₃, h₃, rfl, k₃⟩ := Machine.performs_perform.mp k₂
  have hs₃ : s₃.contexts c = some (x.sentMore n) := by
    obtain ⟨y₃, hy₃, rfl⟩ := exec_setSentBytes h₃
    cases (Function.update_self ..).symm.trans hy₃
    exact Function.update_self ..
  obtain ⟨o₄, io₄, s₄, tr₄, h₄, rfl, k₄⟩ := Machine.performs_perform.mp k₃
  obtain ⟨y₄, hy₄, rfl, rfl⟩ := exec_getIoContext h₄
  cases hs₃.symm.trans hy₄
  by_cases hmore : x.ioContext.sentBytes + n < x.ioContext.totalBytes
  · rw [if_pos (show (x.sentMore n).ioContext.sentBytes < (x.sentMore n).ioContext.totalBytes
      from hmore)] at k₄
    obtain ⟨o₅, v, s₅, tr₅, h₅, rfl, k₅⟩ := Machine.performs_perform.mp k₄
    obtain ⟨y₅, -, rfl, rfl⟩ := exec_getSocket h₅
    obtain ⟨o₆, r, s₆, tr₆, h₆, rfl, k₆⟩ := Machine.performs_perform.mp k₅
    have hr : r.failed = false := hposted _ _ _ _
      (.tail _ (.tail _ (.tail _ (.tail _ (.tail _ (.head _))))))
    obtain ⟨-, k', -, rfl⟩ | ⟨hfailed, -⟩ := exec_wsaSend h₆
    swap
    · cases hr.symm.trans hfailed
    rw [if_neg (by simp [hr])] at k₆
    obtain ⟨rfl, rfl, rfl⟩ := Machine.performs_ret.mp k₆
    refine ⟨rfl, x.sentMore n, hs₃, ?_⟩
    rw [SocketContext.Advances, if_pos hmore]
    simp [postedSends, SocketContext.sentMore]
  · rw [if_neg (show ¬ (x.sentMore n).ioContext.sentBytes < (x.sentMore n).ioContext.totalBytes
      from hmore)] at k₄
    obtain ⟨o₅, r₅, s₅, tr₅, h₅, rfl, k₅⟩ := Machine.performs_perform.mp k₄
    obtain ⟨y₅, hy₅, rfl⟩ := exec_setLastOperation h₅
    cases hs₃.symm.trans hy₅
    obtain ⟨o₆, r₆, s₆, tr₆, h₆, rfl, k₆⟩ := Machine.performs_perform.mp k₅
    obtain ⟨y₆, hy₆, rfl⟩ := exec_setSentBytes h₆
    cases (Function.update_self ..).symm.trans hy₆
    obtain ⟨rfl, rfl, rfl⟩ := Machine.performs_ret.mp k₆
    refine ⟨rfl, x.sentAll, Function.update_self .., ?_⟩
    rw [SocketContext.Advances, if_neg hmore]
    exact ⟨rfl, rfl⟩

/-! ## The dispatch -/

lemma exec_getExiting {o : Outcome} {b : Bool}
    (h : exec t .getExiting o s = some (b, s')) : b = s.exiting ∧ s' = s := by
  cases o <;> cases h
  exact ⟨rfl, rfl⟩

lemma exec_getIsRunning {o : Outcome} {b : Bool}
    (h : exec t .getIsRunning o s = some (b, s')) : b = s.isRunning ∧ s' = s := by
  cases o <;> cases h
  exact ⟨rfl, rfl⟩

/-- While the last operation is a send, the completion reaches `handle_send`, and the loop goes
on. -/
lemma turn_performs {n : ℕ} {next : Turn} {tr : Trace Action.Res} (hx : s.contexts c = some x)
    (hexiting : s.exiting = false) (hrunning : s.isRunning = true)
    (hop : x.ioContext.lastOperation = .ioSend) (hn : 0 < n)
    (h : (machine role).Performs t (turn ⟨true, n, some k, some c⟩) s tr next s')
    (hposted : SendsPosted tr) :
    next = .again ∧ ∃ x', s'.contexts c = some x' ∧ x.Advances n x' (postedSends c tr) := by
  unfold turn at h
  obtain ⟨o₁, b₁, s₁, tr₁, h₁, rfl, k₁⟩ := Machine.performs_perform.mp h
  obtain ⟨rfl, rfl⟩ := exec_getExiting h₁
  rw [if_neg (by simp [hexiting])] at k₁
  obtain ⟨o₂, b₂, s₂, tr₂, h₂, rfl, k₂⟩ := Machine.performs_perform.mp k₁
  obtain ⟨rfl, rfl⟩ := exec_getIsRunning h₂
  rw [if_neg (by simp [hrunning])] at k₂
  unfold handlePacket at k₂
  simp only [deref] at k₂
  obtain ⟨o₃, io, s₃, tr₃, h₃, rfl, k₃⟩ := Machine.performs_perform.mp k₂
  obtain ⟨y₃, hy₃, rfl, rfl⟩ := exec_getIoContext h₃
  cases hx.symm.trans hy₃
  rw [if_neg (by simp; omega)] at k₃
  unfold switch at k₃
  obtain ⟨o₄, io, s₄, tr₄, h₄, rfl, k₄⟩ := Machine.performs_perform.mp k₃
  obtain ⟨y₄, hy₄, rfl, rfl⟩ := exec_getIoContext h₄
  cases hx.symm.trans hy₄
  simp only [hop, alplAssert] at k₄
  obtain ⟨rc, s₅, tr₅, tr₆, rfl, k₅, k₆⟩ := Machine.performs_bind.mp k₄
  have hsend : SendsPosted tr₅ := fun v o data r hmem => hposted v o data r
    (.tail _ (.tail _ (.tail _ (.tail _ (List.mem_append_left _ hmem)))))
  obtain ⟨rfl, x', hx', hadvances⟩ := handleSend_performs hx k₅ hsend
  rw [if_neg (by simp)] at k₆
  obtain ⟨rfl, rfl, rfl⟩ := Machine.performs_ret.mp k₆
  refine ⟨rfl, x', hx', ?_⟩
  simpa [postedSends] using hadvances

/-! ## The chain of completions -/

/-- The context of a send that has just been posted: nothing is completed, and there is a block of
at least one byte that its buffer has room for. -/
structure SocketContext.Fresh (x : SocketContext) (total : ℕ) : Prop where
  lastOperation : x.ioContext.lastOperation = .ioSend
  sentBytes : x.ioContext.sentBytes = 0
  totalBytes : x.ioContext.totalBytes = total
  pos : 1 ≤ total
  le : total ≤ maxBuffSize
  buffer : x.ioContext.buffer.length = maxBuffSize

/-- Between two turns the other threads leave the `io_context` alone and do not stop the handler. -/
structure Undisturbed (c : ContextPtr) (s s' : State) : Prop where
  context : s'.contexts c = s.contexts c
  exiting : s'.exiting = false
  isRunning : s'.isRunning = true

/-- From the state `s₀` in which the block `first` has been posted for the context `c`, workers have
handled `m` completions.  The bytes of `accepted` have been accepted in this order, and `posted` are
the sends outstanding.  Each completion has a size from one byte up to what was posted. -/
inductive Chain (role : Role) (k c : ContextPtr) (s₀ : State) (first : List UInt8) :
    State → List UInt8 → List (List UInt8) → ℕ → Prop
  | start : Chain role k c s₀ first s₀ [] [first] 0
  | complete {s s₁ s₂ : State} {accepted data : List UInt8} {posted : List (List UInt8)}
      {m n : ℕ} {t : Tid} {tr : Trace Action.Res} {next : Turn} :
      Chain role k c s₀ first s accepted (data :: posted) m → Undisturbed c s s₁ →
      1 ≤ n → n ≤ data.length →
      (machine role).Performs t (turn ⟨true, n, some k, some c⟩) s₁ tr next s₂ →
      SendsPosted tr →
      Chain role k c s₀ first s₂ (accepted ++ data.take n) (posted ++ postedSends c tr) (m + 1)

/-- The first `i` bytes have been accepted and the rest of the block is outstanding. -/
structure InFlight (x : SocketContext) (total i : ℕ) (y : SocketContext) (accepted : List UInt8)
    (posted : List (List UInt8)) : Prop where
  lt : i < total
  accepted : accepted = x.ioContext.buffer.take i
  posted : posted = [slice x.ioContext.buffer i total]
  context : y = { x with ioContext.sentBytes := i }

/-- The whole block has been accepted and nothing is outstanding. -/
structure Done (x : SocketContext) (total : ℕ) (y : SocketContext) (accepted : List UInt8)
    (posted : List (List UInt8)) : Prop where
  accepted : accepted = x.ioContext.buffer.take total
  posted : posted = []
  context : y = x.sentAll

lemma SocketContext.Fresh.length_slice {total i : ℕ} (h : x.Fresh total) :
    (slice x.ioContext.buffer i total).length = total - i := by
  have hbuffer := h.buffer
  have hle := h.le
  simp only [slice, List.length_take, List.length_drop]
  omega

/-- What is accepted and the next part of the rest are one prefix of the buffer. -/
lemma take_append_slice (buffer : List UInt8) {i n total : ℕ} (h : i + n ≤ total) :
    buffer.take i ++ (slice buffer i total).take n = buffer.take (i + n) := by
  rw [slice, List.take_take, Nat.min_eq_left (by omega), List.take_add]

/-- One completion: the rest is posted again, or the block is done. -/
lemma InFlight.advance {total i n : ℕ} {y y' : SocketContext} {accepted data : List UInt8}
    {posted posted' : List (List UInt8)} (hfresh : x.Fresh total)
    (h : InFlight x total i y accepted (data :: posted)) (hn : 1 ≤ n) (hle : n ≤ data.length)
    (hadvances : y.Advances n y' posted') :
    InFlight x total (i + n) y' (accepted ++ data.take n) (posted ++ posted') ∨
      Done x total y' (accepted ++ data.take n) (posted ++ posted') := by
  obtain ⟨hlt, rfl, hposted, rfl⟩ := h
  obtain ⟨rfl, rfl⟩ := List.cons_eq_cons.mp hposted
  rw [hfresh.length_slice] at hle
  have htake := take_append_slice x.ioContext.buffer (show i + n ≤ total by omega)
  have htotal := hfresh.totalBytes
  have hop := hfresh.lastOperation
  unfold SocketContext.Advances at hadvances
  split at hadvances
  · rename_i hmore
    obtain ⟨rfl, rfl⟩ := hadvances
    simp only [htotal] at hmore
    have hoffset : ((i : ℤ) + n).toNat = i + n := by omega
    have hrest : ((total : ℤ) - (i + n)).toNat = total - (i + n) := by omega
    refine .inl ⟨by omega, htake, ?_, ?_⟩
    · simp only [htotal, hoffset, hrest]
      rfl
    · simp [SocketContext.sentMore, ← hop]
  · rename_i hmore
    obtain ⟨rfl, rfl⟩ := hadvances
    simp only [htotal] at hmore
    obtain rfl : total = i + n := by omega
    exact .inr ⟨htake, rfl, rfl⟩

lemma chain_invariant {s₀ : State} {total m : ℕ} {accepted : List UInt8}
    {posted : List (List UInt8)} (hx : s₀.contexts c = some x) (hfresh : x.Fresh total)
    (h : Chain role k c s₀ (x.ioContext.buffer.take total) s accepted posted m) :
    ∃ y, s.contexts c = some y ∧ m ≤ accepted.length ∧
      ((∃ i, InFlight x total i y accepted posted) ∨ Done x total y accepted posted) := by
  induction h with
  | start =>
      refine ⟨x, hx, Nat.zero_le _, .inl ⟨0, ⟨hfresh.pos, rfl, ?_, ?_⟩⟩⟩
      · simp [slice]
      · obtain ⟨v, io⟩ := x
        have hsent : io.sentBytes = 0 := hfresh.sentBytes
        rw [Int.natCast_zero, ← hsent]
  | @complete s s₁ s₂ accepted data posted m n t tr next hchain hundisturbed hn hle hperforms
      hposted ih =>
      obtain ⟨y, hy, hm, ⟨i, hflight⟩ | hdone⟩ := ih
      · have hop : y.ioContext.lastOperation = .ioSend := by
          rw [hflight.context]
          exact hfresh.lastOperation
        obtain ⟨-, y', hy', hadvances⟩ := turn_performs (hundisturbed.context.trans hy)
          hundisturbed.exiting hundisturbed.isRunning hop hn hperforms hposted
        refine ⟨y', hy', ?_, ?_⟩
        · rw [List.length_append, List.length_take]
          omega
        · obtain hflight' | hdone := hflight.advance hfresh hn hle hadvances
          · exact .inl ⟨_, hflight'⟩
          · exact .inr hdone
      · exact nomatch hdone.posted

/-! ## Every completion is handled -/

/-- The socket of the context is open. -/
def Open (k : ContextPtr) (s : State) : Prop :=
  ∃ z, s.contexts k = some z ∧ (s.handles z.socket).isSome

lemma exec_getIoContext_ok (hx : s.contexts c = some x) :
    (machine role).exec t (.getIoContext c) .ok s = some (x.ioContext, s) := by
  simp only [machine, handlerMachine, exec, hx, Option.map_some]

lemma exec_setLastOperation_ok (hx : s.contexts c = some x) (op : LastIoOperation) :
    (machine role).exec t (.setLastOperation c op) .ok s =
      some ((), s.setContext c (some { x with ioContext.lastOperation := op })) := by
  simp only [machine, handlerMachine, exec, hx, Option.map_some]

lemma exec_setSentBytes_ok (hx : s.contexts c = some x) (n : ℤ) :
    (machine role).exec t (.setSentBytes c n) .ok s =
      some ((), s.setContext c (some { x with ioContext.sentBytes := n })) := by
  simp only [machine, handlerMachine, exec, hx, Option.map_some]

/-- The other members of a context do not matter for the socket of the key. -/
lemma open_setContext {x' : SocketContext} (hx : s.contexts c = some x)
    (hsocket : x'.socket = x.socket) (h : Open k s) : Open k (s.setContext c (some x')) := by
  obtain ⟨z, hz, hopen⟩ := h
  by_cases hk : k = c
  · subst hk
    obtain rfl : x = z := Option.some.inj (hx.symm.trans hz)
    exact ⟨x', Function.update_self .., by rw [hsocket]; exact hopen⟩
  · exact ⟨z, (Function.update_of_ne hk ..).trans hz, hopen⟩

lemma exists_wsaSend (h : Open k s) (data : List UInt8) : ∃ v s',
    (machine role).exec t (.getSocket k) .ok s = some (v, s) ∧
      (machine role).exec t (.wsaSend v c data) .ok s = some (⟨0, 0⟩, s') := by
  obtain ⟨z, hz, hopen⟩ := h
  obtain ⟨i, hi⟩ := Option.isSome_iff_exists.mp hopen
  have hsocket : (machine role).exec t (.getSocket k) .ok s = some (z.socket, s) := by
    simp only [machine, handlerMachine, exec, hz, Option.map_some]
  have hpost : ∃ s', (machine role).exec t (.wsaSend z.socket c data) .ok s =
      some (⟨0, 0⟩, s') := by
    simp only [machine, handlerMachine, exec, exec.post, hi, Option.map_some]
    exact ⟨_, rfl⟩
  obtain ⟨s', hpost⟩ := hpost
  exact ⟨z.socket, s', hsocket, hpost⟩

/-- Thread `t` can run `p` to the result `y` in such a way that the system takes every send. -/
def CanRun {α : Type} (role : Role) (t : Tid) (p : P α) (s : State) (y : α) : Prop :=
  ∃ tr s', (machine role).Performs t p s tr y s' ∧ SendsPosted tr

section

variable {α β : Type} {y : α}

lemma canRun_ret : CanRun role t (pure y) s y := ⟨[], s, .ret y s, nofun⟩

lemma CanRun.perform {a : Action} {f : a.Res → P α} {o : Outcome} {r : a.Res}
    (he : (machine role).exec t a o s = some (r, s'))
    (ha : ∀ v c data r', (⟨a, r⟩ : Σ a : Action, a.Res) = ⟨.wsaSend v c data, r'⟩ →
      CallResult.failed r' = false)
    (h : CanRun role t (f r) s' y) : CanRun role t (act a >>= f) s y := by
  obtain ⟨tr, s₂, hperforms, hposted⟩ := h
  refine ⟨_, s₂, .perform he hperforms, ?_⟩
  intro v c data r' hmem
  obtain heq | hmem := List.mem_cons.mp hmem
  · exact ha v c data r' heq.symm
  · exact hposted v c data r' hmem

lemma CanRun.bind {p : P β} {f : β → P α} {z : β}
    (hp : ∃ tr s', (machine role).Performs t p s tr z s' ∧ SendsPosted tr ∧
      CanRun role t (f z) s' y) : CanRun role t (p >>= f) s y := by
  obtain ⟨tr, s₁, hperforms, hposted, tr', s₂, hperforms', hposted'⟩ := hp
  refine ⟨_, s₂, .bind hperforms hperforms', ?_⟩
  intro v c data r hmem
  obtain hmem | hmem := List.mem_append.mp hmem
  · exact hposted v c data r hmem
  · exact hposted' v c data r hmem

end

lemma canRun_handleSend (hx : s.contexts c = some x) (hopen : Open k s) (n : ℕ) :
    CanRun role t (handleSend k ⟨n, c⟩) s commSuccess := by
  have hx₁ : (s.setContext c (some { x with ioContext.lastOperation := .ioSend })).contexts c =
      some { x with ioContext.lastOperation := .ioSend } := Function.update_self ..
  have hx₂ : ((s.setContext c (some { x with ioContext.lastOperation := .ioSend })).setContext c
      (some (x.sentMore n))).contexts c = some (x.sentMore n) := Function.update_self ..
  have hopen₂ : Open k ((s.setContext c
      (some { x with ioContext.lastOperation := .ioSend })).setContext c (some (x.sentMore n))) :=
    open_setContext hx₁ rfl (open_setContext hx rfl hopen)
  unfold handleSend
  refine .perform (exec_setLastOperation_ok hx _) nofun ?_
  refine .perform (exec_getIoContext_ok hx₁) nofun ?_
  refine .perform (exec_setSentBytes_ok hx₁ _) nofun ?_
  refine .perform (exec_getIoContext_ok hx₂) nofun ?_
  split
  · obtain ⟨v, s₃, hsocket, hpost⟩ := exists_wsaSend hopen₂ _
    refine .perform hsocket nofun ?_
    refine .perform hpost ?_ canRun_ret
    rintro _ _ _ _ ⟨⟩
    rfl
  · refine .perform (exec_setLastOperation_ok hx₂ _) nofun ?_
    exact .perform (exec_setSentBytes_ok (Function.update_self ..) _) nofun canRun_ret

/-- A completion of the send on an open socket can be handled. -/
lemma canRun_turn (hx : s.contexts c = some x) (hopen : Open k s) (hexiting : s.exiting = false)
    (hrunning : s.isRunning = true) (hop : x.ioContext.lastOperation = .ioSend) {n : ℕ}
    (hn : 0 < n) : CanRun role t (turn ⟨true, n, some k, some c⟩) s .again := by
  unfold turn
  refine CanRun.perform (o := .ok) rfl nofun ?_
  rw [if_neg (by simp [hexiting])]
  refine CanRun.perform (o := .ok) rfl nofun ?_
  rw [if_neg (by simp [hrunning])]
  refine .perform (exec_getIoContext_ok hx) nofun ?_
  rw [if_neg (by simp; omega)]
  refine .perform (exec_getIoContext_ok hx) nofun ?_
  rw [hop]
  have hsend : CanRun role t (handleSend k ⟨n, c⟩) s commSuccess := canRun_handleSend hx hopen n
  obtain ⟨tr, s', hsend, hposted⟩ := hsend
  exact .bind ⟨tr, s', hsend, hposted, canRun_ret⟩

/-! ## The whole block -/

/-- There are bytes left: the rest of the block is the one send outstanding, and every size of its
completion is handled by a turn that goes on with the loop. -/
structure Outstanding (role : Role) (k c : ContextPtr) (x : SocketContext) (total : ℕ) (s : State)
    (accepted : List UInt8) (posted : List (List UInt8)) : Prop where
  lt : accepted.length < total
  posted : posted = [slice x.ioContext.buffer accepted.length total]
  length : (slice x.ioContext.buffer accepted.length total).length = total - accepted.length
  lastOperation : ∃ y, s.contexts c = some y ∧ y.ioContext.lastOperation = .ioSend
  handled : ∀ s₁ t n, Undisturbed c s s₁ → Open k s₁ → 1 ≤ n → n ≤ total - accepted.length →
    CanRun role t (turn ⟨true, n, some k, some c⟩) s₁ .again

/-- Nothing is left, and no send is outstanding. -/
structure Complete (c : ContextPtr) (total : ℕ) (s : State) (accepted : List UInt8)
    (posted : List (List UInt8)) : Prop where
  length : accepted.length = total
  posted : posted = []
  context : ∃ y, s.contexts c = some y ∧ y.ioContext.sentBytes = 0 ∧
    y.ioContext.lastOperation = .ioReceive

/-- **Partial sends are completed exactly.**  Whatever the sizes of the completions, the socket
accepts the block from its first byte on, each byte once; each completion accepts at least one, and
until the last byte is accepted exactly the rest of the block is outstanding. -/
theorem sent_exactly {s₀ : State} {total m : ℕ} {accepted : List UInt8}
    {posted : List (List UInt8)} (hx : s₀.contexts c = some x) (hfresh : x.Fresh total)
    (h : Chain role k c s₀ (x.ioContext.buffer.take total) s accepted posted m) :
    accepted = x.ioContext.buffer.take accepted.length ∧ m ≤ accepted.length ∧
      accepted.length ≤ total ∧
      (Outstanding role k c x total s accepted posted ∨ Complete c total s accepted posted) := by
  obtain ⟨y, hy, hm, ⟨i, hflight⟩ | hdone⟩ := chain_invariant hx hfresh h
  · have hlt := hflight.lt
    have hlen : accepted.length = i := by
      rw [hflight.accepted, List.length_take, hfresh.buffer]
      have hle := hfresh.le
      omega
    have hop : y.ioContext.lastOperation = .ioSend := by
      rw [hflight.context]
      exact hfresh.lastOperation
    refine ⟨by rw [hlen]; exact hflight.accepted, hm, by omega, .inl ⟨by omega, ?_, ?_, ?_, ?_⟩⟩
    · rw [hlen]
      exact hflight.posted
    · exact hfresh.length_slice
    · exact ⟨y, hy, hop⟩
    · intro s₁ t n hundisturbed hopen hn _
      exact canRun_turn (hundisturbed.context.trans hy) hopen hundisturbed.exiting
        hundisturbed.isRunning hop hn
  · have hlen : accepted.length = total := by
      rw [hdone.accepted, List.length_take, hfresh.buffer]
      exact Nat.min_eq_left hfresh.le
    refine ⟨by rw [hlen]; exact hdone.accepted, hm, by omega, .inr ⟨hlen, hdone.posted, y, hy, ?_⟩⟩
    rw [hdone.context]
    exact ⟨rfl, rfl⟩

/-- A context whose send of three bytes has been posted. -/
def exampleSending : SocketContext where
  socket := 100
  ioContext :=
    { buffer := [1, 2, 3] ++ List.replicate (maxBuffSize - 3) 0
      totalBytes := 3
      sentBytes := 0
      lastOperation := .ioSend
      socketAccept := invalidSocket }

lemma exampleSending_fresh : exampleSending.Fresh 3 where
  lastOperation := rfl
  sentBytes := rfl
  totalBytes := rfl
  pos := by omega
  le := by decide
  buffer := by
    simp only [exampleSending, List.length_append, List.length_replicate]
    rfl

def exampleState : State :=
  (State.initClient ⟨Handlers.none, 1, by decide⟩ 100).setContext 0 (some exampleSending)

/-- Two of the three bytes are completed, and the third is sent again. -/
theorem sent_exactly_two : ∃ s posted,
    Chain .client 0 0 exampleState (exampleSending.ioContext.buffer.take 3) s [1, 2] posted 1 ∧
      Outstanding .client 0 0 exampleSending 3 s [1, 2] posted := by
  have hx : exampleState.contexts 0 = some exampleSending := rfl
  have hopen : Open 0 exampleState := ⟨exampleSending, hx, by decide⟩
  have hturn : CanRun .client (.worker 0) (turn ⟨true, 2, some 0, some 0⟩) exampleState .again :=
    canRun_turn hx hopen rfl rfl rfl (by omega)
  obtain ⟨tr, s, hperforms, hposted⟩ := hturn
  have hchain : Chain .client 0 0 exampleState (exampleSending.ioContext.buffer.take 3) s [1, 2]
      ([] ++ postedSends 0 tr) 1 :=
    .complete .start ⟨rfl, rfl, rfl⟩ (by omega) (by decide) hperforms hposted
  refine ⟨s, _, hchain, ?_⟩
  obtain ⟨-, -, -, houtstanding | hcomplete⟩ := sent_exactly hx exampleSending_fresh hchain
  · exact houtstanding
  · exact absurd hcomplete.length (by decide)

end Alpl.Net
