import Alpl.Interleaving.Refinement
import Mathlib.Data.List.Basic
import Mathlib.Logic.Function.Basic

/-!
# Sessions

What a server of byte streams is for.  A peer connects, and its bytes arrive; the user is given them
in order, as long as the session is live; then the user is told, once, that the peer has gone, and
when everything that arrived has been given the session is closed.  `Sessions.step` is the model, in
which each session has nothing but its bytes and its phase, and there are no threads, sockets or
buffers.

The rest is about its runs: what is shown of a session is data and then at most one farewell, and
the data are the bytes given.
-/

namespace Sessions

open Interleaving

variable {ι α : Type}

/-- How far a session has come. -/
inductive Phase
  | live
  /-- The user knows that the peer has gone. -/
  | told
  | closed
  deriving DecidableEq, Repr

/-- A session with a peer. -/
structure Session (α : Type) where
  /-- The bytes of the peer that have arrived. -/
  arrived : List α
  /-- Those of them that the user was given. -/
  given : List α
  phase : Phase

/-- What the user is shown, and who it is said to be about. -/
inductive Notice (ι α : Type)
  | connected (i : ι) (bytes : List α)
  | data (i : ι) (bytes : List α)
  | disconnected (i : ι)
  deriving DecidableEq, Repr

/-- Who a notice is about. -/
def Notice.sender : Notice ι α → ι
  | .connected i _ => i
  | .data i _ => i
  | .disconnected i => i

abbrev Table (ι α : Type) := ι → Option (Session α)

/-- The table before anybody has connected. -/
def Table.empty : Table ι α := fun _ => none

section

variable [DecidableEq ι]

/-- The steps; `wants` says whether the user wants the bytes.  A notice may name nobody. -/
inductive Step (wants : Bool) : Table ι α → Option (Notice (Option ι) α) → Table ι α → Prop
  /-- A peer connects, with bytes that came at once. -/
  | connect {σ : Table ι α} {i : ι} (bytes : List α) (h : σ i = none) :
      Step wants σ none (Function.update σ i (some ⟨bytes, [], .live⟩))
  | arrive {σ : Table ι α} {i : ι} {x : Session α} (bytes : List α) (h : σ i = some x)
      (hlive : x.phase = .live) :
      Step wants σ none (Function.update σ i (some { x with arrived := x.arrived ++ bytes }))
  /-- The user is given what is left. -/
  | give {σ : Table ι α} {i : ι} {x : Session α} (bytes : List α) (hwants : wants = true)
      (h : σ i = some x) (hlive : x.phase = .live) (hrest : x.given ++ bytes = x.arrived) :
      Step wants σ (some (.data (some i) bytes))
        (Function.update σ i (some { x with given := x.arrived }))
  | tell {σ : Table ι α} {i : ι} {x : Session α} (h : σ i = some x) (hlive : x.phase = .live) :
      Step wants σ (some (.disconnected (some i)))
        (Function.update σ i (some { x with phase := .told }))
  /-- Nothing that arrived may be left. -/
  | close {σ : Table ι α} {i : ι} {x : Session α} (h : σ i = some x) (htold : x.phase = .told)
      (hall : wants = true → x.given = x.arrived) :
      Step wants σ none (Function.update σ i (some { x with phase := .closed }))

/-- The model of a server. -/
def step (wants : Bool) : Model (Table ι α) (Notice (Option ι) α) := Step wants

/-! ## What every run keeps -/

/-- The bytes that were shown of session `i`. -/
def dataOf (i : ι) : List (Notice (Option ι) α) → List α
  | [] => []
  | .data (some j) bytes :: os => if j = i then dataOf i os ++ bytes else dataOf i os
  | _ :: os => dataOf i os

/-- The notices of session `i`, the newest first. -/
def noticesOf (i : ι) (os : List (Notice (Option ι) α)) : List (Notice (Option ι) α) :=
  os.filter fun o => o.sender = some i

/-- Data only. -/
def OnlyData (i : ι) (os : List (Notice (Option ι) α)) : Prop :=
  ∀ o ∈ noticesOf i os, ∃ bytes, o = .data (some i) bytes

/-- Data, and then one farewell. -/
def Farewell (i : ι) (os : List (Notice (Option ι) α)) : Prop :=
  ∃ rest, noticesOf i os = .disconnected (some i) :: rest ∧
    ∀ o ∈ rest, ∃ bytes, o = .data (some i) bytes

/-- What session `x` and what was shown of it have to do with each other. -/
structure Session.Ok (wants : Bool) (i : ι) (os : List (Notice (Option ι) α)) (x : Session α) :
    Prop where
  inOrder : x.given <+: x.arrived
  shown : dataOf i os = x.given
  live : x.phase = .live → OnlyData i os
  told : x.phase ≠ .live → Farewell i os
  all : x.phase = .closed → wants = true → x.given = x.arrived

/-- The invariant of the runs. -/
structure Ok (wants : Bool) (os : List (Notice (Option ι) α)) (σ : Table ι α) : Prop where
  absent : ∀ i, σ i = none → noticesOf i os = [] ∧ dataOf i os = []
  present : ∀ i x, σ i = some x → x.Ok wants i os

lemma noticesOf_cons (i : ι) (o : Notice (Option ι) α) (os : List (Notice (Option ι) α)) :
    noticesOf i (o :: os) = if o.sender = some i then o :: noticesOf i os else noticesOf i os := by
  simp [noticesOf, List.filter_cons]

lemma dataOf_of_ne {i : ι} {o : Notice (Option ι) α} {os : List (Notice (Option ι) α)}
    (h : o.sender ≠ some i) : dataOf i (o :: os) = dataOf i os := by
  cases o with
  | data j bytes =>
      cases j with
      | none => rfl
      | some j => simp_all [dataOf, Notice.sender]
  | _ => rfl

/-- A step about session `i` leaves the others as they were. -/
lemma Ok.update {wants : Bool} {os : List (Notice (Option ι) α)} {σ : Table ι α} {i : ι}
    {o : Option (Notice (Option ι) α)} {x : Session α} (h : Ok wants os σ)
    (ho : ∀ n, o = some n → n.sender = some i) (hx : x.Ok wants i (o.toList ++ os)) :
    Ok wants (o.toList ++ os) (Function.update σ i (some x)) := by
  have hother : ∀ j, j ≠ i → noticesOf j (o.toList ++ os) = noticesOf j os ∧
      dataOf j (o.toList ++ os) = dataOf j os := by
    intro j hj
    cases o with
    | none => exact ⟨rfl, rfl⟩
    | some n =>
        have hne : n.sender ≠ some j := by simp [ho n rfl, hj.symm]
        exact ⟨by simp [noticesOf_cons, hne], dataOf_of_ne hne⟩
  refine ⟨fun j hj => ?_, fun j y hy => ?_⟩
  · by_cases hji : j = i
    · simp [hji] at hj
    · rw [Function.update_of_ne hji] at hj
      rw [(hother j hji).1, (hother j hji).2]
      exact h.absent j hj
  · by_cases hji : j = i
    · subst hji
      rw [Function.update_self] at hy
      exact Option.some.inj hy ▸ hx
    · rw [Function.update_of_ne hji] at hy
      have hj := h.present j y hy
      obtain ⟨hnotices, hdata⟩ := hother j hji
      refine ⟨hj.inOrder, hdata.trans hj.shown, fun hp => ?_, fun hp => ?_, hj.all⟩
      · rw [OnlyData, hnotices]
        exact hj.live hp
      · rw [Farewell, hnotices]
        exact hj.told hp

/-- Every step keeps the invariant. -/
lemma Ok.step {wants : Bool} {os : List (Notice (Option ι) α)} {σ σ' : Table ι α}
    {o : Option (Notice (Option ι) α)} (h : Ok wants os σ) (hs : Step wants σ o σ') :
    Ok wants (o.toList ++ os) σ' := by
  cases hs with
  | connect bytes hi =>
      obtain ⟨hnotices, hdata⟩ := h.absent _ hi
      refine h.update (fun n hn => by cases hn) ⟨List.nil_prefix, hdata, fun _ => ?_, ?_, ?_⟩
      · simp [OnlyData, hnotices]
      · simp
      · simp
  | arrive bytes hi hlive =>
      have hx := h.present _ _ hi
      refine h.update (fun n hn => by cases hn)
        ⟨hx.inOrder.trans (List.prefix_append _ _), hx.shown, hx.live, hx.told, ?_⟩
      simp [hlive]
  | give bytes hwants hi hlive hrest =>
      have hx := h.present _ _ hi
      refine h.update (fun n hn => by cases hn; rfl)
        ⟨List.prefix_rfl, ?_, fun _ => ?_, fun hp => absurd hlive hp, fun _ _ => rfl⟩
      · simp [dataOf, hx.shown, hrest]
      · have honly := hx.live hlive
        simp only [OnlyData, Option.toList_some, List.singleton_append, noticesOf_cons,
          Notice.sender, if_true, List.mem_cons]
        rintro n (rfl | hn)
        · exact ⟨bytes, rfl⟩
        · exact honly n hn
  | tell hi hlive =>
      have hx := h.present _ _ hi
      refine h.update (fun n hn => by cases hn; rfl) ⟨hx.inOrder, hx.shown, ?_, fun _ => ?_, ?_⟩
      · simp
      · exact ⟨_, by simp [noticesOf_cons, Notice.sender], hx.live hlive⟩
      · simp
  | close hi htold hall =>
      have hx := h.present _ _ hi
      refine h.update (fun n hn => by cases hn)
        ⟨hx.inOrder, hx.shown, ?_, fun _ => ?_, fun _ => hall⟩
      · simp
      · exact hx.told (by simp [htold])

/-- **What the runs of the model show.** -/
theorem ok_of_run {wants : Bool} {os : List (Notice (Option ι) α)} {σ : Table ι α}
    (h : (step wants).Run Table.empty os σ) : Ok wants os σ :=
  h.invariant (fun _ _ _ _ hs ho => ho.step hs)
    ⟨fun _ _ => ⟨rfl, rfl⟩, fun _ _ h => by cases h⟩

end

end Sessions
