import Mathlib.Data.Finset.Card
import Mathlib.Data.Finset.Range
import Mathlib.Data.List.Basic

/-!
# Handle tables and their ledger

An operating system makes objects and gives out handles for them.  A `Table` says which object a
handle names now, how many objects were made so far, and what each of them was bound to.  A step
makes an object under a handle that names nothing, closes a handle, or binds an object that was
not bound; an object is known by the number of those made before it, so that none is made twice.

The *ledger* of a run has an entry for every step that changed the table, the newest first.  It
balances (`Account`): the objects still open and the handles closed make up the objects made, and
so do the objects still unbound and those bound.
-/

namespace HandleTable

/-- Which object a handle names, how many objects were made, and what they are bound to. -/
structure Table (H K : Type) where
  names : H → Option ℕ
  made : ℕ
  bound : ℕ → Option K

/-- What a ledger records. -/
inductive Entry (K : Type)
  | make
  /-- A handle was closed, and it named an object or not. -/
  | close (named : Bool)
  | bind (x : K)
  deriving DecidableEq, Repr

namespace Entry

variable {K : Type}

def isMake : Entry K → Bool
  | .make => true
  | _ => false

/-- An object was closed. -/
def isClose : Entry K → Bool
  | .close named => named
  | _ => false

def isBind : Entry K → Bool
  | .bind _ => true
  | _ => false

end Entry

variable {H K : Type} [DecidableEq H] {T T' : Table H K} {e : Option (Entry K)}
variable {es : List (Entry K)}

namespace Table

/-- One step, with the entry it writes. -/
inductive Step : Table H K → Option (Entry K) → Table H K → Prop
  | idle (T : Table H K) : Step T none T
  | make {T : Table H K} {h : H} : T.names h = none →
      Step T (some .make) ⟨Function.update T.names h (some T.made), T.made + 1,
        Function.update T.bound T.made none⟩
  | close (T : Table H K) (h : H) :
      Step T (some (.close (T.names h).isSome)) { T with names := Function.update T.names h none }
  | bind {T : Table H K} {h : H} {k : ℕ} {x : K} : T.names h = some k → T.bound k = none →
      Step T (some (.bind x)) { T with bound := Function.update T.bound k (some x) }

open Classical in
/-- The objects that a handle names. -/
noncomputable def opened (T : Table H K) : Finset ℕ :=
  (Finset.range T.made).filter fun k => ∃ h, T.names h = some k

/-- The objects that were made and not bound. -/
def unbound (T : Table H K) : Finset ℕ :=
  (Finset.range T.made).filter fun k => T.bound k = none

omit [DecidableEq H] in
lemma mem_opened {k : ℕ} : k ∈ T.opened ↔ k < T.made ∧ ∃ h, T.names h = some k := by
  simp only [opened, Finset.mem_filter, Finset.mem_range]

omit [DecidableEq H] in
lemma mem_unbound {k : ℕ} : k ∈ T.unbound ↔ k < T.made ∧ T.bound k = none := by
  simp only [unbound, Finset.mem_filter, Finset.mem_range]

end Table

/-! ## The account -/

/-- The ledger `es` balances with the table. -/
structure Account (T : Table H K) (es : List (Entry K)) : Prop where
  made : es.countP Entry.isMake = T.made
  apart : ∀ g h k, T.names g = some k → T.names h = some k → g = h
  lt_made : ∀ h k, T.names h = some k → k < T.made
  opened : T.opened.card + es.countP Entry.isClose = T.made
  unbound : T.unbound.card + es.countP Entry.isBind = T.made
  bound : ∀ k x, T.bound k = some x → k < T.made ∧ .bind x ∈ es

omit [DecidableEq H] in
/-- Nothing was made yet. -/
lemma Account.start (hnames : ∀ h, T.names h = none) (hmade : T.made = 0)
    (hbound : ∀ k, T.bound k = none) : Account T [] where
  made := hmade.symm
  apart g _ k hg := nomatch (hnames g).symm.trans hg
  lt_made h k hh := nomatch (hnames h).symm.trans hh
  opened := by simp only [Table.opened, hmade, Finset.range_zero, Finset.filter_empty]; rfl
  unbound := by simp only [Table.unbound, hmade, Finset.range_zero, Finset.filter_empty]; rfl
  bound k x hk := nomatch (hbound k).symm.trans hk

namespace Account

variable (ha : Account T es)
include ha

omit [DecidableEq H] in
lemma opened_iff {k : ℕ} : k ∈ T.opened ↔ ∃ h, T.names h = some k := by
  rw [Table.mem_opened, and_iff_right_iff_imp]
  rintro ⟨h, hh⟩
  exact ha.lt_made h k hh

/-! ### The steps -/

lemma make {h : H} (hh : T.names h = none) :
    Account ⟨Function.update T.names h (some T.made), T.made + 1,
      Function.update T.bound T.made none⟩ (.make :: es) := by
  have hnames : ∀ g k, Function.update T.names h (some T.made) g = some k →
      g = h ∧ k = T.made ∨ g ≠ h ∧ T.names g = some k := by
    intro g k hg
    by_cases hgh : g = h
    · subst hgh
      rw [Function.update_self] at hg
      exact .inl ⟨rfl, (Option.some.inj hg).symm⟩
    · rw [Function.update_of_ne hgh] at hg
      exact .inr ⟨hgh, hg⟩
  have hopened : Table.opened (H := H) (K := K) ⟨Function.update T.names h (some T.made),
      T.made + 1, Function.update T.bound T.made none⟩ = insert T.made T.opened := by
    ext k
    rw [Table.mem_opened, Finset.mem_insert, ha.opened_iff]
    constructor
    · rintro ⟨-, g, hg⟩
      rcases hnames g k hg with ⟨-, hk⟩ | ⟨-, hk⟩
      · exact .inl hk
      · exact .inr ⟨g, hk⟩
    · rintro (rfl | ⟨g, hg⟩)
      · exact ⟨Nat.lt_succ_self _, h, Function.update_self _ _ _⟩
      · refine ⟨Nat.lt_succ_of_lt (ha.lt_made g k hg), g, ?_⟩
        refine (Function.update_of_ne ?_ _ _).trans hg
        rintro rfl
        exact nomatch hh.symm.trans hg
  have hunbound : Table.unbound (H := H) (K := K) ⟨Function.update T.names h (some T.made),
      T.made + 1, Function.update T.bound T.made none⟩ = insert T.made T.unbound := by
    ext k
    rw [Table.mem_unbound, Finset.mem_insert, Table.mem_unbound]
    by_cases hk : k = T.made
    · simp [hk]
    · simp only [Function.update_of_ne hk, hk, false_or]
      exact and_congr_left fun _ => by omega
  refine ⟨?_, ?_, ?_, ?_, ?_, ?_⟩
  · exact (List.countP_cons_of_pos rfl).trans (congrArg (· + 1) ha.made)
  · intro g g' k hg hg'
    rcases hnames g k hg with ⟨rfl, rfl⟩ | ⟨-, hgk⟩ <;>
      rcases hnames g' _ hg' with ⟨rfl, hk⟩ | ⟨-, hgk'⟩
    · rfl
    · exact absurd (ha.lt_made g' _ hgk') (Nat.lt_irrefl _)
    · subst hk
      exact absurd (ha.lt_made g _ hgk) (Nat.lt_irrefl _)
    · exact ha.apart g g' k hgk hgk'
  · intro g k hg
    rcases hnames g k hg with ⟨-, rfl⟩ | ⟨-, hk⟩
    · exact Nat.lt_succ_self _
    · exact Nat.lt_succ_of_lt (ha.lt_made g k hk)
  · rw [hopened, Finset.card_insert_of_notMem fun hm =>
      Nat.lt_irrefl _ (Table.mem_opened.mp hm).1]
    have hbalance := ha.opened
    show T.opened.card + 1 + es.countP Entry.isClose = T.made + 1
    omega
  · rw [hunbound, Finset.card_insert_of_notMem fun hm =>
      Nat.lt_irrefl _ (Table.mem_unbound.mp hm).1]
    have hbalance := ha.unbound
    show T.unbound.card + 1 + es.countP Entry.isBind = T.made + 1
    omega
  · intro k x hk
    by_cases hkm : k = T.made
    · subst hkm
      exact nomatch (Function.update_self _ _ _).symm.trans hk
    · obtain ⟨hlt, hmem⟩ := ha.bound k x ((Function.update_of_ne hkm _ _).symm.trans hk)
      exact ⟨Nat.lt_succ_of_lt hlt, List.mem_cons_of_mem _ hmem⟩

lemma close (h : H) :
    Account { T with names := Function.update T.names h none }
      (.close (T.names h).isSome :: es) := by
  have hnames : ∀ g k, Function.update T.names h none g = some k ↔ g ≠ h ∧ T.names g = some k := by
    intro g k
    by_cases hgh : g = h
    · simp [hgh]
    · simp [hgh]
  refine ⟨ha.made, fun g g' k hg hg' => ?_, fun g k hg => ?_, ?_, ha.unbound, fun k x hk => ?_⟩
  · exact ha.apart g g' k ((hnames g k).mp hg).2 ((hnames g' k).mp hg').2
  · exact ha.lt_made g k ((hnames g k).mp hg).2
  · cases hh : T.names h with
    | none =>
        have hopened : Table.opened { T with names := Function.update T.names h none } =
            T.opened := by
          ext k
          simp only [Table.mem_opened, hnames]
          refine and_congr_right fun _ => exists_congr fun g => and_iff_right_of_imp ?_
          rintro hg rfl
          exact nomatch hh.symm.trans hg
        rw [hopened]
        exact ha.opened
    | some k =>
        have hmem : k ∈ T.opened := ha.opened_iff.mpr ⟨h, hh⟩
        have hopened : Table.opened { T with names := Function.update T.names h none } =
            T.opened.erase k := by
          ext j
          rw [Finset.mem_erase, Table.mem_opened, Table.mem_opened]
          constructor
          · rintro ⟨hj, g, hg⟩
            obtain ⟨hgh, hgj⟩ := (hnames g j).mp hg
            refine ⟨?_, hj, g, hgj⟩
            rintro rfl
            exact hgh (ha.apart g h j hgj hh)
          · rintro ⟨hjk, hj, g, hg⟩
            refine ⟨hj, g, (hnames g j).mpr ⟨?_, hg⟩⟩
            rintro rfl
            exact hjk (Option.some.inj (hg.symm.trans hh))
        rw [hopened, Finset.card_erase_of_mem hmem, List.countP_cons_of_pos rfl]
        show T.opened.card - 1 + (es.countP Entry.isClose + 1) = T.made
        have hpos := Finset.card_pos.mpr ⟨k, hmem⟩
        have hbalance := ha.opened
        omega
  · obtain ⟨hlt, hmem⟩ := ha.bound k x hk
    exact ⟨hlt, List.mem_cons_of_mem _ hmem⟩

omit [DecidableEq H] in
lemma bind {h : H} {k : ℕ} {x : K} (hh : T.names h = some k) (hk : T.bound k = none) :
    Account { T with bound := Function.update T.bound k (some x) } (.bind x :: es) := by
  have hmem : k ∈ T.unbound := Table.mem_unbound.mpr ⟨ha.lt_made h k hh, hk⟩
  have hunbound : Table.unbound { T with bound := Function.update T.bound k (some x) } =
      T.unbound.erase k := by
    ext j
    rw [Finset.mem_erase, Table.mem_unbound, Table.mem_unbound]
    by_cases hj : j = k
    · simp [hj]
    · simp [hj]
  refine ⟨ha.made, ha.apart, ha.lt_made, ha.opened, ?_, fun j y hj => ?_⟩
  · rw [hunbound, Finset.card_erase_of_mem hmem, List.countP_cons_of_pos rfl]
    show T.unbound.card - 1 + (es.countP Entry.isBind + 1) = T.made
    have hpos := Finset.card_pos.mpr ⟨k, hmem⟩
    have hbalance := ha.unbound
    omega
  · by_cases hjk : j = k
    · subst hjk
      obtain rfl := Option.some.inj ((Function.update_self j (some x) T.bound).symm.trans hj)
      exact ⟨ha.lt_made h j hh, List.mem_cons_self⟩
    · obtain ⟨hlt, hmem⟩ := ha.bound j y ((Function.update_of_ne hjk _ _).symm.trans hj)
      exact ⟨hlt, List.mem_cons_of_mem _ hmem⟩

/-- **Every step keeps the account.** -/
theorem step (h : T.Step e T') : Account T' (e.toList ++ es) := by
  cases h with
  | idle => exact ha
  | make hh => exact ha.make hh
  | close h => exact ha.close h
  | bind hh hk => exact ha.bind hh hk

/-! ### What the account says -/

omit [DecidableEq H]

/-- Once no handle names anything, as many were closed as objects were made. -/
lemma closed_of_names (h : ∀ g, T.names g = none) :
    es.countP Entry.isClose = es.countP Entry.isMake := by
  have hopened : T.opened = ∅ := Finset.eq_empty_of_forall_notMem fun k hk => by
    obtain ⟨g, hg⟩ := ha.opened_iff.mp hk
    exact nomatch (h g).symm.trans hg
  have hbalance := ha.opened
  rw [hopened, Finset.card_empty] at hbalance
  rw [ha.made]
  omega

/-- All objects are bound exactly if as many were bound as made. -/
lemma bound_iff : (∀ k < T.made, T.bound k ≠ none) ↔
    es.countP Entry.isBind = es.countP Entry.isMake := by
  have hcount := ha.unbound
  have hempty : T.unbound = ∅ ↔ ∀ k < T.made, T.bound k ≠ none := by
    rw [Finset.eq_empty_iff_forall_notMem]
    exact forall_congr' fun k => by rw [Table.mem_unbound, not_and]
  rw [← hempty, ← Finset.card_eq_zero, ha.made]
  omega

lemma made_eq_zero (h : .make ∉ es) : T.made = 0 := by
  rw [← ha.made, List.countP_eq_zero]
  intro e he hmake
  cases e <;> cases hmake
  exact h he

lemma names_of_none_made (h : .make ∉ es) (g : H) : T.names g = none := by
  have hzero := ha.made_eq_zero h
  cases hg : T.names g with
  | none => rfl
  | some k => exact absurd (ha.lt_made g k hg) (by omega)

end Account

end HandleTable
