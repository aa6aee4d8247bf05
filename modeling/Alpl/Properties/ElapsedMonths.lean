import Alpl.Util.Stopwatch
import Mathlib.Tactic.NormNum
import Mathlib.Tactic.Linarith

/-!
# Years and months

The formats with months are for thirty days and more.  A `long` of 32 bits ends before that, and
with 64 bits the product that `convert` takes off is still one of 32 bits: from the second month on
it is too small by at least `2 ^ 32` milliseconds, which is 49 days, and these come out as days
(`thirty_le_dayValue`).
-/

namespace Alpl.Util

/-- The fields are in their ranges and add up to `t` milliseconds. -/
structure Fields.AddsUp (f : Fields) (t : ℤ) : Prop where
  sum : f.yearValue * 365 * dayFactor + f.monthValue * 30 * dayFactor + f.dayValue * dayFactor +
    f.hourValue * hourFactor + f.minValue * minFactor + f.secValue * secFactor + f.msecValue = t
  msec_lt : f.msecValue < 1000
  sec_lt : f.secValue < 60
  min_lt : f.minValue < 60
  hour_lt : f.hourValue < 24
  day_lt : f.dayValue < 30
  year_lt : f.monthValue * 30 + f.dayValue < 365

/-- `readable` gets to its formats, with fields that add up to the rounded time; those it leaves out
are zero. -/
def AddsUp (w : ℕ) (elapsed : ℚ) : Prop :=
  ∃ z, truncate w (elapsed + 1 / 2) = some z ∧ (fields w z).AddsUp ⌊elapsed + 1 / 2⌋

/-- The whole chain is right as long as there is one month at most. -/
lemma addsUp_of_lt {w : ℕ} (hw : 32 ≤ w) {z : ℤ} (h0 : 0 ≤ z) (h : z < 2 ^ (w - 1))
    (hmonths : z < 2 * monthFactor) : (fields w z).AddsUp z := by
  rw [fields_of_lt hw h0 h hmonths]
  simp only [monthFactor] at hmonths
  constructor <;> simp only [monthFactor, dayFactor, hourFactor, minFactor, secFactor] <;> omega

/-- From two months on, what is left for the days is `49` days or more. -/
lemma two_pow_le_rest {z : ℤ} (h : 2 * monthFactor ≤ z) :
    2 ^ 32 ≤ z - z / monthFactor * monthFactor % 2 ^ 32 := by
  simp only [monthFactor] at h ⊢
  omega

/-- Fields in their ranges are a year apart from what the years make. -/
lemma Fields.AddsUp.lt_year {f : Fields} {t : ℤ} (h : f.AddsUp t) :
    t < (f.yearValue * 365 + 365) * dayFactor := by
  have hsum := h.sum
  have hmsec := h.msec_lt
  have hsec := h.sec_lt
  have hmin := h.min_lt
  have hhour := h.hour_lt
  have hyear := h.year_lt
  simp only [dayFactor, hourFactor, minFactor, secFactor] at hsum ⊢
  omega

lemma wrap_spec (z : ℤ) :
    -2 ^ 31 ≤ wrap 32 z ∧ wrap 32 z < 2 ^ 31 ∧ wrap 32 z % 2 ^ 32 = z % 2 ^ 32 := by
  have hlow : -(2 ^ 32 / 2 : ℤ) ≤ wrap 32 z := Int.le_bmod (by norm_num)
  have hhigh : wrap 32 z < (2 ^ 32 + 1) / 2 := Int.bmod_lt (by norm_num)
  exact ⟨by omega, by omega, Int.bmod_emod⟩

/-- If the fields add up, the number of days has not been narrowed: the years were too few. -/
lemma Fields.AddsUp.days_lt {z : ℤ} (h0 : 0 ≤ z) (h : z < 2 ^ 63) (hadds : (fields 64 z).AddsUp z) :
    z / dayFactor < 2 ^ 31 := by
  have hyear := hadds.lt_year
  have hvalue : (fields 64 z).yearValue = (wrap 32 (z / dayFactor)).tdiv 365 := by
    rw [fields, toCommon_of_lt (by norm_num) h0 h, Int.tdiv_eq_ediv_of_nonneg h0]
  have hday : (dayFactor : ℤ) = 86400000 := by decide
  rw [hday] at hyear hvalue ⊢
  obtain ⟨-, hhigh, hmod⟩ := wrap_spec (z / 86400000)
  generalize wrap 32 (z / 86400000) = totalDays at hvalue hhigh hmod
  by_cases hneg : totalDays < 0
  · have hyears : 0 ≤ (-totalDays).tdiv 365 := Int.tdiv_nonneg (by omega) (by omega)
    rw [Int.neg_tdiv] at hyears
    omega
  · rw [Int.tdiv_eq_ediv_of_nonneg (by omega)] at hvalue
    omega

lemma not_addsUp {z : ℤ} (h0 : 2 * monthFactor ≤ z) (h : z < 2 ^ 63) :
    ¬ (fields 64 z).AddsUp z := by
  intro hadds
  have hpos : 0 ≤ z := le_trans (by positivity) h0
  have hdays := hadds.days_lt hpos h
  have hrest := two_pow_le_rest h0
  have hpart : 0 ≤ z / monthFactor * monthFactor % 2 ^ 32 := Int.emod_nonneg _ (by norm_num)
  have hvalue : (fields 64 z).dayValue =
      wrap 32 ((z - z / monthFactor * monthFactor % 2 ^ 32) / dayFactor) := by
    rw [fields, convert_of_nonneg (by norm_num) hpos h,
      convert_of_nonneg (by norm_num) (by omega) (by omega)]
  have hlt := hadds.day_lt
  have hday : (dayFactor : ℤ) = 86400000 := by decide
  rw [hday] at hdays hvalue
  rw [hvalue, wrap_of_lt (by norm_num) (by omega) (by omega)] at hlt
  omega

/-- **Years and months never add up beyond one month**, and with a `long` of 32 bits not at all. -/
theorem addsUp_iff {w : ℕ} (hw : w = 32 ∨ w = 64) {elapsed : ℚ} (h : (monthFactor : ℚ) ≤ elapsed) :
    AddsUp w elapsed ↔ w = 64 ∧ ⌊elapsed + 1 / 2⌋ < 2 * monthFactor := by
  have hlow : (monthFactor : ℤ) ≤ ⌊elapsed + 1 / 2⌋ :=
    Int.le_floor.mpr (by push_cast; linarith)
  have hround : 0 ≤ elapsed + 1 / 2 := by
    have hpos : (0 : ℚ) ≤ monthFactor := Nat.cast_nonneg _
    linarith
  constructor
  · rintro ⟨z, htrunc, hadds⟩
    obtain ⟨rfl, hlt⟩ := lt_of_truncate hround htrunc
    obtain rfl | rfl := hw
    · simp only [monthFactor] at hlow
      omega
    · refine ⟨rfl, ?_⟩
      by_contra hmonths
      exact not_addsUp (by omega) hlt hadds
  · rintro ⟨rfl, hmonths⟩
    have hlt : ⌊elapsed + 1 / 2⌋ < 2 ^ 63 := by
      simp only [monthFactor] at hmonths
      omega
    refine ⟨_, truncate_of_lt hround ?_, addsUp_of_lt (by norm_num) (by omega) hlt hmonths⟩
    exact_mod_cast Int.floor_lt.mp hlt

/-- A month and a half. -/
theorem addsUp_month : AddsUp 64 (45 * dayFactor) := by
  refine (addsUp_iff (.inr rfl) ?_).mpr ⟨rfl, Int.floor_lt.mpr ?_⟩
  · norm_num [monthFactor, dayFactor]
  · norm_num [monthFactor, dayFactor]

/-- Sixty days come out as two months, 49 days and 17 hours. -/
theorem months_garbled : readable 64 (60 * dayFactor) = some "2M49D17:02:47.296" ∧
    ¬ AddsUp 64 (60 * dayFactor) := by
  have hfloor : ⌊(60 * dayFactor : ℚ) + 1 / 2⌋ = 5184000000 := by
    norm_num [Int.floor_eq_iff, dayFactor]
  have htrunc : truncate 64 ((60 * dayFactor : ℚ) + 1 / 2) = some 5184000000 := by
    rw [truncate_of_lt (by positivity) (by norm_num [dayFactor]), hfloor]
  constructor
  · rw [readable_of_truncate htrunc]
    decide
  · rintro ⟨z, hz, hadds⟩
    rw [htrunc] at hz
    obtain rfl := Option.some.inj hz
    exact absurd hadds.day_lt (by decide)

end Alpl.Util
