import Alpl.Text.Decimal
import Mathlib.Algebra.Order.Floor.Ring
import Mathlib.Data.Rat.Floor

/-!
# `util/stopwatch.h`

The texts of an elapsed time.  The time is an exact number of milliseconds, which `readable` rounds
and `readable2` truncates to a `long`; from it a chain of divisions takes the fields, and the first
field that is not zero chooses the format.

An `int` and an `unsigned int` have 32 bits and a `long` has `w`, which is 32 on Windows and 64
where the other clock of the file is used.  `none` stands for a call that C gives no meaning to: a
number that the integer type it is converted to does not have, or a text that the buffer has no
room for.
-/

namespace Alpl.Util

/-! ## Arithmetic -/

/-- The conversion of an integer to a signed type of `w` bits. -/
def wrap (w : ℕ) (z : ℤ) : ℤ := z.bmod (2 ^ w)

/-- The conversion of a `double` to a signed type of `w` bits, which cuts the fraction off. -/
def truncate (w : ℕ) (x : ℚ) : Option ℤ :=
  let z := if 0 ≤ x then ⌊x⌋ else ⌈x⌉
  if -2 ^ (w - 1) ≤ z ∧ z < 2 ^ (w - 1) then some z else none

/-- A `long` beside an `unsigned int`.  The wider `long` has all its values; one of the same size
becomes an `unsigned long`. -/
def toCommon (w : ℕ) (z : ℤ) : ℤ := if 32 < w then z else z % 2 ^ w

/-! ## The fields -/

def secFactor : ℕ := 1000

def minFactor : ℕ := 1000 * 60

def hourFactor : ℕ := 1000 * 60 * 60

def dayFactor : ℕ := 1000 * 60 * 60 * 24

/-- The product does not fit an `int`, but the `unsigned int` it wraps around to has its value. -/
def monthFactor : ℕ := 1000 * 60 * 60 * 24 * 30

/-- `convert`, with the `msecValue` it leaves.  The product of an `int` and an `unsigned int` is an
`unsigned int`. -/
def convert (w : ℕ) (msecValue : ℤ) (factor : ℕ) : ℤ × ℤ :=
  let value := wrap 32 ((toCommon w msecValue).tdiv factor)
  let product := value % 2 ^ 32 * factor % 2 ^ 32
  (value, wrap w (toCommon w msecValue - product))

lemma wrap_of_lt {w : ℕ} (hw : 0 < w) {z : ℤ} (h0 : 0 ≤ z) (h : z < 2 ^ (w - 1)) :
    wrap w z = z := by
  obtain ⟨v, rfl⟩ : ∃ v, w = v + 1 := ⟨w - 1, by omega⟩
  rw [Nat.add_sub_cancel] at h
  have hpos : (0 : ℤ) < 2 ^ v := by positivity
  unfold wrap
  apply Int.bmod_eq_of_le <;> push_cast [pow_succ] <;> omega

lemma truncate_of_lt {w : ℕ} {x : ℚ} (h0 : 0 ≤ x) (h : x < 2 ^ (w - 1)) :
    truncate w x = some ⌊x⌋ := by
  have hlow : -2 ^ (w - 1) ≤ ⌊x⌋ := (neg_nonpos.mpr (by positivity)).trans (Int.floor_nonneg.mpr h0)
  have hhigh : ⌊x⌋ < 2 ^ (w - 1) := Int.floor_lt.mpr (by exact_mod_cast h)
  simp [truncate, h0, hlow, hhigh]

lemma lt_of_truncate {w : ℕ} {x : ℚ} {z : ℤ} (h0 : 0 ≤ x) (h : truncate w x = some z) :
    z = ⌊x⌋ ∧ z < 2 ^ (w - 1) := by
  simp only [truncate, if_pos h0, Option.ite_none_right_eq_some, Option.some.injEq] at h
  obtain ⟨⟨-, hlt⟩, rfl⟩ := h
  exact ⟨rfl, hlt⟩

/-- A value in the range of a `long` is not changed by the conversion to the common type. -/
lemma toCommon_of_lt {w : ℕ} (hw : 32 ≤ w) {z : ℤ} (h0 : 0 ≤ z) (h : z < 2 ^ (w - 1)) :
    toCommon w z = z := by
  unfold toCommon
  split
  · rfl
  · obtain rfl : w = 32 := by omega
    omega

/-- What is taken off is the product without its overflow. -/
lemma convert_of_nonneg {w : ℕ} (hw : 32 ≤ w) {z : ℤ} (h0 : 0 ≤ z) (h : z < 2 ^ (w - 1))
    (factor : ℕ) :
    convert w z factor = (wrap 32 (z / factor), z - z / factor * factor % 2 ^ 32) := by
  have hproduct : wrap 32 (z / factor) % 2 ^ 32 * factor % 2 ^ 32 =
      z / factor * factor % 2 ^ 32 := by
    have hwrap : wrap 32 (z / factor) % 2 ^ 32 = z / factor % 2 ^ 32 := Int.bmod_emod
    rw [Int.mul_emod, hwrap, Int.emod_emod, ← Int.mul_emod]
  have hpos : 0 ≤ z / factor * factor := Int.mul_nonneg (Int.ediv_nonneg h0 (by omega)) (by omega)
  have hle : z / factor * factor ≤ z := by
    obtain rfl | hfactor := Nat.eq_zero_or_pos factor
    · simpa using h0
    · exact Int.ediv_mul_le z (by omega)
  simp only [convert, toCommon_of_lt hw h0 h, Int.tdiv_eq_ediv_of_nonneg h0, hproduct]
  congr 1
  apply wrap_of_lt <;> omega

/-- A division whose product fits the `unsigned int` leaves the remainder. -/
lemma convert_of_lt {w : ℕ} (hw : 32 ≤ w) {z : ℤ} (h0 : 0 ≤ z) (h : z < 2 ^ (w - 1))
    {factor : ℕ} {f : ℤ} (hf : (factor : ℤ) = f) (hquotient : z / f < 2 ^ 31)
    (hproduct : z / f * f < 2 ^ 32) :
    convert w z factor = (z / f, z % f) := by
  subst hf
  have hpos : 0 ≤ z / factor := Int.ediv_nonneg h0 (by omega)
  have hdiv := Int.mul_ediv_add_emod z factor
  have hproduct0 : 0 ≤ z / factor * factor := Int.mul_nonneg hpos (by omega)
  rw [convert_of_nonneg hw h0 h, wrap_of_lt (by norm_num) hpos (by simpa using hquotient),
    Int.emod_eq_of_lt hproduct0 hproduct]
  congr 1
  rw [mul_comm] at hdiv
  omega

structure Fields where
  yearValue : ℤ
  monthValue : ℤ
  dayValue : ℤ
  hourValue : ℤ
  minValue : ℤ
  secValue : ℤ
  msecValue : ℤ
  deriving DecidableEq, Repr

/-- The divisions, which `readable` and `readable2` have in common.  The conversion `%03d` takes
the last `long` for an `int`. -/
def fields (w : ℕ) (msecValue : ℤ) : Fields :=
  let totalDays := wrap 32 ((toCommon w msecValue).tdiv dayFactor)
  let month := convert w msecValue monthFactor
  let day := convert w month.2 dayFactor
  let hour := convert w day.2 hourFactor
  let min := convert w hour.2 minFactor
  let sec := convert w min.2 secFactor
  { yearValue := totalDays.tdiv 365
    monthValue := month.1
    dayValue := day.1
    hourValue := hour.1
    minValue := min.1
    secValue := sec.1
    msecValue := wrap 32 sec.2 }

/-- Below two months the divisions leave the fields of the time. -/
lemma fields_of_lt {w : ℕ} (hw : 32 ≤ w) {z : ℤ} (h0 : 0 ≤ z) (h : z < 2 ^ (w - 1))
    (hmonths : z < 2 * monthFactor) :
    fields w z =
      { yearValue := 0
        monthValue := z / monthFactor
        dayValue := z % monthFactor / dayFactor
        hourValue := z % dayFactor / hourFactor
        minValue := z % hourFactor / minFactor
        secValue := z % minFactor / secFactor
        msecValue := z % secFactor } := by
  obtain ⟨hmonth, hday, hhour, hmin, hsec⟩ :
      (monthFactor : ℤ) = 2592000000 ∧ (dayFactor : ℤ) = 86400000 ∧
        (hourFactor : ℤ) = 3600000 ∧ (minFactor : ℤ) = 60000 ∧ (secFactor : ℤ) = 1000 := by
    decide
  rw [hmonth] at hmonths
  have hyears : (wrap 32 ((toCommon w z).tdiv dayFactor)).tdiv 365 = 0 := by
    rw [toCommon_of_lt hw h0 h, Int.tdiv_eq_ediv_of_nonneg h0, hday,
      wrap_of_lt (by omega) (by omega) (by omega), Int.tdiv_eq_ediv_of_nonneg (by omega)]
    omega
  have months := convert_of_lt hw h0 h hmonth (by omega) (by omega)
  have days := @convert_of_lt w hw (z % 2592000000) (by omega) (by omega) _ _ hday
    (by omega) (by omega)
  have hours := @convert_of_lt w hw (z % 2592000000 % 86400000) (by omega) (by omega) _ _ hhour
    (by omega) (by omega)
  have mins := @convert_of_lt w hw (z % 2592000000 % 86400000 % 3600000) (by omega) (by omega) _ _
    hmin (by omega) (by omega)
  have secs := @convert_of_lt w hw (z % 2592000000 % 86400000 % 3600000 % 60000) (by omega)
    (by omega) _ _ hsec (by omega) (by omega)
  have msecs : wrap 32 (z % 2592000000 % 86400000 % 3600000 % 60000 % 1000) = z % 1000 := by
    rw [wrap_of_lt (by omega) (by omega) (by omega)]
    omega
  simp only [fields, hyears, months, days, hours, mins, secs, msecs]
  simp only [hmonth, hday, hhour, hmin, hsec]
  congr 1 <;> omega

/-! ## The texts -/

def sprintf (format : String) (args : List ℤ) : List Char :=
  Text.sprintf (Text.directives format.toList) args

/-- The seven formats, each up to the decimal point, and then the fraction. -/
def Fields.print (f : Fields) (fraction : String) (args : List ℤ) : List Char :=
  if f.yearValue ≠ 0 then
    sprintf ("%dY%dM%dD%02d:%02d:%02d." ++ fraction)
      ([f.yearValue, f.monthValue, f.dayValue, f.hourValue, f.minValue, f.secValue] ++ args)
  else if f.monthValue ≠ 0 then
    sprintf ("%dM%dD%02d:%02d:%02d." ++ fraction)
      ([f.monthValue, f.dayValue, f.hourValue, f.minValue, f.secValue] ++ args)
  else if f.dayValue ≠ 0 then
    sprintf ("%dD%02d:%02d:%02d." ++ fraction)
      ([f.dayValue, f.hourValue, f.minValue, f.secValue] ++ args)
  else if f.hourValue ≠ 0 then
    sprintf ("%d:%02d:%02d." ++ fraction) ([f.hourValue, f.minValue, f.secValue] ++ args)
  else if f.minValue ≠ 0 then
    sprintf ("%d:%02d." ++ fraction) ([f.minValue, f.secValue] ++ args)
  else if f.secValue ≠ 0 then sprintf ("%d." ++ fraction) ([f.secValue] ++ args)
  else sprintf ("0." ++ fraction) args

/-- The text in `str`, which has room for 32 characters with the terminator. -/
def store (text : List Char) : Option String :=
  if text.length + 1 ≤ 32 then some (String.ofList text) else none

lemma store_of_le {text : List Char} (h : text.length + 1 ≤ 32) :
    store text = some (String.ofList text) := if_pos h

/-- `Stopwatch::readable`, for the member `_elapsed`. -/
def readable (w : ℕ) (elapsed : ℚ) : Option String := do
  let msecValue ← truncate w (elapsed + 1 / 2)
  let f := fields w msecValue
  store (f.print "%03d" [f.msecValue])

/-- `Stopwatch::readable2`. -/
def readable2 (w : ℕ) (elapsed : ℚ) : Option String := do
  let msecValue ← truncate w elapsed
  let microValue ← truncate 32 ((elapsed - msecValue) * 1000 + 1 / 2)
  let f := fields w msecValue
  store (f.print "%03d%03d" [f.msecValue, microValue])

lemma readable_of_truncate {w : ℕ} {elapsed : ℚ} {z : ℤ}
    (h : truncate w (elapsed + 1 / 2) = some z) :
    readable w elapsed = store ((fields w z).print "%03d" [(fields w z).msecValue]) := by
  rw [readable, h]
  rfl

lemma readable2_of_truncate {w : ℕ} {elapsed : ℚ} {z micro : ℤ} (h : truncate w elapsed = some z)
    (hmicro : truncate 32 ((elapsed - z) * 1000 + 1 / 2) = some micro) :
    readable2 w elapsed =
      store ((fields w z).print "%03d%03d" [(fields w z).msecValue, micro]) := by
  rw [readable2, h]
  simp only [Option.bind_eq_bind, Option.bind_some, hmicro]

end Alpl.Util
