import Alpl.Util.Stopwatch
import Mathlib.Tactic.NormNum
import Mathlib.Tactic.Linarith

/-!
# The text of an elapsed time

What a reader of the two texts finds.  A text is read from the left: the letter after a number, or
the colon between two, says what the number counts, and the digits after the point are taken as they
are (`readBack`).  Below `2 ^ 31` milliseconds there are no months, the divisions leave the fields
of the clock (`fields_of_lt`), and whichever of them is the first, the rest is written with its full
width behind it (`print_eq`).
-/

namespace Alpl.Util

open Text

/-! ## Reading -/

/-- What has been read of a text in front of the point: the days, the clock so far in the unit of
the next number, and that number. -/
structure Reading where
  days : ℕ
  clock : ℕ
  number : ℕ

/-- The number ends at the character `c`. -/
def Reading.separate (r : Reading) (c : Char) : Option Reading :=
  match c with
  | 'Y' => some ⟨r.days + r.number * 365, r.clock, 0⟩
  | 'M' => some ⟨r.days + r.number * 30, r.clock, 0⟩
  | 'D' => some ⟨r.days + r.number, r.clock, 0⟩
  | ':' => some ⟨r.days, (r.clock + r.number) * 60, 0⟩
  | _ => none

/-- The seconds in front of the point, and the text behind it. -/
def Reading.seconds (r : Reading) : List Char → Option (ℕ × List Char)
  | [] => none
  | c :: cs =>
    if c.isDigit then
      Reading.seconds { r with number := 10 * r.number + (c.toNat - '0'.toNat) } cs
    else if c = '.' then some (r.days * (24 * 60 * 60) + r.clock + r.number, cs)
    else do Reading.seconds (← r.separate c) cs

/-- A text with exactly `k` digits after the point, in units of the last of them. -/
def readBack (k : ℕ) (text : String) : Option ℕ := do
  let (seconds, fraction) ← Reading.seconds ⟨0, 0, 0⟩ text.toList
  if fraction.length = k ∧ fraction.all Char.isDigit = true then
    some (seconds * 10 ^ k + Nat.ofDigitChars 10 fraction 0)
  else none

/-- The fields of a text. -/
def runs (text : List Char) : List (List Char) := text.splitOnP fun c => !c.isDigit

/-- Every field below the first has two digits, and the last has three. -/
def FullWidths (text : String) : Prop :=
  ∃ first k, (runs text.toList).map List.length = first :: (List.replicate k 2 ++ [3])

@[simp] lemma seconds_colon (r : Reading) (cs : List Char) :
    r.seconds (':' :: cs) = Reading.seconds ⟨r.days, (r.clock + r.number) * 60, 0⟩ cs := rfl

@[simp] lemma seconds_day (r : Reading) (cs : List Char) :
    r.seconds ('D' :: cs) = Reading.seconds ⟨r.days + r.number, r.clock, 0⟩ cs := rfl

@[simp] lemma seconds_point (r : Reading) (cs : List Char) :
    r.seconds ('.' :: cs) = some (r.days * (24 * 60 * 60) + r.clock + r.number, cs) := rfl

lemma seconds_append {digits : List Char} (h : ∀ c ∈ digits, c.isDigit = true) (r : Reading)
    (cs : List Char) :
    r.seconds (digits ++ cs) =
      Reading.seconds { r with number := Nat.ofDigitChars 10 digits r.number } cs := by
  induction digits generalizing r with
  | nil => simp
  | cons d digits ih =>
      have hd : d.isDigit = true := h d List.mem_cons_self
      rw [List.cons_append, Reading.seconds, if_pos hd,
        ih (fun c hc => h c (List.mem_cons_of_mem d hc)), Nat.ofDigitChars_cons]

@[simp] lemma seconds_zeroPadded (days clock w n : ℕ) (cs : List Char) :
    Reading.seconds ⟨days, clock, 0⟩ (zeroPadded w n ++ cs) =
      Reading.seconds ⟨days, clock, n⟩ cs := by
  simp [seconds_append (fun c hc => isDigit_of_mem_zeroPadded hc), value_zeroPadded]

lemma runs_zeroPadded_append (w n : ℕ) {c : Char} (hc : c.isDigit = false) (cs : List Char) :
    runs (zeroPadded w n ++ c :: cs) = zeroPadded w n :: runs cs := by
  apply List.splitOnP_append_cons_of_forall_mem
  · intro d hd
    simp [isDigit_of_mem_zeroPadded hd]
  · simp [hc]

lemma runs_zeroPadded (w n : ℕ) : runs (zeroPadded w n) = [zeroPadded w n] := by
  apply List.splitOnP_eq_singleton
  intro c hc
  simp [isDigit_of_mem_zeroPadded hc]

/-! ## The shape of a text without months -/

/-- A first number, the others with two digits after their separators, and the fraction. -/
def grouped (first : ℕ) (rest : List (Char × ℕ)) (fraction : List Char) : List Char :=
  zeroPadded 0 first ++ (rest.flatMap fun g => g.1 :: zeroPadded 2 g.2) ++ '.' :: fraction

/-- The first field that is not zero, and those below it. -/
def leading (days hours mins secs : ℕ) : ℕ × List (Char × ℕ) :=
  if days ≠ 0 then (days, [('D', hours), (':', mins), (':', secs)])
  else if hours ≠ 0 then (hours, [(':', mins), (':', secs)])
  else if mins ≠ 0 then (mins, [(':', secs)])
  else (secs, [])

/-- The five formats without months differ in nothing but the leading field. -/
lemma print_eq (days hours mins secs : ℕ) (msec : ℤ) (fraction : String) (args : List ℤ) :
    Fields.print ⟨0, 0, days, hours, mins, secs, msec⟩ fraction args =
      grouped (leading days hours mins secs).1 (leading days hours mins secs).2
        (sprintf fraction args) := by
  obtain hdays | rfl := ne_or_eq days 0
  · simp [Fields.print, leading, hdays, sprintf, directives, Text.sprintf, grouped]
  obtain hhours | rfl := ne_or_eq hours 0
  · simp [Fields.print, leading, hhours, sprintf, directives, Text.sprintf, grouped]
  obtain hmins | rfl := ne_or_eq mins 0
  · simp [Fields.print, leading, hmins, sprintf, directives, Text.sprintf, grouped]
  obtain hsecs | rfl := ne_or_eq secs 0
  · simp [Fields.print, leading, hsecs, sprintf, directives, Text.sprintf, grouped]
  · simp [Fields.print, leading, sprintf, directives, Text.sprintf, grouped]

lemma seconds_grouped (days hours mins secs : ℕ) (fraction : List Char) :
    Reading.seconds ⟨0, 0, 0⟩
        (grouped (leading days hours mins secs).1 (leading days hours mins secs).2 fraction) =
      some (days * (24 * 60 * 60) + (hours * 60 + mins) * 60 + secs, fraction) := by
  obtain hdays | rfl := ne_or_eq days 0
  · simp [leading, hdays, grouped, -zeroPadded_zero]
  obtain hhours | rfl := ne_or_eq hours 0
  · simp [leading, hhours, grouped, -zeroPadded_zero]
  obtain hmins | rfl := ne_or_eq mins 0
  · simp [leading, hmins, grouped, -zeroPadded_zero]
  · simp [leading, grouped, -zeroPadded_zero]

lemma runs_grouped (first : ℕ) (rest : List (Char × ℕ)) (fraction : List Char)
    (h : ∀ g ∈ rest, g.1.isDigit = false) :
    runs (grouped first rest fraction) =
      zeroPadded 0 first :: (rest.map fun g => zeroPadded 2 g.2) ++ runs fraction := by
  unfold grouped
  generalize 0 = w
  induction rest generalizing w first with
  | nil => simp [runs_zeroPadded_append]
  | cons g rest ih =>
      have hg : g.1.isDigit = false := h g List.mem_cons_self
      have hrest := ih g.2 (fun g hg => h g (List.mem_cons_of_mem _ hg)) 2
      simp only [List.flatMap_cons, List.append_assoc, List.cons_append] at hrest ⊢
      rw [runs_zeroPadded_append w first hg, hrest]
      simp

lemma length_grouped (first : ℕ) (rest : List (Char × ℕ)) (fraction : List Char)
    (hfirst : first < 100) (h : ∀ g ∈ rest, g.2 < 100) :
    (grouped first rest fraction).length ≤ 2 + 3 * rest.length + 1 + fraction.length := by
  have hdigits : (zeroPadded 0 first).length ≤ 2 := by
    rw [zeroPadded_zero]
    exact (Nat.length_toDigits_le_iff (by omega) (by omega)).mpr (by omega)
  have hrest : (rest.flatMap fun g => g.1 :: zeroPadded 2 g.2).length = 3 * rest.length := by
    induction rest with
    | nil => rfl
    | cons g rest ih =>
        have hg : g.2 < 10 ^ 2 := h g List.mem_cons_self
        rw [List.flatMap_cons, List.length_append, ih fun g hg => h g (List.mem_cons_of_mem _ hg),
          List.length_cons, length_zeroPadded (by omega) hg, List.length_cons]
        omega
  simp only [grouped, List.length_append, List.length_cons, hrest]
  omega

/-! ## The text of a number of milliseconds -/

/-- The fields of `t` milliseconds above the fraction. -/
def timeParts (t : ℕ) : ℕ × List (Char × ℕ) :=
  leading (t / dayFactor) (t % dayFactor / hourFactor) (t % hourFactor / minFactor)
    (t % minFactor / secFactor)

def timeText (t : ℕ) (fraction : List Char) : List Char :=
  grouped (timeParts t).1 (timeParts t).2 fraction

lemma fields_natCast {t : ℕ} (h : t < 2 ^ 31) :
    fields 32 t =
      { yearValue := 0
        monthValue := 0
        dayValue := (t / dayFactor : ℕ)
        hourValue := (t % dayFactor / hourFactor : ℕ)
        minValue := (t % hourFactor / minFactor : ℕ)
        secValue := (t % minFactor / secFactor : ℕ)
        msecValue := (t % secFactor : ℕ) } := by
  have hmonth : (t : ℤ) < monthFactor := by
    rw [monthFactor]
    omega
  rw [fields_of_lt (by omega) (by omega) (by norm_num; omega) (by omega),
    Int.ediv_eq_zero_of_lt (by omega) hmonth, Int.emod_eq_of_lt (by omega) hmonth]
  push_cast
  rfl

lemma print_fields {t : ℕ} (h : t < 2 ^ 31) (fraction : String) (args : List ℤ) :
    (fields 32 t).print fraction args = timeText t (sprintf fraction args) := by
  rw [fields_natCast h, print_eq]
  rfl

lemma seconds_timeText (t : ℕ) (fraction : List Char) :
    Reading.seconds ⟨0, 0, 0⟩ (timeText t fraction) = some (t / secFactor, fraction) := by
  rw [timeText, timeParts, seconds_grouped]
  simp only [dayFactor, hourFactor, minFactor, secFactor]
  congr 2
  omega

lemma readBack_timeText (k t : ℕ) {fraction : List Char}
    (h : ∀ c ∈ fraction, c.isDigit = true) :
    readBack k (String.ofList (timeText t fraction)) =
      if fraction.length = k then
        some (t / secFactor * 10 ^ k + Nat.ofDigitChars 10 fraction 0)
      else none := by
  simp only [readBack, String.toList_ofList, seconds_timeText, Option.bind_eq_bind,
    Option.bind_some, and_iff_left (List.all_eq_true.mpr h)]

/-- Every field has at most two digits, and a separator in front of it: `2 ^ 31` milliseconds are
25 days. -/
lemma timeParts_bounds {t : ℕ} (h : t < 2 ^ 31) :
    (timeParts t).1 < 100 ∧ (timeParts t).2.length ≤ 3 ∧
      ∀ g ∈ (timeParts t).2, g.1.isDigit = false ∧ g.2 < 100 := by
  have hdays : t / dayFactor < 100 := by simp only [dayFactor]; omega
  have hhours : t % dayFactor / hourFactor < 100 := by simp only [dayFactor, hourFactor]; omega
  have hmins : t % hourFactor / minFactor < 100 := by simp only [hourFactor, minFactor]; omega
  have hsecs : t % minFactor / secFactor < 100 := by simp only [minFactor, secFactor]; omega
  unfold timeParts leading
  split
  · simp [hdays, hhours, hmins, hsecs]
  split
  · simp [hhours, hmins, hsecs]
  split
  · simp [hmins, hsecs]
  · simp [hsecs]

lemma length_timeText {t : ℕ} (h : t < 2 ^ 31) (fraction : List Char) :
    (timeText t fraction).length ≤ 12 + fraction.length := by
  obtain ⟨hfirst, hlen, hrest⟩ := timeParts_bounds h
  have hgrouped := length_grouped _ _ fraction hfirst fun g hg => (hrest g hg).2
  unfold timeText
  omega

lemma widths_timeText {t : ℕ} (h : t < 2 ^ 31) (fraction : List Char) :
    (runs (timeText t fraction)).map List.length =
      (zeroPadded 0 (timeParts t).1).length ::
        (List.replicate (timeParts t).2.length 2 ++ (runs fraction).map List.length) := by
  obtain ⟨-, -, hrest⟩ := timeParts_bounds h
  have htwo : ∀ g ∈ (timeParts t).2, (List.length ∘ fun g => zeroPadded 2 g.2) g = 2 :=
    fun g hg => length_zeroPadded (by omega) (hrest g hg).2
  rw [timeText, runs_grouped _ _ _ fun g hg => (hrest g hg).1, List.cons_append, List.map_cons,
    List.map_append, List.map_map, List.map_congr_left htwo, List.map_const']

/-! ## `readable` -/

/-- The text of `t` milliseconds. -/
def milliText (t : ℕ) : String := String.ofList (timeText t (zeroPadded 3 (t % secFactor)))

lemma sprintf_msec (n : ℕ) : sprintf "%03d" [(n : ℤ)] = zeroPadded 3 n := by
  simp [sprintf, directives, Text.sprintf]

lemma length_msec (t : ℕ) : (zeroPadded 3 (t % secFactor)).length = 3 :=
  length_zeroPadded (by omega) (Nat.mod_lt _ (by decide))

lemma length_milliText {t : ℕ} (h : t < 2 ^ 31) : (milliText t).length + 1 ≤ 32 := by
  have hlen := length_timeText h (zeroPadded 3 (t % secFactor))
  rw [length_msec] at hlen
  rw [milliText, String.length_ofList]
  omega

lemma readBack_milliText (t : ℕ) : readBack 3 (milliText t) = some t := by
  have hsum : t / secFactor * 10 ^ 3 + t % secFactor = t := Nat.div_add_mod' t secFactor
  rw [milliText, readBack_timeText _ _ fun c hc => isDigit_of_mem_zeroPadded hc,
    if_pos (length_msec t), value_zeroPadded, hsum]

lemma fullWidths_milliText {t : ℕ} (h : t < 2 ^ 31) : FullWidths (milliText t) := by
  have hwidths := widths_timeText h (zeroPadded 3 (t % secFactor))
  rw [runs_zeroPadded, List.map_singleton, length_msec] at hwidths
  rw [FullWidths, milliText, String.toList_ofList]
  exact ⟨_, _, hwidths⟩

lemma readable_eq {elapsed : ℚ} (h0 : 0 ≤ elapsed) (h : elapsed + 1 / 2 < 2 ^ 31) :
    ∃ t : ℕ, ⌊elapsed + 1 / 2⌋ = t ∧ t < 2 ^ 31 ∧ readable 32 elapsed = some (milliText t) := by
  have hround : 0 ≤ elapsed + 1 / 2 := by linarith
  obtain ⟨t, ht⟩ := Int.eq_ofNat_of_zero_le (Int.floor_nonneg.mpr hround)
  have hlt : t < 2 ^ 31 := by
    have hfloor : ⌊elapsed + 1 / 2⌋ < 2 ^ 31 := Int.floor_lt.mpr (by push_cast; exact h)
    omega
  have htext : (fields 32 t).print "%03d" [(fields 32 t).msecValue] =
      timeText t (zeroPadded 3 (t % secFactor)) := by
    rw [print_fields hlt, fields_natCast hlt, sprintf_msec]
  have hlen := length_milliText hlt
  rw [milliText, String.length_ofList] at hlen
  refine ⟨t, ht, hlt, ?_⟩
  have htrunc : truncate 32 (elapsed + 1 / 2) = some (t : ℤ) := by
    rw [truncate_of_lt hround (by norm_num at h ⊢; exact h), ht]
  rw [readable_of_truncate htrunc, htext, store_of_le hlen, milliText]

/-- **`readable` is faithful.**  Up to `2 ^ 31` milliseconds its text fits the buffer and reads back
as the time rounded to the millisecond, every field below the first has its full width, and no time
that rounds to another millisecond has the same text. -/
theorem readable_faithful {elapsed : ℚ} (h0 : 0 ≤ elapsed) (h : elapsed + 1 / 2 < 2 ^ 31) :
    ∃ text, readable 32 elapsed = some text ∧ readBack 3 text = some ⌊elapsed + 1 / 2⌋.toNat ∧
      FullWidths text ∧ text.length + 1 ≤ 32 ∧
      ∀ other : ℚ, 0 ≤ other → other + 1 / 2 < 2 ^ 31 → readable 32 other = some text →
        ⌊other + 1 / 2⌋ = ⌊elapsed + 1 / 2⌋ := by
  obtain ⟨t, ht, hlt, htext⟩ := readable_eq h0 h
  rw [ht, Int.toNat_natCast]
  refine ⟨_, htext, readBack_milliText t, fullWidths_milliText hlt, length_milliText hlt, ?_⟩
  intro other hother0 hother hsame
  obtain ⟨t', ht', -, htext'⟩ := readable_eq hother0 hother
  have heq : milliText t = milliText t' := Option.some.inj (hsame.symm.trans htext')
  have hback : some t = some t' := by
    rw [← readBack_milliText t, heq, readBack_milliText]
  rw [ht', Option.some.inj hback]

theorem readable_faithful_hour : ∃ text, readable 32 3600000 = some text ∧
    readBack 3 text = some ⌊(3600000 : ℚ) + 1 / 2⌋.toNat ∧ FullWidths text ∧ text.length + 1 ≤ 32 ∧
      ∀ other : ℚ, 0 ≤ other → other + 1 / 2 < 2 ^ 31 → readable 32 other = some text →
        ⌊other + 1 / 2⌋ = ⌊(3600000 : ℚ) + 1 / 2⌋ :=
  readable_faithful (by norm_num) (by norm_num)

/-! ## `readable2` -/

/-- The text has six digits behind the point and is the time rounded to the microsecond. -/
def ToMicroseconds (elapsed : ℚ) : Prop :=
  ∃ text, readable2 32 elapsed = some text ∧
    readBack 6 text = some ⌊elapsed * 1000 + 1 / 2⌋.toNat

/-- The text of `t` milliseconds and `m` microseconds. -/
def microText (t m : ℕ) : String :=
  String.ofList (timeText t (zeroPadded 3 (t % secFactor) ++ zeroPadded 3 m))

lemma sprintf_micro (n m : ℕ) :
    sprintf "%03d%03d" [(n : ℤ), (m : ℤ)] = zeroPadded 3 n ++ zeroPadded 3 m := by
  simp [sprintf, directives, Text.sprintf]

/-- Three digits are the width of a number below a thousand only. -/
lemma length_micro {m : ℕ} (h : m ≤ 1000) :
    (zeroPadded 3 m).length = if m < 1000 then 3 else 4 := by
  split
  · exact length_zeroPadded (by omega) (by omega)
  · obtain rfl : m = 1000 := by omega
    decide

lemma readBack_microText {t m : ℕ} (h : m ≤ 1000) :
    readBack 6 (microText t m) = if m < 1000 then some (t * 1000 + m) else none := by
  have hdigits : ∀ c ∈ zeroPadded 3 (t % secFactor) ++ zeroPadded 3 m, c.isDigit = true := by
    intro c hc
    obtain hc | hc := List.mem_append.mp hc <;> exact isDigit_of_mem_zeroPadded hc
  have hlen := length_micro h
  have hsum : t / secFactor * 1000 + t % secFactor = t := Nat.div_add_mod' t secFactor
  rw [microText, readBack_timeText _ _ hdigits, List.length_append, length_msec, hlen,
    Nat.ofDigitChars_append, value_zeroPadded, Nat.ofDigitChars_eq_ofDigitChars_zero,
    value_zeroPadded, hlen]
  by_cases hm : m < 1000
  · simp [hm]
    linarith
  · simp [hm]

lemma readable2_eq {elapsed : ℚ} (h0 : 0 ≤ elapsed) (h : elapsed < 2 ^ 31 - 1) :
    ∃ t m : ℕ, ⌊elapsed⌋ = t ∧ ⌊(elapsed - t) * 1000 + 1 / 2⌋ = m ∧ m ≤ 1000 ∧
      readable2 32 elapsed = some (microText t m) := by
  obtain ⟨t, ht⟩ := Int.eq_ofNat_of_zero_le (Int.floor_nonneg.mpr h0)
  have hlow : (t : ℚ) ≤ elapsed := by
    have := Int.floor_le elapsed
    rw [ht] at this
    exact_mod_cast this
  have hhigh : elapsed < t + 1 := by
    have := Int.lt_floor_add_one elapsed
    rw [ht] at this
    exact_mod_cast this
  have hlt : t < 2 ^ 31 := by
    have hcast : (t : ℚ) < 2 ^ 31 := by linarith
    exact_mod_cast hcast
  have hround : 0 ≤ (elapsed - t) * 1000 + 1 / 2 := by linarith
  obtain ⟨m, hm⟩ := Int.eq_ofNat_of_zero_le (Int.floor_nonneg.mpr hround)
  have hle : m ≤ 1000 := by
    have hfloor : ⌊(elapsed - t) * 1000 + 1 / 2⌋ < 1001 :=
      Int.floor_lt.mpr (by push_cast; linarith)
    omega
  have htrunc : truncate 32 elapsed = some (t : ℤ) := by
    rw [truncate_of_lt h0 (by norm_num at h ⊢; linarith), ht]
  have hmicro : truncate 32 ((elapsed - (t : ℤ)) * 1000 + 1 / 2) = some (m : ℤ) := by
    rw [Int.cast_natCast, truncate_of_lt hround (by norm_num; linarith), hm]
  have hprint : (fields 32 t).print "%03d%03d" [(fields 32 t).msecValue, (m : ℤ)] =
      timeText t (zeroPadded 3 (t % secFactor) ++ zeroPadded 3 m) := by
    rw [print_fields hlt, fields_natCast hlt, sprintf_micro]
  have hlen : (timeText t (zeroPadded 3 (t % secFactor) ++ zeroPadded 3 m)).length + 1 ≤ 32 := by
    have htext := length_timeText hlt (zeroPadded 3 (t % secFactor) ++ zeroPadded 3 m)
    rw [List.length_append, length_msec, length_micro hle] at htext
    split at htext <;> omega
  refine ⟨t, m, ht, hm, hle, ?_⟩
  rw [readable2_of_truncate htrunc hmicro, hprint, store_of_le hlen, microText]

/-- **`readable2` is faithful where the microseconds do not round up to a thousand.**  The last half
microsecond of a millisecond would have to be carried into the fields above; it is printed with
four digits instead. -/
theorem toMicroseconds_iff {elapsed : ℚ} (h0 : 0 ≤ elapsed) (h : elapsed < 2 ^ 31 - 1) :
    ToMicroseconds elapsed ↔ Int.fract elapsed < 1999 / 2000 := by
  obtain ⟨t, m, ht, hm, hle, htext⟩ := readable2_eq h0 h
  have hround : ⌊elapsed * 1000 + 1 / 2⌋ = (t * 1000 + m : ℕ) := by
    have hsplit : elapsed * 1000 + 1 / 2 = (elapsed - t) * 1000 + 1 / 2 + (t * 1000 : ℕ) := by
      push_cast
      ring
    rw [hsplit, Int.floor_add_natCast, hm]
    omega
  have hlt : m < 1000 ↔ Int.fract elapsed < 1999 / 2000 := by
    have hfract : Int.fract elapsed = elapsed - t := by
      rw [Int.fract, ht, Int.cast_natCast]
    have hfloor : ⌊(elapsed - t) * 1000 + 1 / 2⌋ < 1000 ↔ (elapsed - t) * 1000 + 1 / 2 < 1000 := by
      rw [Int.floor_lt]
      norm_num
    rw [hfract]
    constructor
    · intro hm'
      have := hfloor.mp (by omega)
      linarith
    · intro hlt
      have := hfloor.mpr (by linarith)
      omega
  rw [← hlt, ToMicroseconds, htext, hround, Int.toNat_natCast]
  constructor
  · rintro ⟨text, heq, hback⟩
    rw [← Option.some.inj heq, readBack_microText hle] at hback
    by_contra hm'
    rw [if_neg hm'] at hback
    cases hback
  · intro hm'
    exact ⟨_, rfl, by rw [readBack_microText hle, if_pos hm']⟩

theorem toMicroseconds_minute : ToMicroseconds 60000 :=
  (toMicroseconds_iff (by norm_num) (by norm_num)).mpr (by norm_num)

/-- At `0.9996` milliseconds the microseconds round up. -/
theorem microseconds_overflow :
    ¬ ∀ elapsed : ℚ, 0 ≤ elapsed → elapsed < 2 ^ 31 - 1 → ToMicroseconds elapsed := by
  intro hall
  obtain ⟨text, htext, hback⟩ := hall (9996 / 10000) (by norm_num) (by norm_num)
  obtain ⟨t, m, ht, hm, hle, heq⟩ :=
    @readable2_eq (9996 / 10000) (by norm_num) (by norm_num)
  obtain rfl : t = 0 := by
    have hfloor : ⌊(9996 / 10000 : ℚ)⌋ = 0 := by norm_num [Int.floor_eq_iff]
    omega
  obtain rfl : m = 1000 := by
    have hfloor : ⌊((9996 / 10000 : ℚ) - (0 : ℕ)) * 1000 + 1 / 2⌋ = 1000 := by
      norm_num [Int.floor_eq_iff]
    omega
  rw [← Option.some.inj (heq.symm.trans htext), readBack_microText hle] at hback
  cases hback

end Alpl.Util
