import Mathlib.Algebra.Group.Nat.Defs
import Mathlib.Data.Int.Notation
import Mathlib.Data.List.Basic
import Mathlib.Tactic.Common

/-!
# Decimal numbers in texts

What the conversions `%d` and `%0wd` of C write, and how it is read back.  A number is written with
the digits of `Nat.toDigits 10`, after zeros up to the width.  The two facts that a reader lives on
are that digits are all it finds until the next separator (`isDigit_of_mem_zeroPadded`) and that
they have the number's value (`value_zeroPadded`); a format is faithful where every field but the
first has its width (`length_zeroPadded`).
-/

namespace Text

/-! ## Writing -/

/-- The digits of `n`, with zeros in front up to the width `w`. -/
def zeroPadded (w n : ℕ) : List Char :=
  List.replicate (w - (Nat.toDigits 10 n).length) '0' ++ Nat.toDigits 10 n

/-- `%0wd`: a sign counts for the width. -/
def decimal (w : ℕ) (z : ℤ) : List Char :=
  if z < 0 then '-' :: zeroPadded (w - 1) z.natAbs else zeroPadded w z.toNat

/-- One part of a format. -/
inductive Directive
  | lit (c : Char)
  /-- `%0wd`, or `%d` for the width `0`. -/
  | int (w : ℕ)
  deriving DecidableEq, Repr

/-- What a format writes for its arguments. -/
def sprintf : List Directive → List ℤ → List Char
  | [], _ => []
  | .lit c :: ds, zs => c :: sprintf ds zs
  | .int w :: ds, z :: zs => decimal w z ++ sprintf ds zs
  | .int _ :: _, [] => []

/-- The parts of a format string. -/
def directives : List Char → List Directive
  | [] => []
  | '%' :: 'd' :: cs => .int 0 :: directives cs
  | '%' :: '0' :: w :: 'd' :: cs => .int (w.toNat - '0'.toNat) :: directives cs
  | c :: cs => .lit c :: directives cs

@[simp] lemma zeroPadded_zero (n : ℕ) : zeroPadded 0 n = Nat.toDigits 10 n := by
  simp [zeroPadded]

lemma decimal_of_nonneg {w : ℕ} {z : ℤ} (h : 0 ≤ z) : decimal w z = zeroPadded w z.toNat := by
  rw [decimal, if_neg (by omega)]

@[simp] lemma decimal_natCast (w n : ℕ) : decimal w n = zeroPadded w n :=
  decimal_of_nonneg (Int.natCast_nonneg n)

lemma decimal_of_neg {z : ℤ} (h : z < 0) : decimal 0 z = '-' :: Nat.toDigits 10 z.natAbs := by
  rw [decimal, if_pos h, zeroPadded_zero]

/-! ## Digits -/

lemma isDigit_of_mem_zeroPadded {w n : ℕ} {c : Char} (h : c ∈ zeroPadded w n) :
    c.isDigit = true := by
  rw [zeroPadded, List.mem_append] at h
  rcases h with h | h
  · rw [List.eq_of_mem_replicate h]
    rfl
  · exact Nat.isDigit_of_mem_toDigits (by omega) (by omega) h

/-- A number that fits its width fills it. -/
lemma length_zeroPadded {w n : ℕ} (hw : 0 < w) (h : n < 10 ^ w) : (zeroPadded w n).length = w := by
  have hle : (Nat.toDigits 10 n).length ≤ w := (Nat.length_toDigits_le_iff (by omega) hw).mpr h
  simp only [zeroPadded, List.length_append, List.length_replicate]
  omega

/-- Zeros in front do not change the value. -/
lemma value_zeroPadded (w n : ℕ) : Nat.ofDigitChars 10 (zeroPadded w n) 0 = n := by
  rw [zeroPadded, Nat.ofDigitChars_append, Nat.ofDigitChars_replicate_zero, Nat.mul_zero,
    Nat.ofDigitChars_ten_toDigits]

end Text
