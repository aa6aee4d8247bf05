import Alpl.Util.Errno
import Mathlib.Data.BitVec

/-!
# The text of an error code

`getErrorString` writes a code that its table lacks into a buffer of ten bytes, as a signed number.
Nine digits and the terminator fit; a code of ten digits, or one that is negative as an `int`, is
lost.  Where its text does not fit, the report of an error ends the process.
-/

namespace Alpl.Util

/-- The code has no case of its own. -/
def OutsideTable (errorCode : BitVec 32) : Prop := errorStrings.lookup errorCode.toNat = none

instance (errorCode : BitVec 32) : Decidable (OutsideTable errorCode) :=
  inferInstanceAs (Decidable (_ = none))

/-- The default branch returns the decimal digits of the code. -/
def Spelled (errorCode : BitVec 32) : Prop :=
  getErrorString errorCode = .ok (toString errorCode.toNat)

lemma getErrorString_of_outside {code : BitVec 32} (h : OutsideTable code) :
    getErrorString code = itoaS code.toInt 10 := by
  unfold OutsideTable at h
  simp [getErrorString, h]

/-! ## Which codes fit -/

/-- A code below `2 ^ 31` is written as it is. -/
lemma itoaS_of_small {code : BitVec 32} (h : code.toNat < 2 ^ 31) (size : ℕ) :
    itoaS code.toInt size = if (Nat.toDigits 10 code.toNat).length + 1 ≤ size then
      .ok (toString code.toNat) else .error .invalidParameter := by
  have hint : code.toInt = code.toNat := by
    rw [BitVec.toInt_eq_toNat_cond]
    omega
  simp [itoaS, hint, Nat.repr_eq_ofList_toDigits]

/-- A code from `2 ^ 31` on is written as a negative number. -/
lemma itoaS_of_large {code : BitVec 32} (h : 2 ^ 31 ≤ code.toNat) (size : ℕ) :
    itoaS code.toInt size = if (Nat.toDigits 10 (2 ^ 32 - code.toNat)).length + 2 ≤ size then
      .ok (String.ofList ('-' :: Nat.toDigits 10 (2 ^ 32 - code.toNat)))
      else .error .invalidParameter := by
  have hlt := code.isLt
  have hint : code.toInt = -((2 ^ 32 - code.toNat : ℕ) : ℤ) := by
    rw [BitVec.toInt_eq_toNat_cond]
    omega
  have hneg : code.toInt < 0 := by omega
  have habs : code.toInt.natAbs = 2 ^ 32 - code.toNat := by omega
  simp only [itoaS, Text.decimal_of_neg hneg, habs, List.length_cons]

/-- **Nine digits fit.**  A code outside the table is spelled exactly if it is below a thousand
million. -/
theorem spelled_iff {code : BitVec 32} (h : OutsideTable code) :
    Spelled code ↔ code.toNat < 10 ^ 9 := by
  rw [Spelled, getErrorString_of_outside h]
  by_cases hsmall : code.toNat < 2 ^ 31
  · have hfit := @Nat.length_toDigits_le_iff 10 code.toNat 9 (by omega) (by omega)
    rw [itoaS_of_small hsmall, ← hfit]
    split <;> simp <;> omega
  · rw [itoaS_of_large (by omega)]
    have hsign : String.ofList ('-' :: Nat.toDigits 10 (2 ^ 32 - code.toNat)) ≠
        toString code.toNat := by
      intro heq
      rw [Nat.toString_eq_ofList_toDigits, String.ofList_inj] at heq
      have hdigit : ('-').isDigit = true :=
        Nat.isDigit_of_mem_toDigits (by omega) (by omega) (heq ▸ List.mem_cons_self)
      cases hdigit
    split
    · exact iff_of_false (fun heq => hsign (Except.ok.inj heq)) (by omega)
    · exact iff_of_false nofun (by omega)

theorem spelled_iff_winhttp : getErrorString 12029#32 = .ok (toString 12029) :=
  (spelled_iff (by decide)).mpr (by decide)

/-- `0x80070057`, an error of COM, aborts the process that reports it. -/
theorem code_aborts : ¬ ∀ code, OutsideTable code → Spelled code := by
  intro h
  have haborts : getErrorString 0x80070057#32 = .error .invalidParameter := by decide
  exact nomatch haborts.symm.trans (h 0x80070057#32 (by decide))

/-- The report of an error aborts for all codes whose signed text is longer than nine. -/
theorem aborts_iff {code : BitVec 32} (h : OutsideTable code) :
    getErrorString code = .error .invalidParameter ↔
      10 ^ 9 ≤ code.toNat ∧ code.toNat + 10 ^ 8 ≤ 2 ^ 32 := by
  rw [getErrorString_of_outside h]
  have hlt := code.isLt
  by_cases hsmall : code.toNat < 2 ^ 31
  · have hfit := @Nat.length_toDigits_le_iff 10 code.toNat 9 (by omega) (by omega)
    rw [itoaS_of_small hsmall]
    split <;> simp <;> omega
  · have hfit := @Nat.length_toDigits_le_iff 10 (2 ^ 32 - code.toNat) 8 (by omega) (by omega)
    rw [itoaS_of_large (by omega)]
    split <;> simp <;> omega

end Alpl.Util
