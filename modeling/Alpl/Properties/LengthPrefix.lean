import Alpl.Util.Errno
import Mathlib.Algebra.BigOperators.Group.Finset.Basic
import Mathlib.Algebra.BigOperators.Intervals
import Mathlib.Data.BitVec
import Mathlib.Tactic.Ring

/-!
# The length prefix

`ntob` writes the four bytes of a number, the lowest first.  `bton` starts one byte too high, and
adds every byte as a signed one.  The fifth byte is shifted out of the result again, so all it does
is to be read (`readsInside_iff`); a byte from `0x80` on takes `256` times its place away
(`roundTrips_iff`).
-/

namespace Alpl.Util

open Finset

/-- `ntob` and then `bton` gives the number back, and `ntob` leaves the bytes after the prefix. -/
def RoundTrips (number : BitVec 32) (buffer : List Byte) : Prop :=
  ∃ written, ntob number (some buffer) = .ok (0, some written) ∧
    bton (some written) = .ok number ∧ written.length = buffer.length ∧
    written.drop prefixLength = buffer.drop prefixLength

/-- The three low bytes of the number are not negative as a `char`. -/
def LowBytesPositive (number : BitVec 32) : Prop :=
  number.getLsbD 7 = false ∧ number.getLsbD 15 = false ∧ number.getLsbD 23 = false

instance (number : BitVec 32) : Decidable (LowBytesPositive number) :=
  inferInstanceAs (Decidable (_ ∧ _))

/-- Every byte that `bton` reads lies inside the buffer. -/
def ReadsInside (buffer : List Byte) : Prop := ∃ number, bton (some buffer) = .ok number

/-! ## What the loop of `bton` computes -/

/-- The bytes up to the index `n`, each with its sign and its place. -/
def signedValue (buffer : List Byte) (n : ℕ) : ℤ :=
  ∑ i ∈ range (n + 1), (buffer.getD i 0).toInt * 256 ^ i

lemma readByte_of_lt {buffer : List Byte} {i : ℕ} (h : i < buffer.length) :
    readByte buffer i = .ok (buffer.getD i 0) := by
  simp [readByte, List.getD, h]

lemma readByte_of_le {buffer : List Byte} {i : ℕ} (h : buffer.length ≤ i) :
    readByte buffer i = .error (.outOfBounds i) := by
  simp [readByte, h]

lemma shift_add (result : BitVec 32) (c : Byte) :
    (result <<< 8) + c.signExtend 32 = BitVec.ofInt 32 (result.toInt * 256 + c.toInt) := by
  rw [BitVec.ofInt_add, BitVec.ofInt_mul, BitVec.ofInt_toInt, BitVec.shiftLeft_eq_mul_twoPow]
  rfl

/-- What was cut off a result does not matter for the next one. -/
lemma ofInt_toInt_ofInt_mul_add (x y z : ℤ) :
    BitVec.ofInt 32 ((BitVec.ofInt 32 x).toInt * y + z) = BitVec.ofInt 32 (x * y + z) := by
  simp only [BitVec.ofInt_add, BitVec.ofInt_mul, BitVec.ofInt_toInt]

/-- From the index `n` down, the result so far moves up by a place for each byte. -/
lemma btonLoop_eq {buffer : List Byte} {n : ℕ} (h : n < buffer.length) (result : BitVec 32) :
    btonLoop buffer n result =
      .ok (BitVec.ofInt 32 (result.toInt * 256 ^ (n + 1) + signedValue buffer n)) := by
  induction n generalizing result with
  | zero => simp [btonLoop, readByte_of_lt h, shift_add, signedValue]
  | succ n ih =>
      have hvalue : signedValue buffer (n + 1) =
          (buffer.getD (n + 1) 0).toInt * 256 ^ (n + 1) + signedValue buffer n := by
        rw [signedValue, sum_range_succ, add_comm]
        rfl
      have hplace : (result.toInt * 256 + (buffer.getD (n + 1) 0).toInt) * 256 ^ (n + 1) +
          signedValue buffer n =
            result.toInt * 256 ^ (n + 2) + signedValue buffer (n + 1) := by
        rw [hvalue]
        ring
      simp only [btonLoop, readByte_of_lt h, shift_add]
      exact (ih (by omega) _).trans (by rw [ofInt_toInt_ofInt_mul_add, hplace])

lemma btonLoop_outside {buffer : List Byte} {n : ℕ} (h : buffer.length ≤ n) (result : BitVec 32) :
    btonLoop buffer n result = .error (.outOfBounds n) := by
  cases n <;> simp [btonLoop, readByte_of_le h, bind, Except.bind]

/-- **`bton` reads one byte too many.**  Its reads are inside the buffer exactly if there is a byte
after the prefix. -/
theorem readsInside_iff (buffer : List Byte) :
    ReadsInside buffer ↔ prefixLength < buffer.length := by
  constructor
  · rintro ⟨number, hread⟩
    by_contra hlen
    rw [bton, btonLoop_outside (by omega)] at hread
    cases hread
  · intro hlen
    exact ⟨_, btonLoop_eq hlen 0⟩

/-- **A prefix at the end of a block is never decoded inside it.**  The first read of the loop is
already behind the last byte. -/
theorem bton_prefix {buffer : List Byte} (h : buffer.length = prefixLength) :
    ¬ ReadsInside buffer ∧ bton (some buffer) = .error (.outOfBounds prefixLength) := by
  refine ⟨?_, btonLoop_outside (by omega) 0⟩
  rw [readsInside_iff]
  omega

theorem bton_prefix_one : ¬ ReadsInside [1, 0, 0, 0] ∧
    bton (some [1, 0, 0, 0]) = .error (.outOfBounds prefixLength) :=
  bton_prefix rfl

theorem prefix_outside : ¬ ∀ buffer, buffer.length = prefixLength → ReadsInside buffer := by
  intro h
  obtain ⟨number, hread⟩ := h [1, 0, 0, 0] rfl
  have hout : bton (some [1, 0, 0, 0]) = .error (.outOfBounds 4) := by decide
  cases hout.symm.trans hread

/-! ## What the loop of `ntob` writes -/

/-- The byte of the number at the place `i`. -/
def byteAt (number : BitVec 32) (i : ℕ) : Byte := (number.sshiftRight (i * 8)).setWidth 8

lemma writeByte_of_lt {buffer : List Byte} {i : ℕ} (h : i < buffer.length) (c : Byte) :
    writeByte buffer i c = .ok (buffer.set i c) := by
  simp [writeByte, h]

/-- The bytes written stand between what was in front of them and what is behind them. -/
lemma ntobLoop_eq (number : BitVec 32) {k i : ℕ} {buffer : List Byte}
    (h : i + k ≤ buffer.length) :
    ntobLoop number k i buffer =
      .ok (buffer.take i ++ (List.range' i k).map (byteAt number) ++ buffer.drop (i + k)) := by
  induction k generalizing i buffer with
  | zero => simp [ntobLoop]
  | succ k ih =>
      have hi : i < buffer.length := by omega
      have htake : (buffer.set i (byteAt number i)).take (i + 1) =
          buffer.take i ++ [byteAt number i] := by
        rw [List.set_eq_take_append_cons_drop, if_pos hi, List.take_append]
        simp [hi.le]
      have hdrop : (buffer.set i (byteAt number i)).drop (i + 1 + k) =
          buffer.drop (i + (k + 1)) := by
        rw [List.drop_set_of_lt (by omega), Nat.add_right_comm, Nat.add_assoc]
      have hrest := @ih (i + 1) (buffer.set i (byteAt number i)) (by simp; omega)
      rw [htake, hdrop] at hrest
      simp only [ntobLoop, writeByte_of_lt hi]
      refine hrest.trans ?_
      simp [List.range'_succ]

/-- **`ntob` writes the four bytes of the number**, the lowest first, and nothing else. -/
theorem ntob_eq (number : BitVec 32) {buffer : List Byte} (h : prefixLength ≤ buffer.length) :
    ntob number (some buffer) = .ok (0,
      some ((List.range prefixLength).map (byteAt number) ++ buffer.drop prefixLength)) := by
  have hloop := @ntobLoop_eq number prefixLength 0 buffer (by omega)
  simp only [ntob, hloop, List.range_eq_range']
  simp [bind, Except.bind, pure, Except.pure]

lemma byteAt_eq (number : BitVec 32) {i : ℕ} (h : i < prefixLength) :
    byteAt number i = number.extractLsb' (i * 8) 8 := by
  unfold prefixLength at h
  ext j hj
  have hin : i * 8 + j < 32 := by omega
  simp [byteAt, BitVec.getLsbD_sshiftRight, hin]
  omega

/-- As a `char`, a byte with its highest bit counts `256` less. -/
lemma toInt_byteAt (number : BitVec 32) {i : ℕ} (h : i < prefixLength) :
    (byteAt number i).toInt = (number.toNat / 256 ^ i % 256 : ℕ) -
      (if number.getLsbD (i * 8 + 7) then 256 else 0) := by
  have hplace : (2 : ℕ) ^ (i * 8) = 256 ^ i := by
    rw [Nat.mul_comm, Nat.pow_mul]
  have hbit : number.getLsbD (i * 8 + 7) = true ↔ number.toNat / 256 ^ i / 128 % 2 = 1 := by
    rw [BitVec.getLsbD, Nat.testBit_eq_decide_div_mod_eq, decide_eq_true_iff, Nat.pow_add, hplace,
      Nat.div_div_eq_div_mul]
  rw [byteAt_eq number h, BitVec.toInt_eq_toNat_cond, BitVec.extractLsb'_toNat,
    Nat.shiftRight_eq_div_pow, hplace]
  simp only [hbit]
  generalize number.toNat / 256 ^ i = x
  split <;> split <;> omega

lemma ofInt_eq_iff (z : ℤ) (number : BitVec 32) :
    BitVec.ofInt 32 z = number ↔ z % 2 ^ 32 = number.toNat := by
  rw [← BitVec.toNat_inj, BitVec.toNat_ofInt]
  omega

/-- What `bton` makes of the four bytes, whatever stands behind them. -/
lemma bton_append (number : BitVec 32) {rest : List Byte} (h : 0 < rest.length) :
    bton (some ((List.range prefixLength).map (byteAt number) ++ rest)) =
      .ok (BitVec.ofInt 32 (∑ i ∈ range prefixLength, (byteAt number i).toInt * 256 ^ i)) := by
  have hsum : signedValue ((List.range prefixLength).map (byteAt number) ++ rest) prefixLength =
      ∑ i ∈ range prefixLength, (byteAt number i).toInt * 256 ^ i +
        2 ^ 32 * (rest.getD 0 0).toInt := by
    have hhead : ∀ i ∈ range prefixLength,
        ((List.range prefixLength).map (byteAt number) ++ rest).getD i 0 = byteAt number i := by
      intro i hi
      have hi : i < prefixLength := mem_range.mp hi
      simp [List.getElem?_append_left, hi]
    rw [signedValue, sum_range_succ, sum_congr rfl (fun i hi => by rw [hhead i hi])]
    simp [List.getElem?_append_right, prefixLength, mul_comm]
  rw [bton, btonLoop_eq (by simpa using h), hsum]
  simp [BitVec.ofInt_add, BitVec.ofInt_mul]

/-- **The prefix round-trips for the numbers whose three low bytes are below `0x80`**, in every
buffer that has room for one byte more. -/
theorem roundTrips_iff (number : BitVec 32) {buffer : List Byte}
    (h : prefixLength + 1 ≤ buffer.length) :
    RoundTrips number buffer ↔ LowBytesPositive number := by
  have hwrite := ntob_eq number (by omega : prefixLength ≤ buffer.length)
  have hread := @bton_append number (buffer.drop prefixLength) (by simp; omega)
  have hvalue : RoundTrips number buffer ↔
      (∑ i ∈ range prefixLength, (byteAt number i).toInt * 256 ^ i) % 2 ^ 32 = number.toNat := by
    rw [← ofInt_eq_iff]
    constructor
    · rintro ⟨written, hwritten, hback, -, -⟩
      obtain rfl : _ = written := by simpa [hwrite] using hwritten
      simpa [hread] using hback
    · intro hback
      exact ⟨_, hwrite, hread.trans (congrArg _ hback), by simp; omega, by simp⟩
  rw [hvalue, LowBytesPositive]
  have hlt := number.isLt
  have h0 := toInt_byteAt number (i := 0) (by decide)
  have h1 := toInt_byteAt number (i := 1) (by decide)
  have h2 := toInt_byteAt number (i := 2) (by decide)
  have h3 := toInt_byteAt number (i := 3) (by decide)
  simp only [prefixLength, sum_range_succ, range_zero, sum_empty, h0, h1, h2, h3]
  simp only [pow_zero, mul_one, Nat.div_one, zero_add, Nat.zero_mul, Nat.reduceMul, Nat.reduceAdd]
  cases number.getLsbD 7 <;> cases number.getLsbD 15 <;> cases number.getLsbD 23 <;>
    cases number.getLsbD 31 <;> simp <;> omega

theorem roundTrips_ten : RoundTrips 10 [1, 2, 3, 4, 5] :=
  (roundTrips_iff 10 (by decide)).mpr (by decide)

/-- `128` comes back as `-128`. -/
theorem prefix_garbled : ¬ ∀ (number : BitVec 32) (buffer : List Byte),
    prefixLength + 1 ≤ buffer.length → RoundTrips number buffer := by
  intro h
  obtain ⟨written, hwritten, hback, -, -⟩ := h 128 [0, 0, 0, 0, 0] (by decide)
  have hbytes : ntob 128 (some [0, 0, 0, 0, 0]) = .ok (0, some [128, 0, 0, 0, 0]) := by decide
  obtain rfl : [128, 0, 0, 0, 0] = written := by
    simpa using hbytes.symm.trans hwritten
  have hvalue : bton (some [128, 0, 0, 0, 0]) = .ok (-128) := by decide
  exact absurd (hvalue.symm.trans hback) (by decide)

end Alpl.Util
