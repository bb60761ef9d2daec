import Mathlib.Data.Nat.Bitwise

/-! # Unsigned machine words as numbers
Sums, differences, masks and shifts of 32-bit and 64-bit words, read back as natural
numbers. Nothing here depends on a program: each lemma states when a word operation
agrees with unbounded arithmetic, or what its carry amounts to. -/
namespace MachineWord

theorem toNat_add32 {a b : UInt32} (h : a.toNat + b.toNat < 2 ^ 32) :
    (a + b).toNat = a.toNat + b.toNat := by
  rw [UInt32.toNat_add, Nat.mod_eq_of_lt h]

theorem toNat_add64 {a b : UInt64} (h : a.toNat + b.toNat < 2 ^ 64) :
    (a + b).toNat = a.toNat + b.toNat := by
  rw [UInt64.toNat_add, Nat.mod_eq_of_lt h]

/-- A carried sum lies below its first operand, so a bound on that operand still holds. -/
theorem toNat_add32_of_carry {a b : UInt32} (h : 2 ^ 32 ≤ a.toNat + b.toNat) :
    (a + b).toNat = a.toNat + b.toNat - 2 ^ 32 := by
  have ha := a.toNat_lt
  have hb := b.toNat_lt
  rw [UInt32.toNat_add]
  omega

/-- A sum exceeds its first operand exactly when nothing is carried out. -/
theorem lt_add32_iff {a b : UInt32} (hb : 0 < b.toNat) :
    a < a + b ↔ a.toNat + b.toNat < 2 ^ 32 := by
  have ha := a.toNat_lt
  have hb' := b.toNat_lt
  rw [UInt32.lt_iff_toNat_lt, UInt32.toNat_add]
  omega

/-- The usual carry test of a 64-bit addition. -/
theorem add64_lt_iff {a b : UInt64} : a + b < a ↔ 2 ^ 64 ≤ a.toNat + b.toNat := by
  have ha := a.toNat_lt
  have hb := b.toNat_lt
  rw [UInt64.lt_iff_toNat_lt, UInt64.toNat_add]
  omega

theorem ne_zero32_iff {a : UInt32} : a ≠ 0 ↔ 0 < a.toNat := by
  rw [ne_eq, ← UInt32.toNat_inj, UInt32.toNat_zero]
  omega

theorem ne_zero64_iff {a : UInt64} : a ≠ 0 ↔ 0 < a.toNat := by
  rw [ne_eq, ← UInt64.toNat_inj, UInt64.toNat_zero]
  omega

/-- Masking with `2 ^ k - 1` is the remainder modulo `2 ^ k`. -/
theorem and_mask32 {m : UInt32} (x : UInt32) (k : ℕ) (hm : m.toNat = 2 ^ k - 1) :
    (x &&& m).toNat = x.toNat % 2 ^ k := by
  rw [UInt32.toNat_and, hm, Nat.and_two_pow_sub_one_eq_mod]

theorem and_mask64 {m : UInt64} (x : UInt64) (k : ℕ) (hm : m.toNat = 2 ^ k - 1) :
    (x &&& m).toNat = x.toNat % 2 ^ k := by
  rw [UInt64.toNat_and, hm, Nat.and_two_pow_sub_one_eq_mod]

private theorem and_not_mask {w : ℕ} (x : BitVec w) (k : ℕ) (hk : k ≤ w) :
    (x &&& ~~~(BitVec.ofNat w (2 ^ k - 1))).toNat = x.toNat / 2 ^ k * 2 ^ k := by
  apply Nat.eq_of_testBit_eq
  intro i
  simp only [BitVec.toNat_and, Nat.testBit_and, BitVec.testBit_toNat, BitVec.getLsbD_not,
    BitVec.getLsbD_ofNat, Nat.testBit_mul_two_pow, Nat.testBit_div_two_pow,
    Nat.testBit_two_pow_sub_one]
  by_cases hi : k ≤ i
  · have hx : i - k + k = i := by omega
    by_cases hw : i < w
    · simp [hi, hw, hx]
    · simp [hw, hx, BitVec.getLsbD_of_ge x i (by omega)]
  · have hw : i < w := by omega
    simp [hi, hw, Nat.lt_of_not_le hi]

/-- Clearing the bits of `2 ^ k - 1` rounds down to a multiple of `2 ^ k`. -/
theorem and_not_mask32 {m : UInt32} (x : UInt32) (k : ℕ) (hk : k ≤ 32)
    (hm : m.toNat = 2 ^ k - 1) : (x &&& ~~~m).toNat = x.toNat / 2 ^ k * 2 ^ k := by
  have hb : m.toBitVec = BitVec.ofNat 32 (2 ^ k - 1) := by
    apply BitVec.eq_of_toNat_eq
    rw [BitVec.toNat_ofNat, ← hm, Nat.mod_eq_of_lt m.toNat_lt]
    rfl
  have h := and_not_mask x.toBitVec k hk
  rw [← hb] at h
  exact h

theorem and_not_mask64 {m : UInt64} (x : UInt64) (k : ℕ) (hk : k ≤ 64)
    (hm : m.toNat = 2 ^ k - 1) : (x &&& ~~~m).toNat = x.toNat / 2 ^ k * 2 ^ k := by
  have hb : m.toBitVec = BitVec.ofNat 64 (2 ^ k - 1) := by
    apply BitVec.eq_of_toNat_eq
    rw [BitVec.toNat_ofNat, ← hm, Nat.mod_eq_of_lt m.toNat_lt]
    rfl
  have h := and_not_mask x.toBitVec k hk
  rw [← hb] at h
  exact h

theorem shiftRight32 {s : UInt32} (x : UInt32) (k : ℕ) (hs : s.toNat = k) (hk : k < 32) :
    (x >>> s).toNat = x.toNat / 2 ^ k := by
  rw [UInt32.toNat_shiftRight, hs, Nat.mod_eq_of_lt hk, Nat.shiftRight_eq_div_pow]

theorem shiftRight64 {s : UInt64} (x : UInt64) (k : ℕ) (hs : s.toNat = k) (hk : k < 64) :
    (x >>> s).toNat = x.toNat / 2 ^ k := by
  rw [UInt64.toNat_shiftRight, hs, Nat.mod_eq_of_lt hk, Nat.shiftRight_eq_div_pow]

theorem shiftLeft64 {s : UInt64} (x : UInt64) (k : ℕ) (hs : s.toNat = k) (hk : k < 64)
    (hx : x.toNat * 2 ^ k < 2 ^ 64) : (x <<< s).toNat = x.toNat * 2 ^ k := by
  rw [UInt64.toNat_shiftLeft, hs, Nat.mod_eq_of_lt hk, Nat.shiftLeft_eq, Nat.mod_eq_of_lt hx]

end MachineWord
