import Mathlib.Data.BitVec
import Mathlib.Tactic.Ring

/-!
A machine word used as a shift register. Digits are shifted in at the low end, nothing is ever
masked off, and windows are read back with an arithmetic shift. The word wraps, so only its low
bits are meaningful: the lemmas say what they are and that a window inside the word reads them,
whatever the sign of the word.
-/
namespace ShiftRegister

variable {W : ℕ}

/-- Shift `s` bits in at the low end. -/
def shiftIn (v : BitVec W) (s : ℕ) (c : BitVec W) : BitVec W :=
  (v <<< s) + c

/-- The `j` bits from position `k` on, read through an arithmetic shift. -/
def window (v : BitVec W) (k j : ℕ) : BitVec W :=
  v.sshiftRight k &&& BitVec.ofNat W (2 ^ j - 1)

/-- The low `k` bits, as a number. -/
def low (v : BitVec W) (k : ℕ) : ℕ :=
  v.toNat % 2 ^ k

theorem low_zero (v : BitVec W) : low v 0 = 0 := by
  simp [low, Nat.mod_one]

/-- Shifting in moves the meaningful bits up and puts the new digit below them. -/
theorem low_shiftIn (v : BitVec W) {s k : ℕ} {c : BitVec W} (hc : c.toNat < 2 ^ s)
    (hk : k + s ≤ W) : low (shiftIn v s c) (k + s) = low v k * 2 ^ s + c.toNat := by
  have hpow : 2 ^ (k + s) ∣ 2 ^ W := Nat.pow_dvd_pow 2 hk
  unfold low shiftIn
  rw [BitVec.toNat_add, BitVec.toNat_shiftLeft, Nat.shiftLeft_eq, Nat.mod_add_mod,
    Nat.mod_mod_of_dvd _ hpow, Nat.pow_add, Nat.mul_comm (2 ^ k) (2 ^ s), Nat.mod_mul,
    Nat.mul_comm v.toNat (2 ^ s), Nat.mul_add_mod, Nat.mod_eq_of_lt hc,
    Nat.mul_add_div (Nat.two_pow_pos s), Nat.div_eq_of_lt hc, Nat.add_zero]
  ring

theorem low_shiftIn_zero (v : BitVec W) {s k : ℕ} (hk : k + s ≤ W) :
    low (shiftIn v s 0) (k + s) = low v k * 2 ^ s := by
  rw [low_shiftIn v (by simp) hk]
  simp

theorem low_of_low (v : BitVec W) {j k : ℕ} (h : j ≤ k) : low v j = low v k % 2 ^ j := by
  unfold low
  rw [Nat.mod_mod_of_dvd _ (Nat.pow_dvd_pow 2 h)]

/-- A window that ends inside the word reads the meaningful bits, also from a negative word. -/
theorem toNat_window (v : BitVec W) {k j : ℕ} (h : k + j ≤ W) :
    (window v k j).toNat = low v (k + j) / 2 ^ k := by
  unfold window low
  have hlt : 2 ^ j - 1 < 2 ^ W :=
    lt_of_lt_of_le (Nat.sub_lt (Nat.two_pow_pos j) Nat.one_pos)
      (Nat.pow_le_pow_right (by omega) (by omega))
  apply Nat.eq_of_testBit_eq
  intro i
  rw [BitVec.toNat_and, BitVec.toNat_ofNat, Nat.mod_eq_of_lt hlt, Nat.testBit_and,
    Nat.testBit_two_pow_sub_one, BitVec.testBit_toNat, BitVec.getLsbD_sshiftRight,
    Nat.testBit_div_two_pow, Nat.testBit_mod_two_pow, ← BitVec.testBit_toNat]
  by_cases hi : i < j
  · have hword : i + k < W := by omega
    have hnot : ¬ W ≤ i := by omega
    have hin : i + k < k + j := by omega
    simp [hi, hword, hnot, hin, Nat.add_comm k i]
  · have hout : ¬ i + k < k + j := by omega
    simp [hi, hout]

end ShiftRegister
