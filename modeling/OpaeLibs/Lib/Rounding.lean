import Mathlib

namespace OpaeLibs.Lib.Rounding

section

variable {unit n m top : Nat}

def ceil (unit n : Nat) : Nat := (n + unit - 1) / unit * unit

theorem dvd_ceil (unit n : Nat) : unit ∣ ceil unit n := Nat.dvd_mul_left _ _

theorem le_ceil (hunit : 0 < unit) (n : Nat) : n ≤ ceil unit n := by
  have hdiv := Nat.div_add_mod (n + unit - 1) unit
  have hmod := Nat.mod_lt (n + unit - 1) hunit
  rw [Nat.mul_comm] at hdiv
  rw [ceil]
  omega

theorem ceil_lt (hunit : 0 < unit) (n : Nat) : ceil unit n < n + unit := by
  have hle := Nat.div_mul_le_self (n + unit - 1) unit
  rw [ceil]
  omega

theorem ceil_le_iff (hunit : 0 < unit) (hm : unit ∣ m) : ceil unit n ≤ m ↔ n ≤ m := by
  constructor
  · exact (le_ceil hunit n).trans
  · intro hle
    obtain ⟨q, rfl⟩ := hm
    have hlt := (ceil_lt hunit n).trans_le (Nat.add_le_add_right hle unit)
    rw [ceil, Nat.mul_comm unit q] at hlt ⊢
    have hq : (n + unit - 1) / unit < q + 1 := by
      apply Nat.lt_of_mul_lt_mul_right (a := unit)
      rwa [Nat.add_mul, Nat.one_mul]
    exact Nat.mul_le_mul_right unit (Nat.le_of_lt_succ hq)

theorem ceil_lt_iff (hunit : 0 < unit) (htop : unit ∣ top) :
    ceil unit n < top ↔ n + unit ≤ top := by
  constructor
  · intro hlt
    have hle : ceil unit n + unit ≤ top := by
      obtain ⟨q, hq⟩ := htop
      obtain ⟨r, hr⟩ := dvd_ceil unit n
      rw [hq, hr] at hlt ⊢
      have hrq : r < q := Nat.lt_of_mul_lt_mul_left hlt
      calc unit * r + unit = unit * (r + 1) := by ring
        _ ≤ unit * q := Nat.mul_le_mul_left unit hrq
    exact (Nat.add_le_add_right (le_ceil hunit n) unit).trans hle
  · exact (ceil_lt hunit n).trans_le

theorem ceil_eq_self (hunit : 0 < unit) (hn : unit ∣ n) : ceil unit n = n :=
  Nat.le_antisymm ((ceil_le_iff hunit hn).mpr le_rfl) (le_ceil hunit n)

theorem ceil_eq_unit (hn : 0 < n) (hle : n ≤ unit) : ceil unit n = unit := by
  have hunit : 0 < unit := hn.trans_le hle
  apply Nat.le_antisymm ((ceil_le_iff hunit dvd_rfl).mpr hle)
  exact Nat.le_of_dvd (hn.trans_le (le_ceil hunit n)) (dvd_ceil unit n)

theorem two_pow_dvd_ceil {j k : Nat} (h : 2 ^ j ∣ n) : 2 ^ j ∣ ceil (2 ^ k) n := by
  obtain hkj | hjk := Nat.le_total k j
  · rwa [ceil_eq_self (Nat.two_pow_pos k) ((Nat.pow_dvd_pow 2 hkj).trans h)]
  · exact (Nat.pow_dvd_pow 2 hjk).trans (dvd_ceil _ n)

theorem ceil_mod_eq_zero_iff (hunit : 0 < unit) (htop : unit ∣ top) (hn : 0 < n) (hle : n ≤ top) :
    ceil unit n % top = 0 ↔ top < n + unit := by
  rw [← Nat.not_le, ← ceil_lt_iff hunit htop]
  have hceil := (ceil_le_iff hunit htop).mpr hle
  have hpos : 0 < ceil unit n := hn.trans_le (le_ceil hunit n)
  constructor
  · intro hmod hlt
    rw [Nat.mod_eq_of_lt hlt] at hmod
    exact absurd hmod (Nat.ne_of_gt hpos)
  · intro hnot
    rw [Nat.le_antisymm hceil (Nat.le_of_not_lt hnot), Nat.mod_self]

/-- A number rounded up in a word, which has come out as 0 just where it did not fit. -/
theorem word_eq_zero_iff {w : UInt64} (hw : w.toNat = ceil unit n % 2 ^ 64) (hunit : unit ∣ 2 ^ 64)
    (hn : 0 < n) (hle : n ≤ 2 ^ 64) : w = 0 ↔ 2 ^ 64 < n + unit := by
  have hpos : 0 < unit := Nat.pos_of_dvd_of_pos hunit (by decide)
  rw [← UInt64.toNat_inj, hw, UInt64.toNat_zero, ceil_mod_eq_zero_iff hpos hunit hn hle]

theorem toNat_word {w : UInt64} (hw : w.toNat = ceil unit n % 2 ^ 64) (hunit : unit ∣ 2 ^ 64)
    (hfits : n + unit ≤ 2 ^ 64) : w.toNat = ceil unit n := by
  have hpos : 0 < unit := Nat.pos_of_dvd_of_pos hunit (by decide)
  rw [hw, Nat.mod_eq_of_lt ((ceil_lt_iff hpos hunit).mpr hfits)]

end

section

variable {k : Nat} {p : UInt64}

theorem and_mask (x : Nat) (hx : x < 2 ^ 64) (hk : k < 64) :
    x &&& (2 ^ 64 - 1 - (2 ^ k - 1)) = x / 2 ^ k * 2 ^ k := by
  have hpow : 2 ^ k ≤ 2 ^ 64 := Nat.pow_le_pow_right (by decide) hk.le
  have hpos : 0 < 2 ^ k := Nat.two_pow_pos k
  have hmask : 2 ^ 64 - 1 - (2 ^ k - 1) = 2 ^ 64 - (2 ^ k - 1 + 1) := by omega
  rw [hmask, ← Nat.shiftRight_eq_div_pow, ← Nat.shiftLeft_eq]
  apply Nat.eq_of_testBit_eq
  intro i
  rw [Nat.testBit_and, Nat.testBit_two_pow_sub_succ (by omega), Nat.testBit_two_pow_sub_one,
    Nat.testBit_shiftLeft, Nat.testBit_shiftRight]
  by_cases hi : i < 64
  · by_cases hki : k ≤ i
    · simp [hi, hki, Nat.not_lt.mpr hki]
    · simp [hki, Nat.lt_of_not_le hki]
  · have hbit : x.testBit i = false :=
      Nat.testBit_lt_two_pow (hx.trans_le (Nat.pow_le_pow_right (by decide) (Nat.le_of_not_lt hi)))
    have hki : k ≤ i := by omega
    simp [hbit, hki]

theorem toNat_and_not_pred (hk : k < 64) (hp : p.toNat = 2 ^ k) (x : UInt64) :
    (x &&& ~~~(p - 1)).toNat = x.toNat / 2 ^ k * 2 ^ k := by
  have hpos : 0 < 2 ^ k := Nat.two_pow_pos k
  have hpred : (p - 1).toNat = 2 ^ k - 1 := by
    have hlt := p.toNat_lt
    rw [UInt64.toNat_sub, UInt64.toNat_one]
    omega
  rw [UInt64.toNat_and, UInt64.toNat_not, hpred]
  exact and_mask x.toNat x.toNat_lt hk

theorem not_pred (p : UInt64) : ~~~(p - 1) = -p := by
  rw [UInt64.not_eq_neg_sub]
  grind

theorem toNat_add_and_not_pred (hk : k < 64) (hp : p.toNat = 2 ^ k) {n : UInt64} (hn : n ≠ 0) :
    (p + ((n - 1) &&& ~~~(p - 1))).toNat = ceil (2 ^ k) n.toNat % 2 ^ 64 := by
  have hpos : 0 < 2 ^ k := Nat.two_pow_pos k
  have hn0 : n.toNat ≠ 0 := fun h => hn (UInt64.toNat_inj.mp h)
  have hpred : (n - 1).toNat = n.toNat - 1 := by
    have hlt := n.toNat_lt
    rw [UInt64.toNat_sub, UInt64.toNat_one]
    omega
  have hceil : ceil (2 ^ k) n.toNat = 2 ^ k + (n.toNat - 1) / 2 ^ k * 2 ^ k := by
    have hsum : n.toNat + 2 ^ k - 1 = n.toNat - 1 + 2 ^ k := by omega
    rw [ceil, hsum, Nat.add_div_right _ hpos, Nat.succ_mul, Nat.add_comm]
  rw [UInt64.toNat_add, toNat_and_not_pred hk hp, hpred, hp, hceil]

theorem toNat_add_pred_and_neg (hk : k < 64) (hp : p.toNat = 2 ^ k) (n : UInt64) :
    ((n + p - 1) &&& -p).toNat = ceil (2 ^ k) n.toNat % 2 ^ 64 := by
  have hpos : 0 < 2 ^ k := Nat.two_pow_pos k
  have hsum : (n + p - 1).toNat = (n.toNat + 2 ^ k - 1) % 2 ^ 64 := by
    rw [UInt64.toNat_sub, UInt64.toNat_add, UInt64.toNat_one, hp]
    omega
  have htop : 2 ^ 64 = 2 ^ k * 2 ^ (64 - k) := by
    rw [← Nat.pow_add, Nat.add_sub_cancel' hk.le]
  rw [← not_pred, toNat_and_not_pred hk hp, hsum, ceil, htop, Nat.mod_mul_right_div_self,
    Nat.mul_comm (2 ^ k) (2 ^ (64 - k)), Nat.mul_mod_mul_right]

end

end OpaeLibs.Lib.Rounding
