import Mathlib

namespace OpaeLibs.Lib.Doubles

/-- The last place of a number with 53 significant bits. -/
def unit (p : Nat) : Nat := 2 ^ (p.log2 - 52)

/-- A number rounded to 53 significant bits, from a tie to the even one. -/
def round (p : Nat) : Nat :=
  if 2 * (p % unit p) < unit p ∨ 2 * (p % unit p) = unit p ∧ p / unit p % 2 = 0 then
    p / unit p * unit p
  else (p / unit p + 1) * unit p

/-- The integer part of the product of `n` and the double `m / 2 ^ k`. -/
def truncMul (n m k : Nat) : Nat := round (n * m) / 2 ^ k

section Rounding

variable {p q : Nat}

theorem unit_pos (p : Nat) : 0 < unit p := Nat.two_pow_pos _

theorem round_zero : round 0 = 0 := by decide

theorem round_near (p : Nat) : 2 * round p ≤ 2 * p + unit p ∧ 2 * p ≤ 2 * round p + unit p := by
  have hdiv := Nat.div_add_mod p (unit p)
  have hmod := Nat.mod_lt p (unit_pos p)
  rw [Nat.mul_comm] at hdiv
  rw [round]
  split
  · omega
  · rw [Nat.add_mul, Nat.one_mul]
    omega

theorem unit_le (hp : 2 ^ 52 ≤ p) : unit p * 2 ^ 52 ≤ p := by
  have hne : p ≠ 0 := by
    rintro rfl
    exact absurd hp (by decide)
  have hlog : 52 ≤ p.log2 := (Nat.le_log2 hne).mpr hp
  rw [unit, ← Nat.pow_add, Nat.sub_add_cancel hlog]
  exact Nat.log2_self_le hne

theorem lt_unit (p : Nat) : p < unit p * 2 ^ 53 := by
  have hlt : p < 2 ^ (p.log2 + 1) := Nat.lt_log2_self
  refine Nat.lt_of_lt_of_le hlt ?_
  rw [unit, ← Nat.pow_add]
  exact Nat.pow_le_pow_right (by decide) (by omega)

theorem dvd_round (p : Nat) : unit p ∣ round p := by
  rw [round]
  split
  · exact Nat.dvd_mul_left _ _
  · exact Nat.dvd_mul_left _ _

theorem round_below (h : unit p ∣ q) {d : Nat} (hq : p + d = q) (hd : 2 * d < unit p) :
    round p = q := by
  obtain ⟨hle, hge⟩ := round_near p
  obtain ⟨a, ha⟩ := dvd_round p
  obtain ⟨b, hb⟩ := h
  have hab : unit p * a < unit p * (b + 1) := by
    rw [← ha, Nat.mul_add, ← hb]
    omega
  have hba : unit p * b < unit p * (a + 1) := by
    rw [← hb, Nat.mul_add, ← ha]
    omega
  have hlt := Nat.lt_of_mul_lt_mul_left hab
  have hlt' := Nat.lt_of_mul_lt_mul_left hba
  rw [ha, hb, Nat.le_antisymm (Nat.le_of_lt_succ hlt) (Nat.le_of_lt_succ hlt')]

end Rounding

section Scaling

variable {n m d e k : Nat}

theorem unit_lt_of_mul (hm : 2 ^ 52 ≤ m) (hn : 0 < n) (hlt : n < 2 ^ 52) : unit (n * m) < m := by
  have hle := unit_le (p := n * m) (Nat.le_trans hm (Nat.le_mul_of_pos_left m hn))
  have hmul : n * m < 2 ^ 52 * m := Nat.mul_lt_mul_of_pos_right hlt (by omega)
  apply Nat.lt_of_mul_lt_mul_right (a := 2 ^ 52)
  rw [Nat.mul_comm m]
  exact Nat.lt_of_le_of_lt hle hmul

theorem unit_dvd_of_lt {p : Nat} (hp : p < 2 ^ (52 + k)) : unit p ∣ 2 ^ k := by
  by_cases hzero : p = 0
  · rw [hzero]
    exact Nat.one_dvd _
  · have hlog : p.log2 < 52 + k := (Nat.log2_lt hzero).mpr hp
    exact Nat.pow_dvd_pow 2 (by omega)

/-- Where `m / 2 ^ k` is just below the reciprocal of `d`, the product of a small number with it has
the integer part of the quotient. -/
theorem truncMul_eq_div (hm : 2 ^ 52 ≤ m) (hd : m * d + e = 2 ^ k)
    (he : (2 ^ 54 + 1) * e ≤ 2 ^ k) (hlt : n < 2 ^ 52) : truncMul n m k = n / d := by
  obtain rfl | hn := Nat.eq_zero_or_pos n
  · rw [truncMul, Nat.zero_mul, round_zero, Nat.zero_div, Nat.zero_div]
  have hpos : 0 < d := by
    by_contra hzero
    rw [Nat.eq_zero_of_not_pos hzero, Nat.mul_zero, Nat.zero_add] at hd
    have := Nat.two_pow_pos k
    omega
  have hsplit := Nat.div_add_mod n d
  have hmod := Nat.mod_lt n hpos
  generalize n / d = q at hsplit ⊢
  generalize n % d = r at hsplit hmod
  have hexact : n * m + q * e = q * 2 ^ k + r * m := by
    rw [← hsplit, ← hd]
    ring
  have hunit := unit_lt_of_mul hm hn hlt
  obtain ⟨hround, hround'⟩ := round_near (n * m)
  -- the error of the double is small beside its last place
  have herror : 2 ^ 54 * (q * e) + q * e ≤ q * 2 ^ k :=
    calc 2 ^ 54 * (q * e) + q * e = q * ((2 ^ 54 + 1) * e) := by ring
      _ ≤ q * 2 ^ k := Nat.mul_le_mul_left q he
  have habove : round (n * m) < 2 ^ k * (q + 1) := by
    have hrow : (r + 1) * m ≤ d * m := Nat.mul_le_mul_right m hmod
    rw [Nat.add_mul, Nat.one_mul, Nat.mul_comm d] at hrow
    rw [Nat.mul_add, Nat.mul_one, Nat.mul_comm _ q]
    omega
  have hbelow : 2 ^ k * q ≤ round (n * m) := by
    rw [Nat.mul_comm]
    obtain rfl | hr := Nat.eq_zero_or_pos r
    · rw [Nat.zero_mul, Nat.add_zero] at hexact
      have hq : q ≤ n := by
        rw [← hsplit, Nat.add_zero]
        exact Nat.le_mul_of_pos_left q hpos
      have hp : n * m < 2 ^ (52 + k) :=
        calc n * m ≤ q * 2 ^ k := by omega
          _ < 2 ^ 52 * 2 ^ k := Nat.mul_lt_mul_of_pos_right (by omega) (Nat.two_pow_pos k)
          _ = 2 ^ (52 + k) := (Nat.pow_add 2 52 k).symm
      have hplace := lt_unit (n * m)
      have hdvd := Nat.dvd_mul_left_of_dvd (unit_dvd_of_lt hp) q
      exact Nat.le_of_eq (round_below hdvd hexact (by omega)).symm
    · have hrow : m ≤ r * m := Nat.le_mul_of_pos_left m hr
      have hsmall : 2 ^ 54 * (q * e) < 2 ^ 52 * m :=
        calc 2 ^ 54 * (q * e) ≤ q * (m * d) := by
              rw [← hd] at herror
              have : q * (m * d + e) = q * (m * d) + q * e := Nat.mul_add _ _ _
              omega
          _ = d * q * m := by ring
          _ ≤ n * m := Nat.mul_le_mul_right m (by omega)
          _ < 2 ^ 52 * m := Nat.mul_lt_mul_of_pos_right hlt (by omega)
      omega
  rw [Nat.mul_comm] at hbelow
  rw [Nat.mul_comm (2 ^ k)] at habove
  exact Nat.div_eq_of_lt_le hbelow habove

end Scaling

end OpaeLibs.Lib.Doubles
