import Mathlib

namespace OpaeLibs.Lib.Bits

variable {w : Nat}

def hasBit (v : BitVec w) (i : Nat) : Prop := v >>> i &&& 1#w = 1#w

instance (v : BitVec w) (i : Nat) : Decidable (hasBit v i) :=
  inferInstanceAs (Decidable (_ = _))

def setBit (v : BitVec w) (i : Nat) : BitVec w := v ||| 1#w <<< i

def clearBit (v : BitVec w) (i : Nat) : BitVec w := v &&& ~~~(1#w <<< i)

theorem getLsbD_one_shiftLeft (i j : Nat) :
    (1#w <<< i).getLsbD j = decide (j < w ∧ i = j) := by
  rw [BitVec.getLsbD_shiftLeft, BitVec.getLsbD_one]
  by_cases hj : j < w <;> by_cases hi : i = j <;> simp [hj, hi] <;> omega

theorem hasBit_iff_getLsbD {v : BitVec w} {i : Nat} (hw : 0 < w) :
    hasBit v i ↔ v.getLsbD i = true := by
  rw [hasBit]
  constructor
  · intro h
    have h0 := congrArg (fun b => b.getLsbD 0) h
    simpa [hw] using h0
  · intro h
    apply BitVec.eq_of_getLsbD_eq
    intro j hj
    simp only [BitVec.getLsbD_and, BitVec.getLsbD_ushiftRight, BitVec.getLsbD_one]
    by_cases h0 : j = 0 <;> simp [h0, hw, h]

theorem and_one_shiftLeft_eq_zero {v : BitVec w} {i : Nat} (hw : 0 < w) :
    v &&& 1#w <<< i = 0#w ↔ ¬hasBit v i := by
  rw [hasBit_iff_getLsbD hw]
  constructor
  · intro h hi
    have hz : (v &&& 1#w <<< i).getLsbD i = (0#w).getLsbD i := by rw [h]
    rw [BitVec.getLsbD_and, getLsbD_one_shiftLeft, hi] at hz
    simp [BitVec.lt_of_getLsbD hi] at hz
  · intro h
    apply BitVec.eq_of_getLsbD_eq
    intro j hj
    rw [BitVec.getLsbD_and, getLsbD_one_shiftLeft]
    by_cases hij : i = j
    · subst hij
      simp [h]
    · simp [hij]

theorem not_hasBit_zero {i : Nat} (hw : 0 < w) : ¬hasBit (0#w) i := by
  simp [hasBit_iff_getLsbD hw]

theorem hasBit_setBit {v : BitVec w} {i j : Nat} (hi : i < w) :
    hasBit (setBit v i) j ↔ i = j ∨ hasBit v j := by
  have hw : 0 < w := by omega
  rw [hasBit_iff_getLsbD hw, hasBit_iff_getLsbD hw, setBit, BitVec.getLsbD_or,
    getLsbD_one_shiftLeft]
  simp only [Bool.or_eq_true, decide_eq_true_eq]
  constructor
  · intro h
    obtain h | ⟨-, h⟩ := h
    · exact .inr h
    · exact .inl h
  · intro h
    obtain rfl | h := h
    · exact .inr ⟨hi, rfl⟩
    · exact .inl h

theorem hasBit_clearBit {v : BitVec w} {i j : Nat} (hw : 0 < w) :
    hasBit (clearBit v i) j ↔ i ≠ j ∧ hasBit v j := by
  rw [hasBit_iff_getLsbD hw, hasBit_iff_getLsbD hw, clearBit, BitVec.getLsbD_and,
    BitVec.getLsbD_not, getLsbD_one_shiftLeft]
  by_cases hj : j < w
  · simp [hj, and_comm]
  · simp [hj, BitVec.getLsbD_of_ge v j (by omega)]

theorem getLsbD_low (w k i : Nat) :
    (BitVec.ofNat w (2 ^ k - 1)).getLsbD i = (decide (i < w) && decide (i < k)) := by
  rw [BitVec.getLsbD_ofNat, Nat.testBit_two_pow_sub_one]

theorem getLsbD_place (v : BitVec w) (k lo i : Nat) :
    ((v &&& BitVec.ofNat w (2 ^ k - 1)) <<< lo).getLsbD i =
      (decide (i < w) && decide (lo ≤ i) && decide (i < lo + k) && v.getLsbD (i - lo)) := by
  rw [BitVec.getLsbD_shiftLeft, BitVec.getLsbD_and, getLsbD_low]
  by_cases hw : i < w
  · by_cases hlo : lo ≤ i
    · have hlt : i - lo < w := by omega
      have hk : (i - lo < k) = (i < lo + k) := by
        rw [eq_iff_iff]
        omega
      simp [hw, hlo, hlt, hk, Bool.and_comm]
    · simp [hlo]
  · simp [hw]

theorem toNat_ofInt (x : Int) : ((UInt64.ofInt x).toNat : Int) = x % 2 ^ 64 := by
  have hnonneg := Int.emod_nonneg x (by decide : (2 ^ 64 : Int) ≠ 0)
  have hlt := Int.emod_lt_of_pos x (by decide : (0 : Int) < 2 ^ 64)
  have hsmall : (x % 2 ^ 64).toNat < 2 ^ 64 := by omega
  rw [UInt64.ofInt, UInt64.toNat_ofNat_of_lt' hsmall, Int.toNat_of_nonneg hnonneg]

theorem toNat_ofInt_natCast {n : Nat} (h : n < 2 ^ 64) : (UInt64.ofInt n).toNat = n := by
  have hnat := toNat_ofInt n
  omega

theorem toInt_toInt64_of_lt {x : UInt64} (h : x.toNat < 2 ^ 63) : x.toInt64.toInt = x.toNat := by
  have hcond := BitVec.toInt_eq_toNat_cond x.toBitVec
  rw [UInt64.toNat_toBitVec, if_pos (by omega)] at hcond
  exact hcond

end OpaeLibs.Lib.Bits
