import Mathlib

namespace OpaeLibs.Lib.Swaps

variable {w : Nat}

/-- The bits of a mask change places with those that are `n` above them. -/
def swap (mask : BitVec w) (n : Nat) (v : BitVec w) : BitVec w :=
  ((v <<< n) &&& (mask <<< n)) ||| ((v >>> n) &&& mask)

/-- Each bit is in the mask or `n` above a bit of it, and not both. -/
def Splits (mask : BitVec w) (n : Nat) : Prop :=
  ∀ i < w, (mask.getLsbD i = true → i + n < w) ∧
    mask.getLsbD i = !(decide (n ≤ i) && mask.getLsbD (i - n))

instance (mask : BitVec w) (n : Nat) : Decidable (Splits mask n) :=
  inferInstanceAs (Decidable (∀ i < w, _))

section

variable {mask : BitVec w} {n : Nat} (h : Splits mask n) (v : BitVec w)
include h

theorem getLsbD_swap {i : Nat} (hi : i < w) :
    (swap mask n v).getLsbD i =
      if mask.getLsbD i then v.getLsbD (i + n) else v.getLsbD (i - n) := by
  have hother := (h i hi).2
  rw [swap, BitVec.getLsbD_or, BitVec.getLsbD_and, BitVec.getLsbD_and, BitVec.getLsbD_shiftLeft,
    BitVec.getLsbD_shiftLeft, BitVec.getLsbD_ushiftRight, Nat.add_comm n i]
  cases hmask : mask.getLsbD i with
  | true =>
    rw [hmask] at hother
    by_cases hn : n ≤ i
    · have hlow : mask.getLsbD (i - n) = false := by simpa [hn] using hother
      simp [hlow]
    · simp [Nat.not_le.mp hn]
  | false =>
    rw [hmask] at hother
    have hlow : n ≤ i ∧ mask.getLsbD (i - n) = true := by simpa using hother
    simp [hi, Nat.not_lt.mpr hlow.1, hlow.2]

theorem swap_swap : swap mask n (swap mask n v) = v := by
  apply BitVec.eq_of_getLsbD_eq
  intro i hi
  rw [getLsbD_swap h _ hi]
  cases hmask : mask.getLsbD i with
  | true =>
    have hlt := (h i hi).1 hmask
    have hhigh := (h (i + n) hlt).2
    rw [Nat.add_sub_cancel, hmask, decide_eq_true (Nat.le_add_left n i)] at hhigh
    rw [if_pos rfl, getLsbD_swap h v hlt, hhigh, Nat.add_sub_cancel]
    rfl
  | false =>
    have hother := (h i hi).2
    rw [hmask] at hother
    have hlow : n ≤ i ∧ mask.getLsbD (i - n) = true := by simpa using hother
    rw [if_neg Bool.false_ne_true, getLsbD_swap h v (Nat.lt_of_le_of_lt (Nat.sub_le i n) hi),
      hlow.2, if_pos rfl, Nat.sub_add_cancel hlow.1]

theorem sshiftRight_and : v.sshiftRight n &&& mask = (v >>> n) &&& mask := by
  apply BitVec.eq_of_getLsbD_eq
  intro i hi
  rw [BitVec.getLsbD_and, BitVec.getLsbD_and, BitVec.getLsbD_sshiftRight,
    BitVec.getLsbD_ushiftRight]
  cases hmask : mask.getLsbD i with
  | false => rw [Bool.and_false, Bool.and_false]
  | true =>
    have hlt := (h i hi).1 hmask
    rw [if_pos (Nat.add_comm i n ▸ hlt), decide_eq_false (Nat.not_le.mpr hi)]
    rfl

end

end OpaeLibs.Lib.Swaps
