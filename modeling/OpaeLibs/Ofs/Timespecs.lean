import Mathlib

namespace OpaeLibs.Ofs.Timespecs

structure Timespec where
  tvSec : Int
  tvNsec : Int
deriving DecidableEq

def sec2Nsec : Int := 1000000000

/-- The numbers of a `long`, and of an `int`. -/
def IsLong (x : Int) : Prop := -2 ^ 63 ≤ x ∧ x < 2 ^ 63

def IsInt (x : Int) : Prop := -2 ^ 31 ≤ x ∧ x < 2 ^ 31

instance (x : Int) : Decidable (IsLong x) := inferInstanceAs (Decidable (_ ∧ _))

instance (x : Int) : Decidable (IsInt x) := inferInstanceAs (Decidable (_ ∧ _))

section Code

/-- A result of signed arithmetic, which is undefined where it overflows. -/
def long (x : Int) : Option Int := if IsLong x then some x else none

def int (x : Int) : Option Int := if IsInt x then some x else none

/-- The first correction. A product with `NSEC2SEC` that is cut to an `int` is a quotient that is
rounded towards zero. -/
def borrow (lhs rhs : Timespec) : Option Timespec :=
  if lhs.tvNsec < rhs.tvNsec then do
    let behind ← long (rhs.tvNsec - lhs.tvNsec)
    let sec ← int ((behind + sec2Nsec).tdiv sec2Nsec)
    let nsec ← long (rhs.tvNsec - (← int (sec * sec2Nsec)))
    return ⟨← long (rhs.tvSec + sec), nsec⟩
  else some rhs

/-- The second one, for the result of the first. -/
def carry (lhs rhs : Timespec) : Option Timespec := do
  let ahead ← long (lhs.tvNsec - rhs.tvNsec)
  if ahead > sec2Nsec then
    let sec ← int (ahead.tdiv sec2Nsec)
    let nsec ← long (rhs.tvNsec + (← int (sec * sec2Nsec)))
    return ⟨← long (rhs.tvSec - sec), nsec⟩
  else return rhs

/-- The difference, with the value that is returned. -/
def ofsDiffTimespec (lhs rhs : Timespec) : Option (Timespec × Int) := do
  let rhs ← borrow lhs rhs
  let rhs ← carry lhs rhs
  let sec ← long (lhs.tvSec - rhs.tvSec)
  let nsec ← long (lhs.tvNsec - rhs.tvNsec)
  return (⟨sec, nsec⟩, if lhs.tvSec < rhs.tvSec then 1 else 0)

end Code

def Timespec.nanos (t : Timespec) : Int := t.tvSec * sec2Nsec + t.tvNsec

def Timespec.Normalised (t : Timespec) : Prop := 0 ≤ t.tvNsec ∧ t.tvNsec < sec2Nsec

instance (t : Timespec) : Decidable t.Normalised := inferInstanceAs (Decidable (_ ∧ _))

def borrowed (lhs rhs : Timespec) : Int := if lhs.tvNsec < rhs.tvNsec then 1 else 0

section Difference

variable {lhs rhs : Timespec} {x : Int}

theorem long_of_isLong (h : IsLong x) : long x = some x := if_pos h

theorem int_of_isInt (h : IsInt x) : int x = some x := if_pos h

theorem borrow_eq (hl : lhs.Normalised) (hr : rhs.Normalised) (hsec : IsLong rhs.tvSec) :
    borrow lhs rhs = (long (rhs.tvSec + borrowed lhs rhs)).map fun sec =>
      ⟨sec, rhs.tvNsec - borrowed lhs rhs * sec2Nsec⟩ := by
  obtain ⟨hl₀, hl₁⟩ := hl
  obtain ⟨hr₀, hr₁⟩ := hr
  have hunit : sec2Nsec = 1000000000 := rfl
  rw [borrow, borrowed]
  by_cases h : lhs.tvNsec < rhs.tvNsec
  · have hbehind : long (rhs.tvNsec - lhs.tvNsec) = some (rhs.tvNsec - lhs.tvNsec) :=
      long_of_isLong ⟨by omega, by omega⟩
    have hone : (rhs.tvNsec - lhs.tvNsec + sec2Nsec).tdiv sec2Nsec = 1 := by
      rw [Int.tdiv_eq_ediv_of_nonneg (by omega), hunit]
      omega
    have hnsec : long (rhs.tvNsec - 1 * sec2Nsec) = some (rhs.tvNsec - 1 * sec2Nsec) :=
      long_of_isLong ⟨by omega, by omega⟩
    rw [if_pos h, if_pos h]
    simp only [hbehind, hone, int_of_isInt (by decide : IsInt 1),
      int_of_isInt (by decide : IsInt (1 * sec2Nsec)), hnsec, Option.bind_eq_bind, Option.bind_some]
    cases long (rhs.tvSec + 1) <;> rfl
  · rw [if_neg h, if_neg h, Int.add_zero, Int.zero_mul, Int.sub_zero, long_of_isLong hsec]
    rfl

theorem borrowed_cases (lhs rhs : Timespec) :
    lhs.tvNsec < rhs.tvNsec ∧ borrowed lhs rhs = 1 ∨
      rhs.tvNsec ≤ lhs.tvNsec ∧ borrowed lhs rhs = 0 := by
  rw [borrowed]
  split
  · next h => exact .inl ⟨h, rfl⟩
  · next h => exact .inr ⟨Int.not_lt.mp h, rfl⟩

theorem nsec_borrowed (hl : lhs.Normalised) (hr : rhs.Normalised) :
    0 ≤ lhs.tvNsec - rhs.tvNsec + borrowed lhs rhs * sec2Nsec ∧
      lhs.tvNsec - rhs.tvNsec + borrowed lhs rhs * sec2Nsec < sec2Nsec := by
  obtain ⟨hl₀, hl₁⟩ := hl
  obtain ⟨hr₀, hr₁⟩ := hr
  rcases borrowed_cases lhs rhs with ⟨h, hb⟩ | ⟨h, hb⟩
  · rw [hb]
    omega
  · rw [hb]
    omega

theorem carry_eq (hle : 0 ≤ lhs.tvNsec - rhs.tvNsec) (hlt : lhs.tvNsec - rhs.tvNsec < sec2Nsec) :
    carry lhs rhs = some rhs := by
  have hunit : sec2Nsec = 1000000000 := rfl
  have hahead : long (lhs.tvNsec - rhs.tvNsec) = some (lhs.tvNsec - rhs.tvNsec) :=
    long_of_isLong ⟨by omega, by omega⟩
  rw [carry, hahead, Option.bind_eq_bind, Option.bind_some, if_neg (Int.not_lt.mpr (Int.le_of_lt hlt))]
  rfl

theorem ofsDiffTimespec_eq (hl : lhs.Normalised) (hr : rhs.Normalised) (hsec : IsLong rhs.tvSec) :
    ofsDiffTimespec lhs rhs = (long (rhs.tvSec + borrowed lhs rhs)).bind fun sec =>
      (long (lhs.tvSec - sec)).map fun diff =>
        (⟨diff, lhs.tvNsec - rhs.tvNsec + borrowed lhs rhs * sec2Nsec⟩,
          if lhs.tvSec < sec then 1 else 0) := by
  obtain ⟨hle, hlt⟩ := nsec_borrowed hl hr
  have hunit : sec2Nsec = 1000000000 := rfl
  rw [ofsDiffTimespec, borrow_eq hl hr hsec]
  cases long (rhs.tvSec + borrowed lhs rhs) with
  | none => rfl
  | some sec =>
    have hcarry : carry lhs ⟨sec, rhs.tvNsec - borrowed lhs rhs * sec2Nsec⟩ = some _ :=
      carry_eq (by dsimp only; omega) (by dsimp only; omega)
    have hnsec : long (lhs.tvNsec - (rhs.tvNsec - borrowed lhs rhs * sec2Nsec)) =
        some (lhs.tvNsec - rhs.tvNsec + borrowed lhs rhs * sec2Nsec) := by
      rw [long_of_isLong ⟨by omega, by omega⟩]
      exact congrArg some (by omega)
    simp only [Option.map_some, Option.bind_eq_bind, Option.bind_some, hcarry, hnsec]
    cases long (lhs.tvSec - sec) <;> rfl

theorem nanos_lt_iff (hl : lhs.Normalised) (hr : rhs.Normalised) :
    lhs.nanos < rhs.nanos ↔ lhs.tvSec < rhs.tvSec + borrowed lhs rhs := by
  obtain ⟨hl₀, hl₁⟩ := hl
  obtain ⟨hr₀, hr₁⟩ := hr
  have hunit : sec2Nsec = 1000000000 := rfl
  rw [Timespec.nanos, Timespec.nanos, hunit]
  rcases borrowed_cases lhs rhs with ⟨h, hb⟩ | ⟨h, hb⟩ <;>
    omega

end Difference

/-- The difference of two normalised times is exact and normalised, and the value that is returned
says whether the first is the earlier one. -/
theorem diff_timespec_exact {lhs rhs : Timespec} (hl : lhs.Normalised) (hr : rhs.Normalised)
    (hlsec : |lhs.tvSec| < 2 ^ 62) (hrsec : |rhs.tvSec| < 2 ^ 62) :
    ∃ result ret, ofsDiffTimespec lhs rhs = some (result, ret) ∧
      result.nanos = lhs.nanos - rhs.nanos ∧ result.Normalised ∧
      (ret = 1 ↔ lhs.nanos < rhs.nanos) := by
  obtain ⟨hlsec₀, hlsec₁⟩ := abs_lt.mp hlsec
  obtain ⟨hrsec₀, hrsec₁⟩ := abs_lt.mp hrsec
  obtain ⟨hle, hlt⟩ := nsec_borrowed hl hr
  have hborrowed : 0 ≤ borrowed lhs rhs ∧ borrowed lhs rhs ≤ 1 := by
    rcases borrowed_cases lhs rhs with ⟨-, hb⟩ | ⟨-, hb⟩ <;>
      omega
  have hdiff := ofsDiffTimespec_eq hl hr ⟨by omega, by omega⟩
  rw [long_of_isLong ⟨by omega, by omega⟩, Option.bind_some,
    long_of_isLong ⟨by omega, by omega⟩, Option.map_some] at hdiff
  refine ⟨_, _, hdiff, ?_, ⟨?_, ?_⟩, ?_⟩
  · simp only [Timespec.nanos]
    ring
  · dsimp only
    omega
  · dsimp only
    omega
  · rw [nanos_lt_iff hl hr]
    split
    · next h => exact iff_of_true rfl h
    · next h => exact iff_of_false (by decide) h

/-- The difference of the unit tests, of a second that starts 100 nanoseconds earlier. -/
theorem diff_timespec_sample : ∃ result ret,
    ofsDiffTimespec ⟨1, 900⟩ ⟨1, 1000⟩ = some (result, ret) ∧
      result.nanos = (⟨1, 900⟩ : Timespec).nanos - (⟨1, 1000⟩ : Timespec).nanos ∧
      result.Normalised ∧
      (ret = 1 ↔ (⟨1, 900⟩ : Timespec).nanos < (⟨1, 1000⟩ : Timespec).nanos) :=
  diff_timespec_exact (by decide) (by decide) (by decide) (by decide)

end OpaeLibs.Ofs.Timespecs
