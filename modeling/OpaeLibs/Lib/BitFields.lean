import OpaeLibs.Lib.Bytes

namespace OpaeLibs.Lib.BitFields

open OpaeLibs.Lib.Bytes

/-- `n` bytes of a space as a number, the low byte first. -/
def word (space : Nat → UInt8) (a n : Nat) : Nat := ofLe ((List.range' a n).map space)

def bitAt (space : Nat → UInt8) (i : Nat) : Bool := (space (i / 8)).toNat.testBit (i % 8)

def extract (v lo width : Nat) : Nat := v >>> lo % 2 ^ width

section Bits

variable {space : Nat → UInt8} {a b n m lo lo' width : Nat}

theorem word_succ : word space a (n + 1) = 2 ^ 8 * word space (a + 1) n + (space a).toNat := by
  rw [word, List.range'_succ, List.map_cons, ofLe, Nat.add_comm]
  rfl

theorem testBit_word (i : Nat) (hi : i < 8 * n) :
    (word space a n).testBit i = bitAt space (8 * a + i) := by
  induction n generalizing a i with
  | zero => omega
  | succ n ih =>
    rw [word_succ, Nat.testBit_two_pow_mul_add _ (space a).toNat_lt]
    by_cases hlow : i < 8
    · have hbyte : (8 * a + i) / 8 = a := by omega
      have hbit : (8 * a + i) % 8 = i := by omega
      rw [if_pos hlow, bitAt, hbyte, hbit]
    · have hplace : 8 * (a + 1) + (i - 8) = 8 * a + i := by omega
      rw [if_neg hlow, ih (i - 8) (by omega), hplace]

theorem testBit_extract {v j : Nat} (hj : j < width) :
    (extract v lo width).testBit j = v.testBit (lo + j) := by
  rw [extract, Nat.testBit_mod_two_pow, Nat.testBit_shiftRight, decide_eq_true hj, Bool.true_and]

theorem extract_congr (hlo : lo + width ≤ 8 * n) (hlo' : lo' + width ≤ 8 * m)
    (h : 8 * a + lo = 8 * b + lo') :
    extract (word space a n) lo width = extract (word space b m) lo' width := by
  apply Nat.eq_of_testBit_eq
  intro j
  by_cases hj : j < width
  · have hplace : 8 * a + (lo + j) = 8 * b + (lo' + j) := by omega
    rw [testBit_extract hj, testBit_extract hj, testBit_word _ (by omega),
      testBit_word _ (by omega), hplace]
  · rw [extract, extract, Nat.testBit_mod_two_pow, Nat.testBit_mod_two_pow, decide_eq_false hj,
      Bool.false_and, Bool.false_and]

/-- The space in which a single bit is set. -/
def single (i k : Nat) : UInt8 := if k = i / 8 then UInt8.ofNat (2 ^ (i % 8)) else 0

theorem bitAt_single {i k : Nat} : bitAt (single i) k = true ↔ k = i := by
  rw [bitAt, single]
  by_cases hbyte : k / 8 = i / 8
  · have hlt : 2 ^ (i % 8) < 2 ^ 8 := Nat.pow_lt_pow_right (by decide) (by omega)
    rw [if_pos hbyte, UInt8.toNat_ofNat', Nat.mod_eq_of_lt hlt, Nat.testBit_two_pow,
      decide_eq_true_eq]
    omega
  · rw [if_neg hbyte]
    constructor
    · intro h
      rw [UInt8.toNat_zero, Nat.zero_testBit] at h
      exact nomatch h
    · rintro rfl
      exact absurd rfl hbyte

/-- Two fields of as many bits show the same in every space only if they are the same field. -/
theorem forall_extract_eq_iff (hwidth : 0 < width) (hlo : lo + width ≤ 8 * n)
    (hlo' : lo' + width ≤ 8 * m) :
    (∀ space, extract (word space a n) lo width = extract (word space b m) lo' width) ↔
      8 * a + lo = 8 * b + lo' := by
  constructor
  · intro h
    have hbit := congrArg (fun v => v.testBit 0) (h (single (8 * b + lo')))
    simp only [testBit_extract hwidth] at hbit
    rw [testBit_word _ (by omega), testBit_word _ (by omega), Nat.add_zero, Nat.add_zero,
      bitAt_single.mpr rfl] at hbit
    exact bitAt_single.mp hbit
  · exact fun h space => extract_congr hlo hlo' h

end Bits

/-- A bit-field of a struct with the number of bits of its type. -/
structure BitField (ν : Type) where
  name : ν
  pod : Nat
  width : Nat

section Layout

variable {ν : Type}

/-- Where a bit-field starts that is declared when so many bits are taken. One that would reach past
a unit of its type begins the next unit. -/
def align (pos pod width : Nat) : Nat :=
  if pos % pod + width ≤ pod then pos else (pos / pod + 1) * pod

theorem align_of_le {pos pod width : Nat} (hwidth : 0 < width) (h : pos + width ≤ pod) :
    align pos pod width = pos := by
  rw [align, Nat.mod_eq_of_lt (by omega), if_pos h]

theorem align_fits (pos : Nat) {pod width : Nat} (h : width ≤ pod) :
    align pos pod width % pod + width ≤ pod := by
  rw [align]
  split
  · assumption
  · rw [Nat.mul_mod_left, Nat.zero_add]
    exact h

theorem align_eq_or_le (pos pod width : Nat) : align pos pod width = pos ∨
    pod ≤ align pos pod width := by
  rw [align]
  split
  · exact .inl rfl
  · rw [Nat.add_one_mul]
    exact .inr (Nat.le_add_left ..)

/-- The bit-fields of a struct from the low bit upward in the order of their declarations. -/
def place : Nat → List (BitField ν) → List (BitField ν × Nat)
  | _, [] => []
  | pos, f :: fs =>
    (f, align pos f.pod f.width) :: place (align pos f.pod f.width + f.width) fs

/-- The value of a bit-field of a struct at an address. -/
def read (space : Nat → UInt8) (a : Nat) (f : BitField ν) (pos : Nat) : Nat :=
  extract (word space (a + pos / f.pod * (f.pod / 8)) (f.pod / 8)) (pos % f.pod) f.width

theorem forall_read_eq_iff {f : BitField ν} {a b lo n pos : Nat} (hwidth : 0 < f.width)
    (hpod : 8 ∣ f.pod) (hpos : pos % f.pod + f.width ≤ f.pod) (hlo : lo + f.width ≤ 8 * n) :
    (∀ space, read space a f pos = extract (word space b n) lo f.width) ↔
      8 * a + pos = 8 * b + lo := by
  have hbytes : 8 * (f.pod / 8) = f.pod := Nat.mul_div_cancel' hpod
  have hplace : 8 * (a + pos / f.pod * (f.pod / 8)) + pos % f.pod = 8 * a + pos := by
    rw [Nat.mul_add, Nat.mul_left_comm, hbytes, Nat.add_assoc, Nat.mul_comm (pos / f.pod),
      Nat.div_add_mod]
  rw [← hplace]
  exact forall_extract_eq_iff hwidth (by omega) hlo

end Layout

end OpaeLibs.Lib.BitFields
