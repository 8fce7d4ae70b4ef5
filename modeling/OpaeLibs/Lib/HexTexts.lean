import OpaeLibs.Lib.Numerals

namespace OpaeLibs.Lib.HexTexts

open OpaeLibs.Lib.Numerals

def firstDigit (negative : Bool) (b : UInt8) : Scan :=
  if b = 48 then .zero negative else (digitValue 16 b).elim (.done 0) (.digits negative 16)

/-- A step of `strtoul` with base 16. It differs from base 0 in the digits it takes. -/
def step : Scan → UInt8 → Scan
  | .blank, b =>
    if isSpace b then .blank
    else if b = 43 then .sign false
    else if b = 45 then .sign true
    else firstDigit false b
  | .sign negative, b => firstDigit negative b
  | .zero negative, b =>
    if b = 120 || b = 88 then .hexPrefix negative
    else (digitValue 16 b).elim (.done 0) (.digits negative 16)
  | s, b => s.step b

/-- The number at the beginning of a buffer, unless it is read on behind it. -/
def strtoul (buffer : List UInt8) : Option UInt64 :=
  match buffer.foldl step .blank with
  | .done n => some (UInt64.ofNat n)
  | _ => none

/-- The number of a text, to which the conversion `%x` leads as well. -/
def textValue (text : List UInt8) : UInt64 := UInt64.ofNat (text.foldl step .blank).value

/-- The number that digits spell behind those of `n`. -/
def spelled (n : Nat) : List UInt8 → Option Nat
  | [] => some n
  | b :: text => (digitValue 16 b).bind fun d => spelled (16 * n + d) text

/-- Digits are read, and their number is `n` so far. -/
def Reads (s : Scan) (n : Nat) : Prop := s = .digits false 16 n ∨ s = .zero false ∧ n = 0

variable {s : Scan} {n m d : Nat} {b : UInt8} {text rest : List UInt8}

theorem digitValue_lt (h : digitValue 16 b = some d) : d < 16 := by
  rw [digitValue] at h
  generalize (if 48 ≤ b && b ≤ 57 then b.toNat - 48
    else if 97 ≤ b && b ≤ 102 then b.toNat - 87
    else if 65 ≤ b && b ≤ 70 then b.toNat - 55
    else 16) = e at h
  by_cases he : e < 16
  · exact Option.some.inj ((if_pos he).symm.trans h) ▸ he
  · exact nomatch (if_neg he).symm.trans h

theorem le_of_digitValue (h : digitValue 16 b = some d) : 48 ≤ b := by
  by_contra hlt
  have hnone : digitValue 16 b = none := by
    have hlow : b < 48 := UInt8.not_le.mp hlt
    have h97 : ¬97 ≤ b := UInt8.not_le.mpr (UInt8.lt_trans hlow (by decide))
    have h65 : ¬65 ≤ b := UInt8.not_le.mpr (UInt8.lt_trans hlow (by decide))
    rw [digitValue]
    simp [hlt, h97, h65]
  rw [hnone] at h
  exact nomatch h

theorem spelled_lt (h : spelled n text = some m) : m < (n + 1) * 16 ^ text.length := by
  induction text generalizing n with
  | nil =>
    obtain rfl := Option.some.inj h
    rw [List.length_nil, Nat.pow_zero, Nat.mul_one]
    exact Nat.lt_succ_self n
  | cons b text ih =>
    obtain ⟨d, hd, h⟩ := Option.bind_eq_some_iff.mp h
    have hlt := digitValue_lt hd
    calc m < (16 * n + d + 1) * 16 ^ text.length := ih h
      _ ≤ ((n + 1) * 16) * 16 ^ text.length := Nat.mul_le_mul_right _ (by omega)
      _ = (n + 1) * 16 ^ (b :: text).length := by
        rw [List.length_cons, Nat.pow_succ', Nat.mul_assoc]

theorem reads_first (h : digitValue 16 b = some d) : Reads (step .blank b) d := by
  obtain ⟨hspace, hplus, hminus⟩ := not_blank_of_le (le_of_digitValue h)
  rw [step, hspace, if_neg Bool.false_ne_true, if_neg hplus, if_neg hminus, firstDigit]
  split
  · next hzero =>
    rw [hzero] at h
    exact .inr ⟨rfl, (Option.some.inj h).symm⟩
  · rw [h]
    exact .inl rfl

theorem reads_step (hs : Reads s n) (h : digitValue 16 b = some d) :
    Reads (step s b) (16 * n + d) := by
  rcases hs with rfl | ⟨rfl, rfl⟩
  · have hstep : step (.digits false 16 n) b = .digits false 16 (16 * n + d) := by
      rw [step, Scan.step, h]
      · rfl
      · rintro ⟨⟩
      · rintro _ ⟨⟩
      · rintro _ ⟨⟩
    exact .inl hstep
  · have hx : (b = 120 || b = 88) = false := by
      rw [Bool.or_eq_false_iff, decide_eq_false_iff_not, decide_eq_false_iff_not]
      constructor <;>
        rintro rfl <;>
        cases h
    rw [step, hx, if_neg Bool.false_ne_true, h, Nat.mul_zero, Nat.zero_add]
    exact .inl rfl

theorem reads_foldl (hs : Reads s n) (h : spelled n text = some m) :
    Reads (text.foldl step s) m := by
  induction text generalizing s n with
  | nil => exact Option.some.inj h ▸ hs
  | cons b text ih =>
    obtain ⟨d, hd, h⟩ := Option.bind_eq_some_iff.mp h
    exact ih (reads_step hs hd) h

theorem foldl_done (n : Nat) (text : List UInt8) : text.foldl step (.done n) = .done n := by
  induction text with
  | nil => rfl
  | cons b text ih => exact ih

theorem step_zero_of_reads (hs : Reads s n) (hn : n < 2 ^ 64) : step s 0 = .done n := by
  rcases hs with rfl | ⟨rfl, rfl⟩
  · exact congrArg Scan.done (if_neg (Nat.not_le.mpr hn))
  · rfl

theorem foldl_spelled (hne : text ≠ []) (h : spelled 0 text = some n) (hlen : text.length ≤ 16) :
    (text ++ 0 :: rest).foldl step .blank = .done n := by
  have hn : n < 2 ^ 64 := by
    have hlt := spelled_lt h
    rw [Nat.zero_add, Nat.one_mul] at hlt
    exact Nat.lt_of_lt_of_le hlt (Nat.pow_le_pow_right (by decide : 0 < 16) hlen)
  cases text with
  | nil => exact absurd rfl hne
  | cons b text =>
    obtain ⟨d, hd, h⟩ := Option.bind_eq_some_iff.mp h
    rw [Nat.mul_zero, Nat.zero_add] at h
    rw [List.foldl_append, List.foldl_cons, List.foldl_cons,
      step_zero_of_reads (reads_foldl (reads_first hd) h) hn, foldl_done]

theorem strtoul_spelled (hne : text ≠ []) (h : spelled 0 text = some n)
    (hlen : text.length ≤ 16) : strtoul (text ++ 0 :: rest) = some (UInt64.ofNat n) := by
  rw [strtoul, foldl_spelled hne h hlen]

theorem textValue_spelled (hne : text ≠ []) (h : spelled 0 text = some n)
    (hlen : text.length ≤ 16) : textValue (text ++ 0 :: rest) = UInt64.ofNat n := by
  rw [textValue, foldl_spelled hne h hlen]
  rfl

end OpaeLibs.Lib.HexTexts
