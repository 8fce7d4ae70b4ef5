import Mathlib

namespace OpaeLibs.Lib.Numerals

/-- How far a text is read by `strtoull` with base 0. -/
inductive Scan
  | blank
  | sign (negative : Bool)
  | zero (negative : Bool)
  | hexPrefix (negative : Bool)
  | digits (negative : Bool) (base n : Nat)
  | done (n : Nat)
deriving DecidableEq

def isSpace (b : UInt8) : Bool := b = 32 || (9 ≤ b && b ≤ 13)

def digitValue (base : Nat) (b : UInt8) : Option Nat :=
  let d :=
    if 48 ≤ b && b ≤ 57 then b.toNat - 48
    else if 97 ≤ b && b ≤ 102 then b.toNat - 87
    else if 65 ≤ b && b ≤ 70 then b.toNat - 55
    else base
  if d < base then some d else none

/-- A number that is too large is the largest one. -/
def ofDigits (negative : Bool) (n : Nat) : Nat :=
  if 2 ^ 64 ≤ n then 2 ^ 64 - 1 else if negative then (2 ^ 64 - n) % 2 ^ 64 else n

namespace Scan

def firstDigit (negative : Bool) (b : UInt8) : Scan :=
  if b = 48 then zero negative else (digitValue 10 b).elim (done 0) (digits negative 10)

def step : Scan → UInt8 → Scan
  | blank, b =>
    if isSpace b then blank
    else if b = 43 then sign false
    else if b = 45 then sign true
    else firstDigit false b
  | sign negative, b => firstDigit negative b
  | zero negative, b =>
    if b = 120 || b = 88 then hexPrefix negative
    else (digitValue 8 b).elim (done 0) (digits negative 8)
  | hexPrefix negative, b => (digitValue 16 b).elim (done 0) (digits negative 16)
  | digits negative base n, b =>
    (digitValue base b).elim (done (ofDigits negative n)) fun d =>
      digits negative base (base * n + d)
  | done n, _ => done n

def value : Scan → Nat
  | digits negative _ n => ofDigits negative n
  | done n => n
  | _ => 0

theorem value_firstDigit {negative : Bool} {b : UInt8} {n : Nat}
    (h : firstDigit negative b = done n) : n = 0 := by
  rw [firstDigit] at h
  split at h
  · exact nomatch h
  · cases hd : digitValue 10 b with
    | none =>
      rw [hd] at h
      exact (done.inj h).symm
    | some d =>
      rw [hd] at h
      exact nomatch h

theorem value_of_step {s : Scan} {b : UInt8} {n : Nat} (h : s.step b = done n) : s.value = n := by
  cases s with
  | blank =>
    rw [step] at h
    split at h
    · exact nomatch h
    · split at h
      · exact nomatch h
      · split at h
        · exact nomatch h
        · exact (value_firstDigit h).symm
  | sign negative => exact (value_firstDigit h).symm
  | zero negative =>
    rw [step] at h
    split at h
    · exact nomatch h
    · cases hd : digitValue 8 b with
      | none =>
        rw [hd] at h
        exact done.inj h
      | some d =>
        rw [hd] at h
        exact nomatch h
  | hexPrefix negative =>
    rw [step] at h
    cases hd : digitValue 16 b with
    | none =>
      rw [hd] at h
      exact done.inj h
    | some d =>
      rw [hd] at h
      exact nomatch h
  | digits negative base n =>
    rw [step] at h
    cases hd : digitValue base b with
    | none =>
      rw [hd] at h
      exact done.inj h
    | some d =>
      rw [hd] at h
      exact nomatch h
  | done n => exact done.inj h

theorem foldl_done (n : Nat) (bs : List UInt8) : bs.foldl step (done n) = done n := by
  induction bs with
  | nil => rfl
  | cons b bs ih => exact ih

end Scan

def scan (text : List UInt8) : Scan := text.foldl Scan.step .blank

def textValue (text : List UInt8) : UInt64 := UInt64.ofNat (scan text).value

/-- The end of the number is seen within the text. -/
def Ends (text : List UInt8) : Prop := ∃ n, scan text = .done n

/-- The number at the beginning of a buffer, unless it is read on behind it. -/
def strtoull (buffer : List UInt8) : Option UInt64 :=
  match scan buffer with
  | .done n => some (UInt64.ofNat n)
  | _ => none

theorem scan_append (s t : List UInt8) : scan (s ++ t) = t.foldl Scan.step (scan s) :=
  List.foldl_append

theorem strtoull_of_ends {text rest : List UInt8} (h : Ends (text ++ rest.take 1)) :
    strtoull (text ++ rest) = some (textValue text) := by
  obtain ⟨n, hn⟩ := h
  have hvalue : (scan text).value = n ∧ scan (text ++ rest) = .done n := by
    cases rest with
    | nil =>
      rw [List.take_nil, List.append_nil] at hn
      rw [List.append_nil, hn]
      exact ⟨rfl, rfl⟩
    | cons b rest =>
      rw [List.take_succ_cons, List.take_zero, scan_append] at hn
      rw [scan_append, List.foldl_cons]
      rw [List.foldl_cons, List.foldl_nil] at hn
      rw [hn, Scan.foldl_done]
      exact ⟨Scan.value_of_step hn, rfl⟩
  rw [strtoull, hvalue.2, textValue, hvalue.1]

def hexDigit (d : Nat) : UInt8 := UInt8.ofNat (if d < 10 then 48 + d else 87 + d)

/-- The conversion `%x` -/
def hexText (n : Nat) : List UInt8 :=
  if n < 16 then [hexDigit n] else hexText (n / 16) ++ [hexDigit (n % 16)]

theorem digitValue_hexDigit {d : Nat} (h : d < 16) : digitValue 16 (hexDigit d) = some d := by
  revert d
  decide

theorem le_hexDigit {d : Nat} (h : d < 16) : 48 ≤ hexDigit d := by
  revert d
  decide

theorem ne_hexDigit {c : UInt8} {d : Nat} (hc : c < 48) (h : d < 16) : c ≠ hexDigit d := by
  rintro rfl
  exact absurd hc (UInt8.not_lt.mpr (le_hexDigit h))

theorem foldl_hexText (n : Nat) :
    (hexText n).foldl Scan.step (.hexPrefix false) = .digits false 16 n := by
  induction n using Nat.strongRecOn with
  | ind n ih =>
    rw [hexText]
    split
    · next h =>
      rw [List.foldl_cons, List.foldl_nil, Scan.step, digitValue_hexDigit h]
      rfl
    · next h =>
      rw [List.foldl_append, ih (n / 16) (by omega), List.foldl_cons, List.foldl_nil, Scan.step,
        digitValue_hexDigit (Nat.mod_lt n (by decide))]
      exact congrArg (Scan.digits false 16) (Nat.div_add_mod n 16)

theorem notMem_hexText {c : UInt8} (hc : c < 48) (n : Nat) : c ∉ hexText n := by
  induction n using Nat.strongRecOn with
  | ind n ih =>
    rw [hexText]
    split
    · next h =>
      rw [List.mem_singleton]
      exact ne_hexDigit hc h
    · next h =>
      rw [List.mem_append, List.mem_singleton, not_or]
      exact ⟨ih (n / 16) (by omega), ne_hexDigit hc (Nat.mod_lt n (by decide))⟩

theorem length_hexText {k n : Nat} (h : n < 16 ^ (k + 1)) : (hexText n).length ≤ k + 1 := by
  induction k generalizing n with
  | zero =>
    rw [Nat.zero_add, Nat.pow_one] at h
    rw [hexText, if_pos h]
    exact Nat.le_refl 1
  | succ k ih =>
    rw [hexText]
    split
    · exact Nat.succ_le_succ (Nat.zero_le _)
    · rw [List.length_append, List.length_singleton]
      have hdiv : n / 16 < 16 ^ (k + 1) := by
        rw [Nat.div_lt_iff_lt_mul (by decide), ← Nat.pow_succ]
        exact h
      exact Nat.succ_le_succ (ih hdiv)

/-- The conversion with `"0x"` in front -/
def hexLiteral (n : Nat) : List UInt8 := 48 :: 120 :: hexText n

theorem scan_hexLiteral (n : Nat) : scan (hexLiteral n) = .digits false 16 n := foldl_hexText n

theorem notMem_hexLiteral {c : UInt8} (hc : c < 48) (n : Nat) : c ∉ hexLiteral n := by
  rw [hexLiteral, List.mem_cons, List.mem_cons, not_or, not_or]
  refine ⟨UInt8.ne_of_lt hc, UInt8.ne_of_lt ?_, notMem_hexText hc n⟩
  exact UInt8.lt_trans hc (by decide)

theorem zero_notMem_hexLiteral (n : Nat) : 0 ∉ hexLiteral n := notMem_hexLiteral (by decide) n

theorem textValue_hexLiteral (v : UInt64) : textValue (hexLiteral v.toNat) = v := by
  rw [textValue, scan_hexLiteral]
  rw [Scan.value, ofDigits, if_neg (Nat.not_le.mpr v.toNat_lt), if_neg Bool.false_ne_true,
    UInt64.ofNat_toNat]

theorem strtoull_hexLiteral (v : UInt64) (rest : List UInt8) :
    strtoull (hexLiteral v.toNat ++ 0 :: rest) = some v := by
  have hscan : scan (hexLiteral v.toNat ++ [0]) = .done v.toNat := by
    rw [scan_append, scan_hexLiteral, List.foldl_cons, List.foldl_nil, Scan.step]
    exact congrArg Scan.done (if_neg (Nat.not_le.mpr v.toNat_lt))
  rw [strtoull_of_ends ⟨_, hscan⟩, textValue_hexLiteral]

theorem Scan.step_zero (s : Scan) : s.step 0 = done s.value := by
  cases s with
  | digits negative base n =>
    have hnone : digitValue base 0 = none := if_neg (Nat.lt_irrefl base)
    rw [step, hnone]
    rfl
  | blank | sign | zero | hexPrefix | done => rfl

theorem textValue_terminated (text : List UInt8) : textValue (text ++ [0]) = textValue text := by
  rw [textValue, scan_append, List.foldl_cons, List.foldl_nil, Scan.step_zero]
  rfl

def decimalText (n : Nat) : List UInt8 :=
  if n < 10 then [hexDigit n] else decimalText (n / 10) ++ [hexDigit (n % 10)]

theorem digitValue_decimal {d : Nat} (h : d < 10) : digitValue 10 (hexDigit d) = some d := by
  revert d
  decide

theorem firstDigit_decimal (negative : Bool) {d : Nat} (h : d < 10) (hpos : 0 < d) :
    Scan.firstDigit negative (hexDigit d) = .digits negative 10 d := by
  have hne : hexDigit d ≠ 48 := by
    revert d
    decide
  rw [Scan.firstDigit, if_neg hne, digitValue_decimal h]
  rfl

theorem foldl_decimalText (negative : Bool) {n : Nat} (hn : 0 < n) :
    (decimalText n).foldl Scan.step (.sign negative) = .digits negative 10 n := by
  induction n using Nat.strongRecOn with
  | ind n ih =>
    rw [decimalText]
    split
    · next h => exact firstDigit_decimal negative h hn
    · next h =>
      rw [List.foldl_append, ih (n / 10) (by omega) (by omega), List.foldl_cons, List.foldl_nil,
        Scan.step, digitValue_decimal (Nat.mod_lt n (by decide))]
      exact congrArg (Scan.digits negative 10) (Nat.div_add_mod n 10)

theorem mem_decimalText {n : Nat} {c : UInt8} (h : c ∈ decimalText n) :
    ∃ d < 10, c = hexDigit d := by
  induction n using Nat.strongRecOn with
  | ind n ih =>
    rw [decimalText] at h
    split at h
    · next hn => exact ⟨n, hn, List.mem_singleton.mp h⟩
    · next hn =>
      rcases List.mem_append.mp h with h | h
      · exact ih (n / 10) (by omega) h
      · exact ⟨n % 10, Nat.mod_lt n (by decide), List.mem_singleton.mp h⟩

theorem length_decimalText {k n : Nat} (h : n < 10 ^ (k + 1)) :
    (decimalText n).length ≤ k + 1 := by
  induction k generalizing n with
  | zero =>
    rw [Nat.zero_add, Nat.pow_one] at h
    rw [decimalText, if_pos h]
    exact Nat.le_refl 1
  | succ k ih =>
    rw [decimalText]
    split
    · exact Nat.succ_le_succ (Nat.zero_le _)
    · rw [List.length_append, List.length_singleton]
      have hdiv : n / 10 < 10 ^ (k + 1) := by
        rw [Nat.div_lt_iff_lt_mul (by decide), ← Nat.pow_succ]
        exact h
      exact Nat.succ_le_succ (ih hdiv)

theorem not_blank_of_le {b : UInt8} (h : 48 ≤ b) : isSpace b = false ∧ b ≠ 43 ∧ b ≠ 45 := by
  have hne {c : UInt8} (hc : c < 48) : b ≠ c := (UInt8.ne_of_lt (UInt8.lt_of_lt_of_le hc h)).symm
  have hlarge : ¬b ≤ 13 := UInt8.not_le.mpr (UInt8.lt_of_lt_of_le (by decide) h)
  refine ⟨?_, hne (by decide), hne (by decide)⟩
  rw [isSpace, decide_eq_false (hne (by decide)), decide_eq_false hlarge, Bool.and_false,
    Bool.or_false]

theorem scan_eq_of_digit {b : UInt8} {text : List UInt8} (h : 48 ≤ b) :
    scan (b :: text) = (b :: text).foldl Scan.step (.sign false) := by
  obtain ⟨hspace, hplus, hminus⟩ := not_blank_of_le h
  have hstep : Scan.step .blank b = Scan.step (.sign false) b := by
    rw [Scan.step, hspace, if_neg Bool.false_ne_true, if_neg hplus, if_neg hminus, Scan.step]
  rw [scan, List.foldl_cons, List.foldl_cons, hstep]

theorem scan_decimalText {n : Nat} (hn : 0 < n) : scan (decimalText n) = .digits false 10 n := by
  obtain ⟨b, text, htext⟩ : ∃ b text, decimalText n = b :: text := by
    apply List.exists_cons_of_ne_nil
    rw [decimalText]
    split
    · exact List.cons_ne_nil _ _
    · exact List.append_ne_nil_of_right_ne_nil _ (List.cons_ne_nil _ _)
  have hdigit : 48 ≤ b := by
    obtain ⟨d, hd, rfl⟩ := mem_decimalText (htext ▸ List.mem_cons_self : b ∈ decimalText n)
    exact le_hexDigit (Nat.lt_trans hd (by decide))
  rw [htext, scan_eq_of_digit hdigit, ← htext]
  exact foldl_decimalText false hn

def signedText (i : Int) : List UInt8 :=
  if i < 0 then 45 :: decimalText i.natAbs else decimalText i.natAbs

theorem notMem_signedText {c : UInt8} (hc : c < 45) (i : Int) : c ∉ signedText i := by
  have hdigits : c ∉ decimalText i.natAbs := by
    intro h
    obtain ⟨d, hd, heq⟩ := mem_decimalText h
    exact ne_hexDigit (UInt8.lt_trans hc (by decide)) (Nat.lt_trans hd (by decide)) heq
  rw [signedText]
  split
  · rw [List.mem_cons, not_or]
    exact ⟨UInt8.ne_of_lt hc, hdigits⟩
  · exact hdigits

theorem textValue_signedText (v : UInt64) : textValue (signedText v.toInt64.toInt) = v := by
  have hv := v.toNat_lt
  have hint : v.toInt64.toInt = if 2 * v.toNat < 2 ^ 64 then (v.toNat : Int)
      else (v.toNat : Int) - (2 ^ 64 : Nat) := BitVec.toInt_eq_toNat_cond v.toBitVec
  rw [textValue, signedText, hint]
  by_cases hsmall : 2 * v.toNat < 2 ^ 64
  · rw [if_pos hsmall, if_neg (by omega), Int.natAbs_natCast]
    by_cases hzero : v = 0
    · rw [hzero, UInt64.toNat_zero, decimalText, if_pos (by decide)]
      rfl
    · have hpos : 0 < v.toNat :=
        Nat.pos_of_ne_zero fun h => hzero (UInt64.toNat_inj.mp h)
      rw [scan_decimalText hpos, Scan.value, ofDigits, if_neg (Nat.not_le.mpr hv),
        if_neg Bool.false_ne_true, UInt64.ofNat_toNat]
  · have habs : ((v.toNat : Int) - (2 ^ 64 : Nat)).natAbs = 2 ^ 64 - v.toNat := by omega
    have hscan : scan (45 :: decimalText (2 ^ 64 - v.toNat)) =
        .digits true 10 (2 ^ 64 - v.toNat) := foldl_decimalText true (by omega)
    have hback : (2 ^ 64 - (2 ^ 64 - v.toNat)) % 2 ^ 64 = v.toNat := by omega
    rw [if_neg hsmall, if_pos (by omega), habs, hscan, Scan.value, ofDigits, if_neg (by omega),
      if_pos rfl, hback, UInt64.ofNat_toNat]

end OpaeLibs.Lib.Numerals
