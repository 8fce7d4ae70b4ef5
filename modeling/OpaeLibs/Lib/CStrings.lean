import Mathlib

namespace OpaeLibs.Lib.CStrings

abbrev Memory := Nat → UInt8

/-- A text, whose bytes are those before its terminator. -/
abbrev CString := { s : List UInt8 // 0 ∉ s }

theorem nul_notMem_nil : (0 : UInt8) ∉ ([] : List UInt8) :=
  List.not_mem_nil

/-- The bytes of a literal of ASCII characters. -/
def ascii (s : String) : List UInt8 := s.toList.map fun c => UInt8.ofNat c.toNat

/-- The text at an address, of which at most `limit` bytes are looked at. -/
def textAt (mem : Memory) : Nat → Nat → List UInt8
  | 0, _ => []
  | limit + 1, i => if mem i = 0 then [] else mem i :: textAt mem limit (i + 1)

def strncpy (mem : Memory) (dst count : Nat) (s : CString) : Memory := fun i =>
  if dst ≤ i ∧ i < dst + count then s.val.getD (i - dst) 0 else mem i

/-- Where a byte is for the last time. -/
def strrchr (c : UInt8) : List UInt8 → Option Nat
  | [] => none
  | b :: s =>
    match strrchr c s with
    | some i => some (i + 1)
    | none => if b = c then some 0 else none

def Bytes (mem : Memory) (i : Nat) (s : List UInt8) : Prop :=
  ∀ k, k < s.length → s[k]? = some (mem (i + k))

def Holds (mem : Memory) (i : Nat) (s : List UInt8) : Prop :=
  Bytes mem i s ∧ mem (i + s.length) = 0

variable {mem mem' : Memory}

theorem Bytes.congr {i : Nat} {s : List UInt8} (h : Bytes mem i s)
    (hsame : ∀ j, j < i + s.length → mem' j = mem j) : Bytes mem' i s := by
  intro k hk
  rw [hsame (i + k) (by omega)]
  exact h k hk

theorem Bytes.tail {i : Nat} {b : UInt8} {s : List UInt8} (h : Bytes mem i (b :: s)) :
    Bytes mem (i + 1) s := by
  intro k hk
  have hb := h (k + 1) (Nat.succ_lt_succ hk)
  rw [List.getElem?_cons_succ] at hb
  rw [hb, Nat.add_right_comm]
  rfl

theorem Bytes.left {i : Nat} {s t : List UInt8} (h : Bytes mem i (s ++ t)) : Bytes mem i s := by
  intro k hk
  rw [← List.getElem?_append_left hk]
  apply h k
  rw [List.length_append]
  omega

theorem Bytes.take {mem : Memory} {i : Nat} {s : List UInt8} (h : Bytes mem i s) (n : Nat) :
    Bytes mem i (s.take n) := by
  rw [← List.take_append_drop n s] at h
  exact h.left

theorem Bytes.append {i : Nat} {s t : List UInt8} (hs : Bytes mem i s)
    (ht : Bytes mem (i + s.length) t) : Bytes mem i (s ++ t) := by
  intro k hk
  by_cases hlt : k < s.length
  · rw [List.getElem?_append_left hlt]
    exact hs k hlt
  · rw [List.length_append] at hk
    rw [List.getElem?_append_right (by omega), ht (k - s.length) (by omega)]
    congr 2
    omega

theorem exists_holds (s : List UInt8) : ∃ mem : Memory, Holds mem 0 s := by
  refine ⟨fun i => s.getD i 0, fun k hk => ?_, ?_⟩
  · dsimp only
    rw [Nat.zero_add, List.getD_eq_getElem?_getD, List.getElem?_eq_getElem hk]
    rfl
  · dsimp only
    rw [Nat.zero_add, List.getD_eq_getElem?_getD, List.getElem?_eq_none (Nat.le_refl _)]
    rfl

theorem textAt_of_holds {s : List UInt8} (hs : 0 ∉ s) {i limit : Nat} (h : Holds mem i s)
    (hlimit : s.length ≤ limit) : textAt mem limit i = s := by
  induction s generalizing i limit with
  | nil =>
    cases limit with
    | zero => rfl
    | succ limit => exact if_pos h.2
  | cons b s ih =>
    obtain ⟨hb, hs⟩ := List.ne_and_not_mem_of_not_mem_cons hs
    cases limit with
    | zero => exact absurd hlimit (by simp)
    | succ limit =>
      have hfst : mem i = b := (Option.some_inj.mp (h.1 0 (Nat.succ_pos _))).symm
      have hend : mem (i + 1 + s.length) = 0 := by
        rw [← h.2, List.length_cons]
        congr 1
        omega
      rw [textAt, hfst, if_neg hb.symm, ih hs ⟨h.1.tail, hend⟩ (Nat.le_of_succ_le_succ hlimit)]

theorem textAt_eq_take {s : List UInt8} (hs : 0 ∉ s) {limit i : Nat}
    (hbytes : Bytes mem i (s.take limit)) (hend : s.length < limit → mem (i + s.length) = 0) :
    textAt mem limit i = s.take limit := by
  by_cases hlt : s.length < limit
  · rw [List.take_of_length_le (Nat.le_of_lt hlt)] at hbytes ⊢
    exact textAt_of_holds hs ⟨hbytes, hend hlt⟩ (Nat.le_of_lt hlt)
  · induction limit generalizing s i with
    | zero => rfl
    | succ limit ih =>
      cases s with
      | nil => exact absurd (Nat.succ_pos _) hlt
      | cons b s =>
        obtain ⟨hb, hs⟩ := List.ne_and_not_mem_of_not_mem_cons hs
        rw [List.take_succ_cons] at hbytes ⊢
        have hfst : mem i = b := (Option.some_inj.mp (hbytes 0 (Nat.succ_pos _))).symm
        have hlen : ¬s.length < limit := fun h => hlt (Nat.succ_lt_succ h)
        rw [textAt, hfst, if_neg hb.symm, ih hs hbytes.tail (fun h => absurd h hlen) hlen]

theorem strrchr_eq_none {c : UInt8} {s : List UInt8} : strrchr c s = none ↔ c ∉ s := by
  induction s with
  | nil => exact ⟨fun _ => List.not_mem_nil, fun _ => rfl⟩
  | cons b s ih =>
    rw [strrchr, List.mem_cons, not_or, ← ih]
    cases hs : strrchr c s with
    | some i => exact ⟨nofun, fun h => nomatch h.2⟩
    | none =>
      dsimp only
      rw [ite_eq_right_iff]
      constructor
      · intro h
        exact ⟨fun heq => absurd (h heq.symm) (Option.some_ne_none 0), rfl⟩
      · intro h heq
        exact absurd heq.symm h.1

theorem strrchr_append {c : UInt8} (s : List UInt8) {t : List UInt8} (h : c ∉ t) :
    strrchr c (s ++ c :: t) = some s.length := by
  induction s with
  | nil =>
    rw [List.nil_append, strrchr, strrchr_eq_none.mpr h]
    exact if_pos rfl
  | cons b s ih =>
    rw [List.cons_append, strrchr, ih]
    rfl

theorem strrchr_eq_some {c : UInt8} {s : List UInt8} {i : Nat} (h : strrchr c s = some i) :
    ∃ rest, s = s.take i ++ c :: rest ∧ c ∉ rest := by
  induction s generalizing i with
  | nil => exact nomatch h
  | cons b s ih =>
    rw [strrchr] at h
    cases hs : strrchr c s with
    | some k =>
      rw [hs] at h
      obtain rfl := Option.some.inj h
      obtain ⟨rest, heq, hrest⟩ := ih hs
      refine ⟨rest, ?_, hrest⟩
      rw [List.take_succ_cons, List.cons_append, ← heq]
    | none =>
      rw [hs] at h
      dsimp only at h
      split at h
      · next hb =>
        obtain rfl := Option.some.inj h
        exact ⟨s, by rw [hb, List.take_zero, List.nil_append], strrchr_eq_none.mp hs⟩
      · exact nomatch h

theorem notMem_textAt (limit i : Nat) : 0 ∉ textAt mem limit i := by
  induction limit generalizing i with
  | zero => exact List.not_mem_nil
  | succ limit ih =>
    rw [textAt]
    split
    · exact List.not_mem_nil
    · next hne =>
      rw [List.mem_cons, not_or]
      exact ⟨Ne.symm hne, ih (i + 1)⟩

theorem length_textAt (limit i : Nat) : (textAt mem limit i).length ≤ limit := by
  induction limit generalizing i with
  | zero => exact Nat.le_refl _
  | succ limit ih =>
    rw [textAt]
    split
    · exact Nat.zero_le _
    · exact Nat.succ_le_succ (ih (i + 1))

theorem bytes_textAt (limit i : Nat) : Bytes mem i (textAt mem limit i) := by
  induction limit generalizing i with
  | zero => exact fun k hk => absurd hk (Nat.not_lt_zero k)
  | succ limit ih =>
    rw [textAt]
    split
    · exact fun k hk => absurd hk (Nat.not_lt_zero k)
    · intro k hk
      cases k with
      | zero => rfl
      | succ k =>
        rw [List.getElem?_cons_succ, ih (i + 1) k (Nat.lt_of_succ_lt_succ hk), Nat.add_right_comm,
          Nat.add_assoc]

theorem strncpy_of_lt {dst count i : Nat} (s : CString) (hi : i < dst) :
    strncpy mem dst count s i = mem i := if_neg fun h => Nat.not_le.mpr hi h.1

theorem holds_strncpy {dst count : Nat} {s : CString} (h : s.val.length < count) :
    Holds (strncpy mem dst count s) dst s.val := by
  refine ⟨fun k hk => ?_, ?_⟩
  · rw [strncpy, if_pos (by omega), Nat.add_sub_cancel_left, List.getD_eq_getElem?_getD,
      List.getElem?_eq_getElem hk]
    rfl
  · rw [strncpy, if_pos (by omega), Nat.add_sub_cancel_left, List.getD_eq_getElem?_getD,
      List.getElem?_eq_none (Nat.le_refl _)]
    rfl

theorem Holds.append {i : Nat} {s t : List UInt8} (hs : Bytes mem i s)
    (ht : Holds mem (i + s.length) t) : Holds mem i (s ++ t) := by
  refine ⟨hs.append ht.1, ?_⟩
  rw [← ht.2, List.length_append, Nat.add_assoc]

end OpaeLibs.Lib.CStrings
