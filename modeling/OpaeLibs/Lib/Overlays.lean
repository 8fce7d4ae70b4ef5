import Mathlib

namespace OpaeLibs.Lib.Overlays

variable {α : Type*}

/-- Pieces that are put over each other, each at the beginning of a buffer. -/
def overlay (buffer : List α) (pieces : List (List α)) : List α :=
  pieces.foldl (fun buffer piece => piece ++ buffer.drop piece.length) buffer

def splice (buffer : List α) (place : Nat) (piece : List α) : List α :=
  buffer.take place ++ (piece ++ buffer.drop (place + piece.length))

/-- The element of a buffer once pieces have been put over it. -/
def covered (i : Nat) (a : α) (pieces : List (List α)) : α :=
  pieces.foldl (fun a piece => piece[i]?.getD a) a

/-- What is not blank is in the first piece, behind the ends of all others. -/
def Unharmed (blank : α) (pieces : List (List α)) : Prop :=
  ∀ i a, pieces.flatten[i]? = some a → a ≠ blank →
    i < (pieces.headD []).length ∧ ∀ piece ∈ pieces.tail, piece.length ≤ i

section Overlay

variable {pieces : List (List α)} {buffer : List α}

theorem getElem?_overlay {i : Nat} {a : α} (ha : buffer[i]? = some a)
    (h : ∀ piece ∈ pieces, piece.length ≤ buffer.length) :
    (overlay buffer pieces)[i]? = some (covered i a pieces) := by
  induction pieces generalizing buffer a with
  | nil => exact ha
  | cons piece pieces ih =>
    have hlen := h piece List.mem_cons_self
    have hlen' : (piece ++ buffer.drop piece.length).length = buffer.length := by
      rw [List.length_append, List.length_drop]
      omega
    refine ih (a := piece[i]?.getD a) ?_ fun p hp => ?_
    · by_cases hi : i < piece.length
      · rw [List.getElem?_append_left hi, List.getElem?_eq_getElem hi, Option.getD_some]
      · have hi := Nat.not_lt.mp hi
        rw [List.getElem?_append_right hi, List.getElem?_drop, Nat.add_sub_cancel' hi, ha,
          List.getElem?_eq_none hi, Option.getD_none]
    · rw [hlen']
      exact h p (List.mem_cons_of_mem piece hp)

theorem covered_of_le {i : Nat} {a : α} (h : ∀ piece ∈ pieces, piece.length ≤ i) :
    covered i a pieces = a := by
  induction pieces with
  | nil => rfl
  | cons piece pieces ih =>
    rw [covered, List.foldl_cons, List.getElem?_eq_none (h piece List.mem_cons_self),
      Option.getD_none]
    exact ih fun p hp => h p (List.mem_cons_of_mem piece hp)

theorem covered_cases (i : Nat) (a : α) (pieces : List (List α)) :
    (∀ piece ∈ pieces, piece.length ≤ i) ∨
      ∃ p, pieces.flatten[p + i]? = some (covered i a pieces) := by
  induction pieces generalizing a with
  | nil => exact .inl nofun
  | cons piece pieces ih =>
    cases ih (piece[i]?.getD a) with
    | inr h =>
      obtain ⟨p, hp⟩ := h
      refine .inr ⟨piece.length + p, ?_⟩
      rw [List.flatten_cons, Nat.add_assoc, List.getElem?_append_right (Nat.le_add_right _ _),
        Nat.add_sub_cancel_left, hp]
      rfl
    | inl h =>
      by_cases hi : i < piece.length
      · refine .inr ⟨0, ?_⟩
        have hcovered : covered i a (piece :: pieces) = piece[i]?.getD a := covered_of_le h
        rw [hcovered, Nat.zero_add, List.flatten_cons, List.getElem?_append_left hi,
          List.getElem?_eq_getElem hi, Option.getD_some]
      · refine .inl fun p hp => ?_
        cases List.mem_cons.mp hp with
        | inl heq => exact heq ▸ Nat.not_lt.mp hi
        | inr hp => exact h p hp

theorem flatten_behind (piece : List α) (pieces : List (List α)) (i : Nat) :
    (piece :: pieces).flatten[piece.length + i]? = pieces.flatten[i]? := by
  rw [List.flatten_cons, List.getElem?_append_right (Nat.le_add_right _ _),
    Nat.add_sub_cancel_left]

end Overlay

section Blank

variable {blank : α} {piece : List α} {pieces : List (List α)}

theorem unharmed_of_covered (hne : piece ≠ [])
    (h : ∀ i < (piece :: pieces).flatten.length,
      (piece :: pieces).flatten[i]? = some (covered i blank (piece :: pieces))) :
    Unharmed blank (piece :: pieces) := by
  intro i
  -- the elements further behind come first
  induction hk : (piece :: pieces).flatten.length - i using Nat.strongRecOn
    generalizing i with
  | _ k ih =>
    intro a ha hblank
    obtain ⟨hi, -⟩ := List.getElem?_eq_some_iff.mp ha
    have hcovered : covered i (piece[i]?.getD blank) pieces = a :=
      Option.some.inj ((h i hi).symm.trans ha)
    cases covered_cases i (piece[i]?.getD blank) pieces with
    | inl hle =>
      refine ⟨Nat.not_le.mp fun hge => hblank ?_, hle⟩
      rw [List.headD_cons] at hge
      rw [← hcovered, covered_of_le hle, List.getElem?_eq_none hge, Option.getD_none]
    | inr hbehind =>
      obtain ⟨p, hp⟩ := hbehind
      rw [hcovered, ← flatten_behind piece] at hp
      have hpos := List.length_pos_of_ne_nil hne
      have hlt := (List.getElem?_eq_some_iff.mp hp).1
      have hfirst := (ih _ (by omega) (piece.length + (p + i)) rfl a hp hblank).1
      rw [List.headD_cons] at hfirst
      omega

theorem covered_of_unharmed (h : Unharmed blank (piece :: pieces)) {i : Nat} {a : α}
    (ha : (piece :: pieces).flatten[i]? = some a) :
    covered i blank (piece :: pieces) = a := by
  have hfold : covered i blank (piece :: pieces) = covered i (piece[i]?.getD blank) pieces := rfl
  have hfirst (hi : i < piece.length) : piece[i]?.getD blank = a := by
    rw [List.flatten_cons, List.getElem?_append_left hi] at ha
    rw [ha, Option.getD_some]
  rw [hfold]
  by_cases hblank : a = blank
  · subst hblank
    cases covered_cases i (piece[i]?.getD a) pieces with
    | inl hle =>
      rw [covered_of_le hle]
      by_cases hi : i < piece.length
      · exact hfirst hi
      · rw [List.getElem?_eq_none (Nat.not_lt.mp hi), Option.getD_none]
    | inr hbehind =>
      obtain ⟨p, hp⟩ := hbehind
      rw [← flatten_behind piece] at hp
      by_contra hne
      have hlt := (h _ _ hp hne).1
      rw [List.headD_cons] at hlt
      omega
  · obtain ⟨hi, hle⟩ := h i a ha hblank
    rw [List.headD_cons] at hi
    rw [List.tail_cons] at hle
    rw [covered_of_le hle, hfirst hi]

/-- Pieces that are put over each other are as if they were put behind each other only if all that
is covered or left out is blank. -/
theorem overlay_eq_flatten_iff {n : Nat} (hlen : pieces.flatten.length ≤ n)
    (hne : ∀ piece ∈ pieces, piece ≠ []) :
    (overlay (List.replicate n blank) pieces).take pieces.flatten.length = pieces.flatten ↔
      Unharmed blank pieces := by
  cases pieces with
  | nil => exact iff_of_true rfl fun i a ha => nomatch ha
  | cons piece pieces =>
    have hle : ∀ p ∈ piece :: pieces, p.length ≤ (List.replicate n blank).length := by
      intro p hp
      rw [List.length_replicate]
      exact Nat.le_trans (List.sublist_flatten_of_mem hp).length_le hlen
    have hget {i : Nat} (hi : i < (piece :: pieces).flatten.length) :
        (overlay (List.replicate n blank) (piece :: pieces))[i]? =
          some (covered i blank (piece :: pieces)) := by
      refine getElem?_overlay ?_ hle
      rw [List.getElem?_replicate, if_pos (Nat.lt_of_lt_of_le hi hlen)]
    constructor
    · intro h
      apply unharmed_of_covered (hne piece List.mem_cons_self)
      intro i hi
      rw [← hget hi]
      nth_rewrite 1 [← h]
      rw [List.getElem?_take, if_pos hi]
    · intro h
      apply List.ext_getElem?
      intro i
      rw [List.getElem?_take]
      split
      · next hi =>
        obtain ⟨a, ha⟩ : ∃ a, (piece :: pieces).flatten[i]? = some a :=
          ⟨_, List.getElem?_eq_getElem hi⟩
        rw [hget hi, ha, covered_of_unharmed h ha]
      · next hi => rw [List.getElem?_eq_none (Nat.not_lt.mp hi)]

end Blank

section Splice

variable {pieces : List (List α)} {buffer : List α}

theorem splice_append (done rest piece : List α) :
    splice (done ++ rest) done.length piece = (done ++ piece) ++ rest.drop piece.length := by
  rw [splice, List.take_left, List.drop_append, List.drop_of_length_le (Nat.le_add_right _ _),
    Nat.add_sub_cancel_left, List.nil_append, List.append_assoc]

def inRow (buffer : List α) (place : Nat) : List (List α) → List α
  | [] => buffer
  | piece :: pieces => inRow (splice buffer place piece) (place + piece.length) pieces

theorem inRow_eq (done : List α) {rest : List α} (h : pieces.flatten.length ≤ rest.length) :
    inRow (done ++ rest) done.length pieces =
      done ++ (pieces.flatten ++ rest.drop pieces.flatten.length) := by
  induction pieces generalizing done rest with
  | nil => rfl
  | cons piece pieces ih =>
    rw [List.flatten_cons, List.length_append] at h
    have hlen : pieces.flatten.length ≤ (rest.drop piece.length).length := by
      rw [List.length_drop]
      omega
    rw [inRow, splice_append, ← List.length_append, ih (done ++ piece) hlen, List.drop_drop,
      List.flatten_cons, List.length_append, List.append_assoc, List.append_assoc]

end Splice

end OpaeLibs.Lib.Overlays
