import Mathlib

namespace OpaeLibs.Lib.Heap

/-- A heap whose cells are handed out in order. A freed cell is never handed out again, so a stale
identifier stays recognisable. -/
structure Slots (α : Type*) where
  cells : List (Option α)
deriving DecidableEq, Repr

namespace Slots

variable {α : Type*}

def empty : Slots α := ⟨[]⟩

def get (s : Slots α) (i : Nat) : Option α := s.cells[i]?.join

def next (s : Slots α) : Nat := s.cells.length

def alloc (s : Slots α) (a : α) : Slots α := ⟨s.cells ++ [some a]⟩

def allocAll (s : Slots α) (as : List α) : Slots α := ⟨s.cells ++ as.map some⟩

def set (s : Slots α) (i : Nat) (a : α) : Slots α := ⟨s.cells.set i (some a)⟩

def free (s : Slots α) (i : Nat) : Slots α := ⟨s.cells.set i none⟩

def count (p : α → Bool) (s : Slots α) : Nat := s.cells.countP (fun c => c.any p)

theorem get_eq_some {s : Slots α} {i : Nat} {a : α} :
    s.get i = some a ↔ s.cells[i]? = some (some a) := by
  rw [get, Option.join_eq_some_iff]

theorem lt_next {s : Slots α} {i : Nat} {a : α} (h : s.get i = some a) : i < s.next :=
  (List.getElem?_eq_some_iff.mp (get_eq_some.mp h)).1

@[simp] theorem get_empty (i : Nat) : (empty : Slots α).get i = none := by simp [get, empty]

@[simp] theorem count_empty (p : α → Bool) : (empty : Slots α).count p = 0 := rfl

theorem get_of_le {s : Slots α} {i : Nat} (h : s.next ≤ i) : s.get i = none := by
  rw [get, List.getElem?_eq_none h]
  rfl

@[simp] theorem next_alloc (s : Slots α) (a : α) : (s.alloc a).next = s.next + 1 := by
  simp [next, alloc]

@[simp] theorem next_set (s : Slots α) (i : Nat) (a : α) : (s.set i a).next = s.next := by
  simp [next, set]

@[simp] theorem next_free (s : Slots α) (i : Nat) : (s.free i).next = s.next := by
  simp [next, free]

theorem get_alloc (s : Slots α) (a : α) (i : Nat) :
    (s.alloc a).get i = if i = s.next then some a else s.get i := by
  rw [get, get, alloc, next]
  by_cases h : i = s.cells.length
  · simp [h]
  · obtain hlt | hgt := Nat.lt_or_gt_of_ne h
    · simp [h, List.getElem?_append_left hlt]
    · have hlen : (s.cells ++ [some a]).length ≤ i := by
        rw [List.length_append]
        exact hgt
      rw [if_neg h, List.getElem?_eq_none (Nat.le_of_lt hgt), List.getElem?_eq_none hlen]

@[simp] theorem allocAll_nil (s : Slots α) : s.allocAll [] = s := by simp [allocAll]

theorem allocAll_append (s : Slots α) (as bs : List α) :
    s.allocAll (as ++ bs) = (s.allocAll as).allocAll bs := by simp [allocAll]

@[simp] theorem next_allocAll (s : Slots α) (as : List α) :
    (s.allocAll as).next = s.next + as.length := by simp [next, allocAll]

theorem map_get_allocAll (s : Slots α) (as : List α) :
    (List.range' s.next as.length).map (s.allocAll as).get = as.map some := by
  apply List.ext_getElem
  · simp
  · intro i h1 h2
    simp only [List.length_map] at h2
    simp [get, next, allocAll, h2]

theorem set_set (s : Slots α) (i : Nat) (a b : α) : (s.set i a).set i b = s.set i b := by
  rw [set, set, set, List.set_set]

theorem set_of_get {s : Slots α} {i : Nat} {a : α} (h : s.get i = some a) : s.set i a = s := by
  obtain ⟨hi, hc⟩ := List.getElem?_eq_some_iff.mp (get_eq_some.mp h)
  rw [set, ← hc, List.set_getElem_self]

theorem set_set_of_get {s : Slots α} {i : Nat} {a : α} (h : s.get i = some a) (b : α) :
    (s.set i b).set i a = s := by
  rw [set_set, set_of_get h]

theorem set_alloc_next (s : Slots α) (a b : α) : (s.alloc a).set s.next b = s.alloc b := by
  simp [set, alloc, next]

theorem get_set {s : Slots α} {i : Nat} {a : α} (h : s.get i = some a) (b : α) (j : Nat) :
    (s.set i b).get j = if j = i then some b else s.get j := by
  have hi := lt_next h
  rw [get, get, set, List.getElem?_set]
  by_cases hj : j = i
  · subst hj
    simp [next] at hi
    simp [hi]
  · simp [hj, Ne.symm hj]

theorem get_free {s : Slots α} {i : Nat} {a : α} (h : s.get i = some a) (j : Nat) :
    (s.free i).get j = if j = i then none else s.get j := by
  have hi := lt_next h
  rw [get, get, free, List.getElem?_set]
  by_cases hj : j = i
  · subst hj
    simp [next] at hi
    simp [hi]
  · simp [hj, Ne.symm hj]

def All (P : α → Prop) (s : Slots α) : Prop := ∀ i a, s.get i = some a → P a

section

variable {P : α → Prop} {s : Slots α}

theorem all_empty (P : α → Prop) : (empty : Slots α).All P := fun i a h => by simp at h

theorem All.alloc (h : s.All P) {a : α} (ha : P a) : (s.alloc a).All P := by
  intro i b hb
  rw [get_alloc] at hb
  split at hb
  · cases hb
    exact ha
  · exact h i b hb

theorem All.set (h : s.All P) (i : Nat) {a : α} (ha : P a) : (s.set i a).All P := by
  intro j b hb
  rw [get_eq_some, Slots.set, List.getElem?_set] at hb
  split at hb
  · split at hb
    · cases hb
      exact ha
    · cases hb
  · exact h j b (get_eq_some.mpr hb)

theorem All.free (h : s.All P) (i : Nat) : (s.free i).All P := by
  intro j b hb
  rw [get_eq_some, Slots.free, List.getElem?_set] at hb
  split at hb
  · split at hb <;> cases hb
  · exact h j b (get_eq_some.mpr hb)

end

theorem count_alloc (p : α → Bool) (s : Slots α) (a : α) :
    (s.alloc a).count p = s.count p + (p a).toNat := by
  rw [count, count, alloc, List.countP_append]
  cases h : p a <;> simp [h]

theorem countP_set (p : Option α → Bool) {l : List (Option α)} {i : Nat} {x : Option α}
    (h : l[i]? = some x) (y : Option α) :
    (l.set i y).countP p + (p x).toNat = l.countP p + (p y).toNat := by
  induction l generalizing i with
  | nil => simp at h
  | cons c l ih =>
    cases i with
    | zero =>
      simp only [List.getElem?_cons_zero, Option.some.injEq] at h
      subst h
      rw [List.set_cons_zero, List.countP_cons, List.countP_cons]
      cases hx : p c <;> cases hy : p y <;> simp
    | succ i =>
      have hi := ih (by simpa using h)
      rw [List.set_cons_succ, List.countP_cons, List.countP_cons]
      omega

theorem count_set {s : Slots α} {i : Nat} {a : α} (h : s.get i = some a) (p : α → Bool) (b : α) :
    (s.set i b).count p + (p a).toNat = s.count p + (p b).toNat :=
  countP_set (fun c => c.any p) (get_eq_some.mp h) (some b)

theorem count_free {s : Slots α} {i : Nat} {a : α} (h : s.get i = some a) (p : α → Bool) :
    (s.free i).count p + (p a).toNat = s.count p :=
  countP_set (fun c => c.any p) (get_eq_some.mp h) none

end Slots

end OpaeLibs.Lib.Heap
