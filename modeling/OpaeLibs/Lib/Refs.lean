import OpaeLibs.Lib.Heap

namespace OpaeLibs.Lib.Refs

open OpaeLibs.Lib.Heap

variable {α : Type*}

/-- Every live cell counts its owners and has at least one, and the live cells are the listed ones,
each listed once. -/
structure Counted (refs : α → Nat) (owners : Nat → Nat) (s : Slots α) (listed : List Nat) :
    Prop where
  live : ∀ i a, s.get i = some a → refs a = owners i ∧ 0 < owners i
  freed : ∀ i, s.get i = none → owners i = 0
  listed : ∀ i, listed.count i = if (s.get i).isSome then 1 else 0

def one (i j : Nat) : Nat := if j = i then 1 else 0

@[simp] theorem one_self (i : Nat) : one i i = 1 := if_pos rfl

theorem one_of_ne {i j : Nat} (h : j ≠ i) : one i j = 0 := if_neg h

theorem count_singleton (i j : Nat) : [i].count j = one i j := by
  by_cases h : j = i
  · simp [h]
  · simp [one_of_ne h, Ne.symm h]

/-- One owner of a cell that need not exist. -/
def oneOf (o : Option Nat) (j : Nat) : Nat := o.elim 0 fun i => one i j

@[simp] theorem oneOf_none (j : Nat) : oneOf none j = 0 := rfl

@[simp] theorem oneOf_some (i j : Nat) : oneOf (some i) j = one i j := rfl

section

variable {refs : α → Nat} {owners owners' : Nat → Nat} {s : Slots α} {listed : List Nat}

theorem counted_empty (refs : α → Nat) : Counted refs (fun _ => 0) (Slots.empty : Slots α) [] :=
  ⟨by simp, by simp, by simp⟩

theorem Counted.congr (h : Counted refs owners s listed) (ho : ∀ i, owners' i = owners i) :
    Counted refs owners' s listed := by
  obtain rfl : owners' = owners := funext ho
  exact h

theorem Counted.exists_of_owned (h : Counted refs owners s listed) {i : Nat} (hi : 0 < owners i) :
    ∃ a, s.get i = some a := by
  cases hg : s.get i with
  | some a => exact ⟨a, rfl⟩
  | none => exact absurd (h.freed i hg) (Nat.ne_of_gt hi)

theorem Counted.isSome_iff (h : Counted refs owners s listed) (i : Nat) :
    (s.get i).isSome ↔ 0 < owners i := by
  cases hg : s.get i with
  | some a => simpa using (h.live i a hg).2
  | none => simp [h.freed i hg]

theorem Counted.mem_iff (h : Counted refs owners s listed) (i : Nat) :
    i ∈ listed ↔ (s.get i).isSome := by
  rw [← List.count_pos_iff, h.listed]
  split <;> simp_all

theorem Counted.nodup (h : Counted refs owners s listed) : listed.Nodup := by
  rw [List.nodup_iff_count_le_one]
  intro i
  rw [h.listed]
  split <;> omega

theorem Counted.alloc (h : Counted refs owners s listed) {a : α} (ha : refs a = 1)
    (ho : ∀ j, owners' j = owners j + one s.next j) :
    Counted refs owners' (s.alloc a) (s.next :: listed) := by
  have hnone := Slots.get_of_le (Nat.le_refl s.next)
  have hzero := h.freed _ hnone
  refine ⟨fun i b hb => ?_, fun i hi => ?_, fun i => ?_⟩
  · rw [Slots.get_alloc] at hb
    by_cases he : i = s.next
    · subst he
      obtain rfl : a = b := by simpa using hb
      rw [ho, hzero, one_self, ha]
      exact ⟨rfl, Nat.one_pos⟩
    · rw [ho, one_of_ne he]
      exact h.live i b (by simpa [he] using hb)
  · rw [Slots.get_alloc] at hi
    by_cases he : i = s.next
    · simp [he] at hi
    · rw [ho, one_of_ne he]
      exact h.freed i (by simpa [he] using hi)
  · rw [List.count_cons, Slots.get_alloc, h.listed]
    by_cases he : i = s.next
    · subst he
      simp [hnone]
    · simp [he, Ne.symm he]

theorem Counted.set (h : Counted refs owners s listed) {i : Nat} {a b : α} (hi : s.get i = some a)
    (hb : refs b = owners' i) (hpos : 0 < owners' i) (ho : ∀ j, j ≠ i → owners' j = owners j) :
    Counted refs owners' (s.set i b) listed := by
  refine ⟨fun j c hc => ?_, fun j hj => ?_, fun j => ?_⟩
  · rw [Slots.get_set hi] at hc
    by_cases he : j = i
    · subst he
      obtain rfl : b = c := by simpa using hc
      exact ⟨hb, hpos⟩
    · rw [ho j he]
      exact h.live j c (by simpa [he] using hc)
  · rw [Slots.get_set hi] at hj
    by_cases he : j = i
    · simp [he] at hj
    · rw [ho j he]
      exact h.freed j (by simpa [he] using hj)
  · rw [h.listed, Slots.get_set hi]
    by_cases he : j = i
    · subst he
      simp [hi]
    · simp [he]

theorem Counted.retain (h : Counted refs owners s listed) {i : Nat} {a b : α}
    (hi : s.get i = some a) (hb : refs b = refs a + 1)
    (ho : ∀ j, owners' j = owners j + one i j) : Counted refs owners' (s.set i b) listed := by
  obtain ⟨ha, hpos⟩ := h.live i a hi
  have hown : owners' i = owners i + 1 := by rw [ho, one_self]
  refine h.set hi (by omega) (by omega) fun j hj => ?_
  rw [ho, one_of_ne hj, Nat.add_zero]

theorem Counted.release (h : Counted refs owners s listed) {i : Nat} {a b : α}
    (hi : s.get i = some a) (hb : refs b + 1 = refs a) (hpos : 0 < refs b)
    (ho : ∀ j, owners j = owners' j + one i j) : Counted refs owners' (s.set i b) listed := by
  obtain ⟨ha, -⟩ := h.live i a hi
  have hown := ho i
  rw [one_self] at hown
  refine h.set hi (by omega) (by omega) fun j hj => ?_
  rw [ho, one_of_ne hj, Nat.add_zero]

theorem Counted.drop (h : Counted refs owners s listed) {i : Nat} {a : α} (hi : s.get i = some a)
    (h1 : refs a = 1) (ho : ∀ j, owners j = owners' j + one i j) :
    Counted refs owners' (s.free i) (listed.erase i) := by
  obtain ⟨ha, -⟩ := h.live i a hi
  have hown := ho i
  rw [one_self] at hown
  have hother : ∀ j, j ≠ i → owners' j = owners j := fun j hj => by
    rw [ho, one_of_ne hj, Nat.add_zero]
  refine ⟨fun j c hc => ?_, fun j hj => ?_, fun j => ?_⟩
  · rw [Slots.get_free hi] at hc
    by_cases he : j = i
    · simp [he] at hc
    · rw [hother j he]
      exact h.live j c (by simpa [he] using hc)
  · rw [Slots.get_free hi] at hj
    by_cases he : j = i
    · subst he
      omega
    · rw [hother j he]
      exact h.freed j (by simpa [he] using hj)
  · rw [List.count_erase, h.listed, Slots.get_free hi]
    by_cases he : j = i
    · subst he
      simp [hi]
    · simp [he, Ne.symm he]

end

section Sole

variable {H R K : Type*}

/-- Each resource that is there has exactly one holder, and is of a kind that fits it. -/
structure Sole (fits : H → K → Prop) (holds : H → Option R) (there : R → Option K) : Prop where
  fits : ∀ x r, holds x = some r → ∃ k, there r = some k ∧ fits x k
  unique : ∀ x y r, holds x = some r → holds y = some r → x = y
  held : ∀ r k, there r = some k → ∃ x, holds x = some r

variable {fits : H → K → Prop} {holds holds' : H → Option R} {there there' : R → Option K}
variable {x y : H} {r : R} {k : K}

theorem sole_empty (fits : H → K → Prop) :
    Sole fits (fun _ => (none : Option R)) fun _ => none := by
  refine ⟨fun _ _ h => ?_, fun _ _ _ h => ?_, fun _ _ h => ?_⟩ <;> cases h

theorem Sole.congr (h : Sole fits holds there) (hholds : ∀ x, holds' x = holds x)
    (hthere : ∀ r, there' r = there r) : Sole fits holds' there' := by
  obtain rfl : holds' = holds := funext hholds
  obtain rfl : there' = there := funext hthere
  exact h

theorem Sole.not_held (h : Sole fits holds there) (hr : there r = none) (x : H) :
    holds x ≠ some r := by
  intro hx
  obtain ⟨k, hk, -⟩ := h.fits x r hx
  rw [hr] at hk
  cases hk

theorem Sole.gain [DecidableEq H] [DecidableEq R] (h : Sole fits holds there)
    (hx : holds x = none) (hr : there r = none) (hk : fits x k) :
    Sole fits (Function.update holds x (some r)) (Function.update there r (some k)) := by
  have hnot := h.not_held hr
  refine ⟨fun y q hy => ?_, fun y z q hy hz => ?_, fun q l hq => ?_⟩
  · by_cases hyx : y = x
    · subst hyx
      rw [Function.update_self] at hy
      obtain rfl := Option.some.inj hy
      exact ⟨k, Function.update_self .., hk⟩
    · rw [Function.update_of_ne hyx] at hy
      have hq : q ≠ r := by
        rintro rfl
        exact hnot y hy
      rw [Function.update_of_ne hq]
      exact h.fits y q hy
  · by_cases hyx : y = x
    · subst hyx
      rw [Function.update_self] at hy
      obtain rfl := Option.some.inj hy
      by_contra hne
      rw [Function.update_of_ne (Ne.symm hne)] at hz
      exact hnot z hz
    · rw [Function.update_of_ne hyx] at hy
      by_cases hzx : z = x
      · subst hzx
        rw [Function.update_self] at hz
        obtain rfl := Option.some.inj hz
        exact absurd hy (hnot y)
      · rw [Function.update_of_ne hzx] at hz
        exact h.unique y z q hy hz
  · by_cases hqr : q = r
    · subst hqr
      exact ⟨x, Function.update_self ..⟩
    · rw [Function.update_of_ne hqr] at hq
      obtain ⟨y, hy⟩ := h.held q l hq
      have hyx : y ≠ x := by
        rintro rfl
        rw [hx] at hy
        cases hy
      exact ⟨y, by rw [Function.update_of_ne hyx, hy]⟩

theorem Sole.lose [DecidableEq H] [DecidableEq R] (h : Sole fits holds there)
    (hx : holds x = some r) :
    Sole fits (Function.update holds x none) (Function.update there r none) := by
  refine ⟨fun y q hy => ?_, fun y z q hy hz => ?_, fun q l hq => ?_⟩
  · by_cases hyx : y = x
    · subst hyx
      rw [Function.update_self] at hy
      cases hy
    · rw [Function.update_of_ne hyx] at hy
      have hq : q ≠ r := by
        rintro rfl
        exact hyx (h.unique y x q hy hx)
      rw [Function.update_of_ne hq]
      exact h.fits y q hy
  · by_cases hyx : y = x
    · subst hyx
      rw [Function.update_self] at hy
      cases hy
    · by_cases hzx : z = x
      · subst hzx
        rw [Function.update_self] at hz
        cases hz
      · rw [Function.update_of_ne hyx] at hy
        rw [Function.update_of_ne hzx] at hz
        exact h.unique y z q hy hz
  · by_cases hqr : q = r
    · subst hqr
      rw [Function.update_self] at hq
      cases hq
    · rw [Function.update_of_ne hqr] at hq
      obtain ⟨y, hy⟩ := h.held q l hq
      have hyx : y ≠ x := by
        rintro rfl
        exact hqr (Option.some.inj (hy.symm.trans hx))
      exact ⟨y, by rw [Function.update_of_ne hyx, hy]⟩

theorem Sole.change [DecidableEq R] (h : Sole fits holds there) (hx : holds x = some r)
    (hk : fits x k) : Sole fits holds (Function.update there r (some k)) := by
  refine ⟨fun y q hy => ?_, h.unique, fun q l hq => ?_⟩
  · by_cases hq : q = r
    · subst hq
      obtain rfl := h.unique y x q hy hx
      exact ⟨k, Function.update_self .., hk⟩
    · rw [Function.update_of_ne hq]
      exact h.fits y q hy
  · by_cases hqr : q = r
    · subst hqr
      exact ⟨x, hx⟩
    · rw [Function.update_of_ne hqr] at hq
      exact h.held q l hq

end Sole

end OpaeLibs.Lib.Refs
