import Mathlib

namespace OpaeLibs.Lib.Picks

variable {ι β : Type*}

/-- Items are looked at one after the other. How many are left out, and what is picked of the
others; `none` is a fault. -/
def pickAll (pick : ι → Option (Option β)) : List ι → Option (Nat × List β)
  | [] => some (0, [])
  | i :: l =>
    match pick i with
    | none => none
    | some none => (pickAll pick l).map fun r => (r.1 + 1, r.2)
    | some (some b) => (pickAll pick l).map fun r => (r.1, b :: r.2)

variable {pick : ι → Option (Option β)} {want : ι → Option β}

theorem pickAll_of_forall {l : List ι} (h : ∀ i ∈ l, pick i = some (want i)) :
    pickAll pick l = some (l.countP fun i => (want i).isNone, l.filterMap want) := by
  induction l with
  | nil => rfl
  | cons i l ih =>
    have hrest := ih fun j hj => h j (List.mem_cons_of_mem i hj)
    rw [pickAll, h i List.mem_cons_self, hrest, List.countP_cons, List.filterMap_cons]
    cases want i <;> rfl

theorem pickAll_cons_cases {i : ι} {l : List ι} {r : Nat × List β}
    (h : pickAll pick (i :: l) = some r) : ∃ s, pickAll pick l = some s ∧
      (pick i = some none ∧ r = (s.1 + 1, s.2) ∨
        ∃ b, pick i = some (some b) ∧ r = (s.1, b :: s.2)) := by
  rw [pickAll] at h
  cases hpick : pick i with
  | none =>
    rw [hpick] at h
    exact nomatch h
  | some b =>
    rw [hpick] at h
    cases b with
    | none =>
      obtain ⟨s, hs, rfl⟩ := Option.map_eq_some_iff.mp h
      exact ⟨s, hs, .inl ⟨rfl, rfl⟩⟩
    | some b =>
      obtain ⟨s, hs, rfl⟩ := Option.map_eq_some_iff.mp h
      exact ⟨s, hs, .inr ⟨b, rfl, rfl⟩⟩

theorem leftOut_le {l : List ι} (h : ∀ i ∈ l, ∀ b, want i = some b → pick i ≠ some none)
    {r : Nat × List β} (hr : pickAll pick l = some r) :
    r.1 ≤ l.countP fun i => (want i).isNone := by
  induction l generalizing r with
  | nil =>
    obtain rfl := Option.some.inj hr
    exact Nat.zero_le _
  | cons i l ih =>
    rw [List.countP_cons]
    obtain ⟨s, hs, ⟨hpick, rfl⟩ | ⟨b, -, rfl⟩⟩ := pickAll_cons_cases hr
    · have hle := ih (fun j hj => h j (List.mem_cons_of_mem i hj)) hs
      cases hwant : want i with
      | none => exact Nat.succ_le_succ hle
      | some b => exact absurd hpick (h i List.mem_cons_self b hwant)
    · have hle := ih (fun j hj => h j (List.mem_cons_of_mem i hj)) hs
      exact Nat.le_add_right_of_le hle

theorem pickAll_eq_iff {l : List ι}
    (h : ∀ i ∈ l, ∀ b, want i = some b → pick i = none ∨ pick i = some (some b)) :
    pickAll pick l = some (l.countP fun i => (want i).isNone, l.filterMap want) ↔
      ∀ i ∈ l, pick i = some (want i) := by
  refine ⟨?_, pickAll_of_forall⟩
  have hpicks : ∀ i ∈ l, ∀ b c, want i = some c → pick i = some b → b = some c := by
    intro i hi b c hwant hpick
    cases h i hi c hwant with
    | inl h => exact nomatch hpick.symm.trans h
    | inr h => exact Option.some.inj (hpick.symm.trans h)
  clear h
  induction l with
  | nil => exact fun _ => nofun
  | cons i l ih =>
    have hfst := hpicks i List.mem_cons_self
    have hrest := fun j hj => hpicks j (List.mem_cons_of_mem i hj)
    intro hall
    rw [List.countP_cons, List.filterMap_cons] at hall
    rw [List.forall_mem_cons]
    obtain ⟨s, hs, ⟨hpick, heq⟩ | ⟨b, hpick, heq⟩⟩ := pickAll_cons_cases hall
    · cases hwant : want i with
      | some c => exact nomatch hfst none c hwant hpick
      | none =>
        rw [hwant] at heq
        have hcount := Nat.succ.inj (Prod.mk.inj heq).1.symm
        have hlist := (Prod.mk.inj heq).2.symm
        exact ⟨hpick, ih hrest (hs.trans (congrArg some (Prod.ext hcount hlist)))⟩
    · cases hwant : want i with
      | none =>
        -- more are left out of the others than are not wanted of them
        rw [hwant] at heq
        have hle := leftOut_le (fun j hj c hc hnone => nomatch hrest j hj none c hc hnone) hs
        have hcount : (l.countP fun i => (want i).isNone) + 1 = s.1 := (Prod.mk.inj heq).1
        omega
      | some c =>
        obtain rfl := Option.some.inj (hfst (some b) c hwant hpick)
        rw [hwant] at heq
        have hlist := (List.cons.inj (Prod.mk.inj heq).2).2.symm
        exact ⟨hpick, ih hrest (hs.trans (congrArg some (Prod.ext (Prod.mk.inj heq).1.symm hlist)))⟩

end OpaeLibs.Lib.Picks
