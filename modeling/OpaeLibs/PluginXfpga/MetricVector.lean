import OpaeLibs.OpaeC.Props

namespace OpaeLibs.PluginXfpga.MetricVector

open OpaeLibs.OpaeC.Props

/-- `items` are the first `total` pointers of the array, if that is not `NULL`. -/
structure FpgaMetricVector (α : Type) where
  items : Option (List (Option α))
  capacity : Nat
  total : Nat

def fpgaVectorCapacity : Nat := 20

section

variable {α : Type}

def fpgaVectorInit (malloc : Bool) : FpgaResult × FpgaMetricVector α :=
  if malloc then (.ok, ⟨some [], fpgaVectorCapacity, 0⟩)
  else (.noMemory, ⟨none, fpgaVectorCapacity, 0⟩)

def fpgaVectorResize (realloc : Bool) (v : FpgaMetricVector α) (capacity : Nat) :
    FpgaResult × FpgaMetricVector α :=
  if realloc then (.ok, { v with items := some (v.items.getD []), capacity := capacity })
  else (.noMemory, v)

/-- Here and below `none` is an access through `NULL`. -/
def fpgaVectorPush (realloc : Bool) (v : FpgaMetricVector α) (item : α) :
    Option (FpgaResult × FpgaMetricVector α) :=
  let (result, v) :=
    if v.capacity = v.total then fpgaVectorResize realloc v (v.capacity * 2) else (.ok, v)
  if result ≠ .ok then some (result, v)
  else
    v.items.map fun items =>
      (.ok, { v with items := some (items ++ [some item]), total := v.total + 1 })

/-- The array may shrink; it stays as it is where that fails. -/
def fpgaVectorDelete (realloc : Bool) (v : FpgaMetricVector α) (index : Nat) :
    Option (FpgaResult × FpgaMetricVector α) :=
  if index ≥ v.total then some (.invalidParam, v)
  else
    v.items.map fun items =>
      let v := { v with items := some (items.eraseIdx index), total := v.total - 1 }
      (.ok, if v.total > 0 ∧ v.total = v.capacity / 4 then
        (fpgaVectorResize realloc v (v.capacity / 2)).2 else v)

/-- The total is left as it is. -/
def fpgaVectorFree (v : FpgaMetricVector α) : Option (FpgaMetricVector α) :=
  if v.total = 0 then some { v with items := none }
  else v.items.map fun _ => { v with items := none }

/-- The pointers that can be got, in order. -/
def fpgaVectorItems (v : FpgaMetricVector α) : Option (List (Option α)) :=
  if v.total = 0 then some [] else v.items

/-- The vector holds these items and no others. -/
structure Holds (v : FpgaMetricVector α) (found : List α) : Prop where
  items : v.items = some (found.map some)
  total : v.total = found.length

theorem Holds.items_eq {v : FpgaMetricVector α} {found : List α} (h : Holds v found) :
    fpgaVectorItems v = some (found.map some) := by
  unfold fpgaVectorItems
  split
  · next hzero =>
    have hnil : found = [] := List.length_eq_zero_iff.mp (h.total.symm.trans hzero)
    rw [hnil]
    rfl
  · exact h.items

theorem holds_init : Holds (fpgaVectorInit (α := α) true).2 [] := ⟨rfl, rfl⟩

/-- The array has not been freed. -/
def Allocated (v : FpgaMetricVector α) : Prop := v.items.isSome = true

theorem exists_push (realloc : Bool) {v : FpgaMetricVector α} (h : Allocated v) (item : α) :
    ∃ result v', fpgaVectorPush realloc v item = some (result, v') ∧ Allocated v' := by
  obtain ⟨items, hitems⟩ := Option.isSome_iff_exists.mp h
  unfold fpgaVectorPush fpgaVectorResize
  by_cases hfull : v.capacity = v.total
  · cases realloc with
    | true => simp [hfull, Allocated]
    | false => simp [hfull, h]
  · simp [hfull, hitems, Allocated]

theorem exists_delete (realloc : Bool) {v : FpgaMetricVector α} (h : Allocated v) (index : Nat) :
    ∃ result v', fpgaVectorDelete realloc v index = some (result, v') ∧ Allocated v' := by
  obtain ⟨items, hitems⟩ := Option.isSome_iff_exists.mp h
  unfold fpgaVectorDelete fpgaVectorResize
  by_cases hindex : index ≥ v.total
  · simp [hindex, h]
  · simp only [hindex, if_false, hitems, Option.map_some]
    refine ⟨_, _, rfl, ?_⟩
    unfold Allocated
    split
    · cases realloc <;> rfl
    · rfl

theorem exists_free {v : FpgaMetricVector α} (h : Allocated v) :
    ∃ v', fpgaVectorFree v = some v' := by
  obtain ⟨items, hitems⟩ := Option.isSome_iff_exists.mp h
  unfold fpgaVectorFree
  split
  · exact ⟨_, rfl⟩
  · exact ⟨_, by rw [hitems]; rfl⟩

/-- The vector must grow for one more item, if it has grown for those before. -/
def Grows (total : Nat) : Prop := ∃ k, total = fpgaVectorCapacity * 2 ^ k

/-- A vector grows by doubling. -/
def Doubled (v : FpgaMetricVector α) : Prop := ∃ k, v.capacity = fpgaVectorCapacity * 2 ^ k

theorem push_of_room {realloc : Bool} {v : FpgaMetricVector α} {found : List α}
    (hv : Holds v found) (hdoubled : Doubled v) (hroom : Grows found.length → realloc = true)
    (item : α) : ∃ v', fpgaVectorPush realloc v item = some (.ok, v') ∧
      Holds v' (found ++ [item]) ∧ Doubled v' := by
  unfold fpgaVectorPush
  by_cases hfull : v.capacity = v.total
  · have hgrows : Grows found.length := by
      obtain ⟨k, hk⟩ := hdoubled
      exact ⟨k, by rw [← hv.total, ← hfull, hk]⟩
    obtain ⟨k, hk⟩ := hdoubled
    have hdouble : v.total * 2 = fpgaVectorCapacity * 2 ^ (k + 1) := by
      rw [← hfull, hk, Nat.pow_succ, Nat.mul_assoc]
    simp only [hfull, if_true, fpgaVectorResize, hroom hgrows, ne_eq, not_true_eq_false, if_false,
      hv.items, Option.getD_some, Option.map_some]
    exact ⟨_, rfl, ⟨by simp, by simp [hv.total]⟩, k + 1, hdouble⟩
  · simp only [hfull, if_false, ne_eq, not_true_eq_false, hv.items, Option.map_some]
    exact ⟨_, rfl, ⟨by simp, by simp [hv.total]⟩, hdoubled⟩

end

end OpaeLibs.PluginXfpga.MetricVector
