import OpaeLibs.OpaeC.Props

namespace OpaeLibs.PluginXfpga.VectorSlots

open OpaeLibs.OpaeC.Props

/-- The slots are those of the block that `fpga_metric_item` points to, unless it is `NULL`. -/
structure FpgaMetricVector (α : Type) where
  fpgaMetricItem : Option (List (Option α))
  capacity : UInt64
  total : UInt64

def fpgaVectorCapacity : UInt64 := 20

section Code

-- `fresh` is what an allocation leaves in a new slot
variable {α : Type} (fresh : Nat → Option α)

/-- The slots of a block of so many bytes, with what is kept of an old block. -/
def slotsOf (old : List (Option α)) (bytes : UInt64) : List (Option α) :=
  old.take (bytes.toNat / 8) ++
    (List.range' old.length (bytes.toNat / 8 - old.length)).map fresh

/-- No block has more than `PTRDIFF_MAX` bytes. -/
def allocates (memory : Bool) (bytes : UInt64) : Bool := memory && decide (bytes.toNat < 2 ^ 63)

def fpgaVectorInit (memory : Bool) : FpgaResult × FpgaMetricVector α :=
  let bytes := 8 * fpgaVectorCapacity
  if allocates memory bytes then
    (.ok, ⟨some (slotsOf fresh [] bytes), fpgaVectorCapacity, 0⟩)
  else (.noMemory, ⟨none, fpgaVectorCapacity, 0⟩)

def fpgaVectorTotal (v : FpgaMetricVector α) : FpgaResult × UInt64 := (.ok, v.total)

def fpgaVectorResize (memory : Bool) (v : FpgaMetricVector α) (capacity : UInt64) :
    FpgaResult × FpgaMetricVector α :=
  let bytes := 8 * capacity
  if allocates memory bytes then
    (.ok, { v with
      fpgaMetricItem := some (slotsOf fresh (v.fpgaMetricItem.getD []) bytes)
      capacity := capacity })
  else (.noMemory, v)

/-- Here and below `none` is an access outside of the block. -/
def store (slots : List (Option α)) (i : Nat) (item : Option α) : Option (List (Option α)) :=
  if i < slots.length then some (slots.set i item) else none

def fpgaVectorPush (memory : Bool) (v : FpgaMetricVector α) :
    Option α → Option (FpgaResult × FpgaMetricVector α)
  | none => some (.invalidParam, v)
  | some item =>
    let r :=
      if v.capacity = v.total then fpgaVectorResize fresh memory v (v.capacity * 2) else (.ok, v)
    if r.1 ≠ .ok then some (r.1, r.2)
    else do
      let slots ← r.2.fpgaMetricItem
      let slots ← store slots r.2.total.toNat (some item)
      return (.ok, { r.2 with fpgaMetricItem := some slots, total := r.2.total + 1 })

/-- So many rounds of the loop that closes the gap, from an index on. -/
def closeGap : Nat → Nat → List (Option α) → Option (List (Option α))
  | 0, _, slots => some slots
  | n + 1, i, slots => do
    let next ← slots[i + 1]?
    let slots ← store slots i next
    let slots ← store slots (i + 1) none
    closeGap n (i + 1) slots

/-- The result, the vector and the item that is freed. A block that cannot be made smaller stays as
it is. -/
def fpgaVectorDelete (memory : Bool) (v : FpgaMetricVector α) (index : UInt64) :
    Option (FpgaResult × FpgaMetricVector α × Option α) :=
  if index ≥ v.total then some (.invalidParam, v, none)
  else do
    let slots ← v.fpgaMetricItem
    let freed ← slots[index.toNat]?
    let slots ← store slots index.toNat none
    let slots ← closeGap ((v.total - 1).toNat - index.toNat) index.toNat slots
    let v := { v with fpgaMetricItem := some slots, total := v.total - 1 }
    return (.ok, if v.total > 0 ∧ v.total = v.capacity / 4 then
      (fpgaVectorResize fresh memory v (v.capacity / 2)).2 else v, freed)

def fpgaVectorGet (v : FpgaMetricVector α) (index : UInt64) : Option (Option α) :=
  if index < v.total then v.fpgaMetricItem.bind (·[index.toNat]?) else some none

end Code

section Lists

variable {α : Type}

/-- The items of the vector are those of the list. It has room for two items, and no more than a
block can have. -/
structure Represents (v : FpgaMetricVector α) (l : List α) : Prop where
  slots : ∃ rest, v.fpgaMetricItem = some (l.map some ++ rest) ∧
    l.length + rest.length = v.capacity.toNat
  total : v.total.toNat = l.length
  two_le : 2 ≤ v.capacity.toNat
  bytes_lt : 8 * v.capacity.toNat < 2 ^ 63

theorem Represents.total_le {v : FpgaMetricVector α} {l : List α} (h : Represents v l) :
    v.total ≤ v.capacity := by
  obtain ⟨rest, -, hlen⟩ := h.slots
  have htotal := h.total
  rw [UInt64.le_iff_toNat_le]
  omega

/-- A vector is asked for more memory than there is, or than there can be. -/
def Refused (memory : Bool) (l : List α) : Prop := memory = false ∨ 2 ^ 63 ≤ 16 * l.length

section Resize

variable {fresh : Nat → Option α} {memory : Bool} {v : FpgaMetricVector α} {l : List α}

theorem exists_slotsOf (fresh : Nat → Option α) (l : List α) (rest : List (Option α))
    {bytes : UInt64} (h : l.length ≤ bytes.toNat / 8) :
    ∃ rest', slotsOf fresh (l.map some ++ rest) bytes = l.map some ++ rest' ∧
      l.length + rest'.length = bytes.toNat / 8 := by
  rw [slotsOf, List.take_append, List.take_of_length_le (by rwa [List.length_map]),
    List.append_assoc]
  refine ⟨_, rfl, ?_⟩
  simp only [List.length_append, List.length_take, List.length_map, List.length_range']
  omega

theorem toNat_bytes {n : UInt64} (h : 8 * n.toNat < 2 ^ 64) : (8 * n).toNat = 8 * n.toNat := by
  rw [UInt64.toNat_mul, UInt64.toNat_ofNat, Nat.mod_eq_of_lt (by decide : 8 < 2 ^ 64),
    Nat.mod_eq_of_lt h]

theorem resize_cases (fresh : Nat → Option α) (memory : Bool) (h : Represents v l) (n : UInt64)
    (hlen : l.length ≤ n.toNat)
    (htwo : 2 ≤ n.toNat) (hbytes : 8 * n.toNat < 2 ^ 64) :
    (memory = true ∧ 8 * n.toNat < 2 ^ 63 ∧ ∃ v', fpgaVectorResize fresh memory v n = (.ok, v') ∧
      Represents v' l ∧ v'.capacity = n ∧ v'.total = v.total) ∨
    ((memory = false ∨ 2 ^ 63 ≤ 8 * n.toNat) ∧
      fpgaVectorResize fresh memory v n = (.noMemory, v)) := by
  have hcount := toNat_bytes hbytes
  rw [fpgaVectorResize]
  cases hallocates : allocates memory (8 * n) with
  | false =>
    refine .inr ⟨?_, if_neg Bool.false_ne_true⟩
    rw [allocates, Bool.and_eq_false_iff, decide_eq_false_iff_not, hcount, Nat.not_lt] at hallocates
    exact hallocates
  | true =>
    rw [allocates, Bool.and_eq_true, decide_eq_true_iff, hcount] at hallocates
    obtain ⟨rest, hslots, -⟩ := h.slots
    obtain ⟨rest', hslots', hlen'⟩ := exists_slotsOf fresh l rest
      (show l.length ≤ (8 * n).toNat / 8 by omega)
    refine .inl ⟨hallocates.1, hallocates.2, _, if_pos rfl, ⟨⟨rest', ?_, ?_⟩, h.total, htwo,
      hallocates.2⟩, rfl, rfl⟩
    · rw [hslots, Option.getD_some, hslots']
    · dsimp only
      omega

end Resize

section Calls

variable {fresh : Nat → Option α} {memory : Bool} {v : FpgaMetricVector α} {l : List α}

theorem store_append (before after : List (Option α)) (item item' : Option α) :
    store (before ++ item :: after) before.length item' = some (before ++ item' :: after) := by
  rw [store, if_pos (by simp), List.set_append_right _ _ (Nat.le_refl _), Nat.sub_self,
    List.set_cons_zero]

theorem push_of_room (h : Represents v l) (hroom : v.total < v.capacity) (item : α) :
    ∃ slots, (v.fpgaMetricItem.bind fun slots => store slots v.total.toNat (some item)) =
        some slots ∧
      Represents { v with fpgaMetricItem := some slots, total := v.total + 1 } (l ++ [item]) := by
  obtain ⟨rest, hslots, hlen⟩ := h.slots
  have htotal := h.total
  have hlt := UInt64.lt_iff_toNat_lt.mp hroom
  have hbytes := h.bytes_lt
  obtain ⟨slot, rest, rfl⟩ : ∃ slot rest', rest = slot :: rest' :=
    List.exists_cons_of_length_pos (by omega)
  rw [List.length_cons] at hlen
  refine ⟨(l ++ [item]).map some ++ rest, ?_, ⟨rest, rfl, ?_⟩, ?_, h.two_le, h.bytes_lt⟩
  · have hstore := store_append (l.map some) rest slot (some item)
    rw [List.length_map, ← htotal] at hstore
    rw [hslots, Option.bind_some, hstore, List.map_append, List.append_assoc]
    rfl
  · rw [List.length_append, List.length_singleton]
    dsimp only
    omega
  · rw [List.length_append, List.length_singleton]
    dsimp only
    rw [UInt64.toNat_add, UInt64.toNat_one, Nat.mod_eq_of_lt (by omega), htotal]

theorem push_cases (fresh : Nat → Option α) (memory : Bool) (h : Represents v l) (item : α) :
    (∃ v', fpgaVectorPush fresh memory v (some item) = some (.ok, v') ∧
      Represents v' (l ++ [item])) ∨
    (Refused memory l ∧ fpgaVectorPush fresh memory v (some item) = some (.noMemory, v)) := by
  have htotal := h.total
  have hbytes := h.bytes_lt
  rw [fpgaVectorPush]
  by_cases hfull : v.capacity = v.total
  · have hdouble : (v.capacity * 2).toNat = v.capacity.toNat * 2 := by
      rw [UInt64.toNat_mul, UInt64.toNat_ofNat, Nat.mod_eq_of_lt (by decide : 2 < 2 ^ 64),
        Nat.mod_eq_of_lt (by omega)]
    have hcapacity : v.capacity.toNat = l.length := by rw [hfull, htotal]
    have htwo := h.two_le
    have hcases := resize_cases fresh memory h (v.capacity * 2)
      (by omega) (by omega) (by omega)
    simp only [if_pos hfull]
    rcases hcases with ⟨-, -, v', hresize, hv', hcapacity', htotal'⟩ | ⟨hrefused, hresize⟩
    · have hroom : v'.total < v'.capacity := by
        rw [UInt64.lt_iff_toNat_lt, htotal', hcapacity', hdouble]
        omega
      obtain ⟨slots, hstore, hpushed⟩ := push_of_room hv' hroom item
      refine .inl ⟨_, ?_, hpushed⟩
      obtain ⟨block, hblock, hstore⟩ := Option.bind_eq_some_iff.mp hstore
      simp [hresize, hblock, hstore]
    · refine .inr ⟨?_, ?_⟩
      · rw [Refused]
        refine hrefused.imp_right fun hle => ?_
        omega
      · simp [hresize]
  · have hroom : v.total < v.capacity :=
      UInt64.lt_of_le_of_ne h.total_le fun heq => hfull heq.symm
    obtain ⟨slots, hstore, hpushed⟩ := push_of_room h hroom item
    refine .inl ⟨_, ?_, hpushed⟩
    obtain ⟨block, hblock, hstore⟩ := Option.bind_eq_some_iff.mp hstore
    simp [hfull, hblock, hstore]

theorem closeGap_append (moved before after : List (Option α)) :
    closeGap moved.length before.length (before ++ none :: (moved ++ after)) =
      some (before ++ (moved ++ none :: after)) := by
  induction moved generalizing before with
  | nil => rfl
  | cons item moved ih =>
    have hnext : (before ++ none :: (item :: moved ++ after))[before.length + 1]? = some item := by
      rw [List.getElem?_append_right (Nat.le_add_right _ 1), Nat.add_sub_cancel_left]
      rfl
    have hmove := store_append before (item :: (moved ++ after)) none item
    have hgap := store_append (before ++ [item]) (moved ++ after) item none
    have hrest := ih (before ++ [item])
    rw [List.length_append, List.length_singleton] at hgap hrest
    simp only [List.append_assoc, List.singleton_append] at hgap hrest
    rw [List.length_cons, closeGap, hnext]
    simp only [List.cons_append, bind, Option.bind, hmove, hgap, hrest]

theorem delete_of_ge (h : Represents v l) {index : UInt64} (hindex : l.length ≤ index.toNat) :
    fpgaVectorDelete fresh memory v index = some (.invalidParam, v, none) := by
  have hge : index ≥ v.total := by
    rw [ge_iff_le, UInt64.le_iff_toNat_le, h.total]
    exact hindex
  exact if_pos hge

theorem deleted_slots (h : Represents v l) {index : UInt64} (hindex : index.toNat < l.length) :
    ∃ slots, (v.fpgaMetricItem.bind fun slots => (store slots index.toNat none).bind
        (closeGap ((v.total - 1).toNat - index.toNat) index.toNat)) = some slots ∧
      Represents { v with fpgaMetricItem := some slots, total := v.total - 1 }
        (l.eraseIdx index.toNat) := by
  obtain ⟨rest, hslots, hlen⟩ := h.slots
  have htotal := h.total
  have hpred : (v.total - 1).toNat = l.length - 1 := by
    have hone : (1 : UInt64) ≤ v.total := by
      rw [UInt64.le_iff_toNat_le, UInt64.toNat_one]
      omega
    rw [UInt64.toNat_sub_of_le _ _ hone, htotal, UInt64.toNat_one]
  obtain ⟨before, item, after, rfl, hbefore⟩ : ∃ before item after,
      l = before ++ item :: after ∧ before.length = index.toNat :=
    ⟨l.take index.toNat, l[index.toNat], l.drop (index.toNat + 1),
      by rw [← List.drop_eq_getElem_cons hindex, List.take_append_drop],
      List.length_take_of_le (Nat.le_of_lt hindex)⟩
  simp only [List.length_append, List.length_cons] at hlen hpred htotal
  have herase : (before ++ item :: after).eraseIdx index.toNat = before ++ after := by
    rw [← hbefore, List.eraseIdx_append_of_length_le (Nat.le_refl _), Nat.sub_self,
      List.eraseIdx_cons_zero]
  have hstore := store_append (before.map some) (after.map some ++ rest) (some item) none
  have hgap := closeGap_append (after.map some) (before.map some) rest
  have hcount : (v.total - 1).toNat - index.toNat = after.length := by omega
  rw [List.length_map, hbefore] at hstore
  rw [List.length_map, List.length_map, hbefore] at hgap
  refine ⟨_, ?_, ⟨none :: rest, rfl, ?_⟩, ?_, h.two_le, h.bytes_lt⟩
  · rw [hslots, Option.bind_some, hcount, List.map_append, List.map_cons, List.append_assoc,
      List.cons_append, hstore, Option.bind_some, hgap, herase, List.map_append, List.append_assoc]
  · rw [herase, List.length_append, List.length_cons]
    dsimp only
    omega
  · rw [herase, List.length_append]
    dsimp only
    omega

theorem shrink_represents (fresh : Nat → Option α) (memory : Bool) (h : Represents v l) :
    Represents (if v.total > 0 ∧ v.total = v.capacity / 4 then
      (fpgaVectorResize fresh memory v (v.capacity / 2)).2 else v) l := by
  split
  case isFalse => exact h
  case isTrue hquarter =>
    have htotal := h.total
    have hbytes := h.bytes_lt
    have hlt : 0 < v.total.toNat := UInt64.lt_iff_toNat_lt.mp hquarter.1
    have hfour : v.total.toNat = v.capacity.toNat / 4 := congrArg UInt64.toNat hquarter.2
    have hhalf : (v.capacity / 2).toNat = v.capacity.toNat / 2 := rfl
    rcases resize_cases fresh memory h (v.capacity / 2)
      (by omega) (by omega) (by omega) with ⟨-, -, v', hresize, hv', -⟩ | ⟨-, hresize⟩
    · rwa [hresize]
    · rwa [hresize]

theorem delete_of_lt (fresh : Nat → Option α) (memory : Bool) (h : Represents v l)
    {index : UInt64} (hindex : index.toNat < l.length) :
    ∃ v', fpgaVectorDelete fresh memory v index = some (.ok, v', some l[index.toNat]) ∧
      Represents v' (l.eraseIdx index.toNat) := by
  obtain ⟨rest, hslots, -⟩ := h.slots
  obtain ⟨slots, hdeleted, hrepresents⟩ := deleted_slots h hindex
  have hnot : ¬index ≥ v.total := by
    rw [ge_iff_le, UInt64.le_iff_toNat_le, h.total]
    omega
  have hfreed : (l.map some ++ rest)[index.toNat]? = some (some l[index.toNat]) := by
    rw [List.getElem?_append_left (by rwa [List.length_map]), List.getElem?_map,
      List.getElem?_eq_getElem hindex]
    rfl
  rw [hslots, Option.bind_some] at hdeleted
  obtain ⟨gap, hstore, hgap⟩ := Option.bind_eq_some_iff.mp hdeleted
  refine ⟨_, ?_, shrink_represents fresh memory hrepresents⟩
  rw [fpgaVectorDelete, if_neg hnot, hslots]
  simp only [bind, Option.bind, hfreed, hstore, hgap]
  rfl

theorem get_eq (h : Represents v l) (index : UInt64) :
    fpgaVectorGet v index = some l[index.toNat]? := by
  obtain ⟨rest, hslots, -⟩ := h.slots
  rw [fpgaVectorGet]
  split
  · next hlt =>
    rw [UInt64.lt_iff_toNat_lt, h.total] at hlt
    rw [hslots, Option.bind_some, List.getElem?_append_left (by rwa [List.length_map]),
      List.getElem?_map, List.getElem?_eq_getElem hlt]
    rfl
  · next hge =>
    rw [UInt64.lt_iff_toNat_lt, h.total] at hge
    rw [List.getElem?_eq_none (Nat.not_lt.mp hge)]

end Calls

section Runs

inductive Call (α : Type)
  | push (item : Option α)
  | delete (index : UInt64)
  | get (index : UInt64)
  | total

/-- What a call returns; of a deletion, also what it frees. -/
inductive Answer (α : Type)
  | pushed (result : FpgaResult)
  | deleted (result : FpgaResult) (freed : Option α)
  | got (item : Option α)
  | total (result : FpgaResult) (n : UInt64)

variable (fresh : Nat → Option α)

/-- `memory` is the outcome of the `realloc` of the call, if it makes one. -/
def perform (memory : Bool) (v : FpgaMetricVector α) :
    Call α → Option (Answer α × FpgaMetricVector α)
  | .push item => (fpgaVectorPush fresh memory v item).map fun r => (.pushed r.1, r.2)
  | .delete index =>
    (fpgaVectorDelete fresh memory v index).map fun r => (.deleted r.1 r.2.2, r.2.1)
  | .get index => (fpgaVectorGet v index).map fun item => (.got item, v)
  | .total => some (.total (fpgaVectorTotal v).1 (fpgaVectorTotal v).2, v)

def run : List (Bool × Call α) → FpgaMetricVector α → Option (List (Answer α) × FpgaMetricVector α)
  | [], v => some ([], v)
  | c :: cs, v => do
    let (answer, v) ← perform fresh c.1 v c.2
    let (answers, v) ← run cs v
    return (answer :: answers, v)

/-- The calls on a list. -/
inductive ListStep : Bool × Call α → List α → Answer α → List α → Prop
  | pushNull (memory : Bool) (l : List α) :
      ListStep (memory, .push none) l (.pushed .invalidParam) l
  | push (memory : Bool) (l : List α) (item : α) :
      ListStep (memory, .push (some item)) l (.pushed .ok) (l ++ [item])
  | pushFails {memory : Bool} {l : List α} (item : α) (h : Refused memory l) :
      ListStep (memory, .push (some item)) l (.pushed .noMemory) l
  | deleteNone (memory : Bool) {l : List α} {index : UInt64} (h : l.length ≤ index.toNat) :
      ListStep (memory, .delete index) l (.deleted .invalidParam none) l
  | delete (memory : Bool) {l : List α} {index : UInt64} (h : index.toNat < l.length) :
      ListStep (memory, .delete index) l (.deleted .ok (some l[index.toNat]))
        (l.eraseIdx index.toNat)
  | get (memory : Bool) (l : List α) (index : UInt64) :
      ListStep (memory, .get index) l (.got l[index.toNat]?) l
  | total (memory : Bool) {l : List α} {n : UInt64} (h : n.toNat = l.length) :
      ListStep (memory, .total) l (.total .ok n) l

inductive ListRun : List (Bool × Call α) → List α → List (Answer α) → List α → Prop
  | nil (l : List α) : ListRun [] l [] l
  | cons {c : Bool × Call α} {cs : List (Bool × Call α)} {l l' l'' : List α} {answer : Answer α}
      {answers : List (Answer α)} (hstep : ListStep c l answer l')
      (hrest : ListRun cs l' answers l'') : ListRun (c :: cs) l (answer :: answers) l''

variable {fresh}

/-- A call keeps the vector a list, and answers as the list does. -/
theorem perform_refines (fresh : Nat → Option α) {v : FpgaMetricVector α} {l : List α}
    (h : Represents v l) (c : Bool × Call α) : ∃ answer v' l',
      perform fresh c.1 v c.2 = some (answer, v') ∧ ListStep c l answer l' ∧
        Represents v' l' := by
  obtain ⟨memory, call⟩ := c
  cases call with
  | push item =>
    cases item with
    | none => exact ⟨_, _, l, rfl, .pushNull memory l, h⟩
    | some item =>
      rcases push_cases fresh memory h item with ⟨v', hpush, hv'⟩ | ⟨hrefused, hpush⟩
      · exact ⟨_, _, _, by rw [perform, hpush]; rfl, .push memory l item, hv'⟩
      · exact ⟨_, _, _, by rw [perform, hpush]; rfl, .pushFails item hrefused, h⟩
  | delete index =>
    by_cases hindex : index.toNat < l.length
    · obtain ⟨v', hdelete, hv'⟩ := delete_of_lt fresh memory h hindex
      exact ⟨_, _, _, by rw [perform, hdelete]; rfl, .delete memory hindex, hv'⟩
    · have hge := Nat.not_lt.mp hindex
      exact ⟨_, _, _, by rw [perform, delete_of_ge h hge]; rfl, .deleteNone memory hge, h⟩
  | get index => exact ⟨_, _, _, by rw [perform, get_eq h]; rfl, .get memory l index, h⟩
  | total => exact ⟨_, _, _, rfl, .total memory h.total, h⟩

theorem run_refines {v : FpgaMetricVector α} {l : List α} (h : Represents v l)
    (cs : List (Bool × Call α)) : ∃ answers v' l', run fresh cs v = some (answers, v') ∧
      ListRun cs l answers l' ∧ Represents v' l' := by
  induction cs generalizing v l with
  | nil => exact ⟨[], v, l, rfl, .nil l, h⟩
  | cons c cs ih =>
    obtain ⟨answer, v', l', hperform, hstep, hv'⟩ := perform_refines fresh h c
    obtain ⟨answers, v'', l'', hrun, hrest, hv''⟩ := ih hv'
    refine ⟨answer :: answers, v'', l'', ?_, .cons hstep hrest, hv''⟩
    simp only [run, hperform, hrun, bind, Option.bind]
    rfl

theorem represents_init (fresh : Nat → Option α) :
    Represents (fpgaVectorInit fresh true).2 [] where
  slots := by
    have hroom : [].length (α := α) ≤ (8 * fpgaVectorCapacity).toNat / 8 := Nat.zero_le _
    obtain ⟨rest, hslots, hlen⟩ := exists_slotsOf fresh [] [] hroom
    exact ⟨rest, congrArg some hslots, hlen⟩
  total := rfl
  two_le := (by decide : 2 ≤ fpgaVectorCapacity.toNat)
  bytes_lt := (by decide : 8 * fpgaVectorCapacity.toNat < 2 ^ 63)

/-- A vector is a list under any calls: no slot outside of its block is touched, and whatever comes
of the memory it asks for, what it holds and answers is what the list does. -/
theorem vector_refines_list (fresh : Nat → Option α) (cs : List (Bool × Call α)) :
    (fpgaVectorInit fresh true).1 = .ok ∧
    ∃ answers v l, run fresh cs (fpgaVectorInit fresh true).2 = some (answers, v) ∧
      ListRun cs [] answers l ∧ Represents v l ∧ v.total ≤ v.capacity ∧ 2 ≤ v.capacity := by
  obtain ⟨answers, v, l, hrun, hlist, hv⟩ := run_refines (represents_init fresh) cs
  exact ⟨rfl, answers, v, l, hrun, hlist, hv, hv.total_le, UInt64.le_iff_toNat_le.mpr hv.two_le⟩

end Runs

end Lists

end OpaeLibs.PluginXfpga.VectorSlots
