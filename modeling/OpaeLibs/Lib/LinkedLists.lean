import OpaeLibs.Lib.Heap

namespace OpaeLibs.Lib.LinkedLists

open OpaeLibs.Lib.Heap

/-- A pointer to cells: a variable, or the one in a cell that points to the next. -/
inductive Link
  | var
  | next (i : Nat)
deriving DecidableEq

/-- The cells of singly linked lists, the pointers between them, and how many allocations were
tried. -/
structure CellLists (α : Type) where
  heap : Slots α
  links : Link → Option Nat
  calls : Nat

variable {α : Type}

/-- `mem` says which of the allocations succeed. The pointer of a new cell is not set. -/
def CellLists.malloc (mem : Nat → Bool) (a : α) (m : CellLists α) : Option Nat × CellLists α :=
  if mem m.calls then (some m.heap.next, { m with heap := m.heap.alloc a, calls := m.calls + 1 })
  else (none, { m with calls := m.calls + 1 })

def CellLists.fill (m : CellLists α) (i : Nat) (a : α) : CellLists α :=
  { m with heap := m.heap.set i a }

def CellLists.store (m : CellLists α) (l : Link) (p : Option Nat) : CellLists α :=
  { m with links := Function.update m.links l p }

/-- Follows the pointers from a link on to the one that is `NULL`. -/
def lastLink (links : Link → Option Nat) : Nat → Link → Option Link
  | 0, _ => none
  | fuel + 1, l =>
    match links l with
    | none => some l
    | some i => lastLink links fuel (.next i)

def CellLists.append (m : CellLists α) (l : Link) (i : Nat) : Option (CellLists α) :=
  (lastLink m.links (m.heap.next + 1) l).map fun last => m.store last (some i)

/-- Frees the cells one after the other; `none` if one of them is not allocated. -/
def freeCells : Nat → Option Nat → CellLists α → Option (CellLists α)
  | _, none, m => some m
  | 0, some _, _ => none
  | fuel + 1, some i, m =>
    (m.heap.get i).bind fun _ =>
      freeCells fuel (m.links (.next i)) { m with heap := m.heap.free i }

/-- The cells from a pointer on, and what is in them. -/
inductive Chain (m : CellLists α) : Option Nat → List Nat → List α → Prop
  | nil : Chain m none [] []
  | cons {i a is as} : m.heap.get i = some a → Chain m (m.links (.next i)) is as →
      Chain m (some i) (i :: is) (a :: as)

/-- The link behind the last of the cells. -/
def lastOf : Link → List Nat → Link
  | l, [] => l
  | _, i :: is => lastOf (.next i) is

/-- The link is one of the list. -/
def OnList (l : Link) (is : List Nat) : Prop := ∃ pre suf, is = pre ++ suf ∧ l = lastOf .var pre

section Chains

variable {m m' : CellLists α} {p : Option Nat} {is is' : List Nat} {as as' : List α} {l : Link}

theorem links_store_self (m : CellLists α) (l : Link) (p : Option Nat) :
    (m.store l p).links l = p :=
  Function.update_self ..

theorem links_store_of_ne (m : CellLists α) {l l' : Link} (h : l' ≠ l) (p : Option Nat) :
    (m.store l p).links l' = m.links l' := Function.update_of_ne h ..

theorem Chain.length_eq (h : Chain m p is as) : is.length = as.length := by
  induction h with
  | nil => rfl
  | cons _ _ ih => rw [List.length_cons, List.length_cons, ih]

theorem Chain.live (h : Chain m p is as) : ∀ i ∈ is, (m.heap.get i).isSome := by
  induction h with
  | nil => exact nofun
  | cons hget _ ih => exact List.forall_mem_cons.mpr ⟨by rw [hget]; rfl, ih⟩

theorem Chain.lt_next (h : Chain m p is as) : ∀ i ∈ is, i < m.heap.next := by
  intro i hi
  obtain ⟨a, ha⟩ := Option.isSome_iff_exists.mp (h.live i hi)
  exact Slots.lt_next ha

theorem Chain.unique (h : Chain m p is as) (h' : Chain m p is' as') : is = is' ∧ as = as' := by
  induction h generalizing is' as' with
  | nil =>
    cases h'
    exact ⟨rfl, rfl⟩
  | cons hget _ ih =>
    cases h' with
    | cons hget' hrest' =>
      obtain ⟨rfl, rfl⟩ := ih hrest'
      exact ⟨rfl, by rw [Option.some.inj (hget.symm.trans hget')]⟩

theorem Chain.from_mem (h : Chain m p is as) {i : Nat} (hi : i ∈ is) :
    ∃ pre suf as', is = pre ++ i :: suf ∧ Chain m (some i) (i :: suf) as' := by
  induction h with
  | nil => exact nomatch hi
  | cons hget hrest ih =>
    obtain rfl | hi := List.mem_cons.mp hi
    · exact ⟨[], _, _, rfl, .cons hget hrest⟩
    · obtain ⟨pre, suf, as', rfl, hchain⟩ := ih hi
      exact ⟨_ :: pre, suf, as', rfl, hchain⟩

theorem Chain.nodup (h : Chain m p is as) : is.Nodup := by
  induction h with
  | nil => exact List.nodup_nil
  | @cons i a is as hget hrest ih =>
    refine List.nodup_cons.mpr ⟨fun hi => ?_, ih⟩
    obtain ⟨pre, suf, as', rfl, hchain⟩ := hrest.from_mem hi
    have hlength := congrArg List.length (List.cons.inj (hchain.unique (.cons hget hrest)).1).2
    rw [List.length_append, List.length_cons] at hlength
    omega

theorem Chain.length_le (h : Chain m p is as) : is.length ≤ m.heap.next := by
  have hsub : is ⊆ List.range m.heap.next := fun i hi => List.mem_range.mpr (h.lt_next i hi)
  have hlength := (List.subperm_of_subset h.nodup hsub).length_le
  rwa [List.length_range] at hlength

theorem Chain.frame (h : Chain m p is as) (hget : ∀ i ∈ is, m'.heap.get i = m.heap.get i)
    (hlinks : ∀ i ∈ is, m'.links (.next i) = m.links (.next i)) : Chain m' p is as := by
  induction h with
  | nil => exact .nil
  | cons ha _ ih =>
    rw [List.forall_mem_cons] at hget hlinks
    refine .cons (hget.1.trans ha) ?_
    rw [hlinks.1]
    exact ih hget.2 hlinks.2

theorem lastOf_append (l : Link) (is is' : List Nat) :
    lastOf l (is ++ is') = lastOf (lastOf l is) is' := by
  induction is generalizing l with
  | nil => rfl
  | cons i is ih => exact ih (.next i)

theorem lastOf_concat (l : Link) (is : List Nat) (i : Nat) : lastOf l (is ++ [i]) = .next i := by
  rw [lastOf_append]
  rfl

theorem lastOf_cases (l : Link) (is : List Nat) :
    is = [] ∧ lastOf l is = l ∨ ∃ i ∈ is, lastOf l is = .next i := by
  induction is generalizing l with
  | nil => exact .inl ⟨rfl, rfl⟩
  | cons i is ih =>
    obtain ⟨rfl, -⟩ | ⟨j, hj, heq⟩ := ih (.next i)
    · exact .inr ⟨i, List.mem_cons_self, rfl⟩
    · exact .inr ⟨j, List.mem_cons_of_mem i hj, heq⟩

theorem onList_last (is : List Nat) : OnList (lastOf .var is) is :=
  ⟨is, [], (List.append_nil is).symm, rfl⟩

theorem OnList.append (h : OnList l is) (is' : List Nat) : OnList l (is ++ is') := by
  obtain ⟨pre, suf, rfl, hl⟩ := h
  exact ⟨pre, suf ++ is', List.append_assoc pre suf is', hl⟩

theorem lastLink_eq (h : Chain m (m.links l) is as) {fuel : Nat} (hfuel : is.length < fuel) :
    lastLink m.links fuel l = some (lastOf l is) := by
  induction is generalizing l as fuel with
  | nil =>
    cases fuel with
    | zero => exact absurd hfuel (Nat.not_lt_zero _)
    | succ fuel =>
      rw [lastLink]
      cases hl : m.links l with
      | none => rfl
      | some i =>
        rw [hl] at h
        exact nomatch h
  | cons i is ih =>
    cases fuel with
    | zero => exact absurd hfuel (Nat.not_lt_zero _)
    | succ fuel =>
      rw [lastLink]
      cases hl : m.links l with
      | none =>
        rw [hl] at h
        exact nomatch h
      | some j =>
        rw [hl] at h
        cases h with
        | cons _ hrest => exact ih hrest (Nat.lt_of_succ_lt_succ hfuel)

theorem Chain.rest (h : Chain m (m.links l) (is ++ is') as) :
    ∃ as', Chain m (m.links (lastOf l is)) is' as' := by
  induction is generalizing l as with
  | nil => exact ⟨as, h⟩
  | cons i is ih =>
    rw [List.cons_append] at h
    generalize m.links l = p at h
    cases h with
    | cons _ hrest => exact ih hrest

theorem Chain.store_last (h : Chain m (m.links l) is as) (hl : l ∉ is.map Link.next) {i : Nat}
    {a : α} (hget : m.heap.get i = some a) (hi : i ∉ is) (hne : l ≠ .next i)
    (hnext : m.links (.next i) = none) :
    let m' := m.store (lastOf l is) (some i)
    Chain m' (m'.links l) (is ++ [i]) (as ++ [a]) := by
  induction is generalizing l as with
  | nil =>
    generalize m.links l = p at h
    cases h
    dsimp only [lastOf]
    rw [links_store_self]
    refine .cons hget ?_
    rw [links_store_of_ne m hne.symm, hnext]
    exact .nil
  | cons j is ih =>
    have hnodup := List.nodup_cons.mp h.nodup
    obtain ⟨hij, hi⟩ := not_or.mp (mt List.mem_cons.mpr hi)
    rw [List.map_cons, List.mem_cons, not_or] at hl
    have hkeep : ∀ l', l' ≠ .next j → l' ∉ is.map Link.next →
        (m.store (lastOf l (j :: is)) (some i)).links l' = m.links l' := by
      intro l' hj hl'
      refine links_store_of_ne m (fun heq => ?_) _
      obtain ⟨-, hlast⟩ | ⟨k, hk, hlast⟩ := lastOf_cases (.next j) is
      · exact hj (heq.trans hlast)
      · exact hl' (heq.trans hlast ▸ List.mem_map_of_mem hk)
    dsimp only
    rw [hkeep l hl.1 hl.2]
    generalize m.links l = p at h
    cases h with
    | cons hj hrest =>
      refine .cons hj ?_
      refine ih hrest ?_ hi (fun heq => hij (Link.next.inj heq).symm)
      rintro hmem
      obtain ⟨k, hk, heq⟩ := List.mem_map.mp hmem
      exact hnodup.1 (Link.next.inj heq ▸ hk)

/-- A new cell is put behind the last one of a list, from whichever of its links the end is looked
for. -/
theorem append_eq (h : Chain m (m.links .var) is as) (hl : OnList l is) {i : Nat} {a : α}
    (hget : m.heap.get i = some a) (hi : i ∉ is) (hnext : m.links (.next i) = none) :
    m.append l i = some (m.store (lastOf .var is) (some i)) ∧
      Chain (m.store (lastOf .var is) (some i))
        ((m.store (lastOf .var is) (some i)).links .var) (is ++ [i]) (as ++ [a]) := by
  refine ⟨?_, h.store_last (fun hmem => ?_) hget hi nofun hnext⟩
  · have hlength := h.length_le
    obtain ⟨pre, suf, rfl, rfl⟩ := hl
    obtain ⟨as', hrest⟩ := h.rest
    rw [List.length_append] at hlength
    rw [CellLists.append, lastLink_eq hrest (by omega), ← lastOf_append]
    rfl
  · obtain ⟨_, _, heq⟩ := List.mem_map.mp hmem
    exact nomatch heq

def CellLists.cell (m : CellLists α) (a : α) : CellLists α :=
  ⟨m.heap.alloc a, Function.update m.links (.next m.heap.next) none, m.calls + 1⟩

theorem fill_malloc (m : CellLists α) (a b : α) :
    (({ m with heap := m.heap.alloc a, calls := m.calls + 1 } : CellLists α).fill m.heap.next
      b).store (.next m.heap.next) none = m.cell b := by
  rw [CellLists.fill, CellLists.store, Slots.set_alloc_next]
  rfl

theorem get_cell (m : CellLists α) (a : α) (i : Nat) :
    (m.cell a).heap.get i = if i = m.heap.next then some a else m.heap.get i :=
  Slots.get_alloc m.heap a i

theorem Chain.ne_next (h : Chain m p is as) {i : Nat} (hi : i ∈ is) : i ≠ m.heap.next :=
  Nat.ne_of_lt (h.lt_next i hi)

theorem links_cell (m : CellLists α) (a : α) {l : Link} (hl : l ≠ .next m.heap.next) :
    (m.cell a).links l = m.links l := Function.update_of_ne hl ..

theorem Chain.cell (h : Chain m p is as) (a : α) : Chain (m.cell a) p is as := by
  apply h.frame
  · intro i hi
    rw [get_cell, if_neg (h.ne_next hi)]
  · intro i hi
    exact links_cell m a fun heq => h.ne_next hi (Link.next.inj heq)

theorem append_cell (h : Chain m (m.links .var) is as) (hl : OnList l is) (a : α) :
    ∃ m', (m.cell a).append l m.heap.next = some m' ∧ m'.calls = m.calls + 1 ∧
      Chain m' (m'.links .var) (is ++ [m.heap.next]) (as ++ [a]) := by
  have hchain : Chain (m.cell a) ((m.cell a).links .var) is as := by
    have hvar : (m.cell a).links .var = m.links .var := links_cell m a nofun
    rw [hvar]
    exact h.cell a
  obtain ⟨happend, hchain'⟩ := append_eq hchain hl (get_cell m a _ |>.trans (if_pos rfl))
    (fun hi => h.ne_next hi rfl) (Function.update_self ..)
  exact ⟨_, happend, rfl, hchain'⟩

theorem freeCells_eq (h : Chain m p is as) {fuel : Nat} (hfuel : is.length ≤ fuel) :
    ∃ m', freeCells fuel p m = some m' ∧ m'.links = m.links ∧ m'.heap.next = m.heap.next ∧
      ∀ j, m'.heap.get j = if j ∈ is then none else m.heap.get j := by
  induction is generalizing m p as fuel with
  | nil =>
    cases h
    exact ⟨m, by rw [freeCells], rfl, rfl, fun j => (if_neg List.not_mem_nil).symm⟩
  | cons i is ih =>
    obtain ⟨fuel, rfl⟩ : ∃ n, fuel = n + 1 :=
      Nat.exists_eq_add_one.mpr (Nat.lt_of_lt_of_le (Nat.succ_pos _) hfuel)
    have hnodup := List.nodup_cons.mp h.nodup
    cases h with
    | cons hget hrest =>
      have hkeep : ∀ j ∈ is, (m.heap.free i).get j = m.heap.get j := by
        intro j hj
        rw [Slots.get_free hget, if_neg fun heq : j = i => hnodup.1 (heq ▸ hj)]
      have hchain : Chain { m with heap := m.heap.free i } (m.links (.next i)) is _ :=
        hrest.frame hkeep fun _ _ => rfl
      obtain ⟨m', hfree, hlinks, hnext, hget'⟩ := ih hchain (Nat.le_of_succ_le_succ hfuel)
      refine ⟨m', ?_, hlinks, hnext.trans (Slots.next_free m.heap i), fun j => ?_⟩
      · rw [freeCells, hget, Option.bind_some]
        exact hfree
      · rw [hget', Slots.get_free hget]
        by_cases hji : j = i
        · simp [hji]
        · simp [hji]

end Chains

section Rings

/-- A pointer to the head of a ring or to one of its nodes. -/
inductive Ptr (H : Type)
  | head (h : H)
  | node (i : Nat)
deriving DecidableEq

/-- The nodes of doubly linked rings, and what their heads hold; the heads are not on the heap. -/
structure RingNodes (H α : Type) where
  heap : Slots α
  heads : H → α
  prev : Ptr H → Ptr H
  next : Ptr H → Ptr H

namespace RingNodes

variable {H : Type}

/-- What is at a pointer; `none` if the node is not allocated. -/
def val (m : RingNodes H α) : Ptr H → Option α
  | .head h => some (m.heads h)
  | .node i => m.heap.get i

def getPrev (m : RingNodes H α) (p : Ptr H) : Option (Ptr H) := (m.val p).map fun _ => m.prev p

def getNext (m : RingNodes H α) (p : Ptr H) : Option (Ptr H) := (m.val p).map fun _ => m.next p

def setPrev [DecidableEq H] (m : RingNodes H α) (p q : Ptr H) : Option (RingNodes H α) :=
  (m.val p).map fun _ => { m with prev := Function.update m.prev p q }

def setNext [DecidableEq H] (m : RingNodes H α) (p q : Ptr H) : Option (RingNodes H α) :=
  (m.val p).map fun _ => { m with next := Function.update m.next p q }

def alloc (m : RingNodes H α) (a : α) : RingNodes H α := { m with heap := m.heap.alloc a }

/-- `none` if there is no such node, as when it has been freed. -/
def write (m : RingNodes H α) : Ptr H → α → Option (RingNodes H α)
  | .head _, _ => none
  | .node i, a => (m.heap.get i).map fun _ => { m with heap := m.heap.set i a }

def free (m : RingNodes H α) : Ptr H → Option (RingNodes H α)
  | .head _ => none
  | .node i => (m.heap.get i).map fun _ => { m with heap := m.heap.free i }

/-- `a` between `b` and what was before it. -/
def insertBefore [DecidableEq H] (m : RingNodes H α) (a b : Ptr H) : RingNodes H α :=
  { m with
    prev := Function.update (Function.update m.prev a (m.prev b)) b a
    next := Function.update (Function.update m.next a b) (m.prev b) a }

def bypass [DecidableEq H] (m : RingNodes H α) (x : Ptr H) : RingNodes H α :=
  { m with
    prev := Function.update m.prev (m.next x) (m.prev x)
    next := Function.update m.next (m.prev x) (m.next x) }

theorem val_mk (m : RingNodes H α) (prev next : Ptr H → Ptr H) (p : Ptr H) :
    (RingNodes.mk m.heap m.heads prev next).val p = m.val p := by
  cases p <;> rfl

@[simp] theorem heap_insertBefore [DecidableEq H] (m : RingNodes H α) (a b : Ptr H) :
    (m.insertBefore a b).heap = m.heap := rfl

@[simp] theorem heap_bypass [DecidableEq H] (m : RingNodes H α) (x : Ptr H) :
    (m.bypass x).heap = m.heap := rfl

def Joined (m : RingNodes H α) (p q : Ptr H) : Prop := m.next p = q ∧ m.prev q = p

/-- Nodes that lead from one pointer to another, in both directions. -/
def Path (m : RingNodes H α) : Ptr H → List Nat → Ptr H → Prop
  | p, [], q => m.Joined p q
  | p, i :: is, q => m.Joined p (.node i) ∧ m.Path (.node i) is q

end RingNodes

section Paths

open RingNodes

variable {H : Type} {m m' : RingNodes H α} {p q : Ptr H} {is js : List Nat} {i : Nat}

theorem path_append_cons :
    m.Path p (is ++ i :: js) q ↔ m.Path p is (.node i) ∧ m.Path (.node i) js q := by
  induction is generalizing p with
  | nil => rfl
  | cons j is ih => rw [List.cons_append, RingNodes.Path, ih, RingNodes.Path, and_assoc]

/-- The nodes of a path are read forwards through the links of all but the last and backwards
through those of all but the first. -/
theorem RingNodes.Path.frame (h : m.Path p is q)
    (hnext : ∀ x ∈ p :: is.map Ptr.node, m'.next x = m.next x)
    (hprev : ∀ x ∈ q :: is.map Ptr.node, m'.prev x = m.prev x) : m'.Path p is q := by
  induction is generalizing p with
  | nil =>
    exact ⟨(hnext p List.mem_cons_self).trans h.1, (hprev q List.mem_cons_self).trans h.2⟩
  | cons i is ih =>
    obtain ⟨⟨hp, hi⟩, hrest⟩ := h
    simp only [List.map_cons, List.mem_cons, forall_eq_or_imp] at hnext hprev
    refine ⟨⟨hnext.1.trans hp, hprev.2.1.trans hi⟩, ih hrest ?_ ?_⟩
    · exact List.forall_mem_cons.mpr hnext.2
    · exact List.forall_mem_cons.mpr ⟨hprev.1, hprev.2.2⟩

theorem RingNodes.Path.prev_mem (h : m.Path p is q) : m.prev q ∈ p :: is.map Ptr.node := by
  induction is generalizing p with
  | nil =>
    rw [h.2]
    exact List.mem_cons_self
  | cons i is ih => exact List.mem_cons_of_mem p (ih h.2)

theorem RingNodes.Path.next_mem (h : m.Path p is q) : m.next p ∈ q :: is.map Ptr.node := by
  cases is with
  | nil =>
    rw [h.1]
    exact List.mem_cons_self
  | cons i is =>
    rw [h.1.1]
    simp

theorem RingNodes.Path.insertBefore [DecidableEq H] (h : m.Path p is q) {a : Nat}
    (hp : p ∉ is.map Ptr.node) (hq : q ∉ is.map Ptr.node) (hnodup : is.Nodup)
    (hap : .node a ≠ p) (haq : .node a ≠ q) (ha : a ∉ is) :
    (m.insertBefore (.node a) q).Path p (is ++ [a]) q := by
  induction is generalizing p with
  | nil =>
    have hprev : m.prev q = p := h.2
    refine ⟨⟨?_, ?_⟩, ?_, ?_⟩
    · simp [RingNodes.insertBefore, hprev]
    · simp [RingNodes.insertBefore, haq, hprev]
    · simp [RingNodes.insertBefore, hprev, hap]
    · simp [RingNodes.insertBefore]
  | cons i is ih =>
    obtain ⟨hi, hnodup⟩ := List.nodup_cons.mp hnodup
    obtain ⟨⟨hnext, hprev⟩, hrest⟩ := h
    simp only [List.map_cons, List.mem_cons, not_or] at hp hq ha
    have hlast : p ≠ m.prev q := by
      rintro rfl
      obtain heq | hmem := List.mem_cons.mp hrest.prev_mem
      · exact hp.1 heq
      · exact hp.2 hmem
    refine ⟨⟨?_, ?_⟩, ?_⟩
    · simp [RingNodes.insertBefore, hlast, hap.symm, hnext]
    · have hia : (Ptr.node i : Ptr H) ≠ .node a := fun heq => ha.1 (Ptr.node.inj heq).symm
      simp [RingNodes.insertBefore, Ne.symm hq.1, hia, hprev]
    · refine ih hrest ?_ hq.2 hnodup (fun heq => ha.1 (Ptr.node.inj heq)) ha.2
      simpa using hi

theorem RingNodes.Path.bypass [DecidableEq H] (h : m.Path p is (.node i))
    (h' : m.Path (.node i) js q) (hp : p ∉ (is ++ js).map Ptr.node)
    (hq : q ∉ (is ++ js).map Ptr.node) (hnodup : (is ++ js).Nodup) (hi : i ∉ is ++ js)
    (hip : .node i ≠ p) :
    (m.bypass (.node i)).Path p (is ++ js) q := by
  induction is generalizing p with
  | nil =>
    obtain ⟨hnext, hprev⟩ : m.Joined p (.node i) := h
    cases js with
    | nil =>
      have hend : m.next (.node i) = q := h'.1
      exact ⟨by simp [RingNodes.bypass, hprev, hend], by simp [RingNodes.bypass, hprev, hend]⟩
    | cons j js =>
      obtain ⟨⟨hnext', hprev'⟩, hrest⟩ := h'
      simp only [List.nil_append, List.map_cons, List.mem_cons, not_or] at hp hq hi
      obtain ⟨hj, -⟩ := List.nodup_cons.mp hnodup
      have hjoined : (m.bypass (.node i)).Joined p (.node j) :=
        ⟨by simp [RingNodes.bypass, hprev, hnext'], by simp [RingNodes.bypass, hprev, hnext']⟩
      refine ⟨hjoined, hrest.frame ?_ ?_⟩
      · intro x hx
        have hxp : x ≠ m.prev (.node i) := by
          rw [hprev]
          rintro rfl
          obtain heq | hmem := List.mem_cons.mp hx
          · exact hp.1 heq
          · exact hp.2 hmem
        simp [RingNodes.bypass, hxp]
      · intro x hx
        have hxj : x ≠ m.next (.node i) := by
          rw [hnext']
          rintro rfl
          obtain heq | hmem := List.mem_cons.mp hx
          · exact hq.1 heq.symm
          · exact hj (by simpa using hmem)
        simp [RingNodes.bypass, hxj]
  | cons k is ih =>
    obtain ⟨⟨hnext, hprev⟩, hrest⟩ := h
    rw [List.cons_append] at hp hq hnodup hi
    obtain ⟨hk, hnodup⟩ := List.nodup_cons.mp hnodup
    simp only [List.map_cons, List.mem_cons, not_or] at hp hq hi
    have hkeep : p ≠ m.prev (.node i) := by
      rintro rfl
      obtain heq | hmem := List.mem_cons.mp hrest.prev_mem
      · exact hp.1 heq
      · exact hp.2 (by simpa using Or.inl (by simpa using hmem))
    have hkeep' : (.node k : Ptr H) ≠ m.next (.node i) := by
      intro heq
      obtain heq' | hmem := List.mem_cons.mp h'.next_mem
      · exact hq.1 (heq'.symm.trans heq.symm)
      · rw [← heq] at hmem
        exact hk (List.mem_append_right is (by simpa using hmem))
    have hjoined : (m.bypass (.node i)).Joined p (.node k) :=
      ⟨by simp [RingNodes.bypass, hkeep, hnext], by simp [RingNodes.bypass, hkeep', hprev]⟩
    refine ⟨hjoined, ?_⟩
    refine ih hrest ?_ hq.2 hnodup hi.2 (fun heq => hi.1 (Ptr.node.inj heq))
    simpa using hk

end Paths

/-- Where a ring goes on: at a node, or back at its head. -/
def entry {H : Type} (h : H) : List (Nat × α) → Ptr H
  | [] => .head h
  | n :: _ => .node n.1

def spots {H : Type} (h : H) (ns : List (Nat × α)) : List (Ptr H) :=
  .head h :: (ns.map Prod.fst).map Ptr.node

/-- Each ring runs through its nodes and back to its head, no node is on a ring twice or on two of
them, and those that are allocated are on a ring, or are the loose one. -/
structure Holds {H : Type} (m : RingNodes H α) (rings : H → List (Nat × α))
    (loose : Option (Nat × α)) : Prop where
  path : ∀ h, m.Path (.head h) ((rings h).map Prod.fst) (.head h)
  nodup : ∀ h, ((rings h).map Prod.fst).Nodup
  apart : ∀ h h' i, i ∈ (rings h).map Prod.fst → i ∈ (rings h').map Prod.fst → h = h'
  off : ∀ h i a, loose = some (i, a) → i ∉ (rings h).map Prod.fst
  get : ∀ i a, m.heap.get i = some a ↔ (∃ h, (i, a) ∈ rings h) ∨ loose = some (i, a)

section Holds

open RingNodes

variable {H : Type} {m : RingNodes H α} {rings : H → List (Nat × α)}
variable {loose : Option (Nat × α)} {h : H} {pre suf ns : List (Nat × α)} {p q : Ptr H} {i : Nat}
variable {a b : α}

@[simp] theorem entry_nil (h : H) : entry h ([] : List (Nat × α)) = .head h := rfl

@[simp] theorem entry_cons (h : H) (n : Nat × α) (ns : List (Nat × α)) :
    entry h (n :: ns) = .node n.1 := rfl

theorem entry_mem_spots (h : H) (ns : List (Nat × α)) : entry h ns ∈ spots h ns := by
  cases ns <;> simp [spots]

theorem spots_subset {ns' : List (Nat × α)} (hsub : ns ⊆ ns') : spots h ns ⊆ spots h ns' :=
  List.cons_subset_cons _ (List.map_subset _ (List.map_subset _ hsub))

theorem node_mem_spots : .node i ∈ spots h ns ↔ i ∈ ns.map Prod.fst := by
  simp [spots]

theorem RingNodes.Path.next_eq_entry (hpath : m.Path p (ns.map Prod.fst) (.head h)) :
    m.next p = entry h ns := by
  cases ns with
  | nil => exact hpath.1
  | cons n ns => exact hpath.1.1

theorem RingNodes.Path.prev_eq_entry (hpath : m.Path (.head h) (ns.map Prod.fst) q) :
    m.prev q = entry h ns.reverse := by
  obtain rfl | ⟨ns, n, rfl⟩ := List.eq_nil_or_concat ns
  · exact hpath.2
  · rw [List.concat_eq_append, List.map_append, List.map_singleton] at hpath
    rw [List.concat_eq_append, List.reverse_append]
    exact (path_append_cons.mp hpath).2.2

theorem Holds.spot_unique (hm : Holds m rings loose) {h' : H} {x : Ptr H}
    (hx : x ∈ spots h (rings h)) (hx' : x ∈ spots h' (rings h')) : h = h' := by
  cases x with
  | head k =>
    simp only [spots, List.mem_cons, List.mem_map, reduceCtorEq, and_false, exists_false,
      or_false, Ptr.head.injEq] at hx hx'
    exact hx.symm.trans hx'
  | node i => exact hm.apart h h' i (node_mem_spots.mp hx) (node_mem_spots.mp hx')

theorem Holds.next_head (hm : Holds m rings loose) (h : H) :
    m.next (.head h) = entry h (rings h) := (hm.path h).next_eq_entry

theorem Holds.path_split (hm : Holds m rings loose) (hr : rings h = pre ++ (i, a) :: suf) :
    m.Path (.head h) (pre.map Prod.fst) (.node i) ∧
      m.Path (.node i) (suf.map Prod.fst) (.head h) := by
  have hpath := hm.path h
  rw [hr, List.map_append, List.map_cons] at hpath
  exact path_append_cons.mp hpath

theorem Holds.next_node (hm : Holds m rings loose) (hr : rings h = pre ++ (i, a) :: suf) :
    m.next (.node i) = entry h suf := (hm.path_split hr).2.next_eq_entry

theorem Holds.prev_node (hm : Holds m rings loose) (hr : rings h = pre ++ (i, a) :: suf) :
    m.prev (.node i) = entry h pre.reverse := (hm.path_split hr).1.prev_eq_entry

theorem Holds.prev_entry (hm : Holds m rings loose) (hr : rings h = pre ++ suf) :
    m.prev (entry h suf) = entry h pre.reverse := by
  cases suf with
  | nil =>
    rw [List.append_nil] at hr
    have hpath := hm.path h
    rw [hr] at hpath
    exact hpath.prev_eq_entry
  | cons n suf => exact hm.prev_node hr

theorem entry_mem {rings : H → List (Nat × α)} (hr : rings h = pre ++ suf) :
    entry h suf ∈ spots h (rings h) := by
  rw [hr]
  exact spots_subset (List.subset_append_right ..) (entry_mem_spots h suf)

theorem Holds.prev_entry_mem (hm : Holds m rings loose) (hr : rings h = pre ++ suf) :
    m.prev (entry h suf) ∈ spots h (rings h) := by
  rw [hm.prev_entry hr, hr]
  refine spots_subset ?_ (entry_mem_spots h pre.reverse)
  exact fun n hn => List.mem_append_left suf (List.mem_reverse.mp hn)

theorem Holds.next_node_mem (hm : Holds m rings loose) (hr : rings h = pre ++ (i, a) :: suf) :
    m.next (.node i) ∈ spots h (rings h) := by
  rw [hm.next_node hr]
  exact entry_mem (hr.trans (List.append_cons pre _ suf))

theorem Holds.prev_node_mem (hm : Holds m rings loose) (hr : rings h = pre ++ (i, a) :: suf) :
    m.prev (.node i) ∈ spots h (rings h) := hm.prev_entry_mem hr

theorem Holds.get_of_mem (hm : Holds m rings loose) (hn : (i, a) ∈ rings h) :
    m.heap.get i = some a := (hm.get i a).mpr (.inl ⟨h, hn⟩)

theorem Holds.get_loose (hm : Holds m rings (some (i, a))) : m.heap.get i = some a :=
  (hm.get i a).mpr (.inr rfl)

theorem Holds.val_spot (hm : Holds m rings loose) {x : Ptr H} (hx : x ∈ spots h (rings h)) :
    ∃ v, m.val x = some v := by
  cases x with
  | head k => exact ⟨m.heads k, rfl⟩
  | node i =>
    obtain ⟨n, hn, rfl⟩ := List.mem_map.mp (node_mem_spots.mp hx)
    exact ⟨n.2, hm.get_of_mem hn⟩

theorem Holds.length_le (hm : Holds m rings loose) (h : H) : (rings h).length ≤ m.heap.next := by
  have hsub : (rings h).map Prod.fst ⊆ List.range m.heap.next := by
    intro i hi
    obtain ⟨n, hn, rfl⟩ := List.mem_map.mp hi
    exact List.mem_range.mpr (Slots.lt_next (hm.get_of_mem hn))
  have hlength := (List.subperm_of_subset (hm.nodup h) hsub).length_le
  rwa [List.length_map, List.length_range] at hlength

theorem Holds.alloc (hm : Holds m rings none) (a : α) :
    Holds (m.alloc a) rings (some (m.heap.next, a)) := by
  have hnew : ∀ h, m.heap.next ∉ (rings h).map Prod.fst := by
    intro h hmem
    obtain ⟨n, hn, heq⟩ := List.mem_map.mp hmem
    have hlt := Slots.lt_next (hm.get_of_mem hn)
    omega
  refine ⟨fun h => (hm.path h).frame (fun _ _ => rfl) fun _ _ => rfl, hm.nodup, hm.apart,
    fun h i b hi => ?_, fun i b => ?_⟩
  · obtain ⟨rfl, -⟩ := Prod.mk.inj (Option.some.inj hi)
    exact hnew h
  · rw [RingNodes.alloc, Slots.get_alloc]
    by_cases hi : i = m.heap.next
    · subst hi
      simp only [if_true, Option.some.injEq, Prod.mk.injEq, true_and]
      refine ⟨.inr, fun hor => hor.resolve_left ?_⟩
      rintro ⟨h, hmem⟩
      exact hnew h (List.mem_map_of_mem hmem)
    · rw [if_neg hi, hm.get]
      simp [Ne.symm hi]

theorem Holds.relink (hm : Holds m rings (some (i, a))) {prev next : Ptr H → Ptr H}
    (hprev : ∀ x, x ≠ .node i → prev x = m.prev x) (hnext : ∀ x, x ≠ .node i → next x = m.next x) :
    Holds ⟨m.heap, m.heads, prev, next⟩ rings (some (i, a)) := by
  have hnew : ∀ k, ∀ x ∈ spots k (rings k), x ≠ .node i := by
    rintro k x hx rfl
    exact hm.off k i a rfl (node_mem_spots.mp hx)
  refine ⟨fun k => ?_, hm.nodup, hm.apart, hm.off, hm.get⟩
  exact (hm.path k).frame (fun x hx => hnext x (hnew k x hx)) fun x hx => hprev x (hnew k x hx)

theorem Holds.free (hm : Holds m rings (some (i, a))) :
    ∃ m', m.free (.node i) = some m' ∧ Holds m' rings none := by
  have hget := hm.get_loose
  refine ⟨{ m with heap := m.heap.free i }, by rw [RingNodes.free, hget]; rfl,
    fun h => (hm.path h).frame (fun _ _ => rfl) fun _ _ => rfl, hm.nodup, hm.apart,
    fun _ _ _ hn => ?_, fun j b => ?_⟩
  · exact absurd hn (Option.some_ne_none _).symm
  · dsimp only
    rw [Slots.get_free hget]
    by_cases hj : j = i
    · subst hj
      simp only [if_true, reduceCtorEq, or_false, false_iff, not_exists]
      intro h hmem
      exact hm.off h j a rfl (List.mem_map_of_mem (f := Prod.fst) hmem)
    · rw [if_neg hj, hm.get]
      simp [Ne.symm hj]

theorem Holds.notMem_rest (hm : Holds m rings loose) (hr : rings h = pre ++ (i, a) :: suf) :
    i ∉ (pre ++ suf).map Prod.fst := by
  have hnodup := hm.nodup h
  rw [hr, List.map_append, List.map_cons, List.nodup_middle, ← List.map_append] at hnodup
  exact (List.nodup_cons.mp hnodup).1

theorem Holds.nodup_rest (hm : Holds m rings loose) (hr : rings h = pre ++ (i, a) :: suf) :
    ((pre ++ suf).map Prod.fst).Nodup := by
  have hnodup := hm.nodup h
  rw [hr, List.map_append, List.map_cons, List.nodup_middle, ← List.map_append] at hnodup
  exact (List.nodup_cons.mp hnodup).2

theorem exists_mem_update [DecidableEq H] {n : Nat × α} :
    (∃ k, n ∈ Function.update rings h ns k) ↔ n ∈ ns ∨ ∃ k, k ≠ h ∧ n ∈ rings k := by
  constructor
  · rintro ⟨k, hk⟩
    by_cases hkh : k = h
    · subst hkh
      exact .inl (by simpa using hk)
    · exact .inr ⟨k, hkh, by simpa [hkh] using hk⟩
  · rintro (hn | ⟨k, hkh, hn⟩)
    · exact ⟨h, by simpa using hn⟩
    · exact ⟨k, by simpa [hkh] using hn⟩

theorem exists_mem_iff (rings : H → List (Nat × α)) (h : H) (n : Nat × α) :
    (∃ k, n ∈ rings k) ↔ n ∈ rings h ∨ ∃ k, k ≠ h ∧ n ∈ rings k := by
  constructor
  · rintro ⟨k, hk⟩
    by_cases hkh : k = h
    · exact .inl (hkh ▸ hk)
    · exact .inr ⟨k, hkh, hk⟩
  · rintro (hn | ⟨k, -, hn⟩)
    · exact ⟨h, hn⟩
    · exact ⟨k, hn⟩

theorem Holds.write [DecidableEq H] (hm : Holds m rings loose) (hr : rings h = pre ++ (i, a) :: suf)
    (b : α) :
    ∃ m', m.write (.node i) b = some m' ∧
      Holds m' (Function.update rings h (pre ++ (i, b) :: suf)) loose := by
  have hmem : (i, a) ∈ rings h := by simp [hr]
  have hget := hm.get_of_mem hmem
  have hids : ∀ k, (Function.update rings h (pre ++ (i, b) :: suf) k).map Prod.fst =
      (rings k).map Prod.fst := by
    intro k
    by_cases hk : k = h
    · subst hk
      simp [hr]
    · rw [Function.update_of_ne hk]
  refine ⟨{ m with heap := m.heap.set i b }, by rw [RingNodes.write, hget]; rfl, fun k => ?_,
    fun k => ?_, fun k k' j => ?_,
    fun k j c hn => ?_, fun j c => ?_⟩
  · rw [hids]
    exact (hm.path k).frame (fun _ _ => rfl) fun _ _ => rfl
  · rw [hids]
    exact hm.nodup k
  · rw [hids, hids]
    exact hm.apart k k' j
  · rw [hids]
    exact hm.off k j c hn
  · dsimp only
    rw [Slots.get_set hget, exists_mem_update]
    by_cases hj : j = i
    · subst hj
      rw [if_pos rfl, Option.some.injEq]
      refine ⟨fun heq => .inl (.inl (by simp [heq])), ?_⟩
      rintro ((hn | ⟨k, hkh, hn⟩) | hn)
      · obtain hn | hn | hn := by simpa [or_left_comm] using hn
        · exact hn.symm
        · exact absurd (List.mem_map_of_mem (f := Prod.fst) (List.mem_append_left suf hn))
            (hm.notMem_rest hr)
        · exact absurd (List.mem_map_of_mem (f := Prod.fst) (List.mem_append_right pre hn))
            (hm.notMem_rest hr)
      · exact absurd (hm.apart k h j (List.mem_map_of_mem (f := Prod.fst) hn)
          (List.mem_map_of_mem (f := Prod.fst) hmem)) hkh
      · exact absurd (List.mem_map_of_mem (f := Prod.fst) hmem) (hm.off h j c hn)
    · rw [if_neg hj, hm.get, exists_mem_iff rings h, hr]
      simp [hj]

theorem apart_update [DecidableEq H]
    (hapart : ∀ h h' i, i ∈ (rings h).map Prod.fst → i ∈ (rings h').map Prod.fst → h = h')
    (hns : ∀ k, k ≠ h → ∀ j ∈ ns.map Prod.fst, j ∉ (rings k).map Prod.fst) (k k' : H) (j : Nat)
    (hk : j ∈ (Function.update rings h ns k).map Prod.fst)
    (hk' : j ∈ (Function.update rings h ns k').map Prod.fst) : k = k' := by
  by_cases hkh : k = h
  · subst hkh
    by_contra hne
    rw [Function.update_self] at hk
    rw [Function.update_of_ne (Ne.symm hne)] at hk'
    exact hns k' (Ne.symm hne) j hk hk'
  · rw [Function.update_of_ne hkh] at hk
    by_cases hkh' : k' = h
    · subst hkh'
      rw [Function.update_self] at hk'
      exact absurd hk (hns k hkh j hk')
    · rw [Function.update_of_ne hkh'] at hk'
      exact hapart k k' j hk hk'

theorem Holds.insertBefore [DecidableEq H] (hm : Holds m rings (some (i, a)))
    (hr : rings h = pre ++ suf) :
    Holds (m.insertBefore (.node i) (entry h suf))
      (Function.update rings h (pre ++ (i, a) :: suf)) none := by
  have hoff := fun k => hm.off k i a rfl
  have hnodup := hm.nodup h
  have hsuf := entry_mem hr
  have hpre := hm.prev_entry_mem hr
  have hnew : ∀ k, ∀ x ∈ spots k (rings k), x ≠ .node i := by
    rintro k x hx rfl
    exact hoff k (node_mem_spots.mp hx)
  refine ⟨fun k => ?_, fun k => ?_, fun k k' j => ?_, (by simp), fun j c => ?_⟩
  · by_cases hk : k = h
    · subst hk
      rw [Function.update_self]
      have hi := hoff k
      cases suf with
      | nil =>
        rw [List.append_nil] at hr
        have hpath := hm.path k
        rw [hr] at hpath hnodup hi
        rw [List.map_append, List.map_singleton]
        exact hpath.insertBefore (by simp) (by simp) hnodup (by simp) (by simp) hi
      | cons n suf =>
        obtain ⟨hpath, hrest⟩ := hm.path_split hr
        rw [hr, List.map_append, List.map_cons] at hnodup hi
        obtain ⟨hpre', hsuf', hdisj⟩ := List.nodup_append.mp hnodup
        obtain ⟨hn, -⟩ := List.nodup_cons.mp hsuf'
        simp only [List.mem_append, List.mem_cons, not_or] at hi
        have hsplit : (pre ++ (i, a) :: n :: suf).map Prod.fst =
            (pre.map Prod.fst ++ [i]) ++ n.1 :: suf.map Prod.fst := by simp
        rw [hsplit]
        refine path_append_cons.mpr ⟨hpath.insertBefore (by simp) ?_ hpre' (by simp) ?_ hi.1,
          hrest.frame (fun x hx => ?_) fun x hx => ?_⟩
        · rintro hmem
          obtain ⟨j, hj, heq⟩ := List.mem_map.mp hmem
          exact hdisj j hj n.1 List.mem_cons_self (Ptr.node.inj heq)
        · exact fun heq => hi.2.1 (Ptr.node.inj heq)
        · have hxs : ∃ j ∈ n.1 :: suf.map Prod.fst, x = .node j := by
            rw [← List.map_cons] at hx
            obtain ⟨j, hj, rfl⟩ := List.mem_map.mp hx
            exact ⟨j, hj, rfl⟩
          obtain ⟨j, hj, rfl⟩ := hxs
          have hji : j ≠ i := by
            rintro rfl
            exact not_or.mpr hi.2 (List.mem_cons.mp hj)
          have hlast : .node j ≠ m.prev (.node n.1) := by
            intro heq
            have hmem := hpath.prev_mem
            rw [← heq] at hmem
            obtain ⟨j', hj', heq'⟩ :=
              List.mem_map.mp ((List.mem_cons.mp hmem).resolve_left (by simp))
            exact hdisj j' hj' j hj (Ptr.node.inj heq')
          simp [RingNodes.insertBefore, hji, hlast]
        · obtain rfl | hx := List.mem_cons.mp hx
          · simp [RingNodes.insertBefore]
          · obtain ⟨j, hj, rfl⟩ := List.mem_map.mp hx
            have hji : j ≠ i := by
              rintro rfl
              exact hi.2.2 hj
            have hjn : j ≠ n.1 := by
              rintro rfl
              exact hn hj
            simp [RingNodes.insertBefore, hji, hjn]
    · rw [Function.update_of_ne hk]
      refine (hm.path k).frame (fun x hx => ?_) fun x hx => ?_
      · have hne : x ≠ m.prev (entry h suf) := by
          rintro rfl
          exact hk (hm.spot_unique hx hpre)
        simp [RingNodes.insertBefore, hnew k x hx, hne]
      · have hne : x ≠ entry h suf := by
          rintro rfl
          exact hk (hm.spot_unique hx hsuf)
        simp [RingNodes.insertBefore, hnew k x hx, hne]
  · by_cases hk : k = h
    · subst hk
      rw [Function.update_self, List.map_append, List.map_cons, List.nodup_middle,
        ← List.map_append, ← hr]
      exact List.nodup_cons.mpr ⟨hoff k, hnodup⟩
    · rw [Function.update_of_ne hk]
      exact hm.nodup k
  · refine apart_update hm.apart (fun k hk j hj => ?_) k k' j
    obtain rfl | hj : j = i ∨ j ∈ (rings h).map Prod.fst := by
      rw [hr]
      simpa [or_left_comm] using hj
    · exact hoff k
    · exact fun hj' => hk (hm.apart k h j hj' hj)
  · have hget := hm.get j c
    rw [exists_mem_iff rings h, hr] at hget
    rw [exists_mem_update]
    rw [RingNodes.heap_insertBefore]
    have hpair : some (i, a) = some (j, c) ↔ (j, c) = (i, a) := by rw [Option.some.injEq, eq_comm]
    rw [hget, hpair]
    simp only [List.mem_append, List.mem_cons, reduceCtorEq, or_false]
    simp only [or_assoc, or_comm, or_left_comm]

theorem Holds.bypass [DecidableEq H] (hm : Holds m rings none)
    (hr : rings h = pre ++ (i, a) :: suf) :
    Holds (m.bypass (.node i)) (Function.update rings h (pre ++ suf)) (some (i, a)) := by
  have hmem : (i, a) ∈ rings h := by simp [hr]
  have hi := hm.notMem_rest hr
  have hsub : ∀ n ∈ pre ++ suf, n ∈ rings h := by
    intro n hn
    rw [hr]
    obtain hn | hn := List.mem_append.mp hn
    · exact List.mem_append_left _ hn
    · exact List.mem_append_right _ (List.mem_cons_of_mem _ hn)
  have hnext := hm.next_node_mem hr
  have hprev := hm.prev_node_mem hr
  refine ⟨fun k => ?_, fun k => ?_, ?_, fun k j c hj => ?_, fun j c => ?_⟩
  · by_cases hk : k = h
    · subst hk
      rw [Function.update_self, List.map_append]
      obtain ⟨hbefore, hafter⟩ := hm.path_split hr
      have hnodup := hm.nodup_rest hr
      rw [List.map_append] at hnodup hi
      exact hbefore.bypass hafter (by simp) (by simp) hnodup hi (by simp)
    · rw [Function.update_of_ne hk]
      refine (hm.path k).frame (fun x hx => ?_) fun x hx => ?_
      · have hne : x ≠ m.prev (.node i) := by
          rintro rfl
          exact hk (hm.spot_unique hx hprev)
        simp [RingNodes.bypass, hne]
      · have hne : x ≠ m.next (.node i) := by
          rintro rfl
          exact hk (hm.spot_unique hx hnext)
        simp [RingNodes.bypass, hne]
  · by_cases hk : k = h
    · subst hk
      rw [Function.update_self]
      exact hm.nodup_rest hr
    · rw [Function.update_of_ne hk]
      exact hm.nodup k
  · refine apart_update hm.apart fun k hk j hj hj' => hk (hm.apart k h j hj' ?_)
    exact List.map_subset Prod.fst hsub hj
  · obtain ⟨rfl, -⟩ := Prod.mk.inj (Option.some.inj hj)
    by_cases hk : k = h
    · subst hk
      rw [Function.update_self]
      exact hi
    · rw [Function.update_of_ne hk]
      exact fun hik => hk (hm.apart k h i hik (List.mem_map_of_mem (f := Prod.fst) hmem))
  · have hget := hm.get j c
    rw [exists_mem_iff rings h, hr] at hget
    rw [exists_mem_update, RingNodes.heap_bypass, hget]
    have hpair : some (i, a) = some (j, c) ↔ (j, c) = (i, a) := by rw [Option.some.injEq, eq_comm]
    rw [hpair]
    simp only [List.mem_append, List.mem_cons, reduceCtorEq, or_false]
    simp only [or_assoc, or_comm, or_left_comm]

end Holds

end Rings

end OpaeLibs.Lib.LinkedLists
