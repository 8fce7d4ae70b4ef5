import OpaeLibs.Lib.LinkedLists
import OpaeLibs.Opaemem.Allocator

namespace OpaeLibs.Opaemem.Links

open OpaeLibs.Lib.Heap OpaeLibs.Lib.LinkedLists OpaeLibs.Opaemem
open OpaeLibs.Opaemem.Allocator (MemLink MemAlloc)

inductive Head
  | free
  | allocated
deriving DecidableEq, Repr

/-- The `struct mem_alloc` and the nodes from `malloc`. To touch a node that is not allocated is a
fault, for which the operations have `none`. -/
abbrev Memory := RingNodes Head MemLink

abbrev Node := Ptr Head

def memAllocInit (m : Memory) : Memory :=
  { m with
    heads := fun _ => ⟨0, 0⟩
    prev := Function.update (Function.update m.prev (.head .free) (.head .free))
      (.head .allocated) (.head .allocated)
    next := Function.update (Function.update m.next (.head .free) (.head .free))
      (.head .allocated) (.head .allocated) }

def freeNodes (head : Node) : Nat → Memory → Node → Option Memory
  | 0, _, _ => none
  | fuel + 1, m, p =>
    if p = head then some m
    else do
      let trash := p
      let p ← m.getNext p
      freeNodes head fuel (← m.free trash) p

def memAllocDestroy (m : Memory) : Option Memory := do
  let m ← freeNodes (.head .free) (m.heap.next + 1) m (← m.getNext (.head .free))
  let m ← freeNodes (.head .allocated) (m.heap.next + 1) m (← m.getNext (.head .allocated))
  some (memAllocInit m)

/-- `malloc` tells whether there is memory for the node. -/
def memLinkAlloc (malloc : Bool) (m : Memory) (address size : UInt64) : Option Node × Memory :=
  if malloc then
    let p := .node m.heap.next
    (some p, { m.alloc ⟨address, size⟩ with
      prev := Function.update m.prev p p
      next := Function.update m.next p p })
  else (none, m)

def linkBefore (m : Memory) (a b : Node) : Option Memory := do
  let m ← m.setPrev a (← m.getPrev b)
  let m ← m.setNext a b
  let m ← m.setPrev b a
  m.setNext (← m.getPrev a) a

def linkUnlink (m : Memory) (x : Node) : Option Memory := do
  let m ← m.setPrev (← m.getNext x) (← m.getPrev x)
  m.setNext (← m.getPrev x) (← m.getNext x)

/-- The first `if` of `mem_alloc_coalesce`, behind its early return. -/
def coalescePrev (head l prev : Node) (m : Memory) : Option Memory :=
  if prev = head then some m
  else do
    let k ← m.val prev
    let v ← m.val l
    if k.address + k.size = v.address then do
      let m ← m.write l ⟨k.address, v.size + k.size⟩
      let m ← linkUnlink m prev
      m.free prev
    else some m

def coalesceNext (head l : Node) (m : Memory) : Option Memory := do
  let next ← m.getNext l
  if next = head then some m
  else do
    let v ← m.val l
    let n ← m.val next
    if v.address + v.size = n.address then do
      let m ← m.write next ⟨v.address, n.size + v.size⟩
      let m ← linkUnlink m l
      m.free l
    else some m

def memAllocCoalesce (head l : Node) (m : Memory) : Option Memory := do
  let prev ← m.getPrev l
  let next ← m.getNext l
  if prev = head ∧ next = head then some m
  else do
    let m ← coalescePrev head l prev m
    coalesceNext head l m

def seek (address : UInt64) : Nat → Memory → Node → Option Node
  | 0, _, _ => none
  | fuel + 1, m, p => do
    let v ← m.val p
    if address > v.address ∧ p ≠ .head .free then seek address fuel m (← m.getNext p)
    else some p

def place (m : Memory) (node p : Node) : Option (Int × Memory) := do
  let m ← linkBefore m node p
  let m ← memAllocCoalesce (.head .free) node m
  some (0, m)

def memAllocAddFree (malloc : Bool) (m : Memory) (address size : UInt64) :
    Option (Int × Memory) :=
  match memLinkAlloc malloc m address size with
  | (none, m) => some (1, m)
  | (some node, m) => do
    let p ← m.getNext (.head .free)
    let v ← m.val p
    -- every branch of the `for` body leaves the loop, so only the first node is tested there
    if p ≠ .head .free ∧ address < v.address then place m node p
    else if p ≠ .head .free ∧ address = v.address then do
      let m ← m.free node
      some (2, m)
    else do
      let p ← seek address (m.heap.next + 1) m p
      place m node p

def memAllocAllocateNode (malloc : Bool) (m : Memory) (node : Node) (size : UInt64) :
    Option (Except Int UInt64 × Memory) := do
  let v ← m.val node
  if v.size = size then do
    let m ← linkUnlink m node
    let m ← linkBefore m node (.head .allocated)
    let v ← m.val node
    some (.ok v.address, m)
  else
    match memLinkAlloc malloc m v.address size with
    | (none, m) => some (.error 1, m)
    | (some p, m) => do
      let m ← m.write node ⟨v.address + size, v.size - size⟩
      let m ← linkBefore m p (.head .allocated)
      let k ← m.val p
      some (.ok k.address, m)

def firstFit (malloc : Bool) (size : UInt64) : Nat → Memory → Node →
    Option (Except Int UInt64 × Memory)
  | 0, _, _ => none
  | fuel + 1, m, p =>
    if p = .head .free then some (.error 1, m)
    else do
      let v ← m.val p
      if size ≤ v.size then memAllocAllocateNode malloc m p size
      else firstFit malloc size fuel m (← m.getNext p)

def memAllocGet (malloc : Bool) (m : Memory) (size : UInt64) :
    Option (Except Int UInt64 × Memory) := do
  firstFit malloc size (m.heap.next + 1) m (← m.getNext (.head .free))

def memAllocFreeNode (malloc : Bool) (m : Memory) (node : Node) : Option (Int × Memory) := do
  let v ← m.val node
  let m ← linkUnlink m node
  let m ← m.free node
  memAllocAddFree malloc m v.address v.size

def findAllocated (malloc : Bool) (address : UInt64) : Nat → Memory → Node →
    Option (Int × Memory)
  | 0, _, _ => none
  | fuel + 1, m, p =>
    if p = .head .allocated then some (1, m)
    else do
      let v ← m.val p
      if address = v.address then memAllocFreeNode malloc m p
      else findAllocated malloc address fuel m (← m.getNext p)

def memAllocPut (malloc : Bool) (m : Memory) (address : UInt64) : Option (Int × Memory) := do
  findAllocated malloc address (m.heap.next + 1) m (← m.getNext (.head .allocated))

section Operations

variable {m : Memory} {rings : Head → List (Nat × MemLink)} {loose : Option (Nat × MemLink)}
variable {h : Head} {pre suf : List (Nat × MemLink)} {i : Nat} {l : MemLink}

theorem linkBefore_eq {a b : Node} (ha : ∃ v, m.val a = some v) (hb : ∃ v, m.val b = some v)
    (hprev : ∃ v, m.val (m.prev b) = some v) (hab : a ≠ b) :
    linkBefore m a b = some (m.insertBefore a b) := by
  obtain ⟨va, ha⟩ := ha
  obtain ⟨vb, hb⟩ := hb
  obtain ⟨vp, hprev⟩ := hprev
  simp [linkBefore, RingNodes.getPrev, RingNodes.setPrev, RingNodes.setNext, RingNodes.val_mk, ha,
    hb, hab, hprev, RingNodes.insertBefore]

theorem linkUnlink_eq {x : Node} (hx : ∃ v, m.val x = some v)
    (hprev : ∃ v, m.val (m.prev x) = some v) (hnext : ∃ v, m.val (m.next x) = some v) :
    linkUnlink m x = some (m.bypass x) := by
  obtain ⟨vx, hx⟩ := hx
  obtain ⟨vp, hprev⟩ := hprev
  obtain ⟨vn, hnext⟩ := hnext
  -- a node that is its own neighbour keeps the link that is read again
  have hsame : Function.update m.prev (m.next x) (m.prev x) x = m.prev x := by
    by_cases heq : x = m.next x
    · rw [← heq, Function.update_self]
    · rw [Function.update_of_ne heq]
  simp [linkUnlink, RingNodes.getPrev, RingNodes.getNext, RingNodes.setPrev, RingNodes.setNext,
    RingNodes.val_mk, hx, hprev, hnext, hsame, RingNodes.bypass]

theorem linkBefore_spec (hm : Holds m rings (some (i, l))) (hr : rings h = pre ++ suf) :
    ∃ m', linkBefore m (.node i) (entry h suf) = some m' ∧
      Holds m' (Function.update rings h (pre ++ (i, l) :: suf)) none := by
  have hsuf := entry_mem hr
  refine ⟨_, linkBefore_eq ⟨l, hm.get_loose⟩ (hm.val_spot hsuf)
    (hm.val_spot (hm.prev_entry_mem hr)) ?_, hm.insertBefore hr⟩
  rintro heq
  rw [← heq] at hsuf
  exact hm.off h i l rfl (node_mem_spots.mp hsuf)

theorem linkUnlink_spec (hm : Holds m rings none) (hr : rings h = pre ++ (i, l) :: suf) :
    ∃ m', linkUnlink m (.node i) = some m' ∧
      Holds m' (Function.update rings h (pre ++ suf)) (some (i, l)) :=
  ⟨_, linkUnlink_eq ⟨l, hm.get_of_mem (h := h) (by simp [hr])⟩
    (hm.val_spot (hm.prev_node_mem hr)) (hm.val_spot (hm.next_node_mem hr)), hm.bypass hr⟩

theorem unlink_free_spec (hm : Holds m rings none) (hr : rings h = pre ++ (i, l) :: suf) :
    ∃ m', (do let m ← linkUnlink m (.node i); m.free (.node i)) = some m' ∧
      Holds m' (Function.update rings h (pre ++ suf)) none := by
  obtain ⟨m₁, hunlink, hm₁⟩ := linkUnlink_spec hm hr
  obtain ⟨m', hfree, hm'⟩ := hm₁.free
  exact ⟨m', by rw [hunlink]; exact hfree, hm'⟩

theorem coalescePrev_spec {before after : List (Nat × MemLink)} (hm : Holds m rings none)
    (hr : rings .free = before.reverse ++ (i, l) :: after) :
    ∃ (before' : List (Nat × MemLink)) (l' : MemLink) (m' : Memory),
      coalescePrev (.head .free) (.node i) (entry .free before) m = some m' ∧
      Allocator.coalescePrev (before.map Prod.snd) l = (before'.map Prod.snd, l') ∧
      Holds m' (Function.update rings .free (before'.reverse ++ (i, l') :: after)) none := by
  have hl : m.val (.node i) = some l := hm.get_of_mem (h := .free) (by simp [hr])
  cases before with
  | nil => exact ⟨[], l, m, rfl, rfl, by rw [← hr, Function.update_eq_self]; exact hm⟩
  | cons n before =>
    obtain ⟨j, k⟩ := n
    have hk : m.val (.node j) = some k := hm.get_of_mem (h := .free) (by simp [hr])
    by_cases hmeet : k.address + k.size = l.address
    · have hr' : rings .free = (before.reverse ++ [(j, k)]) ++ (i, l) :: after := by
        rw [hr, List.reverse_cons]
      obtain ⟨m₁, hwrite, hm₁⟩ := hm.write hr' ⟨k.address, l.size + k.size⟩
      have hr₁ : Function.update rings .free ((before.reverse ++ [(j, k)]) ++
          (i, ⟨k.address, l.size + k.size⟩) :: after) .free =
          before.reverse ++ (j, k) :: (i, ⟨k.address, l.size + k.size⟩) :: after := by simp
      obtain ⟨m', hunlink, hm'⟩ := unlink_free_spec hm₁ hr₁
      rw [Function.update_idem] at hm'
      refine ⟨before, _, m', ?_, ?_, hm'⟩
      · simp only [coalescePrev, entry_cons, reduceCtorEq, if_false, hk, hl, Option.bind_eq_bind,
          Option.bind_some, hmeet, if_true, hwrite]
        exact hunlink
      · simp [Allocator.coalescePrev, hmeet]
    · refine ⟨(j, k) :: before, l, m, ?_, ?_, by rw [← hr, Function.update_eq_self]; exact hm⟩
      · simp [coalescePrev, hk, hl, hmeet]
      · simp [Allocator.coalescePrev, hmeet]

theorem coalesceNext_spec {after : List (Nat × MemLink)} (hm : Holds m rings none)
    (hr : rings .free = pre ++ (i, l) :: after) :
    ∃ (ns : List (Nat × MemLink)) (m' : Memory),
      coalesceNext (.head .free) (.node i) m = some m' ∧
      Allocator.coalesceNext l (after.map Prod.snd) = ns.map Prod.snd ∧
      Holds m' (Function.update rings .free (pre ++ ns)) none := by
  have hl : m.val (.node i) = some l := hm.get_of_mem (h := .free) (by simp [hr])
  have hnext : m.getNext (.node i) = some (entry .free after) := by
    rw [RingNodes.getNext, hl, hm.next_node hr, Option.map_some]
  cases after with
  | nil =>
    refine ⟨[(i, l)], m, ?_, rfl, by rw [← hr, Function.update_eq_self]; exact hm⟩
    simp [coalesceNext, hnext]
  | cons n after =>
    obtain ⟨j, n⟩ := n
    have hn : m.val (.node j) = some n := hm.get_of_mem (h := .free) (by simp [hr])
    by_cases hmeet : l.address + l.size = n.address
    · obtain ⟨m₁, hwrite, hm₁⟩ := hm.write (hr.trans (List.append_cons pre _ _))
        ⟨l.address, n.size + l.size⟩
      have hr₁ : Function.update rings .free ((pre ++ [(i, l)]) ++
          (j, ⟨l.address, n.size + l.size⟩) :: after) .free =
          pre ++ (i, l) :: (j, ⟨l.address, n.size + l.size⟩) :: after := by simp
      obtain ⟨m', hunlink, hm'⟩ := unlink_free_spec hm₁ hr₁
      rw [Function.update_idem] at hm'
      refine ⟨_, m', ?_, ?_, hm'⟩
      · simp only [coalesceNext, hnext, entry_cons, reduceCtorEq, if_false, hn, hl,
          Option.bind_eq_bind, Option.bind_some, hmeet, if_true, hwrite]
        exact hunlink
      · simp [Allocator.coalesceNext, hmeet]
    · refine ⟨(i, l) :: (j, n) :: after, m, ?_, ?_, by rw [← hr, Function.update_eq_self]; exact hm⟩
      · simp [coalesceNext, hnext, hl, hn, hmeet]
      · simp [Allocator.coalesceNext, hmeet]

theorem memAllocCoalesce_spec {before after : List (Nat × MemLink)} (hm : Holds m rings none)
    (hr : rings .free = before.reverse ++ (i, l) :: after) :
    ∃ (ns : List (Nat × MemLink)) (m' : Memory),
      memAllocCoalesce (.head .free) (.node i) m = some m' ∧
      Allocator.memAllocCoalesce (before.map Prod.snd) l (after.map Prod.snd) = ns.map Prod.snd ∧
      Holds m' (Function.update rings .free ns) none := by
  have hl : m.val (.node i) = some l := hm.get_of_mem (h := .free) (by simp [hr])
  have hprev : m.getPrev (.node i) = some (entry .free before) := by
    rw [RingNodes.getPrev, hl, hm.prev_node hr, List.reverse_reverse, Option.map_some]
  have hnext : m.getNext (.node i) = some (entry .free after) := by
    rw [RingNodes.getNext, hl, hm.next_node hr, Option.map_some]
  have hhead : ∀ ns : List (Nat × MemLink), entry Head.free ns = .head .free ↔ ns = [] := by
    intro ns
    cases ns <;> simp
  rw [memAllocCoalesce, hprev, hnext]
  simp only [Option.bind_eq_bind, Option.bind_some, hhead]
  by_cases hends : before = [] ∧ after = []
  · obtain ⟨rfl, rfl⟩ := hends
    exact ⟨[(i, l)], m, by simp, by simp [Allocator.memAllocCoalesce],
      by rw [← hr.trans (List.nil_append _), Function.update_eq_self]; exact hm⟩
  · obtain ⟨before', l', m₁, hfst, hlist, hm₁⟩ := coalescePrev_spec hm hr
    obtain ⟨ns, m', hsnd, hlist', hm'⟩ := coalesceNext_spec hm₁ (Function.update_self ..)
    rw [Function.update_idem] at hm'
    refine ⟨before'.reverse ++ ns, m', ?_, ?_, hm'⟩
    · rw [if_neg hends, hfst]
      exact hsnd
    · simp [Allocator.memAllocCoalesce, hends, hlist, hlist']

theorem place_spec {before after : List (Nat × MemLink)} (hm : Holds m rings (some (i, l)))
    (hr : rings .free = before.reverse ++ after) :
    ∃ (ns : List (Nat × MemLink)) (m' : Memory),
      place m (.node i) (entry .free after) = some (0, m') ∧
      Allocator.memAllocCoalesce (before.map Prod.snd) l (after.map Prod.snd) = ns.map Prod.snd ∧
      Holds m' (Function.update rings .free ns) none := by
  obtain ⟨m₁, hlink, hm₁⟩ := linkBefore_spec hm hr
  obtain ⟨ns, m', hcoalesce, hlist, hm'⟩ := memAllocCoalesce_spec hm₁ (Function.update_self ..)
  rw [Function.update_idem] at hm'
  refine ⟨ns, m', ?_, hlist, hm'⟩
  simp [place, hlink, hcoalesce]

theorem seek_spec (address : UInt64) {before after : List (Nat × MemLink)} {fuel : Nat}
    (hm : Holds m rings loose) (hr : rings .free = before.reverse ++ after)
    (hfuel : after.length < fuel) :
    ∃ before' after' : List (Nat × MemLink),
      seek address fuel m (entry .free after) = some (entry .free after') ∧
      Allocator.seek address (before.map Prod.snd) (after.map Prod.snd) =
        (before'.map Prod.snd, after'.map Prod.snd) ∧
      rings .free = before'.reverse ++ after' := by
  induction after generalizing before fuel with
  | nil =>
    obtain ⟨fuel, rfl⟩ := Nat.exists_eq_add_one.mpr hfuel
    exact ⟨before, [], by simp [seek, RingNodes.val], rfl, hr⟩
  | cons n after ih =>
    obtain ⟨fuel, rfl⟩ := Nat.exists_eq_add_one.mpr (Nat.zero_lt_of_lt hfuel)
    obtain ⟨j, n⟩ := n
    have hn : m.val (.node j) = some n := hm.get_of_mem (h := .free) (by simp [hr])
    by_cases hgt : address > n.address
    · have hr' : rings .free = ((j, n) :: before).reverse ++ after := by simp [hr]
      obtain ⟨before', after', hseek, hlist, hsplit⟩ := ih hr' (Nat.lt_of_succ_lt_succ hfuel)
      refine ⟨before', after', ?_, ?_, hsplit⟩
      · have hnext : m.getNext (.node j) = some (entry .free after) := by
          rw [RingNodes.getNext, hn, hm.next_node hr, Option.map_some]
        simp [seek, hn, hgt, hnext, hseek]
      · simpa [Allocator.seek, hgt] using hlist
    · exact ⟨before, (j, n) :: after, by simp [seek, hn, hgt],
        by simp [Allocator.seek, hgt], hr⟩

theorem memLinkAlloc_spec (hm : Holds m rings none) (address size : UInt64) :
    ∃ i m', memLinkAlloc true m address size = (some (.node i), m') ∧
      Holds m' rings (some (i, ⟨address, size⟩)) :=
  ⟨m.heap.next, _, rfl, (hm.alloc ⟨address, size⟩).relink
    (fun _ hx => Function.update_of_ne hx ..) fun _ hx => Function.update_of_ne hx ..⟩

end Operations

/-- The rings in memory are the lists. -/
def Represents (m : Memory) (a : MemAlloc) : Prop :=
  ∃ rings, Holds m rings none ∧ (rings .free).map Prod.snd = a.free ∧
    (rings .allocated).map Prod.snd = a.allocated

section Refinement

variable {m : Memory} {a : MemAlloc} {rings : Head → List (Nat × MemLink)}

theorem represents_free {ns : List (Nat × MemLink)} {ls : List MemLink}
    (hm : Holds m (Function.update rings .free ns) none) (hns : ls = ns.map Prod.snd) :
    Represents m ⟨ls, (rings .allocated).map Prod.snd⟩ :=
  ⟨_, hm, by simp [hns], by simp⟩

theorem memAllocAddFree_refines (hm : Represents m a) (malloc : Bool) (address size : UInt64) :
    ∃ m', memAllocAddFree malloc m address size =
        some ((Allocator.memAllocAddFree malloc a address size).1, m') ∧
      Represents m' (Allocator.memAllocAddFree malloc a address size).2 := by
  obtain ⟨free, allocated⟩ := a
  obtain ⟨rings, hm, rfl, rfl⟩ := hm
  cases malloc with
  | false => exact ⟨m, rfl, rings, hm, rfl, rfl⟩
  | true =>
    obtain ⟨i, m₁, halloc, hm₁⟩ := memLinkAlloc_spec hm address size
    have hfuel : (rings .free).length < m₁.heap.next + 1 :=
      Nat.lt_succ_of_le (hm₁.length_le .free)
    have hnext : m₁.getNext (.head .free) = some (entry .free (rings .free)) := by
      rw [RingNodes.getNext, ← hm₁.next_head .free]
      rfl
    rw [memAllocAddFree, halloc]
    simp only [hnext, Option.bind_eq_bind, Option.bind_some, Allocator.memAllocAddFree,
      Allocator.memLinkAlloc, if_true]
    -- nothing has been passed before the first node
    have hstart : ∀ ns, rings .free = ns →
        rings .free = ([] : List (Nat × MemLink)).reverse ++ ns := fun _ h => h
    cases hring : rings .free with
    | nil =>
      obtain ⟨ns, m', hplace, hcoalesce, hm'⟩ := place_spec hm₁ (hstart [] hring)
      refine ⟨m', ?_, represents_free hm' hcoalesce⟩
      simpa [seek, RingNodes.val] using hplace
    | cons n rest =>
      obtain ⟨j, p⟩ := n
      have hp : m₁.val (.node j) = some p := hm₁.get_of_mem (h := .free) (by simp [hring])
      rw [List.map_cons]
      by_cases hlt : address < p.address
      · obtain ⟨ns, m', hplace, hcoalesce, hm'⟩ := place_spec hm₁ (hstart _ hring)
        refine ⟨m', ?_, ?_⟩
        · simpa [hp, hlt] using hplace
        · simpa [hlt] using represents_free hm' hcoalesce
      · by_cases heq : address = p.address
        · obtain ⟨m', hfree, hm'⟩ := hm₁.free
          refine ⟨m', ?_, ?_⟩
          · simp [hp, heq, hfree]
          · simpa [heq] using ⟨rings, hm', by simp [hring], rfl⟩
        · rw [hring] at hfuel
          obtain ⟨before, after, hseek, hlist, hsplit⟩ :=
            seek_spec address hm₁ (hstart _ hring) hfuel
          obtain ⟨ns, m', hplace, hcoalesce, hm'⟩ := place_spec hm₁ hsplit
          rw [entry_cons] at hseek
          rw [List.map_nil, List.map_cons] at hlist
          refine ⟨m', ?_, ?_⟩
          · simp [hp, hlt, heq, hseek, hplace]
          · simpa [hlt, heq, hlist] using represents_free hm' hcoalesce

theorem memAllocAllocateNode_refines {before after : List (Nat × MemLink)} {i : Nat} {l : MemLink}
    (hm : Holds m rings none) (hr : rings .free = before.reverse ++ (i, l) :: after)
    (ha : (rings .free).map Prod.snd = a.free ∧ (rings .allocated).map Prod.snd = a.allocated)
    (malloc : Bool) (size : UInt64) :
    ∃ m', memAllocAllocateNode malloc m (.node i) size =
        some ((Allocator.memAllocAllocateNode malloc a (before.map Prod.snd) l
          (after.map Prod.snd) size).1, m') ∧
      Represents m' (Allocator.memAllocAllocateNode malloc a (before.map Prod.snd) l
        (after.map Prod.snd) size).2 := by
  obtain ⟨free, allocated⟩ := a
  obtain ⟨rfl, rfl⟩ := ha
  have hl : m.val (.node i) = some l := hm.get_of_mem (h := .free) (by simp [hr])
  by_cases hfit : l.size = size
  · obtain ⟨m₁, hunlink, hm₁⟩ := linkUnlink_spec hm hr
    have hr₁ : Function.update rings .free (before.reverse ++ after) .allocated =
        rings .allocated ++ [] := by simp
    obtain ⟨m', hlink, hm'⟩ := linkBefore_spec hm₁ hr₁
    have hl' : m'.val (.node i) = some l := hm'.get_of_mem (h := .allocated) (by simp)
    refine ⟨m', ?_, ?_⟩
    · simp only [entry_nil] at hlink
      simp [memAllocAllocateNode, Allocator.memAllocAllocateNode, hl, hfit, hunlink, hlink, hl']
    · rw [Allocator.memAllocAllocateNode, if_pos hfit]
      exact ⟨_, hm', by simp, by simp⟩
  · cases malloc with
    | false =>
      refine ⟨m, ?_, ?_⟩
      · simp [memAllocAllocateNode, Allocator.memAllocAllocateNode, Allocator.memLinkAlloc, hl,
          hfit, memLinkAlloc]
      · rw [Allocator.memAllocAllocateNode, if_neg hfit]
        exact ⟨rings, hm, rfl, rfl⟩
    | true =>
      obtain ⟨j, m₁, halloc, hm₁⟩ := memLinkAlloc_spec hm l.address size
      obtain ⟨m₂, hwrite, hm₂⟩ := hm₁.write hr ⟨l.address + size, l.size - size⟩
      have hr₂ : Function.update rings .free
          (before.reverse ++ (i, ⟨l.address + size, l.size - size⟩) :: after) .allocated =
          rings .allocated ++ [] := by simp
      obtain ⟨m', hlink, hm'⟩ := linkBefore_spec hm₂ hr₂
      have hj : m'.val (.node j) = some ⟨l.address, size⟩ :=
        hm'.get_of_mem (h := .allocated) (by simp)
      refine ⟨m', ?_, ?_⟩
      · simp only [entry_nil] at hlink
        simp [memAllocAllocateNode, Allocator.memAllocAllocateNode, Allocator.memLinkAlloc, hl,
          hfit, halloc, hwrite, hlink, hj]
      · rw [Allocator.memAllocAllocateNode, if_neg hfit]
        exact ⟨_, hm', by simp [Allocator.memLinkAlloc], by simp [Allocator.memLinkAlloc]⟩

theorem firstFit_refines {before after : List (Nat × MemLink)} (hm : Holds m rings none)
    (hr : rings .free = before.reverse ++ after)
    (ha : (rings .free).map Prod.snd = a.free ∧ (rings .allocated).map Prod.snd = a.allocated)
    (malloc : Bool) (size : UInt64) {fuel : Nat} (hfuel : after.length < fuel) :
    ∃ m', firstFit malloc size fuel m (entry .free after) =
        some ((Allocator.firstFit malloc a size (before.map Prod.snd) (after.map Prod.snd)).1, m') ∧
      Represents m'
        (Allocator.firstFit malloc a size (before.map Prod.snd) (after.map Prod.snd)).2 := by
  induction after generalizing before fuel with
  | nil =>
    obtain ⟨fuel, rfl⟩ := Nat.exists_eq_add_one.mpr hfuel
    exact ⟨m, by simp [firstFit, Allocator.firstFit], rings, hm, ha⟩
  | cons n after ih =>
    obtain ⟨fuel, rfl⟩ := Nat.exists_eq_add_one.mpr (Nat.zero_lt_of_lt hfuel)
    obtain ⟨j, p⟩ := n
    have hp : m.val (.node j) = some p := hm.get_of_mem (h := .free) (by simp [hr])
    rw [List.map_cons, Allocator.firstFit]
    by_cases hfits : size ≤ p.size
    · obtain ⟨m', hallocate, hm'⟩ := memAllocAllocateNode_refines hm hr ha malloc size
      refine ⟨m', ?_, by rwa [if_pos hfits]⟩
      simp [firstFit, hp, hfits, hallocate]
    · have hr' : rings .free = ((j, p) :: before).reverse ++ after := by simp [hr]
      obtain ⟨m', hrest, hm'⟩ := ih hr' (Nat.lt_of_succ_lt_succ hfuel)
      have hnext : m.getNext (.node j) = some (entry .free after) := by
        rw [RingNodes.getNext, hp, hm.next_node hr, Option.map_some]
      rw [if_neg hfits]
      exact ⟨m', by simpa [firstFit, hp, hfits, hnext] using hrest, hm'⟩

theorem memAllocGet_refines (hm : Represents m a) (malloc : Bool) (size : UInt64) :
    ∃ m', memAllocGet malloc m size = some ((Allocator.memAllocGet malloc a size).1, m') ∧
      Represents m' (Allocator.memAllocGet malloc a size).2 := by
  obtain ⟨rings, hm, hfree, hallocated⟩ := hm
  have hnext : m.getNext (.head .free) = some (entry .free (rings .free)) := by
    rw [RingNodes.getNext, ← hm.next_head .free]
    rfl
  have hstart : rings .free = ([] : List (Nat × MemLink)).reverse ++ rings .free := rfl
  obtain ⟨m', hfit, hm'⟩ := firstFit_refines hm hstart ⟨hfree, hallocated⟩ malloc size
    (Nat.lt_succ_of_le (hm.length_le .free))
  rw [hfree] at hfit hm'
  refine ⟨m', ?_, hm'⟩
  rw [memAllocGet, hnext]
  exact hfit

theorem memAllocFreeNode_refines {before after : List (Nat × MemLink)} {i : Nat} {l : MemLink}
    (hm : Holds m rings none) (hr : rings .allocated = before.reverse ++ (i, l) :: after)
    (hfree : (rings .free).map Prod.snd = a.free) (malloc : Bool) :
    ∃ m', memAllocFreeNode malloc m (.node i) =
        some ((Allocator.memAllocFreeNode malloc a (before.map Prod.snd) l
          (after.map Prod.snd)).1, m') ∧
      Represents m' (Allocator.memAllocFreeNode malloc a (before.map Prod.snd) l
        (after.map Prod.snd)).2 := by
  have hl : m.val (.node i) = some l := hm.get_of_mem (h := .allocated) (by simp [hr])
  obtain ⟨m₁, hunlink, hm₁⟩ := linkUnlink_spec hm hr
  obtain ⟨m₂, hfree₂, hm₂⟩ := hm₁.free
  have hlists : Represents m₂
      { a with allocated := (before.map Prod.snd).reverse ++ after.map Prod.snd } :=
    ⟨_, hm₂, by simp [hfree], by simp⟩
  obtain ⟨m', hadd, hm'⟩ := memAllocAddFree_refines hlists malloc l.address l.size
  refine ⟨m', ?_, hm'⟩
  rw [Allocator.memAllocFreeNode]
  simpa [memAllocFreeNode, hl, hunlink, hfree₂] using hadd

theorem findAllocated_refines {before after : List (Nat × MemLink)} (hm : Holds m rings none)
    (hr : rings .allocated = before.reverse ++ after)
    (ha : (rings .free).map Prod.snd = a.free ∧ (rings .allocated).map Prod.snd = a.allocated)
    (malloc : Bool) (address : UInt64) {fuel : Nat} (hfuel : after.length < fuel) :
    ∃ m', findAllocated malloc address fuel m (entry .allocated after) =
        some ((Allocator.findAllocated malloc a address (before.map Prod.snd)
          (after.map Prod.snd)).1, m') ∧
      Represents m' (Allocator.findAllocated malloc a address (before.map Prod.snd)
        (after.map Prod.snd)).2 := by
  induction after generalizing before fuel with
  | nil =>
    obtain ⟨fuel, rfl⟩ := Nat.exists_eq_add_one.mpr hfuel
    exact ⟨m, by simp [findAllocated, Allocator.findAllocated], rings, hm, ha⟩
  | cons n after ih =>
    obtain ⟨fuel, rfl⟩ := Nat.exists_eq_add_one.mpr (Nat.zero_lt_of_lt hfuel)
    obtain ⟨j, p⟩ := n
    have hp : m.val (.node j) = some p := hm.get_of_mem (h := .allocated) (by simp [hr])
    rw [List.map_cons, Allocator.findAllocated]
    by_cases heq : address = p.address
    · obtain ⟨m', hput, hm'⟩ := memAllocFreeNode_refines hm hr ha.1 malloc
      refine ⟨m', ?_, by rwa [if_pos heq]⟩
      simp [findAllocated, hp, heq, hput]
    · have hr' : rings .allocated = ((j, p) :: before).reverse ++ after := by simp [hr]
      obtain ⟨m', hrest, hm'⟩ := ih hr' (Nat.lt_of_succ_lt_succ hfuel)
      have hnext : m.getNext (.node j) = some (entry .allocated after) := by
        rw [RingNodes.getNext, hp, hm.next_node hr, Option.map_some]
      rw [if_neg heq]
      exact ⟨m', by simpa [findAllocated, hp, heq, hnext] using hrest, hm'⟩

theorem memAllocPut_refines (hm : Represents m a) (malloc : Bool) (address : UInt64) :
    ∃ m', memAllocPut malloc m address =
        some ((Allocator.memAllocPut malloc a address).1, m') ∧
      Represents m' (Allocator.memAllocPut malloc a address).2 := by
  obtain ⟨rings, hm, hfree, hallocated⟩ := hm
  have hnext : m.getNext (.head .allocated) = some (entry .allocated (rings .allocated)) := by
    rw [RingNodes.getNext, ← hm.next_head .allocated]
    rfl
  have hstart : rings .allocated = ([] : List (Nat × MemLink)).reverse ++ rings .allocated := rfl
  obtain ⟨m', hfind, hm'⟩ := findAllocated_refines hm hstart ⟨hfree, hallocated⟩ malloc address
    (Nat.lt_succ_of_le (hm.length_le .allocated))
  rw [hallocated] at hfind hm'
  refine ⟨m', ?_, hm'⟩
  rw [memAllocPut, hnext]
  exact hfind

theorem memAllocInit_represents (hm : ∀ i, m.heap.get i = none) :
    Represents (memAllocInit m) Allocator.memAllocInit := by
  refine ⟨fun _ => [], ⟨fun h => ?_, fun _ => List.nodup_nil, ?_, ?_, fun i l => ?_⟩, rfl, rfl⟩
  · cases h <;> exact ⟨by simp [memAllocInit], by simp [memAllocInit]⟩
  · rintro h h' i hi
    exact absurd hi List.not_mem_nil
  · rintro h i l hi
    cases hi
  · simp [memAllocInit, hm]

theorem freeNodes_spec {is : List Nat} {q : Node} {h : Head} {fuel : Nat}
    (hpath : m.Path q is (.head h)) (hlive : ∀ i ∈ is, ∃ l, m.heap.get i = some l)
    (hnodup : is.Nodup) (hfuel : is.length < fuel) :
    ∃ heap, freeNodes (.head h) fuel m (m.next q) = some { m with heap := heap } ∧
      heap.next = m.heap.next ∧
      ∀ j, heap.get j = if j ∈ is then none else m.heap.get j := by
  induction is generalizing m q fuel with
  | nil =>
    obtain ⟨fuel, rfl⟩ := Nat.exists_eq_add_one.mpr hfuel
    have hend : m.next q = .head h := hpath.1
    exact ⟨m.heap, by rw [freeNodes, if_pos hend], rfl, by simp⟩
  | cons i is ih =>
    obtain ⟨fuel, rfl⟩ := Nat.exists_eq_add_one.mpr (Nat.zero_lt_of_lt hfuel)
    obtain ⟨⟨hnext, -⟩, hrest⟩ := hpath
    obtain ⟨hi, hnodup⟩ := List.nodup_cons.mp hnodup
    obtain ⟨⟨l, hl⟩, hlive⟩ := List.forall_mem_cons.mp hlive
    have hget := Slots.get_free hl
    have hlive' : ∀ j ∈ is, ∃ l, (m.heap.free i).get j = some l := by
      intro j hj
      rw [hget, if_neg fun heq : j = i => hi (heq ▸ hj)]
      exact hlive j hj
    obtain ⟨heap, hfree, hcount, hafter⟩ := ih (m := { m with heap := m.heap.free i })
      (hrest.frame (fun _ _ => rfl) fun _ _ => rfl) hlive' hnodup (Nat.lt_of_succ_lt_succ hfuel)
    refine ⟨heap, ?_, hcount.trans (Slots.next_free m.heap i), fun j => ?_⟩
    · rw [freeNodes, hnext, if_neg (by simp)]
      simpa [RingNodes.getNext, RingNodes.val, RingNodes.free, hl] using hfree
    · rw [hafter]
      dsimp only
      rw [hget]
      by_cases hj : j = i <;> simp [hj]

theorem memAllocDestroy_refines (hm : Represents m a) :
    ∃ m', memAllocDestroy m = some m' ∧ (∀ i, m'.heap.get i = none) ∧
      Represents m' Allocator.memAllocInit := by
  obtain ⟨rings, hm, -, -⟩ := hm
  have hlive : ∀ h, ∀ i ∈ (rings h).map Prod.fst, ∃ l, m.heap.get i = some l := by
    intro h i hi
    obtain ⟨n, hn, rfl⟩ := List.mem_map.mp hi
    exact ⟨n.2, hm.get_of_mem hn⟩
  have hlength : ∀ h, ((rings h).map Prod.fst).length < m.heap.next + 1 := by
    intro h
    rw [List.length_map]
    exact Nat.lt_succ_of_le (hm.length_le h)
  obtain ⟨heap, hfree, hnext, hget⟩ := freeNodes_spec (hm.path .free) (hlive .free)
    (hm.nodup .free) (hlength .free)
  have hlive' : ∀ i ∈ (rings .allocated).map Prod.fst, ∃ l, heap.get i = some l := by
    intro i hi
    have hi' : i ∉ (rings .free).map Prod.fst := fun hi' =>
      absurd (hm.apart .allocated .free i hi hi') (by decide)
    rw [hget, if_neg hi']
    exact hlive .allocated i hi
  have hlength' : ((rings .allocated).map Prod.fst).length < heap.next + 1 := by
    rw [hnext]
    exact hlength .allocated
  obtain ⟨heap', hfree', -, hget'⟩ := freeNodes_spec (m := { m with heap := heap })
    ((hm.path .allocated).frame (fun _ _ => rfl) fun _ _ => rfl) hlive' (hm.nodup .allocated)
    hlength'
  have hempty : ∀ i, heap'.get i = none := by
    intro i
    rw [hget']
    dsimp only
    rw [hget]
    by_cases hi : i ∈ (rings .allocated).map Prod.fst
    · rw [if_pos hi]
    · rw [if_neg hi]
      by_cases hi' : i ∈ (rings .free).map Prod.fst
      · rw [if_pos hi']
      · rw [if_neg hi']
        rw [Option.eq_none_iff_forall_ne_some]
        intro l hl
        obtain ⟨h, hmem⟩ | hmem := (hm.get i l).mp hl
        · cases h with
          | free => exact hi' (List.mem_map_of_mem (f := Prod.fst) hmem)
          | allocated => exact hi (List.mem_map_of_mem (f := Prod.fst) hmem)
        · cases hmem
  refine ⟨memAllocInit { m with heap := heap' }, ?_, hempty, memAllocInit_represents hempty⟩
  simp only [memAllocDestroy, RingNodes.getNext, RingNodes.val, Option.map_some,
    Option.bind_eq_bind, Option.bind_some, hfree, hnext] at hfree' ⊢
  rw [hfree']
  rfl

end Refinement

inductive Request
  | addFree (address size : UInt64)
  | get (size : UInt64)
  | put (address : UInt64)
  | destroy
deriving DecidableEq, Repr

/-- What a call returns, and what it stores in `*address`. -/
structure Reply where
  result : Int
  address : Option UInt64
deriving DecidableEq, Repr

def Reply.ofGet : Except Int UInt64 → Reply
  | .ok address => ⟨0, some address⟩
  | .error result => ⟨result, none⟩

def perform (malloc : Bool) (m : Memory) : Request → Option (Reply × Memory)
  | .addFree address size => (memAllocAddFree malloc m address size).map fun r => (⟨r.1, none⟩, r.2)
  | .get size => (memAllocGet malloc m size).map fun r => (.ofGet r.1, r.2)
  | .put address => (memAllocPut malloc m address).map fun r => (⟨r.1, none⟩, r.2)
  | .destroy => (memAllocDestroy m).map fun m => (⟨0, none⟩, m)

def answer (malloc : Bool) (a : MemAlloc) : Request → Reply × MemAlloc
  | .addFree address size =>
    let r := Allocator.memAllocAddFree malloc a address size
    (⟨r.1, none⟩, r.2)
  | .get size =>
    let r := Allocator.memAllocGet malloc a size
    (.ofGet r.1, r.2)
  | .put address =>
    let r := Allocator.memAllocPut malloc a address
    (⟨r.1, none⟩, r.2)
  | .destroy => (⟨0, none⟩, Allocator.memAllocInit)

def run (m : Memory) : List (Bool × Request) → Option (List Reply × Memory)
  | [] => some ([], m)
  | r :: rs => do
    let (reply, m) ← perform r.1 m r.2
    let (replies, m) ← run m rs
    some (reply :: replies, m)

def answers (a : MemAlloc) : List (Bool × Request) → List Reply × MemAlloc
  | [] => ([], a)
  | r :: rs =>
    let s := answer r.1 a r.2
    let t := answers s.2 rs
    (s.1 :: t.1, t.2)

theorem perform_refines {m : Memory} {a : MemAlloc} (hm : Represents m a) (malloc : Bool)
    (r : Request) :
    ∃ m', perform malloc m r = some ((answer malloc a r).1, m') ∧
      Represents m' (answer malloc a r).2 := by
  cases r with
  | addFree address size =>
    obtain ⟨m', hcall, hm'⟩ := memAllocAddFree_refines hm malloc address size
    exact ⟨m', by rw [perform, hcall]; rfl, hm'⟩
  | get size =>
    obtain ⟨m', hcall, hm'⟩ := memAllocGet_refines hm malloc size
    exact ⟨m', by rw [perform, hcall]; rfl, hm'⟩
  | put address =>
    obtain ⟨m', hcall, hm'⟩ := memAllocPut_refines hm malloc address
    exact ⟨m', by rw [perform, hcall]; rfl, hm'⟩
  | destroy =>
    obtain ⟨m', hcall, -, hm'⟩ := memAllocDestroy_refines hm
    exact ⟨m', by rw [perform, hcall]; rfl, hm'⟩

theorem run_represents {m : Memory} {a : MemAlloc} (hm : Represents m a)
    (rs : List (Bool × Request)) :
    ∃ m', run m rs = some ((answers a rs).1, m') ∧ Represents m' (answers a rs).2 := by
  induction rs generalizing m a with
  | nil => exact ⟨m, rfl, hm⟩
  | cons r rs ih =>
    obtain ⟨m₁, hcall, hm₁⟩ := perform_refines hm r.1 r.2
    obtain ⟨m', hrun, hm'⟩ := ih hm₁
    refine ⟨m', ?_, hm'⟩
    rw [run, hcall]
    simp only [Option.bind_eq_bind, Option.bind_some, hrun]
    rfl

/-- Whatever is called, and whether or not there is memory for the nodes, no freed node is touched
and the calls answer as those on the lists do; the nodes on the two rings stay the only ones that
are allocated. -/
theorem run_refines_allocator (heads : Head → MemLink) (prev next : Node → Node)
    (rs : List (Bool × Request)) :
    ∃ m, run (memAllocInit ⟨.empty, heads, prev, next⟩) rs =
        some ((answers Allocator.memAllocInit rs).1, m) ∧
      Represents m (answers Allocator.memAllocInit rs).2 :=
  run_represents (memAllocInit_represents fun i => Slots.get_empty i) rs

theorem run_append {m m' : Memory} {rs : List (Bool × Request)} {replies : List Reply}
    (h : run m rs = some (replies, m')) (rs' : List (Bool × Request)) :
    run m (rs ++ rs') = (run m' rs').map fun t => (replies ++ t.1, t.2) := by
  induction rs generalizing m replies with
  | nil =>
    obtain ⟨rfl, rfl⟩ := Prod.mk.inj (Option.some.inj h)
    simp
  | cons r rs ih =>
    simp only [run, Option.bind_eq_bind, Option.bind_eq_some_iff, Option.some.injEq] at h
    obtain ⟨⟨reply, m₁⟩, hcall, ⟨rest, m₂⟩, hrest, heq⟩ := h
    obtain ⟨rfl, rfl⟩ := Prod.mk.inj heq
    rw [List.cons_append, run, hcall]
    simp only [Option.bind_eq_bind, Option.bind_some]
    rw [ih hrest]
    cases run m₂ rs' <;> rfl

/-- After `mem_alloc_destroy` no node that was allocated is left, whatever was called before. -/
theorem run_destroy (heads : Head → MemLink) (prev next : Node → Node)
    (rs : List (Bool × Request)) (malloc : Bool) :
    ∃ m, run (memAllocInit ⟨.empty, heads, prev, next⟩) (rs ++ [(malloc, .destroy)]) =
        some ((answers Allocator.memAllocInit rs).1 ++ [⟨0, none⟩], m) ∧
      ∀ i, m.heap.get i = none := by
  obtain ⟨m₁, hrun, hm₁⟩ := run_represents
    (memAllocInit_represents (m := ⟨.empty, heads, prev, next⟩) fun i => Slots.get_empty i) rs
  obtain ⟨m, hdestroy, hempty, -⟩ := memAllocDestroy_refines hm₁
  refine ⟨m, ?_, hempty⟩
  rw [run_append hrun]
  simp [run, perform, hdestroy]

end OpaeLibs.Opaemem.Links
