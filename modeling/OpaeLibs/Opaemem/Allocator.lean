import OpaeLibs.Lib.Spans

namespace OpaeLibs.Opaemem.Allocator

open OpaeLibs.Lib.Spans

structure MemLink where
  address : UInt64
  size : UInt64
deriving DecidableEq, Repr

/-- `struct mem_alloc`: each circular list is read from the node after its head up to the head. -/
structure MemAlloc where
  free : List MemLink
  allocated : List MemLink
deriving DecidableEq, Repr

def memAllocInit : MemAlloc := ⟨[], []⟩

def memLinkAlloc (malloc : Bool) (address size : UInt64) : Option MemLink :=
  if malloc then some ⟨address, size⟩ else none

def coalescePrev (before : List MemLink) (l : MemLink) : List MemLink × MemLink :=
  match before with
  | [] => ([], l)
  | prev :: rest =>
    if prev.address + prev.size = l.address then (rest, ⟨prev.address, l.size + prev.size⟩)
    else (prev :: rest, l)

def coalesceNext (l : MemLink) (after : List MemLink) : List MemLink :=
  match after with
  | [] => [l]
  | next :: rest =>
    if l.address + l.size = next.address then ⟨l.address, next.size + l.size⟩ :: rest
    else l :: next :: rest

/-- `before` lists the nodes reached from `l` through `prev`, nearest first, and `after` those
reached through `next`; both stop at the head. -/
def memAllocCoalesce (before : List MemLink) (l : MemLink) (after : List MemLink) :
    List MemLink :=
  if before = [] ∧ after = [] then [l]
  else (coalescePrev before l).1.reverse ++ coalesceNext (coalescePrev before l).2 after

/-- The `while` loop of `mem_alloc_add_free`: step past every node below `address`. -/
def seek (address : UInt64) (before : List MemLink) : List MemLink → List MemLink × List MemLink
  | [] => (before, [])
  | p :: rest => if address > p.address then seek address (p :: before) rest else (before, p :: rest)

def memAllocAddFree (malloc : Bool) (m : MemAlloc) (address size : UInt64) : Int × MemAlloc :=
  match memLinkAlloc malloc address size with
  | none => (1, m)
  | some node =>
    -- every branch of the `for` body leaves the loop, so only the first node is tested there
    match m.free with
    | [] => (0, { m with free := memAllocCoalesce [] node [] })
    | p :: rest =>
      if address < p.address then (0, { m with free := memAllocCoalesce [] node (p :: rest) })
      else if address = p.address then (2, m)
      else
        let (before, after) := seek address [] (p :: rest)
        (0, { m with free := memAllocCoalesce before node after })

def memAllocAllocateNode (malloc : Bool) (m : MemAlloc) (before : List MemLink) (node : MemLink)
    (after : List MemLink) (size : UInt64) : Except Int UInt64 × MemAlloc :=
  if node.size = size then
    (.ok node.address, ⟨before.reverse ++ after, m.allocated ++ [node]⟩)
  else
    match memLinkAlloc malloc node.address size with
    | none => (.error 1, m)
    | some p =>
      (.ok p.address,
        ⟨before.reverse ++ ⟨node.address + size, node.size - size⟩ :: after, m.allocated ++ [p]⟩)

def firstFit (malloc : Bool) (m : MemAlloc) (size : UInt64) (before : List MemLink) :
    List MemLink → Except Int UInt64 × MemAlloc
  | [] => (.error 1, m)
  | p :: rest =>
    if size ≤ p.size then memAllocAllocateNode malloc m before p rest size
    else firstFit malloc m size (p :: before) rest

/-- The error is the code's result; on success `*address` receives the value. -/
def memAllocGet (malloc : Bool) (m : MemAlloc) (size : UInt64) : Except Int UInt64 × MemAlloc :=
  firstFit malloc m size [] m.free

def memAllocFreeNode (malloc : Bool) (m : MemAlloc) (before : List MemLink) (node : MemLink)
    (after : List MemLink) : Int × MemAlloc :=
  memAllocAddFree malloc { m with allocated := before.reverse ++ after } node.address node.size

def findAllocated (malloc : Bool) (m : MemAlloc) (address : UInt64) (before : List MemLink) :
    List MemLink → Int × MemAlloc
  | [] => (1, m)
  | p :: rest =>
    if address = p.address then memAllocFreeNode malloc m before p rest
    else findAllocated malloc m address (p :: before) rest

def memAllocPut (malloc : Bool) (m : MemAlloc) (address : UInt64) : Int × MemAlloc :=
  findAllocated malloc m address [] m.allocated

def MemLink.span (l : MemLink) : Span Nat :=
  ⟨l.address.toNat, l.address.toNat + l.size.toNat⟩

/-- The addresses a list of blocks stands for, as mathematical numbers. -/
def addrs (ls : List MemLink) : Set Nat := cover (ls.map MemLink.span)

theorem MemLink.span_injective : Function.Injective MemLink.span := by
  rintro ⟨a, s⟩ ⟨b, t⟩ h
  simp only [MemLink.span, Span.mk.injEq] at h
  have ha : a = b := UInt64.toNat_inj.mp h.1
  subst ha
  have hs : s = t := UInt64.toNat_inj.mp (by omega)
  rw [hs]

theorem MemLink.lo_lt_hi {l : MemLink} : l.span.lo < l.span.hi ↔ l.size ≠ 0 := by
  have h : l.size = 0 ↔ l.size.toNat = 0 := by rw [← UInt64.toNat_inj, UInt64.toNat_zero]
  rw [Ne, h]
  simp only [MemLink.span]
  omega

@[simp] theorem addrs_nil : addrs [] = ∅ := by simp [addrs]

@[simp] theorem addrs_cons (l : MemLink) (ls : List MemLink) :
    addrs (l :: ls) = l.span.set ∪ addrs ls := by simp [addrs]

@[simp] theorem addrs_append (ks ls : List MemLink) : addrs (ks ++ ls) = addrs ks ∪ addrs ls := by
  simp [addrs]

theorem span_subset_addrs {ls : List MemLink} {l : MemLink} (h : l ∈ ls) :
    l.span.set ⊆ addrs ls := set_subset_cover (List.mem_map_of_mem h)

theorem addrs_perm {ks ls : List MemLink} (h : ks.Perm ls) : addrs ks = addrs ls :=
  cover_perm (h.map _)

theorem seek_append (address : UInt64) (before ls : List MemLink) :
    (seek address before ls).1.reverse ++ (seek address before ls).2 = before.reverse ++ ls := by
  induction ls generalizing before with
  | nil => rfl
  | cons p rest ih =>
    rw [seek]
    split
    · rw [ih, List.reverse_cons, List.append_assoc, List.singleton_append]
    · rfl

theorem seek_bounds (address : UInt64) (before : List MemLink) {ls : List MemLink}
    (hls : ls.Pairwise (fun k l => k.address < l.address))
    (hb : ∀ l ∈ before, l.address < address) :
    (∀ l ∈ (seek address before ls).1, l.address < address) ∧
      ∀ l ∈ (seek address before ls).2, address ≤ l.address := by
  induction ls generalizing before with
  | nil => simpa [seek] using hb
  | cons p rest ih =>
    obtain ⟨hp, hr⟩ := List.pairwise_cons.mp hls
    rw [seek]
    split
    · next h => exact ih (p :: before) hr (by simpa using ⟨h, hb⟩)
    · next h =>
      have hle : address ≤ p.address := UInt64.not_lt.mp h
      refine ⟨hb, ?_⟩
      simp only [List.mem_cons, forall_eq_or_imp]
      exact ⟨hle, fun l hl => UInt64.le_trans hle (UInt64.le_of_lt (hp l hl))⟩

end OpaeLibs.Opaemem.Allocator
