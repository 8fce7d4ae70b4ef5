import OpaeLibs.Lib.Runs
import OpaeLibs.Opaemem.Invariant

namespace OpaeLibs.Opaemem.Conservation

open OpaeLibs.Lib.Runs OpaeLibs.Lib.Spans
open OpaeLibs.Opaemem.Allocator OpaeLibs.Opaemem.FreeList OpaeLibs.Opaemem.Invariant

inductive Call
  | addFree (address size : UInt64)
  | get (size : UInt64)
  | put (address : UInt64)
deriving DecidableEq, Repr

structure Session where
  alloc : MemAlloc
  added : List MemLink
deriving DecidableEq, Repr

def start : Session := ⟨memAllocInit, []⟩

def step (s : Session) : Call → Session
  | .addFree address size =>
    ⟨(memAllocAddFree true s.alloc address size).2, s.added ++ [⟨address, size⟩]⟩
  | .get size => { s with alloc := (memAllocGet true s.alloc size).2 }
  | .put address => { s with alloc := (memAllocPut true s.alloc address).2 }

def Apart (k l : MemLink) : Prop := k.span.hi ≤ l.span.lo ∨ l.span.hi ≤ k.span.lo

instance (k l : MemLink) : Decidable (Apart k l) := inferInstanceAs (Decidable (_ ∨ _))

/-- Regions are non-empty, end at a 64-bit address and meet nothing added before; requests are
for at least one address; anything may be put. -/
def Allowed (s : Session) : Call → Prop
  | .addFree address size => size ≠ 0 ∧ address.toNat + size.toNat < 2 ^ 64 ∧
      ∀ r ∈ s.added, Apart r ⟨address, size⟩
  | .get size => size ≠ 0
  | .put _ => True

instance : ∀ s c, Decidable (Allowed s c)
  | s, .addFree address size => inferInstanceAs (Decidable (size ≠ 0 ∧
      address.toNat + size.toNat < 2 ^ 64 ∧ ∀ r ∈ s.added, Apart r ⟨address, size⟩))
  | _, .get size => inferInstanceAs (Decidable (size ≠ 0))
  | _, .put _ => inferInstanceAs (Decidable True)

theorem disjoint_addrs_of_apart {ls : List MemLink} {l : MemLink} (h : ∀ r ∈ ls, Apart r l) :
    Disjoint l.span.set (addrs ls) := by
  rw [Set.disjoint_left]
  rintro x hx ⟨s, hs, hxs⟩
  obtain ⟨r, hr, rfl⟩ := List.mem_map.mp hs
  obtain h | h := h r hr
  · exact (hxs.2.trans_le h).not_ge hx.1
  · exact (hx.2.trans_le h).not_ge hxs.1

/-- The top address is never added, which leaves room for every size. -/
structure Good (s : Session) : Prop where
  inv : Inv (addrs s.added) s.alloc
  top : ∀ x ∈ addrs s.added, x < 2 ^ 64 - 1

theorem good_start : Good start := ⟨by simpa [start] using inv_init, by simp [start]⟩

theorem gapped_of_top {S : Set Nat} (h : ∀ x ∈ S, x < 2 ^ 64 - 1) : Gapped S :=
  ⟨fun x hx => (h x hx).trans (by omega), 2 ^ 64 - 1, by omega, fun hm => lt_irrefl _ (h _ hm)⟩

theorem inv_memAllocGet {added : Set Nat} {m : MemAlloc} {size : UInt64} (h : Inv added m)
    (hsize : size ≠ 0) : Inv added (memAllocGet true m size).2 := by
  cases he : memAllocGet true m size with
  | mk r m' =>
    cases r with
    | error e => rw [memAllocGet_error he]; exact h
    | ok a => exact h.get hsize he

theorem good_step (s : Session) (c : Call) (h : Good s) (hc : Allowed s c) : Good (step s c) := by
  cases c with
  | addFree address size =>
    obtain ⟨hsize, hend, hapart⟩ := hc
    have hadded : addrs (s.added ++ [⟨address, size⟩]) =
        addrs s.added ∪ (MemLink.span ⟨address, size⟩).set := by simp
    have htop : ∀ x ∈ addrs (s.added ++ [⟨address, size⟩]), x < 2 ^ 64 - 1 := by
      rw [hadded]
      rintro x (hx | ⟨-, hx⟩)
      · exact h.top x hx
      · simp only [MemLink.span] at hx
        omega
    refine ⟨?_, htop⟩
    simp only [step, hadded]
    exact (h.inv.addFree address hsize (disjoint_addrs_of_apart hapart)
      (hadded ▸ gapped_of_top htop)).2.2
  | get size => exact ⟨inv_memAllocGet h.inv hc, h.top⟩
  | put address => exact ⟨h.inv.put address, h.top⟩

theorem good_run {calls : List Call} (h : Along step Allowed start calls) :
    Good (run step start calls) := run_invariant good_step good_start h

/-- The blocks of both lists are disjoint and hold exactly the addresses added, and a granted
request receives a range of the size asked for that was wholly free. -/
structure Conserved (s : Session) : Prop where
  disjoint : (s.alloc.free ++ s.alloc.allocated).Pairwise
    (fun k l => Disjoint k.span.set l.span.set)
  union : addrs (s.alloc.free ++ s.alloc.allocated) = addrs s.added
  granted : ∀ size a m', size ≠ 0 → memAllocGet true s.alloc size = (.ok a, m') →
    (MemLink.span ⟨a, size⟩).set ⊆ addrs s.alloc.free ∧
      m'.allocated = s.alloc.allocated ++ [⟨a, size⟩] ∧
      addrs m'.free = addrs s.alloc.free \ (MemLink.span ⟨a, size⟩).set

theorem run_conserved (calls : List Call) (h : Along step Allowed start calls) :
    Conserved (run step start calls) := by
  have hg := good_run h
  refine ⟨hg.inv.blocks_pairwise, by rw [addrs_append, hg.inv.union], fun size a m' hsize he => ?_⟩
  obtain ⟨hsub, hal, -, hfree⟩ := hg.inv.get_spec hsize he
  exact ⟨hsub, hal, hfree⟩

def sample : List Call :=
  [.addFree 0x1000 0x1000, .addFree 0x4000 0x1000, .get 0x800, .get 0x1000, .put 0x1000, .put 7]

theorem run_conserved_sample : Conserved (run step start sample) := run_conserved sample (by decide)

theorem free_eq_of_addrs {S T : Set Nat} {m n : MemAlloc} (hm : Inv S m) (hn : Inv T n)
    (h : addrs m.free = addrs n.free) : m.free = n.free :=
  List.map_injective_iff.mpr MemLink.span_injective (hm.canonical.ext hn.canonical h)

theorem free_eq_of_allocated {S : Set Nat} {m n : MemAlloc} (hm : Inv S m) (hn : Inv S n)
    (h : m.allocated.Perm n.allocated) : m.free = n.free := by
  refine free_eq_of_addrs hm hn ?_
  have hd : ∀ {k : MemAlloc}, Inv S k → addrs k.free = S \ addrs k.allocated := fun hk => by
    rw [← hk.union, Set.union_sdiff_right, sdiff_eq_left.mpr hk.separate]
  rw [hd hm, hd hn, addrs_perm h]

def Call.isAddFree : Call → Bool
  | .addFree _ _ => true
  | _ => false

theorem added_of_no_addFree {s : Session} {calls : List Call}
    (h : ∀ c ∈ calls, c.isAddFree = false) : (run step s calls).added = s.added := by
  induction calls generalizing s with
  | nil => rfl
  | cons c calls ih =>
    rw [run_cons, ih fun d hd => h d (List.mem_cons_of_mem _ hd)]
    have hc := h c (by simp)
    cases c with
    | addFree address size => simp [Call.isAddFree] at hc
    | get size => rfl
    | put address => rfl

/-- Serve the requests in order; the addresses handed out, and the allocator that results. -/
def getAll (m : MemAlloc) : List UInt64 → List UInt64 × MemAlloc
  | [] => ([], m)
  | size :: sizes =>
    match memAllocGet true m size with
    | (.ok a, m') => (a :: (getAll m' sizes).1, (getAll m' sizes).2)
    | (.error _, m') => getAll m' sizes

def putAll (m : MemAlloc) (addresses : List UInt64) : MemAlloc :=
  addresses.foldl (fun m a => (memAllocPut true m a).2) m

theorem getAll_spec {S : Set Nat} {m : MemAlloc} (h : Inv S m) {sizes : List UInt64}
    (hs : ∀ size ∈ sizes, size ≠ 0) :
    Inv S (getAll m sizes).2 ∧ ∃ granted, granted.map MemLink.address = (getAll m sizes).1 ∧
      (getAll m sizes).2.allocated = m.allocated ++ granted := by
  induction sizes generalizing m with
  | nil => exact ⟨h, [], rfl, by simp [getAll]⟩
  | cons size sizes ih =>
    have hsize : size ≠ 0 := hs size (by simp)
    have hss : ∀ z ∈ sizes, z ≠ 0 := fun z hz => hs z (by simp [hz])
    cases he : memAllocGet true m size with
    | mk r m' =>
      cases r with
      | error e =>
        simp only [getAll, he]
        rw [memAllocGet_error he]
        exact ih h hss
      | ok a =>
        simp only [getAll, he]
        obtain ⟨hi, granted, hg, hal⟩ := ih (h.get hsize he) hss
        refine ⟨hi, ⟨a, size⟩ :: granted, by simp [hg], ?_⟩
        rw [hal, (h.get_spec hsize he).2.1, List.append_assoc, List.singleton_append]

theorem putAll_spec {S : Set Nat} {m : MemAlloc} (h : Inv S m) (addresses : List UInt64)
    {kept granted : List MemLink} (hal : m.allocated = kept ++ granted)
    (hp : addresses.Perm (granted.map MemLink.address)) :
    Inv S (putAll m addresses) ∧ (putAll m addresses).allocated = kept := by
  induction addresses generalizing m granted with
  | nil =>
    have hg : granted = [] := List.map_eq_nil_iff.mp hp.nil_eq.symm
    exact ⟨h, by simp [putAll, hal, hg]⟩
  | cons a addresses ih =>
    have hnd := h.allocated_nodup
    rw [hal, List.map_append] at hnd
    obtain ⟨-, hgn, hkg⟩ := List.nodup_append.mp hnd
    have ha : a ∈ granted.map MemLink.address := hp.subset (by simp)
    have hka : ∀ l ∈ kept, l.address ≠ a := fun l hl => hkg _ (List.mem_map_of_mem hl) _ ha
    have hnext : (memAllocPut true m a).2.allocated =
        kept ++ granted.filter (fun l => l.address ≠ a) := by
      rw [memAllocPut_allocated h.allocated_nodup, hal, List.filter_append]
      congr 1
      simpa using hka
    refine ih (h.put a) hnext ?_
    have hf : (granted.filter (fun l => l.address ≠ a)).map MemLink.address =
        (granted.map MemLink.address).filter (fun x => x ≠ a) := by
      rw [List.filter_map]; rfl
    have hnot : a ∉ addresses := (List.nodup_cons.mp (hp.nodup_iff.mpr hgn)).1
    rw [hf]
    refine List.Perm.trans ?_ (hp.filter (fun x => x ≠ a))
    rw [List.filter_cons_of_neg (by simp), List.filter_eq_self.mpr]
    exact fun x hx => decide_eq_true fun he => hnot (he ▸ hx)

/-- The free list is the canonical list of the free addresses, giving back what was taken restores
it, and first fit is complete and lowest. -/
structure FreeListCanonical (s : Session) : Prop where
  sorted : s.alloc.free.Pairwise (fun k l => k.address < l.address)
  nonempty : ∀ l ∈ s.alloc.free, l.size ≠ 0
  untouching : s.alloc.free.Pairwise (fun k l => k.span.hi < l.span.lo)
  determined : ∀ calls, Along step Allowed start calls →
    addrs (run step start calls).alloc.free = addrs s.alloc.free →
      (run step start calls).alloc.free = s.alloc.free
  restored : ∀ calls, (∀ c ∈ calls, c.isAddFree = false) → Along step Allowed s calls →
    (run step s calls).alloc.allocated.Perm s.alloc.allocated →
      (run step s calls).alloc.free = s.alloc.free
  restored_all : ∀ sizes order, (∀ size ∈ sizes, size ≠ 0) →
    order.Perm (getAll s.alloc sizes).1 → putAll (getAll s.alloc sizes).2 order = s.alloc
  complete : ∀ size, size ≠ 0 → ((∃ a m', memAllocGet true s.alloc size = (.ok a, m')) ↔
    ∃ x, Set.Ico x (x + size.toNat) ⊆ addrs s.alloc.free)
  lowest : ∀ size a m', size ≠ 0 → memAllocGet true s.alloc size = (.ok a, m') →
    IsLeast {x | Set.Ico x (x + size.toNat) ⊆ addrs s.alloc.free} a.toNat

theorem run_free_list_canonical (calls : List Call) (h : Along step Allowed start calls) :
    FreeListCanonical (run step start calls) := by
  have hg := good_run h
  constructor
  case sorted => exact pairwise_address hg.inv.canonical
  case nonempty =>
    exact fun l hl => MemLink.lo_lt_hi.mp (hg.inv.canonical.nonempty _ (List.mem_map_of_mem hl))
  case untouching => exact List.pairwise_map.mp hg.inv.canonical.gaps
  case determined => exact fun calls' h' he => free_eq_of_addrs (good_run h').inv hg.inv he
  case restored =>
    intro more hno hal hp
    have hi := (run_invariant good_step hg hal).inv
    rw [added_of_no_addFree hno] at hi
    exact free_eq_of_allocated hi hg.inv hp
  case restored_all =>
    intro sizes order hs hp
    obtain ⟨hi, granted, hgr, hal⟩ := getAll_spec hg.inv hs
    obtain ⟨hi', hal'⟩ := putAll_spec hi order hal (hgr ▸ hp)
    have hfree := free_eq_of_allocated hi' hg.inv (hal' ▸ .refl _)
    cases hm : putAll (getAll (run step start calls).alloc sizes).2 order
    simp_all
  case complete =>
    exact fun size hsize => ⟨fun ⟨a, m', he⟩ => ⟨_, (hg.inv.get_isLeast hsize he).1⟩,
      fun ⟨x, hx⟩ => hg.inv.get_succeeds hsize hx⟩
  case lowest => exact fun size a m' hsize he => hg.inv.get_isLeast hsize he

theorem run_free_list_canonical_sample : FreeListCanonical (run step start sample) :=
  run_free_list_canonical sample (by decide)

end OpaeLibs.Opaemem.Conservation
