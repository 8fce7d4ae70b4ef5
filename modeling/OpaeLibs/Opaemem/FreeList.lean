import OpaeLibs.Opaemem.Allocator

namespace OpaeLibs.Opaemem.FreeList

open OpaeLibs.Lib.Spans OpaeLibs.Opaemem.Allocator

/-- A set of 64-bit addresses that leaves out at least one of them. No block inside such a set
has size `2 ^ 64`, so the `uint64_t` sizes of merged blocks never wrap. -/
structure Gapped (S : Set Nat) : Prop where
  bounded : ∀ x ∈ S, x < 2 ^ 64
  hole : ∃ x < 2 ^ 64, x ∉ S

theorem Gapped.mono {S T : Set Nat} (h : Gapped T) (hST : S ⊆ T) : Gapped S := by
  obtain ⟨x, hx, hxT⟩ := h.hole
  exact ⟨fun y hy => h.bounded y (hST hy), x, hx, fun hxS => hxT (hST hxS)⟩

theorem Gapped.length_lt {S : Set Nat} (h : Gapped S) {s : Span Nat} (hs : s.set ⊆ S) :
    s.hi - s.lo < 2 ^ 64 := by
  by_contra hlen
  have hlast : s.hi - 1 < 2 ^ 64 := h.bounded _ (hs ⟨by omega, by omega⟩)
  obtain ⟨x, hx, hxS⟩ := h.hole
  exact hxS (hs ⟨by omega, by omega⟩)

theorem Gapped.hi_le {S : Set Nat} (h : Gapped S) {s : Span Nat} (hs : s.set ⊆ S)
    (hlt : s.lo < s.hi) : s.hi ≤ 2 ^ 64 := by
  have hlast : s.hi - 1 < 2 ^ 64 := h.bounded _ (hs ⟨by omega, by omega⟩)
  omega

theorem end_eq_iff {k l : MemLink} (h : k.span.hi ≤ l.span.lo) :
    k.address + k.size = l.address ↔ k.span.hi = l.span.lo := by
  have hl := l.address.toNat_lt
  simp only [MemLink.span] at h ⊢
  rw [← UInt64.toNat_inj, UInt64.toNat_add, Nat.mod_eq_of_lt (by omega)]

theorem merge_span {k l : MemLink} (h : k.span.hi = l.span.lo)
    (hlen : l.span.hi - k.span.lo < 2 ^ 64) :
    (⟨k.address, l.size + k.size⟩ : MemLink).span = ⟨k.span.lo, l.span.hi⟩ := by
  simp only [MemLink.span] at h hlen ⊢
  rw [UInt64.toNat_add, Nat.mod_eq_of_lt (by omega)]
  congr 1
  omega

section Coalesce

variable {S : Set Nat} {before after : List MemLink} {l : MemLink}

theorem coalescePrev_span (hS : Gapped S) (hl : l.size ≠ 0) (hlS : l.span.set ⊆ S)
    (hb : ∀ p ∈ before, p.size ≠ 0 ∧ p.span.hi ≤ l.span.lo ∧ p.span.set ⊆ S) :
    (coalescePrev before l).1.map MemLink.span = (gluePrev (before.map MemLink.span) l.span).1 ∧
      (coalescePrev before l).2.span = (gluePrev (before.map MemLink.span) l.span).2 := by
  cases before with
  | nil => simp [coalescePrev, gluePrev]
  | cons prev rest =>
    obtain ⟨hp, hle, hpS⟩ := hb prev (by simp)
    simp only [coalescePrev, gluePrev, List.map_cons, end_eq_iff hle]
    by_cases he : prev.span.hi = l.span.lo
    · have hset := set_union_set (MemLink.lo_lt_hi.mpr hp) (MemLink.lo_lt_hi.mpr hl) he
      have hlen := hS.length_lt (hset ▸ Set.union_subset hpS hlS)
      simp only [if_pos he, merge_span he hlen, and_self]
    · simp only [if_neg he, List.map_cons, and_self]

theorem coalesceNext_span (hS : Gapped S) (hl : l.size ≠ 0) (hlS : l.span.set ⊆ S)
    (ha : ∀ n ∈ after, n.size ≠ 0 ∧ l.span.hi ≤ n.span.lo ∧ n.span.set ⊆ S) :
    (coalesceNext l after).map MemLink.span = glueNext l.span (after.map MemLink.span) := by
  cases after with
  | nil => simp [coalesceNext, glueNext]
  | cons next rest =>
    obtain ⟨hn, hle, hnS⟩ := ha next (by simp)
    simp only [coalesceNext, glueNext, List.map_cons, end_eq_iff hle]
    by_cases he : l.span.hi = next.span.lo
    · have hset := set_union_set (MemLink.lo_lt_hi.mpr hl) (MemLink.lo_lt_hi.mpr hn) he
      have hlen := hS.length_lt (hset ▸ Set.union_subset hlS hnS)
      simp only [if_pos he, List.map_cons, merge_span he hlen]
    · simp only [if_neg he, List.map_cons]

theorem coalescePrev_size (hl : l.span.lo < l.span.hi)
    (hspan : (coalescePrev before l).2.span = (gluePrev (before.map MemLink.span) l.span).2)
    (hb : ∀ p ∈ before, p.size ≠ 0 ∧ p.span.hi ≤ l.span.lo) :
    (coalescePrev before l).2.size ≠ 0 ∧ (coalescePrev before l).2.span.hi = l.span.hi := by
  rw [← MemLink.lo_lt_hi, hspan]
  cases before with
  | nil => exact ⟨hl, rfl⟩
  | cons prev rest =>
    have hp := MemLink.lo_lt_hi.mpr (hb prev (by simp)).1
    simp only [gluePrev, List.map_cons]
    split
    · next he => exact ⟨by simp only; omega, rfl⟩
    · exact ⟨hl, rfl⟩

/-- On blocks that lie in order around `l` the pointer code is the gluing of spans. -/
theorem memAllocCoalesce_span (hS : Gapped S) (hl : l.size ≠ 0) (hlS : l.span.set ⊆ S)
    (hb : ∀ p ∈ before, p.size ≠ 0 ∧ p.span.hi ≤ l.span.lo ∧ p.span.set ⊆ S)
    (ha : ∀ n ∈ after, n.size ≠ 0 ∧ l.span.hi ≤ n.span.lo ∧ n.span.set ⊆ S) :
    (memAllocCoalesce before l after).map MemLink.span =
      glue (before.map MemLink.span) l.span (after.map MemLink.span) := by
  obtain ⟨hp, hq⟩ := coalescePrev_span hS hl hlS hb
  have hlt := MemLink.lo_lt_hi.mpr hl
  obtain ⟨hq0, hqhi⟩ := coalescePrev_size hlt hq fun p hp => ⟨(hb p hp).1, (hb p hp).2.1⟩
  rw [memAllocCoalesce]
  split
  · next h => rw [h.1, h.2]; rfl
  · have hqS : (coalescePrev before l).2.span.set ⊆ S := by
      cases before with
      | nil => exact hlS
      | cons prev rest =>
        obtain ⟨hp0, hle, hpS⟩ := hb prev (by simp)
        rw [hq]
        simp only [gluePrev, List.map_cons]
        split
        · next he =>
          rw [set_union_set (MemLink.lo_lt_hi.mpr hp0) hlt he]
          exact Set.union_subset hpS hlS
        · exact hlS
    rw [List.map_append, List.map_reverse, hp,
      coalesceNext_span hS hq0 hqS (by rw [hqhi]; exact ha), hq, glue]

end Coalesce

theorem pairwise_address {ls : List MemLink} (h : Canonical (ls.map MemLink.span)) :
    ls.Pairwise (fun k l => k.address < l.address) :=
  (List.pairwise_map.mp h.lo_strictMono).imp fun hkl => UInt64.lt_iff_toNat_lt.mpr hkl

/-- Where the two loops of `mem_alloc_add_free` put a new node: everything before it starts lower,
everything after it starts at or above it. -/
theorem memAllocAddFree_split {m : MemAlloc} (address size : UInt64)
    (hc : Canonical (m.free.map MemLink.span)) (hne : ∀ p ∈ m.free, p.address ≠ address) :
    ∃ before after, before.reverse ++ after = m.free ∧ (∀ p ∈ before, p.address < address) ∧
      (∀ p ∈ after, address ≤ p.address) ∧
      memAllocAddFree true m address size =
        (0, { m with free := memAllocCoalesce before ⟨address, size⟩ after }) := by
  have hpw := pairwise_address hc
  cases hf : m.free with
  | nil => exact ⟨[], [], by simp, by simp, by simp, by simp [memAllocAddFree, memLinkAlloc, hf]⟩
  | cons p rest =>
    rw [hf] at hpw hne
    have hpa : p.address ≠ address := hne p (by simp)
    by_cases hlt : address < p.address
    · refine ⟨[], p :: rest, by simp, by simp, ?_, ?_⟩
      · simp only [List.mem_cons, forall_eq_or_imp]
        exact ⟨UInt64.le_of_lt hlt, fun q hq => UInt64.le_of_lt
          (UInt64.lt_trans hlt ((List.pairwise_cons.mp hpw).1 q hq))⟩
      · simp [memAllocAddFree, memLinkAlloc, hf, hlt]
    · obtain ⟨hb, ha⟩ := seek_bounds address [] hpw (by simp)
      refine ⟨(seek address [] (p :: rest)).1, (seek address [] (p :: rest)).2, ?_, hb, ha, ?_⟩
      · rw [seek_append]; rfl
      · simp [memAllocAddFree, memLinkAlloc, hf, hlt, Ne.symm hpa]

/-- Adding a non-empty block that meets no free block succeeds, keeps the free list canonical and
adds exactly the addresses of the block. -/
theorem memAllocAddFree_spec {m : MemAlloc} (address : UInt64) {size : UInt64}
    (hc : Canonical (m.free.map MemLink.span)) (hsize : size ≠ 0)
    (hd : Disjoint (MemLink.span ⟨address, size⟩).set (addrs m.free))
    (hS : Gapped (addrs m.free ∪ (MemLink.span ⟨address, size⟩).set)) :
    ∃ free, memAllocAddFree true m address size = (0, { m with free := free }) ∧
      Canonical (free.map MemLink.span) ∧
      addrs free = addrs m.free ∪ (MemLink.span ⟨address, size⟩).set := by
  have hl : (⟨address, size⟩ : MemLink).span.lo < (⟨address, size⟩ : MemLink).span.hi :=
    MemLink.lo_lt_hi.mpr hsize
  have hsz : ∀ p ∈ m.free, p.span.lo < p.span.hi := fun p hp =>
    hc.nonempty _ (List.mem_map_of_mem hp)
  have hdp : ∀ p ∈ m.free, Disjoint (MemLink.span ⟨address, size⟩).set p.span.set :=
    fun p hp => hd.mono_right (span_subset_addrs hp)
  have hne : ∀ p ∈ m.free, p.address ≠ address := by
    rintro p hp rfl
    exact Set.disjoint_left.mp (hdp p hp) ⟨le_refl _, hl⟩ ⟨le_refl _, hsz p hp⟩
  obtain ⟨before, after, hsplit, hb, ha, heq⟩ := memAllocAddFree_split address size hc hne
  have hbm : ∀ p ∈ before, p ∈ m.free := fun p hp => by
    rw [← hsplit]; exact List.mem_append_left _ (List.mem_reverse.mpr hp)
  have ham : ∀ p ∈ after, p ∈ m.free := fun p hp => by
    rw [← hsplit]; exact List.mem_append_right _ hp
  have hbhi : ∀ p ∈ before, p.span.hi ≤ (⟨address, size⟩ : MemLink).span.lo := fun p hp =>
    le_of_disjoint hl (hdp p (hbm p hp)).symm (Nat.le_of_lt (UInt64.lt_iff_toNat_lt.mp (hb p hp)))
  have halo : ∀ p ∈ after, (⟨address, size⟩ : MemLink).span.hi ≤ p.span.lo := fun p hp =>
    le_of_disjoint (hsz p (ham p hp)) (hdp p (ham p hp)) (UInt64.le_iff_toNat_le.mp (ha p hp))
  have hglue := memAllocCoalesce_span hS hsize Set.subset_union_right
    (fun p hp => ⟨MemLink.lo_lt_hi.mp (hsz p (hbm p hp)), hbhi p hp,
      (span_subset_addrs (hbm p hp)).trans Set.subset_union_left⟩)
    (fun p hp => ⟨MemLink.lo_lt_hi.mp (hsz p (ham p hp)), halo p hp,
      (span_subset_addrs (ham p hp)).trans Set.subset_union_left⟩)
  rw [← hsplit, List.map_append, List.map_reverse] at hc
  obtain ⟨hcan, hcov⟩ := canonical_glue hl hc (by simpa using hbhi) (by simpa using halo)
  refine ⟨_, heq, hglue ▸ hcan, ?_⟩
  rw [addrs, hglue, hcov, ← List.map_reverse, ← List.map_append, hsplit, addrs]

theorem firstFit_cases (malloc : Bool) (m : MemAlloc) (size : UInt64) (before ls : List MemLink) :
    ((∀ p ∈ ls, p.size < size) ∧ firstFit malloc m size before ls = (.error 1, m)) ∨
      ∃ skipped p rest, ls = skipped ++ p :: rest ∧ (∀ q ∈ skipped, q.size < size) ∧ size ≤ p.size ∧
        firstFit malloc m size before ls =
          memAllocAllocateNode malloc m (skipped.reverse ++ before) p rest size := by
  induction ls generalizing before with
  | nil => exact .inl ⟨by simp, rfl⟩
  | cons p rest ih =>
    rw [firstFit]
    split
    · next h => exact .inr ⟨[], p, rest, rfl, by simp, h, rfl⟩
    · next h =>
      have hlt : p.size < size := UInt64.not_le.mp h
      obtain ⟨hs, he⟩ | ⟨sk, q, rs, hls, hs, hq, he⟩ := ih (p :: before)
      · exact .inl ⟨by simpa using ⟨hlt, hs⟩, he⟩
      · exact .inr ⟨p :: sk, q, rs, by rw [hls]; rfl, by simpa using ⟨hlt, hs⟩, hq, by simp [he]⟩

/-- What a request can do: no block is large enough, or the first one that is gives up its front. -/
theorem memAllocGet_cases (m : MemAlloc) (size : UInt64) :
    ((∀ p ∈ m.free, p.size < size) ∧ memAllocGet true m size = (.error 1, m)) ∨
      ∃ before p after, m.free = before ++ p :: after ∧ (∀ q ∈ before, q.size < size) ∧
        ((p.size = size ∧ memAllocGet true m size =
          (.ok p.address, ⟨before ++ after, m.allocated ++ [p]⟩)) ∨
        (size < p.size ∧ memAllocGet true m size =
          (.ok p.address, ⟨before ++ ⟨p.address + size, p.size - size⟩ :: after,
            m.allocated ++ [⟨p.address, size⟩]⟩))) := by
  obtain h | ⟨before, p, after, hf, hb, hp, he⟩ := firstFit_cases true m size [] m.free
  · exact .inl h
  · refine .inr ⟨before, p, after, hf, hb, ?_⟩
    rw [List.append_nil] at he
    rw [memAllocGet, he, memAllocAllocateNode, List.reverse_reverse]
    by_cases hs : p.size = size
    · exact .inl ⟨hs, if_pos hs⟩
    · exact .inr ⟨UInt64.lt_of_le_of_ne hp (Ne.symm hs), by rw [if_neg hs]; rfl⟩

theorem firstFit_malloc (malloc : Bool) (m : MemAlloc) (size : UInt64) (before ls : List MemLink) :
    firstFit malloc m size before ls = firstFit true m size before ls ∨
      firstFit malloc m size before ls = (.error 1, m) := by
  induction ls generalizing before with
  | nil => exact .inl rfl
  | cons p rest ih =>
    rw [firstFit, firstFit]
    split
    · rw [memAllocAllocateNode, memAllocAllocateNode]
      split
      · exact .inl rfl
      · cases malloc with
        | true => exact .inl rfl
        | false => exact .inr rfl
    · exact ih (p :: before)

/-- Without memory for a new node a request is granted as usual or refused with no effect. -/
theorem memAllocGet_malloc (malloc : Bool) (m : MemAlloc) (size : UInt64) :
    memAllocGet malloc m size = memAllocGet true m size ∨
      memAllocGet malloc m size = (.error 1, m) := firstFit_malloc malloc m size [] m.free

theorem findAllocated_cases (malloc : Bool) (m : MemAlloc) (address : UInt64)
    (before ls : List MemLink) :
    ((∀ p ∈ ls, p.address ≠ address) ∧ findAllocated malloc m address before ls = (1, m)) ∨
      ∃ skipped p rest, ls = skipped ++ p :: rest ∧ p.address = address ∧
        (∀ q ∈ skipped, q.address ≠ address) ∧
        findAllocated malloc m address before ls =
          memAllocFreeNode malloc m (skipped.reverse ++ before) p rest := by
  induction ls generalizing before with
  | nil => exact .inl ⟨by simp, rfl⟩
  | cons p rest ih =>
    rw [findAllocated]
    split
    · next h => exact .inr ⟨[], p, rest, rfl, h.symm, by simp, rfl⟩
    · next h =>
      have hne : p.address ≠ address := Ne.symm h
      obtain ⟨hs, he⟩ | ⟨sk, q, rs, hls, hq, hs, he⟩ := ih (p :: before)
      · exact .inl ⟨by simpa using ⟨hne, hs⟩, he⟩
      · exact .inr ⟨p :: sk, q, rs, by rw [hls]; rfl, hq, by simpa using ⟨hne, hs⟩, by simp [he]⟩

theorem memAllocPut_cases (malloc : Bool) (m : MemAlloc) (address : UInt64) :
    ((∀ p ∈ m.allocated, p.address ≠ address) ∧ memAllocPut malloc m address = (1, m)) ∨
      ∃ before p after, m.allocated = before ++ p :: after ∧ p.address = address ∧
        (∀ q ∈ before, q.address ≠ address) ∧
        memAllocPut malloc m address =
          memAllocAddFree malloc { m with allocated := before ++ after } p.address p.size := by
  obtain h | ⟨before, p, after, hf, hp, hb, he⟩ :=
    findAllocated_cases malloc m address [] m.allocated
  · exact .inl h
  · refine .inr ⟨before, p, after, hf, hp, hb, ?_⟩
    rw [List.append_nil] at he
    rw [memAllocPut, he, memAllocFreeNode, List.reverse_reverse]

theorem memAllocAddFree_allocated (malloc : Bool) (m : MemAlloc) (address size : UInt64) :
    (memAllocAddFree malloc m address size).2.allocated = m.allocated := by
  rw [memAllocAddFree]
  split
  · rfl
  · split
    · rfl
    · split
      · rfl
      · split <;> rfl

theorem filter_ne_middle {before after : List MemLink} {p : MemLink}
    (h : ((before ++ p :: after).map MemLink.address).Nodup) :
    (before ++ p :: after).filter (fun l => l.address ≠ p.address) = before ++ after := by
  have hm := (List.perm_middle.map MemLink.address).nodup_iff.mp h
  have hne : ∀ l ∈ before ++ after, l.address ≠ p.address := fun l hl he =>
    (List.nodup_cons.mp hm).1 (he ▸ List.mem_map_of_mem hl)
  have hk : (before ++ after).filter (fun l => l.address ≠ p.address) = before ++ after :=
    List.filter_eq_self.mpr fun l hl => decide_eq_true (hne l hl)
  rw [List.filter_append, List.filter_cons_of_neg (by simp), ← List.filter_append, hk]

/-- Whatever happens to the free list, a block that is put leaves the allocated list. -/
theorem memAllocPut_allocated {malloc : Bool} {m : MemAlloc} {address : UInt64}
    (h : (m.allocated.map MemLink.address).Nodup) :
    (memAllocPut malloc m address).2.allocated =
      m.allocated.filter (fun l => l.address ≠ address) := by
  obtain ⟨hn, he⟩ | ⟨before, p, after, hal, rfl, -, he⟩ := memAllocPut_cases malloc m address
  · rw [he, List.filter_eq_self.mpr fun l hl => decide_eq_true (hn l hl)]
  · rw [he, memAllocAddFree_allocated, hal]
    exact (filter_ne_middle (hal ▸ h)).symm

end OpaeLibs.Opaemem.FreeList
