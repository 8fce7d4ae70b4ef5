import OpaeLibs.Opaevfio.Buffers

namespace OpaeLibs.Opaevfio.IovaSpace

open OpaeLibs.Lib.Spans
open OpaeLibs.Opaemem.Allocator OpaeLibs.Opaemem.FreeList OpaeLibs.Opaemem.Invariant
open OpaeLibs.Opaevfio.Buffers

def offsets (r : OpaeVfioIovaRange) : Set Nat := Set.Ico r.start.toNat (r.last.toNat + 1)

theorem offsets_disjoint {r s : OpaeVfioIovaRange} (h : r.last < s.start ∨ s.last < r.start) :
    Disjoint (offsets r) (offsets s) := by
  rw [UInt64.lt_iff_toNat_lt, UInt64.lt_iff_toNat_lt] at h
  rw [Set.disjoint_left]
  intro x hr hs
  have h1 := hr.1
  have h2 := hr.2
  have h3 := hs.1
  have h4 := hs.2
  omega

/-- The ranges of the kernel's IOVA capability are non-empty and do not overlap. -/
structure KernelRanges (reported : List ReportedRange) : Prop where
  ordered : ∀ r ∈ reported, r.range.start ≤ r.range.last
  apart : reported.Pairwise
    (fun r s => r.range.last < s.range.start ∨ s.range.last < r.range.start)

/-- The one block of an allocator that owns all `2 ^ 64` offsets: its size has wrapped to 0. -/
def whole : MemAlloc := ⟨[⟨0, 0⟩], []⟩

/-- An allocator as discovery leaves it, nothing allocated. The second case arises only if the
kernel reports the entire 64-bit space. -/
def Discovered (S : Set Nat) (m : MemAlloc) : Prop :=
  m.allocated = [] ∧ Inv S m ∨ m = whole ∧ ∀ x < 2 ^ 64, x ∈ S

theorem range_span {start last : UInt64} (h : start ≤ last) (hz : last + 1 - start ≠ 0) :
    (MemLink.span ⟨start, last + 1 - start⟩) = ⟨start.toNat, last.toNat + 1⟩ := by
  have hl := last.toNat_lt
  have hs := start.toNat_lt
  have hle := UInt64.le_iff_toNat_le.mp h
  have hz' : (last + 1 - start).toNat ≠ 0 := fun h0 => hz (UInt64.toNat_inj.mp h0)
  simp only [MemLink.span, UInt64.toNat_sub, UInt64.toNat_add, UInt64.toNat_one] at hz' ⊢
  congr 1
  omega

/-- What is left below and above a range. -/
def lowGap (start : UInt64) : List MemLink := if start = 0 then [] else [⟨0, start⟩]

def highGap (last : UInt64) : List MemLink :=
  if last + 1 = 0 then [] else [⟨last + 1, -(last + 1)⟩]

theorem succ_eq_zero {last : UInt64} : last + 1 = 0 ↔ last.toNat + 1 = 2 ^ 64 := by
  have hl := last.toNat_lt
  rw [← UInt64.toNat_inj, UInt64.toNat_add, UInt64.toNat_one, UInt64.toNat_zero]
  omega

theorem lowGap_span (start : UInt64) : (lowGap start).map MemLink.span =
    if start.toNat = 0 then [] else [⟨0, start.toNat⟩] := by
  have hs : start = 0 ↔ start.toNat = 0 := by rw [← UInt64.toNat_inj]; rfl
  by_cases h : start = 0
  · simp [lowGap, h]
  · rw [lowGap, if_neg h, if_neg (mt hs.mpr h)]
    simp [MemLink.span]

theorem highGap_span (last : UInt64) : (highGap last).map MemLink.span =
    if last.toNat + 1 = 2 ^ 64 then [] else [⟨last.toNat + 1, 2 ^ 64⟩] := by
  have hl := last.toNat_lt
  by_cases h : last + 1 = 0
  · rw [highGap, if_pos h, if_pos (succ_eq_zero.mp h), List.map_nil]
  · have hne := mt succ_eq_zero.mpr h
    have hadd : (last + 1).toNat = last.toNat + 1 := by
      rw [UInt64.toNat_add, UInt64.toNat_one]
      omega
    rw [highGap, if_neg h, if_neg hne, List.map_cons, List.map_nil, MemLink.span, UInt64.toNat_neg,
      hadd]
    simp only [UInt64.size]
    congr 2
    omega

theorem free_of_complement {S : Set Nat} {m : MemAlloc} {start last : UInt64}
    (hc : Canonical (m.free.map MemLink.span)) (hS : addrs m.free = S) (h : start ≤ last)
    (hd : Disjoint (Set.Ico start.toNat (last.toNat + 1)) S) (hb : ∀ x ∈ S, x < 2 ^ 64)
    (hall : ∀ x < 2 ^ 64, x ∈ S ∪ Set.Ico start.toNat (last.toNat + 1)) :
    m.free = lowGap start ++ highGap last := by
  have hl := last.toNat_lt
  have hle := UInt64.le_iff_toNat_le.mp h
  have hmem : ∀ x, x ∈ S ↔ x < 2 ^ 64 ∧ ¬(start.toNat ≤ x ∧ x < last.toNat + 1) := fun x =>
    ⟨fun hx => ⟨hb x hx, fun hr => Set.disjoint_left.mp hd hr hx⟩,
      fun hx => (hall x hx.1).resolve_right hx.2⟩
  apply List.map_injective_iff.mpr MemLink.span_injective
  apply hc.ext
  · rw [List.map_append, lowGap_span, highGap_span]
    split <;> split
    · exact canonical_nil
    all_goals
      simp [canonical_cons, canonical_nil]
      omega
  · change addrs m.free = _
    rw [hS, List.map_append, lowGap_span, highGap_span]
    apply Set.ext
    intro x
    rw [hmem]
    split <;> split
    all_goals
      simp only [List.nil_append, List.append_nil, List.cons_append, cover_cons, cover_nil,
        Set.union_empty, Set.mem_union, Span.mem_set, Set.mem_empty_iff_false,
        iff_false]
      omega

theorem addFree_whole {S : Set Nat} {m : MemAlloc} {start last : UInt64} (hm : Inv S m)
    (hal : m.allocated = []) (h : start ≤ last)
    (hd : Disjoint (Set.Ico start.toNat (last.toNat + 1)) S)
    (hall : ∀ x < 2 ^ 64, x ∈ S ∪ Set.Ico start.toNat (last.toNat + 1)) :
    (memAllocAddFree true m start (last + 1 - start)).2 = whole := by
  have hf : addrs m.free = S := by rw [← hm.union, hal, addrs_nil, Set.union_empty]
  have hfree := free_of_complement hm.canonical hf h hd hm.gapped.bounded hall
  have hle := UInt64.le_iff_toNat_le.mp h
  have hl := last.toNat_lt
  have hord : last + 1 ≠ 0 → start < last + 1 := by
    intro hne
    have hne' : (last + 1).toNat ≠ 0 := fun h0 => hne (UInt64.toNat_inj.mp h0)
    rw [UInt64.lt_iff_toNat_lt]
    rw [UInt64.toNat_add, UInt64.toNat_one] at hne' ⊢
    omega
  cases m with
  | mk free allocated =>
    simp only at hal hfree
    subst hal hfree
    clear hm hf hall hd
    by_cases h0 : start = 0 <;> by_cases h1 : last + 1 = 0
    · simp [lowGap, highGap, memAllocAddFree, memLinkAlloc, memAllocCoalesce, whole, h0, h1]
    · subst h0
      simp [lowGap, highGap, memAllocAddFree, memLinkAlloc, memAllocCoalesce, coalescePrev,
        coalesceNext, whole, h1, hord h1]
    · have hpos : 0 < start := by grind
      have hz : -start + start = 0 := by grind
      simp [lowGap, highGap, memAllocAddFree, memLinkAlloc, memAllocCoalesce, coalescePrev,
        coalesceNext, whole, seek, h0, h1, hpos, hz]
    · have hpos : 0 < start := by grind
      have hnlt : ¬last + 1 < start := UInt64.not_lt.mpr (UInt64.le_of_lt (hord h1))
      simp [lowGap, highGap, memAllocAddFree, memLinkAlloc, memAllocCoalesce, coalescePrev,
        coalesceNext, whole, seek, h0, h1, hpos, hnlt]

theorem discoverRange_granted {S : Set Nat} {v : OpaeVfio} {r : OpaeVfioIovaRange}
    (hv : Discovered S v.iovaAlloc) (h : r.start ≤ r.last) (hd : Disjoint (offsets r) S) :
    Discovered (S ∪ offsets r) (discoverRange v ⟨r, true, true⟩).iovaAlloc := by
  have hle := UInt64.le_iff_toNat_le.mp h
  have hl := r.last.toNat_lt
  rw [discoverRange, if_pos rfl]
  obtain ⟨hal, hi⟩ | ⟨-, hall⟩ := hv
  · by_cases hall : ∀ x < 2 ^ 64, x ∈ S ∪ offsets r
    · exact .inr ⟨addFree_whole hi hal h hd hall, hall⟩
    · push Not at hall
      obtain ⟨x, hx, hxS⟩ := hall
      have hz : r.last + 1 - r.start ≠ 0 := by
        intro hz
        apply hxS
        have hz' := congrArg UInt64.toNat hz
        rw [UInt64.toNat_sub, UInt64.toNat_add, UInt64.toNat_one, UInt64.toNat_zero] at hz'
        exact .inr ⟨by omega, by omega⟩
      have hspan := range_span h hz
      have hset : (MemLink.span ⟨r.start, r.last + 1 - r.start⟩).set = offsets r := by
        rw [hspan]
        rfl
      have hg : Gapped (S ∪ offsets r) := by
        refine ⟨?_, x, hx, hxS⟩
        rintro y (hy | hy)
        · exact hi.gapped.bounded y hy
        · exact hy.2.trans_le (by omega)
      obtain ⟨-, hal', hi'⟩ := hi.addFree r.start hz (hset ▸ hd) (hset ▸ hg)
      exact .inl ⟨hal'.trans hal, hset ▸ hi'⟩
  · -- nothing is left that the range could lie in
    exact absurd (hall _ (hle.trans_lt hl))
      (Set.disjoint_left.mp hd ⟨le_refl _, Nat.lt_succ_of_le hle⟩)

theorem discoverRange_spec {S : Set Nat} {v : OpaeVfio} {r : ReportedRange}
    (hv : Discovered S v.iovaAlloc) (h : r.range.start ≤ r.range.last)
    (hd : Disjoint (offsets r.range) S) :
    (discoverRange v r).contBuffers = v.contBuffers ∧
      ∃ T, T ⊆ S ∪ offsets r.range ∧ Discovered T (discoverRange v r).iovaAlloc := by
  obtain ⟨range, node, add⟩ := r
  cases node with
  | false => exact ⟨rfl, S, Set.subset_union_left, hv⟩
  | true =>
    refine ⟨rfl, ?_⟩
    cases add with
    | false => exact ⟨S, Set.subset_union_left, by
      simpa [discoverRange, memAllocAddFree, memLinkAlloc] using hv⟩
    | true => exact ⟨S ∪ offsets range, subset_rfl, discoverRange_granted hv h hd⟩

/-- However the allocations for the ranges turn out, discovery leaves the allocator in good order
and no buffer on the list. -/
theorem opaeVfioIovaDiscover_spec {reported : List ReportedRange} (h : KernelRanges reported) :
    (opaeVfioIovaDiscover reported).contBuffers = [] ∧
      ∃ S, Discovered S (opaeVfioIovaDiscover reported).iovaAlloc := by
  have hrun : ∀ (v : OpaeVfio) (S : Set Nat), Discovered S v.iovaAlloc →
      (∀ r ∈ reported, Disjoint (offsets r.range) S) →
      (reported.foldl discoverRange v).contBuffers = v.contBuffers ∧
        ∃ T, Discovered T (reported.foldl discoverRange v).iovaAlloc := by
    obtain ⟨hord, hapart⟩ := h
    induction reported with
    | nil => exact fun v S hv _ => ⟨rfl, S, hv⟩
    | cons r rest ih =>
      intro v S hv hS
      obtain ⟨hr, hrest⟩ := List.pairwise_cons.mp hapart
      obtain ⟨hb, T, hT, hv'⟩ := discoverRange_spec hv (hord r (by simp)) (hS r (by simp))
      have hdT : ∀ s ∈ rest, Disjoint (offsets s.range) T := by
        intro s hs
        refine Disjoint.mono_right hT (Set.disjoint_union_right.mpr ⟨hS s (by simp [hs]), ?_⟩)
        exact (offsets_disjoint (hr s hs)).symm
      obtain ⟨hb', hT'⟩ := ih (fun s hs => hord s (by simp [hs])) hrest _ T hv' hdT
      exact ⟨hb'.trans hb, hT'⟩
  exact hrun _ ∅ (.inl ⟨rfl, inv_init⟩) (by simp)

end OpaeLibs.Opaevfio.IovaSpace
