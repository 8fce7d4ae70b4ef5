import OpaeLibs.Opaemem.FreeList

namespace OpaeLibs.Opaemem.Invariant

open OpaeLibs.Lib.Spans OpaeLibs.Opaemem.Allocator OpaeLibs.Opaemem.FreeList

/-- The blocks of both lists partition `added`, and the free ones are in canonical order. -/
structure Inv (added : Set Nat) (m : MemAlloc) : Prop where
  gapped : Gapped added
  canonical : Canonical (m.free.map MemLink.span)
  sizes : ∀ l ∈ m.allocated, l.size ≠ 0
  apart : m.allocated.Pairwise (fun k l => Disjoint k.span.set l.span.set)
  separate : Disjoint (addrs m.free) (addrs m.allocated)
  union : addrs m.free ∪ addrs m.allocated = added

theorem inv_init : Inv ∅ memAllocInit where
  gapped := ⟨by simp, 0, by simp, by simp⟩
  canonical := canonical_nil
  sizes := by simp [memAllocInit]
  apart := .nil
  separate := by simp [memAllocInit]
  union := by simp [memAllocInit]

section

variable {added : Set Nat} {m : MemAlloc}

theorem Inv.free_subset (h : Inv added m) : addrs m.free ⊆ added :=
  h.union ▸ Set.subset_union_left

theorem Inv.allocated_subset (h : Inv added m) : addrs m.allocated ⊆ added :=
  h.union ▸ Set.subset_union_right

theorem pairwise_disjoint_of_canonical {ls : List MemLink} (h : Canonical (ls.map MemLink.span)) :
    ls.Pairwise (fun k l => Disjoint k.span.set l.span.set) := by
  refine (List.pairwise_map.mp h.gaps).imp fun {k l} hkl => ?_
  rw [Set.disjoint_left]
  exact fun x hk hl => (hk.2.trans hkl).not_ge hl.1

theorem Inv.blocks_pairwise (h : Inv added m) :
    (m.free ++ m.allocated).Pairwise (fun k l => Disjoint k.span.set l.span.set) :=
  List.pairwise_append.mpr ⟨pairwise_disjoint_of_canonical h.canonical, h.apart,
    fun _ hk _ hl => h.separate.mono (span_subset_addrs hk) (span_subset_addrs hl)⟩

/-- Blocks that are apart start at different addresses, so an address names one of them. -/
theorem Inv.allocated_nodup (h : Inv added m) : (m.allocated.map MemLink.address).Nodup := by
  rw [List.Nodup, List.pairwise_map]
  refine h.apart.imp_of_mem fun {k l} hk hl hd he => ?_
  have hk' := MemLink.lo_lt_hi.mpr (h.sizes k hk)
  have hl' := MemLink.lo_lt_hi.mpr (h.sizes l hl)
  have hlo : l.span.lo = k.span.lo := by rw [MemLink.span, MemLink.span, he]
  exact Set.disjoint_left.mp hd ⟨le_refl _, hk'⟩ ⟨hlo.le, hlo ▸ hl'⟩

theorem Inv.addFree (h : Inv added m) (address : UInt64) {size : UInt64} (hsize : size ≠ 0)
    (hd : Disjoint (MemLink.span ⟨address, size⟩).set added)
    (hg : Gapped (added ∪ (MemLink.span ⟨address, size⟩).set)) :
    (memAllocAddFree true m address size).1 = 0 ∧
      (memAllocAddFree true m address size).2.allocated = m.allocated ∧
      Inv (added ∪ (MemLink.span ⟨address, size⟩).set) (memAllocAddFree true m address size).2 := by
  obtain ⟨free, he, hcan, hcov⟩ := memAllocAddFree_spec address h.canonical hsize
    (hd.mono_right h.free_subset) (hg.mono (Set.union_subset_union_left _ h.free_subset))
  rw [he]
  refine ⟨rfl, rfl, hg, hcan, h.sizes, h.apart, ?_, ?_⟩
  · rw [hcov, Set.disjoint_union_left]
    exact ⟨h.separate, hd.mono_right h.allocated_subset⟩
  · rw [hcov, Set.union_right_comm, h.union]

theorem Inv.get_spec (h : Inv added m) {size a : UInt64} {m' : MemAlloc} (hsize : size ≠ 0)
    (he : memAllocGet true m size = (.ok a, m')) :
    (MemLink.span ⟨a, size⟩).set ⊆ addrs m.free ∧ m'.allocated = m.allocated ++ [⟨a, size⟩] ∧
      Canonical (m'.free.map MemLink.span) ∧
      addrs m'.free = addrs m.free \ (MemLink.span ⟨a, size⟩).set := by
  obtain ⟨-, hr⟩ | ⟨before, p, after, hf, -, ⟨hp, hr⟩ | ⟨hp, hr⟩⟩ := memAllocGet_cases m size
  · rw [hr] at he
    simp at he
  · rw [hr] at he
    obtain ⟨rfl, rfl⟩ : p.address = a ∧ _ = m' := by simpa using he
    subst hp
    have hc := h.canonical
    rw [hf, List.map_append, List.map_cons] at hc
    have hd : Disjoint p.span.set (addrs (before ++ after)) := by
      simpa only [addrs, List.map_append] using hc.disjoint_of_split
    refine ⟨span_subset_addrs (hf ▸ by simp), rfl, ?_, ?_⟩
    · rw [List.map_append]
      exact hc.sublist (by simp)
    · rw [hf, addrs_append, addrs_append, addrs_cons, ← addrs_append]
      have hu : addrs before ∪ (p.span.set ∪ addrs after) =
          p.span.set ∪ addrs (before ++ after) := by
        rw [addrs_append, Set.union_left_comm]
      rw [hu, Set.union_sdiff_left, sdiff_eq_left.mpr hd.symm]
  · rw [hr] at he
    obtain ⟨rfl, rfl⟩ : p.address = a ∧ _ = m' := by simpa using he
    have hc := h.canonical
    rw [hf, List.map_append, List.map_cons] at hc
    have hpS : p.span.set ⊆ added := (span_subset_addrs (hf ▸ by simp)).trans h.free_subset
    have hhi := h.gapped.hi_le hpS (hc.nonempty _ (by simp))
    have hlt : size.toNat < p.size.toNat := UInt64.lt_iff_toNat_lt.mp hp
    have hpos : 0 < size.toNat := Nat.pos_of_ne_zero fun h0 => hsize (UInt64.toNat_inj.mp h0)
    -- the remainder starts where the granted front ends
    have hrest : (⟨p.address + size, p.size - size⟩ : MemLink).span =
        ⟨p.address.toNat + size.toNat, p.span.hi⟩ := by
      simp only [MemLink.span] at hhi ⊢
      rw [UInt64.toNat_add, UInt64.toNat_sub_of_le _ _ (UInt64.le_of_lt hp),
        Nat.mod_eq_of_lt (by omega)]
      congr 1
      omega
    have hlo : p.span.lo < p.address.toNat + size.toNat := Nat.lt_add_of_pos_right hpos
    have htop : p.address.toNat + size.toNat < p.span.hi := Nat.add_lt_add_left hlt _
    obtain ⟨hcan, hcov⟩ := canonical_trim hc hlo htop
    refine ⟨?_, rfl, ?_, ?_⟩
    · refine Set.Subset.trans ?_ (span_subset_addrs (hf ▸ by simp : p ∈ m.free))
      exact fun x hx => ⟨hx.1, hx.2.trans htop⟩
    · simpa only [List.map_append, List.map_cons, hrest] using hcan
    · rw [hf, addrs, addrs]
      simp only [List.map_append, List.map_cons, hrest]
      exact hcov

theorem Inv.get (h : Inv added m) {size a : UInt64} {m' : MemAlloc} (hsize : size ≠ 0)
    (he : memAllocGet true m size = (.ok a, m')) : Inv added m' := by
  obtain ⟨hsub, hal, hcan, hfree⟩ := h.get_spec hsize he
  have hd : Disjoint (addrs m.allocated) (MemLink.span ⟨a, size⟩).set :=
    (h.separate.mono_left hsub).symm
  refine ⟨h.gapped, hcan, ?_, ?_, ?_, ?_⟩
  · rw [hal]
    simp only [List.mem_append, List.mem_singleton]
    rintro l (hl | rfl)
    exacts [h.sizes l hl, hsize]
  · rw [hal, List.pairwise_append]
    refine ⟨h.apart, List.pairwise_singleton _ _, fun k hk l hl => ?_⟩
    rw [List.mem_singleton.mp hl]
    exact hd.mono_left (span_subset_addrs hk)
  · rw [hal, hfree, addrs_append, Set.disjoint_union_right]
    refine ⟨h.separate.mono_left Set.sdiff_subset, ?_⟩
    simpa using Set.disjoint_sdiff_left
  · rw [hal, hfree, addrs_append, ← h.union]
    simp only [addrs_cons, addrs_nil, Set.union_empty]
    rw [Set.union_left_comm, Set.union_comm (addrs m.allocated), Set.sdiff_union_of_subset hsub]

theorem addrs_diff_middle {before after : List MemLink} {p : MemLink}
    (h : (before ++ p :: after).Pairwise (fun k l => Disjoint k.span.set l.span.set)) :
    Disjoint p.span.set (addrs (before ++ after)) := by
  obtain ⟨-, hp, hb⟩ := List.pairwise_append.mp h
  rw [addrs_append, Set.disjoint_union_right, Set.disjoint_left, Set.disjoint_left]
  constructor
  · rintro x hx ⟨s, hs, hxs⟩
    obtain ⟨k, hk, rfl⟩ := List.mem_map.mp hs
    exact Set.disjoint_left.mp (hb k hk p (by simp)) hxs hx
  · rintro x hx ⟨s, hs, hxs⟩
    obtain ⟨k, hk, rfl⟩ := List.mem_map.mp hs
    exact Set.disjoint_left.mp ((List.pairwise_cons.mp hp).1 k hk) hx hxs

theorem Inv.unlink (h : Inv added m) {before after : List MemLink} {p : MemLink}
    (hal : m.allocated = before ++ p :: after) :
    Inv (added \ p.span.set) { m with allocated := before ++ after } := by
  have hsub : (before ++ after).Sublist m.allocated := hal ▸ by simp
  have hpf : Disjoint (addrs m.free) p.span.set :=
    h.separate.mono_right (span_subset_addrs (hal ▸ by simp))
  have hpa : Disjoint p.span.set (addrs (before ++ after)) := addrs_diff_middle (hal ▸ h.apart)
  have hu : addrs m.allocated = p.span.set ∪ addrs (before ++ after) := by
    rw [hal, addrs_append, addrs_cons, addrs_append, Set.union_left_comm]
  refine ⟨h.gapped.mono Set.sdiff_subset, h.canonical, fun l hl => h.sizes l (hsub.subset hl),
    h.apart.sublist hsub, ?_, ?_⟩
  · exact h.separate.mono_right (hu ▸ Set.subset_union_right)
  · rw [← h.union, hu, Set.union_left_comm, Set.union_sdiff_left, sdiff_eq_left.mpr]
    exact (Set.disjoint_union_right.mpr ⟨hpf.symm, hpa⟩).symm

/-- What `mem_alloc_put` does to a well-formed allocator: nothing, or it moves one whole block
from the allocated list into the free set. -/
theorem Inv.put_cases (h : Inv added m) (address : UInt64) :
    (address ∉ m.allocated.map MemLink.address ∧ memAllocPut true m address = (1, m)) ∨
      ∃ before p after free, m.allocated = before ++ p :: after ∧ p.address = address ∧
        memAllocPut true m address = (0, ⟨free, before ++ after⟩) ∧
        Inv added ⟨free, before ++ after⟩ ∧ addrs free = addrs m.free ∪ p.span.set := by
  obtain ⟨hn, he⟩ | ⟨before, p, after, hal, hp, -, he⟩ := memAllocPut_cases true m address
  · refine .inl ⟨?_, he⟩
    rintro hmem
    obtain ⟨l, hl, hla⟩ := List.mem_map.mp hmem
    exact hn l hl hla
  · have hmem : p ∈ m.allocated := hal ▸ by simp
    have hinv := h.unlink hal
    have hback : added \ p.span.set ∪ p.span.set = added :=
      Set.sdiff_union_of_subset ((span_subset_addrs hmem).trans h.allocated_subset)
    obtain ⟨free, hadd, hcan, hcov⟩ := memAllocAddFree_spec p.address hinv.canonical
      (h.sizes p hmem) (h.separate.mono_right (span_subset_addrs hmem)).symm
      (h.gapped.mono (Set.union_subset h.free_subset
        ((span_subset_addrs hmem).trans h.allocated_subset)))
    obtain ⟨-, -, hinv'⟩ := hinv.addFree p.address (h.sizes p hmem)
      Set.disjoint_sdiff_right (by rw [hback]; exact h.gapped)
    rw [hadd, hback] at hinv'
    exact .inr ⟨before, p, after, free, hal, hp, by rw [he, hadd], hinv', hcov⟩

/-- First fit finds a run of free addresses whenever there is one, and takes the lowest. -/
theorem Inv.get_isLeast (h : Inv added m) {size a : UInt64} {m' : MemAlloc} (hsize : size ≠ 0)
    (he : memAllocGet true m size = (.ok a, m')) :
    IsLeast {x | Set.Ico x (x + size.toNat) ⊆ addrs m.free} a.toNat := by
  refine ⟨(h.get_spec hsize he).1, fun x hx => ?_⟩
  have hpos : 0 < size.toNat := Nat.pos_of_ne_zero fun h0 => hsize (UInt64.toNat_inj.mp h0)
  obtain ⟨s, hs, hlo, hhi⟩ := h.canonical.exists_span (by omega) hx
  obtain ⟨q, hq, rfl⟩ := List.mem_map.mp hs
  have hbig : size ≤ q.size := UInt64.le_iff_toNat_le.mpr (by simp only [MemLink.span] at *; omega)
  have hpw := pairwise_address h.canonical
  obtain ⟨hn, -⟩ | ⟨before, p, after, hf, hb, hr⟩ := memAllocGet_cases m size
  · exact absurd (hn q hq) (UInt64.not_lt.mpr hbig)
  · have hpa : p.address = a := by
      obtain ⟨-, hr⟩ | ⟨-, hr⟩ := hr
      · rw [hr] at he
        simpa using congrArg Prod.fst he
      · rw [hr] at he
        simpa using congrArg Prod.fst he
    rw [hf] at hq hpw
    obtain hq | hq := List.mem_append.mp hq
    · exact absurd (hb q hq) (UInt64.not_lt.mpr hbig)
    · subst hpa
      obtain rfl | hq := List.mem_cons.mp hq
      · exact hlo
      · have hlt := (List.pairwise_cons.mp (List.pairwise_append.mp hpw).2.1).1 q hq
        exact (Nat.le_of_lt (UInt64.lt_iff_toNat_lt.mp hlt)).trans hlo

theorem Inv.get_succeeds (h : Inv added m) {size : UInt64} (hsize : size ≠ 0) {x : Nat}
    (hx : Set.Ico x (x + size.toNat) ⊆ addrs m.free) :
    ∃ a m', memAllocGet true m size = (.ok a, m') := by
  have hpos : 0 < size.toNat := Nat.pos_of_ne_zero fun h0 => hsize (UInt64.toNat_inj.mp h0)
  obtain ⟨s, hs, hlo, hhi⟩ := h.canonical.exists_span (by omega) hx
  obtain ⟨q, hq, rfl⟩ := List.mem_map.mp hs
  have hbig : size ≤ q.size := UInt64.le_iff_toNat_le.mpr (by simp only [MemLink.span] at *; omega)
  obtain ⟨hn, -⟩ | ⟨before, p, after, -, -, ⟨-, hr⟩ | ⟨-, hr⟩⟩ := memAllocGet_cases m size
  · exact absurd (hn q hq) (UInt64.not_lt.mpr hbig)
  · exact ⟨_, _, hr⟩
  · exact ⟨_, _, hr⟩

theorem memAllocGet_error {malloc : Bool} {e : Int} {m' : MemAlloc} {size : UInt64}
    (he : memAllocGet malloc m size = (.error e, m')) : m' = m := by
  obtain hm | hm := memAllocGet_malloc malloc m size
  · rw [hm] at he
    obtain ⟨-, hr⟩ | ⟨_, _, _, -, -, ⟨-, hr⟩ | ⟨-, hr⟩⟩ := memAllocGet_cases m size <;>
      rw [hr] at he <;> simp_all
  · rw [hm] at he
    exact (Prod.mk.inj he).2.symm

theorem memAllocGet_ok {malloc : Bool} {a : UInt64} {m' : MemAlloc} {size : UInt64}
    (he : memAllocGet malloc m size = (.ok a, m')) : memAllocGet true m size = (.ok a, m') := by
  obtain hm | hm := memAllocGet_malloc malloc m size
  · rw [← hm, he]
  · rw [hm] at he
    cases (Prod.mk.inj he).1

theorem memAllocGet_allocated {malloc : Bool} {m m' : MemAlloc} {size a : UInt64}
    (he : memAllocGet malloc m size = (.ok a, m')) : m'.allocated = m.allocated ++ [⟨a, size⟩] := by
  have hok := memAllocGet_ok he
  obtain ⟨-, hr⟩ | ⟨before, p, after, -, -, ⟨hsize, hr⟩ | ⟨-, hr⟩⟩ := memAllocGet_cases m size
  · exact nomatch (Prod.mk.inj (hr.symm.trans hok)).1
  · obtain ⟨ha, rfl⟩ := Prod.mk.inj (hr.symm.trans hok)
    rw [← Except.ok.inj ha, ← hsize]
  · obtain ⟨ha, rfl⟩ := Prod.mk.inj (hr.symm.trans hok)
    rw [← Except.ok.inj ha]

theorem memAllocGet_ne {malloc : Bool} {m m' : MemAlloc} {size a : UInt64}
    (he : memAllocGet malloc m size = (.ok a, m')) : m' ≠ m := by
  intro hm
  have hlength := congrArg List.length (memAllocGet_allocated he)
  rw [hm, List.length_append, List.length_singleton] at hlength
  omega

theorem Inv.put (h : Inv added m) (address : UInt64) :
    Inv added (memAllocPut true m address).2 := by
  obtain ⟨-, he⟩ | ⟨_, _, _, _, -, -, he, hi, -⟩ := h.put_cases address
  · rw [he]; exact h
  · rw [he]; exact hi

theorem Inv.put_malloc (h : Inv added m) (malloc : Bool) (address : UInt64) :
    ∃ kept ⊆ added, Inv kept (memAllocPut malloc m address).2 := by
  cases malloc with
  | true => exact ⟨added, le_refl _, h.put address⟩
  | false =>
    obtain ⟨-, he⟩ | ⟨before, p, after, hal, -, -, he⟩ := memAllocPut_cases false m address
    · exact ⟨added, le_refl _, by rw [he]; exact h⟩
    · exact ⟨added \ p.span.set, Set.sdiff_subset, by rw [he]; exact h.unlink hal⟩

end

end OpaeLibs.Opaemem.Invariant
