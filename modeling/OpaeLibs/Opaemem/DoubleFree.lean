import OpaeLibs.Opaemem.Atomicity

namespace OpaeLibs.Opaemem.DoubleFree

open OpaeLibs.Lib.Spans
open OpaeLibs.Opaemem.Allocator OpaeLibs.Opaemem.FreeList OpaeLibs.Opaemem.Atomicity

/-- The call fails and has changed neither list. -/
def Detects (malloc : Bool) (m : MemAlloc) (address size : UInt64) : Prop :=
  (memAllocAddFree malloc m address size).1 ≠ 0 ∧ (memAllocAddFree malloc m address size).2 = m

theorem detects_iff (malloc : Bool) (m : MemAlloc) (address size : UInt64) :
    Detects malloc m address size ↔ malloc = false ∨ ∃ p ∈ m.free.head?, p.address = address := by
  obtain ⟨hmalloc, hfirst, hok⟩ | ⟨hfail, res, hres, heq⟩ :=
    memAllocAddFree_cases malloc m address size
  · apply iff_of_false
    · exact fun h => h.1 hok
    · rintro (hfalse | ⟨p, hp, hpa⟩)
      · exact nomatch hmalloc.symm.trans hfalse
      · exact hfirst p hp hpa
  · apply iff_of_true _ hfail
    rw [Detects, heq]
    exact ⟨hres, rfl⟩

theorem address_nodup {ls : List MemLink} (h : Canonical (ls.map MemLink.span)) :
    (ls.map MemLink.address).Nodup := by
  rw [List.Nodup, List.pairwise_map]
  exact (pairwise_address h).imp fun hlt => UInt64.ne_of_lt hlt

/-- In a list in order only the address of the first block is recognised. -/
theorem double_free_detected_iff (malloc : Bool) {m : MemAlloc}
    (h : Canonical (m.free.map MemLink.span)) {p : MemLink} (hp : p ∈ m.free) (size : UInt64) :
    Detects malloc m p.address size ↔ malloc = false ∨ m.free.head? = some p := by
  rw [detects_iff]
  apply or_congr_right
  constructor
  · rintro ⟨q, hq, hqp⟩
    have hmem : q ∈ m.free := List.mem_of_mem_head? hq
    rw [← List.inj_on_of_nodup_map (address_nodup h) hmem hp hqp]
    exact hq
  · exact fun hfirst => ⟨p, hfirst, rfl⟩

def sampleAlloc : MemAlloc := ⟨[⟨0x1000, 0x1000⟩, ⟨0x4000, 0x2000⟩], [⟨0x2000, 0x1000⟩]⟩

theorem canonical_sampleAlloc : Canonical (sampleAlloc.free.map MemLink.span) := by
  simp [sampleAlloc, canonical_cons, canonical_nil, MemLink.span]

theorem double_free_detected_sample : Detects true sampleAlloc 0x1000 0x1000 ∧
    ¬ Detects true sampleAlloc 0x4000 0x2000 := by
  constructor
  · exact (double_free_detected_iff true canonical_sampleAlloc (p := ⟨0x1000, 0x1000⟩)
      List.mem_cons_self 0x1000).mpr (.inr rfl)
  · intro h
    obtain hfalse | hfirst := (double_free_detected_iff true canonical_sampleAlloc
      (p := ⟨0x4000, 0x2000⟩) (List.mem_cons_of_mem _ List.mem_cons_self) 0x2000).mp h
    · exact nomatch hfalse
    · exact absurd hfirst (by decide)

/-- The second block is freed again: the call succeeds and puts it on the list twice. -/
theorem second_block_freed_twice : Canonical (sampleAlloc.free.map MemLink.span) ∧
    memAllocAddFree true sampleAlloc 0x4000 0x2000 =
      (0, { sampleAlloc with free := [⟨0x1000, 0x1000⟩, ⟨0x4000, 0x2000⟩, ⟨0x4000, 0x2000⟩] }) ∧
    ¬ Detects true sampleAlloc 0x4000 0x2000 := by
  have hcall : memAllocAddFree true sampleAlloc 0x4000 0x2000 =
      (0, { sampleAlloc with
        free := [⟨0x1000, 0x1000⟩, ⟨0x4000, 0x2000⟩, ⟨0x4000, 0x2000⟩] }) := by decide
  refine ⟨canonical_sampleAlloc, hcall, fun h => h.1 ?_⟩
  rw [hcall]

end OpaeLibs.Opaemem.DoubleFree
