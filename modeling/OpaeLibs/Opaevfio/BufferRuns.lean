import OpaeLibs.Lib.Runs
import OpaeLibs.Opaevfio.IovaSpace

namespace OpaeLibs.Opaevfio.BufferRuns

open OpaeLibs.Lib.Runs OpaeLibs.Lib.Spans
open OpaeLibs.Opaemem.Allocator OpaeLibs.Opaemem.FreeList OpaeLibs.Opaemem.Invariant
open OpaeLibs.Opaevfio.Buffers OpaeLibs.Opaevfio.IovaSpace

inductive Call
  | allocate (env : AllocateEnv) (size : Option UInt64)
  | free (env : FreeEnv) (buf : UInt64)

def step (pageSize : UInt64) (v : OpaeVfio) : Call → OpaeVfio
  | .allocate env size => (opaeVfioBufferAllocate pageSize env v size).vfio
  | .free env buf => (opaeVfioBufferFree env v buf).2

def iovaBlock (b : OpaeVfioBuffer) : MemLink := ⟨b.bufferIova, b.bufferSize⟩

/-- What a call is to leave behind: the blocks taken are those of the pinned buffers, an allocation
that fails has not touched the allocator, and one that succeeds receives a range that no live
buffer has. -/
structure Agrees (pageSize : UInt64) (v : OpaeVfio) (c : Call) : Prop where
  blocks : (step pageSize v c).iovaAlloc.allocated.Perm
    ((step pageSize v c).contBuffers.map iovaBlock)
  failing : ∀ env size, c = .allocate env size →
    (opaeVfioBufferAllocate pageSize env v size).res ≠ 0 →
      (step pageSize v c).iovaAlloc = v.iovaAlloc
  fresh : ∀ env size n p a, c = .allocate env size →
    (opaeVfioBufferAllocate pageSize env v size).size = some n →
    (opaeVfioBufferAllocate pageSize env v size).out = some (p, a) →
      ∀ b ∈ v.contBuffers, Disjoint (MemLink.span ⟨a, n⟩).set (iovaBlock b).span.set

/-- No call fails between the reservation of a range and the end of the allocation. -/
def Completes (pageSize : UInt64) (v : OpaeVfio) : Call → Prop
  | .allocate env size => ∀ n, size = some n → n ≠ 0 → env.lock = true →
      (∃ a, (opaeVfioIovaReserve pageSize env.reserveMalloc v n).2.1 = .ok a) →
        (mmapBuffer env (roundUp pageSize n)).isSome ∧ env.mapDma = true ∧ env.bufferMalloc = true
  | .free _ _ => True

/-- Buffers are pushed on the front of their list and blocks on the back of theirs. -/
def Good (v : OpaeVfio) : Prop :=
  (∃ S, Inv S v.iovaAlloc ∧ v.iovaAlloc.allocated = (v.contBuffers.map iovaBlock).reverse) ∨
    v.iovaAlloc = whole ∧ v.contBuffers = []

theorem Good.blocks {v : OpaeVfio} (h : Good v) :
    v.iovaAlloc.allocated.Perm (v.contBuffers.map iovaBlock) := by
  obtain ⟨S, -, hal⟩ | ⟨hw, hb⟩ := h
  · rw [hal]
    exact List.reverse_perm _
  · rw [hw, hb]
    exact .refl _

theorem good_discover {reported : List ReportedRange} (h : KernelRanges reported) :
    Good (opaeVfioIovaDiscover reported) := by
  obtain ⟨hb, S, ⟨hal, hi⟩ | ⟨hw, -⟩⟩ := opaeVfioIovaDiscover_spec h
  · exact .inl ⟨S, hi, by simp [hal, hb]⟩
  · exact .inr ⟨hw, hb⟩

theorem memAllocGet_whole {malloc : Bool} {size a : UInt64} {m' : MemAlloc}
    (he : memAllocGet malloc whole size = (.ok a, m')) : size = 0 := by
  have hok := memAllocGet_ok he
  by_contra hne
  have hlt : ¬size ≤ 0 := by grind
  simp [memAllocGet, whole, firstFit, hlt] at hok

theorem opaeVfioIovaReserve_ok {pageSize n a : UInt64} {malloc : Bool} {v : OpaeVfio}
    {m' : MemAlloc} (he : memAllocGet malloc v.iovaAlloc (roundUp pageSize n) = (.ok a, m')) :
    (opaeVfioIovaReserve pageSize malloc v n).2.1 = .ok a := by
  simp [opaeVfioIovaReserve, he]

theorem allocate_completes {pageSize : UInt64} {v : OpaeVfio} {env : AllocateEnv}
    {size : Option UInt64} (hc : Completes pageSize v (.allocate env size)) :
    ((opaeVfioBufferAllocate pageSize env v size).res ≠ 0 ∧
      (opaeVfioBufferAllocate pageSize env v size).vfio = v) ∨
    ∃ n a p alloc, n ≠ 0 ∧ memAllocGet env.reserveMalloc v.iovaAlloc n = (.ok a, alloc) ∧
      opaeVfioBufferAllocate pageSize env v size = ⟨0, some n, some (p, a),
        { v with iovaAlloc := alloc, contBuffers := ⟨p, n, a⟩ :: v.contBuffers }⟩ := by
  obtain ⟨hres, hv, -⟩ | ⟨n, a, alloc, hn, hn0, hl, hg, h⟩ :=
    opaeVfioBufferAllocate_cases pageSize env v size
  · exact .inl ⟨hres, hv⟩
  · obtain ⟨hnot, -, -⟩ | ⟨p, hr, -, -, -, he⟩ := h
    · exact absurd (hc n hn hn0 hl ⟨a, opaeVfioIovaReserve_ok hg⟩) hnot
    · exact .inr ⟨_, a, p, alloc, hr, hg, he⟩

theorem allocate_fails {pageSize : UInt64} {v : OpaeVfio} {env : AllocateEnv}
    {size : Option UInt64} (hc : ¬Completes pageSize v (.allocate env size)) :
    (opaeVfioBufferAllocate pageSize env v size).res ≠ 0 ∧
      (opaeVfioBufferAllocate pageSize env v size).vfio.iovaAlloc ≠ v.iovaAlloc := by
  simp only [Completes, not_forall] at hc
  obtain ⟨n, rfl, hn0, hl, ⟨a, ha⟩, hnot⟩ := hc
  obtain ⟨-, -, href⟩ | ⟨k, b, alloc, hk, -, -, hg, h⟩ :=
    opaeVfioBufferAllocate_cases pageSize env v (some n)
  · obtain ⟨e, he⟩ := href n rfl hn0 hl
    simp [opaeVfioIovaReserve, he] at ha
  · obtain rfl := Option.some.inj hk
    obtain ⟨-, hres, hv⟩ | ⟨p, -, hm, hd, hb, -⟩ := h
    · exact ⟨hres, hv ▸ memAllocGet_ne hg⟩
    · exact absurd ⟨by simp [hm], hd, hb⟩ hnot

theorem good_allocate {pageSize : UInt64} {v : OpaeVfio} {env : AllocateEnv}
    {size : Option UInt64} (h : Good v) (hc : Completes pageSize v (.allocate env size)) :
    Good (step pageSize v (.allocate env size)) := by
  rw [step]
  obtain ⟨-, hv⟩ | ⟨n, a, p, alloc, hn, hg, he⟩ := allocate_completes hc
  · rwa [hv]
  · rw [he]
    obtain ⟨S, hi, hal⟩ | ⟨hw, -⟩ := h
    · have hok := memAllocGet_ok hg
      refine .inl ⟨S, hi.get hn hok, ?_⟩
      rw [(hi.get_spec hn hok).2.1, hal]
      simp [iovaBlock]
    · rw [hw] at hg
      exact absurd (memAllocGet_whole hg) hn

theorem good_free {pageSize : UInt64} {v : OpaeVfio} {env : FreeEnv} {buf : UInt64}
    (h : Good v) : Good (step pageSize v (.free env buf)) := by
  rw [step]
  obtain hv | ⟨before, b, after, hbs, hv⟩ := opaeVfioBufferFree_cases env v buf
  · rwa [hv]
  · rw [hv]
    obtain ⟨S, hi, hal⟩ | ⟨-, hb⟩ := h
    · obtain ⟨kept, -, hi'⟩ := hi.put_malloc env.putMalloc b.bufferIova
      refine .inl ⟨kept, hi', ?_⟩
      have hsplit : v.iovaAlloc.allocated =
          (after.map iovaBlock).reverse ++ iovaBlock b :: (before.map iovaBlock).reverse := by
        simp [hal, hbs]
      have hnd := hi.allocated_nodup
      rw [memAllocPut_allocated hnd]
      rw [hsplit] at hnd ⊢
      rw [List.map_append, List.reverse_append]
      exact filter_ne_middle hnd
    · simp [hb] at hbs

theorem good_step (pageSize : UInt64) (v : OpaeVfio) (c : Call) (h : Good v)
    (hc : Completes pageSize v c) : Good (step pageSize v c) := by
  cases c with
  | allocate env size => exact good_allocate h hc
  | free env buf => exact good_free h

theorem fresh_of_good {v : OpaeVfio} {malloc : Bool} {n a : UInt64} {m' : MemAlloc} (h : Good v)
    (hn : n ≠ 0) (hg : memAllocGet malloc v.iovaAlloc n = (.ok a, m')) :
    ∀ b ∈ v.contBuffers, Disjoint (MemLink.span ⟨a, n⟩).set (iovaBlock b).span.set := by
  obtain ⟨S, hi, hal⟩ | ⟨-, hb⟩ := h
  · intro b hb
    have hmem : iovaBlock b ∈ v.iovaAlloc.allocated := by
      rw [hal, List.mem_reverse]
      exact List.mem_map_of_mem hb
    exact hi.separate.mono (hi.get_spec hn (memAllocGet_ok hg)).1 (span_subset_addrs hmem)
  · simp [hb]

theorem agrees_iff (pageSize : UInt64) (v : OpaeVfio) (c : Call) (h : Good v) :
    Agrees pageSize v c ↔ Completes pageSize v c := by
  constructor
  · intro ha
    cases c with
    | free env buf => trivial
    | allocate env size =>
      by_contra hc
      obtain ⟨hres, hne⟩ := allocate_fails hc
      exact hne (ha.failing env size rfl hres)
  · intro hc
    refine ⟨(good_step pageSize v c h hc).blocks, ?_, ?_⟩
    · rintro env size rfl hres
      obtain ⟨-, hv⟩ | ⟨_, _, _, _, -, -, he⟩ := allocate_completes hc
      · rw [step, hv]
      · simp [he] at hres
    · rintro env size n p a rfl hn hout
      obtain ⟨hres, -⟩ | ⟨_, _, _, _, hn0, hg, he⟩ := allocate_completes hc
      · exact absurd (opaeVfioBufferAllocate_out hout) hres
      · rw [he] at hn hout
        obtain rfl := Option.some.inj hn
        obtain ⟨rfl, rfl⟩ := Prod.mk.inj (Option.some.inj hout)
        exact fresh_of_good h hn0 hg

theorem run_agrees_iff (pageSize : UInt64) (reported : List ReportedRange) (calls : List Call)
    (h : KernelRanges reported) :
    Along (step pageSize) (Agrees pageSize) (opaeVfioIovaDiscover reported) calls ↔
      Along (step pageSize) (Completes pageSize) (opaeVfioIovaDiscover reported) calls :=
  along_iff (good_step pageSize) (agrees_iff pageSize) calls (good_discover h)

def sampleRanges : List ReportedRange :=
  [⟨⟨0, 0xfedfffff⟩, true, true⟩, ⟨⟨0xfef00000, 0xffffffffffff⟩, true, true⟩]

theorem kernelRanges_sample : KernelRanges sampleRanges := ⟨by decide, by decide⟩

def sampleCalls : List Call :=
  [.allocate ⟨true, true, fun _ => some 0x7000, true, true⟩ (some 100),
    .allocate ⟨true, true, fun _ => some 0x9000, true, true⟩ (some 5000), .free ⟨true, true⟩ 0x7000]

theorem run_agrees_iff_sample :
    Along (step 4096) (Agrees 4096) (opaeVfioIovaDiscover sampleRanges) sampleCalls := by
  apply (run_agrees_iff 4096 sampleRanges sampleCalls kernelRanges_sample).mpr
  have h0 : (4096 + (99 &&& ~~~4095) : UInt64) ≠ 0 := by decide
  have h1 : (4096 + (4999 &&& ~~~4095) : UInt64) ≠ 0 := by decide
  simp [sampleCalls, Completes, mmapBuffer, roundUp, h0, h1]

def refusedMapping : Call := .allocate ⟨true, true, fun _ => some 0x7000, false, true⟩ (some 100)

/-- The kernel refuses to map the pages: their range stays taken although no buffer has it. -/
theorem refused_mapping_keeps_range :
    (step 4096 (opaeVfioIovaDiscover sampleRanges) refusedMapping).contBuffers = [] ∧
    (step 4096 (opaeVfioIovaDiscover sampleRanges) refusedMapping).iovaAlloc.allocated =
      [⟨0, 4096⟩] ∧
    ¬Along (step 4096) (Agrees 4096) (opaeVfioIovaDiscover sampleRanges) [refusedMapping] := by
  refine ⟨by decide, by decide, fun h => ?_⟩
  have hb := h.1.blocks.length_eq
  revert hb
  decide

end OpaeLibs.Opaevfio.BufferRuns
