import OpaeLibs.Lib.RecordChains
import OpaeLibs.Opaevfio.IovaSpace

namespace OpaeLibs.Opaevfio.IovaDiscover

open OpaeLibs.Lib.Bytes OpaeLibs.Lib.Loops OpaeLibs.Lib.RecordChains
open OpaeLibs.Opaemem.Allocator OpaeLibs.Opaemem.Invariant
open OpaeLibs.Opaevfio.Buffers OpaeLibs.Opaevfio.IovaSpace

def vfioIommuInfoCaps : Nat := 2
def vfioIommuType1InfoCapIovaRange : Nat := 1

/-- The offsets of two fields of `struct vfio_iommu_type1_info`. -/
def flagsOffset : Nat := 4
def capOffsetOffset : Nat := 16

/-- The outcomes of the calls. `info` is the buffer as the second `VFIO_IOMMU_GET_INFO` fills it,
the allocations are those for the `i`th range of the record at `hdr`. -/
structure DiscoverEnv where
  infoSize : Bool
  calloc : Bool
  info : Option (List UInt8)
  nodeMalloc : (hdr i : Nat) → Bool
  addMalloc : (hdr i : Nat) → Bool

section

variable (env : DiscoverEnv) (buf : List UInt8)

/-- The `n` ranges of the record from the `i`th on. -/
def discoverRanges (hdr : Nat) : Nat → Nat → OpaeVfio → Option OpaeVfio
  | 0, _, v => some v
  | n + 1, i, v => do
    let (start, last) ← tableEntry buf hdr i
    discoverRanges hdr n (i + 1)
      (discoverRange v ⟨⟨start, last⟩, env.nodeMalloc hdr i, env.addMalloc hdr i⟩)

def discoverRecord (hdr : Nat) (v : OpaeVfio) : Option OpaeVfio := do
  let id ← recordId buf hdr
  if id = vfioIommuType1InfoCapIovaRange then
    let nrIovas ← tableCount buf hdr
    discoverRanges env buf hdr nrIovas 0 v
  else some v

end

/-- Called on a structure whose allocator has been initialised. There is no result if the chain
does not end within the fuel or leads out of the buffer. -/
def opaeVfioIovaDiscover (env : DiscoverEnv) (fuel : Nat) : Option OpaeVfio :=
  let v : OpaeVfio := ⟨[], memAllocInit, []⟩
  if !env.infoSize then some v
  else if !env.calloc then some v
  else
    match env.info with
    | none => some v
    | some infoBuf => do
      let capOffset ← readLe infoBuf capOffsetOffset 4
      loop (visitStep (discoverRecord env infoBuf) infoBuf) fuel (capOffset, v)

/-- The ranges in the records, in order. -/
def reportedRanges (rs : List Record) : List OpaeVfioIovaRange :=
  (rs.flatMap Record.entries).map fun e => ⟨e.1, e.2⟩

def granted (ranges : List OpaeVfioIovaRange) : List ReportedRange :=
  ranges.map fun r => ⟨r, true, true⟩

def allOffsets (ranges : List OpaeVfioIovaRange) : Set Nat := {x | ∃ r ∈ ranges, x ∈ offsets r}

/-- The calls succeed, the kernel's answer being in the buffer. -/
structure Succeeds (env : DiscoverEnv) (buf : List UInt8) : Prop where
  infoSize : env.infoSize = true
  calloc : env.calloc = true
  info : env.info = some buf
  nodeMalloc : ∀ hdr i, env.nodeMalloc hdr i = true
  addMalloc : ∀ hdr i, env.addMalloc hdr i = true

/-- The records that the kernel's answer announces. -/
def Reports (buf : List UInt8) (rs : List Record) : Prop :=
  ∃ flags capOffset, readLe buf flagsOffset 4 = some flags ∧
    readLe buf capOffsetOffset 4 = some capOffset ∧
    Announces vfioIommuType1InfoCapIovaRange buf (flags &&& vfioIommuInfoCaps ≠ 0) capOffset rs

/-- Discovery ends with the ranges on the list, in order, and just their offsets free. -/
def Exact (env : DiscoverEnv) (ranges : List OpaeVfioIovaRange) : Prop :=
  ∃ fuel v, opaeVfioIovaDiscover env fuel = some v ∧ v.contRanges = ranges ∧
    addrs v.iovaAlloc.free = allOffsets ranges

/-- What stands where the chain would start reads as a chain in which there are no ranges. -/
def Blank (buf : List UInt8) : Prop :=
  ∃ capOffset rs, readLe buf capOffsetOffset 4 = some capOffset ∧
    Chain vfioIommuType1InfoCapIovaRange buf capOffset rs ∧ reportedRanges rs = []

section

variable {env : DiscoverEnv} {buf : List UInt8}

theorem discoverRanges_eq (h : Succeeds env buf) (hdr n i : Nat) (v : OpaeVfio) :
    discoverRanges env buf hdr n i v = (tableEntries buf hdr n i).map fun es =>
      (granted (es.map fun e => ⟨e.1, e.2⟩)).foldl discoverRange v := by
  induction n generalizing i v with
  | zero => rfl
  | succ n ih =>
    rw [discoverRanges, tableEntries]
    cases tableEntry buf hdr i with
    | none => rfl
    | some e =>
      have hrest := ih (i + 1)
        (discoverRange v ⟨⟨e.1, e.2⟩, env.nodeMalloc hdr i, env.addMalloc hdr i⟩)
      rw [h.nodeMalloc, h.addMalloc] at hrest
      simp only [Option.bind_eq_bind, Option.bind_some, h.nodeMalloc, h.addMalloc, hrest]
      cases tableEntries buf hdr n (i + 1) <;> rfl

theorem discoverRecord_eq (h : Succeeds env buf) (hdr : Nat) (v : OpaeVfio) :
    discoverRecord env buf hdr v = (record vfioIommuType1InfoCapIovaRange buf hdr).map fun r =>
      (granted (reportedRanges [r])).foldl discoverRange v := by
  rw [discoverRecord, record]
  cases recordId buf hdr with
  | none => rfl
  | some id =>
    by_cases hid : id = vfioIommuType1InfoCapIovaRange
    · simp only [Option.bind_eq_bind, Option.bind_some, if_pos hid, table]
      cases tableCount buf hdr with
      | none => rfl
      | some count =>
        simp only [Option.bind_some, discoverRanges_eq h]
        cases tableEntries buf hdr count 0 with
        | none => rfl
        | some es => simp [reportedRanges, Record.entries]
    · simp only [Option.bind_eq_bind, Option.bind_some, if_neg hid]
      rfl

theorem foldl_records (rs : List Record) (v : OpaeVfio) :
    (rs.foldl (fun v r => (granted (reportedRanges [r])).foldl discoverRange v) v) =
      (granted (reportedRanges rs)).foldl discoverRange v := by
  induction rs generalizing v with
  | nil => rfl
  | cons r rs ih =>
    rw [List.foldl_cons, ih, ← List.foldl_append]
    simp [granted, reportedRanges]

theorem discover_iff (h : Succeeds env buf) {capOffset : Nat}
    (hcap : readLe buf capOffsetOffset 4 = some capOffset) (v : OpaeVfio) :
    (∃ fuel, opaeVfioIovaDiscover env fuel = some v) ↔
      ∃ rs, Chain vfioIommuType1InfoCapIovaRange buf capOffset rs ∧
        Buffers.opaeVfioIovaDiscover (granted (reportedRanges rs)) = v := by
  have hloop : ∀ fuel, opaeVfioIovaDiscover env fuel =
      loop (visitStep (discoverRecord env buf) buf) fuel (capOffset, ⟨[], memAllocInit, []⟩) := by
    intro fuel
    simp [opaeVfioIovaDiscover, h.infoSize, h.calloc, h.info, hcap]
  simp only [hloop, exists_loop_iff_ends, ends_visit_iff (discoverRecord_eq h), foldl_records,
    Buffers.opaeVfioIovaDiscover]

end

theorem foldl_granted (ranges : List OpaeVfioIovaRange) (v : OpaeVfio) :
    ((granted ranges).foldl discoverRange v).contRanges = v.contRanges ++ ranges := by
  induction ranges generalizing v with
  | nil => simp [granted]
  | cons r rest ih =>
    have hfirst : (discoverRange v ⟨r, true, true⟩).contRanges = v.contRanges ++ [r] := rfl
    have hrest := ih (discoverRange v ⟨r, true, true⟩)
    rw [hfirst, List.append_assoc] at hrest
    exact hrest

theorem allOffsets_cons (r : OpaeVfioIovaRange) (rest : List OpaeVfioIovaRange) :
    allOffsets (r :: rest) = offsets r ∪ allOffsets rest := by
  ext x
  simp [allOffsets]

theorem discovered_granted {ranges : List OpaeVfioIovaRange} (h : KernelRanges (granted ranges)) :
    Discovered (allOffsets ranges) (Buffers.opaeVfioIovaDiscover (granted ranges)).iovaAlloc := by
  have hrun : ∀ (v : OpaeVfio) (S : Set Nat), Discovered S v.iovaAlloc →
      (∀ r ∈ ranges, Disjoint (offsets r) S) →
      Discovered (S ∪ allOffsets ranges) ((granted ranges).foldl discoverRange v).iovaAlloc := by
    obtain ⟨hord, hapart⟩ := h
    induction ranges with
    | nil =>
      intro v S hv _
      have hnone : S ∪ allOffsets [] = S := by simp [allOffsets]
      rw [hnone]
      exact hv
    | cons r rest ih =>
      intro v S hv hS
      obtain ⟨hr, hrest⟩ := List.pairwise_cons.mp hapart
      have hstep := discoverRange_granted hv (hord ⟨r, true, true⟩ (by simp [granted]))
        (hS r (by simp))
      have hdisjoint : ∀ s ∈ rest, Disjoint (offsets s) (S ∪ offsets r) := by
        intro s hs
        refine Disjoint.union_right (hS s (by simp [hs])) ?_
        exact (offsets_disjoint (hr ⟨s, true, true⟩ (by simpa [granted] using hs))).symm
      have hall := ih (fun s hs => hord s (List.mem_cons_of_mem _ hs)) hrest _ _ hstep hdisjoint
      rw [allOffsets_cons, ← Set.union_assoc]
      exact hall
  have hall := hrun ⟨[], memAllocInit, []⟩ ∅ (.inl ⟨rfl, inv_init⟩) (by simp)
  rw [Set.empty_union] at hall
  exact hall

theorem free_discovered {S : Set Nat} {m : MemAlloc} (h : Discovered S m) :
    addrs m.free = S ↔ ∃ x < 2 ^ 64, x ∉ S := by
  obtain ⟨hal, hi⟩ | ⟨rfl, hall⟩ := h
  · have hfree : addrs m.free = S := by rw [← hi.union, hal, addrs_nil, Set.union_empty]
    exact ⟨fun _ => hi.gapped.hole, fun _ => hfree⟩
  · have hempty : addrs whole.free = ∅ := by
      simp [whole, MemLink.span, OpaeLibs.Lib.Spans.Span.set]
    constructor
    · intro hfree
      have hzero := hall 0 (by decide)
      rw [← hfree, hempty] at hzero
      exact absurd hzero (Set.notMem_empty 0)
    · rintro ⟨x, hx, hnot⟩
      exact absurd (hall x hx) hnot

section

variable {env : DiscoverEnv} {buf : List UInt8} {rs : List Record}

/-- All is well unless the ranges leave no offset out, or there is no chain and what stands in its
place is taken for one. -/
theorem iova_discover_iff (hcalls : Succeeds env buf) (hreports : Reports buf rs)
    (hranges : KernelRanges (granted (reportedRanges rs))) :
    Exact env (reportedRanges rs) ↔
      (∃ x < 2 ^ 64, x ∉ allOffsets (reportedRanges rs)) ∧ (rs = [] → Blank buf) := by
  obtain ⟨flags, capOffset, -, hcap, hannounces⟩ := hreports
  have hdiscover := discover_iff hcalls hcap
  have hlist : ∀ rs', (Buffers.opaeVfioIovaDiscover (granted (reportedRanges rs'))).contRanges =
      reportedRanges rs' := fun rs' => foldl_granted _ _
  have hfree := free_discovered (discovered_granted hranges)
  constructor
  · rintro ⟨fuel, v, hv, hcont, haddrs⟩
    obtain ⟨rs', hchain, rfl⟩ := (hdiscover v).mp ⟨fuel, hv⟩
    rw [hlist] at hcont
    rw [hcont] at haddrs
    refine ⟨hfree.mp haddrs, ?_⟩
    rintro rfl
    exact ⟨capOffset, rs', hcap, hchain, hcont⟩
  · rintro ⟨hgap, hblank⟩
    have hchain : ∃ rs', Chain vfioIommuType1InfoCapIovaRange buf capOffset rs' ∧
        reportedRanges rs' = reportedRanges rs := by
      cases hannounces with
      | absent _ =>
        obtain ⟨capOffset', rs', hcap', hchain, hnone⟩ := hblank rfl
        obtain rfl := Option.some.inj (hcap.symm.trans hcap')
        exact ⟨rs', hchain, hnone⟩
      | chain _ _ hchain => exact ⟨rs, hchain, rfl⟩
    obtain ⟨rs', hchain, heq⟩ := hchain
    obtain ⟨fuel, hv⟩ := (hdiscover _).mpr ⟨rs', hchain, rfl⟩
    refine ⟨fuel, _, hv, (hlist rs').trans heq, ?_⟩
    rw [heq]
    exact hfree.mpr hgap

end

def runningWith (info : List UInt8) : DiscoverEnv where
  infoSize := true
  calloc := true
  info := some info
  nodeMalloc := fun _ _ => true
  addMalloc := fun _ _ => true

theorem succeeds_runningWith (info : List UInt8) : Succeeds (runningWith info) info :=
  ⟨rfl, rfl, rfl, fun _ _ => rfl, fun _ _ => rfl⟩

def infoWith (argsz : Nat) (chain : List UInt8) : List UInt8 :=
  toLe 4 argsz ++ toLe 4 2 ++ toLe 8 4096 ++ toLe 4 24 ++ toLe 4 0 ++ chain

def sampleInfo : List UInt8 := infoWith 80
  (toLe 2 2 ++ toLe 2 1 ++ toLe 4 32 ++
    (toLe 2 1 ++ toLe 2 1 ++ toLe 4 0 ++ toLe 4 2 ++ toLe 4 0 ++
      toLe 8 0 ++ toLe 8 0xfedfffff ++ toLe 8 0xfef00000 ++ toLe 8 0xffffffffffffffff))

def sampleRecords : List Record :=
  [.other, .table [(0, 0xfedfffff), (0xfef00000, 0xffffffffffffffff)]]

theorem iova_discover_sample :
    Exact (runningWith sampleInfo) [⟨0, 0xfedfffff⟩, ⟨0xfef00000, 0xffffffffffffffff⟩] := by
  have hreports : Reports sampleInfo sampleRecords := by
    refine ⟨2, 24, by decide, by decide, .chain (by decide) (by decide) ?_⟩
    have hnext : recordNext sampleInfo 24 = some 32 := by decide
    exact .link (by decide) hnext (by decide) (.last (by decide) (by decide))
  have hranges : KernelRanges (granted (reportedRanges sampleRecords)) := ⟨by decide, by decide⟩
  refine (iova_discover_iff (succeeds_runningWith sampleInfo) hreports hranges).mpr ⟨?_, nofun⟩
  refine ⟨0xfee00000, by decide, ?_⟩
  simp [allOffsets, reportedRanges, sampleRecords, Record.entries, offsets]

def wholeInfo : List UInt8 := infoWith 56
  (toLe 2 1 ++ toLe 2 1 ++ toLe 4 0 ++ toLe 4 1 ++ toLe 4 0 ++ toLe 8 0 ++
    toLe 8 0xffffffffffffffff)

def wholeRange : OpaeVfioIovaRange := ⟨0, 0xffffffffffffffff⟩

theorem whole_space_lost :
    Reports wholeInfo [.table [(0, 0xffffffffffffffff)]] ∧
      KernelRanges (granted [wholeRange]) ∧ Succeeds (runningWith wholeInfo) wholeInfo ∧
      opaeVfioIovaDiscover (runningWith wholeInfo) 1 = some ⟨[wholeRange], ⟨[⟨0, 0⟩], []⟩, []⟩ ∧
      ¬Exact (runningWith wholeInfo) [wholeRange] := by
  have hchain : Chain vfioIommuType1InfoCapIovaRange wholeInfo 24
      [.table [(0, 0xffffffffffffffff)]] := .last (by decide) (by decide)
  have hcap : readLe wholeInfo capOffsetOffset 4 = some 24 := by decide
  refine ⟨⟨2, 24, by decide, hcap, .chain (by decide) (by decide) hchain⟩,
    ⟨by decide, by decide⟩, succeeds_runningWith wholeInfo, by decide, ?_⟩
  rintro ⟨fuel, v, hv, -, haddrs⟩
  obtain ⟨rs, hchain', rfl⟩ :=
    (discover_iff (succeeds_runningWith wholeInfo) hcap v).mp ⟨fuel, hv⟩
  obtain rfl := hchain.unique hchain'
  have hfree := (free_discovered (discovered_granted ⟨by decide, by decide⟩)).mp haddrs
  obtain ⟨x, hx, hnot⟩ := hfree
  apply hnot
  refine ⟨wholeRange, by decide, Nat.zero_le x, ?_⟩
  have hlast : wholeRange.last.toNat + 1 = 2 ^ 64 := by decide
  rw [hlast]
  exact hx

end OpaeLibs.Opaevfio.IovaDiscover
