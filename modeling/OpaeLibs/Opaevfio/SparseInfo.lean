import OpaeLibs.Lib.RecordChains

namespace OpaeLibs.Opaevfio.SparseInfo

open OpaeLibs.Lib.Bytes OpaeLibs.Lib.RecordChains

def vfioRegionInfoFlagCaps : Nat := 8
def vfioRegionInfoCapSparseMmap : Nat := 1

/-- The offset of the field in `struct vfio_region_info`. -/
def capOffsetOffset : Nat := 12

structure OpaeVfioSparseInfo where
  index : UInt32
  offset : UInt32
  size : UInt32
deriving DecidableEq

def opaeVfioCreateSparseInfo (malloc : Bool) (index offset size : UInt32) :
    Option OpaeVfioSparseInfo :=
  if malloc then some ⟨index, offset, size⟩ else none

/-- The outcomes of the calls, `info` being the buffer as `VFIO_DEVICE_GET_REGION_INFO` fills it. -/
structure SparseEnv where
  bufferMalloc : Bool
  info : Option (List UInt8)
  nodeMalloc : Nat → Bool

/-- The records for the `n` areas from the `i`th on, up to one that cannot be allocated. -/
def sparseList (env : SparseEnv) (buffer : List UInt8) (hdr : Nat) :
    Nat → Nat → Option (List OpaeVfioSparseInfo)
  | 0, _ => some []
  | n + 1, i => do
    let (offset, size) ← tableEntry buffer hdr i
    match opaeVfioCreateSparseInfo (env.nodeMalloc i) (UInt32.ofNat i) offset.toUInt32
      size.toUInt32 with
    | none => some []
    | some node => do
      let rest ← sparseList env buffer hdr n (i + 1)
      return node :: rest

/-- `flags` are those of the answer to the first `VFIO_DEVICE_GET_REGION_INFO`. There is no result
if the decoder is led out of the buffer. -/
def opaeVfioDeviceGetSparseInfo (env : SparseEnv) (flags : Nat) :
    Option (List OpaeVfioSparseInfo) :=
  if flags &&& vfioRegionInfoFlagCaps = 0 then some []
  else if !env.bufferMalloc then some []
  else
    match env.info with
    | none => some []
    | some buffer => do
      let capOffset ← readLe buffer capOffsetOffset 4
      let id ← recordId buffer capOffset
      if id ≠ vfioRegionInfoCapSparseMmap then some []
      else
        let nrAreas ← tableCount buffer capOffset
        sparseList env buffer capOffset nrAreas 0

structure Succeeds (env : SparseEnv) (buffer : List UInt8) : Prop where
  bufferMalloc : env.bufferMalloc = true
  info : env.info = some buffer
  nodeMalloc : ∀ i, env.nodeMalloc i = true

/-- The records that the kernel's answer announces. -/
def Reports (flags : Nat) (buffer : List UInt8) (rs : List Record) : Prop :=
  ∃ capOffset, readLe buffer capOffsetOffset 4 = some capOffset ∧
    Announces vfioRegionInfoCapSparseMmap buffer (flags &&& vfioRegionInfoFlagCaps ≠ 0) capOffset rs

def tableOf : Record → Option (List (UInt64 × UInt64))
  | .table areas => some areas
  | .other => none

/-- The areas of the sparse mmap record, if there is one. -/
def sparseAreas (rs : List Record) : Option (List (UInt64 × UInt64)) := rs.findSome? tableOf

def OpaeVfioSparseInfo.area (s : OpaeVfioSparseInfo) : UInt64 × UInt64 :=
  (s.offset.toUInt64, s.size.toUInt64)

/-- Just the areas are returned, in order, and none only if there is no record of them. -/
def Decodes (env : SparseEnv) (flags : Nat) (rs : List Record) : Prop :=
  ∃ list, opaeVfioDeviceGetSparseInfo env flags = some list ∧
    list.map OpaeVfioSparseInfo.area = (sparseAreas rs).getD [] ∧
    (list = [] → sparseAreas rs = none)

/-- An area that the list can hold. -/
def Narrow (area : UInt64 × UInt64) : Prop := area.1.toNat < 2 ^ 32 ∧ area.2.toNat < 2 ^ 32

/-- What stands where the chain would start does not read as a record of any areas. -/
def Blank (buffer : List UInt8) : Prop :=
  ∃ capOffset r, readLe buffer capOffsetOffset 4 = some capOffset ∧
    record vfioRegionInfoCapSparseMmap buffer capOffset = some r ∧ r.entries = []

/-- Where there are areas, they are in the first record, and can be held. -/
def Decodable (flags : Nat) (buffer : List UInt8) (rs : List Record) : Prop :=
  (∀ areas, sparseAreas rs = some areas →
    rs.head? = some (.table areas) ∧ areas ≠ [] ∧ ∀ a ∈ areas, Narrow a) ∧
  (rs = [] → flags &&& vfioRegionInfoFlagCaps ≠ 0 → Blank buffer)

def sparseNode (p : (UInt64 × UInt64) × Nat) : OpaeVfioSparseInfo :=
  ⟨UInt32.ofNat p.2, p.1.1.toUInt32, p.1.2.toUInt32⟩

theorem toUInt64_toUInt32 (x : UInt64) : x.toUInt32.toUInt64 = x ↔ x.toNat < 2 ^ 32 := by
  rw [← UInt64.toNat_inj, UInt32.toNat_toUInt64, UInt64.toNat_toUInt32]
  exact Nat.mod_eq_iff_lt (by decide)

theorem area_sparseNode_iff (areas : List (UInt64 × UInt64)) (i : Nat) :
    ((areas.zipIdx i).map sparseNode).map OpaeVfioSparseInfo.area = areas ↔
      ∀ a ∈ areas, Narrow a := by
  induction areas generalizing i with
  | nil => simp
  | cons a rest ih =>
    have hfirst : (sparseNode (a, i)).area = a ↔ Narrow a := by
      rw [Prod.ext_iff]
      exact and_congr (toUInt64_toUInt32 a.1) (toUInt64_toUInt32 a.2)
    rw [List.zipIdx_cons, List.map_cons, List.map_cons, List.cons.injEq, hfirst, ih,
      List.forall_mem_cons]

section

variable {env : SparseEnv} {flags : Nat} {buffer : List UInt8} {rs : List Record}

theorem sparseList_eq (h : Succeeds env buffer) (hdr n i : Nat) :
    sparseList env buffer hdr n i =
      (tableEntries buffer hdr n i).map fun areas => (areas.zipIdx i).map sparseNode := by
  induction n generalizing i with
  | zero => rfl
  | succ n ih =>
    rw [sparseList, tableEntries]
    cases tableEntry buffer hdr i with
    | none => rfl
    | some e =>
      simp only [Option.bind_eq_bind, Option.bind_some, h.nodeMalloc, opaeVfioCreateSparseInfo,
        if_true, ih]
      cases tableEntries buffer hdr n (i + 1) <;> rfl

theorem getSparseInfo_eq (h : Succeeds env buffer) (hflags : flags &&& vfioRegionInfoFlagCaps ≠ 0)
    {capOffset : Nat} (hcap : readLe buffer capOffsetOffset 4 = some capOffset) :
    opaeVfioDeviceGetSparseInfo env flags =
      (record vfioRegionInfoCapSparseMmap buffer capOffset).map fun r =>
        r.entries.zipIdx.map sparseNode := by
  simp only [opaeVfioDeviceGetSparseInfo, if_neg hflags, h.bufferMalloc, h.info, hcap, record,
    Bool.not_true, Bool.false_eq_true, if_false, Option.bind_eq_bind, Option.bind_some]
  cases recordId buffer capOffset with
  | none => rfl
  | some id =>
    by_cases hid : id = vfioRegionInfoCapSparseMmap
    · simp only [Option.bind_some, hid, ne_eq, not_true_eq_false, if_false, if_true, table,
        Option.bind_eq_bind]
      cases tableCount buffer capOffset with
      | none => rfl
      | some count =>
        simp only [Option.bind_some, sparseList_eq h]
        cases tableEntries buffer capOffset count 0 <;> rfl
    · simp only [Option.bind_some, ne_eq, hid, not_false_eq_true, if_true, if_false]
      rfl

theorem map_sparseNode_eq_nil {areas : List (UInt64 × UInt64)} :
    areas.zipIdx.map sparseNode = [] ↔ areas = [] := by
  rw [List.map_eq_nil_iff, List.zipIdx_eq_nil_iff]

theorem decodes_of_table {areas : List (UInt64 × UInt64)} {rest : List Record}
    (hresult : opaeVfioDeviceGetSparseInfo env flags = some (areas.zipIdx.map sparseNode)) :
    Decodes env flags (.table areas :: rest) ↔ areas ≠ [] ∧ ∀ a ∈ areas, Narrow a := by
  have hareas : sparseAreas (.table areas :: rest) = some areas := rfl
  constructor
  · rintro ⟨list, hlist, hexact, hnone⟩
    obtain rfl := Option.some.inj (hresult.symm.trans hlist)
    rw [hareas] at hexact hnone
    refine ⟨fun hnil => ?_, (area_sparseNode_iff areas 0).mp hexact⟩
    exact nomatch hnone (map_sparseNode_eq_nil.mpr hnil)
  · rintro ⟨hne, hnarrow⟩
    refine ⟨_, hresult, ?_, fun hnil => absurd (map_sparseNode_eq_nil.mp hnil) hne⟩
    rw [hareas]
    exact (area_sparseNode_iff areas 0).mpr hnarrow

theorem decodes_of_nil (hresult : opaeVfioDeviceGetSparseInfo env flags = some []) :
    Decodes env flags rs ↔ sparseAreas rs = none := by
  constructor
  · rintro ⟨list, hlist, -, hnone⟩
    exact hnone (Option.some.inj (hlist.symm.trans hresult))
  · intro hnone
    exact ⟨[], hresult, by rw [hnone]; rfl, fun _ => hnone⟩

theorem decodes_absent (hcalls : Succeeds env buffer)
    (hflags : flags &&& vfioRegionInfoFlagCaps ≠ 0) {capOffset : Nat}
    (hcap : readLe buffer capOffsetOffset 4 = some capOffset) :
    Decodes env flags [] ↔ Blank buffer := by
  have hresult := getSparseInfo_eq hcalls hflags hcap
  constructor
  · rintro ⟨list, hlist, hnil, -⟩
    rw [hresult] at hlist
    obtain ⟨r, hrecord, rfl⟩ := Option.map_eq_some_iff.mp hlist
    exact ⟨capOffset, r, hcap, hrecord,
      map_sparseNode_eq_nil.mp (List.map_eq_nil_iff.mp hnil)⟩
  · rintro ⟨capOffset', r, hcap', hrecord, hnil⟩
    obtain rfl := Option.some.inj (hcap.symm.trans hcap')
    rw [hrecord, Option.map_some, hnil] at hresult
    exact (decodes_of_nil hresult).mpr rfl

theorem sparse_info_iff (hcalls : Succeeds env buffer) (hreports : Reports flags buffer rs) :
    Decodes env flags rs ↔ Decodable flags buffer rs := by
  obtain ⟨capOffset, hcap, hannounces⟩ := hreports
  by_cases hflags : flags &&& vfioRegionInfoFlagCaps = 0
  · -- the answer has no chain, and the decoder does not look for one
    have hresult : opaeVfioDeviceGetSparseInfo env flags = some [] := by
      rw [opaeVfioDeviceGetSparseInfo, if_pos hflags]
    obtain rfl : rs = [] := by
      cases hannounces with
      | absent _ => rfl
      | chain hcaps _ _ => exact absurd hflags (of_decide_eq_true hcaps)
    rw [decodes_of_nil hresult]
    exact ⟨fun _ => ⟨nofun, fun _ hcaps => absurd hflags hcaps⟩, fun _ => rfl⟩
  cases hannounces with
  | absent _ =>
    rw [decodes_absent hcalls hflags hcap]
    exact ⟨fun hblank => ⟨nofun, fun _ _ => hblank⟩, fun h => h.2 rfl hflags⟩
  | chain _ _ hchain =>
    have hresult := getSparseInfo_eq hcalls hflags hcap
    rw [hchain.head] at hresult
    cases rs with
    | nil => exact absurd rfl hchain.ne_nil
    | cons r rest =>
      cases r with
      | table areas =>
        refine (decodes_of_table hresult).trans ?_
        constructor
        · intro h
          refine ⟨fun areas' hareas => ?_, nofun⟩
          obtain rfl : areas = areas' := Option.some.inj hareas
          exact ⟨rfl, h⟩
        · intro h
          exact (h.1 areas rfl).2
      | other =>
        rw [decodes_of_nil hresult]
        constructor
        · intro hnone
          refine ⟨fun areas hareas => ?_, nofun⟩
          exact nomatch hnone.symm.trans hareas
        · intro h
          rw [Option.eq_none_iff_forall_ne_some]
          intro areas hareas
          exact nomatch (h.1 areas hareas).1

end

def runningWith (info : List UInt8) : SparseEnv where
  bufferMalloc := true
  info := some info
  nodeMalloc := fun _ => true

theorem succeeds_runningWith (info : List UInt8) : Succeeds (runningWith info) info :=
  ⟨rfl, rfl, fun _ => rfl⟩

def infoWith (argsz size : Nat) (chain : List UInt8) : List UInt8 :=
  toLe 4 argsz ++ toLe 4 15 ++ toLe 4 0 ++ toLe 4 32 ++ toLe 8 size ++ toLe 8 0 ++ chain

def sampleInfo : List UInt8 := infoWith 88 0x80000
  (toLe 2 1 ++ toLe 2 1 ++ toLe 4 80 ++ toLe 4 2 ++ toLe 4 0 ++
    toLe 8 0 ++ toLe 8 0x40000 ++ toLe 8 0x41000 ++ toLe 8 0x3f000 ++
    (toLe 2 3 ++ toLe 2 1 ++ toLe 4 0))

def sampleRecords : List Record := [.table [(0, 0x40000), (0x41000, 0x3f000)], .other]

theorem sparse_info_sample : Decodes (runningWith sampleInfo) 15 sampleRecords := by
  have hnext : recordNext sampleInfo 32 = some 80 := by decide
  have hreports : Reports 15 sampleInfo sampleRecords := by
    refine ⟨32, by decide, .chain (by decide) (by decide) ?_⟩
    exact .link (by decide) hnext (by decide) (.last (by decide) (by decide))
  refine (sparse_info_iff (succeeds_runningWith sampleInfo) hreports).mpr ⟨?_, nofun⟩
  intro areas hareas
  obtain rfl : [(0, 0x40000), (0x41000, 0x3f000)] = areas := Option.some.inj hareas
  exact ⟨rfl, by decide, by simp [Narrow]⟩

/-- A region of 8 GiB of which the upper half can be mapped: the area comes out as an empty one at
the start. -/
def largeInfo : List UInt8 := infoWith 64 0x200000000
  (toLe 2 1 ++ toLe 2 1 ++ toLe 4 0 ++ toLe 4 1 ++ toLe 4 0 ++
    toLe 8 0x100000000 ++ toLe 8 0x100000000)

theorem large_area_truncated :
    Reports 15 largeInfo [.table [(0x100000000, 0x100000000)]] ∧
      Succeeds (runningWith largeInfo) largeInfo ∧
      opaeVfioDeviceGetSparseInfo (runningWith largeInfo) 15 = some [⟨0, 0, 0⟩] ∧
      ¬Decodes (runningWith largeInfo) 15 [.table [(0x100000000, 0x100000000)]] := by
  have hresult : opaeVfioDeviceGetSparseInfo (runningWith largeInfo) 15 = some [⟨0, 0, 0⟩] := by
    decide
  refine ⟨⟨32, by decide, .chain (by decide) (by decide) (.last (by decide) (by decide))⟩,
    succeeds_runningWith largeInfo, hresult, ?_⟩
  rintro ⟨list, hlist, hexact, -⟩
  obtain rfl := Option.some.inj (hresult.symm.trans hlist)
  revert hexact
  decide

end OpaeLibs.Opaevfio.SparseInfo
