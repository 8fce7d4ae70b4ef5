import OpaeLibs.Lib.Bytes
import OpaeLibs.OpaeC.Props
import OpaeLibs.PluginXfpga.WsidList

namespace OpaeLibs.PluginXfpga.Mmio

open OpaeLibs.Lib.Bytes
open OpaeLibs.OpaeC.Props OpaeLibs.PluginXfpga.WsidList

abbrev fpgaRegionRead : UInt32 := 1
abbrev fpgaRegionWrite : UInt32 := 2
abbrev fpgaRegionMmap : UInt32 := 4

def afuPermission : UInt32 := fpgaRegionRead ||| fpgaRegionWrite ||| fpgaRegionMmap

def opaeFlagHasMmx512 : UInt32 := 1

structure OpaePortRegionInfo where
  flags : UInt32
  size : UInt64
  offset : UInt64

/-- A handle with its MMIO table, the mappings that the process has made through it, each with its
length, and memory. -/
structure Handle where
  mmioRoot : WsidTracker
  flags : UInt32
  mappings : List (UInt64 × UInt64)
  mem : UInt64 → UInt8

/-- The address for a size and an offset. What is mapped does not reach beyond the last address. -/
structure Mmap where
  map : UInt64 → UInt64 → Option UInt64
  fits : ∀ size offset addr, map size offset = some addr → addr.toNat + size.toNat ≤ 2 ^ 64

/-- What an access meets: the check of the handle and the one that is made again before `mmap`, what
the driver says of a region, the id that `wsid_gen` returns and whether there is memory for a
record. -/
structure MapEnv where
  check : FpgaResult
  recheck : FpgaResult
  regionInfo : UInt32 → Option OpaePortRegionInfo
  mmap : Mmap
  wsidGen : UInt64
  mem : Bool
  munmap : UInt64 → UInt64 → Bool

structure UnmapEnv where
  check : FpgaResult
  munmap : UInt64 → UInt64 → Bool

def portMmapRegion (env : MapEnv) (h : Handle) (size offset : UInt64) :
    Except FpgaResult (UInt64 × Handle) :=
  if env.recheck ≠ .ok then .error env.recheck
  else
    match env.mmap.map size offset with
    | none => .error .invalidParam
    | some addr => .ok (addr, { h with mappings := (addr, size) :: h.mappings })

/-- A mapping that cannot be recorded is undone. -/
def mapMmioRegion (env : MapEnv) (h : Handle) (mmioNum : UInt32) : FpgaResult × Handle :=
  match env.regionInfo mmioNum with
  | none => (.noAccess, h)
  | some rinfo =>
    if rinfo.flags ≠ afuPermission then (.noAccess, h)
    else
      match portMmapRegion env h rinfo.size rinfo.offset with
      | .error result => (result, h)
      | .ok (addr, h) =>
        match wsidAdd env.mem h.mmioRoot env.wsidGen addr 0 rinfo.size addr mmioNum.toUInt64 0 with
        | (true, root) => (.ok, { h with mmioRoot := root })
        | (false, root) =>
          let h := { h with mmioRoot := root }
          if env.munmap addr rinfo.size then
            (.noMemory, { h with mappings := h.mappings.erase (addr, rinfo.size) })
          else (.invalidParam, h)

/-- The region is mapped only if it is not mapped yet. -/
def findOrMapWm (env : MapEnv) (h : Handle) (mmioNum : UInt32) :
    Except FpgaResult WsidMap × Handle :=
  match wsidFindByIndex h.mmioRoot mmioNum with
  | some wm => (.ok wm, h)
  | none =>
    match mapMmioRegion env h mmioNum with
    | (.ok, h) =>
      match wsidFindByIndex h.mmioRoot mmioNum with
      | some wm => (.ok wm, h)
      | none => (.error .noMemory, h)
    | (result, h) => (.error result, h)

/-- `touched` are the bytes that the call reads or writes through the mapping, and `value` is what
it stores through its pointer. -/
structure Access where
  result : FpgaResult
  handle : Handle
  touched : List UInt64
  value : Option (List UInt8)

def refused (result : FpgaResult) (h : Handle) : Access := ⟨result, h, [], none⟩

def readAt (width : Nat) (h : Handle) (a : UInt64) : Access :=
  ⟨.ok, h, cells a width, some (load h.mem a width)⟩

def writeAt (value : List UInt8) (h : Handle) (a : UInt64) : Access :=
  ⟨.ok, { h with mem := store h.mem a value }, cells a value.length, none⟩

section

variable (env : MapEnv) (h : Handle) (mmioNum : UInt32) (offset : UInt64)

/-- The mapping is looked up and the offset compared with its length. -/
def accessWm (go : Handle → UInt64 → Access) : Access :=
  match findOrMapWm env h mmioNum with
  | (.error result, h) => refused result h
  | (.ok wm, h) =>
    if offset > wm.len then refused .invalidParam h
    else go h (wm.offset + offset)

def accessMmio (width : Nat) (go : Handle → UInt64 → Access) : Access :=
  if offset.toNat % width ≠ 0 then refused .invalidParam h
  else if env.check ≠ .ok then refused env.check h
  else accessWm env h mmioNum offset go

def xfpgaFpgaWriteMmio32 (value : UInt32) : Access :=
  accessMmio env h mmioNum offset 4 (writeAt (toLe 4 value.toNat))

def xfpgaFpgaReadMmio32 : Access := accessMmio env h mmioNum offset 4 (readAt 4)

def xfpgaFpgaWriteMmio64 (value : UInt64) : Access :=
  accessMmio env h mmioNum offset 8 (writeAt (toLe 8 value.toNat))

def xfpgaFpgaReadMmio64 : Access := accessMmio env h mmioNum offset 8 (readAt 8)

/-- Whether the processor has the instructions is checked behind the lock. -/
def xfpgaFpgaWriteMmio512 (value : Vector UInt8 64) : Access :=
  if offset % 64 ≠ 0 then refused .invalidParam h
  else if env.check ≠ .ok then refused env.check h
  else if h.flags &&& opaeFlagHasMmx512 = 0 then refused .notSupported h
  else accessWm env h mmioNum offset (writeAt value.toList)

end

/-- `mmioPtr` says that the pointer is not `NULL`; the address is what is stored there. -/
def xfpgaFpgaMapMmio (env : MapEnv) (h : Handle) (mmioNum : UInt32) (mmioPtr : Bool) :
    FpgaResult × Handle × Option UInt64 :=
  if env.check ≠ .ok then (env.check, h, none)
  else
    match findOrMapWm env h mmioNum with
    | (.error result, h) => (result, h, none)
    | (.ok wm, h) => (.ok, h, if mmioPtr then some wm.addr else none)

def xfpgaFpgaUnmapMmio (env : UnmapEnv) (h : Handle) (mmioNum : UInt32) : FpgaResult × Handle :=
  if env.check ≠ .ok then (env.check, h)
  else
    match wsidFindByIndex h.mmioRoot mmioNum with
    | none => (.invalidParam, h)
    | some wm =>
      if !env.munmap wm.offset wm.len then (.invalidParam, h)
      else
        (.ok, { h with
          mmioRoot := (wsidDel h.mmioRoot wm.wsid).2
          mappings := h.mappings.erase (wm.offset, wm.len) })

def opened (flags : UInt32) (mem : UInt64 → UInt8) : Handle :=
  ⟨⟨4, List.replicate 4 []⟩, flags, [], mem⟩

inductive AccessCall
  | write32 (value : UInt32)
  | read32
  | write64 (value : UInt64)
  | read64
  | write512 (value : Vector UInt8 64)

def AccessCall.width : AccessCall → Nat
  | .write32 _ => 4
  | .read32 => 4
  | .write64 _ => 8
  | .read64 => 8
  | .write512 _ => 64

def perform (env : MapEnv) (h : Handle) (mmioNum : UInt32) (offset : UInt64) :
    AccessCall → Access
  | .write32 value => xfpgaFpgaWriteMmio32 env h mmioNum offset value
  | .read32 => xfpgaFpgaReadMmio32 env h mmioNum offset
  | .write64 value => xfpgaFpgaWriteMmio64 env h mmioNum offset value
  | .read64 => xfpgaFpgaReadMmio64 env h mmioNum offset
  | .write512 value => xfpgaFpgaWriteMmio512 env h mmioNum offset value

inductive Call
  | access (env : MapEnv) (mmioNum : UInt32) (offset : UInt64) (call : AccessCall)
  | map (env : MapEnv) (mmioNum : UInt32) (mmioPtr : Bool)
  | unmap (env : UnmapEnv) (mmioNum : UInt32)

def step (h : Handle) : Call → Handle
  | .access env mmioNum offset call => (perform env h mmioNum offset call).handle
  | .map env mmioNum mmioPtr => (xfpgaFpgaMapMmio env h mmioNum mmioPtr).2.1
  | .unmap env mmioNum => (xfpgaFpgaUnmapMmio env h mmioNum).2

section Lookup

variable {env : MapEnv} {h : Handle} {mmioNum : UInt32}

/-- The region can be mapped at `addr`. -/
structure Maps (env : MapEnv) (mmioNum : UInt32) (rinfo : OpaePortRegionInfo) (addr : UInt64) :
    Prop where
  info : env.regionInfo mmioNum = some rinfo
  flags : rinfo.flags = afuPermission
  recheck : env.recheck = .ok
  mmap : env.mmap.map rinfo.size rinfo.offset = some addr

def entryOf (env : MapEnv) (mmioNum : UInt32) (rinfo : OpaePortRegionInfo) (addr : UInt64) :
    WsidMap :=
  ⟨env.wsidGen, addr, 0, rinfo.size, addr, mmioNum.toUInt64.toUInt32, 0⟩

def recorded (env : MapEnv) (h : Handle) (mmioNum : UInt32) (rinfo : OpaePortRegionInfo)
    (addr : UInt64) : Handle :=
  { h with
    mmioRoot := (wsidAdd true h.mmioRoot env.wsidGen addr 0 rinfo.size addr mmioNum.toUInt64 0).2
    mappings := (addr, rinfo.size) :: h.mappings }

/-- A call that fails leaves the table and the memory alone, and the mappings unless it could not
take back what it had mapped. -/
structure Untouched (env : MapEnv) (h h' : Handle) : Prop where
  mmioRoot : h'.mmioRoot = h.mmioRoot
  flags : h'.flags = h.flags
  mem : h'.mem = h.mem
  mappings : (∀ addr size, env.munmap addr size = true) → h'.mappings = h.mappings

theorem Untouched.refl (env : MapEnv) (h : Handle) : Untouched env h h :=
  ⟨rfl, rfl, rfl, fun _ => rfl⟩

theorem mapMmioRegion_cases (env : MapEnv) (h : Handle) (mmioNum : UInt32) :
    (∃ rinfo addr, Maps env mmioNum rinfo addr ∧ env.mem = true ∧
      mapMmioRegion env h mmioNum = (.ok, recorded env h mmioNum rinfo addr)) ∨
    ((∀ rinfo addr, Maps env mmioNum rinfo addr → env.mem = false) ∧
      (mapMmioRegion env h mmioNum).1 ≠ .ok ∧
      Untouched env h (mapMmioRegion env h mmioNum).2) := by
  rw [mapMmioRegion]
  cases hinfo : env.regionInfo mmioNum with
  | none =>
    refine .inr ⟨fun rinfo addr hm => ?_, nofun, .refl env h⟩
    exact absurd (hinfo.symm.trans hm.info) nofun
  | some rinfo =>
    dsimp only
    have hsame : ∀ {rinfo' addr}, Maps env mmioNum rinfo' addr → rinfo' = rinfo :=
      fun hm => Option.some.inj (hm.info.symm.trans hinfo)
    by_cases hflags : rinfo.flags = afuPermission
    swap
    · rw [if_pos hflags]
      refine .inr ⟨fun rinfo' addr hm => ?_, nofun, .refl env h⟩
      exact absurd (hsame hm ▸ hm.flags) hflags
    rw [if_neg (not_not.mpr hflags), portMmapRegion]
    by_cases hcheck : env.recheck = .ok
    swap
    · rw [if_pos hcheck]
      refine .inr ⟨fun rinfo' addr hm => absurd hm.recheck hcheck, hcheck, .refl env h⟩
    rw [if_neg (not_not.mpr hcheck)]
    cases hmap : env.mmap.map rinfo.size rinfo.offset with
    | none =>
      refine .inr ⟨fun rinfo' addr hm => ?_, nofun, .refl env h⟩
      have hm' := hm.mmap
      rw [hsame hm, hmap] at hm'
      exact absurd hm' nofun
    | some addr =>
      dsimp only
      cases hmem : env.mem with
      | true => exact .inl ⟨rinfo, addr, ⟨hinfo, hflags, hcheck, hmap⟩, rfl, rfl⟩
      | false =>
        refine .inr ⟨fun _ _ _ => rfl, ?_⟩
        dsimp only [wsidAdd]
        rw [if_neg Bool.false_ne_true]
        dsimp only
        split
        case isTrue => exact ⟨nofun, rfl, rfl, rfl, fun _ => List.erase_cons_head _ _⟩
        case isFalse hun => exact ⟨nofun, rfl, rfl, rfl, fun hall => absurd (hall _ _) hun⟩

theorem records_recorded (env : MapEnv) (hv : Valid h.mmioRoot) (mmioNum : UInt32)
    (rinfo : OpaePortRegionInfo) (addr : UInt64) :
    (records (recorded env h mmioNum rinfo addr).mmioRoot).Perm
      (entryOf env mmioNum rinfo addr :: records h.mmioRoot) :=
  wsidAdd_records hv _ _ _ _ _ _ _

theorem find_recorded (hv : Valid h.mmioRoot) (hnone : wsidFindByIndex h.mmioRoot mmioNum = none)
    (rinfo : OpaePortRegionInfo) (addr : UInt64) :
    wsidFindByIndex (recorded env h mmioNum rinfo addr).mmioRoot mmioNum =
      some (entryOf env mmioNum rinfo addr) := by
  have hperm := records_recorded env hv mmioNum rinfo addr
  have hindex : (entryOf env mmioNum rinfo addr).index = mmioNum := UInt32.toUInt32_toUInt64 _
  apply wsidFindByIndex_of_unique (hperm.mem_iff.mpr List.mem_cons_self) hindex
  intro e he hi
  rcases List.mem_cons.mp (hperm.mem_iff.mp he) with rfl | he
  · rfl
  · exact absurd hi (wsidFindByIndex_eq_none.mp hnone e he)

theorem findOrMapWm_cases (env : MapEnv) (hv : Valid h.mmioRoot) (mmioNum : UInt32) :
    (∃ wm, wsidFindByIndex h.mmioRoot mmioNum = some wm ∧
      findOrMapWm env h mmioNum = (.ok wm, h)) ∨
    (wsidFindByIndex h.mmioRoot mmioNum = none ∧ ∃ rinfo addr, Maps env mmioNum rinfo addr ∧
      env.mem = true ∧ findOrMapWm env h mmioNum =
        (.ok (entryOf env mmioNum rinfo addr), recorded env h mmioNum rinfo addr)) ∨
    (wsidFindByIndex h.mmioRoot mmioNum = none ∧
      (∀ rinfo addr, Maps env mmioNum rinfo addr → env.mem = false) ∧
      ∃ result h', findOrMapWm env h mmioNum = (.error result, h') ∧ result ≠ .ok ∧
        Untouched env h h') := by
  rw [findOrMapWm]
  cases hf : wsidFindByIndex h.mmioRoot mmioNum with
  | some wm => exact .inl ⟨wm, rfl, rfl⟩
  | none =>
    right
    obtain ⟨rinfo, addr, hmaps, hmem, heq⟩ | ⟨hno, hres, hsame⟩ :=
      mapMmioRegion_cases env h mmioNum
    · refine .inl ⟨rfl, rinfo, addr, hmaps, hmem, ?_⟩
      rw [heq]
      dsimp only
      rw [find_recorded hv hf rinfo addr]
    · refine .inr ⟨rfl, hno, (mapMmioRegion env h mmioNum).1, (mapMmioRegion env h mmioNum).2, ?_,
        hres, hsame⟩
      generalize mapMmioRegion env h mmioNum = r at hres
      obtain ⟨result, h'⟩ := r
      cases result with
      | ok => exact absurd rfl hres
      | _ => rfl

end Lookup

end OpaeLibs.PluginXfpga.Mmio
