import OpaeLibs.PluginVfio.Dfl

namespace OpaeLibs.PluginVfio.Mmio

open OpaeLibs.Lib.Bytes
open OpaeLibs.OpaeC.Props OpaeLibs.PluginVfio.Properties OpaeLibs.PluginVfio.Dfl

def flagHasAvx512 : UInt32 := 1

structure VfioHandle where
  token : TokenNode
  mmioBase : UInt64
  mmioSize : UInt64
  flags : UInt32

/-- `region` is the base and the size of each BAR of the pair, if it was opened; the other fields
say what succeeds and whether the processor has AVX512. `clone_token` has memory. -/
structure OpenEnv where
  mattr : Bool
  mem : Bool
  lock : Bool
  region : Option (UInt32 → Option (UInt64 × UInt64))
  avx512f : Bool

def OpenEnv.flags (env : OpenEnv) : UInt32 := if env.avx512f then flagHasAvx512 else 0

/-- `handlePtr` says that `handle` is not `NULL`. -/
def vfioFpgaOpen (env : OpenEnv) (token : Option TokenNode) (handlePtr : Bool) :
    FpgaResult × Option VfioHandle :=
  match token with
  | none => (.invalidParam, none)
  | some t =>
    if !handlePtr then (.invalidParam, none)
    else if !env.mattr then (.exception, none)
    else if !env.mem then (.noMemory, none)
    else if !env.lock then (.exception, none)
    else
      match env.region with
      | none => (.exception, none)
      | some region =>
        match region t.region with
        | none => (.exception, none)
        | some (mmio, size) => (.ok, some ⟨t, mmio, size, env.flags⟩)

/-- `beyond` is what lies in memory behind the array `user_mmio` of the token. -/
structure AccessEnv where
  lock : Bool
  beyond : UInt32 → UInt32

def userMmioAt (env : AccessEnv) (t : TokenNode) (mmioNum : UInt32) : UInt32 :=
  (t.userMmio[mmioNum.toNat]?).getD (env.beyond mmioNum)

def getUserOffset (env : AccessEnv) (h : VfioHandle) (mmioNum offset : UInt32) : UInt64 :=
  h.mmioBase + (userMmioAt env h.token mmioNum).toUInt64 + offset.toUInt64

/-- `touched` are the bytes of the device that the call reads or writes, and `value` is what it
stores through its pointer. -/
structure Access where
  result : FpgaResult
  touched : List UInt64
  mem : UInt64 → UInt8
  value : Option (List UInt8)

def refused (result : FpgaResult) (mem : UInt64 → UInt8) : Access := ⟨result, [], mem, none⟩

/-- The checks that the access functions share, up to the lock of the handle. -/
def mmioCheck (env : AccessEnv) (t : TokenNode) (mmioNum : UInt32) : FpgaResult :=
  if t.type = .device then .notSupported
  else if mmioNum > t.userMmioCount then .invalidParam
  else if !env.lock then .exception
  else .ok

section

variable (env : AccessEnv) (mem : UInt64 → UInt8) (handle : Option VfioHandle) (mmioNum : UInt32)
  (offset : UInt64)

/-- The offset is narrowed to the 32 bits that `get_user_offset` takes. -/
def writeMmio (value : List UInt8) : Access :=
  match handle with
  | none => refused .invalidParam mem
  | some h =>
    let result := mmioCheck env h.token mmioNum
    if result ≠ .ok then refused result mem
    else
      let a := getUserOffset env h mmioNum offset.toUInt32
      ⟨.ok, cells a value.length, store mem a value, none⟩

def readMmio (width : Nat) : Access :=
  match handle with
  | none => refused .invalidParam mem
  | some h =>
    let result := mmioCheck env h.token mmioNum
    if result ≠ .ok then refused result mem
    else
      let a := getUserOffset env h mmioNum offset.toUInt32
      ⟨.ok, cells a width, mem, some (load mem a width)⟩

def vfioFpgaWriteMmio64 (value : UInt64) : Access :=
  writeMmio env mem handle mmioNum offset (toLe 8 value.toNat)

def vfioFpgaReadMmio64 : Access := readMmio env mem handle mmioNum offset 8

def vfioFpgaWriteMmio32 (value : UInt32) : Access :=
  writeMmio env mem handle mmioNum offset (toLe 4 value.toNat)

def vfioFpgaReadMmio32 : Access := readMmio env mem handle mmioNum offset 4

/-- An aligned offset and AVX512 are checked first. -/
def vfioFpgaWriteMmio512 (value : Vector UInt8 64) : Access :=
  match handle with
  | none => refused .invalidParam mem
  | some h =>
    if offset % 64 ≠ 0 then refused .invalidParam mem
    else if h.flags &&& flagHasAvx512 = 0 then refused .notSupported mem
    else writeMmio env mem handle mmioNum offset value.toList

end

inductive Call
  | write64 (value : UInt64)
  | read64
  | write32 (value : UInt32)
  | read32
  | write512 (value : Vector UInt8 64)

def Call.width : Call → Nat
  | .write64 _ => 8
  | .read64 => 8
  | .write32 _ => 4
  | .read32 => 4
  | .write512 _ => 64

theorem Call.width_pos (call : Call) : 0 < call.width := by
  cases call <;> exact Nat.zero_lt_succ _

theorem Call.width_le (call : Call) : call.width ≤ 64 := by
  cases call <;> simp [Call.width]

def perform (env : AccessEnv) (mem : UInt64 → UInt8) (handle : Option VfioHandle)
    (mmioNum : UInt32) (offset : UInt64) : Call → Access
  | .write64 value => vfioFpgaWriteMmio64 env mem handle mmioNum offset value
  | .read64 => vfioFpgaReadMmio64 env mem handle mmioNum offset
  | .write32 value => vfioFpgaWriteMmio32 env mem handle mmioNum offset value
  | .read32 => vfioFpgaReadMmio32 env mem handle mmioNum offset
  | .write512 value => vfioFpgaWriteMmio512 env mem handle mmioNum offset value

/-- The call passes all checks of its access function. -/
structure Accepted (env : AccessEnv) (h : VfioHandle) (mmioNum : UInt32) (offset : UInt64)
    (call : Call) : Prop where
  type : h.token.type = .accelerator
  mmioNum : mmioNum ≤ h.token.userMmioCount
  lock : env.lock = true
  wide : ∀ value, call = .write512 value → offset % 64 = 0 ∧ h.flags &&& flagHasAvx512 ≠ 0

theorem mmioCheck_eq_ok_iff (env : AccessEnv) (t : TokenNode) (mmioNum : UInt32) :
    mmioCheck env t mmioNum = .ok ↔
      t.type = .accelerator ∧ mmioNum ≤ t.userMmioCount ∧ env.lock = true := by
  rw [mmioCheck]
  split_ifs with htype hnum hlock
  · exact iff_of_false nofun fun h => by simp [h.1] at htype
  · exact iff_of_false nofun fun h => absurd h.2.1 (UInt32.not_le.mpr hnum)
  · exact iff_of_false nofun fun h => by simp [h.2.2] at hlock
  · refine iff_of_true rfl ⟨?_, UInt32.not_lt.mp hnum, by simpa using hlock⟩
    cases h : t.type with
    | device => exact absurd h htype
    | accelerator => rfl

section

variable (env : AccessEnv) (mem : UInt64 → UInt8) (h : VfioHandle) (mmioNum : UInt32)
  (offset : UInt64)

def address : UInt64 := getUserOffset env h mmioNum offset.toUInt32

/-- What an access does when its checks come to `result`. -/
structure Performs (result : FpgaResult) (width : Nat) (r : Access) : Prop where
  result_eq : r.result = result
  touched : r.touched = if result = .ok then cells (address env h mmioNum offset) width else []
  frame : ∀ x, x ∉ r.touched → r.mem x = mem x

theorem performs_refused {result : FpgaResult} (hne : result ≠ .ok) (width : Nat) :
    Performs env mem h mmioNum offset result width (refused result mem) :=
  ⟨rfl, (if_neg hne).symm, fun _ _ => rfl⟩

theorem performs_write (value : List UInt8) :
    Performs env mem h mmioNum offset (mmioCheck env h.token mmioNum) value.length
      (writeMmio env mem (some h) mmioNum offset value) := by
  rw [writeMmio]
  dsimp only
  split
  case isTrue hc => exact performs_refused env mem h mmioNum offset hc _
  case isFalse hc =>
    have hok := not_not.mp hc
    exact ⟨hok.symm, (if_pos hok).symm, fun x hx => store_of_notMem mem hx⟩

theorem performs_read (width : Nat) :
    Performs env mem h mmioNum offset (mmioCheck env h.token mmioNum) width
      (readMmio env mem (some h) mmioNum offset width) := by
  rw [readMmio]
  dsimp only
  split
  case isTrue hc => exact performs_refused env mem h mmioNum offset hc _
  case isFalse hc =>
    have hok := not_not.mp hc
    exact ⟨hok.symm, (if_pos hok).symm, fun _ _ => rfl⟩

def callCheck : Call → FpgaResult
  | .write64 _ => mmioCheck env h.token mmioNum
  | .read64 => mmioCheck env h.token mmioNum
  | .write32 _ => mmioCheck env h.token mmioNum
  | .read32 => mmioCheck env h.token mmioNum
  | .write512 _ =>
    if offset % 64 ≠ 0 then .invalidParam
    else if h.flags &&& flagHasAvx512 = 0 then .notSupported
    else mmioCheck env h.token mmioNum

theorem callCheck_eq_ok_iff (call : Call) :
    callCheck env h mmioNum offset call = .ok ↔ Accepted env h mmioNum offset call := by
  have hshared : mmioCheck env h.token mmioNum = .ok ∧
      (∀ value, call = .write512 value → offset % 64 = 0 ∧ h.flags &&& flagHasAvx512 ≠ 0) ↔
        Accepted env h mmioNum offset call := by
    rw [mmioCheck_eq_ok_iff]
    exact ⟨fun ⟨⟨ht, hn, hl⟩, hw⟩ => ⟨ht, hn, hl, hw⟩, fun ha => ⟨⟨ha.1, ha.2, ha.3⟩, ha.4⟩⟩
  rw [← hshared]
  cases call with
  | write512 value =>
    rw [callCheck]
    split_ifs with halign hflags
    · exact iff_of_false nofun fun hc => halign (hc.2 value rfl).1
    · exact iff_of_false nofun fun hc => (hc.2 value rfl).2 hflags
    · refine ⟨fun hc => ⟨hc, fun _ _ => ⟨not_not.mp halign, hflags⟩⟩, And.left⟩
  | write64 value => exact ⟨fun hc => ⟨hc, nofun⟩, And.left⟩
  | read64 => exact ⟨fun hc => ⟨hc, nofun⟩, And.left⟩
  | write32 value => exact ⟨fun hc => ⟨hc, nofun⟩, And.left⟩
  | read32 => exact ⟨fun hc => ⟨hc, nofun⟩, And.left⟩

theorem perform_performs (call : Call) :
    Performs env mem h mmioNum offset (callCheck env h mmioNum offset call) call.width
      (perform env mem (some h) mmioNum offset call) := by
  cases call with
  | write64 value =>
    have hw := performs_write env mem h mmioNum offset (toLe 8 value.toNat)
    rwa [toLe_length] at hw
  | read64 => exact performs_read env mem h mmioNum offset 8
  | write32 value =>
    have hw := performs_write env mem h mmioNum offset (toLe 4 value.toNat)
    rwa [toLe_length] at hw
  | read32 => exact performs_read env mem h mmioNum offset 4
  | write512 value =>
    rw [callCheck, perform, vfioFpgaWriteMmio512]
    split_ifs with halign hflags
    · apply performs_refused
      exact nofun
    · apply performs_refused
      exact nofun
    · have hw := performs_write env mem h mmioNum offset value.toList
      rwa [Vector.length_toList] at hw

end

/-- What an access is to do when it returns `FPGA_OK`: it names a space of the token, touches the
bytes at the whole offset in that space and no others, and these are mapped. -/
structure InRange (mem : UInt64 → UInt8) (h : VfioHandle) (mmioNum : UInt32) (offset : UInt64)
    (width : Nat) (r : Access) : Prop where
  space : mmioNum < h.token.userMmioCount
  touched : ∃ userMmio, h.token.userMmio[mmioNum.toNat]? = some userMmio ∧
    r.touched = cells (h.mmioBase + userMmio.toUInt64 + offset) width
  frame : ∀ x, x ∉ r.touched → r.mem x = mem x
  mapped : ∀ a ∈ r.touched, (a - h.mmioBase).toNat < h.mmioSize.toNat

/-- The space is one of the token's, the offset has 32 bits and the bytes fit into the region. -/
structure Fits (h : VfioHandle) (mmioNum : UInt32) (offset : UInt64) (width : Nat) : Prop where
  space : mmioNum < h.token.userMmioCount
  narrow : offset.toNat < 2 ^ 32
  size : ∃ userMmio, h.token.userMmio[mmioNum.toNat]? = some userMmio ∧
    userMmio.toNat + offset.toNat + width ≤ h.mmioSize.toNat

section

variable {env : AccessEnv} {mem : UInt64 → UInt8} {h : VfioHandle} {mmioNum : UInt32}
  {offset : UInt64} {userMmio : UInt32}

theorem address_eq (env : AccessEnv) (offset : UInt64)
    (hu : h.token.userMmio[mmioNum.toNat]? = some userMmio) :
    address env h mmioNum offset =
      h.mmioBase + userMmio.toUInt64 + offset.toUInt32.toUInt64 := by
  rw [address, getUserOffset, userMmioAt, hu, Option.getD_some]

theorem toUInt32_toUInt64_eq_iff (x : UInt64) : x.toUInt32.toUInt64 = x ↔ x.toNat < 2 ^ 32 := by
  rw [← UInt64.toNat_inj, UInt32.toNat_toUInt64, UInt64.toNat_toUInt32]
  constructor
  · intro hx
    rw [← hx]
    exact Nat.mod_lt _ (by decide)
  · exact Nat.mod_eq_of_lt

theorem address_eq_iff (env : AccessEnv)
    (hu : h.token.userMmio[mmioNum.toNat]? = some userMmio) :
    address env h mmioNum offset = h.mmioBase + userMmio.toUInt64 + offset ↔
      offset.toNat < 2 ^ 32 := by
  rw [address_eq env offset hu, UInt64.add_right_inj, toUInt32_toUInt64_eq_iff]

theorem toNat_cell_sub (hn : offset.toNat < 2 ^ 32) {k : Nat} (hk : k < 64) :
    (h.mmioBase + userMmio.toUInt64 + offset + UInt64.ofNat k - h.mmioBase).toNat =
      userMmio.toNat + offset.toNat + k := by
  have hsub : h.mmioBase + userMmio.toUInt64 + offset + UInt64.ofNat k - h.mmioBase =
      userMmio.toUInt64 + offset + UInt64.ofNat k := by
    rw [UInt64.add_assoc, UInt64.add_assoc, UInt64.add_comm, UInt64.add_sub_cancel,
      ← UInt64.add_assoc]
  have hu := userMmio.toNat_lt
  rw [hsub, UInt64.toNat_add, UInt64.toNat_add, UInt32.toNat_toUInt64, UInt64.toNat_ofNat']
  omega

theorem inRange_iff {call : Call} {r : Access}
    (hr : Performs env mem h mmioNum offset .ok call.width r) :
    InRange mem h mmioNum offset call.width r ↔ Fits h mmioNum offset call.width := by
  have hpos : 0 < call.width := call.width_pos
  have hle : call.width ≤ 64 := call.width_le
  have htouched : r.touched = cells (address env h mmioNum offset) call.width := hr.touched
  constructor
  · rintro ⟨hspace, ⟨userMmio, hu, ht⟩, -, hmapped⟩
    rw [htouched, cells_inj hpos] at ht
    have hn := (address_eq_iff env hu).mp ht
    refine ⟨hspace, hn, userMmio, hu, ?_⟩
    -- the last byte is mapped
    have hlast := hmapped _ (by
      rw [htouched, ht]
      exact mem_cells.mpr ⟨call.width - 1, by omega, rfl⟩)
    rw [toNat_cell_sub hn (by omega)] at hlast
    omega
  · rintro ⟨hspace, hn, userMmio, hu, hsize⟩
    have ht := (address_eq_iff env hu).mpr hn
    rw [ht] at htouched
    refine ⟨hspace, ⟨userMmio, hu, htouched⟩, hr.frame, ?_⟩
    intro a ha
    rw [htouched] at ha
    obtain ⟨k, hk, rfl⟩ := mem_cells.mp ha
    rw [toNat_cell_sub hn (by omega)]
    omega

end

/-- Every access that returns `FPGA_OK` is in range exactly when those that pass the checks fit. -/
theorem accesses_in_range_iff (env : AccessEnv) (mem : UInt64 → UInt8)
    (handle : Option VfioHandle) (mmioNum : UInt32) (offset : UInt64) (call : Call) :
    ((perform env mem handle mmioNum offset call).result = .ok →
      ∃ h, handle = some h ∧ InRange mem h mmioNum offset call.width
        (perform env mem handle mmioNum offset call)) ↔
    ∀ h, handle = some h → Accepted env h mmioNum offset call →
      Fits h mmioNum offset call.width := by
  cases handle with
  | none =>
    have hres : (perform env mem none mmioNum offset call).result ≠ .ok := by
      cases call <;> exact nofun
    exact iff_of_true (fun h => absurd h hres) nofun
  | some h =>
    have hp := perform_performs env mem h mmioNum offset call
    have hacc := callCheck_eq_ok_iff env h mmioNum offset call
    by_cases hok : callCheck env h mmioNum offset call = .ok
    · rw [hok] at hp
      simp only [hp.result_eq, Option.some.injEq, forall_const, exists_eq_left', forall_eq',
        hacc.mp hok, inRange_iff hp]
    · have hres := hp.result_eq
      refine iff_of_true (fun hr => absurd (hres.symm.trans hr) hok) ?_
      rintro _ ⟨⟩ ha
      exact absurd (hacc.mpr ha) hok

def oneSpace : VfioHandle where
  token :=
    { guid := Vector.replicate 16 0
      compatId := Vector.replicate 16 0
      device := ⟨"0000:5e:00.0", ⟨0, 0x5e, 0, 0⟩, 0x8086, 0x09c4, 0⟩
      region := 2
      userMmioCount := 1
      bitstreamId := 0
      numPorts := 0
      type := .accelerator
      addr := 1
      mmioSize := 0x1000
      userMmio := Vector.replicate 8 0
      bitstreamMdata := 0
      parent := none
      reset := none }
  mmioBase := 0x7f0000000000
  mmioSize := 0x1000
  flags := 0

/-- Reads that return `FPGA_OK`: of the space one past the last, at an offset of which the high half
is lost, and across the end of the region. -/
theorem accesses_out_of_range :
    let mem := fun _ => 0
    let read64 := fun mmioNum offset =>
      perform ⟨true, fun _ => 0⟩ mem (some oneSpace) mmioNum offset .read64
    ((read64 1 0).result = .ok ∧ ¬ InRange mem oneSpace 1 0 8 (read64 1 0)) ∧
    ((read64 0 0x100000000).result = .ok ∧
      (read64 0 0x100000000).touched = (read64 0 0).touched ∧
      ¬ InRange mem oneSpace 0 0x100000000 8 (read64 0 0x100000000)) ∧
    ((read64 0 0xffc).result = .ok ∧ ¬ InRange mem oneSpace 0 0xffc 8 (read64 0 0xffc)) := by
  intro mem read64
  have hperforms : ∀ mmioNum offset,
      callCheck ⟨true, fun _ => 0⟩ oneSpace mmioNum offset .read64 = .ok →
        (InRange mem oneSpace mmioNum offset 8 (read64 mmioNum offset) ↔
          Fits oneSpace mmioNum offset 8) := by
    intro mmioNum offset hok
    have hp := perform_performs ⟨true, fun _ => 0⟩ mem oneSpace mmioNum offset .read64
    rw [hok] at hp
    exact inRange_iff hp
  refine ⟨⟨rfl, ?_⟩, ⟨rfl, rfl, ?_⟩, rfl, ?_⟩
  · rw [hperforms 1 0 rfl]
    exact fun hf => absurd hf.space (by decide)
  · rw [hperforms 0 0x100000000 rfl]
    exact fun hf => absurd hf.narrow (by decide)
  · rw [hperforms 0 0xffc rfl]
    rintro ⟨-, -, userMmio, hu, hsize⟩
    obtain rfl : 0 = userMmio := Option.some.inj hu
    exact absurd hsize (by decide)

end OpaeLibs.PluginVfio.Mmio
