import OpaeLibs.PluginXfpga.Mmio

namespace OpaeLibs.PluginXfpga.MmioBounds

open OpaeLibs.Lib.Bytes OpaeLibs.Lib.Runs
open OpaeLibs.OpaeC.Props OpaeLibs.PluginXfpga.WsidList OpaeLibs.PluginXfpga.Mmio

/-- The call passes the checks that come before the lookup of the mapping. -/
structure Ready (env : MapEnv) (h : Handle) (offset : UInt64) (call : AccessCall) : Prop where
  aligned : offset.toNat % call.width = 0
  check : env.check = .ok
  wide : ∀ value, call = .write512 value → h.flags &&& opaeFlagHasMmx512 ≠ 0

/-- Two states of a handle that differ in memory only. -/
structure SameMaps (h h' : Handle) : Prop where
  mmioRoot : h'.mmioRoot = h.mmioRoot
  flags : h'.flags = h.flags
  mappings : h'.mappings = h.mappings

theorem SameMaps.refl (h : Handle) : SameMaps h h := ⟨rfl, rfl, rfl⟩

theorem SameMaps.trans {h₁ h₂ h₃ : Handle} (h₁₂ : SameMaps h₁ h₂) (h₂₃ : SameMaps h₂ h₃) :
    SameMaps h₁ h₃ :=
  ⟨h₂₃.mmioRoot.trans h₁₂.mmioRoot, h₂₃.flags.trans h₁₂.flags, h₂₃.mappings.trans h₁₂.mappings⟩

/-- An access of `width` bytes at the address that it is given. -/
structure Touches (width : Nat) (go : Handle → UInt64 → Access) : Prop where
  result : ∀ h a, (go h a).result = .ok
  touched : ∀ h a, (go h a).touched = cells a width
  same : ∀ h a, SameMaps h (go h a).handle
  frame : ∀ h a x, x ∉ cells a width → (go h a).handle.mem x = h.mem x

theorem touches_readAt (width : Nat) : Touches width (readAt width) :=
  ⟨fun _ _ => rfl, fun _ _ => rfl, fun _ _ => ⟨rfl, rfl, rfl⟩, fun _ _ _ _ => rfl⟩

theorem touches_writeAt (value : List UInt8) : Touches value.length (writeAt value) :=
  ⟨fun _ _ => rfl, fun _ _ => rfl, fun _ _ => ⟨rfl, rfl, rfl⟩,
    fun h _ _ hx => store_of_notMem h.mem hx⟩

theorem width_dvd (call : AccessCall) : call.width ∣ 2 ^ 64 := by
  cases call <;> (dsimp only [AccessCall.width]; decide)

theorem width_pos (call : AccessCall) : 0 < call.width := by
  cases call <;> exact Nat.zero_lt_succ _

section

variable {env : MapEnv} {h : Handle} {mmioNum : UInt32} {offset : UInt64} {call : AccessCall}

theorem accessMmio_cases {width : Nat} (go : Handle → UInt64 → Access) :
    (offset.toNat % width = 0 ∧ env.check = .ok ∧
      accessMmio env h mmioNum offset width go = accessWm env h mmioNum offset go) ∨
    (¬ (offset.toNat % width = 0 ∧ env.check = .ok) ∧ ∃ result, result ≠ .ok ∧
      accessMmio env h mmioNum offset width go = refused result h) := by
  rw [accessMmio]
  by_cases haligned : offset.toNat % width = 0
  · rw [if_neg (not_not.mpr haligned)]
    by_cases hcheck : env.check = .ok
    · rw [if_neg (not_not.mpr hcheck)]
      exact .inl ⟨haligned, hcheck, rfl⟩
    · rw [if_pos hcheck]
      exact .inr ⟨fun hc => hcheck hc.2, env.check, hcheck, rfl⟩
  · rw [if_pos haligned]
    exact .inr ⟨fun hc => haligned hc.1, .invalidParam, FpgaResult.invalidParam_ne_ok, rfl⟩

theorem accessMmio_perform (go : Handle → UInt64 → Access) (hgo : Touches call.width go)
    (hnarrow : ∀ value, call ≠ .write512 value)
    (heq : perform env h mmioNum offset call = accessMmio env h mmioNum offset call.width go) :
    (Ready env h offset call ∧ ∃ go, Touches call.width go ∧
      perform env h mmioNum offset call = accessWm env h mmioNum offset go) ∨
    (¬ Ready env h offset call ∧ ∃ result, result ≠ .ok ∧
      perform env h mmioNum offset call = refused result h) := by
  obtain ⟨haligned, hcheck, hwm⟩ | ⟨hno, result, hres, hwm⟩ := accessMmio_cases go
  · refine .inl ⟨⟨haligned, hcheck, fun value hc => absurd hc (hnarrow value)⟩, go, hgo, ?_⟩
    rw [heq, hwm]
  · refine .inr ⟨fun hr => hno ⟨hr.aligned, hr.check⟩, result, hres, ?_⟩
    rw [heq, hwm]

theorem perform_cases (env : MapEnv) (h : Handle) (mmioNum : UInt32) (offset : UInt64)
    (call : AccessCall) :
    (Ready env h offset call ∧ ∃ go, Touches call.width go ∧
      perform env h mmioNum offset call = accessWm env h mmioNum offset go) ∨
    (¬ Ready env h offset call ∧ ∃ result, result ≠ .ok ∧
      perform env h mmioNum offset call = refused result h) := by
  cases call with
  | write32 value =>
    have hgo := touches_writeAt (toLe 4 value.toNat)
    rw [toLe_length] at hgo
    exact accessMmio_perform _ hgo (fun _ h => by cases h) rfl
  | read32 => exact accessMmio_perform _ (touches_readAt 4) (fun _ h => by cases h) rfl
  | write64 value =>
    have hgo := touches_writeAt (toLe 8 value.toNat)
    rw [toLe_length] at hgo
    exact accessMmio_perform _ hgo (fun _ h => by cases h) rfl
  | read64 => exact accessMmio_perform _ (touches_readAt 8) (fun _ h => by cases h) rfl
  | write512 value =>
    have hgo := touches_writeAt value.toList
    rw [Vector.length_toList] at hgo
    have haligned : offset % 64 = 0 ↔ offset.toNat % 64 = 0 := by
      rw [← UInt64.toNat_inj, UInt64.toNat_mod]
      rfl
    rw [perform, xfpgaFpgaWriteMmio512]
    split
    case isTrue hne =>
      exact .inr ⟨fun hr => hne (haligned.mpr hr.aligned), .invalidParam,
        FpgaResult.invalidParam_ne_ok, rfl⟩
    split
    case isTrue _ hcheck => exact .inr ⟨fun hr => hcheck hr.check, env.check, hcheck, rfl⟩
    split
    case isTrue _ _ hflags =>
      exact .inr ⟨fun hr => hr.wide value rfl hflags, .notSupported, (fun h => by cases h), rfl⟩
    case isFalse ha hcheck hflags =>
      exact .inl ⟨⟨haligned.mp (not_not.mp ha), not_not.mp hcheck, fun _ _ => hflags⟩, _, hgo, rfl⟩

end

/-- What is recorded lies below the end of the address space. -/
structure Inv (h : Handle) : Prop where
  valid : Valid h.mmioRoot
  fits : ∀ e ∈ records h.mmioRoot, e.offset.toNat + e.len.toNat ≤ 2 ^ 64

theorem Inv.of_root {h h' : Handle} (hi : Inv h) (heq : h'.mmioRoot = h.mmioRoot) : Inv h' :=
  ⟨heq ▸ hi.valid, heq ▸ hi.fits⟩

theorem inv_opened (flags : UInt32) (mem : UInt64 → UInt8) : Inv (opened flags mem) := by
  obtain ⟨root, hinit, hvalid, -⟩ := wsidTrackerInit_spec (n := 4) (by decide) (by decide)
  obtain rfl : (opened flags mem).mmioRoot = root := Option.some.inj hinit
  exact ⟨hvalid, fun e he => absurd he List.not_mem_nil⟩

section

variable {env : MapEnv} {h : Handle} {mmioNum : UInt32}

theorem Inv.recorded (hi : Inv h) {rinfo : OpaePortRegionInfo} {addr : UInt64}
    (hm : Maps env mmioNum rinfo addr) : Inv (recorded env h mmioNum rinfo addr) := by
  refine ⟨(wsidAdd_spec hi.valid _ _ _ _ _ _ _).1, fun e he => ?_⟩
  have hperm := records_recorded env hi.valid mmioNum rinfo addr
  rcases List.mem_cons.mp (hperm.mem_iff.mp he) with rfl | he
  · exact env.mmap.fits _ _ _ hm.mmap
  · exact hi.fits e he

theorem Inv.findOrMapWm (hi : Inv h) (env : MapEnv) (mmioNum : UInt32) :
    Inv (findOrMapWm env h mmioNum).2 := by
  obtain ⟨wm, -, heq⟩ | ⟨-, rinfo, addr, hm, -, heq⟩ | ⟨-, -, result, h', heq, -, hsame⟩ :=
    findOrMapWm_cases env hi.valid mmioNum
  · rw [heq]
    exact hi
  · rw [heq]
    exact hi.recorded hm
  · rw [heq]
    exact hi.of_root hsame.mmioRoot

theorem accessWm_same {width : Nat} {go : Handle → UInt64 → Access} (hgo : Touches width go)
    (offset : UInt64) :
    SameMaps (findOrMapWm env h mmioNum).2 (accessWm env h mmioNum offset go).handle := by
  rw [accessWm]
  generalize findOrMapWm env h mmioNum = r
  obtain ⟨result | wm, h'⟩ := r
  · exact .refl h'
  · dsimp only
    split
    · exact .refl h'
    · exact hgo.same _ _

end

theorem inv_step (h : Handle) (call : Mmio.Call) (hi : Inv h) : Inv (Mmio.step h call) := by
  cases call with
  | access env mmioNum offset call =>
    rw [Mmio.step]
    obtain ⟨-, go, hgo, heq⟩ | ⟨-, result, -, heq⟩ := perform_cases env h mmioNum offset call
    · rw [heq]
      exact (hi.findOrMapWm env mmioNum).of_root (accessWm_same hgo offset).mmioRoot
    · rw [heq]
      exact hi
  | map env mmioNum mmioPtr =>
    rw [Mmio.step, xfpgaFpgaMapMmio]
    split
    · exact hi
    · have hfound := hi.findOrMapWm env mmioNum
      generalize findOrMapWm env h mmioNum = r at hfound
      obtain ⟨result | wm, h'⟩ := r <;> exact hfound
  | unmap env mmioNum =>
    rw [Mmio.step, xfpgaFpgaUnmapMmio]
    split
    · exact hi
    cases hf : wsidFindByIndex h.mmioRoot mmioNum with
    | none => exact hi
    | some wm =>
      dsimp only
      split
      · exact hi
      · obtain ⟨wm', hfind⟩ := exists_wsidFind hi.valid (mem_of_wsidFindByIndex hf).1
        have hperm := wsidDel_records hi.valid hfind
        refine ⟨(wsidDel_spec hi.valid _).2.1, fun e he => hi.fits e ?_⟩
        exact hperm.mem_iff.mpr (List.mem_cons_of_mem _ he)

/-- What an access is to do: where it succeeds, touch bytes of the mapping that is recorded for the
space, and where it is refused, touch none. -/
structure Bounded (h : Handle) (mmioNum : UInt32) (r : Access) : Prop where
  inside : r.result = .ok → ∃ wm, wsidFindByIndex r.handle.mmioRoot mmioNum = some wm ∧
    ∀ a ∈ r.touched, wm.offset.toNat ≤ a.toNat ∧ a.toNat < wm.offset.toNat + wm.len.toNat
  refused : r.result ≠ .ok → r.touched = []
  frame : ∀ x, x ∉ r.touched → r.handle.mem x = h.mem x

/-- The mapping of the space, recorded before or made by the call, has this length. -/
def Meets (env : MapEnv) (h : Handle) (mmioNum : UInt32) (len : UInt64) : Prop :=
  (∃ wm, wsidFindByIndex h.mmioRoot mmioNum = some wm ∧ wm.len = len) ∨
  (wsidFindByIndex h.mmioRoot mmioNum = none ∧
    ∃ rinfo addr, Maps env mmioNum rinfo addr ∧ env.mem = true ∧ rinfo.size = len)

/-- An access whose offset is not behind the end of the mapping leaves room for its bytes. -/
def Fits (env : MapEnv) (h : Handle) (mmioNum : UInt32) (offset : UInt64)
    (call : AccessCall) : Prop :=
  Ready env h offset call → ∀ len, Meets env h mmioNum len → offset ≤ len →
    offset.toNat + call.width ≤ len.toNat

section

variable {env : MapEnv} {h : Handle} {mmioNum : UInt32} {offset : UInt64} {call : AccessCall}

theorem bounded_refused (h h' : Handle) (hmem : h'.mem = h.mem) (mmioNum : UInt32)
    {result : FpgaResult} (hres : result ≠ .ok) : Bounded h mmioNum (refused result h') :=
  ⟨fun hok => absurd hok hres, fun _ => rfl, fun _ _ => congrFun hmem _⟩

theorem toNat_cell (base offset : UInt64) {k : Nat} (hk : k < 2 ^ 64) :
    (base + offset + UInt64.ofNat k).toNat = (base.toNat + offset.toNat + k) % 2 ^ 64 := by
  rw [UInt64.toNat_add, UInt64.toNat_add, UInt64.toNat_ofNat', Nat.mod_eq_of_lt hk]
  omega

theorem cells_inside_iff {base len : UInt64} (hfits : base.toNat + len.toNat ≤ 2 ^ 64)
    (haligned : offset.toNat % call.width = 0) (hle : offset ≤ len) :
    (∀ a ∈ cells (base + offset) call.width,
      base.toNat ≤ a.toNat ∧ a.toNat < base.toNat + len.toNat) ↔
    offset.toNat + call.width ≤ len.toNat := by
  have hpos := width_pos call
  have hoff := offset.toNat_lt
  have hle : offset.toNat ≤ len.toNat := UInt64.le_iff_toNat_le.mp hle
  -- an aligned access does not run across the end of the address space
  have hroom : offset.toNat + call.width ≤ 2 ^ 64 := by
    obtain ⟨c, hc⟩ := width_dvd call
    obtain ⟨m, hm⟩ := Nat.dvd_of_mod_eq_zero haligned
    have hmc : m < c := by
      rw [hm, hc] at hoff
      exact Nat.lt_of_mul_lt_mul_left hoff
    rw [hm, hc, ← Nat.mul_succ]
    exact Nat.mul_le_mul_left _ hmc
  constructor
  · intro h
    obtain ⟨hlo, hhi⟩ := h _ (mem_cells.mpr ⟨call.width - 1, by omega, rfl⟩)
    rw [toNat_cell _ _ (by omega)] at hlo hhi
    omega
  · intro hroom a ha
    obtain ⟨k, hk, rfl⟩ := mem_cells.mp ha
    rw [toNat_cell _ _ (by omega)]
    omega

theorem bounded_access_iff {h' : Handle} {wm : WsidMap} {go : Handle → UInt64 → Access}
    (hgo : Touches call.width go) (hfind : wsidFindByIndex h'.mmioRoot mmioNum = some wm)
    (hfits : wm.offset.toNat + wm.len.toNat ≤ 2 ^ 64) (hmem : h'.mem = h.mem)
    (haligned : offset.toNat % call.width = 0) (hle : offset ≤ wm.len) :
    Bounded h mmioNum (go h' (wm.offset + offset)) ↔
      offset.toNat + call.width ≤ wm.len.toNat := by
  rw [← cells_inside_iff hfits haligned hle]
  have hres := hgo.result h' (wm.offset + offset)
  have htouched := hgo.touched h' (wm.offset + offset)
  have hroot := (hgo.same h' (wm.offset + offset)).mmioRoot
  constructor
  · intro hb
    obtain ⟨wm', hf, hin⟩ := hb.inside hres
    rw [hroot, hfind] at hf
    obtain rfl := Option.some.inj hf
    rwa [htouched] at hin
  · intro hin
    refine ⟨fun _ => ⟨wm, hroot ▸ hfind, htouched ▸ hin⟩, fun hno => absurd hres hno, ?_⟩
    intro x hx
    rw [htouched] at hx
    rw [hgo.frame _ _ x hx, hmem]

theorem bounded_found {h' : Handle} {wm : WsidMap} {go : Handle → UInt64 → Access}
    (hgo : Touches call.width go) (hfind : wsidFindByIndex h'.mmioRoot mmioNum = some wm)
    (hfits : wm.offset.toNat + wm.len.toNat ≤ 2 ^ 64) (hmem : h'.mem = h.mem)
    (haligned : offset.toNat % call.width = 0) :
    Bounded h mmioNum (if offset > wm.len then refused .invalidParam h'
        else go h' (wm.offset + offset)) ↔
      (offset ≤ wm.len → offset.toNat + call.width ≤ wm.len.toNat) := by
  by_cases hgt : offset > wm.len
  · rw [if_pos hgt]
    exact iff_of_true (bounded_refused h h' hmem mmioNum fun h => by cases h)
      fun hle => absurd hle (UInt64.not_le.mpr hgt)
  · have hle : offset ≤ wm.len := UInt64.not_lt.mp hgt
    rw [if_neg hgt, imp_iff_right hle]
    exact bounded_access_iff hgo hfind hfits hmem haligned hle

theorem bounded_iff (hi : Inv h) (env : MapEnv) (mmioNum : UInt32) (offset : UInt64)
    (call : AccessCall) :
    Bounded h mmioNum (perform env h mmioNum offset call) ↔ Fits env h mmioNum offset call := by
  obtain ⟨hready, go, hgo, heq⟩ | ⟨hno, result, hres, heq⟩ :=
    perform_cases env h mmioNum offset call
  swap
  · rw [heq]
    exact iff_of_true (bounded_refused h h rfl mmioNum hres) fun hr => absurd hr hno
  rw [heq, Fits, imp_iff_right hready, accessWm]
  obtain ⟨wm, hfind, hgot⟩ | ⟨hnone, rinfo, addr, hm, hmem, hgot⟩ |
      ⟨hnone, hno, result, h', hgot, hres, hsame⟩ := findOrMapWm_cases env hi.valid mmioNum
  · rw [hgot]
    have hmeets : ∀ len, Meets env h mmioNum len ↔ wm.len = len := by
      intro len
      rw [Meets, hfind]
      simp
    simp only [hmeets, forall_eq']
    exact bounded_found hgo hfind (hi.fits wm (mem_of_wsidFindByIndex hfind).1) rfl hready.aligned
  · rw [hgot]
    have hmeets : ∀ len, Meets env h mmioNum len ↔ rinfo.size = len := by
      intro len
      refine ⟨fun hlen => ?_, fun hlen => .inr ⟨hnone, rinfo, addr, hm, hmem, hlen⟩⟩
      rcases hlen with ⟨wm, hf, -⟩ | ⟨-, rinfo', addr', hm', -, hlen⟩
      · exact absurd (hnone.symm.trans hf) nofun
      · rw [← hlen, Option.some.inj (hm'.info.symm.trans hm.info)]
    simp only [hmeets, forall_eq']
    exact bounded_found hgo (find_recorded hi.valid hnone rinfo addr) (env.mmap.fits _ _ _ hm.mmap)
      rfl hready.aligned
  · rw [hgot]
    refine iff_of_true (bounded_refused h h' hsame.mem mmioNum hres) fun len hlen => ?_
    rcases hlen with ⟨wm, hf, -⟩ | ⟨-, rinfo, addr, hm, hmem, -⟩
    · exact absurd (hnone.symm.trans hf) nofun
    · exact absurd (hmem.symm.trans (hno rinfo addr hm)) nofun

end

theorem inv_run (flags : UInt32) (mem : UInt64 → UInt8) (calls : List Mmio.Call) :
    Inv (run Mmio.step (opened flags mem) calls) :=
  run_invariant (G := fun _ _ => True) (fun h call hi _ => inv_step h call hi)
    (inv_opened flags mem) (along_of_forall _ (fun _ _ _ => trivial) _)

/-- The accesses through a handle, in whatever state the calls before have left it. -/
theorem perform_bounded_iff (flags : UInt32) (mem : UInt64 → UInt8) (calls : List Mmio.Call)
    (env : MapEnv) (mmioNum : UInt32) (offset : UInt64) (call : AccessCall) :
    Bounded (run Mmio.step (opened flags mem) calls) mmioNum
        (perform env (run Mmio.step (opened flags mem) calls) mmioNum offset call) ↔
      Fits env (run Mmio.step (opened flags mem) calls) mmioNum offset call :=
  bounded_iff (inv_run flags mem calls) env mmioNum offset call

def pageEnv : MapEnv where
  check := .ok
  recheck := .ok
  regionInfo := fun _ => some ⟨afuPermission, 0x1000, 0⟩
  mmap :=
    { map := fun size _ => if size = 0x1000 then some 0x10000 else none
      fits := by
        intro size offset addr haddr
        split at haddr
        case isTrue hsize =>
          obtain rfl := Option.some.inj haddr
          rw [hsize]
          decide
        case isFalse => exact nomatch haddr }
  wsidGen := 1
  mem := true
  munmap := fun _ _ => true

/-- The check compares the offset alone, so a read at the end of the page is behind it. -/
theorem not_forall_bounded : ¬ ∀ (flags : UInt32) (mem : UInt64 → UInt8)
    (calls : List Mmio.Call) (env : MapEnv) (mmioNum : UInt32) (offset : UInt64)
    (call : AccessCall),
    Bounded (run Mmio.step (opened flags mem) calls) mmioNum
      (perform env (run Mmio.step (opened flags mem) calls) mmioNum offset call) := by
  intro hall
  have hb : Bounded (opened 0 0) 0 (perform pageEnv (opened 0 0) 0 0x1000 .read64) :=
    hall 0 0 [] pageEnv 0 0x1000 .read64
  obtain ⟨wm, hfind, hin⟩ := hb.inside (by decide)
  have hwm : wsidFindByIndex (perform pageEnv (opened 0 0) 0 0x1000 .read64).handle.mmioRoot 0 =
      some ⟨1, 0x10000, 0, 0x1000, 0x10000, 0, 0⟩ := by decide
  obtain rfl := Option.some.inj (hfind.symm.trans hwm)
  have hlast := (hin 0x11000 (by decide)).2
  exact absurd hlast (by decide)

end OpaeLibs.PluginXfpga.MmioBounds
