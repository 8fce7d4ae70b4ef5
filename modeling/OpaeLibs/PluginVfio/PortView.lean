import OpaeLibs.PluginVfio.Mmio
import OpaeLibs.PluginVfio.TokenGraph

namespace OpaeLibs.PluginVfio.PortView

open OpaeLibs.Lib.Bytes OpaeLibs.Lib.Loops
open OpaeLibs.OpaeC.Props OpaeLibs.PluginVfio.Properties OpaeLibs.PluginVfio.Dfl
open OpaeLibs.PluginVfio.DflWalk OpaeLibs.PluginVfio.TokenList OpaeLibs.PluginVfio.TokenGraph
open OpaeLibs.PluginVfio.Mmio

/-- The first header with the id of an STP on the list from `h` on. -/
inductive FirstStp : Mmio → Mmio → Prop
  | here {h : Mmio} {r : Dfh} : h.read64 = some r → r.id = portStpId → FirstStp h h
  | next {h h' s : Mmio} {r : Dfh} : h.read64 = some r → r.id ≠ portStpId →
      nextDfh h r = some h' → FirstStp h' s → FirstStp h s

theorem FirstStp.bar_eq {h s : Mmio} (hs : FirstStp h s) : s.bar = h.bar := by
  induction hs with
  | here => rfl
  | next _ _ hn _ ih => rw [ih, (nextDfh_eq_some hn).2, Mmio.shift]

theorem FirstStp.inBar {h s : Mmio} (hs : FirstStp h s) : InBar s 8 := by
  induction hs with
  | here hr _ => exact (isSome_read64 _).mp (by rw [hr]; rfl)
  | next _ _ _ _ ih => exact ih

theorem stpBody_of_eq {h : Mmio} {r : Dfh} (hid : r.id = portStpId) (stp : Option Mmio) :
    stpBody h r stp = some (true, some h) := if_pos hid

theorem stpBody_of_ne {h : Mmio} {r : Dfh} (hid : r.id ≠ portStpId) (stp : Option Mmio) :
    stpBody h r stp = some (false, stp) := if_neg hid

theorem firstStp_here {h s : Mmio} {r : Dfh} (hr : h.read64 = some r) (hid : r.id = portStpId) :
    FirstStp h s ↔ s = h := by
  constructor
  · intro hs
    cases hs with
    | here => rfl
    | next hr' hid' _ _ =>
      rw [hr, Option.some.injEq] at hr'
      exact absurd (hr' ▸ hid) hid'
  · rintro rfl
    exact .here hr hid

theorem firstStp_next {h s : Mmio} {r : Dfh} (hr : h.read64 = some r) (hid : r.id ≠ portStpId) :
    FirstStp h s ↔ ∃ h', nextDfh h r = some h' ∧ FirstStp h' s := by
  constructor
  · intro hs
    cases hs with
    | here hr' hid' =>
      rw [hr, Option.some.injEq] at hr'
      exact absurd (hr' ▸ hid') hid
    | @next _ h' _ r' hr' _ hn hs =>
      rw [hr, Option.some.injEq] at hr'
      exact ⟨h', hr' ▸ hn, hs⟩
  · rintro ⟨h', hn, hs⟩
    exact .next hr hid hn hs

theorem firstStp_of_ends {q : Mmio × Option Mmio} {stp : Option Mmio}
    (he : Ends (dfhRound stpBody) q stp) (hq : q.2 = none) (s : Mmio) :
    stp = some s ↔ FirstStp q.1 s := by
  induction he with
  | @done q stp hs =>
    obtain ⟨r, b, hr, hbody, hend⟩ := dfhRound_eq_done.mp hs
    by_cases hid : Dfh.id r = portStpId
    · rw [stpBody_of_eq hid, Option.some.injEq, Prod.mk.injEq] at hbody
      rw [firstStp_here hr hid, ← hbody.2, Option.some.injEq, eq_comm]
    · rw [stpBody_of_ne hid, Option.some.injEq, Prod.mk.injEq] at hbody
      have hlast : nextDfh q.1 r = none := by
        rw [← hbody.1] at hend
        exact hend.resolve_left Bool.noConfusion
      rw [firstStp_next hr hid, ← hbody.2, hq, hlast]
      simp
  | @next q q' stp hs _ ih =>
    obtain ⟨r, hr, hbody, hn⟩ := dfhRound_eq_next.mp hs
    by_cases hid : Dfh.id r = portStpId
    · rw [stpBody_of_eq hid] at hbody
      exact absurd hbody (by simp)
    · rw [stpBody_of_ne hid, Option.some.injEq, Prod.mk.injEq] at hbody
      rw [ih (hbody.2 ▸ hq), firstStp_next hr hid, hn]
      simp

theorem forEachDfh_stp {mmio : Mmio} {stp : Option Mmio}
    (h : forEachDfh stpBody mmio none = some stp) (s : Mmio) : stp = some s ↔ FirstStp mmio s :=
  firstStp_of_ends (forEachDfh_eq_some_iff.mp h) rfl s

/-- What the registers of a port say of its AFU and its STP. -/
structure PortAt (mmio : Mmio) (r : PortRegisters) : Prop where
  afu : ∃ nextAfu, (mmio.shift portNextAfu).read64 = some nextAfu ∧
    r.afuOffset = portAfuDfhOffset nextAfu
  guid : getGuid ((mmio.shift r.afuOffset.toNat).shift 8) = some r.guid
  stp : ∀ s, r.stp = some s ↔ FirstStp mmio s

theorem portAt_of_readPort {mmio : Mmio} {r : PortRegisters} (h : readPort mmio = some r) :
    PortAt mmio r := by
  simp only [readPort, Option.bind_eq_bind, Option.bind_eq_some_iff] at h
  obtain ⟨nextAfu, hnext, cap, -, -, -, guid, hguid, stp, hstp, heq⟩ := h
  obtain rfl := Option.some.inj heq
  exact ⟨⟨nextAfu, hnext, rfl⟩, hguid, forEachDfh_stp hstp⟩

/-- The token was last assigned from the port. -/
def BuiltFrom (q : UInt32 × Mmio) (t : TokenNode) : Prop :=
  ∃ r t₀, readPort q.2 = some r ∧ t = assignPort 0 q.2 r t₀

section Built

variable {mem : Nat → Bool} {p : PciDevice} {tokens tokens' : List TokenNode}

theorem walkPort_built (h : Valid tokens) {q : UInt32 × Mmio}
    (hw : walkPort mem p 0 q.1 q.2 tokens = some tokens') :
    ∀ t ∈ tokens', t.region = q.1 → BuiltFrom q t := by
  intro t ht hregion
  obtain ⟨r, hr, ⟨-, -, -, rfl⟩ | ⟨hne, -, rfl⟩⟩ := walkPort_cases h hw
  · obtain ⟨t₀, -, rfl⟩ := List.mem_map.mp ht
    split at hregion
    case isTrue heq =>
      rw [if_pos heq]
      exact ⟨r, t₀, hr, rfl⟩
    case isFalse hne => exact absurd hregion hne
  · rcases List.mem_cons.mp ht with rfl | ht
    · exact ⟨r, _, hr, rfl⟩
    · exact absurd hregion (hne t ht)

theorem walkPort_other (h : Valid tokens) {q : UInt32 × Mmio} {t : TokenNode}
    (hw : walkPort mem p 0 q.1 q.2 tokens = some tokens') (ht : t ∈ tokens')
    (hregion : t.region ≠ q.1) : t ∈ tokens := by
  obtain ⟨r, -, ⟨-, -, -, rfl⟩ | ⟨-, -, rfl⟩⟩ := walkPort_cases h hw
  · obtain ⟨t₀, ht₀, rfl⟩ := List.mem_map.mp ht
    split at hregion
    case isTrue heq => exact absurd ((assigns_assignPort 0 q.2 r).region t₀ |>.trans heq) hregion
    case isFalse hne =>
      rw [if_neg hne]
      exact ht₀
  · rcases List.mem_cons.mp ht with rfl | ht
    · exact absurd ((assigns_assignPort 0 q.2 r).region _) hregion
    · exact ht

theorem walkPorts_other {ps : List (UInt32 × Mmio)} {t : TokenNode} (h : Valid tokens)
    (hw : walkPorts mem p 0 ps tokens = some tokens') (ht : t ∈ tokens')
    (hregion : ∀ q ∈ ps, q.1 ≠ t.region) : t ∈ tokens := by
  induction ps generalizing tokens with
  | nil =>
    obtain rfl := Option.some.inj hw
    exact ht
  | cons q rest ih =>
    obtain ⟨tokens₁, hq, hrest⟩ := Option.bind_eq_some_iff.mp hw
    rw [List.forall_mem_cons] at hregion
    exact walkPort_other h hq (ih (walkPort_keeps h hq).1 hrest hregion.2) hregion.1.symm

theorem walkPorts_built {before after : List (UInt32 × Mmio)} {q : UInt32 × Mmio} (h : Valid tokens)
    (hw : walkPorts mem p 0 (before ++ q :: after) tokens = some tokens')
    (hlast : ∀ q' ∈ after, q'.1 ≠ q.1) {t : TokenNode} (ht : t ∈ tokens')
    (hregion : t.region = q.1) : BuiltFrom q t := by
  rw [walkPorts, List.foldlM_append] at hw
  obtain ⟨tokens₁, hbefore, hw⟩ := Option.bind_eq_some_iff.mp hw
  obtain ⟨tokens₂, hq, hafter⟩ := Option.bind_eq_some_iff.mp hw
  have hvalid := (walkPorts_keeps h hbefore).1
  have ht₂ := walkPorts_other (walkPort_keeps hvalid hq).1 hafter ht (by rwa [hregion])
  exact walkPort_built hvalid hq t ht₂ hregion

end Built

section Spaces

variable {q : UInt32 × Mmio} {t₀ : TokenNode} {r : PortRegisters}

theorem assignPort_guid : (assignPort 0 q.2 r t₀).guid = r.guid := by
  rw [assignPort]
  split <;> rfl

theorem assignPort_space0 :
    (assignPort 0 q.2 r t₀).userMmio[0]? = some (UInt32.ofNat r.afuOffset.toNat) := by
  rw [assignPort]
  split <;> simp

theorem assignPort_count :
    (assignPort 0 q.2 r t₀).userMmioCount = if r.stp.isSome then 2 else 1 := by
  rw [assignPort]
  cases r.stp <;> rfl

theorem assignPort_space1 (t₀ : TokenNode) {s : Mmio} (hs : r.stp = some s) :
    (assignPort 0 q.2 r t₀).userMmio[1]? = some (UInt32.ofNat (s.off - q.2.off)) := by
  rw [assignPort, hs]
  simp

end Spaces

def mapped (base : UInt64) (bar : Bar) (a : UInt64) : UInt8 := bar.byte (a - base).toNat

def readSpace (beyond : UInt32 → UInt32) (bar : Bar) (h : VfioHandle) (mmioNum : UInt32)
    (x : UInt64) : Access :=
  vfioFpgaReadMmio64 ⟨true, beyond⟩ (mapped h.mmioBase bar) (some h) mmioNum x

/-- The read is of the eight bytes from `a` on. -/
def Reads (access : Access) (a : UInt64) : Prop :=
  access.result = .ok ∧ access.touched = cells a 8

section Reads

variable {beyond : UInt32 → UInt32} {bar : Bar} {h : VfioHandle} {mmioNum userMmio : UInt32}

theorem readSpace_eq (hacc : h.token.type = .accelerator) (hnum : mmioNum ≤ h.token.userMmioCount)
    (hu : h.token.userMmio[mmioNum.toNat]? = some userMmio) (x : UInt64) :
    readSpace beyond bar h mmioNum x =
      ⟨.ok, cells (h.mmioBase + userMmio.toUInt64 + x.toUInt32.toUInt64) 8,
        mapped h.mmioBase bar, some (load (mapped h.mmioBase bar)
          (h.mmioBase + userMmio.toUInt64 + x.toUInt32.toUInt64) 8)⟩ := by
  have hok : mmioCheck ⟨true, beyond⟩ h.token mmioNum = .ok :=
    (mmioCheck_eq_ok_iff _ _ _).mpr ⟨hacc, hnum, rfl⟩
  have haddr := address_eq ⟨true, beyond⟩ x hu
  rw [address] at haddr
  rw [readSpace, vfioFpgaReadMmio64, readMmio]
  dsimp only
  rw [if_neg (not_not.mpr hok), haddr]

theorem readSpace_device (hdev : h.token.type = .device) (a x : UInt64) :
    ¬ Reads (readSpace beyond bar h mmioNum x) a := by
  rintro ⟨hres, -⟩
  have hp := performs_read ⟨true, beyond⟩ (mapped h.mmioBase bar) h mmioNum x 8
  rw [readSpace, vfioFpgaReadMmio64, hp.result_eq, mmioCheck_eq_ok_iff, hdev] at hres
  exact absurd hres.1 nofun

theorem reads_iff (hacc : h.token.type = .accelerator) (hnum : mmioNum ≤ h.token.userMmioCount)
    (hu : h.token.userMmio[mmioNum.toNat]? = some userMmio) (x : UInt64) (o : Nat) :
    Reads (readSpace beyond bar h mmioNum x) (h.mmioBase + UInt64.ofNat o + x) ↔
      userMmio.toUInt64 + x.toUInt32.toUInt64 = UInt64.ofNat o + x := by
  rw [Reads, readSpace_eq hacc hnum hu]
  simp only [true_and, cells_inj (n := 8) (by decide), UInt64.add_assoc, UInt64.add_right_inj]

theorem load_mapped (base : UInt64) (bar : Bar) {o : Nat} (ho : o + 8 ≤ 2 ^ 64) :
    load (mapped base bar) (base + UInt64.ofNat o) 8 =
      (List.range 8).map fun k => bar.byte (o + k) := by
  rw [load, cells, List.map_map]
  apply List.map_congr_left
  intro k hk
  have hsub : base + UInt64.ofNat o + UInt64.ofNat k - base = UInt64.ofNat o + UInt64.ofNat k := by
    rw [UInt64.add_assoc, UInt64.add_comm, UInt64.add_sub_cancel]
  have hk := List.mem_range.mp hk
  have hsum : (UInt64.ofNat o + UInt64.ofNat k).toNat = o + k := by
    rw [UInt64.toNat_add, UInt64.toNat_ofNat', UInt64.toNat_ofNat']
    omega
  rw [Function.comp, mapped, hsub, hsum]

theorem afu_offset_iff {off : Nat} (hoff : off < 2 ^ 24) (afu : BitVec 24) (x : UInt64) :
    (UInt32.ofNat afu.toNat).toUInt64 + x.toUInt32.toUInt64 = UInt64.ofNat (off + afu.toNat) + x ↔
      off = 0 ∧ x.toNat < 2 ^ 32 := by
  have hafu := afu.isLt
  have hx := x.toNat_lt
  rw [← UInt64.toNat_inj, UInt64.toNat_add, UInt64.toNat_add, UInt32.toNat_toUInt64,
    UInt32.toNat_toUInt64, UInt32.toNat_ofNat', UInt64.toNat_toUInt32, UInt64.toNat_ofNat']
  omega

theorem stp_offset_iff {o : Nat} (ho : o < 2 ^ 64) {x : UInt64} (hx : x.toNat < 2 ^ 32) :
    (UInt32.ofNat o).toUInt64 + x.toUInt32.toUInt64 = UInt64.ofNat o + x ↔ o < 2 ^ 32 := by
  rw [← UInt64.toNat_inj, UInt64.toNat_add, UInt64.toNat_add, UInt32.toNat_toUInt64,
    UInt32.toNat_toUInt64, UInt32.toNat_ofNat', UInt64.toNat_toUInt32, UInt64.toNat_ofNat']
  omega

end Reads

/-- What a handle shows at an offset, whose region is a mapping of `bar`, if it is opened on the
token of a port. -/
structure Agrees (mmio : Mmio) (bar : Bar) (h : VfioHandle) (beyond : UInt32 → UInt32)
    (x : UInt64) : Prop where
  afu : ∀ nextAfu, (mmio.shift portNextAfu).read64 = some nextAfu →
    Reads (readSpace beyond bar h 0 x)
      (h.mmioBase + UInt64.ofNat (mmio.off + (portAfuDfhOffset nextAfu).toNat) + x)
  guid : ∀ lo hi, (readSpace beyond bar h 0 8).value = some lo →
    (readSpace beyond bar h 0 0x10).value = some hi →
      guidOf (BitVec.ofNat 64 (ofLe lo)) (BitVec.ofNat 64 (ofLe hi)) = h.token.guid
  present : 1 < h.token.userMmioCount ↔ ∃ s, FirstStp mmio s
  stp : ∀ s, FirstStp mmio s →
    Reads (readSpace beyond bar h 1 x) (h.mmioBase + UInt64.ofNat s.off + x)

/-- The port is at the start of a BAR that is not the FME's, and 32 bits hold the offset and where
the STP is. -/
structure Aligned (q : UInt32 × Mmio) (x : UInt64) : Prop where
  other : q.1 ≠ 0
  start : q.2.off = 0
  narrow : x.toNat < 2 ^ 32
  stp : ∀ s, FirstStp q.2 s → s.off < 2 ^ 32

section Agrees

variable {q : UInt32 × Mmio} {h : VfioHandle} {beyond : UInt32 → UInt32} {x : UInt64}
  {r : PortRegisters} {t₀ : TokenNode}

theorem present_iff (ht : h.token = assignPort 0 q.2 r t₀)
    (hstp : ∀ s, r.stp = some s ↔ FirstStp q.2 s) :
    1 < h.token.userMmioCount ↔ ∃ s, FirstStp q.2 s := by
  rw [ht, assignPort_count]
  simp only [← hstp]
  cases r.stp with
  | none => exact iff_of_false (UInt32.lt_irrefl 1) nofun
  | some s => exact iff_of_true (by rw [Option.isSome_some, if_pos rfl]; decide) ⟨s, rfl⟩

theorem space0_le (h : VfioHandle) : (0 : UInt32) ≤ h.token.userMmioCount := UInt32.zero_le

theorem space0_get (ht : h.token = assignPort 0 q.2 r t₀) :
    h.token.userMmio[(0 : UInt32).toNat]? = some (UInt32.ofNat r.afuOffset.toNat) := by
  rw [ht]
  exact assignPort_space0

theorem space1_le (ht : h.token = assignPort 0 q.2 r t₀) {s : Mmio} (hstp : r.stp = some s) :
    (1 : UInt32) ≤ h.token.userMmioCount := by
  rw [ht, assignPort_count, hstp, Option.isSome_some, if_pos rfl]
  decide

theorem space1_get (ht : h.token = assignPort 0 q.2 r t₀) (hstart : q.2.off = 0) {s : Mmio}
    (hstp : r.stp = some s) :
    h.token.userMmio[(1 : UInt32).toNat]? = some (UInt32.ofNat s.off) := by
  have hsub := assignPort_space1 (q := q) t₀ hstp
  rw [hstart, Nat.sub_zero] at hsub
  rw [ht]
  exact hsub

theorem reads_afu_iff (hacc : h.token.type = .accelerator) (ht : h.token = assignPort 0 q.2 r t₀)
    (hoff : q.2.off < 2 ^ 24) :
    Reads (readSpace beyond q.2.bar h 0 x)
        (h.mmioBase + UInt64.ofNat (q.2.off + r.afuOffset.toNat) + x) ↔
      q.2.off = 0 ∧ x.toNat < 2 ^ 32 := by
  rw [reads_iff hacc (space0_le h) (space0_get ht), afu_offset_iff hoff]

theorem reads_stp_iff (hacc : h.token.type = .accelerator) (ht : h.token = assignPort 0 q.2 r t₀)
    (hstart : q.2.off = 0) (hnarrow : x.toNat < 2 ^ 32) {s : Mmio} (hstp : r.stp = some s)
    (hs : FirstStp q.2 s) :
    Reads (readSpace beyond q.2.bar h 1 x) (h.mmioBase + UInt64.ofNat s.off + x) ↔
      s.off < 2 ^ 32 := by
  have hlt := s.bar.size_lt
  have hin := hs.inBar
  rw [InBar] at hin
  rw [reads_iff hacc (space1_le ht hstp) (space1_get ht hstart hstp),
    stp_offset_iff (by omega) hnarrow]

theorem read64_eq_some {m : Mmio} {w : BitVec 64} (hw : m.read64 = some w) :
    w = BitVec.ofNat 64 (ofLe ((List.range 8).map fun k => m.bar.byte (m.off + k))) := by
  rw [Mmio.read64] at hw
  split at hw
  · exact (Option.some.inj hw).symm
  · cases hw

/-- Where the port is at the start of its BAR, a register of its AFU reads as it is. -/
theorem value_afu (hacc : h.token.type = .accelerator) (ht : h.token = assignPort 0 q.2 r t₀)
    (hstart : q.2.off = 0) {o : Nat} (ho : o < 2 ^ 32) {w : BitVec 64}
    (hw : ((q.2.shift r.afuOffset.toNat).shift o).read64 = some w) {value : List UInt8}
    (hv : (readSpace beyond q.2.bar h 0 (UInt64.ofNat o)).value = some value) :
    BitVec.ofNat 64 (ofLe value) = w := by
  have hafu := r.afuOffset.isLt
  have haddr : (UInt32.ofNat r.afuOffset.toNat).toUInt64 + (UInt64.ofNat o).toUInt32.toUInt64 =
      UInt64.ofNat (r.afuOffset.toNat + o) := by
    rw [← UInt64.toNat_inj, UInt64.toNat_add, UInt32.toNat_toUInt64, UInt32.toNat_toUInt64,
      UInt32.toNat_ofNat', UInt64.toNat_toUInt32, UInt64.toNat_ofNat', UInt64.toNat_ofNat']
    omega
  rw [readSpace_eq hacc (space0_le h) (space0_get ht), UInt64.add_assoc, haddr,
    load_mapped _ _ (by omega)] at hv
  rw [read64_eq_some hw, ← Option.some.inj hv, Mmio.shift, Mmio.shift, hstart, Nat.zero_add]

theorem guid_agrees (hacc : h.token.type = .accelerator) (ht : h.token = assignPort 0 q.2 r t₀)
    (hstart : q.2.off = 0) (hguid : getGuid ((q.2.shift r.afuOffset.toNat).shift 8) = some r.guid)
    {lo hi : List UInt8} (hlo : (readSpace beyond q.2.bar h 0 8).value = some lo)
    (hhi : (readSpace beyond q.2.bar h 0 0x10).value = some hi) :
    guidOf (BitVec.ofNat 64 (ofLe lo)) (BitVec.ofNat 64 (ofLe hi)) = h.token.guid := by
  simp only [getGuid, Option.bind_eq_bind, Option.bind_eq_some_iff] at hguid
  obtain ⟨wlo, hwlo, whi, hwhi, heq⟩ := hguid
  rw [value_afu hacc ht hstart (o := 8) (by decide) hwlo hlo,
    value_afu hacc ht hstart (o := 0x10) (by decide) hwhi hhi, ht, assignPort_guid]
  exact Option.some.inj heq

theorem agrees_iff (hbuilt : BuiltFrom q h.token) (hoff : q.2.off < 2 ^ 24)
    (htype : h.token.type = .accelerator ↔ q.1 ≠ 0) :
    Agrees q.2 q.2.bar h beyond x ↔ Aligned q x := by
  obtain ⟨r, t₀, hr, ht⟩ := hbuilt
  have hport := portAt_of_readPort hr
  obtain ⟨nextAfu, hnext, hafu⟩ := hport.afu
  constructor
  · rintro ⟨hreads, -, -, hstp⟩
    have hafuReads := hreads nextAfu hnext
    have hacc : h.token.type = .accelerator := by
      cases hty : h.token.type with
      | device => exact absurd hafuReads (readSpace_device hty _ _)
      | accelerator => rfl
    rw [← hafu] at hafuReads
    obtain ⟨hstart, hnarrow⟩ := (reads_afu_iff hacc ht hoff).mp hafuReads
    refine ⟨htype.mp hacc, hstart, hnarrow, fun s hs => ?_⟩
    exact (reads_stp_iff hacc ht hstart hnarrow ((hport.stp s).mpr hs) hs).mp (hstp s hs)
  · rintro ⟨hother, hstart, hnarrow, hstp⟩
    have hacc := htype.mpr hother
    refine ⟨fun nextAfu' hnext' => ?_, fun lo hi hlo hhi => ?_, present_iff ht hport.stp,
      fun s hs => ?_⟩
    · obtain rfl := Option.some.inj (hnext.symm.trans hnext')
      rw [← hafu]
      exact (reads_afu_iff hacc ht hoff).mpr ⟨hstart, hnarrow⟩
    · exact guid_agrees hacc ht hstart hport.guid hlo hhi
    · exact (reads_stp_iff hacc ht hstart hnarrow ((hport.stp s).mpr hs) hs).mpr (hstp s hs)

end Agrees

section Walked

variable {mem : Nat → Bool} {p : PciDevice} {d : FmeDevice} {tokens tokens' : List TokenNode}

theorem ports_spec {q : UInt32 × Mmio} (hq : q ∈ d.ports) :
    d.regions q.1 = some q.2.bar ∧ q.2.off < 2 ^ 24 := by
  obtain ⟨x, -, hx⟩ := List.mem_filterMap.mp hq
  rw [accessiblePort] at hx
  simp only [Option.bind_eq_bind, Option.bind_eq_some_iff] at hx
  obtain ⟨r, -, hx⟩ := hx
  split at hx
  · obtain ⟨portBar, hbar, heq⟩ := Option.bind_eq_some_iff.mp hx
    rw [← Option.some.inj heq, Mmio.shift, Nat.zero_add]
    exact ⟨hbar, (PortOffset.offset r).isLt⟩
  · cases hx

theorem walkPorts_type {ps : List (UInt32 × Mmio)} (h : Valid tokens)
    (hw : walkPorts mem p 0 ps tokens = some tokens')
    (hacc : ∀ t ∈ tokens, t.region ≠ 0 → t.type = .accelerator) :
    ∀ t ∈ tokens', t.region ≠ 0 → t.type = .accelerator := by
  induction ps generalizing tokens with
  | nil =>
    obtain rfl := Option.some.inj hw
    exact hacc
  | cons q rest ih =>
    obtain ⟨tokens₁, hq, hrest⟩ := Option.bind_eq_some_iff.mp hw
    refine ih (walkPort_keeps h hq).1 hrest ?_
    obtain ⟨r, -, ⟨-, -, -, rfl⟩ | ⟨-, -, rfl⟩⟩ := walkPort_cases h hq
    · intro t ht hne
      obtain ⟨t₀, ht₀, rfl⟩ := List.mem_map.mp ht
      have hassigns := assigns_assignPort 0 q.2 r
      by_cases hq₀ : t₀.region = q.1
      · rw [if_pos hq₀, hassigns.region] at hne
        rw [if_pos hq₀, hassigns.type]
        exact hacc t₀ ht₀ hne
      · rw [if_neg hq₀] at hne ⊢
        exact hacc t₀ ht₀ hne
    · rw [List.forall_mem_cons, (assigns_assignPort 0 q.2 r).type]
      exact ⟨fun _ => rfl, hacc⟩

theorem type_iff (hwalk : vfioWalk mem (some d.regions) p [] = some (0, tokens)) {t : TokenNode}
    (ht : t ∈ tokens) : t.type = .accelerator ↔ t.region ≠ 0 := by
  obtain ⟨-, r, -, hports⟩ := walk_cases hwalk
  have hvalid := valid_fmeToken p r
  obtain ⟨hvalid', htypes⟩ := walkPorts_keeps hvalid hports
  constructor
  · intro hacc hzero
    obtain ⟨t', ht', htr', hdev⟩ := htypes 0 .device
      ⟨fmeToken p r, List.mem_singleton_self _, rfl, rfl⟩
    rw [hvalid'.region_inj ht ht' (hzero.trans htr'.symm), hdev] at hacc
    exact absurd hacc nofun
  · refine walkPorts_type hvalid hports ?_ t ht
    intro t' ht' hne
    rw [List.mem_singleton.mp ht'] at hne
    exact absurd rfl hne

theorem token_of_open {env : OpenEnv} {t : TokenNode} {h : VfioHandle}
    (hopen : vfioFpgaOpen env (some t) true = (.ok, some h)) : h.token = t := by
  rw [vfioFpgaOpen] at hopen
  split_ifs at hopen with hptr hmattr hmem hlock
  · exact absurd hopen nofun
  · exact absurd hopen nofun
  · exact absurd hopen nofun
  · exact absurd hopen nofun
  · cases hregion : env.region with
    | none =>
      rw [hregion] at hopen
      exact absurd hopen nofun
    | some region =>
      cases hbar : region t.region with
      | none =>
        simp only [hregion, hbar] at hopen
        exact absurd hopen nofun
      | some bar =>
        simp only [hregion, hbar, Prod.mk.injEq, Option.some.injEq, true_and] at hopen
        rw [← hopen]

/-- The handle shows the port exactly when it is at the start of its BAR. -/
theorem port_view_agrees_iff (hwalk : vfioWalk mem (some d.regions) p [] = some (0, tokens))
    {before after : List (UInt32 × Mmio)} {q : UInt32 × Mmio}
    (hq : d.ports = before ++ q :: after) (hlast : ∀ q' ∈ after, q'.1 ≠ q.1)
    {t : TokenNode} (ht : t ∈ tokens) (hregion : t.region = q.1)
    {bar : Bar} (hbar : d.regions t.region = some bar)
    {env : OpenEnv} {h : VfioHandle} (hopen : vfioFpgaOpen env (some t) true = (.ok, some h))
    (beyond : UInt32 → UInt32) (x : UInt64) :
    Agrees q.2 bar h beyond x ↔ Aligned q x := by
  obtain ⟨-, r, -, hports⟩ := walk_cases hwalk
  have hmem : q ∈ d.ports := hq ▸ List.mem_append_right _ List.mem_cons_self
  obtain ⟨hqbar, hoff⟩ := ports_spec hmem
  have hbuilt : BuiltFrom q t :=
    walkPorts_built (valid_fmeToken p r) (hq ▸ hports) hlast ht hregion
  have htype := type_iff hwalk ht
  rw [hregion] at htype hbar
  obtain rfl := Option.some.inj (hqbar.symm.trans hbar)
  obtain rfl := token_of_open hopen
  exact agrees_iff hbuilt hoff htype

end Walked

def openEnv : OpenEnv := ⟨true, true, true, some fun _ => some (0x7f0000000000, 0x200), false⟩

def handleOf (t : TokenNode) : VfioHandle := ⟨t, 0x7f0000000000, 0x200, 0⟩

theorem open_handleOf (t : TokenNode) :
    vfioFpgaOpen openEnv (some t) true = (.ok, some (handleOf t)) := rfl

theorem walk_token {d : FmeDevice} {α : Type} {f : TokenNode → α} {a : α}
    (h : (vfioWalk (fun _ => true) (some d.regions) pac []).map
      (fun w => (w.1, (w.2.find? fun t => t.region = 2).map f)) = some (0, some a)) :
    ∃ tokens, vfioWalk (fun _ => true) (some d.regions) pac [] = some (0, tokens) ∧
      ∃ t ∈ tokens, t.region = 2 ∧ f t = a := by
  obtain ⟨⟨res, tokens⟩, hw, heq⟩ := Option.map_eq_some_iff.mp h
  obtain ⟨rfl, hfind⟩ := Prod.mk.inj heq
  obtain ⟨t, ht, hf⟩ := Option.map_eq_some_iff.mp hfind
  exact ⟨tokens, hw, t, List.mem_of_find?_eq_some ht, by simpa using List.find?_some ht, hf⟩

theorem port_view_agrees_iff_sample : ∃ tokens q, ∃ t ∈ tokens,
    vfioWalk (fun _ => true) (some ownBar.regions) pac [] = some (0, tokens) ∧
      ownBar.ports = [q] ∧ t.region = q.1 ∧
      Agrees q.2 portBar (handleOf t) (fun _ => 0) 0x10 := by
  obtain ⟨tokens, hwalk, t, ht, hregion, -⟩ := walk_token (d := ownBar) (f := fun _ => ()) (a := ())
    (by decide +kernel)
  have hports : ownBar.ports.map (fun q => (q.1, q.2.off, q.2.bar.size)) = [(2, 0, 0x200)] := by
    decide +kernel
  obtain ⟨q, hq, hfields⟩ := List.map_eq_singleton_iff.mp hports
  obtain ⟨hq1, hfields⟩ := Prod.mk.inj hfields
  obtain ⟨hoff, hsize⟩ := Prod.mk.inj hfields
  have htq : t.region = q.1 := hregion.trans hq1.symm
  have hbar : ownBar.regions t.region = some portBar := by
    rw [hregion]
    rfl
  refine ⟨tokens, q, t, ht, hwalk, hq, htq, ?_⟩
  have hsplit : ownBar.ports = [] ++ q :: [] := hq
  rw [port_view_agrees_iff hwalk hsplit nofun ht htq hbar (open_handleOf t)]
  refine ⟨by rw [hq1]; decide, hoff, by decide, ?_⟩
  intro s hs
  have hin := hs.inBar
  rw [InBar, hs.bar_eq, hsize] at hin
  omega

def farPort : FmeDevice := deviceWith [portAt 2 0x100] (by decide +kernel)

/-- The AFU is at `0x140` in the BAR and its GUID in the token, while the handle reads at `0x40`. -/
theorem far_port_misread : ∃ tokens q, ∃ t ∈ tokens,
    vfioWalk (fun _ => true) (some farPort.regions) pac [] = some (0, tokens) ∧
      farPort.ports = [q] ∧ t.region = q.1 ∧
      getGuid ⟨portBar, 0x148⟩ = some t.guid ∧
      (readSpace (fun _ => 0) portBar (handleOf t) 0 8).touched = cells 0x7f0000000048 8 ∧
      ¬ Agrees q.2 portBar (handleOf t) (fun _ => 0) 8 := by
  obtain ⟨tokens, hwalk, t, ht, hregion, hfields⟩ := walk_token (d := farPort)
    (f := fun t => (t.type, t.userMmio, decide (getGuid ⟨portBar, 0x148⟩ = some t.guid)))
    (a := (.accelerator, #v[0x40, 0, 0, 0, 0, 0, 0, 0], true)) (by decide +kernel)
  obtain ⟨hacc, hfields⟩ := Prod.mk.inj hfields
  obtain ⟨huserMmio, hguid⟩ := Prod.mk.inj hfields
  have hu : (handleOf t).token.userMmio[(0 : UInt32).toNat]? = some 0x40 := by
    rw [handleOf, huserMmio]
    rfl
  have hports : farPort.ports.map (fun q => (q.1, q.2.off, (q.2.shift portNextAfu).read64)) =
      [(2, 0x100, some 0x40)] := by decide +kernel
  obtain ⟨q, hq, hfields⟩ := List.map_eq_singleton_iff.mp hports
  obtain ⟨hq1, hfields⟩ := Prod.mk.inj hfields
  obtain ⟨hoff, hnext⟩ := Prod.mk.inj hfields
  have htouched : (readSpace (fun _ => 0) portBar (handleOf t) 0 8).touched =
      cells 0x7f0000000048 8 := by
    rw [readSpace_eq hacc UInt32.zero_le hu]
    rfl
  refine ⟨tokens, q, t, ht, hwalk, hq, hregion.trans hq1.symm, of_decide_eq_true hguid,
    htouched, ?_⟩
  intro hagrees
  obtain ⟨-, hreads⟩ := hagrees.afu 0x40 hnext
  rw [htouched, cells_inj (by decide), hoff] at hreads
  have hne : (0x7f0000000048 : UInt64) ≠
      0x7f0000000000 + UInt64.ofNat (0x100 + (portAfuDfhOffset 0x40).toNat) + 8 := by decide
  exact hne hreads

end OpaeLibs.PluginVfio.PortView
