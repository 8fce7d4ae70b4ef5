import OpaeLibs.PluginVfio.Properties
import OpaeLibs.PluginXfpga.Properties

namespace OpaeLibs.PluginVfio.UpdatedFields

open OpaeLibs.OpaeC.Props OpaeLibs.PluginVfio.Properties

variable {τ : Type}

/-- The version that an id stands for, as the other plugin reads it. -/
def bbsVersionOf (id : UInt64) : FpgaVersion :=
  ⟨PluginXfpga.Properties.fpgaBbsVerMajor id, PluginXfpga.Properties.fpgaBbsVerMinor id,
    PluginXfpga.Properties.fpgaBbsVerPatch id⟩

/-- The member behind the bit `f` holds what the token reports; a bit without such a member must
not be set. -/
def holdsOwn (t : VfioToken) (p : FpgaProperties τ) : Nat → Prop
  | 1 => p.objtype = t.type
  | 2 => p.segment = t.device.bdf.segment
  | 3 => p.bus = t.device.bdf.bus
  | 4 => p.device = UInt8.ofBitVec (t.device.bdf.device.setWidth 8)
  | 5 => p.function = UInt8.ofBitVec (t.device.bdf.function.setWidth 8)
  | 6 => p.socketId = t.device.numaNode.toUInt8
  | 7 => p.vendorId = t.device.vendor.toUInt16
  | 8 => p.deviceId = t.device.device.toUInt16
  | 9 => p.guid = match t.type with
    | .accelerator => t.guid
    | .device => t.compatId
  | 10 => p.objectId = t.device.bdf.bdf.toUInt64 <<< 32 ||| t.region.toUInt64
  | 32 => t.type = .device ∧ p.u.numSlots = t.numPorts.toUInt32
  | 33 => match t.type with
    | .accelerator => p.u.numMmio = t.userMmioCount
    | .device => p.u.bbsId = t.bitstreamId
  | 34 => t.type = .device ∧ p.u.bbsVersion = bbsVersionOf t.bitstreamId
  | _ => False

def OwnValues (t : VfioToken) (p : FpgaProperties τ) : Prop := ∀ f, fieldValid p f → holdsOwn t p f

/-- The bits that a token of the type answers for. -/
def reported : FpgaObjtype → List Nat
  | .accelerator => [1, 2, 3, 4, 5, 6, 7, 8, 9, 10, 33]
  | .device => [1, 2, 3, 4, 5, 6, 7, 8, 9, 10, 32, 33, 34]

def updated (t : VfioToken) (p : FpgaProperties τ) : FpgaProperties τ :=
  (vfioFpgaUpdateProperties (some t) p).2

theorem fieldValid_updateAddress (t : VfioToken) (p : FpgaProperties τ) (f : Nat) :
    fieldValid (updateAddress t p) f ↔ f ∈ [1, 2, 3, 4, 5, 6, 7, 8, 10] ∨ fieldValid p f := by
  simp only [updateAddress, fpgaPropertyObjtype, fpgaPropertyObjectid, fpgaPropertySocketid,
    fpgaPropertyFunction, fpgaPropertyDevice, fpgaPropertyBus, fpgaPropertySegment,
    fpgaPropertyDeviceid, fpgaPropertyVendorid, Nat.reduceLT, implies_true, fieldValid_assign,
    List.mem_cons, List.not_mem_nil, or_false]
  grind

theorem fieldValid_updated (t : VfioToken) (p : FpgaProperties τ) (f : Nat) :
    fieldValid (updated t p) f ↔ match t.type with
      | .accelerator => f ∈ reported .accelerator ∨ f ≠ fpgaPropertyParent ∧ fieldValid p f
      | .device => f ∈ reported .device ∨ fieldValid p f := by
  rw [updated, vfioFpgaUpdateProperties]
  cases t.type with
  | accelerator =>
    simp only [updateAccelerator, fpgaPropertyNumMmio, fpgaPropertyGuid, fpgaPropertyParent,
      Nat.reduceLT, implies_true, fieldValid_assign, fieldValid_clearFieldValid,
      fieldValid_withoutParent, fieldValid_updateAddress, reported, List.mem_cons,
      List.not_mem_nil, or_false]
    by_cases hv : fieldValid p f
    · simp only [hv, or_true, and_true]
      omega
    · simp only [hv, or_false, and_false]
      omega
  | device =>
    simp only [updateDevice, fpgaPropertyNumSlots, fpgaPropertyBbsversion, fpgaPropertyBbsid,
      fpgaPropertyGuid, Nat.reduceLT, implies_true, fieldValid_assign, fieldValid_updateAddress,
      reported, List.mem_cons, List.not_mem_nil, or_false]
    grind

theorem holdsOwn_common (t : VfioToken) (p : FpgaProperties τ) :
    ∀ f ∈ [1, 2, 3, 4, 5, 6, 7, 8, 9, 10], holdsOwn t (updated t p) f := by
  obtain ⟨guid, compatId, device, region, userMmioCount, bitstreamId, numPorts, type⟩ := t
  simp only [List.forall_mem_cons]
  cases type with
  | accelerator => exact ⟨rfl, rfl, rfl, rfl, rfl, rfl, rfl, rfl, rfl, rfl, nofun⟩
  | device => exact ⟨rfl, rfl, rfl, rfl, rfl, rfl, rfl, rfl, rfl, rfl, nofun⟩

theorem mem_reported_of_holdsOwn {t : VfioToken} {p : FpgaProperties τ} {f : Nat}
    (h : holdsOwn t p f) : f ∈ reported t.type := by
  revert h
  fun_cases holdsOwn t p f <;> simp +contextual [reported]
  all_goals cases t.type <;> simp

/-- Nothing that the token does not report is valid before, unless the update clears it, and the
two slips in the assignment of the version do not show. -/
structure Undisturbed (t : VfioToken) (p : FpgaProperties τ) : Prop where
  bits : ∀ f, fieldValid p f →
    f ∈ reported t.type ∨ t.type = .accelerator ∧ f = fpgaPropertyParent
  version : t.type = .device → fpgaBbsVerPatch t.bitstreamId = fpgaBbsVerMajor t.bitstreamId ∧
    p.u.bbsVersion.patch = PluginXfpga.Properties.fpgaBbsVerPatch t.bitstreamId

section

variable {t : VfioToken} (p : FpgaProperties τ)

theorem holdsOwn_numMmio (htype : t.type = .accelerator) : holdsOwn t (updated t p) 33 := by
  rw [holdsOwn, updated, vfioFpgaUpdateProperties, htype]
  rfl

variable (htype : t.type = .device)
include htype

theorem updated_of_device :
    (updated t p).u = ((p.u.setBbsId t.bitstreamId).setBbsVersion ⟨fpgaBbsVerPatch t.bitstreamId,
      fpgaBbsVerMinor t.bitstreamId, p.u.bbsVersion.patch⟩).setNumSlots t.numPorts.toUInt32 := by
  rw [updated, vfioFpgaUpdateProperties, htype]
  rfl

theorem holdsOwn_numSlots : holdsOwn t (updated t p) 32 := by
  rw [holdsOwn, updated_of_device p htype]
  exact ⟨htype, rfl⟩

theorem holdsOwn_bbsId : holdsOwn t (updated t p) 33 := by
  rw [holdsOwn, htype, updated_of_device p htype]
  exact ObjectSpecific.bbsId_setBbsId p.u t.bitstreamId

theorem holdsOwn_bbsVersion : holdsOwn t (updated t p) 34 ↔
    fpgaBbsVerPatch t.bitstreamId = fpgaBbsVerMajor t.bitstreamId ∧
      p.u.bbsVersion.patch = PluginXfpga.Properties.fpgaBbsVerPatch t.bitstreamId := by
  rw [holdsOwn, updated_of_device p htype]
  constructor
  · rintro ⟨-, hversion⟩
    obtain ⟨hmajor, -, hpatch⟩ := FpgaVersion.mk.inj hversion
    exact ⟨hmajor, hpatch⟩
  · rintro ⟨hmajor, hpatch⟩
    refine ⟨htype, ?_⟩
    exact FpgaVersion.mk.injEq .. ▸ ⟨hmajor, rfl, hpatch⟩

end

/-- After an update every valid field holds the token's own value just if nothing shows through. -/
theorem own_values_iff (t : VfioToken) (p : FpgaProperties τ) :
    OwnValues t (updated t p) ↔ Undisturbed t p := by
  have hvalid := fieldValid_updated t p
  cases htype : t.type with
  | accelerator =>
    rw [htype] at hvalid
    constructor
    · intro h
      refine ⟨fun f hf => ?_, fun hdevice => nomatch htype.symm.trans hdevice⟩
      by_cases hparent : f = fpgaPropertyParent
      · exact .inr ⟨htype, hparent⟩
      · exact .inl (mem_reported_of_holdsOwn (h f ((hvalid f).mpr (.inr ⟨hparent, hf⟩))))
    · rintro ⟨hbits, -⟩ f hf
      have hmem : f ∈ [1, 2, 3, 4, 5, 6, 7, 8, 9, 10] ++ [33] := by
        obtain hmem | ⟨hparent, hf⟩ := (hvalid f).mp hf
        · exact hmem
        · have hreported := (hbits f hf).resolve_right fun h => hparent h.2
          rwa [htype] at hreported
      obtain hmem | hmem := List.mem_append.mp hmem
      · exact holdsOwn_common t p f hmem
      · obtain rfl := List.mem_singleton.mp hmem
        exact holdsOwn_numMmio p htype
  | device =>
    rw [htype] at hvalid
    constructor
    · intro h
      refine ⟨fun f hf => .inl (mem_reported_of_holdsOwn (h f ((hvalid f).mpr (.inr hf)))), ?_⟩
      intro _
      exact (holdsOwn_bbsVersion p htype).mp (h 34 ((hvalid 34).mpr (.inl (by decide))))
    · rintro ⟨hbits, hversion⟩ f hf
      have hmem : f ∈ [1, 2, 3, 4, 5, 6, 7, 8, 9, 10] ++ [32, 33, 34] := by
        obtain hmem | hf := (hvalid f).mp hf
        · exact hmem
        · have hreported := (hbits f hf).resolve_right fun h => nomatch htype.symm.trans h.1
          rwa [htype] at hreported
      obtain hmem | hmem := List.mem_append.mp hmem
      · exact holdsOwn_common t p f hmem
      · simp only [List.mem_cons, List.not_mem_nil, or_false] at hmem
        obtain rfl | rfl | rfl := hmem
        · exact holdsOwn_numSlots p htype
        · exact holdsOwn_bbsId p htype
        · exact (holdsOwn_bbsVersion p htype).mpr (hversion htype)

section Sample

def sampleToken : VfioToken :=
  ⟨Vector.replicate 16 0, Vector.replicate 16 0,
    ⟨"0000:3b:00.0", ⟨0, 0x3b, 0, 0⟩, 0x8086, 0xbcce, 0⟩, 0, 1, 0x0123000000000000, 1, .device⟩

/-- Version 1.2.3 is read as 3.2.0 into an empty object. -/
theorem version_of_device_misread :
    (updated sampleToken (opaePropertiesCreate : FpgaProperties Nat)).u.bbsVersion = ⟨3, 2, 0⟩ ∧
    bbsVersionOf sampleToken.bitstreamId = ⟨1, 2, 3⟩ ∧
    ¬ OwnValues sampleToken (updated sampleToken (opaePropertiesCreate : FpgaProperties Nat)) := by
  refine ⟨by decide, by decide, fun h => ?_⟩
  obtain ⟨-, hversion⟩ := h 34 (by decide)
  revert hversion
  decide

end Sample

end OpaeLibs.PluginVfio.UpdatedFields
