import OpaeLibs.PluginVfio.Enumerate

namespace OpaeLibs.PluginVfio.FilterSemantics

open OpaeLibs.Lib.Bits
open OpaeLibs.OpaeC.Props OpaeLibs.PluginVfio.Properties OpaeLibs.PluginVfio.Enumerate

/-- A field that the one object has, the other has too, with the same value. -/
def Same {α : Type} (a b : Except FpgaResult α) : Prop := ∀ v, a = .ok v → b = .ok v

section

variable {τ : Type}

/-- The fields that neither scan looks at. -/
structure Unchecked (f r : FpgaProperties τ) : Prop where
  vendorId : Same (fpgaPropertiesGetVendorID f) (fpgaPropertiesGetVendorID r)
  deviceId : Same (fpgaPropertiesGetDeviceID f) (fpgaPropertiesGetDeviceID r)
  objectId : Same (fpgaPropertiesGetObjectID f) (fpgaPropertiesGetObjectID r)
  numErrors : Same (fpgaPropertiesGetNumErrors f) (fpgaPropertiesGetNumErrors r)
  numSlots : Same (fpgaPropertiesGetNumSlots f) (fpgaPropertiesGetNumSlots r)
  bbsId : Same (fpgaPropertiesGetBBSID f) (fpgaPropertiesGetBBSID r)
  bbsVersion : Same (fpgaPropertiesGetBBSVersion f) (fpgaPropertiesGetBBSVersion r)
  state : Same (fpgaPropertiesGetAcceleratorState f) (fpgaPropertiesGetAcceleratorState r)
  numMmio : Same (fpgaPropertiesGetNumMmio f) (fpgaPropertiesGetNumMmio r)
  numInterrupts : Same (fpgaPropertiesGetNumInterrupts f) (fpgaPropertiesGetNumInterrupts r)

/-- All valid fields of the filter `f` are valid and the same in `r`. -/
structure Satisfies (f r : FpgaProperties τ) : Prop extends Unchecked f r where
  parent : Same (fpgaPropertiesGetParent f) (fpgaPropertiesGetParent r)
  objectType : Same (fpgaPropertiesGetObjectType f) (fpgaPropertiesGetObjectType r)
  segment : Same (fpgaPropertiesGetSegment f) (fpgaPropertiesGetSegment r)
  bus : Same (fpgaPropertiesGetBus f) (fpgaPropertiesGetBus r)
  device : Same (fpgaPropertiesGetDevice f) (fpgaPropertiesGetDevice r)
  function : Same (fpgaPropertiesGetFunction f) (fpgaPropertiesGetFunction r)
  socketId : Same (fpgaPropertiesGetSocketID f) (fpgaPropertiesGetSocketID r)
  guid : Same (fpgaPropertiesGetGUID f) (fpgaPropertiesGetGUID r)

theorem same_getField {α : Type} (i : Nat) (read : FpgaProperties τ → α) (f r : FpgaProperties τ) :
    Same (getField i read f) (getField i read r) ↔
      (fieldValid f i → fieldValid r i ∧ read f = read r) := by
  unfold Same getField
  by_cases hf : fieldValid f i
  · by_cases hr : fieldValid r i
    · simp [hf, hr, eq_comm]
    · simp [hf, hr]
  · simp [hf]

end

/-- The properties that the update reports of the token. -/
def reported (t : VfioToken) : FpgaProperties VfioToken :=
  (vfioFpgaUpdateProperties (some t) opaePropertiesCreate).2

/-- All common fields but the parent and the number of errors are valid, and of the others those of
the token's type that the update knows. -/
theorem reported_validFields (t : VfioToken) : (reported t).validFields =
    match t.type with
    | .accelerator => 0x2000007fe#64
    | .device => 0x7000007fe#64 := by
  obtain ⟨_, _, _, _, _, _, _, type⟩ := t
  cases type with
  | device =>
    simp only [reported, vfioFpgaUpdateProperties, updateAddress, updateDevice, assign,
      setFieldValid, opaePropertiesCreate]
    decide
  | accelerator =>
    simp only [reported, vfioFpgaUpdateProperties, updateAddress, updateAccelerator, assign,
      setFieldValid, clearFieldValid, opaePropertiesCreate]
    decide

theorem reported_not_valid (t : VfioToken) {i : Nat}
    (hi : i ∈ [fpgaPropertyParent, fpgaPropertyNumErrors]) : ¬fieldValid (reported t) i := by
  rw [fieldValid, reported_validFields]
  cases t.type <;> revert i <;> decide

theorem reported_valid (t : VfioToken) {i : Nat} (hi : i ∈ [fpgaPropertyObjtype,
    fpgaPropertySegment, fpgaPropertyBus, fpgaPropertyDevice, fpgaPropertyFunction,
    fpgaPropertySocketid, fpgaPropertyVendorid, fpgaPropertyDeviceid, fpgaPropertyGuid,
    fpgaPropertyObjectid]) : fieldValid (reported t) i := by
  rw [fieldValid, reported_validFields]
  cases t.type <;> revert i <;> decide

theorem reported_valid_device {t : VfioToken} (htype : t.type = .device) {i : Nat}
    (hi : i ∈ [fpgaPropertyNumSlots, fpgaPropertyBbsid, fpgaPropertyBbsversion]) :
    fieldValid (reported t) i := by
  rw [fieldValid, reported_validFields, htype]
  revert i
  decide

theorem reported_valid_accelerator {t : VfioToken} (htype : t.type = .accelerator) :
    ¬fieldValid (reported t) fpgaPropertyAcceleratorState ∧
    fieldValid (reported t) fpgaPropertyNumMmio ∧
    ¬fieldValid (reported t) fpgaPropertyNumInterrupts := by
  simp only [fieldValid, reported_validFields, htype]
  decide

theorem reported_objtype (t : VfioToken) : (reported t).objtype = t.type := by
  obtain ⟨_, _, _, _, _, _, _, type⟩ := t
  cases type <;> rfl

theorem reported_address (t : VfioToken) :
    (reported t).segment = t.device.bdf.segment ∧ (reported t).bus = t.device.bdf.bus ∧
    (reported t).device = UInt8.ofBitVec (t.device.bdf.device.setWidth 8) ∧
    (reported t).function = UInt8.ofBitVec (t.device.bdf.function.setWidth 8) ∧
    (reported t).socketId = t.device.numaNode.toUInt8 := by
  obtain ⟨_, _, _, _, _, _, _, type⟩ := t
  cases type <;> exact ⟨rfl, rfl, rfl, rfl, rfl⟩

theorem reported_ids (t : VfioToken) :
    (reported t).vendorId = t.device.vendor.toUInt16 ∧
    (reported t).deviceId = t.device.device.toUInt16 ∧
    (reported t).objectId = t.device.bdf.bdf.toUInt64 <<< 32 ||| t.region.toUInt64 := by
  obtain ⟨_, _, _, _, _, _, _, type⟩ := t
  cases type <;> exact ⟨rfl, rfl, rfl⟩

def guidOf (t : VfioToken) : FpgaGuid :=
  match t.type with
  | .accelerator => t.guid
  | .device => t.compatId

theorem reported_guid (t : VfioToken) : (reported t).guid = guidOf t := by
  obtain ⟨_, _, _, _, _, _, _, type⟩ := t
  cases type <;> rfl

theorem isOfType_reported (t : VfioToken) (type : FpgaObjtype) :
    isOfType (reported t) type ↔ t.type = type := by
  rw [isOfType, reported_objtype, eq_comm]
  exact and_iff_right (reported_valid t (List.mem_cons_self ..))

section

variable {t : VfioToken}

theorem reported_ofDevice (htype : t.type = .device) :
    (reported t).u.numSlots = t.numPorts.toUInt32 ∧ (reported t).u.bbsId = t.bitstreamId ∧
    (reported t).u.bbsVersion =
      ⟨fpgaBbsVerPatch t.bitstreamId, fpgaBbsVerMinor t.bitstreamId, 0⟩ := by
  obtain ⟨_, _, _, _, _, _, _, type⟩ := t
  obtain rfl : type = .device := htype
  exact ⟨rfl, ObjectSpecific.bbsId_setBbsId .zero _, rfl⟩

theorem reported_numMmio (htype : t.type = .accelerator) :
    (reported t).u.numMmio = t.userMmioCount := by
  obtain ⟨_, _, _, _, _, _, _, type⟩ := t
  obtain rfl : type = .accelerator := htype
  rfl

variable {p : FpgaProperties VfioToken} {α : Type} {i : Nat} {read : FpgaProperties VfioToken → α}

theorem same_reported_iff (hi : fieldValid (reported t) i) {v : α} (hv : read (reported t) = v) :
    Same (getField i read p) (getField i read (reported t)) ↔ (fieldValid p i → read p = v) := by
  rw [same_getField, hv]
  exact imp_congr_right fun _ => and_iff_right hi

theorem same_missing_iff (hi : ¬fieldValid (reported t) i) :
    Same (getField i read p) (getField i read (reported t)) ↔ ¬fieldValid p i := by
  rw [same_getField]
  exact ⟨fun h hp => hi (h hp).1, fun h hp => absurd hp h⟩

theorem type_of_isOfType {type : FpgaObjtype}
    (htype : fieldValid p fpgaPropertyObjtype → p.objtype = t.type) (hp : isOfType p type) :
    t.type = type := (htype hp.1).symm.trans hp.2.symm

theorem same_getTypedField {type : FpgaObjtype}
    (htype : fieldValid p fpgaPropertyObjtype → p.objtype = t.type) :
    Same (getTypedField type i read p) (getTypedField type i read (reported t)) ↔
      (isOfType p type → Same (getField i read p) (getField i read (reported t))) := by
  by_cases hp : isOfType p type
  · have hr : isOfType (reported t) type :=
      (isOfType_reported t type).mpr (type_of_isOfType htype hp)
    rw [getTypedField, getTypedField, if_pos hp, if_pos hr]
    exact (imp_iff_right hp).symm
  · rw [getTypedField, if_neg hp]
    exact iff_of_true (fun _ hv => by cases hv) fun h => absurd h hp

end

section

variable (p : FpgaProperties VfioToken)

/-- The address that is set is that of the device. -/
structure Addressed (dev : PciDevice) : Prop where
  segment : fieldValid p fpgaPropertySegment → p.segment = dev.bdf.segment
  bus : fieldValid p fpgaPropertyBus → p.bus = dev.bdf.bus
  device : fieldValid p fpgaPropertyDevice → p.device = UInt8.ofBitVec (dev.bdf.device.setWidth 8)
  function : fieldValid p fpgaPropertyFunction →
    p.function = UInt8.ofBitVec (dev.bdf.function.setWidth 8)

structure OfDevice (t : VfioToken) : Prop where
  numSlots : fieldValid p fpgaPropertyNumSlots → p.u.numSlots = t.numPorts.toUInt32
  bbsId : fieldValid p fpgaPropertyBbsid → p.u.bbsId = t.bitstreamId
  bbsVersion : fieldValid p fpgaPropertyBbsversion →
    p.u.bbsVersion = ⟨fpgaBbsVerPatch t.bitstreamId, fpgaBbsVerMinor t.bitstreamId, 0⟩

structure OfAccelerator (t : VfioToken) : Prop where
  numMmio : fieldValid p fpgaPropertyNumMmio → p.u.numMmio = t.userMmioCount
  noState : ¬fieldValid p fpgaPropertyAcceleratorState
  noInterrupts : ¬fieldValid p fpgaPropertyNumInterrupts

/-- Every field that is set is one that the update knows, and has the token's value. -/
structure Exact (t : VfioToken) : Prop extends Addressed p t.device where
  noParent : ¬fieldValid p fpgaPropertyParent
  noErrors : ¬fieldValid p fpgaPropertyNumErrors
  objtype : fieldValid p fpgaPropertyObjtype → p.objtype = t.type
  socketId : fieldValid p fpgaPropertySocketid → p.socketId = t.device.numaNode.toUInt8
  vendorId : fieldValid p fpgaPropertyVendorid → p.vendorId = t.device.vendor.toUInt16
  deviceId : fieldValid p fpgaPropertyDeviceid → p.deviceId = t.device.device.toUInt16
  objectId : fieldValid p fpgaPropertyObjectid →
    p.objectId = t.device.bdf.bdf.toUInt64 <<< 32 ||| t.region.toUInt64
  guid : fieldValid p fpgaPropertyGuid → p.guid = guidOf t
  ofDevice : isOfType p .device → OfDevice p t
  ofAccelerator : isOfType p .accelerator → OfAccelerator p t

/-- The address and the node that are set are those of the device, the node with all its 32 bits. -/
structure Placed (dev : PciDevice) : Prop extends Addressed p dev where
  node : fieldValid p fpgaPropertySocketid → p.socketId.toUInt32 = dev.numaNode

/-- The type, the GUID and the parent that are set are those of the token. Only an accelerator has a
parent. -/
structure Kind (t : KnownToken) : Prop where
  objtype : fieldValid p fpgaPropertyObjtype → p.objtype = t.type
  guid : fieldValid p fpgaPropertyGuid → p.guid = t.guid
  parent : fieldValid p fpgaPropertyParent → t.type = .accelerator ∧
    ∃ tParent ∈ t.parent, ∃ fParent ∈ p.parent,
      tParent.device.bdf.bdf = fParent.device.bdf.bdf ∧ tParent.region = fParent.region

end

section

variable {p : FpgaProperties VfioToken} {t : VfioToken}

theorem ofDevice_iff (htype : t.type = .device) :
    Same (getField fpgaPropertyNumSlots (fun p => p.u.numSlots) p)
        (getField fpgaPropertyNumSlots (fun p => p.u.numSlots) (reported t)) ∧
      Same (getField fpgaPropertyBbsid (fun p => p.u.bbsId) p)
        (getField fpgaPropertyBbsid (fun p => p.u.bbsId) (reported t)) ∧
      Same (getField fpgaPropertyBbsversion (fun p => p.u.bbsVersion) p)
        (getField fpgaPropertyBbsversion (fun p => p.u.bbsVersion) (reported t)) ↔
      OfDevice p t := by
  obtain ⟨hslots, hid, hversion⟩ := reported_ofDevice htype
  have hvalid := fun {i : Nat} => reported_valid_device htype (i := i)
  rw [same_reported_iff (hvalid (by simp)) hslots, same_reported_iff (hvalid (by simp)) hid,
    same_reported_iff (hvalid (by simp)) hversion]
  exact ⟨fun ⟨hs, hi, hv⟩ => ⟨hs, hi, hv⟩, fun ⟨hs, hi, hv⟩ => ⟨hs, hi, hv⟩⟩

theorem ofAccelerator_iff (htype : t.type = .accelerator) :
    Same (getField fpgaPropertyAcceleratorState (fun p => p.u.state) p)
        (getField fpgaPropertyAcceleratorState (fun p => p.u.state) (reported t)) ∧
      Same (getField fpgaPropertyNumMmio (fun p => p.u.numMmio) p)
        (getField fpgaPropertyNumMmio (fun p => p.u.numMmio) (reported t)) ∧
      Same (getField fpgaPropertyNumInterrupts (fun p => p.u.numInterrupts) p)
        (getField fpgaPropertyNumInterrupts (fun p => p.u.numInterrupts) (reported t)) ↔
      OfAccelerator p t := by
  obtain ⟨hstate, hmmio, hinterrupts⟩ := reported_valid_accelerator htype
  rw [same_missing_iff hstate, same_reported_iff hmmio (reported_numMmio htype),
    same_missing_iff hinterrupts]
  exact ⟨fun ⟨hs, hm, hi⟩ => ⟨hm, hs, hi⟩, fun ⟨hm, hs, hi⟩ => ⟨hs, hm, hi⟩⟩

theorem satisfies_iff : Satisfies p (reported t) ↔ Exact p t := by
  have hvalid := fun {i : Nat} => reported_valid t (i := i)
  obtain ⟨hseg, hbus, hdev, hfun, hsocket⟩ := reported_address t
  obtain ⟨hvendor, hdevice, hobject⟩ := reported_ids t
  constructor
  · intro h
    have htype := (same_reported_iff (hvalid (by simp)) (reported_objtype t)).mp h.objectType
    refine ⟨⟨?_, ?_, ?_, ?_⟩, ?_, ?_, htype, ?_, ?_, ?_, ?_, ?_, fun hp => ?_, fun hp => ?_⟩
    · exact (same_reported_iff (hvalid (by simp)) hseg).mp h.segment
    · exact (same_reported_iff (hvalid (by simp)) hbus).mp h.bus
    · exact (same_reported_iff (hvalid (by simp)) hdev).mp h.device
    · exact (same_reported_iff (hvalid (by simp)) hfun).mp h.function
    · exact (same_missing_iff (reported_not_valid t (by simp))).mp h.parent
    · exact (same_missing_iff (reported_not_valid t (by simp))).mp h.numErrors
    · exact (same_reported_iff (hvalid (by simp)) hsocket).mp h.socketId
    · exact (same_reported_iff (hvalid (by simp)) hvendor).mp h.vendorId
    · exact (same_reported_iff (hvalid (by simp)) hdevice).mp h.deviceId
    · exact (same_reported_iff (hvalid (by simp)) hobject).mp h.objectId
    · exact (same_reported_iff (hvalid (by simp)) (reported_guid t)).mp h.guid
    · exact (ofDevice_iff (type_of_isOfType htype hp)).mp
        ⟨(same_getTypedField htype).mp h.numSlots hp, (same_getTypedField htype).mp h.bbsId hp,
          (same_getTypedField htype).mp h.bbsVersion hp⟩
    · exact (ofAccelerator_iff (type_of_isOfType htype hp)).mp
        ⟨(same_getTypedField htype).mp h.state hp, (same_getTypedField htype).mp h.numMmio hp,
          (same_getTypedField htype).mp h.numInterrupts hp⟩
  · intro h
    have hdev' := fun hp => (ofDevice_iff (type_of_isOfType h.objtype hp)).mpr (h.ofDevice hp)
    have hacc := fun hp =>
      (ofAccelerator_iff (type_of_isOfType h.objtype hp)).mpr (h.ofAccelerator hp)
    refine ⟨⟨?_, ?_, ?_, ?_, ?_, ?_, ?_, ?_, ?_, ?_⟩, ?_, ?_, ?_, ?_, ?_, ?_, ?_, ?_⟩
    · exact (same_reported_iff (hvalid (by simp)) hvendor).mpr h.vendorId
    · exact (same_reported_iff (hvalid (by simp)) hdevice).mpr h.deviceId
    · exact (same_reported_iff (hvalid (by simp)) hobject).mpr h.objectId
    · exact (same_missing_iff (reported_not_valid t (by simp))).mpr h.noErrors
    · exact (same_getTypedField h.objtype).mpr fun hp => (hdev' hp).1
    · exact (same_getTypedField h.objtype).mpr fun hp => (hdev' hp).2.1
    · exact (same_getTypedField h.objtype).mpr fun hp => (hdev' hp).2.2
    · exact (same_getTypedField h.objtype).mpr fun hp => (hacc hp).1
    · exact (same_getTypedField h.objtype).mpr fun hp => (hacc hp).2.1
    · exact (same_getTypedField h.objtype).mpr fun hp => (hacc hp).2.2
    · exact (same_missing_iff (reported_not_valid t (by simp))).mpr h.noParent
    · exact (same_reported_iff (hvalid (by simp)) (reported_objtype t)).mpr h.objtype
    · exact (same_reported_iff (hvalid (by simp)) hseg).mpr h.segment
    · exact (same_reported_iff (hvalid (by simp)) hbus).mpr h.bus
    · exact (same_reported_iff (hvalid (by simp)) hdev).mpr h.device
    · exact (same_reported_iff (hvalid (by simp)) hfun).mpr h.function
    · exact (same_reported_iff (hvalid (by simp)) hsocket).mpr h.socketId
    · exact (same_reported_iff (hvalid (by simp)) (reported_guid t)).mpr h.guid

end

theorem pciMatchesFilter_iff (f : Filter) (dev : PciDevice) :
    pciMatchesFilter f dev = true ↔ Placed f.props dev := by
  have hiff : pciMatchesFilter f dev = true ↔
      (fieldValid f.props fpgaPropertySegment → f.props.segment = dev.bdf.segment) ∧
      (fieldValid f.props fpgaPropertyBus → f.props.bus = dev.bdf.bus) ∧
      (fieldValid f.props fpgaPropertyDevice →
        f.props.device = UInt8.ofBitVec (dev.bdf.device.setWidth 8)) ∧
      (fieldValid f.props fpgaPropertyFunction →
        f.props.function = UInt8.ofBitVec (dev.bdf.function.setWidth 8)) ∧
      (fieldValid f.props fpgaPropertySocketid → f.props.socketId.toUInt32 = dev.numaNode) := by
    unfold pciMatchesFilter
    dsimp only
    split_ifs <;> simp_all
  rw [hiff]
  exact ⟨fun ⟨hs, hb, hd, hf, hn⟩ => ⟨⟨hs, hb, hd, hf⟩, hn⟩,
    fun ⟨⟨hs, hb, hd, hf⟩, hn⟩ => ⟨hs, hb, hd, hf, hn⟩⟩

theorem parentMatches_iff (p : FpgaProperties VfioToken) (t : KnownToken) :
    parentMatches p t = true ↔ t.type = .accelerator ∧
      ∃ tParent ∈ t.parent, ∃ fParent ∈ p.parent,
        tParent.device.bdf.bdf = fParent.device.bdf.bdf ∧ tParent.region = fParent.region := by
  unfold parentMatches
  split
  · next tParent fParent htype ht hf => simp [htype, ht, hf]
  · next hno =>
    refine iff_of_false Bool.false_ne_true fun ⟨htype, tParent, ht, fParent, hf, _⟩ => ?_
    exact hno tParent fParent htype ht hf

theorem matchesFilter_iff (f : Filter) (t : KnownToken) :
    matchesFilter f t = true ↔ Kind f.props t := by
  have hiff : matchesFilter f t = true ↔
      (fieldValid f.props fpgaPropertyParent → parentMatches f.props t = true) ∧
      (fieldValid f.props fpgaPropertyObjtype → f.props.objtype = t.type) ∧
      (fieldValid f.props fpgaPropertyGuid → f.props.guid = t.guid) := by
    unfold matchesFilter
    dsimp only
    split_ifs <;> simp_all
  rw [hiff, parentMatches_iff]
  exact ⟨fun ⟨hp, ht, hg⟩ => ⟨ht, hg, hp⟩, fun ⟨ht, hg, hp⟩ => ⟨hp, ht, hg⟩⟩

/-- The list is empty, or one of its filters has only fields that the update reports. -/
def Matches (filters : Option (List Filter)) (t : KnownToken) : Prop :=
  ∀ fs ∈ filters, fs = [] ∨ ∃ f ∈ fs, Satisfies f.props (reported t.toVfioToken)

section

variable {p : FpgaProperties VfioToken} {t : KnownToken}

theorem toUInt32_of_eq_toUInt8 {a : UInt8} {n : UInt32} (hn : n.toNat < 2 ^ 8)
    (h : a = n.toUInt8) : a.toUInt32 = n := by
  apply UInt32.toNat_inj.mp
  rw [UInt8.toNat_toUInt32, h, UInt32.toNat_toUInt8]
  exact Nat.mod_eq_of_lt hn

theorem toUInt32_ne_of_le {a : UInt8} {n : UInt32} (hn : 2 ^ 8 ≤ n.toNat) : a.toUInt32 ≠ n := by
  rintro rfl
  have ha := a.toNat_lt
  rw [UInt8.toNat_toUInt32] at hn
  omega

theorem placed_iff_of_le {dev : PciDevice} (hn : 2 ^ 8 ≤ dev.numaNode.toNat) :
    Placed p dev ↔ Addressed p dev ∧ ¬fieldValid p fpgaPropertySocketid :=
  ⟨fun h => ⟨h.toAddressed, fun hv => toUInt32_ne_of_le hn (h.node hv)⟩,
    fun ⟨ha, hno⟩ => ⟨ha, fun hv => absurd hv hno⟩⟩

theorem kind_iff_of_device (htype : t.type = .device) :
    Kind p t ↔ ¬fieldValid p fpgaPropertyParent ∧
      (fieldValid p fpgaPropertyObjtype → p.objtype = .device) ∧
      (fieldValid p fpgaPropertyGuid → p.guid = t.guid) := by
  constructor
  · intro h
    refine ⟨fun hv => ?_, htype ▸ h.objtype, h.guid⟩
    exact absurd (htype.symm.trans (h.parent hv).1) (by decide)
  · rintro ⟨hparent, hobjtype, hguid⟩
    exact ⟨htype ▸ hobjtype, hguid, fun hv => absurd hv hparent⟩

theorem Exact.placed (h : Exact p t.toVfioToken)
    (hn : fieldValid p fpgaPropertySocketid → t.device.numaNode.toNat < 2 ^ 8) :
    Placed p t.device :=
  ⟨h.toAddressed, fun hv => toUInt32_of_eq_toUInt8 (hn hv) (h.socketId hv)⟩

theorem Exact.kind (h : Exact p t.toVfioToken)
    (hg : fieldValid p fpgaPropertyGuid → guidOf t.toVfioToken = t.guid) : Kind p t :=
  ⟨h.objtype, fun hv => (h.guid hv).trans (hg hv), fun hv => absurd hv h.noParent⟩

end

/-- Where one filter has the token's place and one its kind, one has everything; and beside a filter
that has everything but names what the scans see otherwise, a node of more than eight bits or the
GUID that the update takes from `compat_id`, there is one that names the place without it, or the
kind. -/
structure Agree (fs : List Filter) (t : KnownToken) : Prop where
  filters : fs ≠ []
  together : ∀ f ∈ fs, Placed f.props t.device → ∀ g ∈ fs, Kind g.props t →
    ∃ h ∈ fs, Exact h.props t.toVfioToken
  node : 2 ^ 8 ≤ t.device.numaNode.toNat → ∀ h ∈ fs, Exact h.props t.toVfioToken →
    fieldValid h.props fpgaPropertySocketid →
    ∃ f ∈ fs, Addressed f.props t.device ∧ ¬fieldValid f.props fpgaPropertySocketid
  guid : t.type = .device → t.guid ≠ t.compatId → ∀ h ∈ fs, Exact h.props t.toVfioToken →
    fieldValid h.props fpgaPropertyGuid →
    ∃ g ∈ fs, ¬fieldValid g.props fpgaPropertyParent ∧
      (fieldValid g.props fpgaPropertyObjtype → g.props.objtype = .device) ∧
      (fieldValid g.props fpgaPropertyGuid → g.props.guid = t.guid)

def Coherent (filters : Option (List Filter)) (t : KnownToken) : Prop := ∀ fs ∈ filters, Agree fs t

theorem scans_iff (filters : Option (List Filter)) (t : KnownToken) :
    pciMatchesFilters filters t.device = true ∧ matchesFilters filters t = true ↔
      ∀ fs ∈ filters, (∃ f ∈ fs, Placed f.props t.device) ∧ ∃ f ∈ fs, Kind f.props t := by
  cases filters with
  | none => simp [pciMatchesFilters, matchesFilters]
  | some fs =>
    simp [pciMatchesFilters, matchesFilters, pciMatchesFilter_iff, matchesFilter_iff]

theorem Agree.scans {fs : List Filter} {t : KnownToken} (ha : Agree fs t) {h : Filter}
    (hh : h ∈ fs) (he : Exact h.props t.toVfioToken) :
    (∃ f ∈ fs, Placed f.props t.device) ∧ ∃ g ∈ fs, Kind g.props t := by
  constructor
  · by_cases hn : t.device.numaNode.toNat < 2 ^ 8
    · exact ⟨h, hh, he.placed fun _ => hn⟩
    · have hn := Nat.not_lt.mp hn
      by_cases hv : fieldValid h.props fpgaPropertySocketid
      · obtain ⟨f, hf, hplaced⟩ := ha.node hn h hh he hv
        exact ⟨f, hf, (placed_iff_of_le hn).mpr hplaced⟩
      · exact ⟨h, hh, he.placed fun hv' => absurd hv' hv⟩
  · by_cases hg : guidOf t.toVfioToken = t.guid
    · exact ⟨h, hh, he.kind fun _ => hg⟩
    · have htype : t.type = .device := by
        cases htype : t.type with
        | device => rfl
        | accelerator => exact absurd (by rw [guidOf, htype]) hg
      have hne : t.guid ≠ t.compatId := fun heq => hg (by rw [guidOf, htype]; exact heq.symm)
      by_cases hv : fieldValid h.props fpgaPropertyGuid
      · obtain ⟨g, hgs, hkind⟩ := ha.guid htype hne h hh he hv
        exact ⟨g, hgs, (kind_iff_of_device htype).mpr hkind⟩
      · exact ⟨h, hh, he.kind fun hv' => absurd hv' hv⟩

theorem matches_iff (filters : Option (List Filter)) (t : KnownToken) :
    (pciMatchesFilters filters t.device = true ∧ matchesFilters filters t = true ↔
      Matches filters t) ↔ Coherent filters t := by
  rw [scans_iff]
  cases filters with
  | none => simp [Matches, Coherent]
  | some fs =>
    simp only [Matches, Coherent, Option.mem_def, Option.some.injEq, forall_eq', satisfies_iff]
    constructor
    · intro hiff
      have hback := fun h => hiff.mpr (.inr h)
      refine ⟨?_, fun f hf hp g hg hk => ?_, fun hn h hh he _ => ?_, fun htype _ h hh he _ => ?_⟩
      · rintro rfl
        obtain ⟨⟨f, hf, -⟩, -⟩ := hiff.mpr (.inl rfl)
        cases hf
      · obtain rfl | hex := hiff.mp ⟨⟨f, hf, hp⟩, g, hg, hk⟩
        · cases hf
        · exact hex
      · obtain ⟨⟨f, hf, hp⟩, -⟩ := hback ⟨h, hh, he⟩
        exact ⟨f, hf, (placed_iff_of_le hn).mp hp⟩
      · obtain ⟨-, g, hg, hk⟩ := hback ⟨h, hh, he⟩
        exact ⟨g, hg, (kind_iff_of_device htype).mp hk⟩
    · intro ha
      refine ⟨fun ⟨⟨f, hf, hp⟩, g, hg, hk⟩ => .inr (ha.together f hf hp g hg hk), ?_⟩
      rintro (hnil | ⟨h, hh, he⟩)
      · exact absurd hnil ha.filters
      · exact ha.scans hh he

/-- The array is filled with the tokens that pass both scans, and these are the tokens that match
exactly where the filters are coherent. -/
theorem vfioFpgaEnumerate_reports_iff (clone : Nat → KnownToken → Option KnownToken)
    (filters : Option (List Filter)) (maxTokens : UInt32) (devices : List KnownDevice) :
    vfioFpgaEnumerate clone filters maxTokens devices =
      (((reports filters devices).take maxTokens.toNat).mapIdx clone,
        UInt32.ofNat (reports filters devices).length) ∧
    ((∀ dev ∈ devices, ∀ t ∈ dev.tokens, (t ∈ reports filters devices ↔ Matches filters t)) ↔
      ∀ dev ∈ devices, ∀ t ∈ dev.tokens, Coherent filters t) := by
  refine ⟨vfioFpgaEnumerate_eq clone filters maxTokens devices, ?_⟩
  refine forall₂_congr fun dev hdev => forall₂_congr fun t ht => ?_
  rw [mem_reports hdev ht]
  exact matches_iff filters t

def sampleDevice : PciDevice := ⟨"0000:02:00.0", ⟨0, 2, 0, 0⟩, 0x8086, 0x09c4, 0⟩

def sampleToken : KnownToken :=
  ⟨⟨Vector.replicate 16 7, Vector.replicate 16 0, sampleDevice, 0, 1, 0, 0, .accelerator⟩, none⟩

def sampleKnown : KnownDevice := ⟨sampleDevice, [sampleToken], by decide⟩

def typeOnBus (type : FpgaObjtype) (bus : UInt8) : FpgaProperties VfioToken :=
  (fpgaPropertiesSetBus (fpgaPropertiesSetObjectType opaePropertiesCreate type).2 bus).2

def sampleFilters : List Filter :=
  [⟨typeOnBus .accelerator 1, by decide⟩, ⟨typeOnBus .device 2, by decide⟩]

/-- The bus is that of one filter and the type that of the other. -/
theorem mixed_filters_report :
    vfioFpgaEnumerate (fun _ t => some t) (some sampleFilters) 1 [sampleKnown] =
      ([some sampleToken], 1) ∧ ¬Matches (some sampleFilters) sampleToken := by
  refine ⟨by decide, fun h => ?_⟩
  obtain hnil | ⟨f, hf, hs⟩ := h _ rfl
  · cases hnil
  · obtain rfl | hf := List.mem_cons.mp hf
    · exact absurd ((same_getField _ _ _ _).mp hs.bus (by decide)).2 (by decide)
    · obtain rfl := List.mem_singleton.mp hf
      exact absurd ((same_getField _ _ _ _).mp hs.objectType (by decide)).2 (by decide)

end OpaeLibs.PluginVfio.FilterSemantics
