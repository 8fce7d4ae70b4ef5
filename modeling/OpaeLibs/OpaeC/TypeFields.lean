import OpaeLibs.Lib.Outcomes
import OpaeLibs.Lib.Runs
import OpaeLibs.PluginVfio.Properties
import OpaeLibs.PluginXfpga.Properties

namespace OpaeLibs.OpaeC.TypeFields

open OpaeLibs.Lib.Bits OpaeLibs.Lib.Outcomes OpaeLibs.Lib.Runs
open OpaeLibs.OpaeC.Props
open OpaeLibs.PluginXfpga.Properties (TokenView AfuView FmeView OpaePortInfo)
open OpaeLibs.PluginVfio.Properties (VfioToken)

variable {τ : Type}

/-- An adapter's `fpgaUpdateProperties` with the token it is given. -/
inductive PluginUpdate
  | xfpga (t : TokenView)
  | vfio (t : Option VfioToken)

def PluginUpdate.apply : PluginUpdate → FpgaProperties τ → FpgaResult × FpgaProperties τ
  | .xfpga t => PluginXfpga.Properties.xfpgaFpgaUpdateProperties t
  | .vfio t => PluginVfio.Properties.vfioFpgaUpdateProperties t

inductive Call (τ : Type)
  | setParent (parent : τ)
  | setObjectType (t : FpgaObjtype)
  | setSegment (segment : UInt16)
  | setBus (bus : UInt8)
  | setDevice (device : UInt8)
  | setFunction (function : UInt8)
  | setSocketID (socketId : UInt8)
  | setDeviceID (deviceId : UInt16)
  | setNumSlots (numSlots : UInt32)
  | setBBSID (bbsId : UInt64)
  | setBBSVersion (bbsVersion : FpgaVersion)
  | setVendorID (vendorId : UInt16)
  | setGUID (guid : FpgaGuid)
  | setNumMmio (mmioSpaces : UInt32)
  | setNumInterrupts (numInterrupts : UInt32)
  | setAcceleratorState (state : UInt32)
  | setObjectID (objectId : UInt64)
  | setNumErrors (numErrors : UInt32)
  | clear (wrapped : Bool)
  | update (adapter : Option PluginUpdate) (parent : Option τ)

def Call.apply (p : FpgaProperties τ) : Call τ → FpgaResult × FpgaProperties τ
  | .setParent parent => (.ok, storeParent p parent)
  | .setObjectType t => fpgaPropertiesSetObjectType p t
  | .setSegment segment => fpgaPropertiesSetSegment p segment
  | .setBus bus => fpgaPropertiesSetBus p bus
  | .setDevice device => fpgaPropertiesSetDevice p device
  | .setFunction function => fpgaPropertiesSetFunction p function
  | .setSocketID socketId => fpgaPropertiesSetSocketID p socketId
  | .setDeviceID deviceId => fpgaPropertiesSetDeviceID p deviceId
  | .setNumSlots numSlots => fpgaPropertiesSetNumSlots p numSlots
  | .setBBSID bbsId => fpgaPropertiesSetBBSID p bbsId
  | .setBBSVersion bbsVersion => fpgaPropertiesSetBBSVersion p bbsVersion
  | .setVendorID vendorId => fpgaPropertiesSetVendorID p vendorId
  | .setGUID guid => fpgaPropertiesSetGUID p guid
  | .setNumMmio mmioSpaces => fpgaPropertiesSetNumMmio p mmioSpaces
  | .setNumInterrupts numInterrupts => fpgaPropertiesSetNumInterrupts p numInterrupts
  | .setAcceleratorState state => fpgaPropertiesSetAcceleratorState p state
  | .setObjectID objectId => fpgaPropertiesSetObjectID p objectId
  | .setNumErrors numErrors => fpgaPropertiesSetNumErrors p numErrors
  | .clear wrapped => (.ok, clearProperties wrapped p)
  | .update adapter parent => updateProperties (adapter.map PluginUpdate.apply) parent p

def objectType (p : FpgaProperties τ) : Option FpgaObjtype :=
  if fieldValid p fpgaPropertyObjtype then some p.objtype else none

/-- The values last assigned to the object-specific fields since the object took its type, each
member of the version on its own. -/
structure Assigned where
  numSlots : Option UInt32
  bbsId : Option UInt64
  major : Option UInt8
  minor : Option UInt8
  patch : Option UInt16
  state : Option UInt32
  numMmio : Option UInt32
  numInterrupts : Option UInt32
deriving DecidableEq, Repr

def Assigned.nothing : Assigned := ⟨none, none, none, none, none, none, none, none⟩

def Assigned.afu (a : Assigned) (v : AfuView) : Assigned :=
  match v.port with
  | none => { a with state := some PluginXfpga.Properties.fpgaAcceleratorAssigned }
  | some info =>
    let a := { a with state := some PluginXfpga.Properties.fpgaAcceleratorUnassigned }
    match info with
    | none => a
    | some info =>
      let a := { a with numMmio := some info.numRegions }
      if info.uafuIrqs then { a with numInterrupts := some info.numUafuIrqs } else a

def Assigned.fme (a : Assigned) (v : FmeView) : Assigned :=
  match v.numSlots, v.bitstreamId with
  | some slots, some bbs => { a with
      numSlots := some slots.toUInt32
      bbsId := some bbs
      major := some (PluginXfpga.Properties.fpgaBbsVerMajor bbs)
      minor := some (PluginXfpga.Properties.fpgaBbsVerMinor bbs)
      patch := some (PluginXfpga.Properties.fpgaBbsVerPatch bbs) }
  | _, _ => a

def Assigned.update (a : Assigned) : PluginUpdate → Assigned
  | .xfpga t =>
    let a := match t.afu with
      | some v => a.afu v
      | none => a
    match t.fme with
    | some v => a.fme v
    | none => a
  | .vfio none => a
  | .vfio (some t) =>
    match t.type with
    | .accelerator => { a with numMmio := some t.userMmioCount }
    | .device => { a with
        numSlots := some t.numPorts.toUInt32
        bbsId := some t.bitstreamId
        major := some (PluginVfio.Properties.fpgaBbsVerPatch t.bitstreamId)
        minor := some (PluginVfio.Properties.fpgaBbsVerMinor t.bitstreamId) }

/-- What a successful call assigns. -/
def Assigned.call (a : Assigned) : Call τ → Assigned
  | .setNumSlots n => { a with numSlots := some n }
  | .setBBSID n => { a with bbsId := some n }
  | .setBBSVersion v =>
    { a with major := some v.major, minor := some v.minor, patch := some v.patch }
  | .setNumMmio n => { a with numMmio := some n }
  | .setNumInterrupts n => { a with numInterrupts := some n }
  | .setAcceleratorState n => { a with state := some n }
  | .update (some adapter) _ => a.update adapter
  | _ => a

/-- A properties object and the record of what its fields were assigned. -/
structure Session (τ : Type) where
  prop : FpgaProperties τ
  assigned : Assigned
deriving DecidableEq, Repr

def start : Session τ := ⟨opaePropertiesCreate, .nothing⟩

/-- The record is begun anew by a call that leaves the object with another type. -/
def step (s : Session τ) (c : Call τ) : Session τ :=
  let (res, prop) := c.apply s.prop
  let kept := if objectType prop = objectType s.prop then s.assigned else .nothing
  ⟨prop, if res = .ok then kept.call c else kept⟩

/-- Each getter that succeeds returns what its own field was last assigned. -/
structure ReadsAssigned (s : Session τ) : Prop where
  numSlots : ∀ v, fpgaPropertiesGetNumSlots s.prop = .ok v → s.assigned.numSlots = some v
  bbsId : ∀ v, fpgaPropertiesGetBBSID s.prop = .ok v → s.assigned.bbsId = some v
  bbsVersion : ∀ v, fpgaPropertiesGetBBSVersion s.prop = .ok v →
    s.assigned.major = some v.major ∧ s.assigned.minor = some v.minor ∧
      s.assigned.patch = some v.patch
  state : ∀ v, fpgaPropertiesGetAcceleratorState s.prop = .ok v → s.assigned.state = some v
  numMmio : ∀ v, fpgaPropertiesGetNumMmio s.prop = .ok v → s.assigned.numMmio = some v
  numInterrupts : ∀ v, fpgaPropertiesGetNumInterrupts s.prop = .ok v →
    s.assigned.numInterrupts = some v

/-- The type is changed only while no field of the old type is valid. The update of the VFIO plugin
leaves two of an accelerator's bits, and the storage of a device's patch level, as it finds
them. -/
def TypeKept (s : Session τ) : Call τ → Prop
  | .setObjectType t => objectType s.prop = some t ∨
      ¬fieldValid s.prop 32 ∧ ¬fieldValid s.prop 33 ∧ ¬fieldValid s.prop 34
  | .update (some (.vfio (some t))) _ =>
    match t.type with
    | .accelerator => objectType s.prop = some .accelerator ∨
        ¬fieldValid s.prop fpgaPropertyAcceleratorState ∧
          ¬fieldValid s.prop fpgaPropertyNumInterrupts
    | .device => objectType s.prop = some .device ∧ fieldValid s.prop fpgaPropertyBbsversion
  | _ => True

theorem isOfType_iff {p : FpgaProperties τ} {t : FpgaObjtype} :
    isOfType p t ↔ objectType p = some t := by
  rw [isOfType, objectType]
  split
  · next h => simp [h, eq_comm]
  · next h => simp [h]

theorem objectType_congr {p q : FpgaProperties τ}
    (hf : fieldValid q fpgaPropertyObjtype ↔ fieldValid p fpgaPropertyObjtype)
    (ht : q.objtype = p.objtype) : objectType q = objectType p := by
  by_cases h : fieldValid p fpgaPropertyObjtype
  · rw [objectType, objectType, if_pos (hf.mpr h), if_pos h, ht]
  · rw [objectType, objectType, if_neg (mt hf.mp h), if_neg h]

structure DeviceReads (p : FpgaProperties τ) (a : Assigned) : Prop where
  numSlots : fieldValid p 32 → a.numSlots = some p.u.numSlots
  bbsId : fieldValid p 33 → a.bbsId = some p.u.bbsId
  major : fieldValid p 34 → a.major = some p.u.bbsVersion.major
  minor : fieldValid p 34 → a.minor = some p.u.bbsVersion.minor
  patch : fieldValid p 34 → a.patch = some p.u.bbsVersion.patch
  -- the converse for the one field that an update can make valid without assigning it
  noPatch : ¬fieldValid p 34 → a.patch = none

structure AcceleratorReads (p : FpgaProperties τ) (a : Assigned) : Prop where
  state : fieldValid p 32 → a.state = some p.u.state
  numMmio : fieldValid p 33 → a.numMmio = some p.u.numMmio
  numInterrupts : fieldValid p 34 → a.numInterrupts = some p.u.numInterrupts

structure Good (s : Session τ) : Prop where
  untyped : objectType s.prop = none →
    ¬fieldValid s.prop 32 ∧ ¬fieldValid s.prop 33 ∧ ¬fieldValid s.prop 34
  device : objectType s.prop = some .device → DeviceReads s.prop s.assigned
  accelerator : objectType s.prop = some .accelerator → AcceleratorReads s.prop s.assigned

theorem Good.reads {s : Session τ} (h : Good s) : ReadsAssigned s := by
  constructor
  case numSlots =>
    intro v hv
    obtain ⟨ht, hf, rfl⟩ := getTypedField_ok.mp hv
    exact (h.device (isOfType_iff.mp ht)).numSlots hf
  case bbsId =>
    intro v hv
    obtain ⟨ht, hf, rfl⟩ := getTypedField_ok.mp hv
    exact (h.device (isOfType_iff.mp ht)).bbsId hf
  case bbsVersion =>
    intro v hv
    obtain ⟨ht, hf, rfl⟩ := getTypedField_ok.mp hv
    have hd := h.device (isOfType_iff.mp ht)
    exact ⟨hd.major hf, hd.minor hf, hd.patch hf⟩
  case state =>
    intro v hv
    obtain ⟨ht, hf, rfl⟩ := getTypedField_ok.mp hv
    exact (h.accelerator (isOfType_iff.mp ht)).state hf
  case numMmio =>
    intro v hv
    obtain ⟨ht, hf, rfl⟩ := getTypedField_ok.mp hv
    exact (h.accelerator (isOfType_iff.mp ht)).numMmio hf
  case numInterrupts =>
    intro v hv
    obtain ⟨ht, hf, rfl⟩ := getTypedField_ok.mp hv
    exact (h.accelerator (isOfType_iff.mp ht)).numInterrupts hf

theorem good_start : Good (start : Session τ) := by
  have hbit : ∀ f, ¬fieldValid (opaePropertiesCreate : FpgaProperties τ) f :=
    fun f => not_hasBit_zero (by decide)
  have ht : objectType (opaePropertiesCreate : FpgaProperties τ) = none := if_neg (hbit _)
  exact ⟨fun _ => ⟨hbit _, hbit _, hbit _⟩, by simp [start, ht], by simp [start, ht]⟩

/-- The object's type, its object-specific bits and their storage are as before. -/
structure Unchanged (p q : FpgaProperties τ) : Prop where
  objectType : objectType q = objectType p
  u : q.u = p.u
  bit32 : fieldValid q 32 ↔ fieldValid p 32
  bit33 : fieldValid q 33 ↔ fieldValid p 33
  bit34 : fieldValid q 34 ↔ fieldValid p 34

theorem Unchanged.trans {p q r : FpgaProperties τ} (h : Unchanged p q) (h' : Unchanged q r) :
    Unchanged p r :=
  ⟨h'.objectType.trans h.objectType, h'.u.trans h.u, h'.bit32.trans h.bit32,
    h'.bit33.trans h.bit33, h'.bit34.trans h.bit34⟩

theorem Unchanged.refl (p : FpgaProperties τ) : Unchanged p p :=
  ⟨rfl, rfl, Iff.rfl, Iff.rfl, Iff.rfl⟩

theorem unchanged_of {p q : FpgaProperties τ} (ht : q.objtype = p.objtype) (hu : q.u = p.u)
    (hf : ∀ f, f = 1 ∨ 31 < f → (fieldValid q f ↔ fieldValid p f)) : Unchanged p q := by
  refine ⟨objectType_congr (hf _ (.inl rfl)) ht, hu, ?_, ?_, ?_⟩ <;> exact hf _ (.inr (by omega))

theorem unchanged_of_set {p q : FpgaProperties τ} {f : Nat} (hf : f ≠ 1 ∧ f < 32)
    (hv : q.validFields = setBit p.validFields f) (ht : q.objtype = p.objtype) (hu : q.u = p.u) :
    Unchanged p q := by
  apply unchanged_of ht hu
  intro g hg
  have hne : f ≠ g := by omega
  simp [fieldValid_of_set (by omega) hv, hne]

theorem unchanged_assign {p : FpgaProperties τ} {f : Nat}
    {write : FpgaProperties τ → FpgaProperties τ} (hf : f ≠ 1 ∧ f < 32)
    (hw : ∀ p, (write p).validFields = p.validFields ∧ (write p).objtype = p.objtype ∧
      (write p).u = p.u) : Unchanged p (assign f write p) := by
  obtain ⟨hv, ht, hu⟩ := hw p
  exact unchanged_of_set hf (congrArg (fun v => setBit v f) hv) ht hu

theorem unchanged_of_clear {p q : FpgaProperties τ} {f : Nat} (hf : f ≠ 1 ∧ f < 32)
    (hv : q.validFields = clearBit p.validFields f) (ht : q.objtype = p.objtype) (hu : q.u = p.u) :
    Unchanged p q := by
  apply unchanged_of ht hu
  intro g hg
  have hne : f ≠ g := by omega
  simp [fieldValid_of_clear hv, hne]

theorem Good.unchanged {s : Session τ} {q : FpgaProperties τ} (h : Good s)
    (hq : Unchanged s.prop q) : Good ⟨q, s.assigned⟩ := by
  obtain ⟨ht, hu, h32, h33, h34⟩ := hq
  refine ⟨fun hn => ?_, fun hd => ?_, fun ha => ?_⟩
  · rw [h32, h33, h34]
    exact h.untyped (ht ▸ hn)
  · obtain ⟨h1, h2, h3, h4, h5, h6⟩ := h.device (ht ▸ hd)
    refine ⟨?_, ?_, ?_, ?_, ?_, ?_⟩ <;> simpa only [h32, h33, h34, hu]
  · obtain ⟨h1, h2, h3⟩ := h.accelerator (ht ▸ ha)
    refine ⟨?_, ?_, ?_⟩ <;> simpa only [h32, h33, h34, hu]

def kept (s : Session τ) (q : FpgaProperties τ) : Assigned :=
  if objectType q = objectType s.prop then s.assigned else .nothing

theorem step_ok {s : Session τ} {c : Call τ} {q : FpgaProperties τ}
    (h : c.apply s.prop = (.ok, q)) : step s c = ⟨q, (kept s q).call c⟩ := by
  rw [step, h]
  rfl

theorem step_error {s : Session τ} {c : Call τ} {q : FpgaProperties τ} {res : FpgaResult}
    (h : c.apply s.prop = (res, q)) (hres : res ≠ .ok) : step s c = ⟨q, kept s q⟩ := by
  rw [step, h]
  simp [hres, kept]

theorem good_step_unchanged {s : Session τ} {c : Call τ} {q : FpgaProperties τ} {res : FpgaResult}
    (h : Good s) (he : c.apply s.prop = (res, q)) (hq : Unchanged s.prop q)
    (hc : res = .ok → s.assigned.call c = s.assigned) : Good (step s c) := by
  have hk : kept s q = s.assigned := if_pos hq.objectType
  by_cases hres : res = .ok
  · subst hres
    rw [step_ok he, hk, hc rfl]
    exact h.unchanged hq
  · rw [step_error he hres, hk]
    exact h.unchanged hq

theorem good_of_clear {q : FpgaProperties τ} {a : Assigned}
    (h : ¬fieldValid q 32 ∧ ¬fieldValid q 33 ∧ ¬fieldValid q 34)
    (ha : objectType q = none ∨ a.patch = none) : Good ⟨q, a⟩ := by
  refine ⟨fun _ => h, fun hd => ?_, fun _ => ?_⟩
  · have hp : a.patch = none := ha.resolve_left (by simp [hd])
    constructor <;> simp [h, hp]
  · constructor <;> simp [h]

theorem objectType_of_set {p q : FpgaProperties τ}
    (hv : q.validFields = setBit p.validFields fpgaPropertyObjtype) :
    objectType q = some q.objtype := if_pos ((fieldValid_of_set (by decide) hv).mpr (.inl rfl))

theorem apply_setObjectType (p : FpgaProperties τ) (t : FpgaObjtype) :
    Call.apply p (.setObjectType t) = (.ok, (fpgaPropertiesSetObjectType p t).2) ∧
      objectType (fpgaPropertiesSetObjectType p t).2 = some t :=
  ⟨rfl, objectType_of_set (p := p) rfl⟩

theorem good_setObjectType {s : Session τ} {t : FpgaObjtype} (h : Good s)
    (hc : TypeKept s (.setObjectType t)) : Good (step s (.setObjectType t)) := by
  obtain ⟨he, hq⟩ := apply_setObjectType s.prop t
  have hbit : ∀ f, 31 < f →
      (fieldValid (fpgaPropertiesSetObjectType s.prop t).2 f ↔ fieldValid s.prop f) := by
    intro f hf
    have hne : fpgaPropertyObjtype ≠ f := Nat.ne_of_lt (Nat.lt_trans (by decide) hf)
    rw [fieldValid_of_set (p := s.prop) (by decide) rfl]
    exact or_iff_right hne
  by_cases ht : objectType s.prop = some t
  · exact good_step_unchanged h he ⟨hq.trans ht.symm, rfl, hbit 32 (by omega), hbit 33 (by omega),
      hbit 34 (by omega)⟩ fun _ => rfl
  · have hk : kept s (fpgaPropertiesSetObjectType s.prop t).2 = .nothing :=
      if_neg (by rw [hq]; exact Ne.symm ht)
    rw [step_ok he, hk]
    refine good_of_clear ?_ (.inr rfl)
    rw [hbit 32 (by omega), hbit 33 (by omega), hbit 34 (by omega)]
    exact hc.resolve_left ht

theorem setTypedField_cases (t : FpgaObjtype) (f : Nat) (write : ObjectSpecific → ObjectSpecific)
    (p : FpgaProperties τ) :
    (objectType p = some t ∧
      setTypedField t f write p = (.ok, { setFieldValid p f with u := write p.u })) ∨
    setTypedField t f write p = (.invalidParam, p) := by
  by_cases h : isOfType p t
  · exact .inl ⟨isOfType_iff.mp h, if_pos h⟩
  · exact .inr (if_neg h)

theorem objectType_eq_of_set {p q : FpgaProperties τ} {f : Nat} (hf : 31 < f ∧ f < 64)
    (hv : q.validFields = setBit p.validFields f) (ht : q.objtype = p.objtype) :
    objectType q = objectType p := by
  have hne : f ≠ fpgaPropertyObjtype := Nat.ne_of_gt (Nat.lt_trans (by decide) hf.1)
  exact objectType_congr ((fieldValid_of_set hf.2 hv).trans (or_iff_right hne)) ht

theorem good_setTypedField {s : Session τ} {c : Call τ} {t : FpgaObjtype} (f : Nat)
    (write : ObjectSpecific → ObjectSpecific) (h : Good s) (hf : 31 < f ∧ f < 64)
    (he : c.apply s.prop = setTypedField t f write s.prop)
    (hr : objectType s.prop = some t →
      objectType { setFieldValid s.prop f with u := write s.prop.u } = some t →
      Good ⟨{ setFieldValid s.prop f with u := write s.prop.u }, s.assigned.call c⟩) :
    Good (step s c) := by
  obtain ⟨ht, hw⟩ | hw := setTypedField_cases t f write s.prop
  · rw [hw] at he
    have hq : objectType { setFieldValid s.prop f with u := write s.prop.u } = _ :=
      objectType_eq_of_set hf rfl rfl
    have hk : kept s { setFieldValid s.prop f with u := write s.prop.u } = s.assigned := if_pos hq
    rw [step_ok he, hk]
    exact hr ht (hq.trans ht)
  · exact good_step_unchanged h (he.trans hw) (.refl _) (by simp)

theorem good_setDeviceField {s : Session τ} {c : Call τ} (f : Nat)
    (write : ObjectSpecific → ObjectSpecific) (h : Good s) (hf : 31 < f ∧ f < 64)
    (he : c.apply s.prop = setTypedField .device f write s.prop)
    (hr : DeviceReads s.prop s.assigned →
      DeviceReads { setFieldValid s.prop f with u := write s.prop.u } (s.assigned.call c)) :
    Good (step s c) := by
  refine good_setTypedField f write h hf he fun ht hq => ⟨fun hn => ?_, fun _ => ?_, fun ha => ?_⟩
  · exact absurd (hq.symm.trans hn) nofun
  · exact hr (h.device ht)
  · exact absurd (hq.symm.trans ha) nofun

theorem good_setAcceleratorField {s : Session τ} {c : Call τ} (f : Nat)
    (write : ObjectSpecific → ObjectSpecific) (h : Good s) (hf : 31 < f ∧ f < 64)
    (he : c.apply s.prop = setTypedField .accelerator f write s.prop)
    (hr : AcceleratorReads s.prop s.assigned →
      AcceleratorReads { setFieldValid s.prop f with u := write s.prop.u } (s.assigned.call c)) :
    Good (step s c) := by
  refine good_setTypedField f write h hf he fun ht hq => ⟨fun hn => ?_, fun hd => ?_, fun _ => ?_⟩
  · exact absurd (hq.symm.trans hn) nofun
  · exact absurd (hq.symm.trans hd) nofun
  · exact hr (h.accelerator ht)

theorem good_setNumSlots {s : Session τ} (n : UInt32) (h : Good s) :
    Good (step s (.setNumSlots n)) := by
  refine good_setDeviceField 32 (fun u => u.setNumSlots n) h (by decide) rfl
    fun ⟨h1, h2, h3, h4, h5, h6⟩ => ?_
  constructor <;> rw [fieldValid_of_set (p := s.prop) (f := 32) (by decide) rfl]
  case numSlots =>
    intro _
    rfl
  all_goals simpa

theorem good_setBBSID {s : Session τ} (n : UInt64) (h : Good s) :
    Good (step s (.setBBSID n)) := by
  refine good_setDeviceField 33 (fun u => u.setBbsId n) h (by decide) rfl
    fun ⟨h1, h2, h3, h4, h5, h6⟩ => ?_
  constructor <;> rw [fieldValid_of_set (p := s.prop) (f := 33) (by decide) rfl]
  case bbsId =>
    intro _
    rw [ObjectSpecific.bbsId_setBbsId]
    rfl
  all_goals simpa

theorem good_setBBSVersion {s : Session τ} (v : FpgaVersion) (h : Good s) :
    Good (step s (.setBBSVersion v)) := by
  refine good_setDeviceField 34 (fun u => u.setBbsVersion v) h (by decide) rfl
    fun ⟨h1, h2, h3, h4, h5, h6⟩ => ?_
  constructor <;> rw [fieldValid_of_set (p := s.prop) (f := 34) (by decide) rfl]
  case major | minor | patch =>
    intro _
    rfl
  case noPatch => simp
  all_goals simpa

theorem good_setAcceleratorState {s : Session τ} (n : UInt32) (h : Good s) :
    Good (step s (.setAcceleratorState n)) := by
  refine good_setAcceleratorField 32 (fun u => u.setState n) h (by decide) rfl
    fun ⟨h1, h2, h3⟩ => ?_
  constructor <;> rw [fieldValid_of_set (p := s.prop) (f := 32) (by decide) rfl]
  case state =>
    intro _
    rfl
  all_goals simpa

theorem good_setNumMmio {s : Session τ} (n : UInt32) (h : Good s) :
    Good (step s (.setNumMmio n)) := by
  refine good_setAcceleratorField 33 (fun u => u.setNumMmio n) h (by decide) rfl
    fun ⟨h1, h2, h3⟩ => ?_
  constructor <;> rw [fieldValid_of_set (p := s.prop) (f := 33) (by decide) rfl]
  case numMmio =>
    intro _
    rfl
  all_goals simpa

theorem good_setNumInterrupts {s : Session τ} (n : UInt32) (h : Good s) :
    Good (step s (.setNumInterrupts n)) := by
  refine good_setAcceleratorField 34 (fun u => u.setNumInterrupts n) h (by decide) rfl
    fun ⟨h1, h2, h3⟩ => ?_
  constructor <;> rw [fieldValid_of_set (p := s.prop) (f := 34) (by decide) rfl]
  case numInterrupts =>
    intro _
    rfl
  all_goals simpa

theorem unchanged_dropParent (p : FpgaProperties τ) : Unchanged p (dropParent p) := by
  rw [dropParent]
  split
  · exact unchanged_of_clear (f := fpgaPropertyParent) (by decide) rfl rfl rfl
  · exact .refl p

theorem unchanged_takeParent (parent : Option τ) (p : FpgaProperties τ) :
    Unchanged p (takeParent parent p) := by
  cases parent with
  | none => exact .refl p
  | some parent => exact unchanged_of_set (f := fpgaPropertyParent) (by decide) rfl rfl rfl

section Vfio

open PluginVfio.Properties

theorem updateAddress_spec (t : VfioToken) (p : FpgaProperties τ) :
    objectType (updateAddress t p) = some t.type ∧ (updateAddress t p).u = p.u ∧
      ∀ f, 31 < f → (fieldValid (updateAddress t p) f ↔ fieldValid p f) := by
  refine ⟨?_, rfl, fun f hf => ?_⟩
  · simp [updateAddress, objectType, fieldValid, assign, setFieldValid, hasBit_setBit]
  · have hne : ∀ g, g < 32 → g ≠ f := fun g hg => by omega
    simp [updateAddress, fieldValid, assign, setFieldValid, hasBit_setBit, hne]

theorem updateAccelerator_spec (t : VfioToken) (p : FpgaProperties τ) :
    objectType (updateAccelerator t p) = objectType p ∧
      (updateAccelerator t p).u = p.u.setNumMmio t.userMmioCount ∧
      ∀ f, 31 < f → (fieldValid (updateAccelerator t p) f ↔
        f = fpgaPropertyNumMmio ∨ fieldValid p f) := by
  refine ⟨?_, rfl, fun f hf => ?_⟩
  · refine objectType_congr ?_ rfl
    simp [updateAccelerator, fieldValid, assign, setFieldValid, clearFieldValid, hasBit_setBit,
      hasBit_clearBit]
  · have hne : ∀ g, g < 32 → g ≠ f := fun g hg => by omega
    simp [updateAccelerator, fieldValid, assign, setFieldValid, clearFieldValid, hasBit_setBit,
      hasBit_clearBit, hne, eq_comm]

theorem updateDevice_spec (t : VfioToken) (p : FpgaProperties τ) :
    objectType (updateDevice t p) = objectType p ∧
      (updateDevice t p).u = (((p.u.setBbsId t.bitstreamId).setBbsVersion
        (updateBbsVersion t.bitstreamId p.u.bbsVersion)).setNumSlots t.numPorts.toUInt32) ∧
      ∀ f, f = 32 ∨ f = 33 ∨ f = 34 → fieldValid (updateDevice t p) f := by
  refine ⟨?_, rfl, fun f hf => ?_⟩
  · refine objectType_congr ?_ rfl
    simp [updateDevice, fieldValid, assign, setFieldValid, hasBit_setBit]
  · obtain rfl | rfl | rfl := hf <;>
      simp [updateDevice, fieldValid, assign, setFieldValid, hasBit_setBit]

theorem vfio_ok (t : VfioToken) (p : FpgaProperties τ) :
    ∃ q, vfioFpgaUpdateProperties (some t) p = (.ok, q) := by
  rw [vfioFpgaUpdateProperties]
  cases t.type with
  | accelerator => exact ⟨_, rfl⟩
  | device => exact ⟨_, rfl⟩

theorem good_vfio {s : Session τ} {t : VfioToken} {parent : Option τ} (h : Good s)
    (hc : TypeKept s (.update (some (.vfio (some t))) parent)) :
    Good ⟨(vfioFpgaUpdateProperties (some t) s.prop).2,
      (kept s (vfioFpgaUpdateProperties (some t) s.prop).2).update (.vfio (some t))⟩ := by
  obtain ⟨hat, hau, hab⟩ := updateAddress_spec t s.prop
  cases ht : t.type with
  | accelerator =>
    obtain ⟨hq, hu, hb⟩ := updateAccelerator_spec t (updateAddress t s.prop)
    simp only [vfioFpgaUpdateProperties, ht]
    rw [hat, ht] at hq
    rw [hau] at hu
    simp only [TypeKept, ht] at hc
    have h32 := (hb 32 (by omega)).trans ((or_iff_right (by decide)).trans (hab 32 (by omega)))
    have h34 := (hb 34 (by omega)).trans ((or_iff_right (by decide)).trans (hab 34 (by omega)))
    refine ⟨by simp [hq], by simp [hq], fun _ => ?_⟩
    simp only [Assigned.update, ht]
    refine ⟨fun hf => ?_, fun _ => ?_, fun hf => ?_⟩
    · obtain hsame | ⟨hn, -⟩ := hc
      · rw [kept, if_pos (hq.trans hsame.symm), hu]
        exact (h.accelerator hsame).state (h32.mp hf)
      · exact absurd (h32.mp hf) hn
    · rw [hu]
      rfl
    · obtain hsame | ⟨-, hn⟩ := hc
      · rw [kept, if_pos (hq.trans hsame.symm), hu]
        exact (h.accelerator hsame).numInterrupts (h34.mp hf)
      · exact absurd (h34.mp hf) hn
  | device =>
    obtain ⟨hq, hu, hb⟩ := updateDevice_spec t (updateAddress t s.prop)
    simp only [vfioFpgaUpdateProperties, ht]
    rw [hat, ht] at hq
    rw [hau] at hu
    simp only [TypeKept, ht] at hc
    have hd := h.device hc.1
    refine ⟨by simp [hq], fun _ => ?_, by simp [hq]⟩
    rw [kept, if_pos (hq.trans hc.1.symm)]
    simp only [Assigned.update, ht]
    refine ⟨fun _ => ?_, fun _ => ?_, fun _ => ?_, fun _ => ?_, fun _ => ?_, fun hn => ?_⟩
    · rw [hu]
      rfl
    · rw [hu]
      exact congrArg some (ObjectSpecific.bbsId_setBbsId s.prop.u _).symm
    · rw [hu]
      rfl
    · rw [hu]
      rfl
    · rw [hu]
      exact hd.patch hc.2
    · exact absurd (hb 34 (by omega)) hn

end Vfio

section Xfpga

open PluginXfpga.Properties

theorem assignU_spec (p : FpgaProperties τ) {f : Nat} (hf : 31 < f ∧ f < 64)
    (write : ObjectSpecific → ObjectSpecific) :
    objectType (assignU f write p) = objectType p ∧ (assignU f write p).u = write p.u ∧
      ∀ g, fieldValid (assignU f write p) g ↔ f = g ∨ fieldValid p g :=
  ⟨objectType_eq_of_set hf rfl rfl, rfl, fun _ => fieldValid_of_set hf.2 rfl⟩

theorem readIds_unchanged {t : TokenView} {p q : FpgaProperties τ} (h : readIds t p = .ok q) :
    Unchanged p q := by
  obtain ⟨vendor, -, h⟩ := except_bind_ok.mp h
  obtain ⟨device, -, h⟩ := except_bind_ok.mp h
  split at h
  · obtain rfl := Except.ok.inj h
    refine Unchanged.trans ?_ (unchanged_assign (by decide) fun _ => ⟨rfl, rfl, rfl⟩)
    exact unchanged_assign (by decide) fun _ => ⟨rfl, rfl, rfl⟩
  · cases h

theorem readAddress_unchanged {t : TokenView} {p q : FpgaProperties τ}
    (h : readAddress t p = .ok q) : Unchanged p q := by
  obtain ⟨⟨s, b, d, f⟩, -, h⟩ := except_bind_ok.mp h
  obtain rfl := Except.ok.inj h
  have hsocket : ∀ p : FpgaProperties τ, Unchanged p (readSocketId t p) := by
    intro p
    rw [readSocketId]
    split
    · exact unchanged_assign (by decide) fun _ => ⟨rfl, rfl, rfl⟩
    · exact .refl p
  have hobject : ∀ p : FpgaProperties τ, Unchanged p (readObjectId t p) := by
    intro p
    rw [readObjectId]
    split
    · exact unchanged_assign (by decide) fun _ => ⟨rfl, rfl, rfl⟩
    · exact .refl p
  refine Unchanged.trans ?_ (unchanged_assign (by decide) fun _ => ⟨rfl, rfl, rfl⟩)
  refine Unchanged.trans ?_ ((hsocket _).trans (hobject _))
  refine Unchanged.trans ?_ (unchanged_assign (by decide) fun _ => ⟨rfl, rfl, rfl⟩)
  refine Unchanged.trans ?_ (unchanged_assign (by decide) fun _ => ⟨rfl, rfl, rfl⟩)
  refine Unchanged.trans ?_ (unchanged_assign (by decide) fun _ => ⟨rfl, rfl, rfl⟩)
  exact unchanged_assign (by decide) fun _ => ⟨rfl, rfl, rfl⟩

theorem storeFme_spec (p : FpgaProperties τ) (id : FpgaGuid) (slots bbs : UInt64) :
    objectType (storeFme p id slots bbs) = some .device ∧
      (storeFme p id slots bbs).u = ((p.u.setNumSlots slots.toUInt32).setBbsId bbs).setBbsVersion
        ⟨fpgaBbsVerMajor bbs, fpgaBbsVerMinor bbs, fpgaBbsVerPatch bbs⟩ ∧
      ∀ f, f = 32 ∨ f = 33 ∨ f = 34 → fieldValid (storeFme p id slots bbs) f := by
  refine ⟨?_, ?_, fun f hf => ?_⟩
  · simp [storeFme, assignU, objectType, fieldValid, assign, setFieldValid, hasBit_setBit]
  · simp [storeFme, assignU, assign, setFieldValid, ObjectSpecific.bbsId_setBbsId]
  · obtain rfl | rfl | rfl := hf <;>
      simp [storeFme, assignU, fieldValid, assign, setFieldValid, hasBit_setBit]

theorem good_readFme {p q : FpgaProperties τ} {v : FmeView} (h : readFme p v = .ok q)
    (a : Assigned) : Good ⟨q, a.fme v⟩ := by
  obtain ⟨id, -, h⟩ := except_bind_ok.mp h
  split at h
  · next slots bbs hs hb =>
    obtain rfl := Except.ok.inj h
    obtain ⟨ht, hu, hf⟩ := storeFme_spec p id slots bbs
    refine ⟨by simp [ht], fun _ => ?_, by simp [ht]⟩
    simp only [Assigned.fme, hs, hb]
    refine ⟨fun _ => ?_, fun _ => ?_, fun _ => ?_, fun _ => ?_, fun _ => ?_, fun hn => ?_⟩
    case refine_2 =>
      rw [hu]
      exact congrArg some (ObjectSpecific.bbsId_setBbsId (p.u.setNumSlots slots.toUInt32) bbs).symm
    case refine_6 => exact absurd (hf 34 (by omega)) hn
    all_goals
      rw [hu]
      rfl
  · cases h

theorem storeAfu_spec (p : FpgaProperties τ) (v : AfuView) :
    objectType (storeAfu p v) = some .accelerator ∧
      ∀ f, 31 < f → (fieldValid (storeAfu p v) f ↔ fieldValid p f) := by
  refine ⟨?_, fun f hf => ?_⟩
  · simp [storeAfu, objectType, fieldValid, assign, setFieldValid, hasBit_setBit]
  · have hne : ∀ g, g < 32 → g ≠ f := fun g hg => by omega
    by_cases hg : v.guid.1 = true <;>
      simp [storeAfu, readAfuGuid, hg, fieldValid, assign, setFieldValid, clearFieldValid,
        hasBit_setBit, hasBit_clearBit, hne]

theorem readPort_spec (p : FpgaProperties τ) (info : Option OpaePortInfo) :
    objectType (readPort p info) = objectType p ∧
      (fieldValid (readPort p info) 33 → fieldValid p 33 ∨
        ∃ i, info = some i ∧ (readPort p info).u.numMmio = i.numRegions) ∧
      (fieldValid (readPort p info) 34 → fieldValid p 34 ∨
        ∃ i, info = some i ∧ i.uafuIrqs = true ∧
          (readPort p info).u.numInterrupts = i.numUafuIrqs) := by
  cases info with
  | none => exact ⟨rfl, .inl, .inl⟩
  | some i =>
    obtain ⟨ht, hu, hb⟩ := assignU_spec p (f := fpgaPropertyNumMmio) (by decide)
      (fun u => u.setNumMmio i.numRegions)
    rw [readPort]
    by_cases hi : i.uafuIrqs = true
    · simp only [hi, if_true]
      obtain ⟨ht', hu', hb'⟩ := assignU_spec (assignU fpgaPropertyNumMmio
        (fun u => u.setNumMmio i.numRegions) p) (f := fpgaPropertyNumInterrupts) (by decide)
        (fun u => u.setNumInterrupts i.numUafuIrqs)
      refine ⟨ht'.trans ht, fun _ => .inr ⟨i, rfl, ?_⟩, fun _ => .inr ⟨i, rfl, hi, ?_⟩⟩
      · rw [hu', hu]
        rfl
      · rw [hu']
        rfl
    · simp only [hi]
      refine ⟨ht, fun _ => .inr ⟨i, rfl, ?_⟩, fun h => .inl (((hb 34).mp h).resolve_left (by simp))⟩
      change (assignU fpgaPropertyNumMmio (fun u => u.setNumMmio i.numRegions) p).u.numMmio = _
      rw [hu]
      rfl

theorem good_readAfu {p : FpgaProperties τ} (v : AfuView)
    (hp : ¬fieldValid p 32 ∧ ¬fieldValid p 33 ∧ ¬fieldValid p 34) (a : Assigned) :
    Good ⟨readAfu p v, a.afu v⟩ := by
  obtain ⟨ht, hb⟩ := storeAfu_spec p v
  obtain ⟨-, h33, h34⟩ := hp
  rw [← hb 33 (by omega)] at h33
  rw [← hb 34 (by omega)] at h34
  rw [readAfu, Assigned.afu]
  cases v.port with
  | none =>
    obtain ⟨ht', hu', hb'⟩ := assignU_spec (storeAfu p v) (f := fpgaPropertyAcceleratorState)
      (by decide) (fun u => u.setState fpgaAcceleratorAssigned)
    rw [ht] at ht'
    refine ⟨by simp [ht'], by simp [ht'], fun _ => ⟨fun _ => ?_, fun hf => ?_, fun hf => ?_⟩⟩
    · simp only [hu']
      rfl
    · exact absurd (((hb' 33).mp hf).resolve_left (by simp)) h33
    · exact absurd (((hb' 34).mp hf).resolve_left (by simp)) h34
  | some info =>
    obtain ⟨htp, hp33, hp34⟩ := readPort_spec (storeAfu p v) info
    obtain ⟨ht', hu', hb'⟩ := assignU_spec (readPort (storeAfu p v) info)
      (f := fpgaPropertyAcceleratorState) (by decide)
      (fun u => u.setState fpgaAcceleratorUnassigned)
    rw [htp, ht] at ht'
    refine ⟨by simp [ht'], by simp [ht'], fun _ => ⟨fun _ => ?_, fun hf => ?_, fun hf => ?_⟩⟩
    · simp only [hu']
      cases info with
      | none => rfl
      | some i => by_cases hi : i.uafuIrqs = true <;> simp [hi] <;> rfl
    · obtain ⟨i, rfl, hm⟩ := (hp33 (((hb' 33).mp hf).resolve_left (by simp))).resolve_left h33
      simp only [hu']
      by_cases hi : i.uafuIrqs = true <;> simp only [hi, if_true] <;> exact congrArg some hm.symm
    · obtain ⟨i, rfl, hi, hm⟩ :=
        (hp34 (((hb' 34).mp hf).resolve_left (by simp))).resolve_left h34
      simp only [hu', hi, if_true]
      exact congrArg some hm.symm

theorem good_xfpga {q : FpgaProperties τ} {t : TokenView} (h : readProperties t = .ok q)
    (a : Assigned) : Good ⟨q, a.update (.xfpga t)⟩ := by
  obtain ⟨p, hids, h⟩ := except_bind_ok.mp h
  obtain ⟨ht, -, h32, h33, h34⟩ := readIds_unchanged hids
  have hbit : ∀ f, ¬fieldValid (opaePropertiesCreate : FpgaProperties τ) f :=
    fun f => not_hasBit_zero (by decide)
  have hclear : ¬fieldValid p 32 ∧ ¬fieldValid p 33 ∧ ¬fieldValid p 34 :=
    ⟨mt h32.mp (hbit 32), mt h33.mp (hbit 33), mt h34.mp (hbit 34)⟩
  have hnone : objectType p = none := ht.trans (if_neg (hbit _))
  obtain ⟨r, hfme, haddr⟩ := except_bind_ok.mp h
  refine Good.unchanged (s := ⟨r, a.update (.xfpga t)⟩) ?_ (readAddress_unchanged haddr)
  rw [readObject] at hfme
  simp only [Assigned.update]
  cases hf : t.fme with
  | some w =>
    rw [hf] at hfme
    exact good_readFme hfme _
  | none =>
    rw [hf] at hfme
    obtain rfl := Except.ok.inj hfme
    cases t.afu with
    | some v => exact good_readAfu v hclear a
    | none => exact good_of_clear hclear (.inl hnone)

end Xfpga

theorem typeKept_unchanged {s : Session τ} {p : FpgaProperties τ} {u : PluginUpdate}
    {parent : Option τ} (hp : Unchanged s.prop p) (hc : TypeKept s (.update (some u) parent)) :
    TypeKept ⟨p, s.assigned⟩ (.update (some u) parent) := by
  cases u with
  | xfpga t => trivial
  | vfio t =>
    cases t with
    | none => trivial
    | some t =>
      simp only [TypeKept, hp.objectType, hp.bit32, hp.bit34] at hc ⊢
      exact hc

theorem step_update_ok {s : Session τ} {u : PluginUpdate} {parent : Option τ}
    {q : FpgaProperties τ} (hu : u.apply (dropParent s.prop) = (.ok, q)) :
    step s (.update (some u) parent) =
      ⟨takeParent parent q, (kept ⟨dropParent s.prop, s.assigned⟩ q).update u⟩ := by
  have he : Call.apply s.prop (.update (some u) parent) = (.ok, takeParent parent q) := by
    simp [Call.apply, updateProperties, hu]
  have hk : kept s (takeParent parent q) = kept ⟨dropParent s.prop, s.assigned⟩ q := by
    rw [kept, kept, (unchanged_takeParent parent q).objectType,
      (unchanged_dropParent s.prop).objectType]
  rw [step_ok he, hk]
  rfl

theorem good_step_update {s : Session τ} {u : PluginUpdate} {parent : Option τ} (h : Good s)
    (hfail : (u.apply (dropParent s.prop)).1 ≠ .ok →
      (u.apply (dropParent s.prop)).2 = dropParent s.prop)
    (hok : (u.apply (dropParent s.prop)).1 = .ok →
      Good ⟨(u.apply (dropParent s.prop)).2,
        (kept ⟨dropParent s.prop, s.assigned⟩ (u.apply (dropParent s.prop)).2).update u⟩) :
    Good (step s (.update (some u) parent)) := by
  have hd := unchanged_dropParent s.prop
  cases hu : u.apply (dropParent s.prop) with
  | mk res q =>
    rw [hu] at hfail hok
    by_cases hres : res = .ok
    · subst hres
      rw [step_update_ok hu]
      exact (hok rfl).unchanged (unchanged_takeParent parent q)
    · have he : Call.apply s.prop (.update (some u) parent) = (res, q) := by
        cases res <;> simp_all [Call.apply, updateProperties]
      have hq : q = dropParent s.prop := hfail hres
      exact good_step_unchanged h he (hq.symm ▸ hd) fun h0 => absurd h0 hres

theorem good_update {s : Session τ} {u : PluginUpdate} {parent : Option τ} (h : Good s)
    (hc : TypeKept s (.update (some u) parent)) : Good (step s (.update (some u) parent)) := by
  have hd := unchanged_dropParent s.prop
  have hs := h.unchanged hd
  have hk := typeKept_unchanged hd hc
  cases u with
  | xfpga t =>
    have hcases : ∀ p : FpgaProperties τ,
        ((PluginUpdate.xfpga t).apply p).1 ≠ .ok ∧ ((PluginUpdate.xfpga t).apply p).2 = p ∨
          ∃ q, PluginXfpga.Properties.readProperties t = .ok q ∧
            (PluginUpdate.xfpga t).apply p = (.ok, q) := by
      intro p
      simp only [PluginUpdate.apply, PluginXfpga.Properties.xfpgaFpgaUpdateProperties]
      split
      · exact .inl ⟨by simp, rfl⟩
      · split
        · next res hr => exact .inl ⟨res.2, rfl⟩
        · next q hr =>
          split
          · exact .inr ⟨q, hr, rfl⟩
          · exact .inl ⟨by simp, rfl⟩
    obtain ⟨hne, hq⟩ | ⟨q, hq, he⟩ := hcases (dropParent s.prop)
    · exact good_step_update h (fun _ => hq) fun hok => absurd hok hne
    · refine good_step_update h (by simp [he]) fun _ => ?_
      rw [he]
      exact good_xfpga hq _
  | vfio t =>
    cases t with
    | none => exact good_step_update h (fun _ => rfl) fun hok => by cases hok
    | some t =>
      obtain ⟨q, he⟩ := vfio_ok t (dropParent s.prop)
      have hu : (PluginUpdate.vfio (some t)).apply (dropParent s.prop) = (.ok, q) := he
      have hg := good_vfio hs hk
      rw [he] at hg
      exact good_step_update h (by simp [hu]) fun _ => by rw [hu]; exact hg

theorem good_step (s : Session τ) (c : Call τ) (h : Good s) (hc : TypeKept s c) :
    Good (step s c) := by
  cases c with
  | setObjectType t => exact good_setObjectType h hc
  | setNumSlots n => exact good_setNumSlots n h
  | setBBSID n => exact good_setBBSID n h
  | setBBSVersion v => exact good_setBBSVersion v h
  | setNumMmio n => exact good_setNumMmio n h
  | setNumInterrupts n => exact good_setNumInterrupts n h
  | setAcceleratorState n => exact good_setAcceleratorState n h
  | clear wrapped =>
    have hbit : ∀ f, ¬fieldValid (clearProperties wrapped s.prop) f :=
      fun f => not_hasBit_zero (by decide)
    rw [step_ok rfl]
    exact good_of_clear ⟨hbit 32, hbit 33, hbit 34⟩ (.inl (if_neg (hbit _)))
  | update adapter parent =>
    cases adapter with
    | none => exact good_step_unchanged h rfl (.refl _) (by simp)
    | some u => exact good_update h hc
  | setFunction function =>
    by_cases hf : function > 7
    · exact good_step_unchanged h (if_pos hf) (.refl _) (by simp)
    · refine good_step_unchanged h (if_neg hf) ?_ fun _ => rfl
      exact unchanged_of_set (f := fpgaPropertyFunction) (by decide) rfl rfl rfl
  | setParent parent =>
    refine good_step_unchanged h rfl ?_ fun _ => rfl
    exact unchanged_of_set (f := fpgaPropertyParent) (by decide) rfl rfl rfl
  | setSegment | setBus | setDevice | setSocketID | setDeviceID | setVendorID | setGUID
  | setObjectID | setNumErrors =>
    refine good_step_unchanged h rfl ?_ fun _ => rfl
    exact unchanged_of_set (by decide) rfl rfl rfl

theorem kept_of_ne {s : Session τ} {q : FpgaProperties τ} (h : objectType q ≠ objectType s.prop) :
    kept s q = .nothing := if_neg h

theorem not_reads_setObjectType {s : Session τ} {t : FpgaObjtype}
    (hc : ¬TypeKept s (.setObjectType t)) : ¬ReadsAssigned (step s (.setObjectType t)) := by
  intro h
  simp only [TypeKept, not_or, Classical.not_and_iff_not_or_not, not_not] at hc
  obtain ⟨ht, hbits⟩ := hc
  obtain ⟨he, hq⟩ := apply_setObjectType s.prop t
  have hbit : ∀ f, fieldValid s.prop f → fieldValid (fpgaPropertiesSetObjectType s.prop t).2 f :=
    fun f hf => (fieldValid_of_set (p := s.prop) (by decide) rfl).mpr (.inr hf)
  rw [step_ok he, kept_of_ne (by rw [hq]; exact Ne.symm ht)] at h
  have hget : ∀ {α : Type} {f : Nat} (read : FpgaProperties τ → α), fieldValid s.prop f →
      ∃ v, getTypedField t f read (fpgaPropertiesSetObjectType s.prop t).2 = .ok v := fun _ hf =>
    ⟨_, getTypedField_ok.mpr ⟨isOfType_iff.mpr hq, hbit _ hf, rfl⟩⟩
  cases t with
  | device =>
    obtain hf | hf | hf := hbits
    · obtain ⟨v, hv⟩ := hget (fun p => p.u.numSlots) hf
      cases h.numSlots v hv
    · obtain ⟨v, hv⟩ := hget (fun p => p.u.bbsId) hf
      cases h.bbsId v hv
    · obtain ⟨v, hv⟩ := hget (fun p => p.u.bbsVersion) hf
      cases (h.bbsVersion v hv).1
  | accelerator =>
    obtain hf | hf | hf := hbits
    · obtain ⟨v, hv⟩ := hget (fun p => p.u.state) hf
      cases h.state v hv
    · obtain ⟨v, hv⟩ := hget (fun p => p.u.numMmio) hf
      cases h.numMmio v hv
    · obtain ⟨v, hv⟩ := hget (fun p => p.u.numInterrupts) hf
      cases h.numInterrupts v hv

theorem vfio_spec (t : VfioToken) (p : FpgaProperties τ) :
    ∃ q, (PluginUpdate.vfio (some t)).apply p = (.ok, q) ∧ objectType q = some t.type ∧
      (t.type = .accelerator → ∀ f, 31 < f → fieldValid p f → fieldValid q f) ∧
      (t.type = .device → fieldValid q fpgaPropertyBbsversion) := by
  obtain ⟨hat, -, hab⟩ := updateAddress_spec t p
  cases ht : t.type with
  | accelerator =>
    obtain ⟨hq, -, hb⟩ := updateAccelerator_spec t (PluginVfio.Properties.updateAddress t p)
    refine ⟨PluginVfio.Properties.updateAccelerator t (PluginVfio.Properties.updateAddress t p), ?_,
      (hq.trans hat).trans (congrArg some ht), fun _ f hf hp => ?_, by simp⟩
    · simp only [PluginUpdate.apply, PluginVfio.Properties.vfioFpgaUpdateProperties, ht]
    · exact (hb f hf).mpr (.inr ((hab f hf).mpr hp))
  | device =>
    obtain ⟨hq, -, hb⟩ := updateDevice_spec t (PluginVfio.Properties.updateAddress t p)
    refine ⟨PluginVfio.Properties.updateDevice t (PluginVfio.Properties.updateAddress t p), ?_,
      (hq.trans hat).trans (congrArg some ht), by simp, fun _ => hb 34 (by omega)⟩
    simp only [PluginUpdate.apply, PluginVfio.Properties.vfioFpgaUpdateProperties, ht]

theorem not_reads_vfio {s : Session τ} {t : VfioToken} {parent : Option τ} (hs : Good s)
    (hc : ¬TypeKept s (.update (some (.vfio (some t))) parent)) :
    ¬ReadsAssigned (step s (.update (some (.vfio (some t))) parent)) := by
  intro h
  have hd := unchanged_dropParent s.prop
  obtain ⟨q, hu, hq, hacc, hdev⟩ := vfio_spec t (dropParent s.prop)
  have htake := unchanged_takeParent parent q
  rw [step_update_ok hu] at h
  have htype := isOfType_iff.mpr (htake.objectType.trans hq)
  cases ht : t.type with
  | accelerator =>
    rw [ht] at htype hq
    simp only [TypeKept, ht, not_or, Classical.not_and_iff_not_or_not, not_not] at hc
    obtain ⟨hne, hbits⟩ := hc
    have hk : kept ⟨dropParent s.prop, s.assigned⟩ q = .nothing :=
      kept_of_ne (by rw [hq]; exact fun he => hne (hd.objectType ▸ he.symm))
    rw [hk] at h
    simp only [Assigned.update, ht] at h
    obtain hf | hf := hbits
    · have hf' := htake.bit32.mpr (hacc ht 32 (by omega) (hd.bit32.mpr hf))
      cases h.state _ (getTypedField_ok.mpr ⟨htype, hf', rfl⟩)
    · have hf' := htake.bit34.mpr (hacc ht 34 (by omega) (hd.bit34.mpr hf))
      cases h.numInterrupts _ (getTypedField_ok.mpr ⟨htype, hf', rfl⟩)
  | device =>
    rw [ht] at htype hq
    simp only [TypeKept, ht, Classical.not_and_iff_not_or_not] at hc
    simp only [Assigned.update, ht] at h
    have hf' := htake.bit34.mpr (hdev ht)
    have hp := (h.bbsVersion _ (getTypedField_ok.mpr ⟨htype, hf', rfl⟩)).2.2
    have hnone : (kept ⟨dropParent s.prop, s.assigned⟩ q).patch = none := by
      rw [kept]
      split
      · next he =>
        have hsd : objectType s.prop = some .device := hd.objectType ▸ he.symm.trans hq
        exact (hs.device hsd).noPatch (hc.resolve_left (not_not.mpr hsd))
      · rfl
    rw [hnone] at hp
    cases hp

theorem reads_iff (s : Session τ) (c : Call τ) (h : Good s) :
    ReadsAssigned (step s c) ↔ TypeKept s c := by
  refine ⟨fun hr => ?_, fun hc => (good_step s c h hc).reads⟩
  by_contra hc
  cases c with
  | setObjectType t => exact not_reads_setObjectType hc hr
  | update adapter parent =>
    match adapter with
    | none => exact hc trivial
    | some (.xfpga t) => exact hc trivial
    | some (.vfio none) => exact hc trivial
    | some (.vfio (some t)) => exact not_reads_vfio h hc hr
  | _ => exact hc trivial

/-- Along every run of calls on a new properties object. -/
theorem run_reads_iff (calls : List (Call τ)) :
    Along step (fun s c => ReadsAssigned (step s c)) start calls ↔
      Along step TypeKept start calls :=
  along_iff good_step reads_iff calls good_start

/-- The slots of a device are read back as the state of an accelerator. -/
theorem slots_read_as_state :
    fpgaPropertiesGetAcceleratorState (run step (start : Session Nat)
      [.setObjectType .device, .setNumSlots 5, .setObjectType .accelerator]).prop = .ok 5 ∧
    ¬Along step (fun s c => ReadsAssigned (step s c)) (start : Session Nat)
      [.setObjectType .device, .setNumSlots 5, .setObjectType .accelerator] := by
  refine ⟨by decide, fun h => ?_⟩
  cases h.2.2.1.state 5 (by decide)

end OpaeLibs.OpaeC.TypeFields
