import OpaeLibs.Lib.Bits

namespace OpaeLibs.OpaeC.Props

open OpaeLibs.Lib.Bits

inductive FpgaResult
  | ok
  | invalidParam
  | busy
  | exception
  | notFound
  | noMemory
  | notSupported
  | noDriver
  | noDaemon
  | noAccess
  | reconfError
deriving DecidableEq, Repr

/-- A result other than `FPGA_OK`. -/
abbrev FpgaError := { r : FpgaResult // r ≠ .ok }

theorem FpgaResult.invalidParam_ne_ok : FpgaResult.invalidParam ≠ .ok := by
  decide

theorem FpgaResult.exception_ne_ok : FpgaResult.exception ≠ .ok := by
  decide

theorem FpgaResult.notFound_ne_ok : FpgaResult.notFound ≠ .ok := by
  decide

theorem FpgaResult.noMemory_ne_ok : FpgaResult.noMemory ≠ .ok := by
  decide

theorem FpgaResult.noDriver_ne_ok : FpgaResult.noDriver ≠ .ok := by
  decide

theorem FpgaResult.noAccess_ne_ok : FpgaResult.noAccess ≠ .ok := by
  decide

inductive FpgaObjtype
  | device
  | accelerator
deriving DecidableEq, Repr

structure FpgaVersion where
  major : UInt8
  minor : UInt8
  patch : UInt16
deriving DecidableEq, Repr

abbrev FpgaGuid := Vector UInt8 16

@[simp] abbrev fpgaPropertyParent := 0
@[simp] abbrev fpgaPropertyObjtype := 1
@[simp] abbrev fpgaPropertySegment := 2
@[simp] abbrev fpgaPropertyBus := 3
@[simp] abbrev fpgaPropertyDevice := 4
@[simp] abbrev fpgaPropertyFunction := 5
@[simp] abbrev fpgaPropertySocketid := 6
@[simp] abbrev fpgaPropertyVendorid := 7
@[simp] abbrev fpgaPropertyDeviceid := 8
@[simp] abbrev fpgaPropertyGuid := 9
@[simp] abbrev fpgaPropertyObjectid := 10
@[simp] abbrev fpgaPropertyNumErrors := 11
@[simp] abbrev fpgaPropertyNumSlots := 32
@[simp] abbrev fpgaPropertyBbsid := 33
@[simp] abbrev fpgaPropertyBbsversion := 34
@[simp] abbrev fpgaPropertyAcceleratorState := 32
@[simp] abbrev fpgaPropertyNumMmio := 33
@[simp] abbrev fpgaPropertyNumInterrupts := 34

/-- The storage of the union `u`, cut where a member of either arm begins: a cell is named by its
offset. -/
structure ObjectSpecific where
  at0 : UInt32
  at4 : UInt32
  at8 : UInt32
  at12 : UInt32
  at16 : UInt8
  at17 : UInt8
  at18 : UInt16
deriving DecidableEq, Repr

namespace ObjectSpecific

def zero : ObjectSpecific := ⟨0, 0, 0, 0, 0, 0, 0⟩

variable (u : ObjectSpecific)

def numSlots : UInt32 := u.at0
def bbsId : UInt64 := u.at12.toUInt64 <<< 32 ||| u.at8.toUInt64
def bbsVersion : FpgaVersion := ⟨u.at16, u.at17, u.at18⟩
def state : UInt32 := u.at0
def numMmio : UInt32 := u.at4
def numInterrupts : UInt32 := u.at8

def setNumSlots (n : UInt32) : ObjectSpecific := { u with at0 := n }
def setBbsId (n : UInt64) : ObjectSpecific :=
  { u with at8 := n.toUInt32, at12 := (n >>> 32).toUInt32 }
def setBbsVersion (v : FpgaVersion) : ObjectSpecific :=
  { u with at16 := v.major, at17 := v.minor, at18 := v.patch }
def setState (n : UInt32) : ObjectSpecific := { u with at0 := n }
def setNumMmio (n : UInt32) : ObjectSpecific := { u with at4 := n }
def setNumInterrupts (n : UInt32) : ObjectSpecific := { u with at8 := n }

end ObjectSpecific

/-- `struct _fpga_properties` without its lock and magic number; `τ` stands for tokens. -/
structure FpgaProperties (τ : Type) where
  validFields : BitVec 64
  guid : FpgaGuid
  parent : Option τ
  objtype : FpgaObjtype
  segment : UInt16
  bus : UInt8
  device : UInt8
  function : UInt8
  socketId : UInt8
  objectId : UInt64
  vendorId : UInt16
  deviceId : UInt16
  numErrors : UInt32
  u : ObjectSpecific
deriving DecidableEq, Repr

def opaePropertiesCreate {τ : Type} : FpgaProperties τ :=
  ⟨0, Vector.replicate 16 0, none, .device, 0, 0, 0, 0, 0, 0, 0, 0, 0, .zero⟩

section

variable {τ α : Type}

def fieldValid (p : FpgaProperties τ) (f : Nat) : Prop := hasBit p.validFields f

instance (p : FpgaProperties τ) (f : Nat) : Decidable (fieldValid p f) :=
  inferInstanceAs (Decidable (hasBit _ _))

def setFieldValid (p : FpgaProperties τ) (f : Nat) : FpgaProperties τ :=
  { p with validFields := setBit p.validFields f }

def clearFieldValid (p : FpgaProperties τ) (f : Nat) : FpgaProperties τ :=
  { p with validFields := clearBit p.validFields f }

/-- An assignment to a member followed by `SET_FIELD_VALID`. -/
def assign (f : Nat) (write : FpgaProperties τ → FpgaProperties τ) (p : FpgaProperties τ) :
    FpgaProperties τ := setFieldValid (write p) f

/-- The getters and setters below take the object that `opae_validate_and_lock_properties`
returns; without one each of them answers `FPGA_INVALID_PARAM`. -/
def getField (f : Nat) (read : FpgaProperties τ → α) (p : FpgaProperties τ) :
    Except FpgaResult α :=
  if fieldValid p f then .ok (read p) else .error .notFound

def isOfType (p : FpgaProperties τ) (t : FpgaObjtype) : Prop :=
  fieldValid p fpgaPropertyObjtype ∧ t = p.objtype

instance (p : FpgaProperties τ) (t : FpgaObjtype) : Decidable (isOfType p t) :=
  inferInstanceAs (Decidable (_ ∧ _))

def getTypedField (t : FpgaObjtype) (f : Nat) (read : FpgaProperties τ → α)
    (p : FpgaProperties τ) : Except FpgaResult α :=
  if isOfType p t then getField f read p else .error .invalidParam

def setTypedField (t : FpgaObjtype) (f : Nat) (write : ObjectSpecific → ObjectSpecific)
    (p : FpgaProperties τ) : FpgaResult × FpgaProperties τ :=
  if isOfType p t then (.ok, { setFieldValid p f with u := write p.u }) else (.invalidParam, p)

def fpgaPropertiesGetParent (p : FpgaProperties τ) : Except FpgaResult (Option τ) :=
  getField fpgaPropertyParent FpgaProperties.parent p

def fpgaPropertiesGetObjectType (p : FpgaProperties τ) : Except FpgaResult FpgaObjtype :=
  getField fpgaPropertyObjtype FpgaProperties.objtype p

def fpgaPropertiesSetObjectType (p : FpgaProperties τ) (t : FpgaObjtype) :
    FpgaResult × FpgaProperties τ :=
  (.ok, setFieldValid { p with objtype := t } fpgaPropertyObjtype)

def fpgaPropertiesGetSegment (p : FpgaProperties τ) : Except FpgaResult UInt16 :=
  getField fpgaPropertySegment FpgaProperties.segment p

def fpgaPropertiesSetSegment (p : FpgaProperties τ) (segment : UInt16) :
    FpgaResult × FpgaProperties τ :=
  (.ok, { setFieldValid p fpgaPropertySegment with segment := segment })

def fpgaPropertiesGetBus (p : FpgaProperties τ) : Except FpgaResult UInt8 :=
  getField fpgaPropertyBus FpgaProperties.bus p

def fpgaPropertiesSetBus (p : FpgaProperties τ) (bus : UInt8) : FpgaResult × FpgaProperties τ :=
  (.ok, { setFieldValid p fpgaPropertyBus with bus := bus })

def fpgaPropertiesGetDevice (p : FpgaProperties τ) : Except FpgaResult UInt8 :=
  getField fpgaPropertyDevice FpgaProperties.device p

def fpgaPropertiesSetDevice (p : FpgaProperties τ) (device : UInt8) :
    FpgaResult × FpgaProperties τ :=
  (.ok, { setFieldValid p fpgaPropertyDevice with device := device })

def fpgaPropertiesGetFunction (p : FpgaProperties τ) : Except FpgaResult UInt8 :=
  getField fpgaPropertyFunction FpgaProperties.function p

def fpgaPropertiesSetFunction (p : FpgaProperties τ) (function : UInt8) :
    FpgaResult × FpgaProperties τ :=
  if function > 7 then (.invalidParam, p)
  else (.ok, { setFieldValid p fpgaPropertyFunction with function := function })

def fpgaPropertiesGetSocketID (p : FpgaProperties τ) : Except FpgaResult UInt8 :=
  getField fpgaPropertySocketid FpgaProperties.socketId p

def fpgaPropertiesSetSocketID (p : FpgaProperties τ) (socketId : UInt8) :
    FpgaResult × FpgaProperties τ :=
  (.ok, { setFieldValid p fpgaPropertySocketid with socketId := socketId })

def fpgaPropertiesGetDeviceID (p : FpgaProperties τ) : Except FpgaResult UInt16 :=
  getField fpgaPropertyDeviceid FpgaProperties.deviceId p

def fpgaPropertiesSetDeviceID (p : FpgaProperties τ) (deviceId : UInt16) :
    FpgaResult × FpgaProperties τ :=
  (.ok, { setFieldValid p fpgaPropertyDeviceid with deviceId := deviceId })

def fpgaPropertiesGetNumSlots (p : FpgaProperties τ) : Except FpgaResult UInt32 :=
  getTypedField .device fpgaPropertyNumSlots (fun p => p.u.numSlots) p

def fpgaPropertiesSetNumSlots (p : FpgaProperties τ) (numSlots : UInt32) :
    FpgaResult × FpgaProperties τ :=
  setTypedField .device fpgaPropertyNumSlots (fun u => u.setNumSlots numSlots) p

def fpgaPropertiesGetBBSID (p : FpgaProperties τ) : Except FpgaResult UInt64 :=
  getTypedField .device fpgaPropertyBbsid (fun p => p.u.bbsId) p

def fpgaPropertiesSetBBSID (p : FpgaProperties τ) (bbsId : UInt64) :
    FpgaResult × FpgaProperties τ :=
  setTypedField .device fpgaPropertyBbsid (fun u => u.setBbsId bbsId) p

def fpgaPropertiesGetBBSVersion (p : FpgaProperties τ) : Except FpgaResult FpgaVersion :=
  getTypedField .device fpgaPropertyBbsversion (fun p => p.u.bbsVersion) p

def fpgaPropertiesSetBBSVersion (p : FpgaProperties τ) (bbsVersion : FpgaVersion) :
    FpgaResult × FpgaProperties τ :=
  setTypedField .device fpgaPropertyBbsversion (fun u => u.setBbsVersion bbsVersion) p

def fpgaPropertiesGetVendorID (p : FpgaProperties τ) : Except FpgaResult UInt16 :=
  getField fpgaPropertyVendorid FpgaProperties.vendorId p

def fpgaPropertiesSetVendorID (p : FpgaProperties τ) (vendorId : UInt16) :
    FpgaResult × FpgaProperties τ :=
  (.ok, { setFieldValid p fpgaPropertyVendorid with vendorId := vendorId })

def fpgaPropertiesGetGUID (p : FpgaProperties τ) : Except FpgaResult FpgaGuid :=
  getField fpgaPropertyGuid FpgaProperties.guid p

def fpgaPropertiesSetGUID (p : FpgaProperties τ) (guid : FpgaGuid) :
    FpgaResult × FpgaProperties τ :=
  (.ok, { setFieldValid p fpgaPropertyGuid with guid := guid })

def fpgaPropertiesGetNumMmio (p : FpgaProperties τ) : Except FpgaResult UInt32 :=
  getTypedField .accelerator fpgaPropertyNumMmio (fun p => p.u.numMmio) p

def fpgaPropertiesSetNumMmio (p : FpgaProperties τ) (mmioSpaces : UInt32) :
    FpgaResult × FpgaProperties τ :=
  setTypedField .accelerator fpgaPropertyNumMmio (fun u => u.setNumMmio mmioSpaces) p

def fpgaPropertiesGetNumInterrupts (p : FpgaProperties τ) : Except FpgaResult UInt32 :=
  getTypedField .accelerator fpgaPropertyNumInterrupts (fun p => p.u.numInterrupts) p

def fpgaPropertiesSetNumInterrupts (p : FpgaProperties τ) (numInterrupts : UInt32) :
    FpgaResult × FpgaProperties τ :=
  setTypedField .accelerator fpgaPropertyNumInterrupts
    (fun u => u.setNumInterrupts numInterrupts) p

def fpgaPropertiesGetAcceleratorState (p : FpgaProperties τ) : Except FpgaResult UInt32 :=
  getTypedField .accelerator fpgaPropertyAcceleratorState (fun p => p.u.state) p

def fpgaPropertiesSetAcceleratorState (p : FpgaProperties τ) (state : UInt32) :
    FpgaResult × FpgaProperties τ :=
  setTypedField .accelerator fpgaPropertyAcceleratorState (fun u => u.setState state) p

def fpgaPropertiesGetObjectID (p : FpgaProperties τ) : Except FpgaResult UInt64 :=
  getField fpgaPropertyObjectid FpgaProperties.objectId p

def fpgaPropertiesSetObjectID (p : FpgaProperties τ) (objectId : UInt64) :
    FpgaResult × FpgaProperties τ :=
  (.ok, { setFieldValid p fpgaPropertyObjectid with objectId := objectId })

def fpgaPropertiesGetNumErrors (p : FpgaProperties τ) : Except FpgaResult UInt32 :=
  getField fpgaPropertyNumErrors FpgaProperties.numErrors p

def fpgaPropertiesSetNumErrors (p : FpgaProperties τ) (numErrors : UInt32) :
    FpgaResult × FpgaProperties τ :=
  (.ok, { setFieldValid p fpgaPropertyNumErrors with numErrors := numErrors })

/-- What `fpgaPropertiesSetParent` does to the object itself. -/
def storeParent (p : FpgaProperties τ) (parent : τ) : FpgaProperties τ :=
  setFieldValid { p with parent := some parent } fpgaPropertyParent

/-- What `fpgaClearProperties` does to the object; `wrapped` says whether the old parent was a
wrapped token. -/
def clearProperties (wrapped : Bool) (p : FpgaProperties τ) : FpgaProperties τ :=
  let p := if fieldValid p fpgaPropertyParent ∧ wrapped then { p with parent := none } else p
  { p with validFields := 0 }

/-- What `fpgaUpdateProperties` does to the object before the plugin's own update. -/
def dropParent (p : FpgaProperties τ) : FpgaProperties τ :=
  if fieldValid p fpgaPropertyParent then
    { clearFieldValid p fpgaPropertyParent with parent := none }
  else p

def takeParent (parent : Option τ) (p : FpgaProperties τ) : FpgaProperties τ :=
  match parent with
  | none => p
  | some parent => { setFieldValid p fpgaPropertyParent with parent := some parent }

/-- The object's side of `fpgaUpdateProperties`: no `update` is an adapter without one, `parent` is
what `opae_get_parent_token` returns. -/
def updateProperties (update : Option (FpgaProperties τ → FpgaResult × FpgaProperties τ))
    (parent : Option τ) (p : FpgaProperties τ) : FpgaResult × FpgaProperties τ :=
  match update with
  | none => (.notSupported, p)
  | some update =>
    match update (dropParent p) with
    | (.ok, p) => (.ok, takeParent parent p)
    | (res, p) => (res, p)

theorem fieldValid_of_set {p q : FpgaProperties τ} {f g : Nat} (hf : f < 64)
    (hv : q.validFields = setBit p.validFields f) : fieldValid q g ↔ f = g ∨ fieldValid p g := by
  rw [fieldValid, hv]
  exact hasBit_setBit hf

theorem fieldValid_of_clear {p q : FpgaProperties τ} {f g : Nat}
    (hv : q.validFields = clearBit p.validFields f) : fieldValid q g ↔ f ≠ g ∧ fieldValid p g := by
  rw [fieldValid, hv]
  exact hasBit_clearBit (by decide)

theorem fieldValid_assign {f g : Nat} (hf : f < 64) {write : FpgaProperties τ → FpgaProperties τ}
    (hw : ∀ p, (write p).validFields = p.validFields) (p : FpgaProperties τ) :
    fieldValid (assign f write p) g ↔ f = g ∨ fieldValid p g :=
  fieldValid_of_set hf (congrArg (fun v => setBit v f) (hw p))

theorem fieldValid_clearFieldValid (p : FpgaProperties τ) (f g : Nat) :
    fieldValid (clearFieldValid p f) g ↔ f ≠ g ∧ fieldValid p g := fieldValid_of_clear rfl

theorem fieldValid_withoutParent (p : FpgaProperties τ) (f : Nat) :
    fieldValid ({ p with parent := none } : FpgaProperties τ) f ↔ fieldValid p f := Iff.rfl

theorem getTypedField_ok {t : FpgaObjtype} {f : Nat} {read : FpgaProperties τ → α}
    {p : FpgaProperties τ} {v : α} :
    getTypedField t f read p = .ok v ↔ isOfType p t ∧ fieldValid p f ∧ read p = v := by
  rw [getTypedField, getField]
  split
  · next h =>
    split
    · next hf => simp [h, hf]
    · next hf => simp [hf]
  · next h => simp [h]

end

theorem ObjectSpecific.bbsId_setBbsId (u : ObjectSpecific) (n : UInt64) :
    (u.setBbsId n).bbsId = n := by
  have hn := n.toNat_lt
  apply UInt64.toNat_inj.mp
  have hhigh : ((n >>> 32).toUInt32.toUInt64 <<< 32).toNat = n.toNat / 2 ^ 32 * 2 ^ 32 := by
    simp [Nat.shiftRight_eq_div_pow, Nat.shiftLeft_eq]
    omega
  have hlow : n.toUInt32.toUInt64.toNat = n.toNat % 2 ^ 32 := by simp
  rw [bbsId, setBbsId, UInt64.toNat_or, hhigh, hlow, Nat.mul_comm,
    ← Nat.two_pow_add_eq_or_of_lt (Nat.mod_lt _ (by decide))]
  omega

end OpaeLibs.OpaeC.Props
