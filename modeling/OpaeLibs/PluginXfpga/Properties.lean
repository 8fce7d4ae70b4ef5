import OpaeLibs.OpaeC.Props

namespace OpaeLibs.PluginXfpga.Properties

open OpaeLibs.OpaeC.Props

abbrev fpgaAcceleratorAssigned : UInt32 := 0
abbrev fpgaAcceleratorUnassigned : UInt32 := 1

structure OpaePortInfo where
  numRegions : UInt32
  numUafuIrqs : UInt32
  /-- Whether `OPAE_PORT_CAP_UAFU_IRQS` is among the capabilities. -/
  uafuIrqs : Bool
deriving DecidableEq, Repr

/-- What the update reads of a port: the buffer the GUID is read into with the success of the
read, and the device, if it opens, with the port information, if the driver gives it. -/
structure AfuView where
  guid : Bool × FpgaGuid
  port : Option (Option OpaePortInfo)
deriving DecidableEq, Repr

structure FmeView where
  interfaceId : Except FpgaError FpgaGuid
  numSlots : Option UInt64
  bitstreamId : Option UInt64

/-- A token as the update sees it, with the outcomes of the calls made about it. A path is taken
for a port's or for a management engine's by the name it contains. -/
structure TokenView where
  magic : Bool
  vendor : Except FpgaError UInt32
  device : Except FpgaError UInt32
  separator : Bool
  afu : Option AfuView
  fme : Option FmeView
  sbdf : Except FpgaError (Int × Int × Int × Int)
  socketId : Option UInt64
  objectId : Option UInt64
  numErrors : UInt32
  lock : Bool

def fpgaBbsVerMajor (i : UInt64) : UInt8 := ((i >>> 56) &&& 0xf).toUInt8
def fpgaBbsVerMinor (i : UInt64) : UInt8 := ((i >>> 52) &&& 0xf).toUInt8
def fpgaBbsVerPatch (i : UInt64) : UInt16 := ((i >>> 48) &&& 0xf).toUInt16

section

variable {τ : Type}

def assignU (f : Nat) (write : ObjectSpecific → ObjectSpecific) :
    FpgaProperties τ → FpgaProperties τ :=
  assign f (fun p => { p with u := write p.u })

def readPort (p : FpgaProperties τ) : Option OpaePortInfo → FpgaProperties τ
  | none => p
  | some info =>
    let p := assignU fpgaPropertyNumMmio (fun u => u.setNumMmio info.numRegions) p
    if info.uafuIrqs then
      assignU fpgaPropertyNumInterrupts (fun u => u.setNumInterrupts info.numUafuIrqs) p
    else p

def readAfuGuid (p : FpgaProperties τ) (v : AfuView) : FpgaProperties τ :=
  let p := { p with guid := v.guid.2 }
  if v.guid.1 then setFieldValid p fpgaPropertyGuid else clearFieldValid p fpgaPropertyGuid

def storeAfu (p : FpgaProperties τ) (v : AfuView) : FpgaProperties τ :=
  let p := clearFieldValid { readAfuGuid p v with parent := none } fpgaPropertyParent
  let p := assign fpgaPropertyObjtype (fun p => { p with objtype := .accelerator }) p
  { p with u := (p.u.setNumMmio 0).setNumInterrupts 0 }

def readAfu (p : FpgaProperties τ) (v : AfuView) : FpgaProperties τ :=
  match v.port with
  | none =>
    assignU fpgaPropertyAcceleratorState (fun u => u.setState fpgaAcceleratorAssigned)
      (storeAfu p v)
  | some info =>
    assignU fpgaPropertyAcceleratorState (fun u => u.setState fpgaAcceleratorUnassigned)
      (readPort (storeAfu p v) info)

def storeFme (p : FpgaProperties τ) (id : FpgaGuid) (slots bbs : UInt64) : FpgaProperties τ :=
  let p := assign fpgaPropertyObjtype (fun p => { p with objtype := .device }) p
  let p := assign fpgaPropertyGuid (fun p => { p with guid := id }) p
  let p := assignU fpgaPropertyNumSlots (fun u => u.setNumSlots slots.toUInt32) p
  let p := assignU fpgaPropertyBbsid (fun u => u.setBbsId bbs) p
  assignU fpgaPropertyBbsversion (fun u => u.setBbsVersion
    ⟨fpgaBbsVerMajor u.bbsId, fpgaBbsVerMinor u.bbsId, fpgaBbsVerPatch u.bbsId⟩) p

def readFme (p : FpgaProperties τ) (v : FmeView) : Except FpgaError (FpgaProperties τ) := do
  let id ← v.interfaceId
  match v.numSlots, v.bitstreamId with
  | some slots, some bbs => return storeFme p id slots bbs
  | _, _ => throw ⟨.notFound, FpgaResult.notFound_ne_ok⟩

def readIds (t : TokenView) (p : FpgaProperties τ) : Except FpgaError (FpgaProperties τ) := do
  let vendor ← t.vendor
  let p := assign fpgaPropertyVendorid (fun p => { p with vendorId := vendor.toUInt16 }) p
  let device ← t.device
  let p := assign fpgaPropertyDeviceid (fun p => { p with deviceId := device.toUInt16 }) p
  if t.separator then return p else throw ⟨.invalidParam, FpgaResult.invalidParam_ne_ok⟩

def readSocketId (t : TokenView) (p : FpgaProperties τ) : FpgaProperties τ :=
  match t.socketId with
  | some id => assign fpgaPropertySocketid (fun p => { p with socketId := id.toUInt8 }) p
  | none => p

def readObjectId (t : TokenView) (p : FpgaProperties τ) : FpgaProperties τ :=
  match t.objectId with
  | some id => assign fpgaPropertyObjectid (fun p => { p with objectId := id }) p
  | none => p

def readAddress (t : TokenView) (p : FpgaProperties τ) : Except FpgaError (FpgaProperties τ) := do
  let (s, b, d, f) ← t.sbdf
  let p := assign fpgaPropertySegment (fun p => { p with segment := UInt16.ofInt s }) p
  let p := assign fpgaPropertyBus (fun p => { p with bus := UInt8.ofInt b }) p
  let p := assign fpgaPropertyDevice (fun p => { p with device := UInt8.ofInt d }) p
  let p := assign fpgaPropertyFunction (fun p => { p with function := UInt8.ofInt f }) p
  let p := readObjectId t (readSocketId t p)
  return assign fpgaPropertyNumErrors (fun p => { p with numErrors := t.numErrors }) p

def readObject (t : TokenView) (p : FpgaProperties τ) : Except FpgaError (FpgaProperties τ) :=
  let p := match t.afu with
    | some v => readAfu p v
    | none => p
  match t.fme with
  | some v => readFme p v
  | none => .ok p

/-- The local object `_iprop`, built from a cleared one. -/
def readProperties (t : TokenView) : Except FpgaError (FpgaProperties τ) := do
  let p ← readIds t opaePropertiesCreate
  let p ← readObject t p
  readAddress t p

def xfpgaFpgaUpdateProperties (t : TokenView) (p : FpgaProperties τ) :
    FpgaResult × FpgaProperties τ :=
  if !t.magic then (.invalidParam, p)
  else
    match readProperties t with
    | .error res => (res.1, p)
    | .ok iprop => if t.lock then (.ok, iprop) else (.exception, p)

end

end OpaeLibs.PluginXfpga.Properties
