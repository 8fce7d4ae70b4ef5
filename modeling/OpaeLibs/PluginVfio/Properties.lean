import OpaeLibs.OpaeC.Props

namespace OpaeLibs.PluginVfio.Properties

open OpaeLibs.OpaeC.Props

/-- `bdf_t`, whose last byte holds two bit fields. -/
structure Bdf where
  segment : UInt16
  bus : UInt8
  device : BitVec 5
  function : BitVec 3
deriving DecidableEq, Repr

def Bdf.bdf (b : Bdf) : UInt32 :=
  b.segment.toUInt32 ||| b.bus.toUInt32 <<< 16 |||
    (UInt32.ofBitVec (b.device.setWidth 32) ||| UInt32.ofBitVec (b.function.setWidth 32) <<< 5) <<< 24

structure PciDevice where
  addr : String
  bdf : Bdf
  vendor : UInt32
  device : UInt32
  numaNode : UInt32
deriving DecidableEq, Repr

/-- The members of `vfio_token` that enumeration and the update read. -/
structure VfioToken where
  guid : FpgaGuid
  compatId : FpgaGuid
  device : PciDevice
  region : UInt32
  userMmioCount : UInt32
  bitstreamId : UInt64
  numPorts : UInt8
  type : FpgaObjtype
deriving DecidableEq, Repr

def fpgaBbsVerMajor (i : UInt64) : UInt8 := ((i >>> 56) &&& 0xf).toUInt8
def fpgaBbsVerMinor (i : UInt64) : UInt8 := ((i >>> 52) &&& 0xf).toUInt8
def fpgaBbsVerPatch (i : UInt64) : UInt8 := ((i >>> 48) &&& 0xf).toUInt8

section

variable {τ : Type}

def updateAddress (t : VfioToken) (p : FpgaProperties τ) : FpgaProperties τ :=
  let p := assign fpgaPropertyVendorid (fun p => { p with vendorId := t.device.vendor.toUInt16 }) p
  let p := assign fpgaPropertyDeviceid (fun p => { p with deviceId := t.device.device.toUInt16 }) p
  let p := assign fpgaPropertySegment (fun p => { p with segment := t.device.bdf.segment }) p
  let p := assign fpgaPropertyBus (fun p => { p with bus := t.device.bdf.bus }) p
  let p := assign fpgaPropertyDevice
    (fun p => { p with device := UInt8.ofBitVec (t.device.bdf.device.setWidth 8) }) p
  let p := assign fpgaPropertyFunction
    (fun p => { p with function := UInt8.ofBitVec (t.device.bdf.function.setWidth 8) }) p
  let p := assign fpgaPropertySocketid (fun p => { p with socketId := t.device.numaNode.toUInt8 }) p
  let p := assign fpgaPropertyObjectid
    (fun p => { p with objectId := t.device.bdf.bdf.toUInt64 <<< 32 ||| t.region.toUInt64 }) p
  assign fpgaPropertyObjtype (fun p => { p with objtype := t.type }) p

def updateAccelerator (t : VfioToken) (p : FpgaProperties τ) : FpgaProperties τ :=
  let p := clearFieldValid { p with parent := none } fpgaPropertyParent
  let p := assign fpgaPropertyGuid (fun p => { p with guid := t.guid }) p
  assign fpgaPropertyNumMmio (fun p => { p with u := p.u.setNumMmio t.userMmioCount }) p

/-- The version's `major` is assigned twice and its `patch` never. -/
def updateBbsVersion (id : UInt64) (v : FpgaVersion) : FpgaVersion :=
  let v := { v with major := fpgaBbsVerMajor id }
  let v := { v with minor := fpgaBbsVerMinor id }
  { v with major := fpgaBbsVerPatch id }

def updateDevice (t : VfioToken) (p : FpgaProperties τ) : FpgaProperties τ :=
  let p := assign fpgaPropertyGuid (fun p => { p with guid := t.compatId }) p
  let p := assign fpgaPropertyBbsid (fun p => { p with u := p.u.setBbsId t.bitstreamId }) p
  let p := assign fpgaPropertyBbsversion
    (fun p => { p with
      u := p.u.setBbsVersion (updateBbsVersion t.bitstreamId p.u.bbsVersion) }) p
  assign fpgaPropertyNumSlots (fun p => { p with u := p.u.setNumSlots t.numPorts.toUInt32 }) p

/-- No token stands for one that `token_check` turns down. -/
def vfioFpgaUpdateProperties (t : Option VfioToken) (p : FpgaProperties τ) :
    FpgaResult × FpgaProperties τ :=
  match t with
  | none => (.invalidParam, p)
  | some t =>
    let p := updateAddress t p
    match t.type with
    | .accelerator => (.ok, updateAccelerator t p)
    | .device => (.ok, updateDevice t p)

end

end OpaeLibs.PluginVfio.Properties
