import OpaeLibs.OpaeC.ApiShell

namespace OpaeLibs.OpaeC.Dispatch

open OpaeLibs.Lib.Heap
open OpaeLibs.OpaeC.Props OpaeLibs.OpaeC.ApiShell

/-- A function of the shell that hands one object to the plugin and stores nothing. -/
abbrev ObjectCall (κ : Type) := Tables → FpgaResult → Shell → Option κ → Option (FpgaResult × Shell)

/-- The functions that take a handle: `pointers` says whether the pointer arguments that the
function checks are all there, `res` is the plugin's answer. -/
def handleCall (fn : ApiFn) (pointers : Bool) : ObjectCall Nat := fun tables res s handle => do
  match ← validate s.handles handle with
  | none => return (.invalidParam, s)
  | some (_, wh) =>
    if !pointers then return (.invalidParam, s)
    else if !tables wh.adapterTable fn then return (.notSupported, s)
    else return (res, dispatch s wh.adapterTable fn [wh.opaeHandle])

def fpgaReset := handleCall .fpgaReset true

def fpgaWriteMMIO64 := handleCall .fpgaWriteMMIO64 true

def fpgaReadMMIO64 := handleCall .fpgaReadMMIO64 true

def fpgaWriteMMIO32 := handleCall .fpgaWriteMMIO32 true

def fpgaReadMMIO32 := handleCall .fpgaReadMMIO32 true

def fpgaWriteMMIO512 := handleCall .fpgaWriteMMIO512 true

def fpgaMapMmio := handleCall .fpgaMapMmio true

def fpgaUnmapMmio := handleCall .fpgaUnmapMmio true

/-- Without `buf_addr` and `len` a plugin is only asked whether it supports
`FPGA_BUF_PREALLOCATED`. -/
def fpgaPrepareBuffer (preallocated : Bool) (len : UInt64) (bufAddr wsid : Bool) :=
  handleCall .fpgaPrepareBuffer ((bufAddr || (preallocated && len = 0)) && wsid)

def fpgaReleaseBuffer := handleCall .fpgaReleaseBuffer true

def fpgaGetIOAddress (ioaddr : Bool) := handleCall .fpgaGetIOAddress ioaddr

def fpgaAssignPortToInterface := handleCall .fpgaAssignPortToInterface true

def fpgaReconfigureSlot (bitstream : Bool) := handleCall .fpgaReconfigureSlot bitstream

def fpgaSetUserClock := handleCall .fpgaSetUserClock true

def fpgaGetUserClock (highClk lowClk : Bool) := handleCall .fpgaGetUserClock (lowClk && highClk)

def fpgaGetNumMetrics (numMetrics : Bool) := handleCall .fpgaGetNumMetrics numMetrics

def fpgaGetMetricsInfo (metricInfo numMetrics : Bool) :=
  handleCall .fpgaGetMetricsInfo (metricInfo && numMetrics)

/-- Here the number of indexes is checked like a pointer and the indexes are not. -/
def fpgaGetMetricsByIndex (numMetricIndexes : UInt64) (metrics : Bool) :=
  handleCall .fpgaGetMetricsByIndex (numMetricIndexes ≠ 0 && metrics)

def fpgaGetMetricsByName (metricsNames metrics : Bool) :=
  handleCall .fpgaGetMetricsByName (metricsNames && metrics)

def fpgaGetMetricsThresholdInfo (numThresholds : Bool) :=
  handleCall .fpgaGetMetricsThresholdInfo numThresholds

def tokenCall (fn : ApiFn) (pointers : Bool) : ObjectCall TokenPtr := fun tables res s token => do
  match ← opaeValidateWrappedToken s token with
  | none => return (.invalidParam, s)
  | some (_, wt) =>
    if !pointers then return (.invalidParam, s)
    else if !tables wt.adapterTable fn then return (.notSupported, s)
    else return (res, dispatch s wt.adapterTable fn [wt.opaeToken])

def fpgaReadError (value : Bool) := tokenCall .fpgaReadError value

def fpgaClearError := tokenCall .fpgaClearError true

def fpgaClearAllErrors := tokenCall .fpgaClearAllErrors true

def fpgaGetErrorInfo (errorInfo : Bool) := tokenCall .fpgaGetErrorInfo errorInfo

def objectCall (fn : ApiFn) (pointers : Bool) : ObjectCall Nat := fun tables res s obj => do
  match ← validate s.objects obj with
  | none => return (.invalidParam, s)
  | some (_, wo) =>
    if !pointers then return (.invalidParam, s)
    else if !tables wo.adapterTable fn then return (.notSupported, s)
    else return (res, dispatch s wo.adapterTable fn [wo.opaeObject])

def fpgaObjectRead (buffer : Bool) := objectCall .fpgaObjectRead buffer

def fpgaObjectGetSize (value : Bool) := objectCall .fpgaObjectGetSize value

def fpgaObjectGetType (type : Bool) := objectCall .fpgaObjectGetType type

def fpgaObjectRead64 (value : Bool) := objectCall .fpgaObjectRead64 value

def fpgaObjectWrite64 := objectCall .fpgaObjectWrite64 true

/-- The plugin's answers where it makes an object: `object` is the pointer it stores, `destroyed`
its answer if the object is given back at once. -/
structure ObjectEnv where
  res : FpgaResult
  object : Option Nat
  malloc : Bool
  destroyed : FpgaResult
deriving DecidableEq, Repr

def opaeAllocateWrappedObject (malloc : Bool) (s : Shell) (opaeObject : Option OpaePtr)
    (adapter : Nat) : Option Nat × Shell :=
  if malloc then
    (some s.objects.next, { s with objects := s.objects.alloc ⟨opaeObject, adapter⟩ })
  else (none, s)

/-- The part that the functions which make an object share, for the plugin pointer they start
from. -/
def getObject (fn : ApiFn) (pointers : Bool) (tables : Tables) (env : ObjectEnv) (s : Shell)
    (adapter : Nat) (source : Option OpaePtr) : FpgaResult × Option (Option Nat) × Shell :=
  if !pointers then (.invalidParam, none, s)
  else if !tables adapter fn then (.notSupported, none, s)
  else if !tables adapter .fpgaDestroyObject then (.notSupported, none, s)
  else
    let s := dispatch s adapter fn [source]
    if env.res ≠ .ok then (env.res, none, s)
    else
      let obj := env.object.map fun o => ⟨adapter, o⟩
      match opaeAllocateWrappedObject env.malloc s obj adapter with
      | (none, s) => (.noMemory, some none, dispatch s adapter .fpgaDestroyObject [obj])
      | (some wo, s) => (.ok, some (some wo), s)

def fpgaTokenGetObject (name object : Bool) (tables : Tables) (env : ObjectEnv) (s : Shell)
    (token : Option TokenPtr) : Option (FpgaResult × Option (Option Nat) × Shell) := do
  match ← opaeValidateWrappedToken s token with
  | none => return (.invalidParam, none, s)
  | some (_, wt) =>
    return getObject .fpgaTokenGetObject (name && object) tables env s wt.adapterTable wt.opaeToken

def fpgaHandleGetObject (name object : Bool) (tables : Tables) (env : ObjectEnv) (s : Shell)
    (handle : Option Nat) : Option (FpgaResult × Option (Option Nat) × Shell) := do
  match ← validate s.handles handle with
  | none => return (.invalidParam, none, s)
  | some (_, wh) =>
    return getObject .fpgaHandleGetObject (name && object) tables env s wh.adapterTable
      wh.opaeHandle

def fpgaObjectGetObjectAt (object : Bool) (tables : Tables) (env : ObjectEnv) (s : Shell)
    (parent : Option Nat) : Option (FpgaResult × Option (Option Nat) × Shell) := do
  match ← validate s.objects parent with
  | none => return (.invalidParam, none, s)
  | some (_, wo) =>
    return getObject .fpgaObjectGetObjectAt object tables env s wo.adapterTable wo.opaeObject

def fpgaObjectGetObject (name object : Bool) (tables : Tables) (env : ObjectEnv) (s : Shell)
    (parent : Option Nat) : Option (FpgaResult × Option (Option Nat) × Shell) := do
  match ← validate s.objects parent with
  | none => return (.invalidParam, none, s)
  | some (_, wo) =>
    return getObject .fpgaObjectGetObject (name && object) tables env s wo.adapterTable
      wo.opaeObject

/-- The outer `none` is a `NULL` address of the object. -/
def fpgaDestroyObject (tables : Tables) (res : FpgaResult) (s : Shell)
    (obj : Option (Option Nat)) : Option (FpgaResult × Shell) := do
  match ← validate s.objects obj.join with
  | none => return (.invalidParam, s)
  | some (id, wo) =>
    if !tables wo.adapterTable .fpgaDestroyObject then return (.notSupported, s)
    else
      let s := dispatch s wo.adapterTable .fpgaDestroyObject [wo.opaeObject]
      return (res, { s with objects := s.objects.free id })

def fpgaCreateEventHandle (malloc eventHandle : Bool) (s : Shell) :
    FpgaResult × Option Nat × Shell :=
  if !eventHandle then (.invalidParam, none, s)
  else if !malloc then (.noMemory, none, s)
  else (.ok, some s.eventHandles.next,
    { s with eventHandles := s.eventHandles.alloc ⟨false, none, none⟩ })

/-- To look into the table of an event handle that has none is undefined. -/
def fpgaDestroyEventHandle (tables : Tables) (res : FpgaResult) (s : Shell)
    (eventHandle : Option (Option Nat)) : Option (FpgaResult × Shell) := do
  match ← validate s.eventHandles eventHandle.join with
  | none => return (.invalidParam, s)
  | some (id, we) =>
    if we.created then
      let adapter ← we.adapterTable
      if !tables adapter .fpgaDestroyEventHandle then return (.notSupported, s)
      else if we.opaeEventHandle.isNone then return (.invalidParam, s)
      else
        let s := dispatch s adapter .fpgaDestroyEventHandle [we.opaeEventHandle]
        return (res, { s with eventHandles := s.eventHandles.free id })
    else return (.ok, { s with eventHandles := s.eventHandles.free id })

def fpgaGetOSObjectFromEventHandle (fd : Bool) (tables : Tables) (res : FpgaResult) (s : Shell)
    (eh : Option Nat) : Option (FpgaResult × Shell) := do
  match ← validate s.eventHandles eh with
  | none => return (.invalidParam, s)
  | some (_, we) =>
    if !fd then return (.invalidParam, s)
    else if !we.created then return (.invalidParam, s)
    else if we.opaeEventHandle.isNone then return (.invalidParam, s)
    else
      let adapter ← we.adapterTable
      if !tables adapter .fpgaGetOSObjectFromEventHandle then return (.notSupported, s)
      else return (res, dispatch s adapter .fpgaGetOSObjectFromEventHandle [we.opaeEventHandle])

/-- What the plugin answers to `fpgaCreateEventHandle`, with the pointer that it stores if it
succeeds, and to the call itself. -/
structure EventEnv where
  created : FpgaResult
  object : Option Nat
  res : FpgaResult
deriving DecidableEq, Repr

/-- The plugin's event handle is made when the event handle is registered first. -/
def createOnce (tables : Tables) (env : EventEnv) (s : Shell) (id : Nat)
    (we : OpaeWrappedEventHandle) (adapter : Nat) :
    Except FpgaResult OpaeWrappedEventHandle × Shell :=
  if we.created then (.ok we, s)
  else if !tables adapter .fpgaCreateEventHandle then (.error .notSupported, s)
  else
    let s := dispatch s adapter .fpgaCreateEventHandle []
    if env.created ≠ .ok then (.error env.created, s)
    else
      let we := ⟨true, env.object.map fun o => ⟨adapter, o⟩, some adapter⟩
      (.ok we, { s with eventHandles := s.eventHandles.set id we })

def fpgaRegisterEvent (tables : Tables) (env : EventEnv) (s : Shell)
    (handle eventHandle : Option Nat) : Option (FpgaResult × Shell) := do
  let handle ← validate s.handles handle
  let eventHandle ← validate s.eventHandles eventHandle
  match handle, eventHandle with
  | some (_, wh), some (id, we) =>
    match createOnce tables env s id we wh.adapterTable with
    | (.error res, s) => return (res, s)
    | (.ok we, s) =>
      if we.opaeEventHandle.isNone then return (.invalidParam, s)
      else
        match we.adapterTable with
        | none => return (.invalidParam, s)
        | some adapter =>
          if !tables adapter .fpgaRegisterEvent then return (.notSupported, s)
          else return (env.res,
            dispatch s adapter .fpgaRegisterEvent [wh.opaeHandle, we.opaeEventHandle])
  | _, _ => return (.invalidParam, s)

def fpgaUnregisterEvent (tables : Tables) (res : FpgaResult) (s : Shell)
    (handle eventHandle : Option Nat) : Option (FpgaResult × Shell) := do
  let handle ← validate s.handles handle
  let eventHandle ← validate s.eventHandles eventHandle
  match handle, eventHandle with
  | some (_, wh), some (_, we) =>
    if !we.created then return (.invalidParam, s)
    else if we.opaeEventHandle.isNone then return (.invalidParam, s)
    else
      let adapter ← we.adapterTable
      if !tables adapter .fpgaUnregisterEvent then return (.notSupported, s)
      else return (res,
        dispatch s adapter .fpgaUnregisterEvent [wh.opaeHandle, we.opaeEventHandle])
  | _, _ => return (.invalidParam, s)

def interfaceCall (fn : ApiFn) (tables : Tables) (res : FpgaResult) (s : Shell)
    (fpga : Option Nat) (accelerator : Option TokenPtr) : Option (FpgaResult × Shell) := do
  let fpga ← validate s.handles fpga
  let accelerator ← opaeValidateWrappedToken s accelerator
  match fpga, accelerator with
  | some (_, wh), some (_, wt) =>
    if !tables wh.adapterTable fn then return (.notSupported, s)
    else return (res, dispatch s wh.adapterTable fn [wh.opaeHandle, wt.opaeToken])
  | _, _ => return (.invalidParam, s)

def fpgaAssignToInterface := interfaceCall .fpgaAssignToInterface

def fpgaReleaseFromInterface := interfaceCall .fpgaReleaseFromInterface

end OpaeLibs.OpaeC.Dispatch
