import OpaeLibs.Opaevfio.Irqs
import OpaeLibs.PluginXfpga.Events

namespace OpaeLibs.PluginVfio.Events

open OpaeLibs.Lib.Heap OpaeLibs.OpaeC.Props OpaeLibs.Opaevfio.Irqs
open OpaeLibs.PluginXfpga.Events (FpgaEventType)

structure VfioEventHandle where
  fd : Nat
  flags : UInt32
deriving DecidableEq

/-- Of a handle its device is kept, and of the event handles those that exist. -/
structure Plugin where
  handles : Slots Nat
  eventHandles : Slots VfioEventHandle
  devices : Nat → OpaeVfioDevice

def registerEvent (ioctl : Int) (v : OpaeVfioDevice) (eventType : FpgaEventType)
    (eh : VfioEventHandle) (flags : UInt32) : FpgaResult × VfioEventHandle × OpaeVfioDevice :=
  match eventType with
  | .error => (.notSupported, eh, v)
  | .interrupt =>
    let eh := { eh with flags := flags }
    let (res, v) := opaeVfioIrqEnable ioctl v vfioPciMsixIrqIndex flags eh.fd
    (if res ≠ 0 then .exception else .ok, eh, v)
  | .powerThermal => (.notSupported, eh, v)
  | .unknown => (.exception, eh, v)

def unregisterEvent (ioctl : Int) (v : OpaeVfioDevice) (eventType : FpgaEventType)
    (eh : VfioEventHandle) : FpgaResult × VfioEventHandle × OpaeVfioDevice :=
  match eventType with
  | .error => (.notSupported, eh, v)
  | .interrupt =>
    let (res, v) := opaeVfioIrqDisable ioctl v vfioPciMsixIrqIndex eh.flags
    (if res ≠ 0 then .exception else .ok, eh, v)
  | .powerThermal => (.notSupported, eh, v)
  | .unknown => (.exception, eh, v)

/-- The part that the two calls share. Pointers may be `NULL`; one that is to no handle or event
handle fails the check of the magic number. -/
def eventCall
    (request : OpaeVfioDevice → VfioEventHandle → FpgaResult × VfioEventHandle × OpaeVfioDevice)
    (p : Plugin) (handle eventHandle : Option Nat) : FpgaResult × Plugin :=
  match handle, eventHandle with
  | some handle, some eventHandle =>
    match p.handles.get handle with
    | none => (.invalidParam, p)
    | some device =>
      match p.eventHandles.get eventHandle with
      | none => (.ok, p) -- `res` is what it was initialised with
      | some eh =>
        let (res, eh, v) := request (p.devices device) eh
        (res, { p with
          eventHandles := p.eventHandles.set eventHandle eh
          devices := Function.update p.devices device v })
  | _, _ => (.invalidParam, p)

def vfioFpgaRegisterEvent (ioctl : Int) (p : Plugin) (handle : Option Nat)
    (eventType : FpgaEventType) (eventHandle : Option Nat) (flags : UInt32) :
    FpgaResult × Plugin :=
  eventCall (fun v eh => registerEvent ioctl v eventType eh flags) p handle eventHandle

def vfioFpgaUnregisterEvent (ioctl : Int) (p : Plugin) (handle : Option Nat)
    (eventType : FpgaEventType) (eventHandle : Option Nat) : FpgaResult × Plugin :=
  eventCall (fun v eh => unregisterEvent ioctl v eventType eh) p handle eventHandle

end OpaeLibs.PluginVfio.Events
