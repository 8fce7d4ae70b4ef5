import OpaeLibs.Lib.Heap
import OpaeLibs.OpaeC.Props

namespace OpaeLibs.PluginXfpga.Events

open OpaeLibs.Lib.Heap
open OpaeLibs.OpaeC.Props

/-- `unknown` is any number that names no event. -/
inductive FpgaEventType
  | interrupt
  | error
  | powerThermal
  | unknown
deriving DecidableEq, Repr

inductive IrqOperation
  | assign
  | deassign
deriving DecidableEq, Repr

structure FpgaToken where
  magic : Bool
  devpath : List Char
deriving DecidableEq, Repr

structure FpgaHandle where
  token : FpgaToken
  fdfpgad : Option Nat
  numIrqs : UInt32
  irqSet : BitVec 32
deriving DecidableEq, Repr

structure FpgaEventHandle where
  fd : Nat
  flags : UInt32
deriving DecidableEq, Repr

/-- What the driver holds of a device: the eventfds of its user interrupts and of its error
interrupts. -/
structure Device where
  userIrq : Nat → Option Nat
  fmeErrIrq : Option Nat
  portErrIrq : Option Nat

/-- A handle's device file is named by the path that was opened. -/
abbrev Driver := List Char → Device

structure Plugin where
  handles : Slots FpgaHandle
  eventHandles : Slots FpgaEventHandle
  driver : Driver

structure IrqNum where
  res : FpgaResult
  numIrqs : UInt32
deriving DecidableEq, Repr

structure PropsEnv where
  props : Except FpgaError (FpgaProperties Nat)
  destroyed : FpgaResult

/-- No `socket` is one that could not be made. -/
structure DaemonEnv where
  socket : Option Nat
  connect : Bool
  props : PropsEnv
  send : Bool

structure EventEnv where
  uninit : FpgaObjtype
  props : PropsEnv
  supported : IrqNum
  irqNum : IrqNum
  setIrq : FpgaResult
  daemon : DaemonEnv

structure Ends where
  handle : FpgaHandle
  eventHandle : FpgaEventHandle
  driver : Driver

def Ends.withDevice (x : Ends) (change : Device → Device) : Ends :=
  let devpath := x.handle.token.devpath
  { x with driver := Function.update x.driver devpath (change (x.driver devpath)) }

/-- A request that the driver turns down changes nothing. No `evtfd` is a negative one. -/
def opaeDflPortSetUserIrq (res : FpgaResult) (start : UInt32) (evtfd : Option Nat) (x : Ends) :
    FpgaResult × Ends :=
  if res = .ok then
    (.ok, x.withDevice fun d => { d with userIrq := Function.update d.userIrq start.toNat evtfd })
  else (res, x)

def opaeDflPortSetErrIrq (res : FpgaResult) (evtfd : Option Nat) (x : Ends) : FpgaResult × Ends :=
  if res = .ok then (.ok, x.withDevice fun d => { d with portErrIrq := evtfd }) else (res, x)

def opaeDflFmeSetErrIrq (res : FpgaResult) (evtfd : Option Nat) (x : Ends) : FpgaResult × Ends :=
  if res = .ok then (.ok, x.withDevice fun d => { d with fmeErrIrq := evtfd }) else (res, x)

/-- Both operations pass the event handle's file descriptor. -/
def sendErrEventRequest (setErrIrq : FpgaResult → Option Nat → Ends → FpgaResult × Ends)
    (env : EventEnv) (x : Ends) : FpgaResult × Ends :=
  if env.irqNum.res ≠ .ok then (env.irqNum.res, x)
  else if env.irqNum.numIrqs > 0 then setErrIrq env.setIrq (some x.eventHandle.fd) x
  else (.notSupported, x)

def sendFmeEventRequest (env : EventEnv) (_ : IrqOperation) := sendErrEventRequest
  opaeDflFmeSetErrIrq env

def sendPortEventRequest (env : EventEnv) (_ : IrqOperation) := sendErrEventRequest
  opaeDflPortSetErrIrq env

/-- `1 << flags`, which C leaves undefined from the width of an `int` on: that is the `none` here
and below. -/
def shiftOne (flags : UInt32) : Option (BitVec 32) :=
  if flags < 32 then some (1#32 <<< flags.toNat) else none

/-- The number of user interrupts is asked for once. -/
def queryNumIrqs (env : EventEnv) (h : FpgaHandle) : Except FpgaResult FpgaHandle :=
  if h.numIrqs = 0 then
    if env.irqNum.res ≠ .ok then .error env.irqNum.res
    else if env.irqNum.numIrqs = 0 then .error .notSupported
    else .ok { h with numIrqs := env.irqNum.numIrqs }
  else .ok h

/-- The ioctl comes last: the mask and the event handle have changed by then. -/
def setUserIrq (env : EventEnv) (flags : UInt32) (data : Option Nat) (x : Ends) :
    FpgaResult × Ends :=
  let (res, x) := opaeDflPortSetUserIrq env.setIrq flags data x
  (if res ≠ .ok then .exception else .ok, x)

def sendUafuEventRequest (env : EventEnv) (op : IrqOperation) (flags : UInt32) (x : Ends) :
    Option (FpgaResult × Ends) :=
  match queryNumIrqs env x.handle with
  | .error res => some (res, x)
  | .ok h =>
    let x := { x with handle := h }
    match op with
    | .assign => do
      if flags ≥ h.numIrqs then return (.invalidParam, x)
      else
        let mask ← shiftOne flags
        if h.irqSet &&& mask ≠ 0 then return (.invalidParam, x)
        else
          let x := { x with
            handle := { h with irqSet := h.irqSet ||| mask }
            eventHandle := { x.eventHandle with flags := flags } }
          return setUserIrq env flags (some x.eventHandle.fd) x
    | .deassign => do
      let flags := x.eventHandle.flags
      let mask ← shiftOne flags
      if h.irqSet &&& mask = 0 then return (.invalidParam, x)
      else
        let x := { x with handle := { h with irqSet := h.irqSet &&& ~~~mask } }
        return setUserIrq env flags none x

/-- The part that the two checks of the handle's type share: `support` is the verdict on the type
once it is known. -/
def checkSupported (env : EventEnv) (support : FpgaObjtype → FpgaResult) :
    FpgaResult × FpgaObjtype :=
  match env.props.props with
  | .error res => (res.1, env.uninit)
  | .ok prop =>
    let (res, objtype) := match fpgaPropertiesGetObjectType prop with
      | .error res => (res, env.uninit)
      | .ok objtype => (support objtype, objtype)
    (if env.props.destroyed ≠ .ok then env.props.destroyed else res, objtype)

def irqsSupported (env : EventEnv) : FpgaResult :=
  if env.supported.res ≠ .ok then env.supported.res
  else if env.supported.numIrqs > 0 then .ok
  else .notSupported

def checkUserInterruptsSupported (env : EventEnv) : FpgaResult × FpgaObjtype :=
  checkSupported env fun
    | .device => .notSupported
    | .accelerator => irqsSupported env

/-- The management engine and the port each have a request of their own for the number. -/
def checkErrInterruptsSupported (env : EventEnv) : FpgaResult × FpgaObjtype :=
  checkSupported env fun
    | .device => irqsSupported env
    | .accelerator => irqsSupported env

/-- `driver_register_event` and `driver_unregister_event` differ in the operation, and in the flags
of a request on a user interrupt. -/
def driverEvent (op : IrqOperation) (env : EventEnv) (eventType : FpgaEventType) (flags : UInt32)
    (x : Ends) : Option (FpgaResult × Ends) :=
  match eventType with
  | .error =>
    match checkErrInterruptsSupported env with
    | (.ok, .device) => some (sendFmeEventRequest env op x)
    | (.ok, .accelerator) => some (sendPortEventRequest env op x)
    | _ => some (.notSupported, x)
  | .interrupt =>
    let (res, objtype) := checkUserInterruptsSupported env
    if objtype ≠ .accelerator then some (.invalidParam, x)
    else if res ≠ .ok then some (.notSupported, x)
    else sendUafuEventRequest env op flags x
  | .powerThermal => some (.notSupported, x)
  | .unknown => some (.exception, x)

def driverRegisterEvent := driverEvent .assign

def driverUnregisterEvent (env : EventEnv) (eventType : FpgaEventType) (x : Ends) :=
  driverEvent .deassign env eventType 0 x

/-- The request to the daemon names the handle's object by its ID. -/
def requestDaemon (env : DaemonEnv) (h : FpgaHandle) : FpgaResult × FpgaHandle :=
  let closed := { h with fdfpgad := none }
  match env.props.props with
  | .error res => (res.1, closed)
  | .ok prop =>
    match fpgaPropertiesGetObjectID prop with
    | .error res => (res, closed)
    | .ok _ =>
      if env.props.destroyed ≠ .ok then (env.props.destroyed, closed)
      else if !env.send then (.exception, closed)
      else (.ok, h)

def daemonRegisterEvent (env : DaemonEnv) (h : FpgaHandle) : FpgaResult × FpgaHandle :=
  match h.fdfpgad with
  | some _ => requestDaemon env h
  | none =>
    match env.socket with
    | none => (.exception, h)
    | some fd =>
      if !env.connect then (.noDaemon, h) else requestDaemon env { h with fdfpgad := some fd }

def daemonUnregisterEvent (env : DaemonEnv) (h : FpgaHandle) : FpgaResult × FpgaHandle :=
  match h.fdfpgad with
  | none => (.invalidParam, h)
  | some _ => requestDaemon env h

/-- `handle_check_and_lock` and `event_handle_check_and_lock`; a pointer that is not to an object of
the plugin is turned down like `NULL`. -/
def checkAndLock {α : Type} (objects : Slots α) (id : Option Nat) : Option (Nat × α) :=
  id.bind fun id => (objects.get id).map fun a => (id, a)

/-- The part that the two calls share: `driver` and `daemon` are the requests they make. -/
def eventCall (driver : Ends → Option (FpgaResult × Ends))
    (daemon : FpgaHandle → FpgaResult × FpgaHandle) (s : Plugin) (handle : Option Nat)
    (eventType : FpgaEventType) (eventHandle : Option Nat) : Option (FpgaResult × Plugin) :=
  match checkAndLock s.handles handle, checkAndLock s.eventHandles eventHandle with
  | some (handle, h), some (eventHandle, eh) => do
    if !h.token.magic then return (.invalidParam, s)
    else if eventType = .interrupt ∧ ¬['p', 'o', 'r', 't'] <:+: h.token.devpath then
      return (.invalidParam, s)
    else
      let (res, x) ← driver ⟨h, eh, s.driver⟩
      let (res, h) := if res = .notSupported then daemon x.handle else (res, x.handle)
      return (res, ⟨s.handles.set handle h, s.eventHandles.set eventHandle x.eventHandle, x.driver⟩)
  | _, _ => some (.invalidParam, s)

def fpgaRegisterEvent (env : EventEnv) (s : Plugin) (handle : Option Nat)
    (eventType : FpgaEventType) (eventHandle : Option Nat) (flags : UInt32) :
    Option (FpgaResult × Plugin) :=
  eventCall (driverRegisterEvent env eventType flags) (daemonRegisterEvent env.daemon) s handle
    eventType eventHandle

def fpgaUnregisterEvent (env : EventEnv) (s : Plugin) (handle : Option Nat)
    (eventType : FpgaEventType) (eventHandle : Option Nat) : Option (FpgaResult × Plugin) :=
  eventCall (driverUnregisterEvent env eventType) (daemonUnregisterEvent env.daemon) s handle
    eventType eventHandle

end OpaeLibs.PluginXfpga.Events
