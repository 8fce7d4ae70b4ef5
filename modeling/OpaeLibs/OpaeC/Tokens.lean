import OpaeLibs.OpaeC.ApiShell

namespace OpaeLibs.OpaeC.Tokens

open OpaeLibs.Lib.Heap
open OpaeLibs.OpaeC.Props OpaeLibs.OpaeC.ApiShell

/-- The answers of the plugin and of `malloc` that a call of the shell may ask for. `object` is the
pointer the plugin stores, `destroyed` what its `fpgaDestroyToken` or `fpgaClose` returns. -/
structure CallEnv where
  res : FpgaResult
  object : Option Nat
  malloc : Bool
  destroyed : FpgaResult
deriving DecidableEq, Repr

/-- The result, what is stored through the pointer argument if anything is, and the shell. -/
abbrev Stored := FpgaResult × Option (Option Nat) × Shell

def fpgaOpen (tables : Tables) (env : CallEnv) (s : Shell) (token : Option TokenPtr)
    (handle : Bool) : Option Stored := do
  match ← opaeValidateWrappedToken s token with
  | none => return (.invalidParam, none, s)
  | some (id, wt) =>
    if !handle then return (.invalidParam, none, s)
    else if !tables wt.adapterTable .fpgaOpen then return (.notSupported, none, s)
    else if !tables wt.adapterTable .fpgaClose then return (.notSupported, none, s)
    else
      let s := dispatch s wt.adapterTable .fpgaOpen [wt.opaeToken]
      if env.res ≠ .ok then return (env.res, none, s)
      else
        let opaeHandle := env.object.map fun h => ⟨wt.adapterTable, h⟩
        match ← opaeAllocateWrappedHandle env.malloc s id opaeHandle wt.adapterTable with
        | (none, s) =>
          return (.noMemory, some none, dispatch s wt.adapterTable .fpgaClose [opaeHandle])
        | (some wh, s) => return (.ok, some (some wh), s)

def fpgaClose (tables : Tables) (env : CallEnv) (s : Shell) (handle : Option Nat) :
    Option (FpgaResult × Shell) := do
  match ← validate s.handles handle with
  | none => return (.invalidParam, s)
  | some (id, wh) =>
    if !tables wh.adapterTable .fpgaClose then return (.notSupported, s)
    else
      let s := dispatch s wh.adapterTable .fpgaClose [wh.opaeHandle]
      let s ← opaeDestroyWrappedHandle tables env.destroyed s id wh
      return (env.res, s)

def fpgaCloneToken (tables : Tables) (env : CallEnv) (s : Shell) (src : Option TokenPtr)
    (dst : Bool) : Option Stored := do
  match ← opaeValidateWrappedToken s src with
  | none => return (.invalidParam, none, s)
  | some (_, wt) =>
    if !dst then return (.invalidParam, none, s)
    else if !tables wt.adapterTable .fpgaCloneToken then return (.notSupported, none, s)
    else if !tables wt.adapterTable .fpgaDestroyToken then return (.notSupported, none, s)
    else
      let s := dispatch s wt.adapterTable .fpgaCloneToken [wt.opaeToken]
      if env.res ≠ .ok then return (env.res, none, s)
      else
        let clonedToken := env.object.map fun t => ⟨wt.adapterTable, t⟩
        match ← opaeAllocateWrappedToken env.malloc s clonedToken wt.adapterTable with
        | (none, s) =>
          return (.noMemory, some none,
            dispatch s wt.adapterTable .fpgaDestroyToken [clonedToken])
        | (some id, s) => return (.ok, some (some id), s)

/-- The outer `none` is a `NULL` address of the token. -/
def fpgaDestroyToken (tables : Tables) (env : CallEnv) (s : Shell)
    (token : Option (Option TokenPtr)) : Option (FpgaResult × Shell) :=
  match token with
  | none => some (.invalidParam, s)
  | some token => do
    match ← opaeValidateWrappedToken s token with
    | none => return (.invalidParam, s)
    | some (id, _) => opaeDestroyWrappedToken tables env.destroyed s id

/-- What the functions that overwrite a properties object's parent, and the one that destroys the
object, do with the old parent. -/
def releaseParent (tables : Tables) (env : CallEnv) (s : Shell) (p : FpgaProperties TokenPtr) :
    Option Shell := do
  if fieldValid p fpgaPropertyParent then
    match ← opaeValidateWrappedToken s p.parent with
    | none => return s
    | some (id, _) =>
      let (_, s) ← opaeDestroyWrappedToken tables env.destroyed s id
      return s
  else return s

def fpgaDestroyProperties (tables : Tables) (env : CallEnv) (s : Shell)
    (prop : Option (Option Nat)) : Option (FpgaResult × Shell) :=
  match prop with
  | none => some (.invalidParam, s)
  | some prop => do
    match ← validate s.props prop with
    | none => return (.invalidParam, s)
    | some (id, p) =>
      let s ← releaseParent tables env s p
      return (.ok, { s with props := s.props.free id })

/-- `env.malloc` is the outcome of `opae_properties_create`. -/
def fpgaCloneProperties (env : CallEnv) (s : Shell) (src : Option Nat) (dst : Bool) :
    Option Stored :=
  if !dst then some (.invalidParam, none, s)
  else do
    match ← validate s.props src with
    | none => return (.invalidParam, none, s)
    | some (_, p) =>
      if !env.malloc then return (.exception, none, s)
      else
        let clone := s.props.next
        let s := { s with props := s.props.alloc p }
        if fieldValid p fpgaPropertyParent then
          match ← opaeValidateWrappedToken s p.parent with
          | none => return (.ok, some (some clone), s)
          | some (id, _) =>
            let s ← opaeUprefWrappedToken s id
            return (.ok, some (some clone), s)
        else return (.ok, some (some clone), s)

def fpgaClearProperties (tables : Tables) (env : CallEnv) (s : Shell) (props : Option Nat) :
    Option (FpgaResult × Shell) := do
  match ← validate s.props props with
  | none => return (.invalidParam, s)
  | some (id, p) =>
    if fieldValid p fpgaPropertyParent then
      match ← opaeValidateWrappedToken s p.parent with
      | none => return (.ok, { s with props := s.props.set id (clearProperties false p) })
      | some (t, _) =>
        let (_, s) ← opaeDownrefWrappedToken tables env.destroyed s t
        return (.ok, { s with props := s.props.set id (clearProperties true p) })
    else return (.ok, { s with props := s.props.set id (clearProperties false p) })

def fpgaPropertiesGetParent (s : Shell) (prop : Option Nat) (parent : Bool) :
    Option (FpgaResult × Option (Option TokenPtr)) :=
  if !parent then some (.invalidParam, none)
  else do
    match ← validate s.props prop with
    | none => return (.invalidParam, none)
    | some (_, p) =>
      match Props.fpgaPropertiesGetParent p with
      | .ok parent => return (.ok, some parent)
      | .error res => return (res, none)

def fpgaPropertiesSetParent (tables : Tables) (env : CallEnv) (s : Shell) (prop : Option Nat)
    (parent : Option TokenPtr) : Option (FpgaResult × Shell) :=
  match parent with
  | none => some (.invalidParam, s)
  | some parent => do
    match ← validate s.props prop with
    | none => return (.invalidParam, s)
    | some (id, p) =>
      let s ← releaseParent tables env s p
      let s ← match ← opaeValidateWrappedToken s (some parent) with
        | none => pure s
        | some (t, _) => opaeUprefWrappedToken s t
      return (.ok, { s with props := s.props.set id (storeParent p parent) })

/-- The plugin's answers for a properties object: `props` is the object as the plugin leaves it.
`none` is an invalid object where the plugin makes a new one, and an untouched one where it is given
one. -/
structure PropertiesEnv where
  res : FpgaResult
  props : Option (FpgaProperties OpaePtr)
  create : Bool
  destroyed : FpgaResult
  parent : ParentEnv

/-- A plugin's properties object as the shell sees it. -/
def fromPlugin (q : FpgaProperties OpaePtr) : FpgaProperties TokenPtr :=
  ⟨q.validFields, q.guid, q.parent.map .opae, q.objtype, q.segment, q.bus, q.device, q.function,
    q.socketId, q.objectId, q.vendorId, q.deviceId, q.numErrors, q.u⟩

/-- The end of the functions below: the object `q` at `prop` gets the parent of `token`. -/
def storeParentToken (tables : Tables) (env : PropertiesEnv) (s : Shell) (token prop : Nat)
    (q : FpgaProperties TokenPtr) : Option Shell := do
  let (parent, s) ← opaeGetParentToken tables env.parent s token
  return { s with props := s.props.set prop (takeParent (parent.map .wrapped) q) }

/-- The end of `fpgaGetPropertiesFromHandle` and of `fpgaGetProperties`. -/
def receiveProperties (tables : Tables) (env : PropertiesEnv) (s : Shell) (token : Nat) :
    Option Stored :=
  if env.res ≠ .ok then some (env.res, none, s)
  else
    match env.props with
    | none => some (.invalidParam, none, s)
    | some q => do
      let prop := s.props.next
      let s := { s with props := s.props.alloc (fromPlugin q) }
      let s ← storeParentToken tables env s token prop (fromPlugin q)
      return (.ok, some (some prop), s)

def fpgaGetPropertiesFromHandle (tables : Tables) (env : PropertiesEnv) (s : Shell)
    (handle : Option Nat) (prop : Bool) : Option Stored := do
  match ← validate s.handles handle with
  | none => return (.invalidParam, none, s)
  | some (_, wh) =>
    if !prop then return (.invalidParam, none, s)
    else if !tables wh.adapterTable .fpgaGetPropertiesFromHandle then
      return (.notSupported, none, s)
    else
      let s := dispatch s wh.adapterTable .fpgaGetPropertiesFromHandle [wh.opaeHandle]
      receiveProperties tables env s wh.wrappedToken

def fpgaGetProperties (tables : Tables) (env : PropertiesEnv) (s : Shell)
    (token : Option TokenPtr) (prop : Bool) : Option Stored := do
  let wrapped ← opaeValidateWrappedToken s token
  if !prop then return (.invalidParam, none, s)
  else if token.isNone then
    if !env.create then return (.noMemory, none, s)
    else return (.ok, some (some s.props.next),
      { s with props := s.props.alloc opaePropertiesCreate })
  else
    match wrapped with
    | none => return (.invalidParam, none, s)
    | some (id, wt) =>
      if !tables wt.adapterTable .fpgaGetProperties then return (.notSupported, none, s)
      else
        let s := dispatch s wt.adapterTable .fpgaGetProperties [wt.opaeToken]
        receiveProperties tables env s id

/-- The plugin's update starts from the object without its parent. It runs for the token looked up
before the parent was given up. -/
def fpgaUpdateProperties (tables : Tables) (env : PropertiesEnv) (s : Shell)
    (token : Option TokenPtr) (prop : Option Nat) : Option (FpgaResult × Shell) := do
  match ← opaeValidateWrappedToken s token with
  | none => return (.invalidParam, s)
  | some (t, wt) =>
    if !tables wt.adapterTable .fpgaUpdateProperties then return (.notSupported, s)
    else
      match ← validate s.props prop with
      | none => return (.invalidParam, s)
      | some (id, p) =>
        let s ← releaseParent tables ⟨.ok, none, true, env.destroyed⟩ s p
        let wt ← s.tokens.get t
        let s := dispatch s wt.adapterTable .fpgaUpdateProperties [wt.opaeToken]
        let q := (env.props.map fromPlugin).getD (dropParent p)
        let s := { s with props := s.props.set id q }
        if env.res ≠ .ok then return (env.res, s)
        else
          let s ← storeParentToken tables env s t id q
          return (.ok, s)

end OpaeLibs.OpaeC.Tokens
