import OpaeLibs.Lib.Refs
import OpaeLibs.OpaeC.Props

namespace OpaeLibs.OpaeC.ApiShell

open OpaeLibs.Lib.Heap
open OpaeLibs.OpaeC.Props

/-- The functions of `opae_api_adapter_table` that the shell calls. -/
inductive ApiFn
  | fpgaOpen
  | fpgaClose
  | fpgaReset
  | fpgaGetPropertiesFromHandle
  | fpgaGetProperties
  | fpgaUpdateProperties
  | fpgaWriteMMIO64
  | fpgaReadMMIO64
  | fpgaWriteMMIO32
  | fpgaReadMMIO32
  | fpgaWriteMMIO512
  | fpgaMapMmio
  | fpgaUnmapMmio
  | fpgaEnumerate
  | fpgaCloneToken
  | fpgaDestroyToken
  | fpgaPrepareBuffer
  | fpgaReleaseBuffer
  | fpgaGetIOAddress
  | fpgaReadError
  | fpgaClearError
  | fpgaClearAllErrors
  | fpgaGetErrorInfo
  | fpgaCreateEventHandle
  | fpgaDestroyEventHandle
  | fpgaGetOSObjectFromEventHandle
  | fpgaRegisterEvent
  | fpgaUnregisterEvent
  | fpgaAssignPortToInterface
  | fpgaAssignToInterface
  | fpgaReleaseFromInterface
  | fpgaReconfigureSlot
  | fpgaTokenGetObject
  | fpgaHandleGetObject
  | fpgaObjectGetObject
  | fpgaObjectGetObjectAt
  | fpgaDestroyObject
  | fpgaObjectRead
  | fpgaObjectRead64
  | fpgaObjectGetSize
  | fpgaObjectGetType
  | fpgaObjectWrite64
  | fpgaSetUserClock
  | fpgaGetUserClock
  | fpgaGetNumMetrics
  | fpgaGetMetricsInfo
  | fpgaGetMetricsByIndex
  | fpgaGetMetricsByName
  | fpgaGetMetricsThresholdInfo
deriving DecidableEq, Repr

/-- The adapters' tables: which entries are not `NULL`. -/
abbrev Tables := Nat → ApiFn → Bool

/-- A plugin's own pointer, with the adapter it came from. The shell does not see that origin. -/
structure OpaePtr where
  adapter : Nat
  ptr : Nat
deriving DecidableEq, Repr

/-- An `fpga_token` points to a wrapper or is a plugin's own. -/
inductive TokenPtr
  | wrapped (id : Nat)
  | opae (p : OpaePtr)
deriving DecidableEq, Repr

structure OpaeWrappedToken where
  opaeToken : Option OpaePtr
  refCount : UInt32
  adapterTable : Nat
deriving DecidableEq, Repr

structure OpaeWrappedHandle where
  wrappedToken : Nat
  opaeHandle : Option OpaePtr
  adapterTable : Nat
deriving DecidableEq, Repr

/-- `created` is the flag `OPAE_WRAPPED_EVENT_HANDLE_CREATED`. -/
structure OpaeWrappedEventHandle where
  created : Bool
  opaeEventHandle : Option OpaePtr
  adapterTable : Option Nat
deriving DecidableEq, Repr

structure OpaeWrappedObject where
  opaeObject : Option OpaePtr
  adapterTable : Nat
deriving DecidableEq, Repr

structure Dispatch where
  adapter : Nat
  fn : ApiFn
  args : List (Option OpaePtr)
deriving DecidableEq, Repr

structure Shell where
  tokens : Slots OpaeWrappedToken
  /-- From `token_list_head.next` on. -/
  tokenList : List Nat
  handles : Slots OpaeWrappedHandle
  eventHandles : Slots OpaeWrappedEventHandle
  objects : Slots OpaeWrappedObject
  props : Slots (FpgaProperties TokenPtr)
  log : List Dispatch
deriving DecidableEq, Repr

def start : Shell := ⟨.empty, [], .empty, .empty, .empty, .empty, []⟩

def dispatch (s : Shell) (adapter : Nat) (fn : ApiFn) (args : List (Option OpaePtr)) : Shell :=
  { s with log := s.log ++ [⟨adapter, fn, args⟩] }

section

variable (s : Shell) (adapter : Nat) (fn : ApiFn) (args : List (Option OpaePtr))

@[simp] theorem dispatch_tokens : (dispatch s adapter fn args).tokens = s.tokens := rfl

@[simp] theorem dispatch_tokenList : (dispatch s adapter fn args).tokenList = s.tokenList := rfl

@[simp] theorem dispatch_handles : (dispatch s adapter fn args).handles = s.handles := rfl

@[simp] theorem dispatch_props : (dispatch s adapter fn args).props = s.props := rfl

end

/-- The `opae_validate_*` functions: `NULL` is turned down, and so is a plugin's pointer, which has
no magic number of the shell's. To read the magic number of a freed object is undefined, which is
what the outer `none` stands for, here and in all that follows. -/
def validate {α : Type} (objects : Slots α) (id : Option Nat) : Option (Option (Nat × α)) :=
  match id with
  | none => some none
  | some id => (objects.get id).map fun a => some (id, a)

def opaeValidateWrappedToken (s : Shell) (t : Option TokenPtr) :
    Option (Option (Nat × OpaeWrappedToken)) :=
  match t with
  | some (.wrapped id) => validate s.tokens (some id)
  | _ => some none

def opaeUprefWrappedToken (s : Shell) (id : Nat) : Option Shell := do
  let wt ← s.tokens.get id
  let wt := { wt with refCount := wt.refCount + 1 }
  let s := { s with tokens := s.tokens.set id wt }
  if wt.refCount = 1 then return { s with tokenList := id :: s.tokenList } else return s

/-- `destroyed` is the plugin's answer, should its `fpgaDestroyToken` be called. -/
def opaeDownrefWrappedToken (tables : Tables) (destroyed : FpgaResult) (s : Shell) (id : Nat) :
    Option (FpgaResult × Shell) := do
  let wt ← s.tokens.get id
  let wt := { wt with refCount := wt.refCount - 1 }
  if wt.refCount = 0 then
    let s := { s with tokenList := s.tokenList.erase id, tokens := s.tokens.free id }
    if tables wt.adapterTable .fpgaDestroyToken then
      return (destroyed, dispatch s wt.adapterTable .fpgaDestroyToken [wt.opaeToken])
    else return (.notSupported, s)
  else return (.ok, { s with tokens := s.tokens.set id wt })

def opaeDestroyWrappedToken := opaeDownrefWrappedToken

def opaeAllocateWrappedToken (malloc : Bool) (s : Shell) (token : Option OpaePtr) (adapter : Nat) :
    Option (Option Nat × Shell) :=
  if malloc then do
    let id := s.tokens.next
    let s ← opaeUprefWrappedToken { s with tokens := s.tokens.alloc ⟨token, 0, adapter⟩ } id
    return (some id, s)
  else return (none, s)

def opaeAllocateWrappedHandle (malloc : Bool) (s : Shell) (wt : Nat) (opaeHandle : Option OpaePtr)
    (adapter : Nat) : Option (Option Nat × Shell) :=
  if malloc then do
    let id := s.handles.next
    let s ← opaeUprefWrappedToken
      { s with handles := s.handles.alloc ⟨wt, opaeHandle, adapter⟩ } wt
    return (some id, s)
  else return (none, s)

def opaeDestroyWrappedHandle (tables : Tables) (destroyed : FpgaResult) (s : Shell) (id : Nat)
    (h : OpaeWrappedHandle) : Option Shell := do
  let (_, s) ← opaeDownrefWrappedToken tables destroyed s h.wrappedToken
  return { s with handles := s.handles.free id }

/-- The answers and allocations in the search for a parent: `candidates` gives the update of each
token on the list. The two properties objects live only inside the function. -/
structure ParentEnv where
  childProps : Bool
  parentProps : Bool
  lock : Bool
  child : FpgaResult × FpgaProperties OpaePtr
  candidates : Nat → FpgaResult × FpgaProperties OpaePtr

/-- Segment, bus, device and type, if all four getters succeed. -/
def addressAndType (p : FpgaProperties OpaePtr) :
    Option ((UInt16 × UInt8 × UInt8) × FpgaObjtype) :=
  match fpgaPropertiesGetSegment p, fpgaPropertiesGetBus p, fpgaPropertiesGetDevice p,
      fpgaPropertiesGetObjectType p with
  | .ok segment, .ok bus, .ok device, .ok objtype => some ((segment, bus, device), objtype)
  | _, _, _, _ => none

/-- The loop over the token list, up to the first device at the child's address. -/
def findParent (tables : Tables) (env : ParentEnv) (address : UInt16 × UInt8 × UInt8) (s : Shell) :
    List Nat → Option (Option Nat × Shell)
  | [] => some (none, s)
  | p :: rest => do
    let wt ← s.tokens.get p
    if !tables wt.adapterTable .fpgaUpdateProperties then findParent tables env address s rest
    else
      let s := dispatch s wt.adapterTable .fpgaUpdateProperties [wt.opaeToken]
      match env.candidates p with
      | (.ok, props) =>
        if addressAndType props = some (address, .device) then
          let s ← opaeUprefWrappedToken s p
          return (some p, s)
        else findParent tables env address s rest
      | _ => return (none, s)

def opaeGetParentToken (tables : Tables) (env : ParentEnv) (s : Shell) (child : Nat) :
    Option (Option Nat × Shell) := do
  let wt ← s.tokens.get child
  if !tables wt.adapterTable .fpgaUpdateProperties then return (none, s)
  else if !env.childProps || !env.parentProps then return (none, s)
  else
    let s := dispatch s wt.adapterTable .fpgaUpdateProperties [wt.opaeToken]
    match env.child with
    | (.ok, props) =>
      match addressAndType props with
      | some (address, .accelerator) =>
        if env.lock then findParent tables env address s s.tokenList else return (none, s)
      | _ => return (none, s)
    | _ => return (none, s)

end OpaeLibs.OpaeC.ApiShell
