import Mathlib

namespace OpaeLibs.OpaeC.PluginLock

/-- An entry of `adapter_list`, with whether it has the two routines and whether it is freed. -/
structure Adapter where
  id : Nat
  initializeFn : Bool
  finalizeFn : Bool
  freed : Bool

/-- The state of the plugin manager. `depth` is how often the calling thread holds
`adapter_list_lock`. -/
structure Manager where
  depth : Nat
  initialized : Bool
  finalizing : Bool
  pluginCount : Nat
  adapterList : List Adapter
  nextId : Nat

def lock (m : Manager) : Manager := { m with depth := m.depth + 1 }

def unlock (m : Manager) : Manager := { m with depth := m.depth - 1 }

section Adapters

variable (m : Manager) (id : Nat)

/-- `none` is an access to an adapter that is freed. -/
def deref : Option Adapter := m.adapterList.find? fun a => a.id = id && !a.freed

def head : Option Nat := m.adapterList.head?.map Adapter.id

def next : Option (Option Nat) :=
  (deref m id).map fun _ => ((m.adapterList.dropWhile (·.id ≠ id)).drop 1).head?.map Adapter.id

def opaePluginMgrFreeAdapter : Manager :=
  { m with
    adapterList := m.adapterList.map fun a => if a.id = id then { a with freed := true } else a }

/-- The list is gone through to its end. -/
def opaePluginMgrRegisterAdapter (initializeFn finalizeFn : Bool) : Option Manager :=
  if m.adapterList.any Adapter.freed then none
  else
    some { m with
      adapterList := m.adapterList ++ [⟨m.nextId, initializeFn, finalizeFn, false⟩]
      nextId := m.nextId + 1 }

end Adapters

/-- What `opae_plugin_mgr_initialize` finds: the plugins in the configuration file, the errors of
the detection of platforms, and the platforms detected. -/
structure Found where
  parsed : Nat
  detectErrors : Nat
  platformsDetected : Nat

-- A call, with all that becomes of it: what each plugin does that it loads or calls.
mutual

inductive Call
  | init (found : Found) (loads : Loads) (visits : Visits)
  | finalizeAll (dlclose : Nat → Int) (visits : Visits)
  | forEachNull
  | forEach (visits : Visits)

/-- The calls that plugin code makes while it runs. -/
inductive Calls
  | nil
  | cons (call : Call) (rest : Calls)

/-- The plugins that are tried. The code that runs is that of `opae_plugin_configure`. -/
inductive Loads
  | nil
  | fails (calls : Calls) (rest : Loads)
  | registers (calls : Calls) (initializeFn finalizeFn : Bool) (rest : Loads)

/-- The adapters that a loop comes to: one without the routine is skipped, else the routine runs and
returns. -/
inductive Visits
  | nil
  | skip (rest : Visits)
  | visit (calls : Calls) (res : Int) (rest : Visits)

end

def Loads.isNil : Loads → Bool
  | .nil => true
  | _ => false

def Visits.isNil : Visits → Bool
  | .nil => true
  | _ => false

def opaeEnumContinue : Int := 0
def opaeEnumStop : Int := 1

-- `none` is a fault, or that what is told of a call is not what becomes of it.
mutual

def call : Call → Manager → Option (Int × Manager)
  | .init found loads visits, m =>
    let m := lock { m with pluginCount := 0 }
    if m.initialized then
      if loads.isNil && visits.isNil then some (0, unlock m) else none
    else if found.parsed = 0 ∧ found.detectErrors ≠ 0 then
      if loads.isNil && visits.isNil then some (found.detectErrors, unlock m) else none
    else
      match loadPlugins loads 0 { m with pluginCount := found.parsed } with
      | none => none
      | some (errors, m) =>
        if errors ≠ 0 then
          if visits.isNil then some (errors, unlock m) else none
        else
          match opaePluginMgrInitializeAll visits (head m) 0 m with
          | none => none
          | some (errors, m) =>
            let done := errors = 0 ∧ (m.pluginCount ≠ 0 ∨ found.platformsDetected ≠ 0)
            some (errors, unlock { m with initialized := m.initialized || decide done })
  | .finalizeAll dlclose visits, m =>
    let m := lock m
    -- returns with the lock held
    if m.finalizing then if visits.isNil then some (0, m) else none
    else
      match finalizeLoop dlclose visits (head m) 0 { m with finalizing := true } with
      | none => none
      | some (errors, m) =>
        some (errors, unlock { m with
          adapterList := []
          pluginCount := 0
          initialized := false
          finalizing := false })
  | .forEachNull, m => some (opaeEnumStop, m)
  | .forEach visits, m =>
    let m := lock m
    match forEachLoop visits (head m) opaeEnumContinue m with
    | none => none
    | some (res, m) => some (res, unlock m)

def runCalls : Calls → Manager → Option Manager
  | .nil, m => some m
  | .cons c rest, m =>
    match call c m with
    | none => none
    | some (_, m) => runCalls rest m

def loadPlugins : Loads → Nat → Manager → Option (Nat × Manager)
  | .nil, errors, m => some (errors, m)
  | .fails calls rest, errors, m =>
    match runCalls calls m with
    | none => none
    | some m => loadPlugins rest (errors + 1) m
  | .registers calls initializeFn finalizeFn rest, errors, m =>
    match runCalls calls m with
    | none => none
    | some m =>
      match opaePluginMgrRegisterAdapter m initializeFn finalizeFn with
      | none => none
      | some m => loadPlugins rest errors m

def opaePluginMgrInitializeAll : Visits → Option Nat → Nat → Manager → Option (Nat × Manager)
  | .nil, none, errors, m => some (errors, m)
  | .skip rest, some id, errors, m =>
    match deref m id, next m id with
    | some a, some aptr =>
      if a.initializeFn then none else opaePluginMgrInitializeAll rest aptr errors m
    | _, _ => none
  | .visit calls res rest, some id, errors, m =>
    match deref m id with
    | none => none
    | some a =>
      if !a.initializeFn then none
      else
        match runCalls calls m with
        | none => none
        | some m =>
          match next m id with
          | none => none
          | some aptr =>
            opaePluginMgrInitializeAll rest aptr (if res ≠ 0 then errors + 1 else errors) m
  | _, _, _, _ => none

def finalizeLoop (dlclose : Nat → Int) :
    Visits → Option Nat → Nat → Manager → Option (Nat × Manager)
  | .nil, none, errors, m => some (errors, m)
  | .skip rest, some id, errors, m =>
    match deref m id, next m id with
    | some a, some aptr =>
      if a.finalizeFn then none
      else
        finalizeLoop dlclose rest aptr (if dlclose id ≠ 0 then errors + 1 else errors)
          (opaePluginMgrFreeAdapter m id)
    | _, _ => none
  | .visit calls res rest, some id, errors, m =>
    match deref m id with
    | none => none
    | some a =>
      if !a.finalizeFn then none
      else
        match runCalls calls m with
        | none => none
        | some m =>
          match next m id with
          | none => none
          | some aptr =>
            let errors := if res ≠ 0 then errors + 1 else errors
            finalizeLoop dlclose rest aptr (if dlclose id ≠ 0 then errors + 1 else errors)
              (opaePluginMgrFreeAdapter m id)
  | _, _, _, _ => none

def forEachLoop : Visits → Option Nat → Int → Manager → Option (Int × Manager)
  | .nil, none, cbRes, m => some (cbRes, m)
  | .visit calls res rest, some id, _, m =>
    match deref m id with
    | none => none
    | some _ =>
      match runCalls calls m with
      | none => none
      | some m =>
        if res ≠ 0 then if rest.isNil then some (res, m) else none
        else
          match next m id with
          | none => none
          | some aptr => forEachLoop rest aptr res m
  | _, _, _, _ => none

end

end OpaeLibs.OpaeC.PluginLock
