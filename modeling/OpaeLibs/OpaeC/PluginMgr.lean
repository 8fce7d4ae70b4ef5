import Mathlib

namespace OpaeLibs.OpaeC.PluginMgr

/-- A row of `platform_data_table`, with its two flags apart. -/
structure PlatformData where
  vendorId : UInt16
  deviceId : UInt16
  nativePlugin : String
  detected : Bool
  loaded : Bool
deriving DecidableEq, Repr

/-- An entry of `opae_plugin_mgr_config_list`. `process_plugin` never stores a `NULL` or an empty
`cfg`, so the check of `load_cfg_plugin` is the one of `enabled`. -/
structure PluginCfg where
  name : String
  plugin : String
  cfg : String
  enabled : Bool
deriving DecidableEq, Repr

/-- An entry of `adapter_list`. `initializeFn` takes the number of its earlier calls to its result;
`initializeCalls` counts them and is not in the code. -/
structure Adapter where
  path : String
  initializeFn : Option (Nat → Int)
  finalizeFn : Option Int
  initializeCalls : Nat

/-- What becomes of a library: `alloc_adapter` fails, `configure_plugin` fails, or the plugin
fills its adapter in. -/
inductive LoadOutcome where
  | notLoaded
  | notConfigured
  | configured (initializeFn : Option (Nat → Int)) (finalizeFn : Option Int)

/-- What `opae_plugin_mgr_detect_platforms` reads under `/sys/bus/pci/devices`, and whether it
gives up there. -/
structure Scan where
  devices : List (UInt32 × UInt32)
  aborted : Bool

/-- What one call meets: the entries that `parse_config` finds, the scan, and the outcome of each
load, told apart by its place in the list or the table. -/
structure Outcomes where
  parsed : List PluginCfg
  scan : Scan
  load : Nat → String → String → LoadOutcome

structure Manager where
  adapterList : List Adapter
  configList : List PluginCfg
  pluginCount : Nat
  platformDataTable : List PlatformData
  initialized : Bool

def opaePluginMgrAddPlugin (m : Manager) (cfg : PluginCfg) : Manager :=
  { m with configList := m.configList ++ [cfg], pluginCount := m.pluginCount + 1 }

def opaePluginMgrResetCfg (m : Manager) : Manager := { m with configList := [], pluginCount := 0 }

def opaePluginMgrRegisterAdapter (adapterList : List Adapter) (adapter : Adapter) :
    List Adapter :=
  adapterList ++ [adapter]

section Configured

variable (load : Nat → String → String → LoadOutcome)

/-- The errors and the new adapter list. -/
def opaePluginMgrLoadCfgPlugin (i : Nat) (cfg : PluginCfg) (adapterList : List Adapter) :
    Nat × List Adapter :=
  if cfg.enabled then
    match load i cfg.plugin cfg.cfg with
    | .notLoaded => (1, adapterList)
    | .notConfigured => (1, adapterList)
    | .configured initializeFn finalizeFn =>
      (0, opaePluginMgrRegisterAdapter adapterList ⟨cfg.plugin, initializeFn, finalizeFn, 0⟩)
  else (0, adapterList)

def loadCfgs : Nat → List PluginCfg → Nat × List Adapter → Nat × List Adapter
  | _, [], found => found
  | i, cfg :: rest, found =>
    let (errors, adapterList) := opaePluginMgrLoadCfgPlugin load i cfg found.2
    loadCfgs (i + 1) rest (found.1 + errors, adapterList)

def opaePluginMgrLoadCfgPlugins (m : Manager) : Nat × Manager :=
  let (errors, adapterList) := loadCfgs load 0 m.configList (0, m.adapterList)
  (errors, { m with adapterList := adapterList })

end Configured

section Native

def opaePluginMgrDetectPlatform (vendor device : UInt16) (table : List PlatformData) :
    List PlatformData :=
  table.map fun row =>
    if row.vendorId = vendor ∧ row.deviceId = device then { row with detected := true } else row

def opaePluginMgrDetectPlatforms (scan : Scan) (table : List PlatformData) :
    Nat × List PlatformData :=
  (scan.aborted.toNat,
    scan.devices.foldl (fun table d =>
      opaePluginMgrDetectPlatform d.1.toUInt16 d.2.toUInt16 table) table)

def alreadyLoaded (nativePlugin : String) (table : List PlatformData) : Bool :=
  table.any fun row => nativePlugin == row.nativePlugin && row.loaded

structure Loading where
  table : List PlatformData
  adapterList : List Adapter
  platformsDetected : Nat
  errors : Nat

variable (load : Nat → String → String → LoadOutcome)

/-- The loop of `opae_plugin_mgr_load_dflt_plugins`; the table is `done ++ rest`. -/
def loadRows (done : List PlatformData) : List PlatformData → List Adapter → Nat → Nat → Loading
  | [], adapterList, platformsDetected, errors => ⟨done, adapterList, platformsDetected, errors⟩
  | row :: rest, adapterList, platformsDetected, errors =>
    if !row.detected then loadRows (done ++ [row]) rest adapterList platformsDetected errors
    else if alreadyLoaded row.nativePlugin (done ++ row :: rest) then
      loadRows (done ++ [row]) rest adapterList (platformsDetected + 1) errors
    else
      match load done.length row.nativePlugin "" with
      -- returns out of the loop, the rows left are not tried
      | .notLoaded => ⟨done ++ row :: rest, adapterList, platformsDetected + 1, errors + 1⟩
      | .notConfigured =>
        loadRows (done ++ [row]) rest adapterList (platformsDetected + 1) (errors + 1)
      | .configured initializeFn finalizeFn =>
        loadRows (done ++ [{ row with loaded := true }]) rest
          (opaePluginMgrRegisterAdapter adapterList ⟨row.nativePlugin, initializeFn, finalizeFn, 0⟩)
          (platformsDetected + 1) errors

def opaePluginMgrLoadDfltPlugins (scan : Scan) (m : Manager) : Nat × Nat × Manager :=
  let (errors, table) := opaePluginMgrDetectPlatforms scan m.platformDataTable
  if errors ≠ 0 then (errors, 0, { m with platformDataTable := table })
  else
    let l := loadRows load [] table m.adapterList 0 0
    (l.errors, l.platformsDetected,
      { m with platformDataTable := l.table, adapterList := l.adapterList })

end Native

def Adapter.initializeFails (a : Adapter) : Bool :=
  match a.initializeFn with
  | some initializeFn => initializeFn a.initializeCalls != 0
  | none => false

def Adapter.callInitialize (a : Adapter) : Adapter :=
  match a.initializeFn with
  | some _ => { a with initializeCalls := a.initializeCalls + 1 }
  | none => a

def Adapter.finalizeFails (a : Adapter) : Bool :=
  match a.finalizeFn with
  | some res => res != 0
  | none => false

def opaePluginMgrInitializeAll (m : Manager) : Nat × Manager :=
  (m.adapterList.countP Adapter.initializeFails,
    { m with adapterList := m.adapterList.map Adapter.callInitialize })

def loadPlugins (o : Outcomes) (m : Manager) : Nat × Nat × Manager :=
  if m.pluginCount ≠ 0 then
    let (errors, m) := opaePluginMgrLoadCfgPlugins o.load m
    (errors, 0, m)
  -- fail-safe, try to detect plugins based on supported devices
  else opaePluginMgrLoadDfltPlugins o.load o.scan m

def initializeLoaded : Nat × Nat × Manager → Nat × Manager
  | (errors, platformsDetected, m) =>
    if errors ≠ 0 then (errors, m)
    else
      let (errors, m) := opaePluginMgrInitializeAll m
      if errors = 0 ∧ (m.pluginCount ≠ 0 ∨ platformsDetected ≠ 0) then
        (errors, { m with initialized := true })
      else (errors, m)

def opaePluginMgrInitialize (o : Outcomes) (m : Manager) : Nat × Manager :=
  let m := { m with pluginCount := 0 }
  if m.initialized then (0, m)
  else initializeLoaded (loadPlugins o (o.parsed.foldl opaePluginMgrAddPlugin m))

def clearFlags (table : List PlatformData) : List PlatformData :=
  table.map fun row => { row with detected := false, loaded := false }

/-- `dlclose i` is what closing the library of adapter `i` returns. -/
def opaePluginMgrFinalizeAll (dlclose : Nat → Int) (m : Manager) : Nat × Manager :=
  let errors := m.adapterList.countP Adapter.finalizeFails +
    (List.range m.adapterList.length).countP fun i => dlclose i != 0
  let m := opaePluginMgrResetCfg
    { m with adapterList := [], platformDataTable := clearFlags m.platformDataTable }
  (errors, { m with initialized := false })

def start (table : List PlatformData) : Manager := ⟨[], [], 0, clearFlags table, false⟩

inductive Call where
  | init (o : Outcomes)
  | finalizeAll (dlclose : Nat → Int)

def step (m : Manager) : Call → Manager
  | .init o => (opaePluginMgrInitialize o m).2
  | .finalizeAll dlclose => (opaePluginMgrFinalizeAll dlclose m).2

def platformDataTable : List PlatformData :=
  [⟨0x1c2c, 0x1000, "libxfpga.so", false, false⟩,
   ⟨0x1c2c, 0x1001, "libxfpga.so", false, false⟩,
   ⟨0x8086, 0xbcbd, "libxfpga.so", false, false⟩,
   ⟨0x8086, 0xbcc0, "libxfpga.so", false, false⟩,
   ⟨0x8086, 0xbcc1, "libxfpga.so", false, false⟩,
   ⟨0x8086, 0x09c4, "libxfpga.so", false, false⟩,
   ⟨0x8086, 0x09c5, "libxfpga.so", false, false⟩,
   ⟨0x8086, 0x0b2b, "libxfpga.so", false, false⟩,
   ⟨0x8086, 0x0b2c, "libxfpga.so", false, false⟩,
   ⟨0x8086, 0x0b30, "libxfpga.so", false, false⟩,
   ⟨0x8086, 0x0b31, "libxfpga.so", false, false⟩,
   ⟨0x8086, 0xbcce, "libxfpga.so", false, false⟩,
   ⟨0x8086, 0xbcce, "libopae-v.so", false, false⟩,
   ⟨0x8086, 0xaf00, "libxfpga.so", false, false⟩,
   ⟨0x8086, 0xaf00, "libopae-v.so", false, false⟩,
   ⟨0x8086, 0xaf01, "libopae-v.so", false, false⟩]

end OpaeLibs.OpaeC.PluginMgr
