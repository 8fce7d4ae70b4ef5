import OpaeLibs.Lib.CStrings
import OpaeLibs.PluginXfpga.SensorFiles

namespace OpaeLibs.PluginXfpga.Thresholds

open OpaeLibs.Lib.CStrings OpaeLibs.OpaeC.Props OpaeLibs.PluginXfpga.SensorFiles

inductive Slot
  | upperNrThreshold
  | upperCThreshold
  | upperNcThreshold
  | lowerNrThreshold
  | lowerCThreshold
  | lowerNcThreshold
  | hysteresis
deriving DecidableEq

/-- `threshold`, with the text in its buffer. A value is a double; what it is made from is all that
is asked of it. -/
structure Threshold (V : Type) where
  thresholdName : List UInt8
  isValid : UInt32
  value : V

structure MetricThreshold (V : Type) where
  metricName : List UInt8
  threshold : Slot → Threshold V

def upperNrThresholdName : List UInt8 := ascii "Upper Non-Recoverable Threshold"
def upperCThresholdName : List UInt8 := ascii "Upper Critical Threshold"
def upperNcThresholdName : List UInt8 := ascii "Upper Non-Critical Threshold"
def lowerNrThresholdName : List UInt8 := ascii "Lower Non-Recoverable Threshold"
def lowerCThresholdName : List UInt8 := ascii "Lower Critical Threshold"
def lowerNcThresholdName : List UInt8 := ascii "Lower Non-Critical Threshold"

def sysfsHighFatal : List UInt8 := ascii "high_fatal"
def sysfsHighWarn : List UInt8 := ascii "high_warn"
def sysfsHysteresis : List UInt8 := ascii "hysteresis"
def sysfsLowFatal : List UInt8 := ascii "low_fatal"
def sysfsLowWarn : List UInt8 := ascii "low_warn"

def metricStrSize : Nat := 256

def sysfsPathMax : Nat := 256

section Entries

variable {V : Type}

def MetricThreshold.modify (t : MetricThreshold V) (slot : Slot)
    (f : Threshold V → Threshold V) : MetricThreshold V :=
  { t with threshold := Function.update t.threshold slot (f (t.threshold slot)) }

/-- `memcpy` of what `strnlen` finds, with a terminator behind it. -/
def copied (text : List UInt8) : List UInt8 := text.take (metricStrSize - 1)

def MetricThreshold.setName (t : MetricThreshold V) (slot : Slot) (text : List UInt8) :
    MetricThreshold V :=
  t.modify slot fun x => { x with thresholdName := copied text }

def MetricThreshold.setValue (t : MetricThreshold V) (slot : Slot) (value : V) :
    MetricThreshold V :=
  t.modify slot fun x => { x with value := value, isValid := 1 }

/-- The loop over the sensors. `step` is what comes of a sensor: a result, and how its entry is
filled unless it is passed over. `none` is a fault of the step, or an entry that is not there. -/
def fillEntries {T : Type} (step : Nat → Option (FpgaResult × Option (T → Option T))) :
    Nat → Nat → FpgaResult → List T → Option (FpgaResult × List T)
  | 0, _, result, entries => some (result, entries)
  | n + 1, i, _, entries => do
    let (result, fill) ← step i
    match fill with
    | none => fillEntries step n (i + 1) result entries
    | some fill => do
      let t ← entries[i]?
      let t ← fill t
      fillEntries step n (i + 1) result (entries.set i t)

end Entries

section Bmc

variable {V : Type}

/-- What the values of the BMC have of a sensor: its name, and the fields of its record. `getvalue`
is what a raw value stands for. -/
structure BmcSensor (V : Type) where
  name : Option (List UInt8)
  discreteSettableReadableThresholdMask : UInt16
  upperNrThreshold : UInt8
  upperCThreshold : UInt8
  upperNcThreshold : UInt8
  lowerNrThreshold : UInt8
  lowerCThreshold : UInt8
  lowerNcThreshold : UInt8
  getvalue : UInt8 → V

/-- `threshold_list`; a threshold that is not valid is `none`. -/
structure ThresholdList (V : Type) where
  upperNrThresh : Option V
  upperCThresh : Option V
  upperNcThresh : Option V
  lowerNrThresh : Option V
  lowerCThresh : Option V
  lowerNcThresh : Option V

structure SdrDetails (V : Type) where
  name : Option (List UInt8)
  thresholds : ThresholdList V

def getThresholdValues (s : BmcSensor V) : ThresholdList V :=
  let settable : UInt8 := ((s.discreteSettableReadableThresholdMask &&& 0x3f00) >>> 8).toUInt8
  let get (bit : UInt8) (raw : UInt8) : Option V :=
    if settable &&& (1 <<< bit) ≠ 0 then some (s.getvalue raw) else none
  { upperNrThresh := get 5 s.upperNrThreshold
    upperCThresh := get 4 s.upperCThreshold
    upperNcThresh := get 3 s.upperNcThreshold
    lowerNrThresh := get 2 s.lowerNrThreshold
    lowerCThresh := get 1 s.lowerCThreshold
    lowerNcThresh := get 0 s.lowerNcThreshold }

/-- `values` are those of the sensors by their index. -/
def bmcGetSDRDetails (values : List (BmcSensor V)) (sensorNumber : Nat) :
    FpgaResult × Option (SdrDetails V) :=
  match values[sensorNumber]? with
  | none => (.invalidParam, none)
  | some s => (.ok, some ⟨s.name, getThresholdValues s⟩)

/-- `getDetails` is whether `dlsym` finds the function for the details. -/
structure BmcEnv (V : Type) where
  lock : Bool
  loadLib : Bool
  loadSDRs : FpgaResult
  numSensors : Nat
  readSensorValues : FpgaResult
  values : List (BmcSensor V)
  getDetails : Nat → Bool
  destroySensorValues : FpgaResult
  destroySDRs : FpgaResult

def xfpgaBmcGetSDRDetails (env : BmcEnv V) (x : Nat) : FpgaResult × Option (SdrDetails V) :=
  if env.getDetails x then bmcGetSDRDetails env.values x else (.exception, none)

/-- A threshold with its name, if it is valid. -/
def fillThreshold (slot : Slot) (text : List UInt8) (value : Option V) (t : MetricThreshold V) :
    MetricThreshold V :=
  match value with
  | none => t
  | some value => (t.setName slot text).setValue slot value

/-- A name that is `NULL` cannot be copied. -/
def fillBmc (details : SdrDetails V) (t : MetricThreshold V) : Option (MetricThreshold V) :=
  details.name.map fun name =>
    let t := { t with metricName := copied name }
    let t := fillThreshold .upperNrThreshold upperNrThresholdName details.thresholds.upperNrThresh t
    let t := fillThreshold .upperCThreshold upperCThresholdName details.thresholds.upperCThresh t
    let t := fillThreshold .upperNcThreshold upperNcThresholdName details.thresholds.upperNcThresh t
    let t := fillThreshold .lowerNrThreshold lowerNrThresholdName details.thresholds.lowerNrThresh t
    let t := fillThreshold .lowerCThreshold lowerCThresholdName details.thresholds.lowerCThresh t
    fillThreshold .lowerNcThreshold lowerNcThresholdName details.thresholds.lowerNcThresh t

def bmcStep (env : BmcEnv V) (x : Nat) :
    Option (FpgaResult × Option (MetricThreshold V → Option (MetricThreshold V))) :=
  let (result, details) := xfpgaBmcGetSDRDetails env x
  if result ≠ .ok then some (result, none) else some (result, details.map fillBmc)

/-- What the function ends with: its result, the number that it stores, and the entries. -/
structure Filled (V : Type) where
  result : FpgaResult
  numThresholds : Option Nat
  entries : List (MetricThreshold V)

def lastError (earlier later : FpgaResult) : FpgaResult := if later ≠ .ok then later else earlier

/-- `entries` are those of the array below the number that is given with it; the array may be
`NULL`. -/
def getBmcThresholdInfo (env : BmcEnv V) (handle numThresholds : Bool)
    (entries : Option (List (MetricThreshold V))) : Option (Filled V) :=
  let ends (result : FpgaResult) (num : Option Nat) (entries : List (MetricThreshold V)) :=
    some ⟨result, num, entries⟩
  let kept := entries.getD []
  if !handle || !numThresholds then ends .invalidParam none kept
  else if !env.lock then ends .exception none kept
  else if !env.loadLib then ends .exception none kept
  else if env.loadSDRs ≠ .ok then ends env.loadSDRs none kept
  else if env.readSensorValues ≠ .ok then
    ends (lastError env.readSensorValues env.destroySDRs) none kept
  else
    let destroy (result : FpgaResult) :=
      lastError (lastError result env.destroySensorValues) env.destroySDRs
    match entries with
    | none => ends (destroy .ok) (some env.values.length) []
    | some entries => do
      let (result, entries) ← fillEntries (bmcStep env) env.numSensors 0 .ok entries
      ends (destroy result) none entries

end Bmc

section Max10

variable {V : Type}

/-- `max10` is how many paths match the pattern of the MAX10, `sensors` are the paths that match
that of its sensors; both may be an error. `readU64` is `sysfs_read_u64`, and `milli` what a number
of thousandths stands for. -/
structure Max10Env (V : Type) where
  token : Bool
  max10 : Option Nat
  sensors : Option (List (List UInt8))
  nameFile : List UInt8 → Option SensorFile
  memory : Nat → Bool
  readU64 : List UInt8 → Option UInt64
  milli : UInt64 → V

def pathOf (dir file : List UInt8) : List UInt8 := dir ++ 47 :: file

def printed (path : List UInt8) : List UInt8 := path.take (sysfsPathMax - 1)

def sensorSysfsName : List UInt8 := ascii "name"

def nameIn (buffer : List UInt8) : Option (List UInt8) :=
  let text := buffer.takeWhile (· ≠ 0)
  if text.length < buffer.length ∨ metricStrSize - 1 ≤ text.length then some (copied text) else none

def readThreshold (env : Max10Env V) (dir : List UInt8) (nameSlot : Slot) (text : List UInt8)
    (file : List UInt8) (slot : Slot) (t : MetricThreshold V) : MetricThreshold V :=
  let t := t.setName nameSlot text
  match env.readU64 (printed (pathOf dir file)) with
  | none => t
  | some value => t.setValue slot (env.milli value)

def fillMax10 (env : Max10Env V) (dir : List UInt8) (tmp : List UInt8) (t : MetricThreshold V) :
    Option (MetricThreshold V) :=
  (nameIn tmp).map fun name =>
    let t := { t with metricName := name }
    let t := readThreshold env dir .upperCThreshold upperCThresholdName sysfsHighFatal
      .upperCThreshold t
    let t := readThreshold env dir .upperNcThreshold upperNcThresholdName sysfsHighWarn
      .upperNcThreshold t
    -- the name goes to the upper threshold
    let t := readThreshold env dir .upperNcThreshold lowerCThresholdName sysfsLowFatal
      .lowerCThreshold t
    let t := readThreshold env dir .lowerNcThreshold lowerNcThresholdName sysfsLowWarn
      .lowerNcThreshold t
    readThreshold env dir .hysteresis sysfsHysteresis sysfsHysteresis .hysteresis t

def max10Step (env : Max10Env V) (dirs : List (List UInt8)) (i : Nat) :
    Option (FpgaResult × Option (MetricThreshold V → Option (MetricThreshold V))) := do
  let dir ← dirs[i]?
  let (result, tmp, _) ←
    readSensorFile (env.memory i) (env.nameFile (printed (pathOf dir sensorSysfsName)))
  return (result, if result ≠ .ok then none else tmp.map (fillMax10 env dir))

def getMax10ThresholdInfo (env : Max10Env V) (handle numThresholds : Bool)
    (entries : Option (List (MetricThreshold V))) : Option (Filled V) :=
  let ends (result : FpgaResult) (num : Option Nat) (entries : List (MetricThreshold V)) :=
    some ⟨result, num, entries⟩
  let kept := entries.getD []
  if !handle || !numThresholds then ends .invalidParam none kept
  else if !env.token then ends .invalidParam none kept
  else if env.max10 ≠ some 1 then ends .notFound none kept
  else
    match env.sensors, entries with
    | none, _ => ends .notFound none kept
    | some dirs, none => ends .ok (some dirs.length) []
    | some dirs, some entries => do
      let (result, entries) ← fillEntries (max10Step env dirs) dirs.length 0 .ok entries
      ends result none entries

end Max10

end OpaeLibs.PluginXfpga.Thresholds
