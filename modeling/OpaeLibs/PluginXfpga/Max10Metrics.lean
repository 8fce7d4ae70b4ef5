import OpaeLibs.PluginXfpga.Metrics
import OpaeLibs.PluginXfpga.SysfsGlob
import OpaeLibs.PluginXfpga.Thresholds

namespace OpaeLibs.PluginXfpga.Max10Metrics

open OpaeLibs.Lib.CStrings (ascii)
open OpaeLibs.OpaeC.Props OpaeLibs.PluginXfpga.Metrics OpaeLibs.PluginXfpga.SensorFiles
open OpaeLibs.PluginXfpga.SysfsGlob (strstr)
open OpaeLibs.PluginXfpga.Thresholds (sysfsPathMax printed)

/-- What `add_metric_vector` makes a metric of. -/
structure Max10Metric where
  metricNum : UInt64
  qualifierName : List UInt8
  groupName : List UInt8
  groupSysfs : List UInt8
  metricName : List UInt8
  metricSysfs : List UInt8
  metricUnits : List UInt8
  metricDatatype : FpgaMetricDatatype
  metricType : FpgaMetricType
  hwType : FpgaHwType
  mmioOffset : UInt64

/-- What comes of adding a metric: it is in the vector; there is no memory for it; or there is none
for its place in the vector, which is not reported. -/
inductive Adding
  | added
  | noMemory
  | lost
deriving DecidableEq

def dflMax10SysfsLabel : List UInt8 := ascii "*_label"

def dflTemperature : List UInt8 := ascii "temp"
def dflVoltage : List UInt8 := ascii "in"
def dflCurrent : List UInt8 := ascii "curr"
def dflPower : List UInt8 := ascii "power"
def dflValue : List UInt8 := ascii "input"
def clock : List UInt8 := ascii "Clock"
def pwrMgmt : List UInt8 := ascii "power_mgmt"
def therlGmt : List UInt8 := ascii "thermal_mgmt"

/-- `sysfspath` is what `find_glob_path` finds, `groups` and `labels` are the paths that `glob`
finds with it and with the pattern of the labels. Of the paths of labels each ends as the pattern
does. `file` is what is at a path. -/
structure Max10Env where
  params : Bool
  token : Bool
  sysfspath : Except FpgaError { p : List UInt8 // p.length < sysfsPathMax }
  groups : Option (List (List UInt8))
  labels : Option (List (List UInt8))
  labelled : ∀ paths, labels = some paths → ∀ p ∈ paths, ascii "_label" <:+ p
  file : List UInt8 → Option SensorFile
  memory : Nat → Bool
  add : Nat → Adding

/-- What is kept from one label to the next: the buffers that are not written each time, the vector
and the number of metrics. -/
structure Progress where
  metricType : FpgaMetricType
  groupName : List UInt8
  qualifierName : List UInt8
  vector : List Max10Metric
  metricNum : UInt64

def newline : UInt8 := 10

section Code

def hasText (path text : List UInt8) : Bool := (strstr text path).isSome

/-- The name of a metric, from the buffer with the label and the number of its bytes. `none` is an
access outside of the buffer for the name. -/
def labelName (tmp : List UInt8) (totBytes : Nat) : Option (List UInt8) :=
  let text := (tmp.take totBytes).takeWhile (· ≠ 0)
  if sysfsPathMax ≤ text.length then none
  else if text.length = 0 then none
  else some (if text.getLast? = some newline then text.dropLast else text)

/-- Of an unknown type the names are those of the label before. -/
def nameGroup (path metricName : List UInt8) (s : Progress) : Progress :=
  if hasText path dflVoltage || hasText path dflCurrent || hasText path dflPower then
    { s with
      metricType := .power
      groupName := pwrMgmt
      qualifierName := printed (pwrMgmt ++ 58 :: metricName) }
  else if hasText path dflTemperature then
    { s with
      metricType := .thermal
      groupName := therlGmt
      qualifierName := printed (therlGmt ++ 58 :: metricName) }
  else { s with metricType := .unknown }

def unitsOf (path : List UInt8) : List UInt8 :=
  if hasText path dflPower then ascii "Watts"
  else if hasText path dflVoltage then ascii "Volts"
  else if hasText path dflCurrent then ascii "Amps"
  else if hasText path dflTemperature then ascii "Celsius"
  else if hasText path clock then ascii "Hz"
  else ascii "N/A"

/-- The path without its last five bytes. `none` is a copy over the end of the buffer. -/
def valueStem (path : List UInt8) : Option (List UInt8) :=
  if path.length < 5 ∨ sysfsPathMax ≤ path.length - 5 then none
  else some (path.take (path.length - 5))

/-- The loop over the labels from the label `i` on. -/
def enumLabels (env : Max10Env) (groupSysfs : List UInt8) (hwType : FpgaHwType) :
    Nat → List (List UInt8) → FpgaResult → Progress → Option (FpgaResult × Progress)
  | _, [], result, s => some (result, s)
  | i, path :: paths, _, s => do
    let (result, tmp, totBytes) ← readSensorFile (env.memory i) (env.file (printed path))
    match result, tmp with
    | .ok, some tmp => do
      let metricName ← labelName tmp totBytes.toNat
      let s := nameGroup path metricName s
      let stem ← valueStem path
      if stem.length + (dflValue.length + 1) ≥ sysfsPathMax then some (.exception, s)
      else
        let metric : Max10Metric :=
          { metricNum := s.metricNum
            qualifierName := s.qualifierName
            groupName := s.groupName
            groupSysfs := groupSysfs
            metricName := metricName
            metricSysfs := stem ++ dflValue
            metricUnits := unitsOf path
            metricDatatype := .double
            metricType := s.metricType
            hwType := hwType
            mmioOffset := 0 }
        match env.add i with
        | .noMemory => some (.noMemory, s)
        | .lost =>
          enumLabels env groupSysfs hwType (i + 1) paths .ok
            { s with metricNum := s.metricNum + 1 }
        | .added =>
          enumLabels env groupSysfs hwType (i + 1) paths .ok
            { s with vector := s.vector ++ [metric], metricNum := s.metricNum + 1 }
    | result, _ => enumLabels env groupSysfs hwType (i + 1) paths result s

/-- The result, the vector and the number of metrics. -/
def dflEnumMax10MetricsInfo (env : Max10Env) (vector : List Max10Metric) (metricNum : UInt64)
    (hwType : FpgaHwType) : Option (FpgaResult × List Max10Metric × UInt64) :=
  if !env.params || hwType = .unknown then some (.invalidParam, vector, metricNum)
  else if !env.token then some (.invalidParam, vector, metricNum)
  else
    match env.sysfspath with
    | .error e => some (e.val, vector, metricNum)
    | .ok sysfspath =>
      match env.groups with
      | some [group] =>
        let groupSysfs := printed group
        if sysfspath.val.length + (dflMax10SysfsLabel.length + 1) ≥ sysfsPathMax then
          some (.exception, vector, metricNum)
        else
          match env.labels with
          | none => some (.notFound, vector, metricNum)
          | some paths =>
            (enumLabels env groupSysfs hwType 0 paths .ok ⟨.power, [], [], vector, metricNum⟩).map
              fun (result, s) => (result, s.vector, s.metricNum)
      | _ => some (.notFound, vector, metricNum)

end Code

end OpaeLibs.PluginXfpga.Max10Metrics
