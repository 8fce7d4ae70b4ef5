import OpaeLibs.OpaeC.Props

namespace OpaeLibs.PluginXfpga.BmcMetrics

open OpaeLibs.OpaeC.Props

def metricNameMax : Nat := 255

def strcasecmp (s t : List Char) : Bool := s.map Char.toLower = t.map Char.toLower

/-- What the library of the BMC says of a sensor: its name if the details are found, and its
reading, a double by its bits. -/
structure Sensor where
  details : FpgaResult
  name : List Char
  reading : FpgaResult
  isValid : UInt32
  dvalue : UInt64

/-- `name` is what the details point to before they are first filled. What destroying the sensor
values returns is overwritten. -/
structure BmcEnv where
  loadSdrs : FpgaResult
  sensors : List Sensor
  calloc : Bool
  readSensorValues : FpgaResult
  name : List Char
  destroySdrs : FpgaResult

structure FpgaBmcMetric where
  metricName : List Char
  dvalue : UInt64
deriving DecidableEq

abbrev BmcMetricCache := Option (List FpgaBmcMetric)

/-- In the midst of filling the cache: the name in the details, the cache, and the value if it is
stored. -/
structure Filling where
  name : List Char
  cache : List FpgaBmcMetric
  dvalue : Option UInt64

def readSensor (metricName : List Char) (s : Filling) (x : Nat) (sensor : Sensor) : Filling :=
  let s := if sensor.details = .ok then { s with name := sensor.name } else s
  if sensor.reading ≠ .ok then s
  else if sensor.isValid = 0 then s
  else
    { s with
      cache := s.cache.set x ⟨s.name.take metricNameMax, sensor.dvalue⟩
      dvalue := if strcasecmp s.name metricName then some sensor.dvalue else s.dvalue }

def readSensors (metricName : List Char) : Nat → List Sensor → Filling → Filling
  | _, [], s => s
  | x, sensor :: sensors, s =>
    readSensors metricName (x + 1) sensors (readSensor metricName s x sensor)

def emptyCache (env : BmcEnv) : List FpgaBmcMetric := env.sensors.map fun _ => ⟨[], 0⟩

/-- The result, the value if one is stored, and the cache. -/
def getBmcMetricsValues (env : BmcEnv) (cache : BmcMetricCache) (metricName : List Char) :
    (FpgaResult × Option UInt64) × BmcMetricCache :=
  match cache with
  | some metrics =>
    match metrics.find? fun metric => strcasecmp metric.metricName metricName with
    | some metric => ((.ok, some metric.dvalue), cache)
    | none => ((.notFound, none), cache)
  | none =>
    if env.loadSdrs ≠ .ok then ((env.loadSdrs, none), none)
    else if !env.calloc then ((env.destroySdrs, none), none)
    else if env.readSensorValues ≠ .ok then ((env.destroySdrs, none), some (emptyCache env))
    else
      let s := readSensors metricName 0 env.sensors ⟨env.name, emptyCache env, none⟩
      ((env.destroySdrs, s.dvalue), some s.cache)

def clearCachedValues (_ : BmcMetricCache) : BmcMetricCache := none

end OpaeLibs.PluginXfpga.BmcMetrics
