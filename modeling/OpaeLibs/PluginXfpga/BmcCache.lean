import OpaeLibs.Lib.Runs
import OpaeLibs.PluginXfpga.BmcMetrics

namespace OpaeLibs.PluginXfpga.BmcCache

open OpaeLibs.Lib.Runs OpaeLibs.OpaeC.Props OpaeLibs.PluginXfpga.BmcMetrics

def Reads (s : Sensor) : Prop := s.reading = .ok ∧ s.isValid ≠ 0

instance (s : Sensor) : Decidable (Reads s) := inferInstanceAs (Decidable (_ ∧ _))

/-- Each sensor with its name, which is that of the sensor before it where its own is not found. -/
def named (name : List Char) : List Sensor → List (List Char × Sensor)
  | [] => []
  | s :: sensors =>
    let name := if s.details = .ok then s.name else name
    (name, s) :: named name sensors

/-- Of a sensor with a valid reading its name, as far as there is room for it, and its reading. -/
def cell (s : List Char × Sensor) : FpgaBmcMetric :=
  if Reads s.2 then ⟨s.1.take metricNameMax, s.2.dvalue⟩ else ⟨[], 0⟩

/-- The sensors as a later call sees them. -/
def cells (env : BmcEnv) : List FpgaBmcMetric :=
  if env.readSensorValues = .ok then (named env.name env.sensors).map cell else emptyCache env

def firstCached (env : BmcEnv) (metricName : List Char) : Option UInt64 :=
  ((cells env).find? fun metric => strcasecmp metric.metricName metricName).map FpgaBmcMetric.dvalue

def readings (env : BmcEnv) (metricName : List Char) : List UInt64 :=
  if env.readSensorValues = .ok then
    ((named env.name env.sensors).filter fun s => Reads s.2 ∧ strcasecmp s.1 metricName).map
      fun s => s.2.dvalue
  else []

/-- The readings of the first and of the last sensor with the metric's name are the same, or there
is none, which destroying the records has to report. -/
def Alike (env : BmcEnv) (metricName : List Char) : Prop :=
  match firstCached env metricName with
  | some dvalue => env.destroySdrs = .ok ∧ (readings env metricName).getLast? = some dvalue
  | none => env.destroySdrs = .notFound ∧ readings env metricName = []

/-- The records are loaded and there is memory for the cache. -/
def Fills (env : BmcEnv) : Prop := env.loadSdrs = .ok ∧ env.calloc = true

inductive Call
  | read (metricName : List Char)
  | clear

def step (env : BmcEnv) (cache : BmcMetricCache) : Call → BmcMetricCache
  | .read metricName => (getBmcMetricsValues env cache metricName).2
  | .clear => clearCachedValues cache

/-- After any calls the metric is reported as by the first call. -/
def Agrees (env : BmcEnv) (metricName : List Char) : Prop :=
  ∀ calls, (getBmcMetricsValues env (run (step env) none calls) metricName).1 =
    (getBmcMetricsValues env none metricName).1

section

variable {env : BmcEnv} {metricName : List Char}

theorem readSensor_eq (sensor : Sensor) (rest : List Sensor) (done : List FpgaBmcMetric)
    (name : List Char) (dvalue : Option UInt64) :
    let name' := if sensor.details = .ok then sensor.name else name
    readSensor metricName ⟨name, done ++ (sensor :: rest).map fun _ => ⟨[], 0⟩, dvalue⟩ done.length
        sensor =
      ⟨name', (done ++ [cell (name', sensor)]) ++ rest.map fun _ => ⟨[], 0⟩,
        if Reads sensor ∧ strcasecmp name' metricName then some sensor.dvalue else dvalue⟩ := by
  unfold readSensor
  by_cases hdetails : sensor.details = .ok <;> by_cases hreading : sensor.reading = .ok <;>
    by_cases hvalid : sensor.isValid = 0 <;> simp [hdetails, hreading, hvalid, cell, Reads]

theorem readings_cons (p : List Char × Sensor) (rest : List (List Char × Sensor))
    (dvalue : Option UInt64) :
    ((((p :: rest).filter fun s => Reads s.2 ∧ strcasecmp s.1 metricName).map
      fun s => s.2.dvalue).getLast?).or dvalue =
    (((rest.filter fun s => Reads s.2 ∧ strcasecmp s.1 metricName).map
      fun s => s.2.dvalue).getLast?).or
        (if Reads p.2 ∧ strcasecmp p.1 metricName then some p.2.dvalue else dvalue) := by
  by_cases hp : Reads p.2 ∧ strcasecmp p.1 metricName = true
  · rw [List.filter_cons_of_pos (by simpa using hp), List.map_cons, List.getLast?_cons, if_pos hp]
    cases (List.map _ (List.filter _ rest)).getLast? <;> rfl
  · rw [List.filter_cons_of_neg (by simpa using hp), if_neg hp]

/-- The sensors read so far have their cells, those that are not are empty, and the value stored is
the last one. -/
theorem readSensors_eq (metricName : List Char) (sensors : List Sensor)
    (done : List FpgaBmcMetric) (name : List Char)
    (dvalue : Option UInt64) :
    let s := readSensors metricName done.length sensors
      ⟨name, done ++ sensors.map fun _ => ⟨[], 0⟩, dvalue⟩
    s.cache = done ++ (named name sensors).map cell ∧
    s.dvalue = ((((named name sensors).filter fun s =>
      Reads s.2 ∧ strcasecmp s.1 metricName).map fun s => s.2.dvalue).getLast?).or dvalue := by
  induction sensors generalizing done name dvalue with
  | nil => simp [readSensors, named]
  | cons sensor sensors ih =>
    dsimp only at ih ⊢
    rw [readSensors, readSensor_eq, named, readings_cons, List.map_cons]
    generalize (if sensor.details = .ok then sensor.name else name) = name'
    have hlength : done.length + 1 = (done ++ [cell (name', sensor)]).length := by simp
    rw [List.append_cons done (cell (name', sensor)) ((named name' sensors).map cell), hlength]
    exact ih _ _ _

theorem getBmcMetricsValues_fill (h : Fills env) (metricName : List Char) :
    getBmcMetricsValues env none metricName =
      ((env.destroySdrs, (readings env metricName).getLast?), some (cells env)) := by
  obtain ⟨hload, hcalloc⟩ := h
  unfold getBmcMetricsValues readings cells
  by_cases hread : env.readSensorValues = .ok
  · obtain ⟨hcache, hvalue⟩ :=
      readSensors_eq metricName env.sensors [] env.name none
    rw [Option.or_none] at hvalue
    simp only [hload, hcalloc, hread, if_true, ne_eq, not_true_eq_false, if_false, Bool.not_true,
      Bool.false_eq_true]
    rw [← hvalue, ← List.nil_append (List.map cell _), ← hcache]
    rfl
  · simp [hload, hcalloc, hread]

theorem getBmcMetricsValues_empty (h : ¬Fills env) (metricName : List Char) :
    (getBmcMetricsValues env none metricName).2 = none := by
  unfold getBmcMetricsValues
  by_cases hload : env.loadSdrs = .ok
  · have hcalloc : env.calloc = false := by
      rw [← Bool.not_eq_true]
      exact fun hcalloc => h ⟨hload, hcalloc⟩
    simp [hload, hcalloc]
  · simp [hload]

theorem getBmcMetricsValues_cached (env : BmcEnv) (metrics : List FpgaBmcMetric)
    (metricName : List Char) : (getBmcMetricsValues env (some metrics) metricName).2 =
      some metrics := by
  rw [getBmcMetricsValues]
  split <;> rfl

theorem getBmcMetricsValues_cells (env : BmcEnv) (metricName : List Char) :
    (getBmcMetricsValues env (some (cells env)) metricName).1 =
      match firstCached env metricName with
      | some dvalue => (.ok, some dvalue)
      | none => (.notFound, none) := by
  unfold getBmcMetricsValues firstCached
  cases hfind : (cells env).find? fun metric => strcasecmp metric.metricName metricName with
  | none => simp [hfind]
  | some metric => simp [hfind]

/-- The cache is empty or holds what the sensors say. -/
def Faithful (env : BmcEnv) (cache : BmcMetricCache) : Prop :=
  cache = none ∨ Fills env ∧ cache = some (cells env)

theorem faithful_step {cache : BmcMetricCache} (h : Faithful env cache) (c : Call) :
    Faithful env (step env cache c) := by
  cases c with
  | clear => exact .inl rfl
  | read metricName =>
    obtain rfl | ⟨hfills, rfl⟩ := h
    · by_cases hfills : Fills env
      · exact .inr ⟨hfills, congrArg Prod.snd (getBmcMetricsValues_fill hfills metricName)⟩
      · exact .inl (getBmcMetricsValues_empty hfills metricName)
    · exact .inr ⟨hfills, getBmcMetricsValues_cached env _ metricName⟩

theorem alike_iff (env : BmcEnv) (metricName : List Char) : Alike env metricName ↔
    (match firstCached env metricName with
      | some dvalue => ((.ok, some dvalue) : FpgaResult × Option UInt64)
      | none => (.notFound, none)) = (env.destroySdrs, (readings env metricName).getLast?) := by
  unfold Alike
  cases firstCached env metricName with
  | none =>
    dsimp only
    rw [Prod.mk.injEq, eq_comm (b := env.destroySdrs), eq_comm (a := none),
      List.getLast?_eq_none_iff]
  | some dvalue =>
    dsimp only
    rw [Prod.mk.injEq, eq_comm (b := env.destroySdrs), eq_comm (a := some dvalue)]

/-- A metric is reported alike by the call that fills the cache and by those that the cache serves
exactly if the readings agree, unless there is nothing to fill it with. -/
theorem bmc_agrees_iff (env : BmcEnv) (metricName : List Char) :
    Agrees env metricName ↔ (Fills env → Alike env metricName) := by
  constructor
  · intro hagrees hfills
    have hread := hagrees [.read metricName]
    rw [run_cons, run_nil, step, getBmcMetricsValues_fill hfills,
      getBmcMetricsValues_cells] at hread
    exact (alike_iff env metricName).mpr hread
  · intro halike calls
    have hfaithful : Faithful env (run (step env) none calls) :=
      run_invariant (I := Faithful env) (G := fun _ _ => True) (fun _ c h _ => faithful_step h c)
        (.inl rfl) (along_of_forall _ (fun _ _ _ => trivial) _)
    obtain hcache | ⟨hfills, hcache⟩ := hfaithful
    · rw [hcache]
    · rw [hcache, getBmcMetricsValues_cells, getBmcMetricsValues_fill hfills]
      exact (alike_iff env metricName).mp (halike hfills)

end

section Sample

def sampleEnv : BmcEnv :=
  { loadSdrs := .ok
    sensors := [⟨.ok, ['a'], .ok, 0, 5⟩, ⟨.ok, ['b'], .ok, 1, 6⟩, ⟨.ok, ['b'], .ok, 1, 7⟩]
    calloc := true
    readSensorValues := .ok
    name := []
    destroySdrs := .ok }

/-- The sensor without a valid reading is first reported without a value and then not found, and of
the two of one name first the last and then the first is reported. -/
theorem cached_otherwise :
    (getBmcMetricsValues sampleEnv none ['a']).1 = (.ok, none) ∧
    (getBmcMetricsValues sampleEnv (run (step sampleEnv) none [.read ['a']]) ['a']).1 =
      (.notFound, none) ∧
    (getBmcMetricsValues sampleEnv none ['b']).1 = (.ok, some 7) ∧
    (getBmcMetricsValues sampleEnv (run (step sampleEnv) none [.read ['b']]) ['b']).1 =
      (.ok, some 6) ∧
    ¬Agrees sampleEnv ['a'] ∧ ¬Agrees sampleEnv ['b'] := by
  refine ⟨by decide, by decide, by decide, by decide, fun h => ?_, fun h => ?_⟩
  · exact absurd (h [.read ['a']]) (by decide)
  · exact absurd (h [.read ['b']]) (by decide)

end Sample

end OpaeLibs.PluginXfpga.BmcCache
