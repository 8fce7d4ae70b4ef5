import OpaeLibs.PluginXfpga.BmcMetrics
import OpaeLibs.PluginXfpga.MetricVector

namespace OpaeLibs.PluginXfpga.Metrics

open OpaeLibs.OpaeC.Props OpaeLibs.PluginXfpga.BmcMetrics OpaeLibs.PluginXfpga.MetricVector

inductive FpgaHwType
  | mcp | dcpRc | dcpD5005 | dcpN3000 | dcpN5010 | dcpN5011 | unknown
deriving DecidableEq

inductive FpgaMetricType
  | power | thermal | performanceCtr | afu | unknown
deriving DecidableEq

inductive FpgaMetricDatatype
  | int | float | double | bool | unknown
deriving DecidableEq

structure FpgaEnumMetric where
  groupName : List Char
  metricName : List Char
  metricSysfs : List Char
  qualifierName : List Char
  metricUnits : List Char
  metricNum : UInt64
  metricDatatype : FpgaMetricDatatype
  metricType : FpgaMetricType
  hwType : FpgaHwType
  mmioOffset : UInt64
deriving DecidableEq

abbrev MetricVector := FpgaMetricVector FpgaEnumMetric

structure Handle where
  metricEnumStatus : Bool
  vector : MetricVector
  bmcHandle : Bool
  bmcMetricCacheValue : BmcMetricCache

/-- A metric that is found, and whether there is memory for it and for its place in the vector. -/
structure Addition where
  metric : FpgaEnumMetric
  malloc : Bool
  realloc : Bool

/-- That there was no place in the vector is not reported. -/
def addMetricVector (v : MetricVector) (a : Addition) : Option (FpgaResult × MetricVector) :=
  if !a.malloc then some (.noMemory, v)
  else (fpgaVectorPush a.realloc v a.metric).map fun (_, v) => (.ok, v)

structure Enumeration where
  additions : List Addition
  result : FpgaResult

def addAll : List Addition → MetricVector → Option MetricVector
  | [], v => some v
  | a :: additions, v => (addMetricVector v a).bind fun (_, v) => addAll additions v

def Enumeration.run (e : Enumeration) (v : MetricVector) : Option (FpgaResult × MetricVector) :=
  (addAll e.additions v).map fun v => (e.result, v)

structure EnumEnv where
  token : Bool
  objectType : FpgaResult × FpgaObjtype
  malloc : Bool
  discoverAfu : FpgaResult
  afu : Enumeration
  hwType : FpgaResult × FpgaHwType
  bmcPath : FpgaResult
  bmcLib : Bool
  bmc : Enumeration
  max10 : Enumeration
  realloc : Nat → Bool

def clearCachedValues (h : Handle) : Handle :=
  { h with bmcMetricCacheValue := BmcMetrics.clearCachedValues h.bmcMetricCacheValue }

def deleteFrom (realloc : Nat → Bool) : Nat → Nat → MetricVector → Option MetricVector
  | 0, _, v => some v
  | n + 1, i, v =>
    (fpgaVectorDelete (realloc i) v i).bind fun (_, v) => deleteFrom realloc n (i + 1) v

/-- The items move up while the index goes on, so only every other one is deleted. -/
def freeFpgaEnumMetricsVector (realloc : Nat → Bool) (h : Handle) : Option Handle := do
  let vector ← deleteFrom realloc h.vector.total 0 h.vector
  let vector ← fpgaVectorFree vector
  let h := clearCachedValues { h with vector := vector, bmcHandle := false }
  some { h with metricEnumStatus := false }

/-- What is enumerated for a hardware type. Without a BMC there is nothing to enumerate. -/
def fmeEnumeration (env : EnumEnv) (bmcHandle : Bool) : Enumeration :=
  match env.hwType.2 with
  | .mcp => ⟨[], .notFound⟩
  | .dcpRc => if env.bmcPath = .ok ∧ (bmcHandle || env.bmcLib) then env.bmc else ⟨[], .ok⟩
  | .dcpN3000 | .dcpD5005 | .dcpN5010 | .dcpN5011 => env.max10
  | .unknown => ⟨[], .exception⟩

/-- The library of the BMC is loaded if it is not yet. -/
def bmcLoaded (env : EnumEnv) (bmcHandle : Bool) : Bool :=
  if env.hwType.2 = .dcpRc ∧ env.bmcPath = .ok then bmcHandle || env.bmcLib else bmcHandle

def enumFpgaMetrics (env : EnumEnv) (h : Handle) : Option (FpgaResult × Handle) :=
  if h.metricEnumStatus then some (.ok, h)
  else if !env.token then some (.invalidParam, h)
  else if env.objectType.1 ≠ .ok then some (env.objectType.1, h)
  else
    let (result, vector) := fpgaVectorInit env.malloc
    let h := { h with vector := vector }
    if result ≠ .ok then some (result, h)
    else
      match env.objectType.2 with
      | .accelerator =>
        if env.discoverAfu ≠ .ok then some (env.discoverAfu, h)
        else do
          let (result, vector) ← env.afu.run h.vector
          let h := { h with vector := vector }
          if result ≠ .ok then some (result, h)
          else some (result, { h with metricEnumStatus := true })
      | .device =>
        if env.hwType.1 ≠ .ok then some (env.hwType.1, h)
        else do
          let (result, vector) ← (fmeEnumeration env h.bmcHandle).run h.vector
          let h := { h with vector := vector, bmcHandle := bmcLoaded env h.bmcHandle }
          (if result ≠ .ok then freeFpgaEnumMetricsVector env.realloc h else some h).map fun h =>
            (result, { h with metricEnumStatus := true })

structure FpgaMetricInfo where
  groupName : List Char
  metricName : List Char
  qualifierName : List Char
  metricUnits : List Char
  metricNum : UInt64
  metricType : FpgaMetricType
  metricDatatype : FpgaMetricDatatype

def addMetricInfo (metric : Option FpgaEnumMetric) : FpgaResult × Option FpgaMetricInfo :=
  match metric with
  | none => (.invalidParam, none)
  | some m => (.ok, some ⟨m.groupName, m.metricName, m.qualifierName, m.metricUnits, m.metricNum,
      m.metricType, m.metricDatatype⟩)

/-- The value, an integer or a double, by its bits. -/
structure FpgaMetric where
  metricNum : UInt64
  value : UInt64
  isvalid : Bool

/-- What reading values meets. A sensor of the other controller is read with its limits checked. -/
structure ValueEnv where
  bmc : BmcEnv
  max10 : FpgaEnumMetric → FpgaResult × UInt64
  mmio : UInt64 → Except FpgaResult UInt64

def findMetric (num : UInt64) :
    List (Option FpgaEnumMetric) → Option (Option FpgaEnumMetric)
  | [] => some none
  | none :: _ => none
  | some m :: items => if num = m.metricNum then some (some m) else findMetric num items

/-- Nothing of the BMC can be loaded without its library. -/
def bmcEnv (env : ValueEnv) (h : Handle) : BmcEnv :=
  if h.bmcHandle then env.bmc else { env.bmc with loadSdrs := .notFound }

def isPwrThermal (m : FpgaEnumMetric) : Bool :=
  m.metricType = .power || m.metricType = .thermal

def isMax10 (hwType : FpgaHwType) : Bool :=
  match hwType with
  | .dcpN3000 | .dcpD5005 | .dcpN5010 | .dcpN5011 => true
  | _ => false

def getFmeMetricValue (env : ValueEnv) (h : Handle) (num : UInt64) (metric : FpgaMetric) :
    Option (FpgaResult × FpgaMetric × Handle) := do
  let items ← fpgaVectorItems h.vector
  let metric := { metric with isvalid := false }
  match ← findMetric num items with
  | none => some (.notFound, metric, h)
  | some m =>
    if m.hwType = .dcpRc ∧ isPwrThermal m then
      let ((result, dvalue), cache) :=
        getBmcMetricsValues (bmcEnv env h) h.bmcMetricCacheValue m.metricName
      let metric := ⟨num, dvalue.getD metric.value, decide (result = .ok)⟩
      some (result, metric, { h with bmcMetricCacheValue := cache })
    else if isMax10 m.hwType ∧ isPwrThermal m then
      let (result, dvalue) := env.max10 m
      some (result, ⟨num, dvalue, decide (result = .ok)⟩, h)
    else some (.notFound, metric, h)

/-- Every metric of the number is read, up to one that cannot be read. -/
def readAfuMetrics (env : ValueEnv) (num : UInt64) :
    List (Option FpgaEnumMetric) → FpgaResult → FpgaMetric → Option (FpgaResult × FpgaMetric)
  | [], result, metric => some (result, metric)
  | none :: _, _, _ => none
  | some m :: items, result, metric =>
    if num = m.metricNum then
      match env.mmio m.mmioOffset with
      | .error result => some (result, metric)
      | .ok csr => readAfuMetrics env num items .ok { metric with value := csr >>> 16 }
    else readAfuMetrics env num items result metric

def getAfuMetricValue (env : ValueEnv) (h : Handle) (num : UInt64) (metric : FpgaMetric) :
    Option (FpgaResult × FpgaMetric × Handle) := do
  let items ← fpgaVectorItems h.vector
  let (result, metric) ← readAfuMetrics env num items .notFound metric
  some (result, metric, h)

def getMetricValue (objtype : FpgaObjtype) (env : ValueEnv) (h : Handle) (num : UInt64)
    (metric : FpgaMetric) : Option (FpgaResult × FpgaMetric × Handle) :=
  match objtype with
  | .accelerator => getAfuMetricValue env h num metric
  | .device => getFmeMetricValue env h num metric

def findName (qualifierName metricName : List Char) :
    List (Option FpgaEnumMetric) → Option (Option FpgaEnumMetric)
  | [] => some none
  | none :: _ => none
  | some m :: items =>
    if strcasecmp m.qualifierName qualifierName ∧ strcasecmp m.metricName metricName then
      some (some m)
    else findName qualifierName metricName items

def splitLastColon (s : List Char) : Option (List Char × List Char) :=
  let rest := s.reverse.dropWhile (· ≠ ':')
  match rest with
  | [] => none
  | _ :: front => some (front.reverse, (s.reverse.takeWhile (· ≠ ':')).reverse)

def parseMetricNumName (searchString : Option (List Char)) (v : MetricVector) :
    Option (FpgaResult × UInt64) :=
  match searchString.bind splitLastColon with
  | none => some (.invalidParam, 0)
  | some (qualifierName, metricName) => do
    let items ← fpgaVectorItems v
    match ← findName qualifierName (metricName.take metricNameMax) items with
    | some m => some (.ok, m.metricNum)
    | none => some (.notFound, 0)

def metricArrayInvalidIndex : UInt64 := 0xFFFFFF

/-- Whether the metric is found, and what is stored of it. -/
def metricByIndex (objtype : FpgaObjtype) (env : ValueEnv) (h : Handle) (num : UInt64)
    (metric : FpgaMetric) : Option (Bool × FpgaMetric × Handle) := do
  let (result, metric, h) ← getMetricValue objtype env h num metric
  if result ≠ .ok then some (false, { metric with metricNum := num }, h)
  else some (true, metric, h)

def metricByName (objtype : FpgaObjtype) (env : ValueEnv) (h : Handle)
    (name : Option (List Char)) (metric : FpgaMetric) : Option (Bool × FpgaMetric × Handle) := do
  let (result, num) ← parseMetricNumName name h.vector
  if result ≠ .ok then some (false, { metric with metricNum := metricArrayInvalidIndex }, h)
  else
    let (result, metric, h) ← getMetricValue objtype env h num metric
    if result ≠ .ok then some (false, { metric with metricNum := metricArrayInvalidIndex }, h)
    else some (true, metric, h)

def eachMetric {ι : Type} (get : Handle → ι → FpgaMetric → Option (Bool × FpgaMetric × Handle)) :
    Handle → List (ι × FpgaMetric) → Option (Nat × List FpgaMetric × Handle)
  | h, [] => some (0, [], h)
  | h, (key, metric) :: metrics => do
    let (isFound, metric, h) ← get h key metric
    let (found, metrics, h) ← eachMetric get h metrics
    some (if isFound then found + 1 else found, metric :: metrics, h)

/-- What a call meets: the check of its handle, the file descriptor, the enumeration, the values and
the object type where it is asked for again. -/
structure CallEnv where
  check : FpgaResult
  fddev : Int
  enum : EnumEnv
  objectType : FpgaResult × FpgaObjtype
  values : ValueEnv

/-- The result, whether the vector was read, what is stored, and the handle. -/
structure Answer (β : Type) where
  result : FpgaResult
  reads : Bool
  out : Option β
  handle : Handle

/-- The part that the calls share; of their pointers none is `NULL` just if `params` is true. -/
def metricsCall {β : Type} (env : CallEnv) (params : Bool) (finish : Handle → Handle) (h : Handle)
    (body : Handle → Option (Answer β)) : Option (Answer β) :=
  if env.check ≠ .ok then some ⟨env.check, false, none, h⟩
  else if env.fddev < 0 then some ⟨.invalidParam, false, none, finish h⟩
  else if !params then some ⟨.invalidParam, false, none, finish h⟩
  else
    (enumFpgaMetrics env.enum h).bind fun (result, h) =>
      if result ≠ .ok then some ⟨.notFound, false, none, finish h⟩
      else (body h).map fun answer => { answer with handle := finish answer.handle }

def numMetrics (h : Handle) : Option (Answer UInt64) :=
  let total := h.vector.total
  some ⟨if total = 0 then .notFound else .ok, true, some (UInt64.ofNat total), h⟩

def xfpgaFpgaGetNumMetrics (env : CallEnv) (h : Handle) (params : Bool) :
    Option (Answer UInt64) := metricsCall env params id h numMetrics

/-- Where there are not so many metrics, none is reported, and no error. -/
def metricsInfo (n : Nat) (h : Handle) : Option (Answer (List (Option FpgaMetricInfo))) :=
  if n ≤ h.vector.total then
    (if n = 0 then some [] else h.vector.items).map fun items =>
      let infos := (items.take n).map addMetricInfo
      ⟨(infos.getLast?.map Prod.fst).getD .ok, true, some (infos.map Prod.snd), h⟩
  else some ⟨.ok, true, none, h⟩

def xfpgaFpgaGetMetricsInfo (env : CallEnv) (h : Handle) (params : Bool) (n : Nat) :
    Option (Answer (List (Option FpgaMetricInfo))) := metricsCall env params id h (metricsInfo n)

def metrics {ι : Type} (env : CallEnv) (keys : List (ι × FpgaMetric))
    (get : FpgaObjtype → Handle → ι → FpgaMetric → Option (Bool × FpgaMetric × Handle))
    (h : Handle) : Option (Answer (List FpgaMetric)) :=
  if env.objectType.1 ≠ .ok then some ⟨.invalidParam, false, none, h⟩
  else do
    let (found, metrics, h) ← eachMetric (get env.objectType.2) h keys
    some ⟨if found = 0 then .notFound else .ok, !keys.isEmpty, some metrics, h⟩

/-- Whatever comes of it, the values of the BMC are forgotten. -/
def xfpgaFpgaGetMetricsByIndex (env : CallEnv) (h : Handle) (params : Bool)
    (metricNums : List (UInt64 × FpgaMetric)) : Option (Answer (List FpgaMetric)) :=
  metricsCall env params clearCachedValues h
    (metrics env metricNums fun objtype => metricByIndex objtype env.values)

def xfpgaFpgaGetMetricsByName (env : CallEnv) (h : Handle) (params : Bool)
    (metricsNames : List (Option (List Char) × FpgaMetric)) : Option (Answer (List FpgaMetric)) :=
  metricsCall env (params && !metricsNames.isEmpty) clearCachedValues h
    (metrics env metricsNames fun objtype => metricByName objtype env.values)

end OpaeLibs.PluginXfpga.Metrics
