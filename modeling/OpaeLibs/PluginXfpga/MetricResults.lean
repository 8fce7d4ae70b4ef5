import OpaeLibs.PluginXfpga.BmcCache
import OpaeLibs.PluginXfpga.MetricNames
import OpaeLibs.PluginXfpga.MetricRuns

namespace OpaeLibs.PluginXfpga.MetricResults

open OpaeLibs.OpaeC.Props OpaeLibs.PluginXfpga.BmcMetrics OpaeLibs.PluginXfpga.BmcCache
  OpaeLibs.PluginXfpga.MetricVector OpaeLibs.PluginXfpga.Metrics OpaeLibs.PluginXfpga.MetricNames
  OpaeLibs.PluginXfpga.MetricRuns

/-- No pointer in the array of a vector is `NULL`. -/
def Pointers (v : MetricVector) : Prop := ∀ items, v.items = some items → none ∉ items

/-- No value of the BMC is kept from one call to the next. -/
structure Kept (h : Handle) : Prop where
  pointers : Pointers h.vector
  uncached : h.bmcMetricCacheValue = none

/-- A handle between two calls. -/
structure MetricsHandle where
  handle : Handle
  kept : Kept handle

/-- What a call meets. A read that fails does not report success. -/
structure QueryEnv extends CallEnv where
  failed : ∀ offset, values.mmio offset ≠ .error .ok

/-- The metrics of a vector, if its array has not been freed. -/
def known (v : MetricVector) : Option (List FpgaEnumMetric) :=
  (fpgaVectorItems v).map fun items => items.filterMap id

/-- How metrics are asked for: the number of a metric, if it is found, the number that is stored
where the metric cannot be read, and what is written to find it. -/
structure Query (ι : Type) where
  number : ι → MetricVector → Option (Option UInt64)
  failed : ι → UInt64
  writes : ι → List Write
  total : ∀ key v (found : List FpgaEnumMetric), fpgaVectorItems v = some (found.map some) →
    ∃ num, number key v = some num

def byIndex : Query UInt64 where
  number num _ := some (some num)
  failed num := num
  writes _ := []
  total num _ _ _ := ⟨some num, rfl⟩

theorem exists_parse {v : MetricVector} {found : List FpgaEnumMetric}
    (hv : fpgaVectorItems v = some (found.map some)) (name : Option (List Char)) :
    ∃ r, parseMetricNumName name v = some r := by
  unfold parseMetricNumName
  cases name.bind splitLastColon with
  | none => exact ⟨_, rfl⟩
  | some parts =>
    obtain ⟨m, hfind⟩ := findName_total parts.1 (parts.2.take metricNameMax) found
    simp only [hv, hfind, Option.bind_eq_bind, Option.bind_some]
    cases m with
    | none => exact ⟨_, rfl⟩
    | some m => exact ⟨_, rfl⟩

def byName : Query (Option (List Char)) where
  number name v := (parseMetricNumName name v).map fun (result, num) =>
    if result = .ok then some num else none
  failed _ := metricArrayInvalidIndex
  writes name := name.elim [] parseWrites
  total name v _ hv := by
    obtain ⟨r, hr⟩ := exists_parse hv name
    exact ⟨_, by rw [hr]; rfl⟩

section Readings

def afuValue (values : ValueEnv) (m : FpgaEnumMetric) : Option UInt64 :=
  match values.mmio m.mmioOffset with
  | .error _ => none
  | .ok csr => some (csr >>> 16)

def afuValues (values : ValueEnv) (found : List FpgaEnumMetric) (num : UInt64) : List UInt64 :=
  ((found.filter fun m => num = m.metricNum).mapM (afuValue values)).getD []

def isBmc (m : FpgaEnumMetric) : Bool := m.hwType = .dcpRc && isPwrThermal m

instance (bmc : BmcEnv) : Decidable (Fills bmc) := inferInstanceAs (Decidable (_ ∧ _))

/-- The valid readings of the sensors of a name, if the sensors can be read. -/
def bmcValues (bmc : BmcEnv) (metricName : List Char) : List UInt64 :=
  if Fills bmc then readings bmc metricName else []

def max10Values (values : ValueEnv) (m : FpgaEnumMetric) : List UInt64 :=
  if isMax10 m.hwType ∧ isPwrThermal m ∧ (values.max10 m).1 = .ok then [(values.max10 m).2] else []

def fmeValues (values : ValueEnv) (bmc : BmcEnv) (found : List FpgaEnumMetric) (num : UInt64) :
    List UInt64 :=
  match found.find? fun m => num = m.metricNum with
  | none => []
  | some m => if isBmc m then bmcValues bmc m.metricName else max10Values values m

/-- The values that can be read of the metric of a number. There is none just where the metric
cannot be read. -/
def metricValues (objtype : FpgaObjtype) (values : ValueEnv) (bmc : BmcEnv)
    (found : List FpgaEnumMetric) (num : UInt64) : List UInt64 :=
  match objtype with
  | .accelerator => afuValues values found num
  | .device => fmeValues values bmc found num

variable {ι : Type}

/-- The number of the metric that is asked for, if there is one. -/
def Query.asked (q : Query ι) (h : Handle) (key : ι) : Option UInt64 := (q.number key h.vector).join

def Query.values (q : Query ι) (env : CallEnv) (h : Handle) (key : ι) : List UInt64 :=
  match known h.vector, q.asked h key with
  | some found, some num =>
    metricValues env.objectType.2 env.values (bmcEnv env.values h) found num
  | _, _ => []

end Readings

section Contract

variable {ι : Type}

/-- The call comes to the metrics of the handle. -/
structure Served (env : CallEnv) (params : Bool) (h h' : Handle) : Prop where
  accepted : Accepted env params
  enumerated : enumFpgaMetrics env.enum h = some (.ok, h')
  objectType : env.objectType.1 = .ok

/-- What is stored of a metric, by the values that can be read of it. -/
structure Stores (values : List UInt64) (num : Option UInt64) (m : FpgaMetric) : Prop where
  valid : values ≠ [] → m.isvalid = true ∧ num = some m.metricNum ∧ m.value ∈ values
  invalid : values = [] → m.isvalid = false

/-- The call writes within its buffers, reports success just if a metric can be read, and then has
stored of each metric what can be read of it. -/
structure Filled (q : Query ι) (env : CallEnv) (params : Bool) (h : Handle)
    (keys : List (ι × FpgaMetric)) (r : Option (Answer (List FpgaMetric))) : Prop where
  inBounds : ∀ h', Served env params h h' → ∀ p ∈ keys, ∀ w ∈ q.writes p.1, w.count ≤ w.size
  answered : ∃ answer, r = some answer ∧
    (answer.result = .ok ↔
      ∃ h', Served env params h h' ∧ ∃ p ∈ keys, q.values env h' p.1 ≠ []) ∧
    (answer.result = .ok → ∀ h', Served env params h h' → ∃ out, answer.out = some out ∧
      List.Forall₂ (fun p m => Stores (q.values env h' p.1) (q.asked h' p.1) m) keys out)

end Contract

section Condition

variable {ι : Type}

/-- Reading a metric of the BMC reports it as found just if it has a value: the reading that fills
the cache reports what destroying the records returns, a later one what is in the cache. -/
def Reports (bmc : BmcEnv) (cached : Bool) (metricName : List Char) : Prop :=
  if cached then
    match firstCached bmc metricName with
    | some dvalue => dvalue ∈ bmcValues bmc metricName
    | none => bmcValues bmc metricName = []
  else bmc.loadSdrs = .ok → (bmc.destroySdrs = .ok ↔ bmcValues bmc metricName ≠ [])

/-- The metrics of the BMC one after the other, of which the first that can fills the cache. -/
def ReportsAll (bmc : BmcEnv) : Bool → List (List Char) → Prop
  | _, [] => True
  | cached, metricName :: metricNames =>
    Reports bmc cached metricName ∧
      ReportsAll bmc (cached || Fills bmc) metricNames

/-- The name of a sensor of the BMC, if the metric of the number is one of it. -/
def sensorName (found : List FpgaEnumMetric) (num : UInt64) : Option (List Char) :=
  ((found.find? fun m => num = m.metricNum).filter isBmc).map FpgaEnumMetric.metricName

/-- The name of the sensor that is asked for, if it is one of the BMC. -/
def Query.bmcName (q : Query ι) (env : CallEnv) (h : Handle) (key : ι) : Option (List Char) :=
  match env.objectType.2, known h.vector, q.asked h key with
  | .device, some found, some num => sensorName found num
  | _, _, _ => none

/-- What nothing is stored into holds already what has to be stored. -/
def Query.Prior (q : Query ι) (env : CallEnv) (h : Handle) (p : ι × FpgaMetric) : Prop :=
  match env.objectType.2 with
  | .accelerator =>
    if q.values env h p.1 = [] then p.2.isvalid = false
    else p.2.isvalid = true ∧ q.asked h p.1 = some p.2.metricNum
  | .device => q.asked h p.1 = none → p.2.isvalid = false

/-- The names have room, a freed vector is not looked at, the metrics of the BMC are reported as
found just if they have a value, and if any metric can be read, what nothing is stored into holds
already what has to be stored. -/
structure Consistent (q : Query ι) (env : CallEnv) (h : Handle) (keys : List (ι × FpgaMetric)) :
    Prop where
  inBounds : ∀ p ∈ keys, ∀ w ∈ q.writes p.1, w.count ≤ w.size
  read : known h.vector = none → ∀ p ∈ keys, q.number p.1 h.vector = some none
  bmc : ReportsAll (bmcEnv env.values h) false (keys.filterMap fun p => q.bmcName env h p.1)
  prior : (∃ p ∈ keys, q.values env h p.1 ≠ []) → ∀ p ∈ keys, q.Prior env h p

end Condition

section Values

variable {values : ValueEnv} {found : List FpgaEnumMetric} {num : UInt64}

theorem readAfuMetrics_eq (hfailed : ∀ offset, values.mmio offset ≠ .error .ok) (num : UInt64)
    (found : List FpgaEnumMetric) (result : FpgaResult) (metric : FpgaMetric) :
    ∃ result' value, readAfuMetrics values num (found.map some) result metric =
        some (result', { metric with value := value }) ∧
      match (found.filter fun m => num = m.metricNum).mapM (afuValue values) with
      | none => result' ≠ .ok
      | some [] => result' = result ∧ value = metric.value
      | some (v :: vs) => result' = .ok ∧ value ∈ v :: vs := by
  induction found generalizing result metric with
  | nil => exact ⟨result, metric.value, rfl, rfl, rfl⟩
  | cons m found ih =>
    rw [List.map_cons, readAfuMetrics]
    by_cases hnum : num = m.metricNum
    swap
    · rw [if_neg hnum, List.filter_cons_of_neg (by simpa using hnum)]
      exact ih result metric
    rw [if_pos hnum, List.filter_cons_of_pos (by simpa using hnum), List.mapM_cons, afuValue]
    cases hread : values.mmio m.mmioOffset with
    | error e =>
      refine ⟨e, metric.value, rfl, ?_⟩
      intro he
      exact hfailed m.mmioOffset (he ▸ hread)
    | ok csr =>
      obtain ⟨result', value, hrest, hcases⟩ := ih .ok { metric with value := csr >>> 16 }
      refine ⟨result', value, hrest, ?_⟩
      simp only [Option.bind_eq_bind, Option.bind_some, Option.pure_def]
      cases hvalues : (found.filter fun m => num = m.metricNum).mapM (afuValue values) with
      | none =>
        rw [hvalues] at hcases
        exact hcases
      | some vs =>
        rw [hvalues] at hcases
        cases vs with
        | nil => exact ⟨hcases.1, List.mem_singleton.mpr hcases.2⟩
        | cons v vs => exact ⟨hcases.1, List.mem_cons_of_mem _ hcases.2⟩

/-- What is read for a metric: it is found just if it has a value, and then a value of it is
stored. -/
def Good (values : List UInt64) (isFound : Bool) (value : UInt64) : Prop :=
  (isFound = true ↔ values ≠ []) ∧ (isFound = true → value ∈ values)

theorem readAfuMetrics_good (hfailed : ∀ offset, values.mmio offset ≠ .error .ok) (num : UInt64)
    (found : List FpgaEnumMetric) (metric : FpgaMetric) :
    ∃ result value, readAfuMetrics values num (found.map some) .notFound metric =
        some (result, { metric with value := value }) ∧
      Good (afuValues values found num) (decide (result = .ok)) value := by
  obtain ⟨result, value, hread, hcases⟩ :=
    readAfuMetrics_eq hfailed num found .notFound metric
  refine ⟨result, value, hread, ?_⟩
  rw [Good, decide_eq_true_iff, afuValues]
  cases hvalues : (found.filter fun m => num = m.metricNum).mapM (afuValue values) with
  | none =>
    rw [hvalues] at hcases
    exact ⟨iff_of_false hcases fun h => h rfl, fun hok => absurd hok hcases⟩
  | some vs =>
    rw [hvalues] at hcases
    cases vs with
    | nil =>
      obtain ⟨rfl, -⟩ := hcases
      exact ⟨iff_of_false nofun fun h => h rfl, nofun⟩
    | cons v vs =>
      obtain ⟨rfl, hvalue⟩ := hcases
      exact ⟨iff_of_true rfl (List.cons_ne_nil v vs), fun _ => hvalue⟩

def cacheOf (bmc : BmcEnv) (cached : Bool) : BmcMetricCache :=
  if cached then some (cells bmc) else none

theorem getBmcMetricsValues_unfilled {bmc : BmcEnv} (h : ¬Fills bmc) (metricName : List Char) :
    getBmcMetricsValues bmc none metricName =
      ((if bmc.loadSdrs = .ok then bmc.destroySdrs else bmc.loadSdrs, none), none) := by
  by_cases hload : bmc.loadSdrs = .ok
  · have hcalloc : bmc.calloc = false := Bool.eq_false_iff.mpr fun hcalloc => h ⟨hload, hcalloc⟩
    simp [getBmcMetricsValues, hload, hcalloc]
  · simp [getBmcMetricsValues, hload]

theorem good_uncached (bmc : BmcEnv) (metricName : List Char) (value : UInt64) :
    ∃ result dvalue, getBmcMetricsValues bmc none metricName =
        ((result, dvalue), cacheOf bmc (Fills bmc)) ∧
      (Good (bmcValues bmc metricName) (decide (result = .ok)) (dvalue.getD value) ↔
        Reports bmc false metricName) := by
  by_cases hfills : Fills bmc
  · refine ⟨bmc.destroySdrs, (readings bmc metricName).getLast?, ?_, ?_⟩
    · rw [getBmcMetricsValues_fill hfills, cacheOf, decide_eq_true hfills, if_pos rfl]
    rw [Good, Reports, if_neg Bool.false_ne_true, forall_prop_of_true hfills.1,
      decide_eq_true_iff, bmcValues, if_pos hfills]
    apply and_iff_left_of_imp
    intro hreports hok
    obtain ⟨v, hv⟩ := Option.ne_none_iff_exists'.mp
      (mt List.getLast?_eq_none_iff.mp (hreports.mp hok))
    rw [hv]
    exact List.mem_of_getLast? hv
  · refine ⟨if bmc.loadSdrs = .ok then bmc.destroySdrs else bmc.loadSdrs, none, ?_, ?_⟩
    · rw [getBmcMetricsValues_unfilled hfills, cacheOf, decide_eq_false hfills,
        if_neg Bool.false_ne_true]
    rw [Good, Reports, if_neg Bool.false_ne_true, decide_eq_true_iff, bmcValues, if_neg hfills]
    by_cases hload : bmc.loadSdrs = .ok
    · simp [hload]
    · simp [hload]

theorem getBmcMetricsValues_good (bmc : BmcEnv) (cached : Bool) (metricName : List Char)
    (value : UInt64) :
    ∃ result dvalue, getBmcMetricsValues bmc (cacheOf bmc cached) metricName =
        ((result, dvalue), cacheOf bmc (cached || Fills bmc)) ∧
      (Good (bmcValues bmc metricName) (decide (result = .ok)) (dvalue.getD value) ↔
        Reports bmc cached metricName) := by
  cases cached with
  | false => exact good_uncached bmc metricName value
  | true =>
    have hread := getBmcMetricsValues_cells bmc metricName
    have hcache := getBmcMetricsValues_cached bmc (cells bmc) metricName
    refine ⟨_, _, Prod.ext hread hcache, ?_⟩
    rw [Reports, if_pos rfl]
    cases firstCached bmc metricName with
    | none => simp [Good]
    | some dvalue => simpa [Good] using List.ne_nil_of_mem

end Values

section Rows

variable {ι : Type}

/-- Looks for a metric and reads it. -/
def Query.get (q : Query ι) (objtype : FpgaObjtype) (values : ValueEnv) (h : Handle) (key : ι)
    (metric : FpgaMetric) : Option (Bool × FpgaMetric × Handle) := do
  match ← q.number key h.vector with
  | none => some (false, { metric with metricNum := q.failed key }, h)
  | some num =>
    let (result, metric, h) ← getMetricValue objtype values h num metric
    if result ≠ .ok then some (false, { metric with metricNum := q.failed key }, h)
    else some (true, metric, h)

theorem metricByIndex_eq (objtype : FpgaObjtype) (values : ValueEnv) :
    metricByIndex objtype values = byIndex.get objtype values := by
  funext h num metric
  rfl

theorem metricByName_eq (objtype : FpgaObjtype) (values : ValueEnv) :
    metricByName objtype values = byName.get objtype values := by
  funext h name metric
  simp only [metricByName, Query.get, byName, Option.bind_eq_bind]
  cases parseMetricNumName name h.vector with
  | none => rfl
  | some r =>
    obtain ⟨result, num⟩ := r
    by_cases hresult : result = .ok
    · simp [hresult]
    · simp [hresult]

/-- One metric that is asked for, whether it is found, and what is stored of it. -/
structure Row (ι : Type) where
  request : ι × FpgaMetric
  isFound : Bool
  stored : FpgaMetric

/-- What reading stores beside the value. -/
def Fetched (q : Query ι) (env : CallEnv) (h : Handle) (r : Row ι) : Prop :=
  match env.objectType.2, q.asked h r.request.1 with
  | .accelerator, none => r.isFound = false ∧ r.stored.isvalid = r.request.2.isvalid
  | .accelerator, some _ => r.stored.isvalid = r.request.2.isvalid ∧
      (r.isFound = true → r.stored.metricNum = r.request.2.metricNum) ∧
      Good (q.values env h r.request.1) r.isFound r.stored.value
  | .device, none => r.isFound = false ∧ r.stored.isvalid = r.request.2.isvalid
  | .device, some num => r.stored.isvalid = r.isFound ∧
      (r.isFound = true → r.stored.metricNum = num)

theorem findMetric_eq (num : UInt64) (found : List FpgaEnumMetric) :
    findMetric num (found.map some) = some (found.find? fun m => num = m.metricNum) := by
  induction found with
  | nil => rfl
  | cons m found ih =>
    rw [List.map_cons, findMetric, List.find?_cons, ih]
    by_cases hnum : num = m.metricNum
    · simp [hnum]
    · simp [hnum]

theorem good_nil (value : UInt64) : Good [] false value :=
  ⟨iff_of_false nofun fun h => h rfl, nofun⟩

def withCache (values : ValueEnv) (h : Handle) (cached : Bool) : Handle :=
  { h with bmcMetricCacheValue := cacheOf (bmcEnv values h) cached }

theorem max10_good (values : ValueEnv) (m : FpgaEnumMetric) (num : UInt64) (metric : FpgaMetric) :
    ∃ result num' value,
      (if isMax10 m.hwType ∧ isPwrThermal m then
        ((values.max10 m).1, (⟨num, (values.max10 m).2, decide ((values.max10 m).1 = .ok)⟩ :
          FpgaMetric))
      else (.notFound, { metric with isvalid := false })) =
        (result, ⟨num', value, decide (result = .ok)⟩) ∧
      (result = .ok → num' = num) ∧
      Good (max10Values values m) (decide (result = .ok)) value := by
  by_cases hmax : isMax10 m.hwType = true ∧ isPwrThermal m = true
  · refine ⟨_, _, _, if_pos hmax, fun _ => rfl, ?_⟩
    by_cases hresult : (values.max10 m).1 = .ok
    · simp [max10Values, hmax, hresult, Good]
    · simp [max10Values, hresult, Good]
  · refine ⟨.notFound, metric.metricNum, metric.value, if_neg hmax, nofun, ?_⟩
    have hnil : max10Values values m = [] := if_neg fun h => hmax ⟨h.1, h.2.1⟩
    rw [hnil]
    exact good_nil _

theorem getMetricValue_device (values : ValueEnv) {h : Handle} {found : List FpgaEnumMetric}
    (hv : fpgaVectorItems h.vector = some (found.map some)) (cached : Bool) (num : UInt64)
    (metric : FpgaMetric) :
    ∃ result num' value cached',
      getMetricValue .device values (withCache values h cached) num metric =
        some (result, ⟨num', value, decide (result = .ok)⟩, withCache values h cached') ∧
      (result = .ok → num' = num) ∧
      ∀ names, ReportsAll (bmcEnv values h) cached ((sensorName found num).toList ++ names) ↔
        Good (fmeValues values (bmcEnv values h) found num) (decide (result = .ok)) value ∧
          ReportsAll (bmcEnv values h) cached' names := by
  have hitems : fpgaVectorItems (withCache values h cached).vector = some (found.map some) := hv
  simp only [getMetricValue, getFmeMetricValue, hitems, findMetric_eq, Option.bind_eq_bind,
    Option.bind_some]
  rw [sensorName, fmeValues]
  cases hfind : found.find? fun m => num = m.metricNum with
  | none =>
    refine ⟨.notFound, metric.metricNum, metric.value, cached, rfl, (fun h => by cases h),
      fun names => ?_⟩
    exact (and_iff_right (good_nil _)).symm
  | some m =>
    cases hbmc : isBmc m with
    | true =>
      obtain ⟨result, dvalue, hread, hgood⟩ :=
        getBmcMetricsValues_good (bmcEnv values h) cached m.metricName metric.value
      refine ⟨result, num, dvalue.getD metric.value, cached || Fills (bmcEnv values h), ?_,
        fun _ => rfl, fun names => ?_⟩
      · have hsensor : m.hwType = .dcpRc ∧ isPwrThermal m = true := by simpa [isBmc] using hbmc
        have hread' : getBmcMetricsValues (bmcEnv values (withCache values h cached))
            (withCache values h cached).bmcMetricCacheValue m.metricName = _ := hread
        dsimp only
        rw [if_pos hsensor, hread']
        rfl
      · simp only [Option.filter_some, hbmc, if_true, Option.map_some, Option.toList_some,
          List.singleton_append, ReportsAll]
        rw [hgood]
    | false =>
      obtain ⟨result, num', value, hread, hnum, hgood⟩ := max10_good values m num metric
      refine ⟨result, num', value, cached, ?_, hnum, fun names => ?_⟩
      · have hsensor : ¬(m.hwType = .dcpRc ∧ isPwrThermal m = true) := by simpa [isBmc] using hbmc
        dsimp only
        rw [if_neg hsensor]
        by_cases hmax : isMax10 m.hwType = true ∧ isPwrThermal m = true
        · rw [if_pos hmax] at hread ⊢
          obtain ⟨rfl, hmetric⟩ := Prod.mk.inj hread
          rw [hmetric]
        · rw [if_neg hmax] at hread ⊢
          obtain ⟨rfl, hmetric⟩ := Prod.mk.inj hread
          rw [hmetric]
      · simp only [Option.filter_some, hbmc, Bool.false_eq_true, if_false, Option.map_none,
          Option.toList_none, List.nil_append]
        exact (and_iff_right hgood).symm

theorem known_eq {v : MetricVector} {found : List FpgaEnumMetric}
    (hv : fpgaVectorItems v = some (found.map some)) : known v = some found := by
  rw [known, hv, Option.map_some, List.filterMap_map]
  exact congrArg some List.filterMap_some

variable (q : Query ι) (env : QueryEnv) {h : Handle} {found : List FpgaEnumMetric}

theorem get_unasked (cached : Bool) (p : ι × FpgaMetric)
    (hnum : q.number p.1 h.vector = some none) :
    q.get env.objectType.2 env.values (withCache env.values h cached) p.1 p.2 =
        some (false, { p.2 with metricNum := q.failed p.1 }, withCache env.values h cached) ∧
      q.values env.toCallEnv h p.1 = [] ∧ q.bmcName env.toCallEnv h p.1 = none := by
  have hnum' : q.number p.1 (withCache env.values h cached).vector = some none := hnum
  have hasked : q.asked h p.1 = none := by rw [Query.asked, hnum, Option.join_some]
  refine ⟨?_, ?_, ?_⟩
  · simp only [Query.get, hnum', Option.bind_eq_bind, Option.bind_some]
  · rw [Query.values, hasked]
    cases known h.vector <;> rfl
  · rw [Query.bmcName, hasked]
    cases env.objectType.2 <;> cases known h.vector <;> rfl

theorem get_step (hv : fpgaVectorItems h.vector = some (found.map some)) (cached : Bool)
    (p : ι × FpgaMetric) :
    ∃ isFound stored cached',
      q.get env.objectType.2 env.values (withCache env.values h cached) p.1 p.2 =
        some (isFound, stored, withCache env.values h cached') ∧
      Fetched q env.toCallEnv h ⟨p, isFound, stored⟩ ∧
      ∀ names, ReportsAll (bmcEnv env.values h) cached
          ((q.bmcName env.toCallEnv h p.1).toList ++ names) ↔
        Good (q.values env.toCallEnv h p.1) isFound stored.value ∧
          ReportsAll (bmcEnv env.values h) cached' names := by
  obtain ⟨asked, hnum⟩ := q.total p.1 h.vector found hv
  have hasked : q.asked h p.1 = asked := by rw [Query.asked, hnum, Option.join_some]
  cases asked with
  | none =>
    obtain ⟨hget, hvalues, hname⟩ := get_unasked q env cached p hnum
    refine ⟨false, _, cached, hget, ?_, fun names => ?_⟩
    · rw [Fetched, hasked]
      cases env.objectType.2 <;> exact ⟨rfl, rfl⟩
    · rw [hvalues, hname]
      exact (and_iff_right (good_nil _)).symm
  | some num =>
    have hnum' : q.number p.1 (withCache env.values h cached).vector = some (some num) := hnum
    simp only [Query.get, hnum', Option.bind_eq_bind, Option.bind_some, Fetched, hasked,
      Query.values, Query.bmcName, known_eq hv, metricValues]
    cases env.objectType.2 with
    | accelerator =>
      obtain ⟨result, value, hread, hgood⟩ := readAfuMetrics_good env.failed num found p.2
      have hitems : fpgaVectorItems (withCache env.values h cached).vector =
          some (found.map some) := hv
      simp only [getMetricValue, getAfuMetricValue, hitems, hread, Option.bind_eq_bind,
        Option.bind_some]
      by_cases hresult : result = .ok
      · rw [decide_eq_true hresult] at hgood
        exact ⟨true, _, cached, if_neg (not_not.mpr hresult), ⟨rfl, fun _ => rfl, hgood⟩,
          fun _ => (and_iff_right hgood).symm⟩
      · rw [decide_eq_false hresult] at hgood
        exact ⟨false, _, cached, if_pos hresult, ⟨rfl, (fun h => by cases h), hgood⟩,
          fun _ => (and_iff_right hgood).symm⟩
    | device =>
      obtain ⟨result, num', value, cached', hread, hsame, hgood⟩ :=
        getMetricValue_device env.values hv cached num p.2
      simp only [hread, Option.bind_some]
      by_cases hresult : result = .ok
      · rw [decide_eq_true hresult] at hgood ⊢
        exact ⟨true, _, cached', if_neg (not_not.mpr hresult), ⟨rfl, fun _ => hsame hresult⟩, hgood⟩
      · rw [decide_eq_false hresult] at hgood ⊢
        exact ⟨false, _, cached', if_pos hresult, ⟨rfl, fun h => by cases h⟩, hgood⟩

theorem eachMetric_rows (hv : fpgaVectorItems h.vector = some (found.map some)) (cached : Bool)
    (keys : List (ι × FpgaMetric)) :
    ∃ (rows : List (Row ι)) (h' : Handle), keys = rows.map Row.request ∧
      eachMetric (q.get env.objectType.2 env.values) (withCache env.values h cached) keys =
        some (rows.countP Row.isFound, rows.map Row.stored, h') ∧
      (∀ r ∈ rows, Fetched q env.toCallEnv h r) ∧
      (ReportsAll (bmcEnv env.values h) cached
          (keys.filterMap fun p => q.bmcName env.toCallEnv h p.1) ↔
        ∀ r ∈ rows, Good (q.values env.toCallEnv h r.request.1) r.isFound r.stored.value) := by
  induction keys generalizing cached with
  | nil => exact ⟨[], _, rfl, rfl, nofun, iff_of_true trivial nofun⟩
  | cons p keys ih =>
    obtain ⟨isFound, stored, cached', hget, hfetched, hreports⟩ := get_step q env hv cached p
    obtain ⟨rows, h', hkeys, heach, hrows, hgood⟩ := ih cached'
    refine ⟨⟨p, isFound, stored⟩ :: rows, h', by rw [List.map_cons, ← hkeys], ?_, ?_, ?_⟩
    · rw [eachMetric, hget]
      simp only [heach, Option.bind_eq_bind, Option.bind_some, List.countP_cons, List.map_cons]
      cases isFound <;> rfl
    · exact List.forall_mem_cons.mpr ⟨hfetched, hrows⟩
    · have hnames : (p :: keys).filterMap (fun p => q.bmcName env.toCallEnv h p.1) =
          (q.bmcName env.toCallEnv h p.1).toList ++
            keys.filterMap fun p => q.bmcName env.toCallEnv h p.1 := by
        rw [List.filterMap_cons]
        cases q.bmcName env.toCallEnv h p.1 <;> rfl
      rw [hnames, hreports, hgood, List.forall_mem_cons]

end Rows

section Contracts

variable {ι : Type} {q : Query ι} {env : CallEnv} {h : Handle} {r : Row ι}

theorem values_of_unasked {key : ι} (hasked : q.asked h key = none) : q.values env h key = [] := by
  rw [Query.values, hasked]
  cases known h.vector <;> rfl

theorem good_of_stores (hfetched : Fetched q env h r)
    (hstores : Stores (q.values env h r.request.1) (q.asked h r.request.1) r.stored) :
    Good (q.values env h r.request.1) r.isFound r.stored.value := by
  rw [Fetched] at hfetched
  cases hasked : q.asked h r.request.1 with
  | none =>
    rw [hasked] at hfetched
    have hfound : r.isFound = false := by
      revert hfetched
      cases env.objectType.2 <;> exact And.left
    rw [values_of_unasked hasked, hfound]
    exact good_nil _
  | some num =>
    rw [hasked] at hfetched
    cases hkind : env.objectType.2 with
    | accelerator =>
      rw [hkind] at hfetched
      exact hfetched.2.2
    | device =>
      rw [hkind] at hfetched
      rw [Good, ← hfetched.1]
      refine ⟨⟨fun hvalid hnil => ?_, fun hvalues => (hstores.valid hvalues).1⟩, fun hvalid => ?_⟩
      · exact nomatch hvalid.symm.trans (hstores.invalid hnil)
      · have hvalues : q.values env h r.request.1 ≠ [] := fun hnil =>
          nomatch hvalid.symm.trans (hstores.invalid hnil)
        exact (hstores.valid hvalues).2.2

theorem stores_nil {num : Option UInt64} {m : FpgaMetric} : Stores [] num m ↔ m.isvalid = false :=
  ⟨fun h => h.invalid rfl, fun h => ⟨fun hnil => absurd rfl hnil, fun _ => h⟩⟩

theorem stores_of_ne {values : List UInt64} {num : Option UInt64} {m : FpgaMetric}
    (hvalues : values ≠ []) :
    Stores values num m ↔ m.isvalid = true ∧ num = some m.metricNum ∧ m.value ∈ values :=
  ⟨fun h => h.valid hvalues, fun h => ⟨fun _ => h, fun hnil => absurd hnil hvalues⟩⟩

theorem Fetched.isvalid_eq (hfetched : Fetched q env h r)
    (hkind : env.objectType.2 = .accelerator) :
    r.stored.isvalid = r.request.2.isvalid := by
  rw [Fetched, hkind] at hfetched
  cases hasked : q.asked h r.request.1 with
  | none =>
    rw [hasked] at hfetched
    exact hfetched.2
  | some num =>
    rw [hasked] at hfetched
    exact hfetched.1

/-- What is found as it must is stored as it must, if what nothing is stored into is so already. -/
theorem stores_iff (hfetched : Fetched q env h r)
    (hgood : Good (q.values env h r.request.1) r.isFound r.stored.value) :
    Stores (q.values env h r.request.1) (q.asked h r.request.1) r.stored ↔
      q.Prior env h r.request := by
  have hvalid := hfetched.isvalid_eq
  rw [Fetched] at hfetched
  rw [Query.Prior]
  by_cases hvalues : q.values env h r.request.1 = []
  · rw [hvalues, stores_nil]
    have hno : r.isFound = false := Bool.eq_false_iff.mpr fun h => hgood.1.mp h hvalues
    cases hkind : env.objectType.2 with
    | accelerator =>
      rw [hvalid hkind]
      exact (if_pos rfl).symm ▸ Iff.rfl
    | device =>
      rw [hkind] at hfetched
      cases hasked : q.asked h r.request.1 with
      | none =>
        rw [hasked] at hfetched
        rw [hfetched.2]
        exact ⟨fun h _ => h, fun h => h rfl⟩
      | some num =>
        rw [hasked] at hfetched
        exact iff_of_true (hfetched.1.trans hno) nofun
  · rw [stores_of_ne hvalues]
    have hyes : r.isFound = true := hgood.1.mpr hvalues
    have hvalue := hgood.2 hyes
    cases hasked : q.asked h r.request.1 with
    | none => exact absurd (values_of_unasked hasked) hvalues
    | some num =>
      rw [hasked] at hfetched
      cases hkind : env.objectType.2 with
      | accelerator =>
        rw [hkind] at hfetched
        have hnum := hfetched.2.1 hyes
        simp only [hvalues, if_false, hvalid hkind, hnum, hvalue, and_true]
      | device =>
        rw [hkind] at hfetched
        obtain ⟨hvalid, hnum⟩ := hfetched
        exact iff_of_true ⟨hvalid.trans hyes, congrArg some (hnum hyes).symm, hvalue⟩ nofun

theorem countP_ne_zero {rows : List (Row ι)} :
    rows.countP Row.isFound ≠ 0 ↔ ∃ r ∈ rows, r.isFound = true := by
  rw [← Nat.pos_iff_ne_zero, List.countP_pos_iff]

theorem rows_iff {rows : List (Row ι)} (hfetched : ∀ r ∈ rows, Fetched q env h r) :
    ((rows.countP Row.isFound ≠ 0 ↔ ∃ r ∈ rows, q.values env h r.request.1 ≠ []) ∧
      (rows.countP Row.isFound ≠ 0 → ∀ r ∈ rows,
        Stores (q.values env h r.request.1) (q.asked h r.request.1) r.stored)) ↔
    (∀ r ∈ rows, Good (q.values env h r.request.1) r.isFound r.stored.value) ∧
      ((∃ r ∈ rows, q.values env h r.request.1 ≠ []) → ∀ r ∈ rows, q.Prior env h r.request) := by
  rw [countP_ne_zero]
  constructor
  · rintro ⟨hfound, hstores⟩
    have hgood : ∀ r ∈ rows, Good (q.values env h r.request.1) r.isFound r.stored.value := by
      by_cases hany : ∃ r ∈ rows, r.isFound = true
      · exact fun r hr => good_of_stores (hfetched r hr) (hstores hany r hr)
      · intro r hr
        have hnil : q.values env h r.request.1 = [] := by
          by_contra hvalues
          exact hany (hfound.mpr ⟨r, hr, hvalues⟩)
        have hno : r.isFound = false := Bool.eq_false_iff.mpr fun h => hany ⟨r, hr, h⟩
        rw [hnil, hno]
        exact good_nil _
    refine ⟨hgood, fun hany r hr => ?_⟩
    exact (stores_iff (hfetched r hr) (hgood r hr)).mp (hstores (hfound.mpr hany) r hr)
  · rintro ⟨hgood, hprior⟩
    have hfound : (∃ r ∈ rows, r.isFound = true) ↔
        ∃ r ∈ rows, q.values env h r.request.1 ≠ [] := by
      apply exists_congr
      intro r
      exact and_congr_right fun hr => (hgood r hr).1
    refine ⟨hfound, fun hany r hr => ?_⟩
    exact (stores_iff (hfetched r hr) (hgood r hr)).mpr (hprior (hfound.mp hany) r hr)

end Contracts

section Calls

theorem pointers_none {capacity total : Nat} : Pointers ⟨none, capacity, total⟩ :=
  fun _ h => nomatch h

theorem pointers_init (malloc : Bool) : Pointers (fpgaVectorInit malloc).2 := by
  cases malloc with
  | false => exact pointers_none
  | true =>
    rintro items hitems
    obtain rfl := Option.some.inj hitems
    exact List.not_mem_nil

theorem pointers_resize {v : MetricVector} (h : Pointers v) (realloc : Bool) (capacity : Nat) :
    Pointers (fpgaVectorResize realloc v capacity).2 := by
  cases realloc with
  | false => exact h
  | true =>
    intro items hitems
    obtain rfl := Option.some.inj hitems
    cases hv : v.items with
    | none => exact List.not_mem_nil
    | some items => exact h items hv

theorem pointers_push {v v' : MetricVector} {realloc : Bool} {m : FpgaEnumMetric}
    {result : FpgaResult} (h : Pointers v)
    (hpush : fpgaVectorPush realloc v m = some (result, v')) : Pointers v' := by
  have hroom : Pointers (if v.capacity = v.total then fpgaVectorResize realloc v (v.capacity * 2)
      else (.ok, v)).2 := by
    split
    · exact pointers_resize h realloc _
    · exact h
  rw [fpgaVectorPush] at hpush
  revert hpush hroom
  generalize (if v.capacity = v.total then fpgaVectorResize realloc v (v.capacity * 2)
    else (.ok, v)) = r
  obtain ⟨result', room⟩ := r
  intro hpush hroom
  dsimp only at hpush
  split at hpush
  · obtain ⟨-, rfl⟩ := Prod.mk.inj (Option.some.inj hpush)
    exact hroom
  · obtain ⟨items, hitems, hv'⟩ := Option.map_eq_some_iff.mp hpush
    obtain ⟨-, rfl⟩ := Prod.mk.inj hv'
    intro items' hitems'
    obtain rfl := Option.some.inj hitems'
    rw [List.mem_append, List.mem_singleton]
    exact fun hmem => hmem.elim (hroom items hitems) nofun

theorem pointers_addAll {additions : List Addition} {v v' : MetricVector} (h : Pointers v)
    (hall : addAll additions v = some v') : Pointers v' := by
  induction additions generalizing v with
  | nil => exact Option.some.inj hall ▸ h
  | cons a additions ih =>
    obtain ⟨⟨result, v₁⟩, hadd, hrest⟩ := Option.bind_eq_some_iff.mp hall
    refine ih ?_ hrest
    rw [addMetricVector] at hadd
    split at hadd
    · obtain ⟨-, rfl⟩ := Prod.mk.inj (Option.some.inj hadd)
      exact h
    · obtain ⟨⟨result', v₂⟩, hpush, hv₂⟩ := Option.map_eq_some_iff.mp hadd
      obtain ⟨-, rfl⟩ := Prod.mk.inj hv₂
      exact pointers_push h hpush

theorem pointers_run {e : Enumeration} {v v' : MetricVector} {result : FpgaResult}
    (h : Pointers v) (hrun : e.run v = some (result, v')) : Pointers v' := by
  obtain ⟨v₁, hall, hv₁⟩ := Option.map_eq_some_iff.mp hrun
  obtain ⟨-, rfl⟩ := Prod.mk.inj hv₁
  exact pointers_addAll h hall

theorem kept_free {realloc : Nat → Bool} {h h' : Handle}
    (hfree : freeFpgaEnumMetricsVector realloc h = some h') : Kept h' := by
  simp only [freeFpgaEnumMetricsVector, Option.bind_eq_bind, Option.bind_eq_some_iff] at hfree
  obtain ⟨v, -, v', hv', hh'⟩ := hfree
  obtain rfl := Option.some.inj hh'
  refine ⟨fun items hitems => ?_, rfl⟩
  have hnone : v'.items = none := by
    rw [fpgaVectorFree] at hv'
    split at hv'
    · rw [← Option.some.inj hv']
    · obtain ⟨_, -, rfl⟩ := Option.map_eq_some_iff.mp hv'
      rfl
  cases hnone.symm.trans hitems

theorem Kept.of_some {h h' : Handle} {result result' : FpgaResult} (hk : Kept h)
    (heq : some (result, h) = some (result', h')) : Kept h' :=
  (Prod.mk.inj (Option.some.inj heq)).2 ▸ hk

theorem kept_enum {env : EnumEnv} {h h' : Handle} {result : FpgaResult} (hk : Kept h)
    (henum : enumFpgaMetrics env h = some (result, h')) : Kept h' := by
  unfold enumFpgaMetrics at henum
  split at henum
  · exact hk.of_some henum
  split at henum
  · exact hk.of_some henum
  split at henum
  · exact hk.of_some henum
  have hinit := pointers_init env.malloc
  rcases hv₀ : fpgaVectorInit (α := FpgaEnumMetric) env.malloc with ⟨result₀, v₀⟩
  rw [hv₀] at hinit henum
  have hk₀ : Kept { h with vector := v₀ } := ⟨hinit, hk.uncached⟩
  dsimp only at hinit henum
  split at henum
  · exact hk₀.of_some henum
  cases hkind : env.objectType.2 with
  | accelerator =>
    rw [hkind] at henum
    dsimp only at henum
    split at henum
    · exact hk₀.of_some henum
    · obtain ⟨⟨result₁, v₁⟩, hrun, henum⟩ := Option.bind_eq_some_iff.mp henum
      have hv₁ := pointers_run hinit hrun
      dsimp only at henum
      split at henum
      · refine Kept.of_some ?_ henum
        exact ⟨hv₁, hk.uncached⟩
      · refine Kept.of_some ?_ henum
        exact ⟨hv₁, hk.uncached⟩
  | device =>
    rw [hkind] at henum
    dsimp only at henum
    split at henum
    · exact hk₀.of_some henum
    · obtain ⟨⟨result₁, v₁⟩, hrun, henum⟩ := Option.bind_eq_some_iff.mp henum
      obtain ⟨h₁, hfree, henum⟩ := Option.map_eq_some_iff.mp henum
      obtain ⟨-, rfl⟩ := Prod.mk.inj henum
      dsimp only at hfree
      split at hfree
      · have hkept := kept_free hfree
        exact ⟨hkept.pointers, hkept.uncached⟩
      · obtain rfl := Option.some.inj hfree
        exact ⟨pointers_run hinit hrun, hk.uncached⟩

theorem exists_enum (env : EnumEnv) (h : Handle) :
    ∃ result h', enumFpgaMetrics env h = some (result, h') := by
  cases hstatus : h.metricEnumStatus with
  | true => exact ⟨.ok, h, by rw [enumFpgaMetrics, if_pos hstatus]⟩
  | false =>
    obtain ⟨-, result, h', henum, -, -⟩ | ⟨e, -, h', henum, -, -⟩ := enum_cases env hstatus
    · exact ⟨result, h', henum⟩
    · exact ⟨e.result, h', henum⟩

variable {ι : Type} {env : CallEnv} {params : Bool} {h : Handle}

theorem metricsCall_cases (env : CallEnv) (params : Bool) (h : Handle)
    (keys : List (ι × FpgaMetric))
    (get : FpgaObjtype → Handle → ι → FpgaMetric → Option (Bool × FpgaMetric × Handle)) :
    (∃ h', Served env params h h' ∧
      metricsCall env params clearCachedValues h (metrics env keys get) =
        (eachMetric (get env.objectType.2) h' keys).map fun (found, out, h'') =>
          ⟨if found = 0 then .notFound else .ok, !keys.isEmpty, some out, clearCachedValues h''⟩) ∨
    (∀ h', ¬Served env params h h') ∧ ∃ answer,
      metricsCall env params clearCachedValues h (metrics env keys get) = some answer ∧
      answer.result ≠ .ok := by
  unfold metricsCall
  by_cases hcheck : env.check = .ok
  swap
  · rw [if_pos hcheck]
    exact .inr ⟨fun h' hs => hcheck hs.accepted.1, _, rfl, hcheck⟩
  rw [if_neg (not_not.mpr hcheck)]
  by_cases hfddev : env.fddev < 0
  · rw [if_pos hfddev]
    exact .inr ⟨fun h' hs => absurd hs.accepted.2.1 (Int.not_le.mpr hfddev), _, rfl, nofun⟩
  rw [if_neg hfddev]
  cases hparams : params with
  | false => exact .inr ⟨fun h' hs => (nomatch hs.accepted.2.2), _, rfl, nofun⟩
  | true =>
    obtain ⟨result, h', henum⟩ := exists_enum env.enum h
    simp only [Bool.not_true, Bool.false_eq_true, if_false, henum, Option.bind_some]
    by_cases hresult : result = .ok
    swap
    · rw [if_pos hresult]
      refine .inr ⟨fun h'' hs => hresult ?_, _, rfl, nofun⟩
      exact (Prod.mk.inj (Option.some.inj (henum.symm.trans hs.enumerated))).1
    rw [if_neg (not_not.mpr hresult), metrics]
    by_cases hobject : env.objectType.1 = .ok
    · rw [if_neg (not_not.mpr hobject)]
      refine .inl ⟨h', ⟨⟨hcheck, Int.not_lt.mp hfddev, rfl⟩, hresult ▸ henum, hobject⟩, ?_⟩
      cases eachMetric (get env.objectType.2) h' keys with
      | none => rfl
      | some r => rfl
    · rw [if_pos hobject]
      exact .inr ⟨fun h'' hs => hobject hs.objectType, _, rfl, nofun⟩

theorem Served.unique {h' h'' : Handle} (hs : Served env params h h')
    (hs' : Served env params h h'') : h'' = h' :=
  (Prod.mk.inj (Option.some.inj (hs'.enumerated.symm.trans hs.enumerated))).2

theorem Kept.known_cases (hk : Kept h) : fpgaVectorItems h.vector = none ∨
    ∃ found : List FpgaEnumMetric, fpgaVectorItems h.vector = some (found.map some) := by
  cases hitems : fpgaVectorItems h.vector with
  | none => exact .inl rfl
  | some items =>
    have hnone : none ∉ items := by
      rw [fpgaVectorItems] at hitems
      split at hitems
      · obtain rfl := Option.some.inj hitems
        exact List.not_mem_nil
      · exact hk.pointers items hitems
    refine .inr ⟨items.filterMap id, congrArg some ?_⟩
    clear hitems
    induction items with
    | nil => rfl
    | cons item items ih =>
      obtain ⟨hitem, hrest⟩ := not_or.mp (mt List.mem_cons.mpr hnone)
      obtain ⟨m, rfl⟩ := Option.ne_none_iff_exists'.mp (Ne.symm hitem)
      exact congrArg (some m :: ·) (ih hrest)

theorem eachMetric_freed (q : Query ι) (objtype : FpgaObjtype) (values : ValueEnv)
    (hfreed : fpgaVectorItems h.vector = none) (keys : List (ι × FpgaMetric)) :
    (∃ out, eachMetric (q.get objtype values) h keys = some (0, out, h)) ∧
        (∀ p ∈ keys, q.number p.1 h.vector = some none) ∨
      eachMetric (q.get objtype values) h keys = none ∧
        ¬∀ p ∈ keys, q.number p.1 h.vector = some none := by
  induction keys with
  | nil => exact .inl ⟨⟨[], rfl⟩, fun _ h => by cases h⟩
  | cons p keys ih =>
    rw [List.forall_mem_cons, eachMetric, Query.get]
    cases hnum : q.number p.1 h.vector with
    | none => exact .inr ⟨rfl, fun hall => by cases hall.1⟩
    | some asked =>
      cases asked with
      | none =>
        simp only [Option.bind_eq_bind, Option.bind_some]
        obtain ⟨⟨out, heach⟩, hall⟩ | ⟨heach, hnot⟩ := ih
        · rw [heach]
          exact .inl ⟨⟨_, rfl⟩, trivial, hall⟩
        · rw [heach]
          exact .inr ⟨rfl, fun hall => hnot hall.2⟩
      | some num =>
        have hnone : getMetricValue objtype values h num p.2 = none := by
          cases objtype with
          | accelerator => rw [getMetricValue, getAfuMetricValue, hfreed]; rfl
          | device => rw [getMetricValue, getFmeMetricValue, hfreed]; rfl
        simp only [Option.bind_eq_bind, Option.bind_some, hnone, Option.bind_none]
        exact .inr ⟨trivial, fun hall => by cases hall.1⟩

/-- A call leaves the handle as it is between two calls, if what comes after the enumeration
does. -/
theorem kept_metricsCall {β : Type} {finish : Handle → Handle} {body : Handle → Option (Answer β)}
    (hfinish : ∀ h, Kept h → Kept (finish h))
    (hbody : ∀ h answer, Kept h → body h = some answer → Kept (finish answer.handle))
    (hk : Kept h) {answer : Answer β}
    (hcall : metricsCall env params finish h body = some answer) : Kept answer.handle := by
  unfold metricsCall at hcall
  split at hcall
  · obtain rfl := Option.some.inj hcall
    exact hk
  split at hcall
  · obtain rfl := Option.some.inj hcall
    exact hfinish h hk
  split at hcall
  · obtain rfl := Option.some.inj hcall
    exact hfinish h hk
  obtain ⟨⟨result, h'⟩, henum, hcall⟩ := Option.bind_eq_some_iff.mp hcall
  have hk' := kept_enum hk henum
  dsimp only at hcall
  split at hcall
  · obtain rfl := Option.some.inj hcall
    exact hfinish h' hk'
  · obtain ⟨answer', hanswer, rfl⟩ := Option.map_eq_some_iff.mp hcall
    exact hbody h' answer' hk' hanswer

theorem kept_clear (hk : Kept h) : Kept (clearCachedValues h) := ⟨hk.pointers, rfl⟩

theorem kept_metrics (keys : List (ι × FpgaMetric))
    {get : FpgaObjtype → Handle → ι → FpgaMetric → Option (Bool × FpgaMetric × Handle)}
    (hget : ∀ objtype, Fetches (get objtype)) (h : Handle) (answer : Answer (List FpgaMetric))
    (hk : Kept h) (hanswer : metrics env keys get h = some answer) :
    Kept (clearCachedValues answer.handle) := by
  have hsame := (serves_metrics env keys hget).same h answer hanswer
  have hvector : (clearCachedValues answer.handle).vector = h.vector := hsame.vector
  exact ⟨hvector ▸ hk.pointers, rfl⟩

theorem kept_apply (hk : Kept h) (c : MetricRuns.Call) {answer : Answer Unit}
    (hcall : MetricRuns.apply h c = some answer) : Kept answer.handle := by
  unfold MetricRuns.apply at hcall
  cases hrequest : c.request with
  | numMetrics params =>
    rw [hrequest] at hcall
    obtain ⟨answer', hanswer, rfl⟩ := Option.map_eq_some_iff.mp hcall
    have hkept : Kept answer'.handle := by
      refine kept_metricsCall (fun _ hk => hk) (fun h answer hk hbody => ?_) hk hanswer
      obtain rfl := Option.some.inj hbody
      exact hk
    exact hkept
  | metricsInfo params n =>
    rw [hrequest] at hcall
    obtain ⟨answer', hanswer, rfl⟩ := Option.map_eq_some_iff.mp hcall
    have hkept : Kept answer'.handle := by
      refine kept_metricsCall (fun _ hk => hk) (fun h answer hk hbody => ?_) hk hanswer
      rw [metricsInfo] at hbody
      split at hbody
      · obtain ⟨items, -, rfl⟩ := Option.map_eq_some_iff.mp hbody
        exact hk
      · obtain rfl := Option.some.inj hbody
        exact hk
    exact hkept
  | byIndex params nums =>
    rw [hrequest] at hcall
    obtain ⟨answer', hanswer, rfl⟩ := Option.map_eq_some_iff.mp hcall
    exact kept_metricsCall (fun _ => kept_clear)
      (kept_metrics nums fun objtype => fetches_index objtype c.env.values) hk hanswer
  | byName params names =>
    rw [hrequest] at hcall
    obtain ⟨answer', hanswer, rfl⟩ := Option.map_eq_some_iff.mp hcall
    exact kept_metricsCall (fun _ => kept_clear)
      (kept_metrics names fun objtype => fetches_name objtype c.env.values) hk hanswer

theorem kept_opened : Kept opened := ⟨fun _ h => (by cases h), rfl⟩

/-- The handle that calls on an opened one leave. -/
def handleAfter (calls : List MetricRuns.Call) : Option Handle :=
  calls.foldlM (fun h c => (MetricRuns.apply h c).map Answer.handle) opened

/-- Whatever is called on a handle, it is one between two calls. -/
theorem exists_metricsHandle {calls : List MetricRuns.Call} (hcalls : handleAfter calls = some h) :
    ∃ between : MetricsHandle, between.handle = h := by
  suffices hkept : ∀ h₀, Kept h₀ →
      calls.foldlM (fun h c => (MetricRuns.apply h c).map Answer.handle) h₀ = some h → Kept h from
    ⟨⟨h, hkept opened kept_opened hcalls⟩, rfl⟩
  clear hcalls
  induction calls with
  | nil =>
    intro h₀ hk heq
    obtain rfl := Option.some.inj heq
    exact hk
  | cons c calls ih =>
    intro h₀ hk heq
    rw [List.foldlM_cons] at heq
    obtain ⟨h₁, hstep, hrest⟩ := Option.bind_eq_some_iff.mp heq
    obtain ⟨answer, hanswer, rfl⟩ := Option.map_eq_some_iff.mp hstep
    exact ih answer.handle (kept_apply hk c hanswer) hrest

theorem filled_of_served {q : Query ι} {h' : Handle} (hs : Served env params h h')
    (keys : List (ι × FpgaMetric)) (r : Option (Answer (List FpgaMetric))) :
    Filled q env params h keys r ↔ (∀ p ∈ keys, ∀ w ∈ q.writes p.1, w.count ≤ w.size) ∧
      ∃ answer, r = some answer ∧
        (answer.result = .ok ↔ ∃ p ∈ keys, q.values env h' p.1 ≠ []) ∧
        (answer.result = .ok → ∃ out, answer.out = some out ∧
          List.Forall₂ (fun p m => Stores (q.values env h' p.1) (q.asked h' p.1) m) keys out) := by
  constructor
  · rintro ⟨hbounds, answer, hr, hok, hout⟩
    refine ⟨hbounds h' hs, answer, hr, hok.trans ⟨?_, fun hany => ⟨h', hs, hany⟩⟩,
      fun h => hout h h' hs⟩
    rintro ⟨h'', hs'', hany⟩
    exact hs.unique hs'' ▸ hany
  · rintro ⟨hbounds, answer, hr, hok, hout⟩
    refine ⟨fun h'' hs'' => hbounds, answer, hr, hok.trans ⟨fun hany => ⟨h', hs, hany⟩, ?_⟩,
      fun h h'' hs'' => hs.unique hs'' ▸ hout h⟩
    rintro ⟨h'', hs'', hany⟩
    exact hs.unique hs'' ▸ hany

/-- The answer of a call whose metrics have been read. -/
def answered (keys : List (ι × FpgaMetric)) (r : Nat × List FpgaMetric × Handle) :
    Answer (List FpgaMetric) :=
  ⟨if r.1 = 0 then .notFound else .ok, !keys.isEmpty, some r.2.1, clearCachedValues r.2.2⟩

theorem filled_rows (q : Query ι) (env : QueryEnv) {h h' : Handle} {params : Bool}
    (hs : Served env.toCallEnv params h h') (huncached : h'.bmcMetricCacheValue = none)
    {found : List FpgaEnumMetric} (hv : fpgaVectorItems h'.vector = some (found.map some))
    (keys : List (ι × FpgaMetric)) :
    Filled q env.toCallEnv params h keys
        ((eachMetric (q.get env.objectType.2 env.values) h' keys).map (answered keys)) ↔
      Consistent q env.toCallEnv h' keys := by
  have hcache : withCache env.values h' false = h' := by
    rw [withCache, cacheOf, if_neg Bool.false_ne_true, ← huncached]
  obtain ⟨rows, h'', hkeys, heach, hfetched, hgood⟩ := eachMetric_rows q env hv false keys
  rw [hcache] at heach
  rw [filled_of_served hs, heach, Option.map_some]
  have hresult : (answered keys (rows.countP Row.isFound, rows.map Row.stored, h'')).result = .ok ↔
      rows.countP Row.isFound ≠ 0 := by
    rw [answered]
    split <;> simp_all
  have hrows := rows_iff hfetched
  have hany : (∃ p ∈ keys, q.values env.toCallEnv h' p.1 ≠ []) ↔
      ∃ r ∈ rows, q.values env.toCallEnv h' r.request.1 ≠ [] := by
    simp only [hkeys, List.mem_map, exists_exists_and_eq_and]
  have hstores : (∃ out, (answered keys (rows.countP Row.isFound, rows.map Row.stored, h'')).out =
      some out ∧ List.Forall₂ (fun p m => Stores (q.values env.toCallEnv h' p.1)
        (q.asked h' p.1) m) keys out) ↔
      ∀ r ∈ rows, Stores (q.values env.toCallEnv h' r.request.1) (q.asked h' r.request.1)
        r.stored := by
    simp only [answered, Option.some.injEq, exists_eq_left', hkeys, List.forall₂_map_left_iff,
      List.forall₂_map_right_iff, List.forall₂_same]
  have hprior : (∀ p ∈ keys, q.Prior env.toCallEnv h' p) ↔
      ∀ r ∈ rows, q.Prior env.toCallEnv h' r.request := by
    rw [hkeys, List.forall_mem_map]
  simp only [Option.some.injEq, exists_eq_left', hresult, hany, hstores, hrows]
  constructor
  · rintro ⟨hbounds, hall, hstale⟩
    refine ⟨hbounds, fun hnone => ?_, hgood.mpr hall, fun hread => ?_⟩
    · exact nomatch (known_eq hv).symm.trans hnone
    · exact hprior.mpr (hstale (hany.mp hread))
  · intro hc
    exact ⟨hc.inBounds, hgood.mp hc.bmc, fun hread => hprior.mp (hc.prior (hany.mpr hread))⟩

theorem filled_freed (q : Query ι) (env : QueryEnv) {h h' : Handle} {params : Bool}
    (hs : Served env.toCallEnv params h h') (hfreed : fpgaVectorItems h'.vector = none)
    (keys : List (ι × FpgaMetric)) :
    Filled q env.toCallEnv params h keys
        ((eachMetric (q.get env.objectType.2 env.values) h' keys).map (answered keys)) ↔
      Consistent q env.toCallEnv h' keys := by
  have hknown : known h'.vector = none := by rw [known, hfreed, Option.map_none]
  have hvalues : ∀ key, q.values env.toCallEnv h' key = [] := by
    intro key
    rw [Query.values, hknown]
  have hnames : (keys.filterMap fun p => q.bmcName env.toCallEnv h' p.1) = [] := by
    rw [List.filterMap_eq_nil_iff]
    intro p _
    rw [Query.bmcName, hknown]
    cases env.objectType.2 <;> rfl
  rw [filled_of_served hs]
  obtain ⟨⟨out, heach⟩, hall⟩ | ⟨heach, hnot⟩ :=
    eachMetric_freed q env.objectType.2 env.values hfreed keys
  · rw [heach]
    constructor
    · rintro ⟨hbounds, -⟩
      refine ⟨hbounds, fun _ => hall, hnames ▸ trivial, ?_⟩
      rintro ⟨p, -, hread⟩
      exact absurd (hvalues p.1) hread
    · intro hc
      refine ⟨hc.inBounds, _, rfl, iff_of_false nofun ?_, nofun⟩
      rintro ⟨p, -, hread⟩
      exact hread (hvalues p.1)
  · rw [heach]
    refine iff_of_false ?_ fun hc => hnot (hc.read hknown)
    rintro ⟨-, answer, hanswer, -⟩
    exact nomatch hanswer

theorem filled_iff (q : Query ι) (h : MetricsHandle) (env : QueryEnv) (params : Bool)
    (keys : List (ι × FpgaMetric)) :
    Filled q env.toCallEnv params h.handle keys
        (metricsCall env.toCallEnv params clearCachedValues h.handle
          (metrics env.toCallEnv keys fun objtype => q.get objtype env.values)) ↔
      ∀ h', Served env.toCallEnv params h.handle h' → Consistent q env.toCallEnv h' keys := by
  obtain ⟨h', hs, heq⟩ | ⟨hno, answer, heq, hresult⟩ :=
    metricsCall_cases env.toCallEnv params h.handle keys fun objtype => q.get objtype env.values
  swap
  · rw [heq]
    refine iff_of_true ⟨fun h' hs => absurd hs (hno h'), answer, rfl, ?_, ?_⟩
      fun h' hs => absurd hs (hno h')
    · exact iff_of_false hresult fun ⟨h', hs, _⟩ => hno h' hs
    · exact fun hok => absurd hok hresult
  have hk : Kept h' := kept_enum h.kept hs.enumerated
  have hright : (∀ h'', Served env.toCallEnv params h.handle h'' →
      Consistent q env.toCallEnv h'' keys) ↔ Consistent q env.toCallEnv h' keys :=
    ⟨fun hall => hall h' hs, fun hc h'' hs'' => hs.unique hs'' ▸ hc⟩
  rw [heq, hright]
  obtain hfreed | ⟨found, hv⟩ := hk.known_cases
  · exact filled_freed q env hs hfreed keys
  · exact filled_rows q env hs hk.uncached hv keys

end Calls

/-- Both calls keep to the contract just where the request is consistent. -/
theorem getMetrics_filled_iff (h : MetricsHandle) (env : QueryEnv) (params : Bool)
    (nums : List (UInt64 × FpgaMetric)) (names : List (Option (List Char) × FpgaMetric)) :
    (Filled byIndex env.toCallEnv params h.handle nums
        (xfpgaFpgaGetMetricsByIndex env.toCallEnv h.handle params nums) ↔
      ∀ h', Served env.toCallEnv params h.handle h' → Consistent byIndex env.toCallEnv h' nums) ∧
    (Filled byName env.toCallEnv (params && !names.isEmpty) h.handle names
        (xfpgaFpgaGetMetricsByName env.toCallEnv h.handle params names) ↔
      ∀ h', Served env.toCallEnv (params && !names.isEmpty) h.handle h' →
        Consistent byName env.toCallEnv h' names) := by
  constructor
  · rw [xfpgaFpgaGetMetricsByIndex]
    simp only [metricByIndex_eq]
    exact filled_iff byIndex h env params nums
  · rw [xfpgaFpgaGetMetricsByName]
    simp only [metricByName_eq]
    exact filled_iff byName h env _ names

section Sample

def afuMetric : FpgaEnumMetric :=
  ⟨[], [], [], [], [], 1, .int, .afu, .unknown, 0⟩

def afuHandle : MetricsHandle where
  handle := ⟨true, ⟨some [some afuMetric], fpgaVectorCapacity, 1⟩, false, none⟩
  kept := by
    refine ⟨fun items hitems => ?_, rfl⟩
    obtain rfl := Option.some.inj hitems
    exact fun h => by cases List.mem_singleton.mp h

def afuEnv : QueryEnv :=
  { check := .ok
    fddev := 3
    enum := sampleEnum
    objectType := (.ok, .accelerator)
    values := ⟨⟨.ok, [], true, .ok, [], .ok⟩, fun _ => (.ok, 0), fun _ => .ok 0x50000⟩
    failed := fun _ h => by cases h }

/-- The metric is read with success, and is not marked as valid. -/
theorem afu_not_filled :
    ¬Filled byIndex afuEnv.toCallEnv true afuHandle.handle [(1, ⟨0, 0, false⟩)]
      (xfpgaFpgaGetMetricsByIndex afuEnv.toCallEnv afuHandle.handle true
        [(1, ⟨0, 0, false⟩)]) := by
  rintro ⟨-, answer, hanswer, -, hout⟩
  have hserved : Served afuEnv.toCallEnv true afuHandle.handle afuHandle.handle :=
    ⟨⟨rfl, by decide, rfl⟩, rfl, rfl⟩
  obtain rfl := Option.some.inj hanswer
  obtain ⟨out, hstored, hstores⟩ := hout rfl afuHandle.handle hserved
  obtain rfl := Option.some.inj hstored
  obtain ⟨hstores, -⟩ := List.forall₂_cons.mp hstores
  exact nomatch (hstores.valid (by decide)).1

end Sample

end OpaeLibs.PluginXfpga.MetricResults
