import OpaeLibs.Lib.Runs
import OpaeLibs.PluginXfpga.Metrics

namespace OpaeLibs.PluginXfpga.MetricRuns

open OpaeLibs.Lib.Runs OpaeLibs.OpaeC.Props
open OpaeLibs.PluginXfpga.MetricVector OpaeLibs.PluginXfpga.Metrics

inductive Request
  | numMetrics (params : Bool)
  | metricsInfo (params : Bool) (numMetrics : Nat)
  | byIndex (params : Bool) (metricNums : List (UInt64 × FpgaMetric))
  | byName (params : Bool) (metricsNames : List (Option (List Char) × FpgaMetric))

structure Call where
  env : CallEnv
  request : Request

/-- What an answer says but for the values. -/
def Answer.forget {β : Type} (answer : Answer β) : Answer Unit :=
  { answer with out := none }

def apply (h : Handle) (c : Call) : Option (Answer Unit) :=
  match c.request with
  | .numMetrics params => (xfpgaFpgaGetNumMetrics c.env h params).map Answer.forget
  | .metricsInfo params n => (xfpgaFpgaGetMetricsInfo c.env h params n).map Answer.forget
  | .byIndex params nums => (xfpgaFpgaGetMetricsByIndex c.env h params nums).map Answer.forget
  | .byName params names => (xfpgaFpgaGetMetricsByName c.env h params names).map Answer.forget

/-- There is memory for every metric found, and for the vector wherever it must grow. -/
def Lossless (e : Enumeration) : Prop :=
  ∀ i a, e.additions[i]? = some a → a.malloc = true ∧ (Grows i → a.realloc = true)

def enumeration (env : EnumEnv) (bmcHandle : Bool) : Option Enumeration :=
  if env.token = true ∧ env.objectType.1 = .ok ∧ env.malloc = true then
    match env.objectType.2 with
    | .accelerator => if env.discoverAfu = .ok then some env.afu else none
    | .device => if env.hwType.1 = .ok then some (fmeEnumeration env bmcHandle) else none
  else none

/-- The enumeration is of all that was found. -/
def Complete (e : Enumeration) : Prop := e.result = .ok ∧ Lossless e

open Classical in
noncomputable def enumerated (env : EnumEnv) (bmcHandle : Bool) : Option (List FpgaEnumMetric) :=
  (enumeration env bmcHandle).bind fun e =>
    if Complete e then some (e.additions.map Addition.metric) else none

/-- The parameters of a call are such that it looks for metrics. -/
def params (c : Call) : Bool :=
  match c.request with
  | .numMetrics params => params
  | .metricsInfo params _ => params
  | .byIndex params _ => params
  | .byName params names => params && !names.isEmpty

def Accepted (env : CallEnv) (params : Bool) : Prop :=
  env.check = .ok ∧ 0 ≤ env.fddev ∧ params = true

def Enumerates (h : Handle) (c : Call) : Prop :=
  Accepted c.env (params c) ∧ h.metricEnumStatus = false

/-- A handle, and the metrics of the last enumeration, if that was complete. -/
structure Session where
  handle : Handle
  complete : Option (List FpgaEnumMetric)

open Classical in
noncomputable def completeAfter (s : Session) (c : Call) : Option (List FpgaEnumMetric) :=
  if Enumerates s.handle c then enumerated c.env.enum s.handle.bmcHandle else s.complete

noncomputable def step (s : Session) (c : Call) : Session :=
  ⟨((apply s.handle c).map Answer.handle).getD s.handle, completeAfter s c⟩

/-- A call that reports success from the vector or reads it does so of a complete enumeration, and
the status is set only with a complete enumeration in the vector. -/
def Honest (s : Session) (c : Call) : Prop :=
  ∃ answer, apply s.handle c = some answer ∧
    (answer.result = .ok ∨ answer.reads = true → (completeAfter s c).isSome) ∧
    (answer.handle.metricEnumStatus = true →
      ∃ found, completeAfter s c = some found ∧ Holds answer.handle.vector found)

/-- If the call enumerates the metrics, the enumeration that it begins is complete, or it is that
of an accelerator and fails. -/
def Sound (s : Session) (c : Call) : Prop :=
  Enumerates s.handle c → ∀ e, enumeration c.env.enum s.handle.bmcHandle = some e →
    Complete e ∨ c.env.enum.objectType.2 = .accelerator ∧ e.result ≠ .ok

/-- The status of a handle is set only with a complete enumeration in its vector. -/
def Inv (s : Session) : Prop :=
  s.handle.metricEnumStatus = true → ∃ found, s.complete = some found ∧ Holds s.handle.vector found

section Vector

theorem exists_addAll (additions : List Addition) {v : MetricVector} (h : Allocated v) :
    ∃ v', addAll additions v = some v' ∧ Allocated v' := by
  induction additions generalizing v with
  | nil => exact ⟨v, rfl, h⟩
  | cons a additions ih =>
    have hadd : ∃ result v', addMetricVector v a = some (result, v') ∧ Allocated v' := by
      unfold addMetricVector
      cases a.malloc with
      | false => exact ⟨.noMemory, v, rfl, h⟩
      | true =>
        obtain ⟨result, v', hpush, hv'⟩ := exists_push a.realloc h a.metric
        exact ⟨.ok, v', by simp [hpush], hv'⟩
    obtain ⟨result, v', heq, hv'⟩ := hadd
    obtain ⟨v'', hall, hv''⟩ := ih hv'
    exact ⟨v'', by rw [addAll, heq]; exact hall, hv''⟩

theorem addAll_of_lossless (additions : List Addition) {v : MetricVector}
    {found : List FpgaEnumMetric} (hv : Holds v found) (hdoubled : Doubled v)
    (h : ∀ i a, additions[i]? = some a → a.malloc = true ∧
      (Grows (found.length + i) → a.realloc = true)) :
    ∃ v', addAll additions v = some v' ∧ Holds v' (found ++ additions.map Addition.metric) := by
  induction additions generalizing v found with
  | nil => exact ⟨v, rfl, by simpa using hv⟩
  | cons a additions ih =>
    obtain ⟨hmalloc, hrealloc⟩ := h 0 a rfl
    obtain ⟨v', hpush, hv', hdoubled'⟩ := push_of_room hv hdoubled hrealloc a.metric
    have hadd : addMetricVector v a = some (.ok, v') := by
      simp [addMetricVector, hmalloc, hpush]
    have hrest : ∀ i b, additions[i]? = some b → b.malloc = true ∧
        (Grows ((found ++ [a.metric]).length + i) → b.realloc = true) := by
      intro i b hb
      have hlength : (found ++ [a.metric]).length + i = found.length + (i + 1) := by
        simp only [List.length_append, List.length_singleton]
        omega
      rw [hlength]
      exact h (i + 1) b hb
    obtain ⟨v'', hall, hholds⟩ := ih hv' hdoubled' hrest
    exact ⟨v'', by rw [addAll, hadd]; exact hall, by simpa using hholds⟩

theorem exists_deleteFrom (realloc : Nat → Bool) (n i : Nat) {v : MetricVector}
    (h : Allocated v) : ∃ v', deleteFrom realloc n i v = some v' ∧ Allocated v' := by
  induction n generalizing i v with
  | zero => exact ⟨v, rfl, h⟩
  | succ n ih =>
    obtain ⟨result, v', hdelete, hv'⟩ := exists_delete (realloc i) h i
    obtain ⟨v'', hrest, hv''⟩ := ih (i + 1) hv'
    exact ⟨v'', by rw [deleteFrom, hdelete]; exact hrest, hv''⟩

theorem exists_freeMetrics (realloc : Nat → Bool) {h : Handle} (hv : Allocated h.vector) :
    ∃ h', freeFpgaEnumMetricsVector realloc h = some h' := by
  obtain ⟨v', hdelete, hv'⟩ := exists_deleteFrom realloc h.vector.total 0 hv
  obtain ⟨v'', hfree⟩ := exists_free hv'
  exact ⟨_, by simp [freeFpgaEnumMetricsVector, hdelete, hfree]; rfl⟩

end Vector

section Enumeration

theorem exists_run (e : Enumeration) :
    ∃ v, e.run (fpgaVectorInit true).2 = some (e.result, v) ∧ Allocated v ∧
      (Complete e → Holds v (e.additions.map Addition.metric)) := by
  have hallocated : Allocated (fpgaVectorInit (α := FpgaEnumMetric) true).2 := rfl
  obtain ⟨v, hall, hv⟩ := exists_addAll e.additions hallocated
  refine ⟨v, by rw [Enumeration.run, hall]; rfl, hv, fun hcomplete => ?_⟩
  obtain ⟨v', hall', hv'⟩ := addAll_of_lossless e.additions holds_init ⟨0, rfl⟩
    fun i a ha => by simpa using hcomplete.2 i a ha
  obtain rfl := Option.some.inj (hall.symm.trans hall')
  exact hv'

/-- What an enumeration that begins can do, and how it ends where none begins. -/
def EnumCases (env : EnumEnv) (h : Handle) : Prop :=
  (enumeration env h.bmcHandle = none ∧ ∃ result h', enumFpgaMetrics env h = some (result, h') ∧
    result ≠ .ok ∧ h'.metricEnumStatus = false) ∨
  ∃ e, enumeration env h.bmcHandle = some e ∧ ∃ h',
    enumFpgaMetrics env h = some (e.result, h') ∧
    (h'.metricEnumStatus = false ↔ env.objectType.2 = .accelerator ∧ e.result ≠ .ok) ∧
    (Complete e → Holds h'.vector (e.additions.map Addition.metric))

theorem enum_accelerator {env : EnumEnv} {h : Handle} (hstatus : h.metricEnumStatus = false)
    (htoken : env.token = true) (hobject : env.objectType.1 = .ok) (hmalloc : env.malloc = true)
    (hkind : env.objectType.2 = .accelerator) : EnumCases env h := by
  rw [EnumCases, hkind]
  by_cases hdiscover : env.discoverAfu = .ok
  swap
  · have heq : enumFpgaMetrics env h =
        some (env.discoverAfu, { h with vector := (fpgaVectorInit true).2 }) := by
      simp [enumFpgaMetrics, hstatus, htoken, hobject, hmalloc, fpgaVectorInit, hkind,
        hdiscover]
    exact .inl ⟨by simp [enumeration, hkind, hdiscover], _, _, heq, hdiscover, hstatus⟩
  obtain ⟨v, hrun, -, hholds⟩ := exists_run env.afu
  refine .inr ⟨env.afu, by simp [enumeration, htoken, hobject, hmalloc, hkind, hdiscover], ?_⟩
  by_cases hresult : env.afu.result = .ok
  · have heq : enumFpgaMetrics env h =
        some (env.afu.result, { h with vector := v, metricEnumStatus := true }) := by
      rw [fpgaVectorInit] at hrun
      simp [enumFpgaMetrics, hstatus, htoken, hobject, hmalloc, fpgaVectorInit, hkind,
        hdiscover] at hrun ⊢
      simp [hrun, hresult]
    exact ⟨_, heq, by simp [hresult], hholds⟩
  · have heq : enumFpgaMetrics env h = some (env.afu.result, { h with vector := v }) := by
      simp [enumFpgaMetrics, hstatus, htoken, hobject, hmalloc, fpgaVectorInit, hkind,
        hdiscover] at hrun ⊢
      simp [hrun, hresult]
    exact ⟨_, heq, by simp [hresult, hstatus], hholds⟩

theorem enum_device {env : EnumEnv} {h : Handle} (hstatus : h.metricEnumStatus = false)
    (htoken : env.token = true) (hobject : env.objectType.1 = .ok) (hmalloc : env.malloc = true)
    (hkind : env.objectType.2 = .device) : EnumCases env h := by
  rw [EnumCases, hkind]
  by_cases hhw : env.hwType.1 = .ok
  swap
  · have heq : enumFpgaMetrics env h =
        some (env.hwType.1, { h with vector := (fpgaVectorInit true).2 }) := by
      simp [enumFpgaMetrics, hstatus, htoken, hobject, hmalloc, fpgaVectorInit, hkind, hhw]
    exact .inl ⟨by simp [enumeration, hkind, hhw], _, _, heq, hhw, hstatus⟩
  obtain ⟨v, hrun, hallocated, hholds⟩ := exists_run (fmeEnumeration env h.bmcHandle)
  refine .inr ⟨fmeEnumeration env h.bmcHandle,
    by simp [enumeration, htoken, hobject, hmalloc, hkind, hhw], ?_⟩
  have hbegun : enumFpgaMetrics env h =
      ((if (fmeEnumeration env h.bmcHandle).result ≠ .ok then
        freeFpgaEnumMetricsVector env.realloc
          { h with vector := v, bmcHandle := bmcLoaded env h.bmcHandle }
      else some { h with vector := v, bmcHandle := bmcLoaded env h.bmcHandle }).map
        fun h' => ((fmeEnumeration env h.bmcHandle).result,
          { h' with metricEnumStatus := true })) := by
    simp [enumFpgaMetrics, hstatus, htoken, hobject, hmalloc, fpgaVectorInit, hkind,
      hhw] at hrun ⊢
    simp [hrun]
  by_cases hresult : (fmeEnumeration env h.bmcHandle).result = .ok
  · rw [if_neg (not_not.mpr hresult)] at hbegun
    exact ⟨_, hbegun, by simp, hholds⟩
  · have hnot : ¬Complete (fmeEnumeration env h.bmcHandle) := fun hc => hresult hc.1
    obtain ⟨h', hfree⟩ := exists_freeMetrics env.realloc
      (h := { h with vector := v, bmcHandle := bmcLoaded env h.bmcHandle }) hallocated
    rw [if_pos hresult, hfree] at hbegun
    exact ⟨_, hbegun, by simp, fun hc => absurd hc hnot⟩

theorem enum_cases (env : EnumEnv) {h : Handle} (hstatus : h.metricEnumStatus = false) :
    EnumCases env h := by
  by_cases htoken : env.token = true
  swap
  · have heq : enumFpgaMetrics env h = some (.invalidParam, h) := by
      simp [enumFpgaMetrics, hstatus, htoken]
    exact .inl ⟨by simp [enumeration, htoken], _, _, heq, nofun, hstatus⟩
  by_cases hobject : env.objectType.1 = .ok
  swap
  · have heq : enumFpgaMetrics env h = some (env.objectType.1, h) := by
      simp [enumFpgaMetrics, hstatus, htoken, hobject]
    exact .inl ⟨by simp [enumeration, hobject], _, _, heq, hobject, hstatus⟩
  cases hmalloc : env.malloc with
  | false =>
    have heq : enumFpgaMetrics env h =
        some (.noMemory, { h with vector := (fpgaVectorInit false).2 }) := by
      simp [enumFpgaMetrics, hstatus, htoken, hobject, hmalloc, fpgaVectorInit]
    exact .inl ⟨by simp [enumeration, hmalloc], _, _, heq, nofun, hstatus⟩
  | true =>
    have hkind : env.objectType.2 = .accelerator ∨ env.objectType.2 = .device := by
      cases env.objectType.2 <;> simp
    obtain hkind | hkind := hkind
    · exact enum_accelerator hstatus htoken hobject hmalloc hkind
    · exact enum_device hstatus htoken hobject hmalloc hkind

end Enumeration

/-- The calls after its enumeration leave alone what that has found. -/
structure Same (h h' : Handle) : Prop where
  status : h'.metricEnumStatus = h.metricEnumStatus
  vector : h'.vector = h.vector

theorem Same.refl (h : Handle) : Same h h := ⟨rfl, rfl⟩

theorem Same.trans {h h' h'' : Handle} (hs : Same h h') (hs' : Same h' h'') : Same h h'' :=
  ⟨hs'.status.trans hs.status, hs'.vector.trans hs.vector⟩

theorem same_clear (h : Handle) : Same h (clearCachedValues h) := ⟨rfl, rfl⟩

section Values

variable {env : ValueEnv} {h : Handle} {metric : FpgaMetric}

theorem findMetric_total (num : UInt64) (found : List FpgaEnumMetric) :
    ∃ m, findMetric num (found.map some) = some m := by
  induction found with
  | nil => exact ⟨none, rfl⟩
  | cons m found ih =>
    rw [List.map_cons, findMetric]
    split
    · exact ⟨some m, rfl⟩
    · exact ih

theorem findName_total (qualifierName metricName : List Char) (found : List FpgaEnumMetric) :
    ∃ m, findName qualifierName metricName (found.map some) = some m := by
  induction found with
  | nil => exact ⟨none, rfl⟩
  | cons m found ih =>
    rw [List.map_cons, findName]
    split
    · exact ⟨some m, rfl⟩
    · exact ih

theorem readAfuMetrics_total (env : ValueEnv) (num : UInt64) (found : List FpgaEnumMetric)
    (result : FpgaResult)
    (metric : FpgaMetric) :
    ∃ r, readAfuMetrics env num (found.map some) result metric = some r := by
  induction found generalizing result metric with
  | nil => exact ⟨_, rfl⟩
  | cons m found ih =>
    rw [List.map_cons, readAfuMetrics]
    split
    · split
      · exact ⟨_, rfl⟩
      · exact ih _ _
    · exact ih _ _

/-- A step that fetches a metric is without fault over a vector of metrics, and leaves it alone. -/
structure Fetches {ι : Type} (get : Handle → ι → FpgaMetric → Option (Bool × FpgaMetric × Handle)) :
    Prop where
  total : ∀ h key metric found, Holds h.vector found → ∃ r, get h key metric = some r
  same : ∀ h key metric isFound metric' h', get h key metric = some (isFound, metric', h') →
    Same h h'

theorem getMetricValue_total (env : ValueEnv) (objtype : FpgaObjtype) (num : UInt64)
    (metric : FpgaMetric) {found : List FpgaEnumMetric} (hv : Holds h.vector found) :
    ∃ r, getMetricValue objtype env h num metric = some r := by
  cases objtype with
  | accelerator =>
    obtain ⟨⟨result, metric'⟩, hread⟩ := readAfuMetrics_total env num found .notFound metric
    exact ⟨_, by simp [getMetricValue, getAfuMetricValue, hv.items_eq, hread]; rfl⟩
  | device =>
    obtain ⟨m, hfind⟩ := findMetric_total num found
    unfold getMetricValue getFmeMetricValue
    simp only [hv.items_eq, hfind, Option.bind_eq_bind, Option.bind_some]
    cases m with
    | none => exact ⟨_, rfl⟩
    | some m =>
      dsimp only
      split
      · exact ⟨_, rfl⟩
      · split
        · exact ⟨_, rfl⟩
        · exact ⟨_, rfl⟩

theorem getMetricValue_same (objtype : FpgaObjtype) (num : UInt64) {result : FpgaResult}
    {metric' : FpgaMetric} {h' : Handle}
    (heq : getMetricValue objtype env h num metric = some (result, metric', h')) : Same h h' := by
  cases objtype with
  | accelerator =>
    simp only [getMetricValue, getAfuMetricValue, Option.bind_eq_bind,
      Option.bind_eq_some_iff] at heq
    obtain ⟨items, -, r, -, hr⟩ := heq
    obtain ⟨-, -, rfl⟩ := by simpa using hr
    exact .refl h
  | device =>
    simp only [getMetricValue, getFmeMetricValue, Option.bind_eq_bind,
      Option.bind_eq_some_iff] at heq
    obtain ⟨items, -, m, -, hm⟩ := heq
    cases m with
    | none =>
      obtain ⟨-, -, rfl⟩ := by simpa using hm
      exact .refl h
    | some m =>
      dsimp only at hm
      split at hm
      · obtain ⟨-, -, rfl⟩ := by simpa using hm
        exact ⟨rfl, rfl⟩
      · split at hm
        · obtain ⟨-, -, rfl⟩ := by simpa using hm
          exact .refl h
        · obtain ⟨-, -, rfl⟩ := by simpa using hm
          exact .refl h

theorem fetches_index (objtype : FpgaObjtype) (env : ValueEnv) :
    Fetches (metricByIndex objtype env) where
  total h num metric found hv := by
    obtain ⟨⟨result, metric', h'⟩, hvalue⟩ :=
      getMetricValue_total env objtype num metric hv
    unfold metricByIndex
    simp only [hvalue, Option.bind_eq_bind, Option.bind_some]
    split
    · exact ⟨_, rfl⟩
    · exact ⟨_, rfl⟩
  same h num metric isFound metric' h' heq := by
    simp only [metricByIndex, Option.bind_eq_bind, Option.bind_eq_some_iff] at heq
    obtain ⟨⟨result, metric'', h''⟩, hvalue, hr⟩ := heq
    have hsame := getMetricValue_same objtype num hvalue
    dsimp only at hr
    split at hr
    · obtain ⟨-, -, rfl⟩ := by simpa using hr
      exact hsame
    · obtain ⟨-, -, rfl⟩ := by simpa using hr
      exact hsame

theorem parseMetricNumName_total {v : MetricVector} {found : List FpgaEnumMetric}
    (hv : Holds v found) (name : Option (List Char)) :
    ∃ r, parseMetricNumName name v = some r := by
  unfold parseMetricNumName
  cases name.bind splitLastColon with
  | none => exact ⟨_, rfl⟩
  | some parts =>
    obtain ⟨m, hfind⟩ := findName_total parts.1 (parts.2.take BmcMetrics.metricNameMax) found
    simp only [hv.items_eq, hfind, Option.bind_eq_bind, Option.bind_some]
    cases m with
    | none => exact ⟨_, rfl⟩
    | some m => exact ⟨_, rfl⟩

theorem fetches_name (objtype : FpgaObjtype) (env : ValueEnv) :
    Fetches (metricByName objtype env) where
  total h name metric found hv := by
    obtain ⟨⟨result, num⟩, hparse⟩ := parseMetricNumName_total hv name
    obtain ⟨⟨result', metric', h'⟩, hvalue⟩ :=
      getMetricValue_total env objtype num metric hv
    unfold metricByName
    simp only [hparse, Option.bind_eq_bind, Option.bind_some]
    split
    · exact ⟨_, rfl⟩
    · simp only [hvalue, Option.bind_some]
      split
      · exact ⟨_, rfl⟩
      · exact ⟨_, rfl⟩
  same h name metric isFound metric' h' heq := by
    simp only [metricByName, Option.bind_eq_bind, Option.bind_eq_some_iff] at heq
    obtain ⟨⟨result, num⟩, -, hr⟩ := heq
    dsimp only at hr
    split at hr
    · obtain ⟨-, -, rfl⟩ := by simpa using hr
      exact .refl h
    · obtain ⟨⟨result', metric'', h''⟩, hvalue, hr⟩ := Option.bind_eq_some_iff.mp hr
      have hsame := getMetricValue_same objtype num hvalue
      dsimp only at hr
      split at hr
      · obtain ⟨-, -, rfl⟩ := by simpa using hr
        exact hsame
      · obtain ⟨-, -, rfl⟩ := by simpa using hr
        exact hsame

variable {ι : Type} {get : Handle → ι → FpgaMetric → Option (Bool × FpgaMetric × Handle)}

theorem eachMetric_total (hget : Fetches get) {found : List FpgaEnumMetric}
    (keys : List (ι × FpgaMetric)) (hv : Holds h.vector found) :
    ∃ r, eachMetric get h keys = some r := by
  induction keys generalizing h with
  | nil => exact ⟨_, rfl⟩
  | cons p keys ih =>
    obtain ⟨⟨isFound, metric', h'⟩, hfetch⟩ := hget.total h p.1 p.2 found hv
    have hsame := hget.same _ _ _ _ _ _ hfetch
    obtain ⟨r, hrest⟩ := ih (hsame.vector ▸ hv)
    exact ⟨_, by simp [eachMetric, hfetch, hrest]; rfl⟩

theorem eachMetric_same (hget : Fetches get) (keys : List (ι × FpgaMetric)) {n : Nat}
    {metrics : List FpgaMetric} {h' : Handle}
    (heq : eachMetric get h keys = some (n, metrics, h')) : Same h h' := by
  induction keys generalizing h n metrics with
  | nil =>
    obtain ⟨-, -, rfl⟩ := by simpa [eachMetric] using heq
    exact .refl h
  | cons p keys ih =>
    simp only [eachMetric, Option.bind_eq_bind, Option.bind_eq_some_iff] at heq
    obtain ⟨⟨isFound, metric', h''⟩, hfetch, ⟨n', metrics', h₃⟩, hrest, hr⟩ := heq
    obtain ⟨-, -, rfl⟩ := by simpa using hr
    exact (hget.same _ _ _ _ _ _ hfetch).trans (ih hrest)

end Values

/-- What comes after the enumeration is without fault over a vector of metrics, and leaves it
alone. -/
structure Serves {β : Type} (body : Handle → Option (Answer β)) : Prop where
  total : ∀ h found, Holds h.vector found → ∃ answer, body h = some answer
  same : ∀ h answer, body h = some answer → Same h answer.handle

theorem serves_numMetrics : Serves numMetrics where
  total _ _ _ := ⟨_, rfl⟩
  same h answer heq := by
    obtain rfl := Option.some.inj heq
    exact .refl h

theorem serves_metricsInfo (n : Nat) : Serves (metricsInfo n) where
  total h found hv := by
    unfold metricsInfo
    split
    · split
      · exact ⟨_, rfl⟩
      · rw [hv.items]
        exact ⟨_, rfl⟩
    · exact ⟨_, rfl⟩
  same h answer heq := by
    unfold metricsInfo at heq
    split at heq
    · obtain ⟨items, -, rfl⟩ := Option.map_eq_some_iff.mp heq
      exact .refl h
    · obtain rfl := Option.some.inj heq
      exact .refl h

theorem serves_metrics {ι : Type} (env : CallEnv) (keys : List (ι × FpgaMetric))
    {get : FpgaObjtype → Handle → ι → FpgaMetric → Option (Bool × FpgaMetric × Handle)}
    (hget : ∀ objtype, Fetches (get objtype)) : Serves (metrics env keys get) where
  total h found hv := by
    obtain ⟨r, hr⟩ := eachMetric_total (hget env.objectType.2) keys hv
    unfold metrics
    split
    · exact ⟨_, rfl⟩
    · rw [hr]
      exact ⟨_, rfl⟩
  same h answer heq := by
    unfold metrics at heq
    split at heq
    · obtain rfl := Option.some.inj heq
      exact .refl h
    · obtain ⟨⟨n, metrics, h'⟩, hr, heq⟩ := Option.bind_eq_some_iff.mp heq
      obtain rfl := Option.some.inj heq
      exact eachMetric_same (hget env.objectType.2) keys hr

/-- What a call can come to. -/
inductive Outcome (env : CallEnv) (params : Bool) (h : Handle) {β : Type} :
    Option (Answer β) → Prop
  | refused {answer} : ¬Accepted env params → answer.result ≠ .ok → answer.reads = false →
      Same h answer.handle → Outcome env params h (some answer)
  | failed {result h' answer} : Accepted env params →
      enumFpgaMetrics env.enum h = some (result, h') → result ≠ .ok → answer.result ≠ .ok →
      answer.reads = false → Same h' answer.handle → Outcome env params h (some answer)
  | served {h' answer} : Accepted env params → enumFpgaMetrics env.enum h = some (.ok, h') →
      Same h' answer.handle → Outcome env params h (some answer)
  | fault : Accepted env params → (enumFpgaMetrics env.enum h = none ∨
      ∃ h', enumFpgaMetrics env.enum h = some (.ok, h') ∧ ∀ found, ¬Holds h'.vector found) →
      Outcome env params h none

theorem metricsCall_outcome {β : Type} (env : CallEnv) (params : Bool) {finish : Handle → Handle}
    (hfinish : ∀ h, Same h (finish h)) (h : Handle) {body : Handle → Option (Answer β)}
    (hbody : Serves body) : Outcome env params h (metricsCall env params finish h body) := by
  unfold metricsCall
  by_cases hcheck : env.check = .ok
  swap
  · rw [if_pos hcheck]
    exact .refused (fun ha => hcheck ha.1) hcheck rfl (.refl h)
  by_cases hfddev : env.fddev < 0
  · rw [if_neg (not_not.mpr hcheck), if_pos hfddev]
    exact .refused (fun ha => absurd ha.2.1 (by omega)) nofun rfl (hfinish h)
  cases hparams : params with
  | false =>
    rw [if_neg (not_not.mpr hcheck), if_neg hfddev]
    exact .refused (fun ha => nomatch ha.2.2) nofun rfl (hfinish h)
  | true =>
    have haccepted : Accepted env true := ⟨hcheck, by omega, rfl⟩
    rw [if_neg (not_not.mpr hcheck), if_neg hfddev]
    cases henum : enumFpgaMetrics env.enum h with
    | none => exact .fault haccepted (.inl henum)
    | some r =>
      obtain ⟨result, h'⟩ := r
      by_cases hresult : result = .ok
      swap
      · have hother : FpgaResult.notFound ≠ .ok := nofun
        simp only [Bool.not_true, Bool.false_eq_true, if_false, Option.bind_some, ne_eq, hresult,
          not_false_eq_true, if_true]
        exact .failed haccepted henum hresult hother rfl (hfinish h')
      · subst hresult
        simp only [Bool.not_true, Bool.false_eq_true, if_false, Option.bind_some, ne_eq,
          not_true_eq_false]
        cases hanswer : body h' with
        | some answer =>
          exact .served haccepted henum ((hbody.same h' answer hanswer).trans (hfinish _))
        | none =>
          refine .fault haccepted (.inr ⟨h', henum, fun found hv => ?_⟩)
          obtain ⟨answer, hsome⟩ := hbody.total h' found hv
          exact nomatch hanswer.symm.trans hsome

theorem Outcome.forget {env : CallEnv} {params : Bool} {h : Handle} {β : Type}
    {r : Option (Answer β)} (ho : Outcome env params h r) :
    Outcome env params h (r.map Answer.forget) := by
  cases ho with
  | refused ha hresult hreads hsame => exact .refused ha hresult hreads hsame
  | failed ha henum hres hresult hreads hsame => exact .failed ha henum hres hresult hreads hsame
  | served ha henum hsame => exact .served ha henum hsame
  | fault ha hfault => exact .fault ha hfault

theorem apply_outcome (h : Handle) (c : Call) : Outcome c.env (params c) h (apply h c) := by
  unfold apply params
  cases c.request with
  | numMetrics params =>
    exact (metricsCall_outcome c.env params .refl h serves_numMetrics).forget
  | metricsInfo params n =>
    exact (metricsCall_outcome c.env params .refl h (serves_metricsInfo n)).forget
  | byIndex params nums =>
    exact (metricsCall_outcome c.env params same_clear h
      (serves_metrics c.env nums fun objtype => fetches_index objtype c.env.values)).forget
  | byName params names =>
    exact (metricsCall_outcome c.env _ same_clear h
      (serves_metrics c.env names fun objtype => fetches_name objtype c.env.values)).forget

section Run

variable {s : Session} {c : Call}

theorem completeAfter_of_not (h : ¬Enumerates s.handle c) : completeAfter s c = s.complete :=
  if_neg h

theorem completeAfter_of (h : Enumerates s.handle c) :
    completeAfter s c = enumerated c.env.enum s.handle.bmcHandle := if_pos h

theorem sound_of_not (h : ¬Enumerates s.handle c) : Sound s c := fun he => absurd he h

/-- A call that neither reports success nor reads leaves the session as it is, if it does not
enumerate. -/
theorem honest_of_refused (hinv : Inv s) (hnot : ¬Enumerates s.handle c) {answer : Answer Unit}
    (happly : apply s.handle c = some answer) (hresult : answer.result ≠ .ok)
    (hreads : answer.reads = false) (hsame : Same s.handle answer.handle) : Honest s c := by
  refine ⟨answer, happly, fun h => ?_, fun hstatus => ?_⟩
  · obtain hok | htrue := h
    · exact absurd hok hresult
    · exact nomatch hreads.symm.trans htrue
  · rw [completeAfter_of_not hnot, hsame.vector]
    exact hinv (hsame.status.symm.trans hstatus)

theorem honest_of_served {h' : Handle} {found : List FpgaEnumMetric}
    (hcomplete : completeAfter s c = some found) (hholds : Holds h'.vector found)
    {answer : Answer Unit} (happly : apply s.handle c = some answer)
    (hsame : Same h' answer.handle) : Honest s c := by
  refine ⟨answer, happly, fun _ => by rw [hcomplete]; rfl, fun _ => ⟨found, hcomplete, ?_⟩⟩
  rw [hsame.vector]
  exact hholds

theorem not_honest {h' : Handle} (hcomplete : completeAfter s c = none)
    (hstatus : h'.metricEnumStatus = true)
    (hsame : ∀ answer, apply s.handle c = some answer → Same h' answer.handle) : ¬Honest s c := by
  rintro ⟨answer, happly, -, hholds⟩
  obtain ⟨found, hfound, -⟩ := hholds ((hsame answer happly).status.trans hstatus)
  exact nomatch hcomplete.symm.trans hfound

theorem honest_iff_of_set (hinv : Inv s) (hstatus : s.handle.metricEnumStatus = true) :
    Honest s c ↔ Sound s c := by
  have hnot : ¬Enumerates s.handle c := fun he => nomatch hstatus.symm.trans he.2
  obtain ⟨found, hfound, hholds⟩ := hinv hstatus
  have hcomplete := (completeAfter_of_not hnot).trans hfound
  have henum : enumFpgaMetrics c.env.enum s.handle = some (.ok, s.handle) := by
    simp [enumFpgaMetrics, hstatus]
  refine iff_of_true ?_ (sound_of_not hnot)
  have hout := apply_outcome s.handle c
  generalize happly : apply s.handle c = r at hout
  cases hout with
  | refused _ hresult hreads hsame => exact honest_of_refused hinv hnot happly hresult hreads hsame
  | failed _ henum' hresult _ _ _ =>
    obtain ⟨rfl, -⟩ := Prod.mk.inj (Option.some.inj (henum.symm.trans henum'))
    exact absurd rfl hresult
  | served _ henum' hsame =>
    obtain ⟨-, rfl⟩ := Prod.mk.inj (Option.some.inj (henum.symm.trans henum'))
    exact honest_of_served hcomplete hholds happly hsame
  | fault _ hfault =>
    obtain hnone | ⟨h', henum', hno⟩ := hfault
    · exact nomatch henum.symm.trans hnone
    · obtain ⟨-, rfl⟩ := Prod.mk.inj (Option.some.inj (henum.symm.trans henum'))
      exact absurd hholds (hno found)

/-- Whatever becomes of an accepted call, its answer has the handle that its enumeration left. -/
theorem same_of_enum (haccepted : Accepted c.env (params c)) {result : FpgaResult} {h' : Handle}
    (henum : enumFpgaMetrics c.env.enum s.handle = some (result, h')) {answer : Answer Unit}
    (happly : apply s.handle c = some answer) :
    Same h' answer.handle ∧ (result ≠ .ok → answer.result ≠ .ok ∧ answer.reads = false) := by
  have hout := apply_outcome s.handle c
  rw [happly] at hout
  cases hout with
  | refused hnot _ _ _ => exact absurd haccepted hnot
  | failed _ henum' _ hresult hreads hsame =>
    obtain ⟨-, rfl⟩ := Prod.mk.inj (Option.some.inj (henum.symm.trans henum'))
    exact ⟨hsame, fun _ => ⟨hresult, hreads⟩⟩
  | served _ henum' hsame =>
    obtain ⟨rfl, rfl⟩ := Prod.mk.inj (Option.some.inj (henum.symm.trans henum'))
    exact ⟨hsame, fun h => absurd rfl h⟩

theorem exists_answer {result : FpgaResult} {h' : Handle}
    (henum : enumFpgaMetrics c.env.enum s.handle = some (result, h'))
    (hholds : result = .ok → ∃ found, Holds h'.vector found) :
    ∃ answer, apply s.handle c = some answer := by
  have hout := apply_outcome s.handle c
  generalize apply s.handle c = r at hout
  cases hout with
  | fault _ hfault =>
    obtain hnone | ⟨h'', henum', hno⟩ := hfault
    · exact nomatch henum.symm.trans hnone
    · obtain ⟨hok, rfl⟩ := Prod.mk.inj (Option.some.inj (henum.symm.trans henum'))
      obtain ⟨found, hv⟩ := hholds hok
      exact absurd hv (hno found)
  | _ => exact ⟨_, rfl⟩

theorem honest_of_failed (haccepted : Accepted c.env (params c)) {result : FpgaResult}
    {h' : Handle} (henum : enumFpgaMetrics c.env.enum s.handle = some (result, h'))
    (hresult : result ≠ .ok) (hstatus : h'.metricEnumStatus = false) : Honest s c := by
  obtain ⟨answer, happly⟩ := exists_answer henum fun hok => absurd hok hresult
  obtain ⟨hsame, hfails⟩ := same_of_enum haccepted henum happly
  obtain ⟨hno, hreads⟩ := hfails hresult
  refine ⟨answer, happly, fun h => ?_, fun htrue => ?_⟩
  · obtain hok | htrue := h
    · exact absurd hok hno
    · exact nomatch hreads.symm.trans htrue
  · exact nomatch (hsame.status.trans hstatus).symm.trans htrue

theorem honest_iff_of_unset (haccepted : Accepted c.env (params c))
    (hstatus : s.handle.metricEnumStatus = false) : Honest s c ↔ Sound s c := by
  have henumerates : Enumerates s.handle c := ⟨haccepted, hstatus⟩
  have hafter := completeAfter_of henumerates
  obtain ⟨hnone, result, h', henum, hresult, hunset⟩ | ⟨e, he, h', henum, hunset, hholds⟩ :=
    enum_cases c.env.enum hstatus
  · refine iff_of_true (honest_of_failed haccepted henum hresult hunset) fun _ e he => ?_
    exact nomatch hnone.symm.trans he
  · by_cases hcomplete : Complete e
    · have hfound : completeAfter s c = some (e.additions.map Addition.metric) := by
        rw [hafter, enumerated, he, Option.bind_some, if_pos hcomplete]
      have hv := hholds hcomplete
      refine iff_of_true ?_ fun _ e' he' => .inl ?_
      · obtain ⟨answer, happly⟩ := exists_answer henum fun _ => ⟨_, hv⟩
        exact honest_of_served hfound hv happly (same_of_enum haccepted henum happly).1
      · exact Option.some.inj (he.symm.trans he') ▸ hcomplete
    · have hfound : completeAfter s c = none := by
        rw [hafter, enumerated, he, Option.bind_some, if_neg hcomplete]
      by_cases hfails : c.env.enum.objectType.2 = .accelerator ∧ e.result ≠ .ok
      · refine iff_of_true (honest_of_failed haccepted henum hfails.2 (hunset.mpr hfails))
          fun _ e' he' => .inr ?_
        exact Option.some.inj (he.symm.trans he') ▸ hfails
      · have hset : h'.metricEnumStatus = true := by
          rw [← Bool.not_eq_false]
          exact fun h => hfails (hunset.mp h)
        refine iff_of_false
          (not_honest hfound hset fun _ happly => (same_of_enum haccepted henum happly).1) ?_
        intro hsound
        exact (hsound henumerates e he).elim hcomplete hfails

theorem honest_iff (hinv : Inv s) : Honest s c ↔ Sound s c := by
  cases hstatus : s.handle.metricEnumStatus with
  | true => exact honest_iff_of_set hinv hstatus
  | false =>
    by_cases haccepted : Accepted c.env (params c)
    · exact honest_iff_of_unset haccepted hstatus
    · have hnot : ¬Enumerates s.handle c := fun he => haccepted he.1
      refine iff_of_true ?_ (sound_of_not hnot)
      have hout := apply_outcome s.handle c
      generalize happly : apply s.handle c = r at hout
      cases hout with
      | refused _ hresult hreads hsame =>
        exact honest_of_refused hinv hnot happly hresult hreads hsame
      | failed ha => exact absurd ha haccepted
      | served ha => exact absurd ha haccepted
      | fault ha => exact absurd ha haccepted

theorem inv_step (hinv : Inv s) (hsound : Sound s c) : Inv (step s c) := by
  obtain ⟨answer, happly, -, hholds⟩ := (honest_iff hinv).mpr hsound
  intro hstatus
  unfold step at hstatus ⊢
  rw [happly] at hstatus ⊢
  exact hholds hstatus

end Run

def opened : Handle := ⟨false, ⟨none, 0, 0⟩, false, none⟩

theorem inv_opened : Inv ⟨opened, none⟩ := fun h => nomatch h

/-- From a handle that is opened, every call is honest exactly if every enumeration that begins is
complete or is that of an accelerator and fails. -/
theorem run_honest_iff (calls : List Call) :
    Along step Honest ⟨opened, none⟩ calls ↔ Along step Sound ⟨opened, none⟩ calls :=
  along_iff (fun _ _ hinv hsound => inv_step hinv hsound) (fun _ _ hinv => honest_iff hinv) calls
    inv_opened

section Sample

def sampleMetric (num : UInt64) : FpgaEnumMetric :=
  ⟨[], [], [], [], [], num, .double, .power, .dcpRc, 0⟩

def sampleEnum : EnumEnv :=
  { token := true
    objectType := (.ok, .device)
    malloc := true
    discoverAfu := .ok
    afu := ⟨[], .ok⟩
    hwType := (.ok, .dcpRc)
    bmcPath := .ok
    bmcLib := true
    bmc := ⟨[⟨sampleMetric 0, true, true⟩, ⟨sampleMetric 1, true, true⟩], .exception⟩
    max10 := ⟨[], .ok⟩
    realloc := fun _ => true }

def sampleCall (request : Request) : Call :=
  ⟨⟨.ok, 3, sampleEnum, (.ok, .device), ⟨⟨.ok, [], true, .ok, [], .ok⟩, fun _ => (.ok, 0),
    fun _ => .ok 0⟩⟩, request⟩

/-- After the enumeration has failed, the number of metrics is reported with success, and asking for
as many reads through `NULL`. -/
theorem failed_then_reported : ∃ answer answer',
    apply opened (sampleCall (.numMetrics true)) = some answer ∧ answer.result = .notFound ∧
    answer.handle.metricEnumStatus = true ∧
    apply answer.handle (sampleCall (.numMetrics true)) = some answer' ∧ answer'.result = .ok ∧
    apply answer.handle (sampleCall (.metricsInfo true 1)) = none ∧
    ¬Along step Honest ⟨opened, none⟩ [sampleCall (.numMetrics true)] := by
  refine ⟨_, _, rfl, rfl, rfl, rfl, rfl, rfl, ?_⟩
  rintro ⟨hhonest, -⟩
  have hsound := (honest_iff inv_opened).mp hhonest
  obtain hcomplete | ⟨hkind, -⟩ := hsound ⟨⟨rfl, by decide, rfl⟩, rfl⟩ sampleEnum.bmc rfl
  · exact nomatch hcomplete.1
  · exact nomatch hkind

end Sample

end OpaeLibs.PluginXfpga.MetricRuns
