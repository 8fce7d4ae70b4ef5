import OpaeLibs.Lib.Loops
import OpaeLibs.PluginXfpga.Mmio

namespace OpaeLibs.PluginXfpga.AfuMetrics

open OpaeLibs.Lib.Bytes OpaeLibs.Lib.Loops OpaeLibs.OpaeC.Props OpaeLibs.PluginXfpga.Mmio

def metricsBbbIdH : UInt64 := 0x87816958C1484CD0
def metricsBbbIdL : UInt64 := 0x9D73E8F258E9E3D7
def featureTypeBbb : UInt64 := 0x2
def metricCsrOffset : UInt64 := 0x20
def metricNextCsr : UInt64 := 0x8

/-- The MMIO space of an AFU. A read that fails says why, and an offset that is not a multiple of
eight cannot be read. -/
structure AfuMmio where
  read : UInt64 → Except FpgaResult UInt64
  aligned : ∀ offset csr, read offset = .ok csr → offset.toNat % 8 = 0
  refused : ∀ offset result, read offset = .error result → result ≠ .ok

namespace AfuMmio

def ofCells (cells : List UInt64) : AfuMmio where
  read offset :=
    if offset.toNat % 8 ≠ 0 then .error .invalidParam
    else
      match cells[offset.toNat / 8]? with
      | some csr => .ok csr
      | none => .error .invalidParam
  aligned := by
    intro offset csr h
    by_contra hodd
    rw [if_pos hodd] at h
    exact nomatch h
  refused := by
    intro offset result h
    split at h
    case isTrue => exact Except.error.inj h ▸ nofun
    case isFalse =>
      split at h
      · exact nomatch h
      · exact Except.error.inj h ▸ nofun

theorem mem_of_read {cells : List UInt64} {offset csr : UInt64}
    (h : (ofCells cells).read offset = .ok csr) : csr ∈ cells := by
  unfold ofCells at h
  dsimp only at h
  split at h
  · exact nomatch h
  · split at h
    · next hcell => exact Except.ok.inj h ▸ List.mem_of_getElem? hcell
    · exact nomatch h

/-- What is read through a handle. -/
def ofHandle (env : MapEnv) (h : Handle) : AfuMmio where
  read offset :=
    let access := xfpgaFpgaReadMmio64 env h 0 offset
    match access.result, access.value with
    | .ok, some value => .ok (UInt64.ofNat (ofLe value))
    | .ok, none => .error .exception
    | result, _ => .error result
  aligned := by
    intro offset csr hread
    by_contra hodd
    simp [xfpgaFpgaReadMmio64, accessMmio, Mmio.refused, hodd] at hread
  refused := by
    intro offset result hread
    dsimp only at hread
    split at hread
    · exact nomatch hread
    · exact Except.error.inj hread ▸ nofun
    · next hsome hnone =>
      refine Except.error.inj hread ▸ fun hres => ?_
      cases hvalue : (xfpgaFpgaReadMmio64 env h 0 offset).value with
      | none => exact hnone hres hvalue
      | some value => exact hsome value hres hvalue

end AfuMmio

def readsThrough (env : MapEnv) : Handle → List UInt64 → List (Except FpgaResult UInt64) × Handle
  | h, [] => ([], h)
  | h, offset :: rest =>
    let (values, h') := readsThrough env (xfpgaFpgaReadMmio64 env h 0 offset).handle rest
    ((AfuMmio.ofHandle env h).read offset :: values, h')

/-- A mapped region stays the same space from read to read. -/
theorem readsThrough_eq {env : MapEnv} {h : Handle} {wm : WsidList.WsidMap}
    (hwm : WsidList.wsidFindByIndex h.mmioRoot 0 = some wm) (offsets : List UInt64) :
    readsThrough env h offsets = (offsets.map (AfuMmio.ofHandle env h).read, h) := by
  induction offsets with
  | nil => rfl
  | cons offset rest ih =>
    have hsame : (xfpgaFpgaReadMmio64 env h 0 offset).handle = h := by
      rw [xfpgaFpgaReadMmio64, accessMmio, accessWm, findOrMapWm, hwm]
      grind [Mmio.refused, readAt]
    rw [readsThrough, hsame, ih, List.map_cons]

/-- The result of a read and the register it was to fill. -/
def AfuMmio.readInto (m : AfuMmio) (offset csr : UInt64) : FpgaResult × UInt64 :=
  match m.read offset with
  | .ok csr => (.ok, csr)
  | .error result => (result, csr)

namespace DFH

def nextHeaderOffset (csr : UInt64) : UInt64 := csr >>> 16 &&& 0xffffff
def eol (csr : UInt64) : UInt64 := csr >>> 40 &&& 1
def type (csr : UInt64) : UInt64 := csr >>> 60

end DFH

namespace MetricBbbGroup

def units (csr : UInt64) : UInt64 := csr >>> 28 &&& 0xff
def groupId (csr : UInt64) : UInt64 := csr >>> 36 &&& 0xff
def nextGroupOffset (csr : UInt64) : UInt64 := csr >>> 45 &&& 0xffff

end MetricBbbGroup

namespace MetricBbbValue

def eol (csr : UInt64) : UInt64 := csr >>> 7 &&& 1
def counterId (csr : UInt64) : UInt64 := csr >>> 8 &&& 0xff

end MetricBbbValue

/-- A register of the MMIO space: where the code looked for it and what it then holds. -/
structure Register where
  offset : UInt64
  csr : UInt64
deriving DecidableEq

def headerStep (m : AfuMmio) (dfh : Register) :
    Option (Register ⊕ (FpgaResult × Option UInt64)) :=
  if DFH.eol dfh.csr ≠ 0 ∧ DFH.nextHeaderOffset dfh.csr ≠ 0 then
    let bbsOffset := DFH.nextHeaderOffset dfh.csr
    match m.read bbsOffset with
    | .error _ => some (.inr (.notSupported, none))
    | .ok csr =>
      if DFH.type csr = featureTypeBbb then
        match m.read (bbsOffset + 0x8) with
        | .error _ => some (.inr (.notSupported, none))
        | .ok guid0 =>
          match m.read (bbsOffset + 0x10) with
          | .error _ => some (.inr (.notSupported, none))
          | .ok guid1 =>
            if guid0 = metricsBbbIdL ∧ guid1 = metricsBbbIdH then
              some (.inr (.ok, some bbsOffset))
            else some (.inl ⟨bbsOffset, csr⟩)
      else some (.inl ⟨bbsOffset, csr⟩)
  else some (.inr (.notFound, none))

/-- The result and what is stored through the pointer, or `none` where the loop does not end within
so many rounds. -/
def discoverAfuMetricsFeature (fuel : Nat) (m : AfuMmio) (offset : Bool) :
    Option (FpgaResult × Option UInt64) :=
  if !offset then some (.invalidParam, none)
  else
    match m.read 0 with
    | .error _ => some (.notSupported, none)
    | .ok csr => loop (headerStep m) fuel ⟨0, csr⟩

structure AfuMetric where
  metricNum : UInt64
  groupId : UInt64
  units : UInt64
  counterId : UInt64
  mmioOffset : UInt64
deriving DecidableEq

structure Metrics where
  metricId : UInt64
  vector : List AfuMetric

/-- What adding a metric returns and leaves in the vector. -/
abbrev AddMetricVector := List AfuMetric → AfuMetric → FpgaResult × List AfuMetric

def addAfuMetricsVector (add : AddMetricVector) (metrics : Metrics)
    (groupValue metricValue metricOffset : UInt64) : FpgaResult × Metrics :=
  let metricId := metrics.metricId + 1
  let (result, vector) := add metrics.vector
    ⟨metricId, MetricBbbGroup.groupId groupValue, MetricBbbGroup.units groupValue,
      MetricBbbValue.counterId metricValue, metricOffset⟩
  (result, ⟨metricId, vector⟩)

structure Values where
  metric : Register
  result : FpgaResult
  metrics : Metrics

def valueStep (m : AfuMmio) (add : AddMetricVector) (groupCsr : UInt64) (s : Values) :
    Option (Values ⊕ Values) :=
  if MetricBbbValue.counterId s.metric.csr ≠ 0 then
    let (result, metrics) := addAfuMetricsVector add s.metrics groupCsr s.metric.csr s.metric.offset
    if MetricBbbValue.eol s.metric.csr = 0 then
      let valueOffset := s.metric.offset + metricNextCsr
      let (result, csr) := m.readInto valueOffset s.metric.csr
      some (.inl ⟨⟨valueOffset, csr⟩, result, metrics⟩)
    else some (.inr ⟨s.metric, result, metrics⟩)
  else some (.inr s)

/-- Before a group is read, the register holds the group before it. -/
structure Groups where
  group : Register
  metricCsr : UInt64
  metrics : Metrics

def groupStep (fuel : Nat) (m : AfuMmio) (add : AddMetricVector) (s : Groups) :
    Option (Groups ⊕ (FpgaResult × Metrics)) :=
  let groupOffset := s.group.offset
  let (result, groupCsr) := m.readInto groupOffset s.group.csr
  if MetricBbbGroup.groupId groupCsr ≠ 0 then
    let valueOffset := groupOffset + metricNextCsr
    let (result, metricCsr) := m.readInto valueOffset s.metricCsr
    (loop (valueStep m add groupCsr) fuel ⟨⟨valueOffset, metricCsr⟩, result, s.metrics⟩).map
      fun values =>
        let next := groupOffset + MetricBbbGroup.nextGroupOffset groupCsr
        if groupOffset = next then .inr (values.result, values.metrics)
        else .inl ⟨⟨next, groupCsr⟩, values.metric.csr, values.metrics⟩
  else some (.inr (result, s.metrics))

/-- Of the pointers none is `NULL` just if `params` is true. -/
def enumAfuMetrics (fuel : Nat) (m : AfuMmio) (add : AddMetricVector) (params : Bool)
    (metrics : Metrics) (metricsOffset : UInt64) : Option (FpgaResult × Metrics) :=
  if !params then some (.invalidParam, metrics)
  else loop (groupStep fuel m add) fuel ⟨⟨metricsOffset + metricCsrOffset, 0⟩, 0, metrics⟩

end OpaeLibs.PluginXfpga.AfuMetrics
