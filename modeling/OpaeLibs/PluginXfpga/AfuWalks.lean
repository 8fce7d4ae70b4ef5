import OpaeLibs.Lib.Walks
import OpaeLibs.PluginXfpga.AfuMetrics

namespace OpaeLibs.PluginXfpga.AfuWalks

open OpaeLibs.Lib.Loops OpaeLibs.Lib.Walks
open OpaeLibs.OpaeC.Props OpaeLibs.PluginXfpga.AfuMetrics

instance : Finite Register :=
  Finite.of_injective (fun r : Register => (r.offset.toFin, r.csr.toFin)) (by
    rintro ⟨offset, csr⟩ ⟨offset', csr'⟩ h
    obtain ⟨hoffset, hcsr⟩ := Prod.mk.inj h
    obtain rfl := UInt64.toFin_inj.mp hoffset
    obtain rfl := UInt64.toFin_inj.mp hcsr
    rfl)

def register (m : AfuMmio) (offset csr : UInt64) : Register := ⟨offset, (m.readInto offset csr).2⟩

/-- The header is not the one looked for, and its GUID, if it has one, can be read. -/
def passes (m : AfuMmio) (header : Register) : Bool :=
  if DFH.type header.csr = featureTypeBbb then
    match m.read (header.offset + 0x8), m.read (header.offset + 0x10) with
    | .ok guid0, .ok guid1 => !(guid0 = metricsBbbIdL ∧ guid1 = metricsBbbIdH)
    | _, _ => false
  else true

def nextHeader (m : AfuMmio) (header : Register) : Option Register :=
  if DFH.eol header.csr ≠ 0 ∧ DFH.nextHeaderOffset header.csr ≠ 0 then
    let offset := DFH.nextHeaderOffset header.csr
    match m.read offset with
    | .ok csr => if passes m ⟨offset, csr⟩ then some ⟨offset, csr⟩ else none
    | .error _ => none
  else none

def nextGroup (m : AfuMmio) (group : Register) : Option Register :=
  if MetricBbbGroup.groupId group.csr = 0 ∨ MetricBbbGroup.nextGroupOffset group.csr = 0 then none
  else some (register m (group.offset + MetricBbbGroup.nextGroupOffset group.csr) group.csr)

/-- The register ends a list of metric values. -/
def Last (csr : UInt64) : Prop := MetricBbbValue.counterId csr = 0 ∨ MetricBbbValue.eol csr ≠ 0

instance (csr : UInt64) : Decidable (Last csr) := inferInstanceAs (Decidable (_ ∨ _))

theorem last_zero : Last 0 := by decide

def nextValue (m : AfuMmio) (metric : Register) : Option Register :=
  if Last metric.csr then none
  else some (register m (metric.offset + metricNextCsr) metric.csr)

def Readable (m : AfuMmio) (offset : UInt64) : Prop := ∃ csr, m.read offset = .ok csr

/-- Somewhere in the MMIO space is what would end a list of metric values. -/
def HasLast (m : AfuMmio) : Prop := ∃ offset csr, m.read offset = .ok csr ∧ Last csr

/-- The AFU's list of headers, as far as it is followed, does not come back to a header. -/
def HeadersAcyclic (m : AfuMmio) : Prop :=
  ∀ csr, m.read 0 = .ok csr → Acyclic (nextHeader m) ⟨0, csr⟩

/-- A group whose first value can be read is in a space with a last value. -/
def ValuesEnd (m : AfuMmio) (group : Register) : Prop :=
  ∀ group', Visits (nextGroup m) group group' → MetricBbbGroup.groupId group'.csr ≠ 0 →
    Readable m (group'.offset + metricNextCsr) → HasLast m

/-- The groups, each `next_group_offset` behind the one before, never come back to a register with
the same contents, and their lists of values end. -/
structure GroupsEnd (m : AfuMmio) (group : Register) : Prop where
  acyclic : Acyclic (nextGroup m) group
  values : ValuesEnd m group

section

variable {m : AfuMmio} {add : AddMetricVector}

theorem register_of_ok {offset csr csr' : UInt64} (h : m.read offset = .ok csr') :
    register m offset csr = ⟨offset, csr'⟩ := by rw [register, AfuMmio.readInto, h]

theorem register_of_error {offset csr : UInt64} {result : FpgaResult}
    (h : m.read offset = .error result) : register m offset csr = ⟨offset, csr⟩ := by
  rw [register, AfuMmio.readInto, h]

theorem headerStep_cases (m : AfuMmio) (header : Register) :
    (nextHeader m header = none ∧ ∃ b, headerStep m header = some (.inr b)) ∨
    ∃ header', nextHeader m header = some header' ∧ headerStep m header = some (.inl header') := by
  unfold headerStep nextHeader
  by_cases hends : DFH.eol header.csr ≠ 0 ∧ DFH.nextHeaderOffset header.csr ≠ 0
  swap
  · simp [hends]
  generalize DFH.nextHeaderOffset header.csr = offset at hends
  simp only [hends, ne_eq, not_false_eq_true, and_self, if_true]
  cases hread : m.read offset with
  | error result => simp
  | ok csr =>
    by_cases htype : DFH.type csr = featureTypeBbb
    swap
    · simp [passes, htype]
    cases hguid0 : m.read (offset + 0x8) with
    | error result => simp [passes, htype, hguid0]
    | ok guid0 =>
      cases hguid1 : m.read (offset + 0x10) with
      | error result => simp [passes, htype, hguid0, hguid1]
      | ok guid1 =>
        by_cases hfound : guid0 = metricsBbbIdL ∧ guid1 = metricsBbbIdH
        · simp [passes, htype, hguid0, hguid1, hfound]
        · simp [passes, htype, hguid0, hguid1, hfound]

theorem discover_returns_iff (m : AfuMmio) :
    (∃ fuel res, discoverAfuMetricsFeature fuel m true = some res) ↔ HeadersAcyclic m := by
  have hloop : ∀ header, (∃ n b, loop (headerStep m) n header = some b) ↔
      Finishes (nextHeader m) header :=
    exists_loop_iff id (headerStep_cases m)
  unfold discoverAfuMetricsFeature HeadersAcyclic
  cases hread : m.read 0 with
  | error result => simp
  | ok csr =>
    have hiff := (hloop ⟨0, csr⟩).trans finishes_iff_acyclic
    simpa using hiff

theorem valueStep_cases (m : AfuMmio) (add : AddMetricVector) (groupCsr : UInt64)
    (s : Values) :
    (nextValue m s.metric = none ∧
      ∃ b, valueStep m add groupCsr s = some (.inr b) ∧ Last b.metric.csr) ∨
    ∃ s', nextValue m s.metric = some s'.metric ∧
      valueStep m add groupCsr s = some (.inl s') := by
  unfold valueStep nextValue Last register
  by_cases hcounter : MetricBbbValue.counterId s.metric.csr = 0
  · simp [hcounter]
  · by_cases heol : MetricBbbValue.eol s.metric.csr = 0
    · simp [hcounter, heol]
    · simp [hcounter, heol]

theorem values_last {groupCsr : UInt64} {n : Nat} {s b : Values}
    (h : loop (valueStep m add groupCsr) n s = some b) : Last b.metric.csr := by
  have hends := Ends.of_loop h
  clear h
  induction hends with
  | @done s b hs =>
    obtain ⟨-, b', hs', hlast⟩ | ⟨s', -, hs'⟩ := valueStep_cases m add groupCsr s
    · obtain rfl := Sum.inr.inj (Option.some.inj (hs.symm.trans hs'))
      exact hlast
    · exact nomatch hs.symm.trans hs'
  | next _ _ ih => exact ih

theorem hasLast_of_finishes {metric : Register} (h : Finishes (nextValue m) metric)
    (hlast : ¬Last metric.csr) : HasLast m := by
  induction h with
  | @stop metric hnext =>
    rw [nextValue, if_neg hlast] at hnext
    exact nomatch hnext
  | @go metric metric' hnext _ ih =>
    rw [nextValue, if_neg hlast] at hnext
    obtain rfl := Option.some.inj hnext
    cases hread : m.read (metric.offset + metricNextCsr) with
    | error result =>
      rw [register_of_error hread] at ih
      exact ih hlast
    | ok csr =>
      rw [register_of_ok hread] at ih
      by_cases hcsr : Last csr
      · exact ⟨_, csr, hread, hcsr⟩
      · exact ih hcsr

theorem finishes_of_ahead {n : Nat} {metric : Register} {csr : UInt64}
    (hmetric : ∀ csr, m.read metric.offset = .ok csr → metric.csr = csr)
    (hread : m.read (metric.offset + metricNextCsr * UInt64.ofNat n) = .ok csr)
    (hcsr : Last csr) : Finishes (nextValue m) metric := by
  induction n generalizing metric with
  | zero =>
    have hsame := hmetric csr (by simpa using hread)
    exact .stop (by rw [nextValue, hsame, if_pos hcsr])
  | succ n ih =>
    by_cases hlast : Last metric.csr
    · exact .stop (by rw [nextValue, if_pos hlast])
    · refine .go (by rw [nextValue, if_neg hlast]) (ih ?_ ?_)
      · intro csr' hread'
        exact congrArg Register.csr (register_of_ok hread')
      · have hoffset : metric.offset + metricNextCsr + metricNextCsr * UInt64.ofNat n =
            metric.offset + metricNextCsr * UInt64.ofNat (n + 1) := by
          rw [UInt64.ofNat_add, UInt64.ofNat_one, UInt64.mul_add, UInt64.mul_one,
            UInt64.add_comm (metricNextCsr * UInt64.ofNat n), UInt64.add_assoc]
        rw [← hoffset] at hread
        exact hread

theorem exists_ahead {offset offset' csr csr' : UInt64} (h : m.read offset = .ok csr)
    (h' : m.read offset' = .ok csr') : ∃ n, offset + metricNextCsr * UInt64.ofNat n = offset' := by
  have haligned := m.aligned offset csr h
  have haligned' := m.aligned offset' csr' h'
  have hlt := offset.toNat_lt
  have hlt' := offset'.toNat_lt
  refine ⟨(offset'.toNat + (2 ^ 64 - offset.toNat)) / 8, UInt64.toNat_inj.mp ?_⟩
  have height : metricNextCsr.toNat = 8 := rfl
  rw [UInt64.toNat_add, UInt64.toNat_mul, UInt64.toNat_ofNat', height]
  omega

theorem values_finish_iff {offset csr : UInt64} (hlast : Last csr) :
    Finishes (nextValue m) (register m offset csr) ↔ (Readable m offset → HasLast m) := by
  cases hread : m.read offset with
  | error result =>
    rw [register_of_error hread]
    refine iff_of_true (.stop (by rw [nextValue, if_pos hlast])) ?_
    rintro ⟨csr', hread'⟩
    exact nomatch hread.symm.trans hread'
  | ok csr' =>
    rw [register_of_ok hread]
    constructor
    · intro hfin _
      by_cases hcsr : Last csr'
      · exact ⟨offset, csr', hread, hcsr⟩
      · exact hasLast_of_finishes hfin hcsr
    · intro hhas
      obtain ⟨offset', last, hread', hcsr⟩ := hhas ⟨csr', hread⟩
      obtain ⟨n, rfl⟩ := exists_ahead hread hread'
      refine finishes_of_ahead (fun csr hcsr' => ?_) hread' hcsr
      exact Except.ok.inj (hread.symm.trans hcsr')

def groupOf (m : AfuMmio) (s : Groups) : Register := register m s.group.offset s.group.csr

theorem groupStep_of_zero {s : Groups} (h : MetricBbbGroup.groupId (groupOf m s).csr = 0) :
    ∃ b, ∀ n, groupStep n m add s = some (.inr b) := by
  unfold groupStep
  have hid : MetricBbbGroup.groupId (m.readInto s.group.offset s.group.csr).2 = 0 := h
  simp [hid]

def valuesOf (m : AfuMmio) (s : Groups) : Values :=
  ⟨register m ((groupOf m s).offset + metricNextCsr) s.metricCsr,
    (m.readInto ((groupOf m s).offset + metricNextCsr) s.metricCsr).1, s.metrics⟩

theorem groupStep_of_ne {s : Groups} (h : MetricBbbGroup.groupId (groupOf m s).csr ≠ 0)
    (n : Nat) : groupStep n m add s =
      (loop (valueStep m add (groupOf m s).csr) n (valuesOf m s)).map fun values =>
        if MetricBbbGroup.nextGroupOffset (groupOf m s).csr = 0 then
          .inr (values.result, values.metrics)
        else .inl ⟨⟨(groupOf m s).offset + MetricBbbGroup.nextGroupOffset (groupOf m s).csr,
          (groupOf m s).csr⟩, values.metric.csr, values.metrics⟩ := by
  have hid : MetricBbbGroup.groupId (m.readInto s.group.offset s.group.csr).2 ≠ 0 := h
  have hself : ∀ a b : UInt64, a = a + b ↔ b = 0 := by
    intro a b
    constructor <;> grind
  unfold groupStep groupOf register valuesOf
  simp [hid, hself]
  rfl

theorem groupStep_mono {n n' : Nat} (hn : n ≤ n') {s : Groups} {r : Groups ⊕ (FpgaResult × Metrics)}
    (h : groupStep n m add s = some r) : groupStep n' m add s = some r := by
  by_cases hid : MetricBbbGroup.groupId (groupOf m s).csr = 0
  · obtain ⟨b, hb⟩ := groupStep_of_zero hid
    rw [← h, hb n, hb n']
  · rw [groupStep_of_ne hid] at h ⊢
    obtain ⟨values, hvalues, rfl⟩ := Option.map_eq_some_iff.mp h
    rw [loop_mono (fun _ _ hs => hs) hn hvalues]
    rfl

theorem groupStep_cases {n : Nat} {s : Groups} {r : Groups ⊕ (FpgaResult × Metrics)}
    (h : groupStep n m add s = some r) :
    (nextGroup m (groupOf m s) = none ∧ ∃ b, r = .inr b) ∨
    ∃ s', nextGroup m (groupOf m s) = some (groupOf m s') ∧ r = .inl s' ∧ Last s'.metricCsr := by
  by_cases hid : MetricBbbGroup.groupId (groupOf m s).csr = 0
  · obtain ⟨b, hb⟩ := groupStep_of_zero hid
    exact .inl ⟨by simp [nextGroup, hid], b, Option.some.inj (h.symm.trans (hb n))⟩
  · rw [groupStep_of_ne hid] at h
    obtain ⟨values, hvalues, rfl⟩ := Option.map_eq_some_iff.mp h
    by_cases hnext : MetricBbbGroup.nextGroupOffset (groupOf m s).csr = 0
    · exact .inl ⟨by simp [nextGroup, hnext], by simp [hnext]⟩
    · refine .inr ⟨⟨⟨_, (groupOf m s).csr⟩, values.metric.csr, values.metrics⟩, ?_,
        by rw [if_neg hnext], values_last hvalues⟩
      rw [nextGroup, if_neg (not_or.mpr ⟨hid, hnext⟩)]
      rfl

theorem exists_groupStep_iff {s : Groups} (hlast : Last s.metricCsr) :
    (∃ n r, groupStep n m add s = some r) ↔
      (MetricBbbGroup.groupId (groupOf m s).csr ≠ 0 →
        Readable m ((groupOf m s).offset + metricNextCsr) → HasLast m) := by
  by_cases hid : MetricBbbGroup.groupId (groupOf m s).csr = 0
  · obtain ⟨b, hb⟩ := groupStep_of_zero hid
    exact iff_of_true ⟨0, _, hb 0⟩ fun hne => absurd hid hne
  · have hloop := exists_loop_iff Values.metric
      (fun s' => (valueStep_cases m add (groupOf m s).csr s').imp_left
        (And.imp_right fun ⟨b, hb, _⟩ => ⟨b, hb⟩)) (valuesOf m s)
    have hvalues := hloop.trans (values_finish_iff hlast)
    simp only [groupStep_of_ne hid, Option.map_eq_some_iff, ne_eq, hid, not_false_eq_true,
      forall_const]
    rw [← hvalues]
    constructor
    · rintro ⟨n, r, b, hb, -⟩
      exact ⟨n, b, hb⟩
    · rintro ⟨n, b, hb⟩
      exact ⟨n, _, b, hb, rfl⟩

theorem groups_end_of_loop {fuel n : Nat} {s : Groups} (hlast : Last s.metricCsr)
    {b : FpgaResult × Metrics} (h : loop (groupStep fuel m add) n s = some b) :
    Finishes (nextGroup m) (groupOf m s) ∧ ValuesEnd m (groupOf m s) := by
  induction n generalizing s with
  | zero => cases h
  | succ n ih =>
    rw [loop] at h
    cases hs : groupStep fuel m add s with
    | none =>
      rw [hs] at h
      cases h
    | some r =>
      have hvalues := (exists_groupStep_iff hlast).mp ⟨fuel, r, hs⟩
      obtain ⟨hnext, -⟩ | ⟨s', hnext, rfl, hlast'⟩ := groupStep_cases hs
      · refine ⟨.stop hnext, fun group' hvisits => ?_⟩
        obtain rfl := visits_of_stop hnext hvisits
        exact hvalues
      · rw [hs] at h
        obtain ⟨hfin, hend⟩ := ih hlast' h
        refine ⟨.go hnext hfin, fun group' hvisits => ?_⟩
        obtain rfl | hvisits := visits_of_go hnext hvisits
        · exact hvalues
        · exact hend group' hvisits

theorem loop_of_groups_end {s : Groups} (hlast : Last s.metricCsr)
    (hfin : Finishes (nextGroup m) (groupOf m s)) (hend : ValuesEnd m (groupOf m s)) :
    ∃ fuel n b, loop (groupStep fuel m add) n s = some b := by
  generalize hg : groupOf m s = g at hfin
  induction hfin generalizing s with
  | stop hstop =>
    subst hg
    obtain ⟨fuel, r, hs⟩ := (exists_groupStep_iff hlast).mpr (hend _ (.refl _))
    obtain ⟨-, b, rfl⟩ | ⟨s', hnext, -, -⟩ := groupStep_cases hs
    · exact ⟨fuel, 1, b, by rw [loop, hs]⟩
    · cases hstop.symm.trans hnext
  | go hgo _ ih =>
    subst hg
    obtain ⟨fuel, r, hs⟩ := (exists_groupStep_iff hlast).mpr (hend _ (.refl _))
    obtain ⟨hnext, -⟩ | ⟨s', hnext, rfl, hlast'⟩ := groupStep_cases hs
    · cases hnext.symm.trans hgo
    · have hend' : ValuesEnd m (groupOf m s') :=
        fun group' hvisits => hend group' (.head hnext hvisits)
      obtain ⟨fuel', n, b, hloop⟩ :=
        ih hlast' hend' (Option.some.inj (hnext.symm.trans hgo))
      refine ⟨max fuel fuel', n + 1, b, ?_⟩
      rw [loop, groupStep_mono (le_max_left fuel fuel') hs]
      exact loop_mono (fun _ _ => groupStep_mono (le_max_right fuel fuel')) le_rfl hloop

theorem exists_groups_iff {s : Groups} (hlast : Last s.metricCsr) :
    (∃ fuel b, loop (groupStep fuel m add) fuel s = some b) ↔ GroupsEnd m (groupOf m s) := by
  constructor
  · rintro ⟨fuel, b, h⟩
    obtain ⟨hfin, hend⟩ := groups_end_of_loop hlast h
    exact ⟨hfin.acyclic, hend⟩
  · rintro ⟨hacyclic, hend⟩
    obtain ⟨fuel, n, b, h⟩ := loop_of_groups_end hlast hacyclic.finishes hend
    exact ⟨max fuel n, b, loop_mono (fun _ _ => groupStep_mono (le_max_left fuel n))
      (le_max_right fuel n) h⟩

def firstGroup (m : AfuMmio) (metricsOffset : UInt64) : Register :=
  register m (metricsOffset + metricCsrOffset) 0

/-- Each of the two functions returns exactly if its walks end. -/
theorem afu_metrics_return_iff (m : AfuMmio) (add : AddMetricVector)
    (metrics : Metrics) (metricsOffset : UInt64) :
    ((∃ fuel res, discoverAfuMetricsFeature fuel m true = some res) ↔ HeadersAcyclic m) ∧
    ((∃ fuel res, enumAfuMetrics fuel m add true metrics metricsOffset = some res) ↔
      GroupsEnd m (firstGroup m metricsOffset)) :=
  ⟨discover_returns_iff m,
    exists_groups_iff (s := ⟨⟨metricsOffset + metricCsrOffset, 0⟩, 0, metrics⟩) last_zero⟩

end

section Sample

/-- Two headers, of which the second links to itself. -/
def selfLink : AfuMmio := .ofCells [0x3000010000080000, 0x3000010000080000]

/-- A group in the fifth register and no register that would end its list of values. -/
def noLast : AfuMmio := .ofCells [0x100, 0x100, 0x100, 0x100, 0x1000000100, 0x100]

theorem walks_never_return :
    (¬∃ fuel res, discoverAfuMetricsFeature fuel selfLink true = some res) ∧
    ∀ add metrics, ¬∃ fuel res, enumAfuMetrics fuel noLast add true metrics 0 = some res := by
  constructor
  · rw [discover_returns_iff]
    intro hacyclic
    have hfirst : nextHeader selfLink ⟨0, 0x3000010000080000⟩ =
        some ⟨8, 0x3000010000080000⟩ := by decide
    have hself : nextHeader selfLink ⟨8, 0x3000010000080000⟩ =
        some ⟨8, 0x3000010000080000⟩ := by decide
    exact hacyclic _ rfl _ (.head hfirst (.refl _)) (.single hself)
  · intro add metrics h
    have hend : GroupsEnd noLast (firstGroup noLast 0) :=
      (exists_groups_iff (s := ⟨⟨metricCsrOffset, 0⟩, 0, metrics⟩) last_zero).mp h
    obtain ⟨offset, csr, hread, hlast⟩ :=
      hend.values _ (.refl _) (by decide) ⟨0x100, by decide⟩
    have hvalue : ¬Last 0x100 := by decide
    have hgroup : ¬Last 0x1000000100 := by decide
    have hmem := AfuMmio.mem_of_read hread
    simp only [List.mem_cons, List.not_mem_nil, or_false] at hmem
    obtain rfl | rfl | rfl | rfl | rfl | rfl := hmem
    · exact hvalue hlast
    · exact hvalue hlast
    · exact hvalue hlast
    · exact hvalue hlast
    · exact hgroup hlast
    · exact hvalue hlast

end Sample

end OpaeLibs.PluginXfpga.AfuWalks
