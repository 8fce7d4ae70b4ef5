import OpaeLibs.PluginXfpga.EntryFills

namespace OpaeLibs.PluginXfpga.ThresholdSlots

open OpaeLibs.Lib.CStrings OpaeLibs.OpaeC.Props OpaeLibs.PluginXfpga.SensorFiles
  OpaeLibs.PluginXfpga.Thresholds OpaeLibs.PluginXfpga.EntryFills

variable {V : Type}

section Properties

/-- The name of a threshold; that of the hysteresis is also the name of its file. -/
def ownName : Slot → List UInt8
  | .upperNrThreshold => upperNrThresholdName
  | .upperCThreshold => upperCThresholdName
  | .upperNcThreshold => upperNcThresholdName
  | .lowerNrThreshold => lowerNrThresholdName
  | .lowerCThreshold => lowerCThresholdName
  | .lowerNcThreshold => lowerNcThresholdName
  | .hysteresis => sysfsHysteresis

/-- Each threshold that exists has its own name and value and is valid, and no other is valid. -/
def Lands (value : Slot → Option V) (t : MetricThreshold V) : Prop :=
  ∀ slot, match value slot with
    | some v => (t.threshold slot).thresholdName = ownName slot ∧
        (t.threshold slot).isValid ≠ 0 ∧ (t.threshold slot).value = v
    | none => (t.threshold slot).isValid = 0

/-- The BMC has no hysteresis. -/
def bmcValue (l : ThresholdList V) : Slot → Option V
  | .upperNrThreshold => l.upperNrThresh
  | .upperCThreshold => l.upperCThresh
  | .upperNcThreshold => l.upperNcThresh
  | .lowerNrThreshold => l.lowerNrThresh
  | .lowerCThreshold => l.lowerCThresh
  | .lowerNcThreshold => l.lowerNcThresh
  | .hysteresis => none

/-- The MAX10 has no non-recoverable thresholds. -/
def fileOf : Slot → Option (List UInt8)
  | .upperNrThreshold => none
  | .upperCThreshold => some sysfsHighFatal
  | .upperNcThreshold => some sysfsHighWarn
  | .lowerNrThreshold => none
  | .lowerCThreshold => some sysfsLowFatal
  | .lowerNcThreshold => some sysfsLowWarn
  | .hysteresis => some sysfsHysteresis

def max10Value (env : Max10Env V) (dir : List UInt8) (slot : Slot) : Option V :=
  (fileOf slot).bind fun file => (env.readU64 (pathOf dir file)).map env.milli

structure BmcReady (env : BmcEnv V) (handle numThresholds : Bool) : Prop where
  handle : handle = true
  numThresholds : numThresholds = true
  lock : env.lock = true
  loadLib : env.loadLib = true
  loadSDRs : env.loadSDRs = .ok
  readSensorValues : env.readSensorValues = .ok

/-- The details of a sensor of the BMC are read. -/
structure BmcReadable (env : BmcEnv V) (handle numThresholds : Bool) (x : Nat)
    (details : SdrDetails V) : Prop where
  ready : BmcReady env handle numThresholds
  lt : x < env.numSensors
  details : xfpgaBmcGetSDRDetails env x = (.ok, some details)

structure Max10Ready (env : Max10Env V) (handle numThresholds : Bool) (dirs : List (List UInt8)) :
    Prop where
  handle : handle = true
  numThresholds : numThresholds = true
  token : env.token = true
  max10 : env.max10 = some 1
  sensors : env.sensors = some dirs

/-- There is a file with the name of a sensor of the MAX10. -/
structure Max10Named (env : Max10Env V) (handle numThresholds : Bool) (i : Nat)
    (dir : List UInt8) (f : SensorFile) : Prop where
  ready : ∃ dirs, Max10Ready env handle numThresholds dirs ∧ dirs[i]? = some dir
  memory : env.memory i = true
  nameFile : env.nameFile (printed (pathOf dir sensorSysfsName)) = some f

/-- No entry is written that is not there, and in those of the readable sensors the thresholds are
in their own slots. -/
def BmcPlaced (env : BmcEnv V) (handle numThresholds : Bool)
    (entries : Option (List (MetricThreshold V))) : Prop :=
  ∃ out, getBmcThresholdInfo env handle numThresholds entries = some out ∧
    (entries ≠ none → ∀ x details, BmcReadable env handle numThresholds x details →
      ∃ t, out.entries[x]? = some t ∧ Lands (bmcValue details.thresholds) t)

def Max10Placed (env : Max10Env V) (handle numThresholds : Bool)
    (entries : Option (List (MetricThreshold V))) : Prop :=
  ∃ out, getMax10ThresholdInfo env handle numThresholds entries = some out ∧
    (entries ≠ none → ∀ i dir f, Max10Named env handle numThresholds i dir f → ¬f.Failing →
      ∃ t, out.entries[i]? = some t ∧ Lands (max10Value env dir) t)

end Properties

section Conditions

/-- Each readable sensor has a name and an entry, and there no threshold is valid that does not
exist. -/
def BmcFits (env : BmcEnv V) (handle numThresholds : Bool)
    (entries : Option (List (MetricThreshold V))) : Prop :=
  ∀ es, entries = some es → ∀ x details, BmcReadable env handle numThresholds x details →
    details.name ≠ none ∧ ∃ t, es[x]? = some t ∧
      ∀ slot, bmcValue details.thresholds slot = none → (t.threshold slot).isValid = 0

def seenValue (env : Max10Env V) (dir : List UInt8) (slot : Slot) : Option V :=
  (fileOf slot).bind fun file => (env.readU64 (printed (pathOf dir file))).map env.milli

/-- What is seen is what is there, unless it is in the entry already; and what is not there is not
valid in the entry. -/
def Agrees (seen actual : Option V) (prior : Threshold V) : Prop :=
  match actual with
  | some v => seen = some v ∨ seen = none ∧ prior.isValid ≠ 0 ∧ prior.value = v
  | none => seen = none ∧ prior.isValid = 0

/-- The file of the upper non-critical threshold is missing, and where that of the lower critical
one is there, the entry has its name. -/
def EntryFits (env : Max10Env V) (dir : List UInt8) (t : MetricThreshold V) : Prop :=
  (∀ slot, Agrees (seenValue env dir slot) (max10Value env dir slot) (t.threshold slot)) ∧
    max10Value env dir .upperNcThreshold = none ∧
    (max10Value env dir .lowerCThreshold ≠ none →
      (t.threshold .lowerCThreshold).thresholdName = lowerCThresholdName)

/-- The text in the buffer ends, or it is as long as is copied. -/
def NameEnds (f : SensorFile) : Prop := 0 ∈ f.buffer ∨ metricStrSize - 1 ≤ f.buffer.length

def Max10Fits (env : Max10Env V) (handle numThresholds : Bool)
    (entries : Option (List (MetricThreshold V))) : Prop :=
  ∀ es, entries = some es → ∀ i dir f, Max10Named env handle numThresholds i dir f →
    f.contents.length < 2 ^ 31 ∧
      (¬f.Failing → NameEnds f ∧ ∃ t, es[i]? = some t ∧ EntryFits env dir t)

end Conditions

section Slots

variable {t t' : MetricThreshold V}

theorem copied_ownName (slot : Slot) : copied (ownName slot) = ownName slot := by
  cases slot <;> decide +kernel

def filledWith (name : List UInt8) (value : Option V) (prior : Threshold V) : Threshold V :=
  ⟨name, value.elim prior.isValid fun _ => 1, value.getD prior.value⟩

theorem threshold_modify (t : MetricThreshold V) (slot slot' : Slot)
    (f : Threshold V → Threshold V) :
    (t.modify slot f).threshold slot' =
      if slot' = slot then f (t.threshold slot) else t.threshold slot' := by
  rw [MetricThreshold.modify]
  by_cases h : slot' = slot
  · subst h
    rw [if_pos rfl]
    exact Function.update_self ..
  · rw [if_neg h]
    exact Function.update_of_ne h ..

theorem threshold_fillThreshold (slot slot' : Slot) (text : List UInt8) (value : Option V)
    (t : MetricThreshold V) : (fillThreshold slot text value t).threshold slot' =
      if slot' = slot then
        filledWith (value.elim (t.threshold slot).thresholdName fun _ => copied text) value
          (t.threshold slot)
      else t.threshold slot' := by
  cases value with
  | none =>
    split
    · next h =>
      subst h
      rfl
    · rfl
  | some v =>
    rw [fillThreshold, MetricThreshold.setValue, MetricThreshold.setName, threshold_modify,
      threshold_modify, threshold_modify, if_pos rfl]
    split <;> rfl

theorem threshold_fillBmc {details : SdrDetails V} (h : fillBmc details t = some t') (slot : Slot) :
    t'.threshold slot = filledWith
      ((bmcValue details.thresholds slot).elim (t.threshold slot).thresholdName fun _ =>
        ownName slot) (bmcValue details.thresholds slot) (t.threshold slot) := by
  rw [fillBmc] at h
  obtain ⟨name, -, rfl⟩ := Option.map_eq_some_iff.mp h
  have hcopied := copied_ownName slot
  cases slot <;> simp only [threshold_fillThreshold, bmcValue, reduceCtorEq, if_true, if_false,
    ownName] at hcopied ⊢
  all_goals first | rw [hcopied] | rfl

theorem lands_fillBmc_iff (details : SdrDetails V) (t : MetricThreshold V) :
    (∃ t', fillBmc details t = some t' ∧ Lands (bmcValue details.thresholds) t') ↔
      details.name ≠ none ∧ ∀ slot, bmcValue details.thresholds slot = none →
        (t.threshold slot).isValid = 0 := by
  have hlands : ∀ t', fillBmc details t = some t' → (Lands (bmcValue details.thresholds) t' ↔
      ∀ slot, bmcValue details.thresholds slot = none → (t.threshold slot).isValid = 0) := by
    intro t' h
    refine forall_congr' fun slot => ?_
    rw [threshold_fillBmc h slot]
    cases bmcValue details.thresholds slot with
    | none => exact ⟨fun h _ => h, fun h => h rfl⟩
    | some v => exact iff_of_true ⟨rfl, (by decide : (1 : UInt32) ≠ 0), rfl⟩ nofun
  constructor
  · rintro ⟨t', h, hl⟩
    refine ⟨fun hnone => ?_, (hlands t' h).mp hl⟩
    rw [fillBmc, hnone] at h
    exact nomatch h
  · rintro ⟨hname, hvalid⟩
    obtain ⟨name, hname⟩ := Option.ne_none_iff_exists'.mp hname
    have hsome : fillBmc details t ≠ none := by
      rw [fillBmc, hname]
      exact Option.some_ne_none _
    obtain ⟨t', h⟩ := Option.ne_none_iff_exists'.mp hsome
    exact ⟨t', h, (hlands t' h).mpr hvalid⟩

theorem threshold_readThreshold (env : Max10Env V) (dir : List UInt8) (nameSlot slot slot' : Slot)
    (text file : List UInt8) (t : MetricThreshold V) :
    (readThreshold env dir nameSlot text file slot t).threshold slot' =
      filledWith
        (if slot' = nameSlot then copied text else (t.threshold slot').thresholdName)
        (if slot' = slot then (env.readU64 (printed (pathOf dir file))).map env.milli else none)
        (t.threshold slot') := by
  have hname : (t.setName nameSlot text).threshold slot' =
      { t.threshold slot' with
        thresholdName :=
          if slot' = nameSlot then copied text else (t.threshold slot').thresholdName } := by
    rw [MetricThreshold.setName, threshold_modify]
    split
    · next h =>
      subst h
      rfl
    · rfl
  rw [readThreshold]
  cases env.readU64 (printed (pathOf dir file)) with
  | none =>
    rw [Option.map_none, ite_self]
    exact hname
  | some value =>
    simp only
    rw [MetricThreshold.setValue, threshold_modify]
    split
    · next h =>
      subst h
      rw [hname]
      rfl
    · exact hname

def max10Name : Slot → List UInt8 → List UInt8
  | .upperCThreshold, _ => upperCThresholdName
  | .upperNcThreshold, _ => lowerCThresholdName
  | .lowerNcThreshold, _ => lowerNcThresholdName
  | .hysteresis, _ => sysfsHysteresis
  | _, prior => prior

theorem threshold_fillMax10 {env : Max10Env V} {dir tmp : List UInt8}
    (h : fillMax10 env dir tmp t = some t') (slot : Slot) :
    t'.threshold slot = filledWith (max10Name slot (t.threshold slot).thresholdName)
      (seenValue env dir slot) (t.threshold slot) := by
  rw [fillMax10] at h
  obtain ⟨name, -, rfl⟩ := Option.map_eq_some_iff.mp h
  have hupper := copied_ownName .upperCThreshold
  have hlower := copied_ownName .lowerCThreshold
  have hlowerNc := copied_ownName .lowerNcThreshold
  have hhysteresis := copied_ownName .hysteresis
  simp only [ownName] at hupper hlower hlowerNc hhysteresis
  cases slot <;> simp only [threshold_readThreshold, seenValue, fileOf, max10Name, filledWith,
    reduceCtorEq, if_true, if_false, Option.bind_some, Option.bind_none, Option.elim_none,
    Option.getD_none, hupper, hlower, hlowerNc, hhysteresis]

theorem nameIn_ne_none_iff (buffer : List UInt8) :
    nameIn buffer ≠ none ↔ 0 ∈ buffer ∨ metricStrSize - 1 ≤ buffer.length := by
  have hwhole : (buffer.takeWhile (· ≠ 0)).length < buffer.length ↔ 0 ∈ buffer := by
    induction buffer with
    | nil => simp
    | cons b buffer ih =>
      by_cases hb : b = 0
      · simp [hb]
      · simpa [List.takeWhile_cons, hb, eq_comm] using ih
  have hle := (List.takeWhile_sublist (l := buffer) (· ≠ 0)).length_le
  rw [nameIn, ← hwhole]
  split
  · next h => exact iff_of_true nofun (h.imp_right fun hge => Nat.le_trans hge hle)
  · next h =>
    rw [not_or, Nat.not_lt] at h
    refine iff_of_false (fun hsome => hsome rfl) ?_
    rintro (hlt | hge)
    · exact Nat.not_lt.mpr h.1 hlt
    · exact h.2 (Nat.le_trans hge h.1)

section Filled

variable {env : Max10Env V} {dir : List UInt8} {tmp : List UInt8} {t t' : MetricThreshold V}
  (h : fillMax10 env dir tmp t = some t')
include h

theorem name_fillMax10 (slot : Slot) : (t'.threshold slot).thresholdName =
    max10Name slot (t.threshold slot).thresholdName := by
  rw [threshold_fillMax10 h slot]
  rfl

theorem agrees_fillMax10_iff (slot : Slot) : (match max10Value env dir slot with
      | some v => (t'.threshold slot).isValid ≠ 0 ∧ (t'.threshold slot).value = v
      | none => (t'.threshold slot).isValid = 0) ↔
    Agrees (seenValue env dir slot) (max10Value env dir slot) (t.threshold slot) := by
  rw [threshold_fillMax10 h slot, filledWith]
  have hone : (1 : UInt32) ≠ 0 := by decide
  cases max10Value env dir slot <;> cases seenValue env dir slot <;> simp [Agrees, hone]

theorem lands_iff_entryFits : Lands (max10Value env dir) t' ↔ EntryFits env dir t := by
  have hother : upperNcThresholdName ≠ lowerCThresholdName := by decide +kernel
  constructor
  · intro hl
    refine ⟨fun slot => (agrees_fillMax10_iff h slot).mp ?_, ?_, fun hsome => ?_⟩
    · have hslot := hl slot
      split at hslot
      · exact hslot.2
      · exact hslot
    · by_contra hsome
      obtain ⟨v, hv⟩ := Option.ne_none_iff_exists'.mp hsome
      have hslot := hl .upperNcThreshold
      rw [hv, name_fillMax10 h] at hslot
      exact hother hslot.1.symm
    · obtain ⟨v, hv⟩ := Option.ne_none_iff_exists'.mp hsome
      have hslot := hl .lowerCThreshold
      rw [hv, name_fillMax10 h] at hslot
      exact hslot.1
  · rintro ⟨hagrees, hupper, hlower⟩ slot
    have hslot := (agrees_fillMax10_iff h slot).mpr (hagrees slot)
    split
    · next v hv =>
      rw [hv] at hslot
      refine ⟨?_, hslot⟩
      rw [name_fillMax10 h]
      cases slot with
      | upperNrThreshold | lowerNrThreshold => exact nomatch hv
      | upperNcThreshold => exact nomatch hupper.symm.trans hv
      | lowerCThreshold => exact hlower (hv ▸ Option.some_ne_none v)
      | upperCThreshold | lowerNcThreshold | hysteresis => rfl
    · next hv =>
      rw [hv] at hslot
      exact hslot

end Filled

theorem lands_fillMax10_iff (env : Max10Env V) (dir : List UInt8) (f : SensorFile)
    (t : MetricThreshold V) :
    (∃ t', fillMax10 env dir f.buffer t = some t' ∧ Lands (max10Value env dir) t') ↔
      NameEnds f ∧ EntryFits env dir t := by
  constructor
  · rintro ⟨t', h, hl⟩
    refine ⟨(nameIn_ne_none_iff f.buffer).mp fun hnone => ?_, (lands_iff_entryFits h).mp hl⟩
    rw [fillMax10, hnone] at h
    exact nomatch h
  · rintro ⟨hname, hfits⟩
    obtain ⟨name, hname⟩ := Option.ne_none_iff_exists'.mp ((nameIn_ne_none_iff f.buffer).mpr hname)
    have hsome : fillMax10 env dir f.buffer t ≠ none := by
      rw [fillMax10, hname]
      exact Option.some_ne_none _
    obtain ⟨t', h⟩ := Option.ne_none_iff_exists'.mp hsome
    exact ⟨t', h, (lands_iff_entryFits h).mpr hfits⟩

end Slots

section Calls

variable {entries : Option (List (MetricThreshold V))} {handle numThresholds : Bool}

theorem getBmcThresholdInfo_returns (env : BmcEnv V)
    (entries : Option (List (MetricThreshold V)))
    (h : BmcReady env handle numThresholds → entries = none) :
    ∃ out, getBmcThresholdInfo env handle numThresholds entries = some out := by
  simp only [getBmcThresholdInfo]
  split
  · exact ⟨_, rfl⟩
  split
  · exact ⟨_, rfl⟩
  split
  · exact ⟨_, rfl⟩
  split
  · exact ⟨_, rfl⟩
  split
  · exact ⟨_, rfl⟩
  next hgiven hlock hlib hload hread =>
    have hready : BmcReady env handle numThresholds := by
      rw [Bool.or_eq_true, not_or] at hgiven
      exact ⟨by simpa using hgiven.1, by simpa using hgiven.2, by simpa using hlock,
        by simpa using hlib, not_not.mp hload, not_not.mp hread⟩
    rw [h hready]
    exact ⟨_, rfl⟩

theorem getBmcThresholdInfo_ready {env : BmcEnv V} (h : BmcReady env handle numThresholds)
    (es : List (MetricThreshold V)) :
    getBmcThresholdInfo env handle numThresholds (some es) =
      (fillEntries (bmcStep env) env.numSensors 0 .ok es).map fun out =>
        ⟨lastError (lastError out.1 env.destroySensorValues) env.destroySDRs, none, out.2⟩ := by
  simp only [getBmcThresholdInfo, h.handle, h.numThresholds, h.lock, h.loadLib, h.loadSDRs,
    h.readSensorValues]
  cases fillEntries (bmcStep env) env.numSensors 0 .ok es <;> rfl

theorem getMax10ThresholdInfo_returns (env : Max10Env V)
    (entries : Option (List (MetricThreshold V)))
    (h : ∀ dirs, Max10Ready env handle numThresholds dirs → entries = none) :
    ∃ out, getMax10ThresholdInfo env handle numThresholds entries = some out := by
  simp only [getMax10ThresholdInfo]
  split
  · exact ⟨_, rfl⟩
  split
  · exact ⟨_, rfl⟩
  split
  · exact ⟨_, rfl⟩
  next hgiven htoken hmax =>
    cases hsensors : env.sensors with
    | none => exact ⟨_, rfl⟩
    | some dirs =>
      have hready : Max10Ready env handle numThresholds dirs := by
        rw [Bool.or_eq_true, not_or] at hgiven
        exact ⟨by simpa using hgiven.1, by simpa using hgiven.2, by simpa using htoken,
          not_not.mp hmax, hsensors⟩
      rw [h dirs hready]
      exact ⟨_, rfl⟩

theorem getMax10ThresholdInfo_ready {env : Max10Env V} {dirs : List (List UInt8)}
    (h : Max10Ready env handle numThresholds dirs) (es : List (MetricThreshold V)) :
    getMax10ThresholdInfo env handle numThresholds (some es) =
      (fillEntries (max10Step env dirs) dirs.length 0 .ok es).map fun out =>
        ⟨out.1, none, out.2⟩ := by
  simp only [getMax10ThresholdInfo, h.handle, h.numThresholds, h.token, h.max10, h.sensors]
  cases fillEntries (max10Step env dirs) dirs.length 0 .ok es <;> rfl

theorem bmcStep_reads (env : BmcEnv V) (n : Nat) :
    StepReads (bmcStep env) (fun _ => False)
      (fun x details => xfpgaBmcGetSDRDetails env x = (.ok, some details)) fillBmc n := by
  refine fun x _ => .inr ⟨id, ?_⟩
  rw [bmcStep]
  by_cases hfound : ∃ details, xfpgaBmcGetSDRDetails env x = (.ok, some details)
  · obtain ⟨details, hdetails⟩ := hfound
    refine .inl ⟨details, .ok, hdetails, fun details' h => ?_, ?_⟩
    · cases hdetails.symm.trans h
      rfl
    · rw [hdetails]
      rfl
  · have hnone : (xfpgaBmcGetSDRDetails env x).1 ≠ .ok := by
      rw [xfpgaBmcGetSDRDetails] at hfound ⊢
      split
      · next hget =>
        rw [if_pos hget] at hfound
        unfold bmcGetSDRDetails at hfound ⊢
        cases hvalue : env.values[x]? with
        | none => exact nofun
        | some s =>
          rw [hvalue] at hfound
          exact absurd ⟨_, rfl⟩ hfound
      · exact nofun
    exact .inr ⟨not_exists.mp hfound, _, if_pos hnone⟩

/-- What is read of a sensor of the MAX10: its directory and the file with its name. -/
def NameReads (env : Max10Env V) (dirs : List (List UInt8)) (i : Nat)
    (d : List UInt8 × SensorFile) : Prop :=
  dirs[i]? = some d.1 ∧ env.memory i = true ∧
    env.nameFile (printed (pathOf d.1 sensorSysfsName)) = some d.2

theorem NameReads.unique {env : Max10Env V} {dirs : List (List UInt8)} {i : Nat}
    {d d' : List UInt8 × SensorFile} (h : NameReads env dirs i d) (h' : NameReads env dirs i d') :
    d' = d := by
  obtain ⟨dir, f⟩ := d
  obtain ⟨dir', f'⟩ := d'
  obtain ⟨hdir, -, hfile⟩ := h
  obtain ⟨hdir', -, hfile'⟩ := h'
  cases hdir.symm.trans hdir'
  cases hfile.symm.trans hfile'
  rfl

theorem max10Step_reads (env : Max10Env V) (dirs : List (List UInt8)) :
    StepReads (max10Step env dirs)
      (fun i => ∃ d, NameReads env dirs i d ∧ 2 ^ 31 ≤ d.2.contents.length)
      (fun i d => NameReads env dirs i d ∧ ¬d.2.Failing)
      (fun d => fillMax10 env d.1 d.2.buffer) dirs.length := by
  intro i hi
  have hdir : dirs[i]? = some dirs[i] := List.getElem?_eq_getElem hi
  have hstep : max10Step env dirs i =
      (readSensorFile (env.memory i) (env.nameFile (printed (pathOf dirs[i] sensorSysfsName)))).map
        fun r => (r.1, if r.1 ≠ .ok then none else r.2.1.map (fillMax10 env dirs[i])) := by
    rw [max10Step, hdir]
    simp only [Option.bind_eq_bind, Option.bind_some]
    cases readSensorFile (env.memory i) (env.nameFile (printed (pathOf dirs[i] sensorSysfsName)))
      <;> rfl
  have hgood : ∀ f : SensorFile, NameReads env dirs i (dirs[i], f) → f.contents.length < 2 ^ 31 →
      ¬∃ d, NameReads env dirs i d ∧ 2 ^ 31 ≤ d.2.contents.length := by
    rintro f hreads hlt ⟨d, hd, hge⟩
    obtain rfl := hreads.unique hd
    exact Nat.not_le.mpr hlt hge
  rcases readSensorFile_cases (env.memory i)
    (env.nameFile (printed (pathOf dirs[i] sensorSysfsName))) with
    ⟨hnone, f, hmem, hfile, hge⟩ | ⟨f, hmem, hfile, hlt, hnot, hread⟩ | ⟨hfailing, res, hread⟩
  · refine .inl ⟨⟨(dirs[i], f), ⟨hdir, hmem, hfile⟩, hge⟩, ?_⟩
    rw [hstep, hnone, Option.map_none]
  · have hreads : NameReads env dirs i (dirs[i], f) := ⟨hdir, hmem, hfile⟩
    refine .inr ⟨hgood f hreads hlt, .inl ⟨(dirs[i], f), .ok, ⟨hreads, hnot⟩, ?_, ?_⟩⟩
    · exact fun d' hd' => hreads.unique hd'.1
    · rw [hstep, hread]
      rfl
  · have hno : ∀ d, NameReads env dirs i d → d.2.contents.length < 2 ^ 31 ∧ d.2.Failing := by
      rintro ⟨dir, f⟩ ⟨hdir', hmem, hfile⟩
      cases hdir.symm.trans hdir'
      exact hfailing f hmem hfile
    refine .inr ⟨?_, .inr ⟨fun d hd => hd.2 (hno d hd.1).2, res, ?_⟩⟩
    · rintro ⟨d, hd, hge⟩
      exact Nat.not_le.mpr (hno d hd).1 hge
    · rw [hstep, hread, Option.map_some, Option.map_none, ite_self]

end Calls

section Placement

theorem bmcPlaced_iff (env : BmcEnv V) (handle numThresholds : Bool)
    (entries : Option (List (MetricThreshold V))) :
    BmcPlaced env handle numThresholds entries ↔ BmcFits env handle numThresholds entries := by
  by_cases hready : BmcReady env handle numThresholds
  · cases entries with
    | none =>
      obtain ⟨out, hout⟩ := getBmcThresholdInfo_returns env none fun _ => rfl
      exact iff_of_true ⟨out, hout, fun h => absurd rfl h⟩ nofun
    | some es =>
      have hplaced := reads_placed_iff .ok es
        (fun details t => Lands (bmcValue details.thresholds) t)
        (bmcStep_reads env env.numSensors)
      have hreadable : ∀ x details, BmcReadable env handle numThresholds x details ↔
          x < env.numSensors ∧ xfpgaBmcGetSDRDetails env x = (.ok, some details) := fun x details =>
        ⟨fun h => ⟨h.lt, h.details⟩, fun h => ⟨hready, h.1, h.2⟩⟩
      rw [BmcPlaced, getBmcThresholdInfo_ready hready es, BmcFits]
      simp only [Option.some.injEq, forall_eq', hreadable]
      constructor
      · rintro ⟨out, hout, hall⟩ x details ⟨hx, hdetails⟩
        obtain ⟨r, hr, rfl⟩ := Option.map_eq_some_iff.mp hout
        obtain ⟨-, hfits⟩ := hplaced.mp ⟨r, hr, fun i hi d hd =>
          hall (Option.some_ne_none es) i d ⟨hi, hd⟩⟩ x hx
        obtain ⟨t, ht, hlands⟩ := hfits details hdetails
        obtain ⟨hname, hvalid⟩ := (lands_fillBmc_iff details t).mp hlands
        exact ⟨hname, t, ht, hvalid⟩
      · intro hfits
        obtain ⟨r, hr, hall⟩ := hplaced.mpr fun i hi => ⟨id, fun d hd => by
          obtain ⟨hname, t, ht, hvalid⟩ := hfits i d ⟨hi, hd⟩
          exact ⟨t, ht, (lands_fillBmc_iff d t).mpr ⟨hname, hvalid⟩⟩⟩
        refine ⟨_, by rw [hr, Option.map_some], fun _ x details h => ?_⟩
        exact hall x h.1 details h.2
  · obtain ⟨out, hout⟩ := getBmcThresholdInfo_returns env entries fun h =>
      absurd h hready
    exact iff_of_true ⟨out, hout, fun _ x details h => absurd h.ready hready⟩
      fun es _ x details h => absurd h.ready hready

theorem max10Placed_iff (env : Max10Env V) (handle numThresholds : Bool)
    (entries : Option (List (MetricThreshold V))) :
    Max10Placed env handle numThresholds entries ↔ Max10Fits env handle numThresholds entries := by
  by_cases hready : ∃ dirs, Max10Ready env handle numThresholds dirs
  · obtain ⟨dirs, hready⟩ := hready
    cases entries with
    | none =>
      obtain ⟨out, hout⟩ := getMax10ThresholdInfo_returns env none fun _ _ => rfl
      exact iff_of_true ⟨out, hout, fun h => absurd rfl h⟩ nofun
    | some es =>
      have hplaced := reads_placed_iff .ok es
        (fun d t => Lands (max10Value env d.1) t) (max10Step_reads env dirs)
      have hnamed : ∀ i dir f, Max10Named env handle numThresholds i dir f ↔
          NameReads env dirs i (dir, f) := by
        refine fun i dir f => ⟨fun h => ?_, fun h => ⟨⟨dirs, hready, h.1⟩, h.2.1, h.2.2⟩⟩
        obtain ⟨dirs', hready', hdir⟩ := h.ready
        cases hready.sensors.symm.trans hready'.sensors
        exact ⟨hdir, h.memory, h.nameFile⟩
      have hlt : ∀ {i d}, NameReads env dirs i d → i < dirs.length := fun h =>
        (List.getElem?_eq_some_iff.mp h.1).1
      rw [Max10Placed, getMax10ThresholdInfo_ready hready es, Max10Fits]
      simp only [Option.some.injEq, forall_eq', hnamed]
      constructor
      · rintro ⟨out, hout, hall⟩ i dir f hreads
        obtain ⟨r, hr, rfl⟩ := Option.map_eq_some_iff.mp hout
        obtain ⟨hgood, hfits⟩ := hplaced.mp ⟨r, hr, fun j _ d hd =>
          hall (Option.some_ne_none es) j d.1 d.2 hd.1 hd.2⟩ i (hlt hreads)
        refine ⟨Nat.not_le.mp fun hge => hgood ⟨(dir, f), hreads, hge⟩, fun hnot => ?_⟩
        obtain ⟨t, ht, hlands⟩ := hfits (dir, f) ⟨hreads, hnot⟩
        obtain ⟨hname, hentry⟩ := (lands_fillMax10_iff env dir f t).mp hlands
        exact ⟨hname, t, ht, hentry⟩
      · intro hfits
        obtain ⟨r, hr, hall⟩ := hplaced.mpr fun i _ => by
          refine ⟨?_, fun d hd => ?_⟩
          · rintro ⟨d, hd, hge⟩
            exact Nat.not_le.mpr (hfits i d.1 d.2 hd).1 hge
          · obtain ⟨hname, t, ht, hentry⟩ := (hfits i d.1 d.2 hd.1).2 hd.2
            exact ⟨t, ht, (lands_fillMax10_iff env d.1 d.2 t).mpr ⟨hname, hentry⟩⟩
        refine ⟨_, by rw [hr, Option.map_some], fun _ i dir f hreads hnot => ?_⟩
        exact hall i (hlt hreads) (dir, f) ⟨hreads, hnot⟩
  · have hnot := not_exists.mp hready
    obtain ⟨out, hout⟩ := getMax10ThresholdInfo_returns env entries fun dirs h =>
      absurd h (hnot dirs)
    have hno : ∀ i dir f, ¬Max10Named env handle numThresholds i dir f := fun i dir f h => by
      obtain ⟨dirs, hready, -⟩ := h.ready
      exact hnot dirs hready
    exact iff_of_true ⟨out, hout, fun _ i dir f h => absurd h (hno i dir f)⟩
      fun es _ i dir f h => absurd h (hno i dir f)

/-- The thresholds land in their own slots exactly if there is an entry for each readable sensor in
which no threshold is valid that does not exist, and on the MAX10 no sensor has the upper
non-critical one, whose name is written over. -/
theorem thresholds_placed_iff (bmc : BmcEnv V) (max10 : Max10Env V) (handle numThresholds : Bool)
    (entries : Option (List (MetricThreshold V))) :
    (BmcPlaced bmc handle numThresholds entries ↔ BmcFits bmc handle numThresholds entries) ∧
      (Max10Placed max10 handle numThresholds entries ↔
        Max10Fits max10 handle numThresholds entries) :=
  ⟨bmcPlaced_iff bmc handle numThresholds entries,
    max10Placed_iff max10 handle numThresholds entries⟩

def fpgaName : SensorFile := ⟨⟨8, [some ⟨ascii "FPGA", by decide⟩], by decide⟩, false⟩

def fpgaNameFile (path : List UInt8) : Option SensorFile :=
  if path = ascii "s/name" then some fpgaName else none

def warnEnv : Max10Env UInt64 where
  token := true
  max10 := some 1
  sensors := some [ascii "s"]
  nameFile := fpgaNameFile
  memory := fun _ => true
  readU64 := fun path => if path = ascii "s/high_warn" then some 80000 else none
  milli := id

def blankEntry : MetricThreshold UInt64 := ⟨[], fun _ => ⟨[], 0, 0⟩⟩

/-- The threshold has the name of another. -/
theorem thresholds_misplaced : ¬Max10Placed warnEnv true true (some [blankEntry]) := by
  rw [max10Placed_iff]
  intro hfits
  have hpath : printed (pathOf (ascii "s") sensorSysfsName) = ascii "s/name" := by decide +kernel
  have hfile : warnEnv.nameFile (printed (pathOf (ascii "s") sensorSysfsName)) = some fpgaName := by
    have hnames : warnEnv.nameFile = fpgaNameFile := rfl
    rw [hnames, hpath, fpgaNameFile, if_pos rfl]
  have hnamed : Max10Named warnEnv true true 0 (ascii "s") fpgaName :=
    ⟨⟨[ascii "s"], ⟨rfl, rfl, rfl, rfl, rfl⟩, rfl⟩, rfl, hfile⟩
  obtain ⟨-, hentry⟩ := hfits _ rfl 0 _ _ hnamed
  obtain ⟨-, t, -, -, hupper, -⟩ := hentry (by decide)
  exact absurd hupper (by decide +kernel)

end Placement

end OpaeLibs.PluginXfpga.ThresholdSlots
