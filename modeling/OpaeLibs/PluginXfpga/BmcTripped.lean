import OpaeLibs.PluginXfpga.BmcValues

namespace OpaeLibs.PluginXfpga.BmcTripped

open OpaeLibs.Lib.Heap OpaeLibs.Lib.Ownership
open OpaeLibs.OpaeC.Props OpaeLibs.PluginXfpga.BmcRecords OpaeLibs.PluginXfpga.BmcReading
  OpaeLibs.PluginXfpga.BmcValues

def bmcThresholdEventMask : UInt8 := 0x20 ||| 0x10 ||| 0x08 ||| 0x04 ||| 0x02 ||| 0x01

section Code

variable (mem : Nat → Bool) (sdr : List UInt8)

/-- `vals->contents[i].threshold_events._value & BMC_THRESHOLD_EVENT_MASK` -/
def indicators (contents : Option Nat) (i : Nat) : Prog Block UInt8 := do
  match (← read contents) with
  | .bytes readings _ =>
    match sensorReading readings i with
    | some reading => pure (reading.thresholdEvents &&& bmcThresholdEventMask)
    | none => fault
  | _ => fault

/-- `vals->values[i]->sdr` -/
def sdrOf (array : Option Nat) (i : Nat) : Prog Block (Option Nat) := do
  match (← read array) with
  | .array entries =>
    match (← read (entries[i]?.join)) with
    | .value v => pure v.sdr
    | _ => fault
  | _ => fault

/-- The first loop, over `n` readings from the reading `i` on. `num_tripd` is an `int`. -/
def countTripped (contents : Option Nat) : Nat → Nat → Nat → Prog Block Nat
  | 0, _, numTripd => pure numTripd
  | n + 1, i, numTripd => do
    let events ← indicators contents i
    if events = 0 then countTripped contents n (i + 1) numTripd
    else if 2 ^ 31 ≤ numTripd + 1 then fault
    else countTripped contents n (i + 1) (numTripd + 1)

/-- The second loop. A record is not written behind the end of the array. -/
def fillTripped (contents array : Option Nat) (rets : Nat) : Nat → Nat → Nat → Prog Block Unit
  | 0, _, _ => pure ()
  | n + 1, i, index => do
    let record ← sdrOf array i
    let events ← indicators contents i
    if events = 0 then fillTripped contents array rets n (i + 1) index
    else
      match record.bind (sdrContent sdr), (← read (some rets)) with
      | some content, .tripped records =>
        if index < records.length then do
          write (some rets) (.tripped (records.set index
            ⟨i, if sdrSensorIsPower content.sensorType then .power else .thermal, events⟩))
          fillTripped contents array rets n (i + 1) (index + 1)
        else fault
      | _, _ => fault

/-- The result, the number of tripped sensors and the array. -/
def bmcThresholdsTripped (values : Option Nat) (tripped numTripped : Bool) :
    Prog Block (FpgaResult × Option Nat × Stored) :=
  match values with
  | none => pure (.invalidParam, none, none)
  | some vals =>
    if !numTripped then pure (.invalidParam, none, none)
    else do
      match (← read (some vals)) with
      | .bmcValues numRecords contents array => do
        let numTripd ← countTripped contents numRecords 0 0
        if numTripd = 0 then pure (.ok, some 0, if tripped then some none else none)
        -- stored through `tripped`, which may be `NULL`
        else if !tripped then fault
        else do
          match (← malloc mem (.tripped (List.replicate numTripd ⟨0, .thermal, 0⟩))) with
          | none => pure (.noMemory, some numTripd, some none)
          | some rets => do
            fillTripped sdr contents array rets numRecords 0 0
            pure (.ok, some numTripd, some (some rets))
      | .sdrRec _ _ => pure (.invalidParam, none, none)
      | _ => fault

end Code

section Properties

/-- What a handle of `bmcReadSensorValues` is: the readings, and for each its entry, which has the
index and the type of its record. -/
def ValuesOf (s : Store Block) (sdr : List UInt8) (vals num : Nat) (readings : List UInt8) : Prop :=
  ∃ contents fromFile array entries,
    s.heap.get vals = some (.bmcValues num (some contents) (some array)) ∧
    s.heap.get contents = some (.bytes readings fromFile) ∧
    sensorReadingSize * num ≤ readings.length ∧ sensorReadingSize * num < 2 ^ 31 ∧
    s.heap.get array = some (.array entries) ∧
    ∀ k < num, ∃ e v, entries[k]? = some (some e) ∧ s.heap.get e = some (.value v) ∧
      v.sdr = some k ∧ Typed sdr k v

def eventsOf (readings : List UInt8) (i : Nat) : UInt8 :=
  (sensorReading readings i).elim 0 fun reading => reading.thresholdEvents &&& bmcThresholdEventMask

def trippedSensors (readings : List UInt8) (num : Nat) : List Nat :=
  (List.range num).filter fun i => eventsOf readings i ≠ 0

def Listed (sdr readings : List UInt8) (num : Nat) (records : List TrippedThresholds) : Prop :=
  records.map TrippedThresholds.sensorNumber = trippedSensors readings num ∧
    ∀ r ∈ records, r.whichThresholds = eventsOf readings r.sensorNumber ∧
      ∃ content, sdrContent sdr r.sensorNumber = some content ∧ r.sensorType = content.type

/-- The number is right, and so is the list if it is asked for and there is memory for it. -/
def Reported (mem : Nat → Bool) (sdr readings : List UInt8) (num : Nat) (tripped : Bool)
    (s : Store Block) (r : FpgaResult × Option Nat × Stored) (s' : Store Block) : Prop :=
  r.2.1 = some (trippedSensors readings num).length ∧
    if tripped then
      r.1 = .ok ∧ (trippedSensors readings num = [] ∧ r.2.2 = some none ∨
          ∃ p records, r.2.2 = some (some p) ∧ s'.heap.get p = some (.tripped records) ∧
            Listed sdr readings num records) ∨
        r.1 = .noMemory ∧ mem s.calls = false ∧ trippedSensors readings num ≠ []
    else r.1 = .ok

/-- No sensor is tripped if only the number is asked for; and of the others in a list, each is a
sensor of the temperature or of power. -/
def TypesFit (mem : Nat → Bool) (sdr readings : List UInt8) (num calls : Nat) (tripped : Bool) :
    Prop :=
  if tripped then mem calls = true → ∀ i ∈ trippedSensors readings num, ∀ content,
    sdrContent sdr i = some content → content.type ≠ .all
  else trippedSensors readings num = []

end Properties

section Loops

variable {mem : Nat → Bool} {sdr readings : List UInt8} {num c fromFile array rets : Nat}
  {entries : List (Option Nat)} {s : Store Block}

def trippedFrom (readings : List UInt8) (i n : Nat) : List Nat :=
  (List.range' i n).filter fun i => eventsOf readings i ≠ 0

def recordOf (sdr readings : List UInt8) (i : Nat) : TrippedThresholds :=
  ⟨i, if (sdrContent sdr i).any fun content => sdrSensorIsPower content.sensorType then .power
    else .thermal, eventsOf readings i⟩

theorem trippedFrom_succ (readings : List UInt8) (i n : Nat) :
    trippedFrom readings i (n + 1) = if eventsOf readings i = 0 then trippedFrom readings (i + 1) n
      else i :: trippedFrom readings (i + 1) n := by
  rw [trippedFrom, List.range'_succ, List.filter_cons]
  by_cases h : eventsOf readings i = 0
  · rw [if_pos h, if_neg (by simpa using h), trippedFrom]
  · rw [if_neg h, if_pos (by simpa using h), trippedFrom]

theorem trippedSensors_eq (readings : List UInt8) (num : Nat) :
    trippedSensors readings num = trippedFrom readings 0 num := by
  rw [trippedSensors, List.range_eq_range', trippedFrom]

structure Stands (sdr readings : List UInt8) (num c fromFile array : Nat)
    (entries : List (Option Nat)) (s : Store Block) : Prop where
  contents : s.heap.get c = some (.bytes readings fromFile)
  fits : sensorReadingSize * num ≤ readings.length
  array : s.heap.get array = some (.array entries)
  entry : ∀ k < num, ∃ e v, entries[k]? = some (some e) ∧ s.heap.get e = some (.value v) ∧
    v.sdr = some k ∧ Typed sdr k v

theorem Stands.kept {s' : Store Block}
    (h : Stands sdr readings num c fromFile array entries s)
    (hkept : ∀ {j : Nat} {b : Block}, s.heap.get j = some b → (∀ records, b ≠ .tripped records) →
      s'.heap.get j = some b) :
    Stands sdr readings num c fromFile array entries s' := by
  refine ⟨hkept h.contents nofun, h.fits, hkept h.array nofun, fun k hk => ?_⟩
  obtain ⟨e, v, he, hv, hrest⟩ := h.entry k hk
  exact ⟨e, v, he, hkept hv nofun, hrest⟩

theorem Stands.set {records records' : List TrippedThresholds} {s' : Store Block}
    (h : Stands sdr readings num c fromFile array entries s)
    (hrets : s.heap.get rets = some (.tripped records))
    (hget : ∀ j, s'.heap.get j = if j = rets then some (.tripped records') else s.heap.get j) :
    Stands sdr readings num c fromFile array entries s' := by
  refine h.kept fun hj hb => ?_
  rw [hget, if_neg ?_, hj]
  rintro rfl
  rw [hrets] at hj
  exact hb _ (Option.some.inj hj).symm

theorem indicators_runs {i : Nat} (h : Stands sdr readings num c fromFile array entries s)
    (hi : i < num) : Runs (indicators (some c) i) s fun b s' =>
      b = eventsOf readings i ∧ s' = s := by
  have hlen : sensorReadingSize * (i + 1) ≤ readings.length :=
    Nat.le_trans (Nat.mul_le_mul_left _ hi) h.fits
  obtain ⟨reading, hreading⟩ := sensorReading_eq_some hlen
  refine (runs_read_get h.contents).bind ?_
  rintro _ _ ⟨rfl, rfl⟩
  simp only [hreading]
  exact .pure ⟨by rw [eventsOf, hreading, Option.elim_some], rfl⟩

theorem sdrOf_runs {i : Nat} (h : Stands sdr readings num c fromFile array entries s)
    (hi : i < num) : Runs (sdrOf (some array) i) s fun b s' => b = some i ∧ s' = s := by
  obtain ⟨e, v, he, hv, hsdr, -⟩ := h.entry i hi
  refine (runs_read_get h.array).bind ?_
  rintro _ _ ⟨rfl, rfl⟩
  simp only [he, Option.join_some]
  refine (runs_read_get hv).bind ?_
  rintro _ _ ⟨rfl, rfl⟩
  exact .pure ⟨hsdr, rfl⟩

theorem countTripped_runs {i n numTripd : Nat}
    (h : Stands sdr readings num c fromFile array entries s) (hn : i + n ≤ num)
    (hlt : numTripd + n < 2 ^ 31) :
    Runs (countTripped (some c) n i numTripd) s fun b s' =>
      b = numTripd + (trippedFrom readings i n).length ∧ s' = s := by
  induction n generalizing i numTripd with
  | zero => exact .pure ⟨rfl, rfl⟩
  | succ n ih =>
    rw [countTripped, trippedFrom_succ]
    refine (indicators_runs h (by omega)).bind ?_
    rintro _ _ ⟨rfl, rfl⟩
    by_cases hzero : eventsOf readings i = 0
    · simp only [if_pos hzero]
      exact ih (by omega) (by omega)
    · have hsmall : ¬2 ^ 31 ≤ numTripd + 1 := by omega
      simp only [if_neg hzero, if_neg hsmall, List.length_cons]
      refine (ih (by omega) (by omega)).imp ?_
      rintro _ _ ⟨rfl, rfl⟩
      exact ⟨by omega, rfl⟩

theorem fillTripped_runs {i n : Nat} (done rest : List TrippedThresholds)
    (h : Stands sdr readings num c fromFile array entries s) (hn : i + n ≤ num)
    (hrets : s.heap.get rets = some (.tripped (done ++ rest)))
    (hrest : rest.length = (trippedFrom readings i n).length) :
    Runs (fillTripped sdr (some c) (some array) rets n i done.length) s fun _ s' =>
      s'.heap.get rets =
        some (.tripped (done ++ (trippedFrom readings i n).map (recordOf sdr readings))) := by
  induction n generalizing i s done rest with
  | zero =>
    obtain rfl := List.length_eq_zero_iff.mp hrest
    exact .pure hrets
  | succ n ih =>
    have hi : i < num := by omega
    rw [fillTripped]
    refine (sdrOf_runs h hi).bind ?_
    rintro _ _ ⟨rfl, rfl⟩
    refine (indicators_runs h hi).bind ?_
    rintro _ _ ⟨rfl, rfl⟩
    rw [trippedFrom_succ] at hrest ⊢
    by_cases hzero : eventsOf readings i = 0
    · simp only [if_pos hzero] at hrest ⊢
      exact ih _ _ h (by omega) hrets hrest
    · simp only [if_neg hzero, List.length_cons] at hrest ⊢
      obtain ⟨-, v, -, -, -, content, hcontent, -⟩ := h.entry i hi
      obtain ⟨r, rest, rfl⟩ := List.exists_cons_of_length_eq_add_one hrest
      refine (runs_read_get hrets).bind ?_
      rintro _ _ ⟨rfl, rfl⟩
      have hindex : done.length < (done ++ r :: rest).length := by simp
      simp only [Option.bind_some, hcontent, if_pos hindex]
      refine (runs_write_get hrets _).bind ?_
      rintro - s' ⟨-, -, hget⟩
      have hset : (done ++ r :: rest).set done.length
          ⟨i, if sdrSensorIsPower content.sensorType then .power else .thermal,
            eventsOf readings i⟩ = done ++ [recordOf sdr readings i] ++ rest := by
        rw [List.set_append_right _ _ (Nat.le_refl _), Nat.sub_self, List.set_cons_zero,
          List.append_assoc, List.singleton_append, recordOf, hcontent, Option.any_some]
      have hnext := ih (i := i + 1) (done ++ [recordOf sdr readings i]) rest
        (h.set hrets hget) (by omega) (by rw [hget, if_pos rfl, hset]) (by simpa using hrest)
      rw [List.length_append, List.length_singleton, List.append_assoc] at hnext
      exact hnext

end Loops

section Handles

variable {mem : Nat → Bool} {sdr : SdrRec} {file : Option BmcFile} {s : Store Block}

theorem bmcReadSensorValues_valuesOf (h : ReadFits mem s.calls sdr file true true) :
    Runs (bmcReadSensorValues mem sdr file true true) s
      (Ends (fun s' values => ∃ vals readings, values = some (some vals) ∧
        ValuesOf s' sdr.contents vals sdr.numRecords readings) true s.heap) := by
  cases hmagic : sdr.magic with
  | false =>
    rw [bmcReadSensorValues, hmagic]
    exact .pure (ends_error (by decide) (owns_self s))
  | true =>
    by_cases hreads : ∃ f, Reads mem s.calls sdr.token file f
    · obtain ⟨f, hreads⟩ := hreads
      obtain ⟨hlt, hfits⟩ := h f hmagic rfl rfl hreads
      refine (bmcReadSensorValues_reads_iff (c := ∀ i < sdr.numRecords,
        EntryBuilds mem sdr.contents (s.calls + 3 + 2 * i) i) hreads hmagic ?_).mpr ⟨hlt, ?_⟩
      · intro s₁ vals contents array buffer hready
        refine hready.builds_iff id fun hbuilds s₂ entries hkeep hentries _ hall => ?_
        refine iff_of_true ?_ hbuilds
        obtain ⟨hvals, hcontents⟩ := hready.kept hkeep
        refine ⟨vals, buffer, rfl, contents, f.fromFile, array, entries, hvals, hcontents,
          hready.num_le, hready.num_lt, hentries, fun k hk => ?_⟩
        obtain ⟨e, v, he, hv, hsdr, htyped, -⟩ := hall k hk
        exact ⟨e, v, he, hv, hsdr, htyped⟩
      · intro hok hsize hmem
        obtain ⟨harray, -, hentries⟩ := hfits hok hsize hmem
        exact ⟨harray, fun i hi => (entryFits_iff.mp (hentries i hi)).1⟩
    · exact bmcReadSensorValues_unread (not_exists.mp hreads) hmagic

end Handles

section Reports

variable {mem : Nat → Bool} {sdr readings : List UInt8} {vals num : Nat} {tripped : Bool}
  {s : Store Block}

theorem listed_recordOf_iff (readings : List UInt8)
    (htyped : ∀ k < num, ∃ content, sdrContent sdr k = some content) :
    Listed sdr readings num ((trippedSensors readings num).map (recordOf sdr readings)) ↔
      ∀ i ∈ trippedSensors readings num, ∀ content, sdrContent sdr i = some content →
        content.type ≠ .all := by
  have htype : ∀ {i : Nat} {content : SdrContent}, sdrContent sdr i = some content →
      ((recordOf sdr readings i).sensorType = content.type ↔ content.type ≠ .all) := by
    intro i content hcontent
    rw [recordOf, hcontent, Option.any_some, SdrContent.type]
    cases htemp : sdrSensorIsTemp content.sensorType with
    | true =>
      have hpower : sdrSensorIsPower content.sensorType = false := by
        rw [sdrSensorIsTemp, decide_eq_true_iff] at htemp
        rw [htemp]
        rfl
      simp [hpower]
    | false => cases sdrSensorIsPower content.sensorType <;> simp
  have hnumbers : ((trippedSensors readings num).map (recordOf sdr readings)).map
      TrippedThresholds.sensorNumber = trippedSensors readings num := by
    rw [List.map_map]
    exact List.map_id _
  rw [Listed, and_iff_right hnumbers]
  constructor
  · intro h i hi content hcontent
    obtain ⟨-, content', hcontent', heq⟩ := h _ (List.mem_map_of_mem hi)
    have hsome : sdrContent sdr i = some content' := hcontent'
    cases hcontent.symm.trans hsome
    exact (htype hcontent).mp heq
  · intro h r hr
    obtain ⟨i, hi, rfl⟩ := List.mem_map.mp hr
    obtain ⟨content, hcontent⟩ := htyped i (List.mem_range.mp (List.mem_filter.mp hi).1)
    exact ⟨rfl, content, hcontent, (htype hcontent).mpr (h i hi content hcontent)⟩

theorem bmcThresholdsTripped_runs_iff (h : ValuesOf s sdr vals num readings) :
    Runs (bmcThresholdsTripped mem sdr (some vals) tripped true) s
        (Reported mem sdr readings num tripped s) ↔
      TypesFit mem sdr readings num s.calls tripped := by
  obtain ⟨c, fromFile, array, entries, hvals, hcontents, hfits, hlt, harray, hentry⟩ := h
  have hstands : Stands sdr readings num c fromFile array entries s :=
    ⟨hcontents, hfits, harray, hentry⟩
  have hnum : 0 + num < 2 ^ 31 := by
    rw [sensorReadingSize] at hlt
    omega
  rw [bmcThresholdsTripped]
  refine (runs_read_get hvals).bind_iff ?_
  rintro _ _ ⟨rfl, rfl⟩
  refine (countTripped_runs hstands (by omega) hnum).bind_iff ?_
  rintro _ s ⟨rfl, rfl⟩
  rw [Nat.zero_add, ← trippedSensors_eq]
  by_cases hnil : trippedSensors readings num = []
  · simp only [hnil, List.length_nil, if_true]
    rw [runs_pure_iff, TypesFit, Reported, hnil]
    cases tripped with
    | false => exact iff_of_true ⟨rfl, rfl⟩ rfl
    | true => exact iff_of_true ⟨rfl, .inl ⟨rfl, .inl ⟨rfl, rfl⟩⟩⟩ fun _ _ h => by cases h
  · have hlen : (trippedSensors readings num).length ≠ 0 := fun hlen =>
      hnil (List.length_eq_zero_iff.mp hlen)
    simp only [if_neg hlen]
    cases tripped with
    | false => exact Faults.runs_iff (s := s) rfl hnil
    | true =>
      refine (runs_malloc_self mem _ s).bind_iff ?_
      rintro p s₁ ⟨hcalls, howns, hget⟩
      cases hmem : mem s.calls with
      | false =>
        rw [hmem, if_neg Bool.false_ne_true, Option.map_eq_none_iff] at hget
        subst hget
        rw [runs_pure_iff, TypesFit, Reported, hmem]
        exact iff_of_true ⟨rfl, .inr ⟨rfl, rfl, hnil⟩⟩ fun h => by cases h
      | true =>
        rw [hmem, if_pos rfl] at hget
        obtain ⟨rets, rfl, hrets⟩ := Option.map_eq_some_iff.mp hget
        have hstands₁ : Stands sdr readings num c fromFile array entries s₁ :=
          hstands.kept fun hj _ => (howns.older _ (Slots.lt_next hj)).trans hj
        have hfill := fillTripped_runs (i := 0) (n := num) [] _ hstands₁ (by omega) hrets
          (by rw [List.length_replicate, trippedSensors_eq])
        refine hfill.bind_iff ?_
        rintro - s₂ hrets₂
        rw [List.nil_append, ← trippedSensors_eq] at hrets₂
        have hlisted := listed_recordOf_iff readings fun k hk => by
          obtain ⟨-, v, -, -, -, content, hcontent, -⟩ := hentry k hk
          exact ⟨content, hcontent⟩
        rw [runs_pure_iff, TypesFit, if_pos rfl, forall_prop_of_true hmem, ← hlisted, Reported]
        constructor
        · rintro ⟨-, ⟨-, ⟨hnil', -⟩ | ⟨p, records, heq, hp, hall⟩⟩ | ⟨hres, -⟩⟩
          · exact absurd hnil' hnil
          · cases heq
            rw [hrets₂] at hp
            cases hp
            exact hall
          · cases hres
        · exact fun hall => ⟨rfl, .inl ⟨rfl, .inr ⟨rets, _, rfl, hrets₂, hall⟩⟩⟩

/-- The tripped sensors are reported exactly if there is a pointer for the list, or none of them,
and if each that is listed is a sensor of the temperature or of power. -/
theorem bmc_tripped_iff (h : ValuesOf s sdr vals num readings) :
    Runs (bmcThresholdsTripped mem sdr (some vals) tripped true) s
        (Reported mem sdr readings num tripped s) ↔
      TypesFit mem sdr readings num s.calls tripped :=
  bmcThresholdsTripped_runs_iff h

def recordOfType (sensorType : UInt8) : List UInt8 := (List.replicate 74 0).set 12 sensorType

def sampleRecords : List UInt8 := recordOfType 1 ++ recordOfType 2 ++ recordOfType 3

def sampleReadings : List UInt8 :=
  [0, 0, 0, 0, 0x10, 0, 0x01, 0, 0, 0, 0, 0x20, 0, 0, 0, 0, 0, 0, 0x30, 0, 0x08]

def sampleStore : Store Block :=
  ⟨⟨[some (.bmcValues 3 (some 1) (some 2)), some (.bytes sampleReadings 21),
    some (.array [some 3, some 5, some 7]),
    some (.value ⟨true, some 4, 0x10, 0, .thermal, some 0⟩), some (.name []),
    some (.value ⟨true, some 6, 0x20, 0, .power, some 1⟩), some (.name []),
    some (.value ⟨true, some 8, 0x30, 0, .power, some 2⟩), some (.name [])]⟩, 0⟩

theorem sdrContent_sampleRecords :
    sdrContent sampleRecords 0 = some ⟨0, 1, 0, 0⟩ ∧
      sdrContent sampleRecords 1 = some ⟨0, 2, 0, 0⟩ ∧
      sdrContent sampleRecords 2 = some ⟨0, 3, 0, 0⟩ := by
  decide +kernel

theorem valuesOf_sampleStore : ValuesOf sampleStore sampleRecords 0 3 sampleReadings := by
  refine ⟨1, 21, 2, [some 3, some 5, some 7], rfl, rfl, by decide, by decide, rfl, fun k hk => ?_⟩
  obtain ⟨h0, h1, h2⟩ := sdrContent_sampleRecords
  match k, hk with
  | 0, _ => exact ⟨3, _, rfl, rfl, rfl, _, h0, rfl⟩
  | 1, _ => exact ⟨5, _, rfl, rfl, rfl, _, h1, rfl⟩
  | 2, _ => exact ⟨7, _, rfl, rfl, rfl, _, h2, rfl⟩

theorem bmc_tripped_listed :
    Runs (bmcThresholdsTripped (fun _ => true) sampleRecords (some 0) true true) sampleStore
      (Reported (fun _ => true) sampleRecords sampleReadings 3 true sampleStore) := by
  have htripped : trippedSensors sampleReadings 3 = [0, 2] := by decide
  refine (bmc_tripped_iff valuesOf_sampleStore).mpr fun _ => ?_
  obtain ⟨h0, -, h2⟩ := sdrContent_sampleRecords
  rw [htripped]
  intro i hi content hcontent
  simp only [List.mem_cons, List.not_mem_nil, or_false] at hi
  rcases hi with rfl | rfl
  · obtain rfl := Option.some.inj (h0.symm.trans hcontent)
    decide
  · obtain rfl := Option.some.inj (h2.symm.trans hcontent)
    decide

/-- Asked for the number alone, the function stores the list through `NULL`. -/
theorem bmc_tripped_uncounted :
    ¬Runs (bmcThresholdsTripped (fun _ => true) sampleRecords (some 0) false true) sampleStore
      (Reported (fun _ => true) sampleRecords sampleReadings 3 false sampleStore) := by
  rw [bmcThresholdsTripped_runs_iff valuesOf_sampleStore]
  intro hnil
  have hsome : trippedSensors sampleReadings 3 ≠ [] := by decide
  exact hsome hnil

end Reports

end OpaeLibs.PluginXfpga.BmcTripped
