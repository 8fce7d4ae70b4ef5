import OpaeLibs.Lib.Runs
import OpaeLibs.OpaeC.PluginMgr

namespace OpaeLibs.OpaeC.PluginLoads

open OpaeLibs.OpaeC.PluginMgr OpaeLibs.Lib.Runs

/-- `gained` holds one adapter for each library that has a row flagged as loaded. -/
structure Marked (gained : List Adapter) (table : List PlatformData) : Prop where
  nodup : (gained.map Adapter.path).Nodup
  mem_iff : ∀ n, n ∈ gained.map Adapter.path ↔ alreadyLoaded n table

def Covered (gained : List Adapter) (table : List PlatformData) : Prop :=
  ∀ row ∈ table, row.detected → row.nativePlugin ∈ gained.map Adapter.path

theorem alreadyLoaded_mark (n : String) (done rest : List PlatformData) (row : PlatformData) :
    alreadyLoaded n (done ++ { row with loaded := true } :: rest) ↔
      alreadyLoaded n (done ++ row :: rest) ∨ n = row.nativePlugin := by
  simp only [alreadyLoaded, List.any_append, List.any_cons, Bool.or_eq_true, Bool.and_eq_true,
    beq_iff_eq]
  tauto

theorem Covered.mono {gained more : List Adapter} {table : List PlatformData}
    (h : Covered gained table) : Covered (gained ++ more) table := by
  intro row hrow hd
  rw [List.map_append]
  exact List.mem_append_left _ (h row hrow hd)

theorem Covered.concat {gained : List Adapter} {done : List PlatformData} {row : PlatformData}
    (h : Covered gained done) (hrow : row.detected → row.nativePlugin ∈ gained.map Adapter.path) :
    Covered gained (done ++ [row]) := by
  intro r hr hd
  rcases List.mem_append.mp hr with hr | hr
  · exact h r hr hd
  · rw [List.mem_singleton] at hr
    subst hr
    exact hrow hd

theorem Marked.register {gained : List Adapter} {done rest : List PlatformData}
    {row : PlatformData} (h : Marked gained (done ++ row :: rest)) {a : Adapter}
    (ha : a.path = row.nativePlugin)
    (hnew : ¬ alreadyLoaded row.nativePlugin (done ++ row :: rest)) :
    Marked (gained ++ [a]) (done ++ { row with loaded := true } :: rest) := by
  constructor
  · rw [← h.mem_iff] at hnew
    rw [List.map_append, List.map_singleton, ha, List.nodup_append_comm]
    exact List.nodup_cons.mpr ⟨hnew, h.nodup⟩
  · intro n
    rw [List.map_append, List.map_singleton, ha, List.mem_append, List.mem_singleton,
      alreadyLoaded_mark, h.mem_iff]

/-- The loop keeps the marks, only adds adapters, and covers every detected row unless it counts
an error. -/
theorem loadRows_marked (load : Nat → String → String → LoadOutcome) (before : List Adapter)
    {done rest : List PlatformData} {gained : List Adapter} {platformsDetected errors : Nat}
    (hmark : Marked gained (done ++ rest)) (hcover : errors = 0 → Covered gained done) :
    ∃ more, (loadRows load done rest (before ++ gained) platformsDetected errors).adapterList =
        before ++ more ∧
      Marked more (loadRows load done rest (before ++ gained) platformsDetected errors).table ∧
      ((loadRows load done rest (before ++ gained) platformsDetected errors).errors = 0 →
        Covered more
          (loadRows load done rest (before ++ gained) platformsDetected errors).table) := by
  induction rest generalizing done gained platformsDetected errors with
  | nil =>
    rw [List.append_nil] at hmark
    exact ⟨gained, rfl, hmark, hcover⟩
  | cons row rest ih =>
    have hnext : Marked gained ((done ++ [row]) ++ rest) := by simpa using hmark
    rw [loadRows]
    by_cases hd : row.detected = true
    · rw [if_neg (by simp [hd])]
      by_cases hl : alreadyLoaded row.nativePlugin (done ++ row :: rest) = true
      · rw [if_pos hl]
        apply ih hnext
        intro he
        exact (hcover he).concat fun _ => (hmark.mem_iff _).mpr hl
      · rw [if_neg hl]
        cases load done.length row.nativePlugin "" with
        | notLoaded => exact ⟨gained, rfl, hmark, fun he => absurd he (Nat.succ_ne_zero _)⟩
        | notConfigured => exact ih hnext fun he => absurd he (Nat.succ_ne_zero _)
        | configured initializeFn finalizeFn =>
          have hreg := hmark.register (a := ⟨row.nativePlugin, initializeFn, finalizeFn, 0⟩) rfl hl
          dsimp only
          rw [opaePluginMgrRegisterAdapter, List.append_assoc]
          apply ih
          · simpa using hreg
          · intro he
            exact (hcover he).mono.concat fun _ => by simp
    · rw [if_pos (by simp [hd])]
      apply ih hnext
      intro he
      exact (hcover he).concat fun h => absurd h hd

theorem Marked.detectPlatform {gained : List Adapter} {table : List PlatformData}
    (h : Marked gained table) (vendor device : UInt16) :
    Marked gained (opaePluginMgrDetectPlatform vendor device table) := by
  refine ⟨h.nodup, fun n => (h.mem_iff n).trans ?_⟩
  rw [opaePluginMgrDetectPlatform, alreadyLoaded, alreadyLoaded, List.any_map, Bool.coe_iff_coe]
  congr 1
  funext row
  rw [Function.comp_apply]
  split <;> rfl

theorem Marked.detectPlatforms {gained : List Adapter} {table : List PlatformData}
    (h : Marked gained table) (scan : Scan) :
    Marked gained (opaePluginMgrDetectPlatforms scan table).2 := by
  rw [opaePluginMgrDetectPlatforms]
  induction scan.devices generalizing table with
  | nil => exact h
  | cons d devices ih => exact ih (h.detectPlatform _ _)

section Flags

/-- The scan comes across a device of the row's platform. -/
def seen (scan : Scan) (row : PlatformData) : Bool :=
  scan.devices.any fun d => row.vendorId == d.1.toUInt16 && row.deviceId == d.2.toUInt16

/-- A row as the scan leaves it. -/
def mark (scan : Scan) (row : PlatformData) : PlatformData :=
  { row with detected := row.detected || seen scan row }

theorem mark_cons (d : UInt32 × UInt32) (devices : List (UInt32 × UInt32)) (aborted : Bool)
    (row : PlatformData) :
    mark ⟨d :: devices, aborted⟩ row = mark ⟨devices, aborted⟩
      (if row.vendorId = d.1.toUInt16 ∧ row.deviceId = d.2.toUInt16 then
        { row with detected := true } else row) := by
  split
  case isTrue hd => simp [mark, seen, hd]
  case isFalse hd =>
    have hno : (row.vendorId == d.1.toUInt16 && row.deviceId == d.2.toUInt16) = false := by
      simpa using hd
    rw [mark, mark, seen, seen, List.any_cons, hno, Bool.false_or]

theorem detectPlatforms_eq (scan : Scan) (table : List PlatformData) :
    (opaePluginMgrDetectPlatforms scan table).2 = table.map (mark scan) := by
  obtain ⟨devices, aborted⟩ := scan
  rw [opaePluginMgrDetectPlatforms]
  dsimp only
  induction devices generalizing table with
  | nil =>
    have hid : mark ⟨[], aborted⟩ = id := by
      funext row
      simp [mark, seen]
    rw [hid, List.map_id, List.foldl_nil]
  | cons d devices ih =>
    rw [List.foldl_cons, ih, opaePluginMgrDetectPlatform, List.map_map]
    apply List.map_congr_left
    intro row _
    exact (mark_cons d devices aborted row).symm

/-- The row as it was before anything was loaded for it. -/
def unload (row : PlatformData) : PlatformData := { row with loaded := false }

theorem loadRows_unload {load : Nat → String → String → LoadOutcome} {done rest : List PlatformData}
    {adapterList : List Adapter} {platformsDetected errors : Nat} :
    (loadRows load done rest adapterList platformsDetected errors).table.map unload =
      (done ++ rest).map unload := by
  fun_induction loadRows load done rest adapterList platformsDetected errors with
  | case1 => simp
  | case2 _ _ _ _ _ _ _ ih => simpa using ih
  | case3 _ _ _ _ _ _ _ _ ih => simpa using ih
  | case4 => rfl
  | case5 _ _ _ _ _ _ _ _ _ ih => simpa using ih
  | case6 _ _ _ _ _ _ _ _ _ _ _ ih => simpa [unload] using ih

end Flags

theorem marked_nil {table : List PlatformData} (h : ∀ row ∈ table, row.loaded = false) :
    Marked [] table := by
  refine ⟨List.nodup_nil, fun n => ?_⟩
  rw [alreadyLoaded, List.any_eq_true]
  constructor
  · exact fun hn => absurd hn List.not_mem_nil
  · rintro ⟨row, hrow, hl⟩
    rw [h row hrow, Bool.and_false] at hl
    exact absurd hl Bool.false_ne_true

section

variable (load : Nat → String → String → LoadOutcome) {scan : Scan} (m : Manager)

theorem loadDflt_of_aborted (h : scan.aborted = true) :
    opaePluginMgrLoadDfltPlugins load scan m =
      (1, 0, { m with
        platformDataTable := (opaePluginMgrDetectPlatforms scan m.platformDataTable).2 }) := by
  simp [opaePluginMgrLoadDfltPlugins, opaePluginMgrDetectPlatforms, h]

theorem loadDflt_of_scanned (h : scan.aborted = false) :
    opaePluginMgrLoadDfltPlugins load scan m =
      let l := loadRows load [] (opaePluginMgrDetectPlatforms scan m.platformDataTable).2
        m.adapterList 0 0
      (l.errors, l.platformsDetected,
        { m with platformDataTable := l.table, adapterList := l.adapterList }) := by
  simp [opaePluginMgrLoadDfltPlugins, opaePluginMgrDetectPlatforms, h]

end

section Runs

variable (before : List Adapter)

/-- What has been loaded on top of the adapters `before`. -/
def Loads (m : Manager) : Prop :=
  ∃ gained, m.adapterList = before ++ gained ∧ Marked gained m.platformDataTable

variable {before}

theorem loadDflt_spec {m : Manager} (h : Loads before m) (scan : Scan)
    (load : Nat → String → String → LoadOutcome) :
    ∃ gained, (opaePluginMgrLoadDfltPlugins load scan m).2.2.adapterList = before ++ gained ∧
      Marked gained (opaePluginMgrLoadDfltPlugins load scan m).2.2.platformDataTable ∧
      ((opaePluginMgrLoadDfltPlugins load scan m).1 = 0 →
        Covered gained (opaePluginMgrLoadDfltPlugins load scan m).2.2.platformDataTable) := by
  obtain ⟨gained, hlist, hmark⟩ := h
  have hscan := hmark.detectPlatforms scan
  cases ha : scan.aborted with
  | true =>
    rw [loadDflt_of_aborted load m ha]
    exact ⟨gained, hlist, hscan, fun h => absurd h Nat.one_ne_zero⟩
  | false =>
    rw [loadDflt_of_scanned load m ha]
    dsimp only
    rw [hlist]
    apply loadRows_marked
    · exact hscan
    · intro _ row hrow
      exact absurd hrow List.not_mem_nil

/-- One call of `opae_plugin_mgr_load_dflt_plugins`, with what it finds and what loading does. -/
def loadStep (m : Manager) (c : Scan × (Nat → String → String → LoadOutcome)) : Manager :=
  (opaePluginMgrLoadDfltPlugins c.2 c.1 m).2.2

def Loaded (m : Manager) (c : Scan × (Nat → String → String → LoadOutcome)) : Prop :=
  (opaePluginMgrLoadDfltPlugins c.2 c.1 m).1 = 0 →
    ∀ row ∈ (loadStep m c).platformDataTable, row.detected →
      ∃ a ∈ (loadStep m c).adapterList, a.path = row.nativePlugin

/-- A call flags the rows of the platforms that its scan comes across. Nothing else changes in the
table but what is loaded. -/
def Flagged (m : Manager) (c : Scan × (Nat → String → String → LoadOutcome)) : Prop :=
  (loadStep m c).platformDataTable.map unload =
    (m.platformDataTable.map (mark c.1)).map unload

theorem flagged_loadStep (m : Manager) (c : Scan × (Nat → String → String → LoadOutcome)) :
    Flagged m c := by
  rw [Flagged, loadStep]
  cases ha : c.1.aborted with
  | true => rw [loadDflt_of_aborted c.2 m ha, detectPlatforms_eq]
  | false =>
    rw [loadDflt_of_scanned c.2 m ha]
    dsimp only
    rw [loadRows_unload, List.nil_append, detectPlatforms_eq]

theorem loads_loadStep (m : Manager) (c : Scan × (Nat → String → String → LoadOutcome))
    (h : Loads before m) : Loads before (loadStep m c) := by
  obtain ⟨gained, hlist, hmark, -⟩ := loadDflt_spec h c.1 c.2
  exact ⟨gained, hlist, hmark⟩

theorem loaded_of_loads (m : Manager) (c : Scan × (Nat → String → String → LoadOutcome))
    (h : Loads before m) : Loaded m c := by
  obtain ⟨gained, hlist, -, hcover⟩ := loadDflt_spec h c.1 c.2
  intro he row hrow hd
  obtain ⟨a, ha, hpath⟩ := List.mem_map.mp (hcover he row hrow hd)
  refine ⟨a, ?_, hpath⟩
  rw [loadStep, hlist]
  exact List.mem_append_right _ ha

end Runs

theorem run_loads_each_library_once (table : List PlatformData) (before : List Adapter)
    (calls : List (Scan × (Nat → String → String → LoadOutcome))) :
    (∃ gained, (run loadStep { start table with adapterList := before } calls).adapterList =
        before ++ gained ∧ (gained.map Adapter.path).Nodup) ∧
      Along loadStep (fun m c => Flagged m c ∧ Loaded m c)
        { start table with adapterList := before } calls := by
  have hstart : Loads before { start table with adapterList := before } :=
    ⟨[], (List.append_nil before).symm, marked_nil (by simp [start, clearFlags])⟩
  have hstep : ∀ m c, Loads before m → True → Loads before (loadStep m c) :=
    fun m c h _ => loads_loadStep m c h
  have hfree : Along loadStep (fun _ _ => True) { start table with adapterList := before } calls :=
    along_of_forall loadStep (fun _ _ _ => trivial) _
  constructor
  · obtain ⟨gained, hlist, hmark⟩ := run_invariant hstep hstart hfree
    exact ⟨gained, hlist, hmark.nodup⟩
  · exact along_of_invariant hstep
      (fun m c h _ => ⟨flagged_loadStep m c, loaded_of_loads m c h⟩) hstart hfree

end OpaeLibs.OpaeC.PluginLoads
