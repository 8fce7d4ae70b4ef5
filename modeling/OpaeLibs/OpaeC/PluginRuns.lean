import OpaeLibs.OpaeC.PluginLoads

namespace OpaeLibs.OpaeC.PluginRuns

open OpaeLibs.OpaeC.PluginMgr OpaeLibs.OpaeC.PluginLoads OpaeLibs.Lib.Runs

structure Emptied (m : Manager) : Prop where
  adapterList : m.adapterList = []
  configList : m.configList = []
  flags : clearFlags m.platformDataTable = m.platformDataTable

/-- What a call is to leave behind. -/
structure Keeps (m : Manager) (call : Call) : Prop where
  once : ∀ c ∈ (step m call).configList, c.enabled →
    ((step m call).adapterList.map Adapter.path).count c.plugin ≤ 1
  startedOnce : ∀ a ∈ (step m call).adapterList, a.initializeCalls ≤ 1
  emptied : ∀ dlclose, call = .finalizeAll dlclose → Emptied (step m call)
  retried : ∀ o, call = .init o → (opaePluginMgrInitialize o m).1 ≠ 0 →
    ∀ o', opaePluginMgrInitialize o' (step m call) =
      opaePluginMgrInitialize o' (start (step m call).platformDataTable)

def works : LoadOutcome → Bool
  | .notLoaded => false
  | .notConfigured => false
  | .configured none _ => true
  | .configured (some initializeFn) _ => initializeFn 0 == 0

/-- The enabled entries name different libraries, and all of them work. -/
structure CfgWorks (o : Outcomes) : Prop where
  distinct : ((o.parsed.filter PluginCfg.enabled).map PluginCfg.plugin).Nodup
  works : ∀ i c, o.parsed[i]? = some c → c.enabled → works (o.load i c.plugin c.cfg)

/-- The row is the first one seen that names its library. -/
structure Due (scan : Scan) (table : List PlatformData) (i : Nat) (row : PlatformData) : Prop where
  get : table[i]? = some row
  seen : seen scan row
  first : ∀ j < i, ∀ r, table[j]? = some r → PluginLoads.seen scan r →
    r.nativePlugin ≠ row.nativePlugin

/-- The scan meets nothing the table lists, or it completes and every library it asks for
works. -/
def DfltWorks (table : List PlatformData) (o : Outcomes) : Prop :=
  (∀ row ∈ table, seen o.scan row = false) ∨
    o.scan.aborted = false ∧ ∀ i row, Due o.scan table i row → works (o.load i row.nativePlugin "")

def Guard (m : Manager) : Call → Prop
  | .init o => m.initialized ∨
      if o.parsed = [] then DfltWorks m.platformDataTable o else CfgWorks o
  | .finalizeAll _ => True

theorem works_configured (path : String) (initializeFn : Option (Nat → Int))
    (finalizeFn : Option Int) :
    works (.configured initializeFn finalizeFn) ↔
      Adapter.initializeFails ⟨path, initializeFn, finalizeFn, 0⟩ = false := by
  cases initializeFn with
  | none => simp [works, Adapter.initializeFails]
  | some f => simp [works, Adapter.initializeFails]

/-- No errors so far, and no adapter that will fail to start. -/
def Fine (errors : Nat) (adapterList : List Adapter) : Prop :=
  errors = 0 ∧ ∀ a ∈ adapterList, a.initializeFails = false

theorem fine_register (errors : Nat) (adapterList : List Adapter) (path : String)
    (initializeFn : Option (Nat → Int)) (finalizeFn : Option Int) :
    Fine errors (opaePluginMgrRegisterAdapter adapterList ⟨path, initializeFn, finalizeFn, 0⟩) ↔
      Fine errors adapterList ∧ works (.configured initializeFn finalizeFn) := by
  simp only [Fine, opaePluginMgrRegisterAdapter, List.forall_mem_append, List.forall_mem_singleton,
    works_configured path, and_assoc]

section Configured

variable (load : Nat → String → String → LoadOutcome)

theorem loadCfgs_cons (i : Nat) (cfg : PluginCfg) (rest : List PluginCfg)
    (found : Nat × List Adapter) :
    loadCfgs load i (cfg :: rest) found =
      loadCfgs load (i + 1) rest (found.1 + (opaePluginMgrLoadCfgPlugin load i cfg found.2).1,
        (opaePluginMgrLoadCfgPlugin load i cfg found.2).2) := rfl

theorem loadCfgPlugin_fine_iff (i errors : Nat) (cfg : PluginCfg) (adapterList : List Adapter) :
    Fine (errors + (opaePluginMgrLoadCfgPlugin load i cfg adapterList).1)
        (opaePluginMgrLoadCfgPlugin load i cfg adapterList).2 ↔
      Fine errors adapterList ∧ (cfg.enabled → works (load i cfg.plugin cfg.cfg)) := by
  rw [opaePluginMgrLoadCfgPlugin]
  by_cases he : cfg.enabled = true
  · rw [if_pos he]
    cases load i cfg.plugin cfg.cfg with
    | notLoaded => simp [Fine, works, he]
    | notConfigured => simp [Fine, works, he]
    | configured initializeFn finalizeFn =>
      rw [Nat.add_zero, fine_register]
      exact and_congr_right fun _ => ⟨fun h _ => h, fun h => h he⟩
  · rw [if_neg he]
    exact (and_iff_left fun h => absurd h he).symm

theorem loadCfgs_fine_iff (i : Nat) (rest : List PluginCfg) (found : Nat × List Adapter) :
    Fine (loadCfgs load i rest found).1 (loadCfgs load i rest found).2 ↔
      Fine found.1 found.2 ∧
        ∀ j c, rest[j]? = some c → c.enabled → works (load (i + j) c.plugin c.cfg) := by
  induction rest generalizing i found with
  | nil => simp [loadCfgs]
  | cons cfg rest ih =>
    have hsplit := Nat.and_forall_add_one (p := fun j => ∀ c, (cfg :: rest)[j]? = some c →
      c.enabled → works (load (i + j) c.plugin c.cfg))
    rw [loadCfgs_cons, ih, loadCfgPlugin_fine_iff, and_assoc, ← hsplit]
    simp [Nat.add_assoc, Nat.add_comm 1]

theorem errors_of_loadCfgs (i : Nat) (rest : List PluginCfg) (found : Nat × List Adapter)
    (h : (loadCfgs load i rest found).1 = 0) : found.1 = 0 := by
  induction rest generalizing i found with
  | nil => exact h
  | cons cfg rest ih =>
    rw [loadCfgs_cons] at h
    exact (Nat.add_eq_zero_iff.mp (ih _ _ h)).1

theorem loadCfgPlugin_paths (i : Nat) (cfg : PluginCfg) (adapterList : List Adapter)
    (h : (opaePluginMgrLoadCfgPlugin load i cfg adapterList).1 = 0) :
    (opaePluginMgrLoadCfgPlugin load i cfg adapterList).2.map Adapter.path =
      adapterList.map Adapter.path ++ ([cfg].filter PluginCfg.enabled).map PluginCfg.plugin := by
  rw [opaePluginMgrLoadCfgPlugin] at h ⊢
  by_cases he : cfg.enabled = true
  · rw [if_pos he] at h ⊢
    cases hload : load i cfg.plugin cfg.cfg with
    | notLoaded => simp [hload] at h
    | notConfigured => simp [hload] at h
    | configured initializeFn finalizeFn => simp [opaePluginMgrRegisterAdapter, he]
  · rw [if_neg he]
    simp [he]

theorem loadCfgs_paths (i : Nat) (rest : List PluginCfg) (found : Nat × List Adapter)
    (h : (loadCfgs load i rest found).1 = 0) :
    (loadCfgs load i rest found).2.map Adapter.path =
      found.2.map Adapter.path ++ (rest.filter PluginCfg.enabled).map PluginCfg.plugin := by
  induction rest generalizing i found with
  | nil => simp [loadCfgs]
  | cons cfg rest ih =>
    rw [loadCfgs_cons] at h ⊢
    have hsum := errors_of_loadCfgs load _ rest _ h
    have hzero := (Nat.add_eq_zero_iff.mp hsum).2
    rw [ih _ _ h, loadCfgPlugin_paths load i cfg found.2 hzero, List.append_assoc,
      ← List.map_append, ← List.filter_append, List.singleton_append]

end Configured

section Native

/-- Row `i` of `rest` is the first detected one with its library, which is none of `names`. -/
structure DueIn (names : List String) (rest : List PlatformData) (i : Nat) (row : PlatformData) :
    Prop where
  get : rest[i]? = some row
  detected : row.detected
  notMem : row.nativePlugin ∉ names
  first : ∀ j < i, ∀ r, rest[j]? = some r → r.detected → r.nativePlugin ≠ row.nativePlugin

variable {names : List String} {rest : List PlatformData} {row r : PlatformData}

theorem dueIn_zero :
    DueIn names (row :: rest) 0 r ↔ row = r ∧ row.detected ∧ row.nativePlugin ∉ names := by
  constructor
  · rintro ⟨hget, hd, hnot, -⟩
    obtain rfl := Option.some.inj hget
    exact ⟨rfl, hd, hnot⟩
  · rintro ⟨rfl, hd, hnot⟩
    exact ⟨rfl, hd, hnot, fun _ hj => absurd hj (Nat.not_lt_zero _)⟩

theorem dueIn_succ {i : Nat} :
    DueIn names (row :: rest) (i + 1) r ↔
      DueIn names rest i r ∧ (row.detected → row.nativePlugin ≠ r.nativePlugin) := by
  constructor
  · rintro ⟨hget, hd, hnot, hfirst⟩
    refine ⟨⟨hget, hd, hnot, fun j hj r' hr' => ?_⟩, hfirst 0 (Nat.succ_pos i) row rfl⟩
    exact hfirst (j + 1) (Nat.succ_lt_succ hj) r' hr'
  · rintro ⟨⟨hget, hd, hnot, hfirst⟩, hrow⟩
    refine ⟨hget, hd, hnot, fun j hj r' hr' hd' => ?_⟩
    cases j with
    | zero =>
      obtain rfl := Option.some.inj hr'
      exact hrow hd'
    | succ j => exact hfirst j (Nat.lt_of_succ_lt_succ hj) r' hr' hd'

theorem dueIn_concat {i : Nat} {n : String} :
    DueIn (names ++ [n]) rest i r ↔ DueIn names rest i r ∧ n ≠ r.nativePlugin := by
  constructor
  · rintro ⟨hget, hd, hnot, hfirst⟩
    rw [List.mem_append, List.mem_singleton, not_or] at hnot
    exact ⟨⟨hget, hd, hnot.1, hfirst⟩, Ne.symm hnot.2⟩
  · rintro ⟨⟨hget, hd, hnot, hfirst⟩, hn⟩
    refine ⟨hget, hd, ?_, hfirst⟩
    rw [List.mem_append, List.mem_singleton, not_or]
    exact ⟨hnot, Ne.symm hn⟩

/-- Every library that is due works; `k` rows come before `rest`. -/
def AllWork (load : Nat → String → String → LoadOutcome) (k : Nat) (names : List String)
    (rest : List PlatformData) : Prop :=
  ∀ i r, DueIn names rest i r → works (load (k + i) r.nativePlugin "")

variable (load : Nat → String → String → LoadOutcome) (k : Nat)

theorem allWork_nil : AllWork load k names [] := by
  rintro i r ⟨hget, -, -, -⟩
  exact absurd hget nofun

theorem allWork_cons :
    AllWork load k names (row :: rest) ↔
      (row.detected → row.nativePlugin ∉ names → works (load k row.nativePlugin "")) ∧
        ∀ i r, DueIn names rest i r → (row.detected → row.nativePlugin ≠ r.nativePlugin) →
          works (load (k + 1 + i) r.nativePlugin "") := by
  have hsplit := Nat.and_forall_add_one (p := fun i => ∀ r, DueIn names (row :: rest) i r →
    works (load (k + i) r.nativePlugin ""))
  rw [AllWork, ← hsplit]
  simp only [dueIn_zero, dueIn_succ, and_imp, forall_eq', Nat.add_zero, Nat.add_assoc,
    Nat.add_comm 1]

theorem allWork_undetected (h : row.detected = false) :
    AllWork load k names (row :: rest) ↔ AllWork load (k + 1) names rest := by
  rw [allWork_cons]
  simp [AllWork, h]

theorem allWork_known (h : row.nativePlugin ∈ names) :
    AllWork load k names (row :: rest) ↔ AllWork load (k + 1) names rest := by
  rw [allWork_cons, and_iff_right fun _ hnot => absurd h hnot]
  apply forall₃_congr
  intro i r hdue
  have hne : row.nativePlugin ≠ r.nativePlugin := fun hn => hdue.notMem (hn ▸ h)
  exact forall_prop_of_true fun _ => hne

theorem allWork_new (hd : row.detected) (hnot : row.nativePlugin ∉ names) :
    AllWork load k names (row :: rest) ↔ works (load k row.nativePlugin "") ∧
      AllWork load (k + 1) (names ++ [row.nativePlugin]) rest := by
  rw [allWork_cons]
  simp only [AllWork, dueIn_concat, hd, hnot, forall_const, not_false_eq_true, and_imp]

theorem errors_of_loadRows {done : List PlatformData} {adapterList : List Adapter}
    {platformsDetected errors : Nat}
    (h : (loadRows load done rest adapterList platformsDetected errors).errors = 0) :
    errors = 0 := by
  fun_induction loadRows load done rest adapterList platformsDetected errors with
  | case1 => exact h
  | case2 _ _ _ _ _ _ _ ih => exact ih h
  | case3 _ _ _ _ _ _ _ _ ih => exact ih h
  | case4 => exact absurd h (Nat.succ_ne_zero _)
  | case5 _ _ _ _ _ _ _ _ _ ih => exact absurd (ih h) (Nat.succ_ne_zero _)
  | case6 _ _ _ _ _ _ _ _ _ _ _ ih => exact ih h

/-- The loop succeeds, and leaves nothing that will fail to start, exactly if every library
it has to load works. -/
theorem loadRows_fine_iff {done : List PlatformData} {adapterList : List Adapter}
    {platformsDetected errors : Nat} (hmark : Marked adapterList (done ++ rest)) :
    Fine (loadRows load done rest adapterList platformsDetected errors).errors
        (loadRows load done rest adapterList platformsDetected errors).adapterList ↔
      Fine errors adapterList ∧
        AllWork load done.length (adapterList.map Adapter.path) rest := by
  have hfail : ∀ (l : List Adapter) pd done' rest',
      ¬ Fine (loadRows load done' rest' l pd (errors + 1)).errors
        (loadRows load done' rest' l pd (errors + 1)).adapterList :=
    fun l pd done' rest' h => absurd (errors_of_loadRows load h.1) (Nat.succ_ne_zero _)
  induction rest generalizing done adapterList platformsDetected with
  | nil => exact (and_iff_left (allWork_nil load _)).symm
  | cons row rest ih =>
    have hnext : Marked adapterList ((done ++ [row]) ++ rest) := by simpa using hmark
    have hlen : (done ++ [row]).length = done.length + 1 := List.length_append
    rw [loadRows]
    by_cases hd : row.detected = true
    · rw [if_neg (by simp [hd])]
      by_cases hl : alreadyLoaded row.nativePlugin (done ++ row :: rest) = true
      · rw [if_pos hl, allWork_known load _ ((hmark.mem_iff _).mpr hl), ← hlen]
        exact ih hnext
      · have hnot : row.nativePlugin ∉ adapterList.map Adapter.path := by rwa [hmark.mem_iff]
        rw [if_neg hl, allWork_new load _ hd hnot]
        cases load done.length row.nativePlugin "" with
        | notLoaded => simp [Fine, works]
        | notConfigured => simp [hfail, works]
        | configured initializeFn finalizeFn =>
          have hreg := hmark.register (a := ⟨row.nativePlugin, initializeFn, finalizeFn, 0⟩) rfl hl
          rw [List.append_cons done] at hreg
          rw [← and_assoc, ← fine_register errors adapterList row.nativePlugin]
          apply (ih hreg).trans
          rw [List.length_append, List.map_append]
          rfl
    · rw [if_pos (by simp [hd]), allWork_undetected load _ (Bool.eq_false_iff.mpr hd), ← hlen]
      exact ih hnext

theorem le_loadRows_platformsDetected {done : List PlatformData} {adapterList : List Adapter}
    {platformsDetected errors : Nat} :
    platformsDetected ≤
      (loadRows load done rest adapterList platformsDetected errors).platformsDetected := by
  fun_induction loadRows load done rest adapterList platformsDetected errors with
  | case1 => exact Nat.le_refl _
  | case2 _ _ _ _ _ _ _ ih => exact ih
  | case3 _ _ _ _ _ _ _ _ ih => exact Nat.le_of_succ_le ih
  | case4 => exact Nat.le_succ _
  | case5 _ _ _ _ _ _ _ _ _ ih => exact Nat.le_of_succ_le ih
  | case6 _ _ _ _ _ _ _ _ _ _ _ ih => exact Nat.le_of_succ_le ih

theorem loadRows_platformsDetected {done : List PlatformData} {adapterList : List Adapter}
    {platformsDetected errors : Nat} (h : ∃ row ∈ rest, row.detected) :
    platformsDetected <
      (loadRows load done rest adapterList platformsDetected errors).platformsDetected := by
  fun_induction loadRows load done rest adapterList platformsDetected errors with
  | case1 => simp at h
  | case2 done row rest _ _ _ hd ih =>
    obtain ⟨r, hr, hrd⟩ := h
    rcases List.mem_cons.mp hr with rfl | hr
    · rw [hrd] at hd
      exact absurd hd Bool.false_ne_true
    · exact ih ⟨r, hr, hrd⟩
  | case3 => exact le_loadRows_platformsDetected load
  | case4 => exact Nat.lt_succ_self _
  | case5 => exact le_loadRows_platformsDetected load
  | case6 => exact le_loadRows_platformsDetected load

theorem loadRows_undetected {done : List PlatformData} {adapterList : List Adapter}
    {platformsDetected errors : Nat} (h : ∀ row ∈ rest, row.detected = false) :
    loadRows load done rest adapterList platformsDetected errors =
      ⟨done ++ rest, adapterList, platformsDetected, errors⟩ := by
  induction rest generalizing done with
  | nil => rw [loadRows, List.append_nil]
  | cons row rest ih =>
    obtain ⟨hrow, hrest⟩ := List.forall_mem_cons.mp h
    rw [loadRows, if_pos (by rw [hrow]; rfl), ih hrest, List.append_assoc, List.singleton_append]

end Native

section Fresh

def Fresh (adapterList : List Adapter) : Prop := ∀ a ∈ adapterList, a.initializeCalls = 0

variable {load : Nat → String → String → LoadOutcome} {adapterList : List Adapter}

theorem Fresh.register (h : Fresh adapterList) (path : String)
    (initializeFn : Option (Nat → Int)) (finalizeFn : Option Int) :
    Fresh (opaePluginMgrRegisterAdapter adapterList ⟨path, initializeFn, finalizeFn, 0⟩) := by
  rw [Fresh, opaePluginMgrRegisterAdapter, List.forall_mem_append, List.forall_mem_singleton]
  exact ⟨h, rfl⟩

theorem Fresh.loadRows {done rest : List PlatformData} {platformsDetected errors : Nat}
    (h : Fresh adapterList) :
    Fresh (loadRows load done rest adapterList platformsDetected errors).adapterList := by
  fun_induction PluginMgr.loadRows load done rest adapterList platformsDetected errors with
  | case1 => exact h
  | case2 _ _ _ _ _ _ _ ih => exact ih h
  | case3 _ _ _ _ _ _ _ _ ih => exact ih h
  | case4 => exact h
  | case5 _ _ _ _ _ _ _ _ _ ih => exact ih h
  | case6 _ _ _ _ _ _ _ _ _ _ _ ih => exact ih (h.register _ _ _)

theorem Fresh.loadCfgs (i : Nat) (rest : List PluginCfg) {found : Nat × List Adapter}
    (h : Fresh found.2) : Fresh (loadCfgs load i rest found).2 := by
  induction rest generalizing i found with
  | nil => exact h
  | cons cfg rest ih =>
    rw [loadCfgs_cons]
    apply ih
    rw [opaePluginMgrLoadCfgPlugin]
    split
    · cases load i cfg.plugin cfg.cfg with
      | notLoaded => exact h
      | notConfigured => exact h
      | configured initializeFn finalizeFn => exact h.register _ _ _
    · exact h

end Fresh

section Started

variable (p : Nat × Nat × Manager)

theorem initializeLoaded_cases :
    (p.1 ≠ 0 ∧ initializeLoaded p = (p.1, p.2.2)) ∨
      (p.1 = 0 ∧ ∃ done, initializeLoaded p =
        (p.2.2.adapterList.countP Adapter.initializeFails,
          { p.2.2 with
            adapterList := p.2.2.adapterList.map Adapter.callInitialize, initialized := done }) ∧
        (p.2.2.adapterList.countP Adapter.initializeFails = 0 →
          p.2.2.pluginCount ≠ 0 ∨ p.2.1 ≠ 0 → done = true)) := by
  obtain ⟨errors, platformsDetected, m⟩ := p
  by_cases he : errors = 0
  · right
    refine ⟨he, ?_⟩
    by_cases hs : m.adapterList.countP Adapter.initializeFails = 0 ∧
        (m.pluginCount ≠ 0 ∨ platformsDetected ≠ 0)
    · exact ⟨true, (if_neg (not_not.mpr he)).trans (if_pos hs), fun _ _ => rfl⟩
    · exact ⟨m.initialized, (if_neg (not_not.mpr he)).trans (if_neg hs),
        fun h0 hf => absurd ⟨h0, hf⟩ hs⟩
  · exact .inl ⟨he, if_pos he⟩

theorem countP_initializeFails (adapterList : List Adapter) :
    adapterList.countP Adapter.initializeFails = 0 ↔
      ∀ a ∈ adapterList, a.initializeFails = false := by
  simp [List.countP_eq_zero]

theorem initializeLoaded_eq_zero_iff :
    (initializeLoaded p).1 = 0 ↔ Fine p.1 p.2.2.adapterList := by
  rw [Fine, ← countP_initializeFails]
  rcases initializeLoaded_cases p with ⟨he, h⟩ | ⟨he, done, h, -⟩
  · rw [h]
    exact ⟨fun h0 => absurd h0 he, fun h0 => absurd h0.1 he⟩
  · rw [h]
    exact (and_iff_right he).symm

theorem initializeLoaded_configList : (initializeLoaded p).2.configList = p.2.2.configList := by
  rcases initializeLoaded_cases p with ⟨-, h⟩ | ⟨-, done, h, -⟩ <;> rw [h]

theorem initializeLoaded_platformDataTable :
    (initializeLoaded p).2.platformDataTable = p.2.2.platformDataTable := by
  rcases initializeLoaded_cases p with ⟨-, h⟩ | ⟨-, done, h, -⟩ <;> rw [h]

theorem callInitialize_path (a : Adapter) : a.callInitialize.path = a.path := by
  rw [Adapter.callInitialize]
  split <;> rfl

theorem callInitialize_calls (a : Adapter) :
    a.callInitialize.initializeCalls ≤ a.initializeCalls + 1 := by
  rw [Adapter.callInitialize]
  split
  · exact Nat.le_refl _
  · exact Nat.le_succ _

theorem initializeLoaded_paths :
    (initializeLoaded p).2.adapterList.map Adapter.path =
      p.2.2.adapterList.map Adapter.path := by
  rcases initializeLoaded_cases p with ⟨-, h⟩ | ⟨-, done, h, -⟩
  · rw [h]
  · rw [h, List.map_map]
    apply List.map_congr_left
    intro a _
    exact callInitialize_path a

theorem initializeLoaded_startedOnce (hfresh : Fresh p.2.2.adapterList) :
    ∀ a ∈ (initializeLoaded p).2.adapterList, a.initializeCalls ≤ 1 := by
  rcases initializeLoaded_cases p with ⟨-, h⟩ | ⟨-, done, h, -⟩
  · rw [h]
    intro a ha
    rw [hfresh a ha]
    exact Nat.zero_le 1
  · rw [h, List.forall_mem_map]
    intro a ha
    have hcalls := callInitialize_calls a
    rwa [hfresh a ha] at hcalls

theorem initializeLoaded_initialized (hfine : Fine p.1 p.2.2.adapterList)
    (hfound : p.2.2.pluginCount ≠ 0 ∨ p.2.1 ≠ 0) : (initializeLoaded p).2.initialized = true := by
  rcases initializeLoaded_cases p with ⟨he, -⟩ | ⟨-, done, h, hdone⟩
  · exact absurd hfine.1 he
  · rw [h]
    exact hdone ((countP_initializeFails _).mpr hfine.2) hfound

end Started

section Clean

/-- The library has not been initialised, and nothing is left of an earlier attempt. -/
structure Clean (m : Manager) : Prop extends Emptied m where
  initialized : m.initialized = false

theorem clearFlags_eq_self_iff (table : List PlatformData) :
    clearFlags table = table ↔ ∀ row ∈ table, row.detected = false ∧ row.loaded = false := by
  induction table with
  | nil => simp [clearFlags]
  | cons row rest ih =>
    rw [List.forall_mem_cons, ← ih, clearFlags, List.map_cons, List.cons.injEq]
    apply and_congr_left
    intro _
    obtain ⟨vendorId, deviceId, nativePlugin, detected, loaded⟩ := row
    simp [eq_comm]

theorem clearFlags_clearFlags (table : List PlatformData) :
    clearFlags (clearFlags table) = clearFlags table := by
  simp [clearFlags]

theorem clean_start (table : List PlatformData) : Clean (start table) :=
  ⟨⟨rfl, rfl, clearFlags_clearFlags table⟩, rfl⟩

theorem Clean.initialize_eq {m : Manager} (h : Clean m) (o : Outcomes) :
    opaePluginMgrInitialize o m = opaePluginMgrInitialize o (start m.platformDataTable) := by
  have heq : { m with pluginCount := 0 } = start m.platformDataTable := by
    obtain ⟨⟨ha, hc, hf⟩, hi⟩ := h
    rw [start, hf, ← ha, ← hi]
    congr
  calc opaePluginMgrInitialize o m = opaePluginMgrInitialize o { m with pluginCount := 0 } := rfl
    _ = opaePluginMgrInitialize o (start m.platformDataTable) := by rw [heq]

def idle : Outcomes := ⟨[], ⟨[], true⟩, fun _ _ _ => .notLoaded⟩

theorem initialize_idle {m : Manager} (h : m.initialized = false) :
    opaePluginMgrInitialize idle m = (1, { m with pluginCount := 0 }) := by
  simp [opaePluginMgrInitialize, h, idle, loadPlugins, opaePluginMgrLoadDfltPlugins,
    opaePluginMgrDetectPlatforms, initializeLoaded]

theorem retried_iff (m : Manager) :
    (∀ o, opaePluginMgrInitialize o m =
      opaePluginMgrInitialize o (start m.platformDataTable)) ↔ Clean m := by
  constructor
  · intro h
    have hidle := h idle
    rw [initialize_idle (clean_start m.platformDataTable).initialized] at hidle
    cases hi : m.initialized with
    | true => simp [opaePluginMgrInitialize, hi] at hidle
    | false =>
      rw [initialize_idle hi] at hidle
      obtain ⟨⟨ha, hc, hf⟩, hinit⟩ := clean_start m.platformDataTable
      have hm := (Prod.mk.inj hidle).2
      obtain ⟨ha', hc', -, hf', -⟩ := Manager.mk.inj hm
      exact ⟨⟨ha', hc', hf'.symm⟩, hi⟩
  · exact fun h o => h.initialize_eq o

end Clean

theorem foldl_addPlugin (cfgs : List PluginCfg) (m : Manager) :
    cfgs.foldl opaePluginMgrAddPlugin m =
      { m with
        configList := m.configList ++ cfgs, pluginCount := m.pluginCount + cfgs.length } := by
  induction cfgs generalizing m with
  | nil => simp
  | cons cfg rest ih =>
    rw [List.foldl_cons, ih]
    simp [opaePluginMgrAddPlugin, Nat.add_assoc, Nat.add_comm 1]

theorem keeps_init_iff (m : Manager) (o : Outcomes) :
    Keeps m (.init o) ↔
      (∀ c ∈ (step m (.init o)).configList, c.enabled →
        ((step m (.init o)).adapterList.map Adapter.path).count c.plugin ≤ 1) ∧
      (∀ a ∈ (step m (.init o)).adapterList, a.initializeCalls ≤ 1) ∧
      ((opaePluginMgrInitialize o m).1 ≠ 0 → Clean (step m (.init o))) := by
  constructor
  · rintro ⟨honce, hstarted, -, hretry⟩
    exact ⟨honce, hstarted, fun hne => (retried_iff _).mp (hretry o rfl hne)⟩
  · rintro ⟨honce, hstarted, hclean⟩
    refine ⟨honce, hstarted, nofun, ?_⟩
    rintro _ ⟨⟩ hne
    exact (retried_iff _).mpr (hclean hne)

section FromConfiguration

variable {m : Manager} {o : Outcomes}

def configured (o : Outcomes) : Nat × List Adapter := loadCfgs o.load 0 o.parsed (0, [])

theorem initialize_cfg (h : Clean m) (hp : o.parsed ≠ []) :
    opaePluginMgrInitialize o m =
      initializeLoaded ((configured o).1, 0,
        { start m.platformDataTable with
          configList := o.parsed, pluginCount := o.parsed.length,
          adapterList := (configured o).2 }) := by
  have hlen : o.parsed.length ≠ 0 := fun h0 => hp (List.length_eq_zero_iff.mp h0)
  rw [h.initialize_eq, opaePluginMgrInitialize, foldl_addPlugin, loadPlugins]
  simp [start, hlen, opaePluginMgrLoadCfgPlugins, configured]

theorem fresh_configured (o : Outcomes) : Fresh (configured o).2 :=
  Fresh.loadCfgs 0 o.parsed fun _ ha => absurd ha List.not_mem_nil

theorem configured_fine_iff (o : Outcomes) :
    Fine (configured o).1 (configured o).2 ↔
      ∀ i c, o.parsed[i]? = some c → c.enabled → works (o.load i c.plugin c.cfg) := by
  rw [configured, loadCfgs_fine_iff]
  simp [Fine]

theorem nodup_iff_once (cfgs : List PluginCfg) :
    ((cfgs.filter PluginCfg.enabled).map PluginCfg.plugin).Nodup ↔
      ∀ c ∈ cfgs, c.enabled →
        ((cfgs.filter PluginCfg.enabled).map PluginCfg.plugin).count c.plugin ≤ 1 := by
  rw [List.nodup_iff_count_le_one]
  constructor
  · exact fun h c _ _ => h c.plugin
  · intro h n
    by_cases hn : n ∈ (cfgs.filter PluginCfg.enabled).map PluginCfg.plugin
    · obtain ⟨c, hc, rfl⟩ := List.mem_map.mp hn
      obtain ⟨hmem, he⟩ := List.mem_filter.mp hc
      exact h c hmem he
    · rw [List.count_eq_zero_of_not_mem hn]
      exact Nat.zero_le 1

theorem cfg_keeps_iff (h : Clean m) (hp : o.parsed ≠ []) :
    Keeps m (.init o) ↔ CfgWorks o := by
  have heq := initialize_cfg h hp
  have hstep : step m (.init o) = (opaePluginMgrInitialize o m).2 := rfl
  have hpaths := initializeLoaded_paths ((configured o).1, 0,
    { start m.platformDataTable with
      configList := o.parsed, pluginCount := o.parsed.length, adapterList := (configured o).2 })
  rw [keeps_init_iff, hstep, heq, initializeLoaded_configList, hpaths]
  dsimp only
  constructor
  · rintro ⟨honce, -, hclean⟩
    have hfine : Fine (configured o).1 (configured o).2 := by
      by_contra hnot
      have hc := hclean fun h0 => hnot ((initializeLoaded_eq_zero_iff _).mp h0)
      have hlist := hc.configList
      rw [initializeLoaded_configList] at hlist
      exact hp hlist
    have hl := loadCfgs_paths o.load 0 o.parsed (0, []) hfine.1
    rw [List.map_nil, List.nil_append] at hl
    refine ⟨(nodup_iff_once _).mpr fun c hc he => ?_, (configured_fine_iff o).mp hfine⟩
    have hcount := honce c hc he
    rwa [configured, hl] at hcount
  · rintro ⟨hnodup, hworks⟩
    have hfine := (configured_fine_iff o).mpr hworks
    have hl := loadCfgs_paths o.load 0 o.parsed (0, []) hfine.1
    rw [List.map_nil, List.nil_append] at hl
    refine ⟨?_, initializeLoaded_startedOnce _ (fresh_configured o), fun hne => ?_⟩
    · intro c hc he
      rw [configured, hl]
      exact (nodup_iff_once _).mp hnodup c hc he
    · exact absurd ((initializeLoaded_eq_zero_iff _).mpr hfine) hne

theorem cfg_settled (h : Clean m) (hp : o.parsed ≠ []) (hw : CfgWorks o) :
    (step m (.init o)).initialized = true := by
  have hstep : step m (.init o) = (opaePluginMgrInitialize o m).2 := rfl
  rw [hstep, initialize_cfg h hp]
  apply initializeLoaded_initialized
  · exact (configured_fine_iff o).mpr hw.works
  · exact .inl fun h0 => hp (List.length_eq_zero_iff.mp h0)

end FromConfiguration

section FromPlatforms

variable {m : Manager} {o : Outcomes}

theorem Clean.undetected (h : Clean m) :
    ∀ row ∈ m.platformDataTable, row.detected = false ∧ row.loaded = false :=
  (clearFlags_eq_self_iff _).mp h.flags

theorem due_iff (h : Clean m) (i : Nat) (r : PlatformData) :
    DueIn [] (m.platformDataTable.map (mark o.scan)) i r ↔
      ∃ row, Due o.scan m.platformDataTable i row ∧ r = mark o.scan row := by
  have hseen : ∀ (j : Nat) row, m.platformDataTable[j]? = some row →
      ((mark o.scan row).detected = true ↔ seen o.scan row = true) := by
    intro j row hget
    rw [mark, (h.undetected row (List.mem_of_getElem? hget)).1, Bool.false_or]
  constructor
  · rintro ⟨hget, hd, -, hfirst⟩
    rw [List.getElem?_map, Option.map_eq_some_iff] at hget
    obtain ⟨row, hrow, rfl⟩ := hget
    refine ⟨row, ⟨hrow, (hseen i row hrow).mp hd, fun j hj r' hr' hs => ?_⟩, rfl⟩
    refine hfirst j hj (mark o.scan r') ?_ ((hseen j r' hr').mpr hs)
    rw [List.getElem?_map, hr', Option.map_some]
  · rintro ⟨row, ⟨hrow, hs, hfirst⟩, rfl⟩
    refine ⟨?_, (hseen i row hrow).mpr hs, List.not_mem_nil, fun j hj r' hr' hd => ?_⟩
    · rw [List.getElem?_map, hrow, Option.map_some]
    · rw [List.getElem?_map, Option.map_eq_some_iff] at hr'
      obtain ⟨row', hrow', rfl⟩ := hr'
      exact hfirst j hj row' hrow' ((hseen j row' hrow').mp hd)

theorem allWork_iff (h : Clean m) :
    AllWork o.load 0 [] (m.platformDataTable.map (mark o.scan)) ↔
      ∀ i row, Due o.scan m.platformDataTable i row →
        works (o.load i row.nativePlugin "") := by
  simp only [AllWork, due_iff h, forall_exists_index, and_imp, Nat.zero_add]
  constructor
  · exact fun hall i row hdue => hall i (mark o.scan row) row hdue rfl
  · rintro hall i _ row hdue rfl
    exact hall i row hdue

def scanned (m : Manager) (o : Outcomes) : List PlatformData :=
  m.platformDataTable.map (mark o.scan)

theorem scanned_clear_iff (h : Clean m) :
    (∀ row ∈ scanned m o, row.detected = false ∧ row.loaded = false) ↔
      ∀ row ∈ m.platformDataTable, seen o.scan row = false := by
  rw [scanned, List.forall_mem_map]
  apply forall₂_congr
  intro row hrow
  obtain ⟨hd, hl⟩ := h.undetected row hrow
  simp [mark, hd, hl]

theorem exists_detected (h : Clean m)
    (hs : ¬ ∀ row ∈ m.platformDataTable, seen o.scan row = false) :
    ∃ row ∈ scanned m o, row.detected := by
  by_contra hnone
  apply hs
  rw [← scanned_clear_iff h]
  intro row hrow
  refine ⟨Bool.eq_false_iff.mpr fun hd => hnone ⟨row, hrow, hd⟩, ?_⟩
  obtain ⟨r, hr, rfl⟩ := List.mem_map.mp hrow
  exact (h.undetected r hr).2

theorem initialize_dflt (h : Clean m) (hp : o.parsed = []) :
    opaePluginMgrInitialize o m =
      initializeLoaded
        (opaePluginMgrLoadDfltPlugins o.load o.scan (start m.platformDataTable)) := by
  rw [h.initialize_eq, opaePluginMgrInitialize, hp]
  rfl

theorem start_scanned (h : Clean m) :
    (opaePluginMgrDetectPlatforms o.scan (start m.platformDataTable).platformDataTable).2 =
      scanned m o := by
  rw [detectPlatforms_eq, start, h.flags, scanned]

theorem initialize_aborted (h : Clean m) (hp : o.parsed = []) (ha : o.scan.aborted = true) :
    opaePluginMgrInitialize o m =
      (1, { start m.platformDataTable with platformDataTable := scanned m o }) := by
  rw [initialize_dflt h hp, loadDflt_of_aborted _ _ ha, start_scanned h]
  rfl

def loading (m : Manager) (o : Outcomes) : Loading := loadRows o.load [] (scanned m o) [] 0 0

theorem initialize_scanned (h : Clean m) (hp : o.parsed = []) (ha : o.scan.aborted = false) :
    opaePluginMgrInitialize o m =
      initializeLoaded ((loading m o).errors, (loading m o).platformsDetected,
        { start m.platformDataTable with
          platformDataTable := (loading m o).table,
          adapterList := (loading m o).adapterList }) := by
  rw [initialize_dflt h hp, loadDflt_of_scanned _ _ ha, start_scanned h]
  rfl

theorem initialize_unseen (h : Clean m) (hp : o.parsed = [])
    (hs : ∀ row ∈ m.platformDataTable, seen o.scan row = false) :
    Clean (step m (.init o)) := by
  have hstep : step m (.init o) = (opaePluginMgrInitialize o m).2 := rfl
  have hclear := (scanned_clear_iff h).mpr hs
  rw [hstep]
  cases ha : o.scan.aborted with
  | true =>
    rw [initialize_aborted h hp ha]
    exact ⟨⟨rfl, rfl, (clearFlags_eq_self_iff _).mpr hclear⟩, rfl⟩
  | false =>
    have hl : loading m o = ⟨scanned m o, [], 0, 0⟩ :=
      loadRows_undetected o.load fun row hrow => (hclear row hrow).1
    rw [initialize_scanned h hp ha, hl]
    exact ⟨⟨rfl, rfl, (clearFlags_eq_self_iff _).mpr hclear⟩, rfl⟩

theorem loading_fine_iff (h : Clean m) :
    Fine (loading m o).errors (loading m o).adapterList ↔
      ∀ i row, Due o.scan m.platformDataTable i row →
        works (o.load i row.nativePlugin "") := by
  have hmark : Marked [] ([] ++ scanned m o) := by
    apply marked_nil
    rw [List.nil_append, scanned, List.forall_mem_map]
    exact fun row hrow => (h.undetected row hrow).2
  rw [loading, loadRows_fine_iff o.load hmark, ← allWork_iff h, ← scanned]
  simp [Fine]

theorem loading_detected (h : ∀ row ∈ (loading m o).table, row.detected = false) :
    ∀ row ∈ scanned m o, row.detected = false := by
  intro row hrow
  have hmem : unload row ∈ (loading m o).table.map unload := by
    rw [loading, loadRows_unload, List.nil_append]
    exact List.mem_map_of_mem hrow
  obtain ⟨r, hr, heq⟩ := List.mem_map.mp hmem
  have hd := congrArg PlatformData.detected heq
  exact hd.symm.trans (h r hr)

theorem fresh_loading (m : Manager) (o : Outcomes) : Fresh (loading m o).adapterList :=
  Fresh.loadRows fun _ ha => absurd ha List.not_mem_nil

theorem dflt_keeps_iff (h : Clean m) (hp : o.parsed = []) :
    Keeps m (.init o) ↔ DfltWorks m.platformDataTable o := by
  have hstep : step m (.init o) = (opaePluginMgrInitialize o m).2 := rfl
  by_cases hs : ∀ row ∈ m.platformDataTable, seen o.scan row = false
  · have hclean := initialize_unseen h hp hs
    refine ⟨fun _ => .inl hs, fun _ => (keeps_init_iff m o).mpr ⟨?_, ?_, fun _ => hclean⟩⟩
    · rw [hclean.configList]
      nofun
    · rw [hclean.adapterList]
      nofun
  · obtain ⟨row, hrow, hd⟩ := exists_detected h hs
    rw [DfltWorks, or_iff_right hs, keeps_init_iff, hstep]
    cases ha : o.scan.aborted with
    | true =>
      rw [initialize_aborted h hp ha]
      refine ⟨fun hk => ?_, fun hw => absurd hw.1 Bool.noConfusion⟩
      have hflags := (clearFlags_eq_self_iff _).mp (hk.2.2 Nat.one_ne_zero).flags
      exact absurd hd (Bool.eq_false_iff.mp (hflags row hrow).1)
    | false =>
      rw [initialize_scanned h hp ha, ← loading_fine_iff h]
      constructor
      · rintro ⟨-, -, hclean⟩
        refine ⟨rfl, ?_⟩
        by_contra hnot
        have hflags := (hclean fun h0 => hnot ((initializeLoaded_eq_zero_iff _).mp h0)).flags
        rw [initializeLoaded_platformDataTable, clearFlags_eq_self_iff] at hflags
        have hnone := loading_detected fun r hr => (hflags r hr).1
        exact absurd hd (Bool.eq_false_iff.mp (hnone row hrow))
      · rintro ⟨-, hfine⟩
        refine ⟨?_, initializeLoaded_startedOnce _ (fresh_loading m o), fun hne => ?_⟩
        · rw [initializeLoaded_configList]
          nofun
        · exact absurd ((initializeLoaded_eq_zero_iff _).mpr hfine) hne

theorem dflt_settled (h : Clean m) (hp : o.parsed = []) (hw : DfltWorks m.platformDataTable o) :
    (step m (.init o)).initialized = true ∨ Clean (step m (.init o)) := by
  have hstep : step m (.init o) = (opaePluginMgrInitialize o m).2 := rfl
  by_cases hs : ∀ row ∈ m.platformDataTable, seen o.scan row = false
  · exact .inr (initialize_unseen h hp hs)
  · obtain ⟨ha, hworks⟩ := hw.resolve_left hs
    left
    rw [hstep, initialize_scanned h hp ha]
    apply initializeLoaded_initialized
    · exact (loading_fine_iff h).mpr hworks
    · have hlt : 0 < (loading m o).platformsDetected :=
        loadRows_platformsDetected o.load (exists_detected h hs)
      exact .inr (Nat.ne_of_gt hlt)

end FromPlatforms

/-- Every reachable state is one from which nothing was left over, or is initialised. -/
structure Ready (m : Manager) : Prop where
  initialized : m.initialized = true
  once : ∀ c ∈ m.configList, c.enabled → (m.adapterList.map Adapter.path).count c.plugin ≤ 1
  startedOnce : ∀ a ∈ m.adapterList, a.initializeCalls ≤ 1

def Inv (m : Manager) : Prop := Clean m ∨ Ready m

theorem clean_finalizeAll (m : Manager) (dlclose : Nat → Int) :
    Clean (step m (.finalizeAll dlclose)) :=
  ⟨⟨rfl, rfl, clearFlags_clearFlags _⟩, rfl⟩

theorem keeps_finalizeAll (m : Manager) (dlclose : Nat → Int) : Keeps m (.finalizeAll dlclose) := by
  have hclean := clean_finalizeAll m dlclose
  refine ⟨?_, ?_, fun _ _ => hclean.toEmptied, nofun⟩
  · rw [hclean.configList]
    nofun
  · rw [hclean.adapterList]
    nofun

theorem Ready.step_init {m : Manager} (h : Ready m) (o : Outcomes) :
    opaePluginMgrInitialize o m = (0, { m with pluginCount := 0 }) := by
  rw [opaePluginMgrInitialize]
  simp [h.initialized]

theorem Ready.keeps {m : Manager} (h : Ready m) (o : Outcomes) : Keeps m (.init o) := by
  have hstep : step m (.init o) = (opaePluginMgrInitialize o m).2 := rfl
  rw [keeps_init_iff, hstep, h.step_init o]
  exact ⟨h.once, h.startedOnce, fun h0 => absurd rfl h0⟩

theorem keeps_iff (m : Manager) (call : Call) (h : Inv m) : Keeps m call ↔ Guard m call := by
  cases call with
  | finalizeAll dlclose => exact iff_of_true (keeps_finalizeAll m dlclose) trivial
  | init o =>
    rcases h with hclean | hready
    · rw [Guard, or_iff_right (by rw [hclean.initialized]; exact Bool.false_ne_true)]
      split
      case isTrue hp => exact dflt_keeps_iff hclean hp
      case isFalse hp => exact cfg_keeps_iff hclean hp
    · exact iff_of_true (hready.keeps o) (.inl hready.initialized)

theorem inv_step (m : Manager) (call : Call) (h : Inv m) (hg : Guard m call) :
    Inv (step m call) := by
  have hkeeps := (keeps_iff m call h).mpr hg
  cases call with
  | finalizeAll dlclose => exact .inl (clean_finalizeAll m dlclose)
  | init o =>
    have hsettled : (step m (.init o)).initialized = true ∨ Clean (step m (.init o)) := by
      rcases h with hclean | hready
      · have hw := hg.resolve_left (by rw [hclean.initialized]; exact Bool.false_ne_true)
        split at hw
        case isTrue hp => exact dflt_settled hclean hp hw
        case isFalse hp => exact .inl (cfg_settled hclean hp hw)
      · left
        rw [step, hready.step_init o]
        exact hready.initialized
    rcases hsettled with hinit | hclean
    · exact .inr ⟨hinit, hkeeps.once, hkeeps.startedOnce⟩
    · exact .inl hclean

theorem lifecycle_keeps_iff (table : List PlatformData) (calls : List Call) :
    Along step Keeps (start table) calls ↔ Along step Guard (start table) calls :=
  along_iff inv_step keeps_iff calls (.inl (clean_start table))

def oneXfpga (first : Int) : Outcomes :=
  ⟨[⟨"xfpga", "libxfpga.so", "{}", true⟩], ⟨[], false⟩,
    fun _ _ _ => .configured (some fun calls => if calls = 0 then first else 0) none⟩

/-- After an `initialize` that failed, the retry loads the library twice more. -/
theorem retry_loads_again :
    ((run step (start platformDataTable) [.init (oneXfpga 1), .init (oneXfpga 0)]).adapterList.map
      fun a => (a.path, a.initializeCalls)) =
        [("libxfpga.so", 2), ("libxfpga.so", 1), ("libxfpga.so", 1)] ∧
      ¬ Along step Keeps (start platformDataTable) [.init (oneXfpga 1), .init (oneXfpga 0)] := by
  refine ⟨by decide, ?_⟩
  rintro ⟨-, hkeeps, -⟩
  have hcount := hkeeps.once ⟨"xfpga", "libxfpga.so", "{}", true⟩ (by decide) rfl
  exact absurd hcount (by decide)

end OpaeLibs.OpaeC.PluginRuns
