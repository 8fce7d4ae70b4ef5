import OpaeLibs.PluginXfpga.MmioBounds

namespace OpaeLibs.PluginXfpga.MmioRuns

open OpaeLibs.Lib.Runs
open OpaeLibs.OpaeC.Props OpaeLibs.PluginXfpga.Mmio OpaeLibs.PluginXfpga.MmioBounds
open OpaeLibs.PluginXfpga.WsidList hiding Call step

def spaceOf : Call → UInt32
  | .access _ mmioNum _ _ => mmioNum
  | .map _ mmioNum _ => mmioNum
  | .unmap _ mmioNum => mmioNum

def mapEnvOf : Call → Option MapEnv
  | .access env _ _ _ => some env
  | .map env _ _ => some env
  | .unmap _ _ => none

def offsetOf : Call → UInt64
  | .access _ _ offset _ => offset
  | _ => 0

/-- What `wsid_gen` returns in the call, or would return if the call got there. -/
def wsidOf (call : Call) : Option UInt64 := (mapEnvOf call).map MapEnv.wsidGen

/-- The `munmap` after a failed `wsid_add` succeeds. -/
def Undoes (call : Call) : Prop :=
  ∀ env, mapEnvOf call = some env → ∀ addr size, env.munmap addr size = true

def resultOf (h : Handle) : Call → FpgaResult
  | .access env mmioNum offset call => (perform env h mmioNum offset call).result
  | .map env mmioNum mmioPtr => (xfpgaFpgaMapMmio env h mmioNum mmioPtr).1
  | .unmap env mmioNum => (xfpgaFpgaUnmapMmio env h mmioNum).1

/-- The call gets to the lookup of its mapping. -/
def Reaches (h : Handle) : Call → Prop
  | .access env _ offset call => Ready env h offset call
  | .map env _ _ => env.check = .ok
  | .unmap _ _ => False

def Unmaps (mmioNum : UInt32) (h : Handle) (call : Call) : Prop :=
  (∃ env, call = .unmap env mmioNum) ∧ resultOf h call = .ok

def deleted (h : Handle) (wm : WsidMap) : Handle :=
  { h with
    mmioRoot := (wsidDel h.mmioRoot wm.wsid).2
    mappings := h.mappings.erase (wm.offset, wm.len) }

/-- The call maps its space, which was not mapped, and records the mapping. -/
def Afresh (env : MapEnv) (h : Handle) (mmioNum : UInt32) (h' : Handle) : Prop :=
  wsidFindByIndex h.mmioRoot mmioNum = none ∧
    ∃ rinfo addr, Maps env mmioNum rinfo addr ∧ SameMaps (recorded env h mmioNum rinfo addr) h'

section

variable {h : Handle}

/-- A call that gets to the lookup leaves what the lookup leaves, and fails only with the lookup or
on an offset behind the mapping. -/
structure LooksUp (env : MapEnv) (h : Handle) (call : Call) : Prop where
  last : SameMaps (findOrMapWm env h (spaceOf call)).2 (step h call)
  error : ∀ r, (findOrMapWm env h (spaceOf call)).1 = .error r → resultOf h call = r
  found : ∀ wm, (findOrMapWm env h (spaceOf call)).1 = .ok wm → offsetOf call ≤ wm.len →
    resultOf h call = .ok

theorem looksUp_access {env : MapEnv} {mmioNum : UInt32} {offset : UInt64} {call : AccessCall}
    {go : Handle → UInt64 → Access} (hgo : Touches call.width go)
    (heq : perform env h mmioNum offset call = accessWm env h mmioNum offset go) :
    LooksUp env h (.access env mmioNum offset call) := by
  refine ⟨?_, fun r hr => ?_, fun wm hwm hle => ?_⟩
  · rw [step, heq]
    exact accessWm_same hgo offset
  · rw [resultOf, heq, accessWm]
    rw [spaceOf] at hr
    generalize findOrMapWm env h mmioNum = found at hr
    obtain ⟨result | wm, h'⟩ := found
    · exact Except.error.inj hr
    · cases hr
  · rw [resultOf, heq, accessWm]
    rw [spaceOf] at hwm
    generalize findOrMapWm env h mmioNum = found at hwm
    obtain ⟨result | wm', h'⟩ := found
    · cases hwm
    · obtain rfl := Except.ok.inj hwm
      have hle : offset ≤ wm'.len := hle
      dsimp only
      rw [if_neg (UInt64.not_lt.mpr hle)]
      exact hgo.result _ _

theorem looksUp_map {env : MapEnv} {mmioNum : UInt32} {mmioPtr : Bool} (hcheck : env.check = .ok) :
    LooksUp env h (.map env mmioNum mmioPtr) := by
  refine ⟨?_, fun r hr => ?_, fun wm hwm _ => ?_⟩
  · rw [step, xfpgaFpgaMapMmio, if_neg (not_not.mpr hcheck), spaceOf]
    generalize findOrMapWm env h mmioNum = found
    obtain ⟨result | wm, h'⟩ := found <;> exact .refl h'
  · rw [resultOf, xfpgaFpgaMapMmio, if_neg (not_not.mpr hcheck)]
    rw [spaceOf] at hr
    generalize findOrMapWm env h mmioNum = found at hr
    obtain ⟨result | wm, h'⟩ := found
    · exact Except.error.inj hr
    · cases hr
  · rw [resultOf, xfpgaFpgaMapMmio, if_neg (not_not.mpr hcheck)]
    rw [spaceOf] at hwm
    generalize findOrMapWm env h mmioNum = found at hwm
    obtain ⟨result | wm', h'⟩ := found
    · cases hwm
    · rfl

/-- What a call that may map its space can do: look the space up, or be refused before. -/
theorem lookup_cases {call : Call} {env : MapEnv} (henv : mapEnvOf call = some env) :
    (Reaches h call ∧ LooksUp env h call) ∨
    (¬ Reaches h call ∧ resultOf h call ≠ .ok ∧ SameMaps h (step h call)) := by
  cases call with
  | access env' mmioNum offset call =>
    obtain rfl := Option.some.inj henv
    obtain ⟨hready, go, hgo, heq⟩ | ⟨hno, result, hres, heq⟩ :=
      perform_cases env' h mmioNum offset call
    · exact .inl ⟨hready, looksUp_access hgo heq⟩
    · rw [step, resultOf, heq]
      exact .inr ⟨hno, hres, .refl h⟩
  | map env' mmioNum mmioPtr =>
    obtain rfl := Option.some.inj henv
    by_cases hcheck : env'.check = .ok
    · exact .inl ⟨hcheck, looksUp_map hcheck⟩
    · rw [step, resultOf, xfpgaFpgaMapMmio, if_pos hcheck]
      exact .inr ⟨hcheck, hcheck, .refl h⟩
  | unmap env' mmioNum => cases henv

theorem maps_cases (hv : Valid h.mmioRoot) {call : Call} {env : MapEnv}
    (henv : mapEnvOf call = some env) (hundo : Undoes call) :
    (SameMaps h (step h call) ∧
      (resultOf h call = .ok → ∃ wm, wsidFindByIndex h.mmioRoot (spaceOf call) = some wm)) ∨
    Afresh env h (spaceOf call) (step h call) := by
  obtain ⟨-, hlook⟩ | ⟨-, hres, hsame⟩ := lookup_cases (h := h) henv
  swap
  · exact .inl ⟨hsame, fun hok => absurd hok hres⟩
  have hlast := hlook.last
  obtain ⟨wm, hfind, heq⟩ | ⟨hnone, rinfo, addr, hm, -, heq⟩ |
      ⟨-, -, r, h'', heq, hr, hsame⟩ := findOrMapWm_cases env hv (spaceOf call)
  · rw [heq] at hlast
    exact .inl ⟨hlast, fun _ => ⟨wm, hfind⟩⟩
  · rw [heq] at hlast
    exact .inr ⟨hnone, rinfo, addr, hm, hlast⟩
  · have hno : resultOf h call = r := hlook.error r (by rw [heq])
    rw [heq] at hlast
    have hback : SameMaps h h'' := ⟨hsame.mmioRoot, hsame.flags, hsame.mappings (hundo env henv)⟩
    exact .inl ⟨hback.trans hlast, fun hok => absurd (hno.symm.trans hok) hr⟩

theorem findOrMapWm_maps (hv : Valid h.mmioRoot) {env : MapEnv} {mmioNum : UInt32}
    (hnone : wsidFindByIndex h.mmioRoot mmioNum = none) {rinfo : OpaePortRegionInfo} {addr : UInt64}
    (hm : Maps env mmioNum rinfo addr) (hmem : env.mem = true) :
    findOrMapWm env h mmioNum =
      (.ok (entryOf env mmioNum rinfo addr), recorded env h mmioNum rinfo addr) := by
  obtain ⟨wm, hfind, -⟩ | ⟨-, rinfo', addr', hm', -, heq⟩ | ⟨-, hno, -⟩ :=
    findOrMapWm_cases env hv mmioNum
  · exact absurd (hnone.symm.trans hfind) (by simp)
  · obtain rfl := Option.some.inj (hm'.info.symm.trans hm.info)
    obtain rfl := Option.some.inj (hm'.mmap.symm.trans hm.mmap)
    exact heq
  · exact absurd (hmem.symm.trans (hno rinfo addr hm)) (by simp)

theorem maps_of_reaches (hv : Valid h.mmioRoot) {call : Call} {env : MapEnv}
    (henv : mapEnvOf call = some env) (hreach : Reaches h call)
    (hnone : wsidFindByIndex h.mmioRoot (spaceOf call) = none) {rinfo : OpaePortRegionInfo}
    {addr : UInt64} (hm : Maps env (spaceOf call) rinfo addr) (hmem : env.mem = true) :
    SameMaps (recorded env h (spaceOf call) rinfo addr) (step h call) ∧
      (offsetOf call ≤ rinfo.size → resultOf h call = .ok) := by
  obtain ⟨-, hlook⟩ | ⟨hno, -⟩ := lookup_cases (h := h) henv
  swap
  · exact absurd hreach hno
  have heq := findOrMapWm_maps hv hnone hm hmem
  refine ⟨?_, fun hle => hlook.found (entryOf env (spaceOf call) rinfo addr) (by rw [heq]) hle⟩
  have hlast := hlook.last
  rwa [heq] at hlast

theorem unmap_cases (env : UnmapEnv) (mmioNum : UInt32) :
    (resultOf h (.unmap env mmioNum) ≠ .ok ∧ step h (.unmap env mmioNum) = h) ∨
    (resultOf h (.unmap env mmioNum) = .ok ∧ ∃ wm,
      wsidFindByIndex h.mmioRoot mmioNum = some wm ∧
        step h (.unmap env mmioNum) = deleted h wm) := by
  rw [resultOf, step, xfpgaFpgaUnmapMmio]
  split
  case isTrue hcheck => exact .inl ⟨hcheck, rfl⟩
  cases hf : wsidFindByIndex h.mmioRoot mmioNum with
  | none => exact .inl ⟨(fun h => by cases h), rfl⟩
  | some wm =>
    dsimp only
    split
    · exact .inl ⟨(fun h => by cases h), rfl⟩
    · exact .inr ⟨rfl, wm, rfl, rfl⟩

/-- What a call can do to the table and to the mappings. -/
theorem step_cases (hv : Valid h.mmioRoot) {call : Call} (hundo : Undoes call) :
    (SameMaps h (step h call) ∧ ¬ Unmaps (spaceOf call) h call) ∨
    (∃ env, mapEnvOf call = some env ∧ Afresh env h (spaceOf call) (step h call)) ∨
    (Unmaps (spaceOf call) h call ∧ ∃ wm, wsidFindByIndex h.mmioRoot (spaceOf call) = some wm ∧
      step h call = deleted h wm) := by
  cases henv : mapEnvOf call with
  | some env =>
    obtain ⟨hsame, -⟩ | hfresh := maps_cases hv henv hundo
    · refine .inl ⟨hsame, fun ⟨⟨env', hcall⟩, _⟩ => ?_⟩
      rw [hcall] at henv
      exact nomatch henv
    · exact .inr (.inl ⟨env, rfl, hfresh⟩)
  | none =>
    obtain ⟨env, mmioNum, rfl⟩ : ∃ env mmioNum, call = .unmap env mmioNum := by
      cases call with
      | unmap env mmioNum => exact ⟨env, mmioNum, rfl⟩
      | _ => exact nomatch henv
    obtain ⟨hres, heq⟩ | ⟨hres, wm, hfind, heq⟩ := unmap_cases (h := h) env mmioNum
    · rw [heq]
      exact .inl ⟨.refl h, fun hun => hres hun.2⟩
    · exact .inr (.inr ⟨⟨⟨env, rfl⟩, hres⟩, wm, hfind, heq⟩)

end

/-- The mappings are the entries of the table, one for each space, and no two entries share an
id. -/
structure Mapped (h : Handle) : Prop where
  valid : Valid h.mmioRoot
  addr : ∀ wm ∈ records h.mmioRoot, wm.addr = wm.offset
  perm : ((records h.mmioRoot).map fun wm => (wm.addr, wm.len)).Perm h.mappings
  indices : ((records h.mmioRoot).map WsidMap.index).Nodup
  ids : ((records h.mmioRoot).map WsidMap.wsid).Nodup

/-- An id that is drawn is new. -/
def Fresh (h : Handle) (call : Call) : Prop :=
  ∀ id, wsidOf call = some id → id ∉ (records h.mmioRoot).map WsidMap.wsid

section

variable {h : Handle}

theorem Mapped.of_same {h' : Handle} (hm : Mapped h) (hs : SameMaps h h') : Mapped h' := by
  obtain ⟨hroot, -, hmappings⟩ := hs
  exact ⟨hroot ▸ hm.valid, hroot ▸ hm.addr, hroot ▸ hmappings ▸ hm.perm, hroot ▸ hm.indices,
    hroot ▸ hm.ids⟩

theorem Mapped.recorded (hm : Mapped h) {env : MapEnv} {mmioNum : UInt32}
    (hnone : wsidFindByIndex h.mmioRoot mmioNum = none)
    (hid : env.wsidGen ∉ (records h.mmioRoot).map WsidMap.wsid) (rinfo : OpaePortRegionInfo)
    (addr : UInt64) : Mapped (recorded env h mmioNum rinfo addr) := by
  have hrec := records_recorded env hm.valid mmioNum rinfo addr
  have hindex : (entryOf env mmioNum rinfo addr).index = mmioNum := UInt32.toUInt32_toUInt64 _
  refine ⟨(wsidAdd_spec hm.valid _ _ _ _ _ _ _).1, fun wm hwm => ?_, ?_, ?_, ?_⟩
  · rcases List.mem_cons.mp (hrec.mem_iff.mp hwm) with rfl | hwm
    · rfl
    · exact hm.addr wm hwm
  · exact (hrec.map _).trans (hm.perm.cons _)
  · rw [(hrec.map _).nodup_iff, List.map_cons, List.nodup_cons, hindex]
    refine ⟨fun hmem => ?_, hm.indices⟩
    obtain ⟨wm, hwm, hi⟩ := List.mem_map.mp hmem
    exact wsidFindByIndex_eq_none.mp hnone wm hwm hi
  · rw [(hrec.map _).nodup_iff, List.map_cons, List.nodup_cons]
    exact ⟨hid, hm.ids⟩

theorem Mapped.perm_deleted (hm : Mapped h) {wm : WsidMap} (hwm : wm ∈ records h.mmioRoot) :
    (records h.mmioRoot).Perm (wm :: records (deleted h wm).mmioRoot) := by
  obtain ⟨wm', hfind⟩ := exists_wsidFind hm.valid hwm
  have hperm := wsidDel_records hm.valid hfind
  have hmem : wm' ∈ records h.mmioRoot := hperm.mem_iff.mpr List.mem_cons_self
  have hid : wm'.wsid = wm.wsid := by
    rw [wsidFind] at hfind
    simpa using List.find?_some hfind
  obtain rfl : wm' = wm := List.inj_on_of_nodup_map hm.ids hmem hwm hid
  exact hperm

theorem Mapped.deleted (hm : Mapped h) {wm : WsidMap} (hwm : wm ∈ records h.mmioRoot) :
    Mapped (deleted h wm) := by
  have hperm := hm.perm_deleted hwm
  have hkeep : ∀ {e}, e ∈ records (MmioRuns.deleted h wm).mmioRoot → e ∈ records h.mmioRoot :=
    fun he => hperm.mem_iff.mpr (List.mem_cons_of_mem _ he)
  refine ⟨(wsidDel_spec hm.valid _).2.1, fun e he => hm.addr e (hkeep he), ?_, ?_, ?_⟩
  · have hall := ((hperm.map fun wm => (wm.addr, wm.len)).symm.trans hm.perm).erase
      (wm.addr, wm.len)
    rwa [List.map_cons, List.erase_cons_head, hm.addr wm hwm] at hall
  · exact ((hperm.map _).nodup_iff.mp hm.indices).of_cons
  · exact ((hperm.map _).nodup_iff.mp hm.ids).of_cons

theorem mapped_step {call : Call} (hm : Mapped h) (hundo : Undoes call) (hfresh : Fresh h call) :
    Mapped (step h call) := by
  obtain ⟨hsame, -⟩ | ⟨env, henv, hnone, rinfo, addr, -, hsame⟩ | ⟨-, wm, hfind, heq⟩ :=
    step_cases hm.valid hundo
  · exact hm.of_same hsame
  · have hid := hfresh env.wsidGen (by rw [wsidOf, henv]; rfl)
    exact (hm.recorded hnone hid rinfo addr).of_same hsame
  · rw [heq]
    exact hm.deleted (mem_of_wsidFindByIndex hfind).1

theorem Mapped.find_iff (hm : Mapped h) {mmioNum : UInt32} {wm : WsidMap} :
    wsidFindByIndex h.mmioRoot mmioNum = some wm ↔
      wm ∈ records h.mmioRoot ∧ wm.index = mmioNum := by
  refine ⟨mem_of_wsidFindByIndex, fun ⟨hwm, hi⟩ => ?_⟩
  refine wsidFindByIndex_of_unique hwm hi fun e he hie => ?_
  exact List.inj_on_of_nodup_map hm.indices he hwm (hie.trans hi.symm)

theorem find_step {call : Call} (hm : Mapped h) (hundo : Undoes call) (hfresh : Fresh h call)
    {mmioNum : UInt32} (hkeep : ¬ Unmaps mmioNum h call) {wm : WsidMap}
    (hfind : wsidFindByIndex h.mmioRoot mmioNum = some wm) :
    wsidFindByIndex (step h call).mmioRoot mmioNum = some wm := by
  obtain ⟨hwm, hi⟩ := hm.find_iff.mp hfind
  refine (mapped_step hm hundo hfresh).find_iff.mpr ⟨?_, hi⟩
  obtain ⟨hsame, -⟩ | ⟨env, -, -, rinfo, addr, -, hsame⟩ | ⟨hun, wm', hfind', heq⟩ :=
    step_cases hm.valid hundo
  · rwa [hsame.mmioRoot]
  · rw [hsame.mmioRoot]
    exact (records_recorded env hm.valid (spaceOf call) rinfo addr).mem_iff.mpr
      (List.mem_cons_of_mem _ hwm)
  · obtain ⟨hwm', hi'⟩ := hm.find_iff.mp hfind'
    rw [heq]
    rcases List.mem_cons.mp ((hm.perm_deleted hwm').mem_iff.mp hwm) with rfl | hwm
    · exact absurd (hi.symm.trans hi' ▸ hun) hkeep
    · exact hwm

theorem find_none_step {call : Call} (hm : Mapped h) (hundo : Undoes call) {mmioNum : UInt32}
    (hother : spaceOf call ≠ mmioNum) (hnone : wsidFindByIndex h.mmioRoot mmioNum = none) :
    wsidFindByIndex (step h call).mmioRoot mmioNum = none := by
  rw [wsidFindByIndex_eq_none] at hnone ⊢
  obtain ⟨hsame, -⟩ | ⟨env, -, -, rinfo, addr, -, hsame⟩ | ⟨-, wm, hfind, heq⟩ :=
    step_cases hm.valid hundo
  · rwa [hsame.mmioRoot]
  · rw [hsame.mmioRoot]
    intro e he
    have hperm := records_recorded env hm.valid (spaceOf call) rinfo addr
    rcases List.mem_cons.mp (hperm.mem_iff.mp he) with rfl | he
    · have hindex : (entryOf env (spaceOf call) rinfo addr).index = spaceOf call :=
        UInt32.toUInt32_toUInt64 _
      rwa [hindex]
    · exact hnone e he
  · rw [heq]
    intro e he
    have hperm := hm.perm_deleted (mem_of_wsidFindByIndex hfind).1
    exact hnone e (hperm.mem_iff.mpr (List.mem_cons_of_mem _ he))

theorem find_none_of_unmaps {call : Call} (hm : Mapped h) (hundo : Undoes call)
    {mmioNum : UInt32} (hun : Unmaps mmioNum h call) :
    wsidFindByIndex (step h call).mmioRoot mmioNum = none := by
  obtain ⟨⟨env, rfl⟩, hres⟩ := hun
  obtain ⟨hno, -⟩ | ⟨-, wm, hfind, heq⟩ := unmap_cases (h := h) env mmioNum
  · exact absurd hres hno
  obtain ⟨hwm, hi⟩ := hm.find_iff.mp hfind
  have hperm := hm.perm_deleted hwm
  have hnodup := (hperm.map WsidMap.index).nodup_iff.mp hm.indices
  rw [heq, wsidFindByIndex_eq_none]
  rintro e he rfl
  exact (List.nodup_cons.mp hnodup).1 (hi ▸ List.mem_map_of_mem he)

theorem ids_step {call : Call} (hm : Mapped h) (hundo : Undoes call) {id : UInt64}
    (hid : id ∈ (records (step h call).mmioRoot).map WsidMap.wsid) :
    id ∈ (records h.mmioRoot).map WsidMap.wsid ∨ wsidOf call = some id := by
  obtain ⟨hsame, -⟩ | ⟨env, henv, -, rinfo, addr, -, hsame⟩ | ⟨-, wm, hfind, heq⟩ :=
    step_cases hm.valid hundo
  · rw [hsame.mmioRoot] at hid
    exact .inl hid
  · rw [hsame.mmioRoot] at hid
    have hids := (records_recorded env hm.valid (spaceOf call) rinfo addr).map WsidMap.wsid
    rcases List.mem_cons.mp (hids.mem_iff.mp hid) with rfl | hid
    · exact .inr (by rw [wsidOf, henv]; rfl)
    · exact .inl hid
  · rw [heq] at hid
    have hids := (hm.perm_deleted (mem_of_wsidFindByIndex hfind).1).map WsidMap.wsid
    exact .inl (hids.mem_iff.mpr (List.mem_cons_of_mem _ hid))

theorem along_fresh (calls : List Call) (hm : Mapped h) (hundo : ∀ call ∈ calls, Undoes call)
    (hnodup : (calls.filterMap wsidOf).Nodup)
    (hnew : ∀ id ∈ calls.filterMap wsidOf, id ∉ (records h.mmioRoot).map WsidMap.wsid) :
    Along step (fun h call => Undoes call ∧ Fresh h call) h calls := by
  induction calls generalizing h with
  | nil => trivial
  | cons call calls ih =>
    have hfirst : Undoes call := hundo call List.mem_cons_self
    have hfresh : Fresh h call := fun id hid =>
      hnew id (List.mem_filterMap.mpr ⟨call, List.mem_cons_self, hid⟩)
    have hsub : ∀ {id}, id ∈ calls.filterMap wsidOf → id ∈ (call :: calls).filterMap wsidOf := by
      intro id hid
      obtain ⟨c, hc, heq⟩ := List.mem_filterMap.mp hid
      exact List.mem_filterMap.mpr ⟨c, List.mem_cons_of_mem _ hc, heq⟩
    refine ⟨⟨hfirst, hfresh⟩, ih (mapped_step hm hfirst hfresh)
      (fun c hc => hundo c (List.mem_cons_of_mem _ hc)) ?_ fun id hid hin => ?_⟩
    · exact hnodup.sublist ((List.sublist_cons_self call calls).filterMap wsidOf)
    · rcases ids_step hm hfirst hin with hin | hdrawn
      · exact hnew id (hsub hid) hin
      · rw [List.filterMap_cons_some hdrawn] at hnodup
        exact (List.nodup_cons.mp hnodup).1 hid

theorem map_of_find {env : MapEnv} {mmioNum : UInt32} {wm : WsidMap} (hcheck : env.check = .ok)
    (hfind : wsidFindByIndex h.mmioRoot mmioNum = some wm) :
    xfpgaFpgaMapMmio env h mmioNum true = (.ok, h, some wm.addr) := by
  rw [xfpgaFpgaMapMmio, if_neg (not_not.mpr hcheck), findOrMapWm, hfind]
  rfl

theorem map_of_none {env : MapEnv} {mmioNum : UInt32} (hv : Valid h.mmioRoot)
    (hcheck : env.check = .ok) (hnone : wsidFindByIndex h.mmioRoot mmioNum = none)
    {rinfo : OpaePortRegionInfo} {addr : UInt64} (hm : Maps env mmioNum rinfo addr)
    (hmem : env.mem = true) :
    xfpgaFpgaMapMmio env h mmioNum true =
      (.ok, recorded env h mmioNum rinfo addr, some addr) := by
  rw [xfpgaFpgaMapMmio, if_neg (not_not.mpr hcheck), findOrMapWm_maps hv hnone hm hmem]
  rfl

theorem unmap_of_find {env : UnmapEnv} {mmioNum : UInt32} {wm : WsidMap} (hcheck : env.check = .ok)
    (hfind : wsidFindByIndex h.mmioRoot mmioNum = some wm)
    (hmunmap : env.munmap wm.offset wm.len = true) :
    xfpgaFpgaUnmapMmio env h mmioNum = (.ok, deleted h wm) := by
  rw [xfpgaFpgaUnmapMmio, if_neg (not_not.mpr hcheck), hfind]
  dsimp only
  rw [hmunmap]
  rfl

theorem find_of_map {env : MapEnv} {mmioNum : UInt32} (hm : Mapped h)
    (hok : resultOf h (.map env mmioNum true) = .ok) :
    ∃ wm, wsidFindByIndex (step h (.map env mmioNum true)).mmioRoot mmioNum = some wm ∧
      (xfpgaFpgaMapMmio env h mmioNum true).2.2 = some wm.addr := by
  rw [step]
  rw [resultOf, xfpgaFpgaMapMmio] at hok
  rw [xfpgaFpgaMapMmio]
  by_cases hcheck : env.check = .ok
  swap
  · rw [if_pos hcheck] at hok
    exact absurd hok hcheck
  rw [if_neg (not_not.mpr hcheck)] at hok ⊢
  obtain ⟨wm, hfind, heq⟩ | ⟨hnone, rinfo, a, -, -, heq⟩ | ⟨-, -, result, h', heq, hres, -⟩ :=
    findOrMapWm_cases env hm.valid mmioNum
  · rw [heq]
    exact ⟨wm, hfind, rfl⟩
  · rw [heq]
    exact ⟨_, find_recorded hm.valid hnone rinfo a, rfl⟩
  · rw [heq] at hok
    exact absurd hok hres

end

theorem mapped_opened (flags : UInt32) (mem : UInt64 → UInt8) : Mapped (opened flags mem) :=
  ⟨(inv_opened flags mem).valid, fun _ he => absurd he List.not_mem_nil, .nil, List.nodup_nil,
    List.nodup_nil⟩

/-- The mappings are the entries of the table, at most one for each space. -/
def Entries (h : Handle) : Prop :=
  ((records h.mmioRoot).map fun wm => (wm.addr, wm.len)).Perm h.mappings ∧
    ((records h.mmioRoot).map WsidMap.index).Nodup

/-- What the calls give to whoever asks: the address of the entry for a space that is mapped, a new
mapping for one that is not and that can be mapped, and its unmapping. -/
structure Serves (h : Handle) : Prop where
  mapped : ∀ (env : MapEnv) (wm : WsidMap), wm ∈ records h.mmioRoot → env.check = .ok →
    xfpgaFpgaMapMmio env h wm.index true = (.ok, h, some wm.addr)
  unmapped : ∀ (env : MapEnv) (mmioNum : UInt32) rinfo addr, env.check = .ok →
    (∀ wm ∈ records h.mmioRoot, wm.index ≠ mmioNum) → Maps env mmioNum rinfo addr →
    env.mem = true →
    xfpgaFpgaMapMmio env h mmioNum true = (.ok, recorded env h mmioNum rinfo addr, some addr)
  unmap : ∀ (env : UnmapEnv) (wm : WsidMap), wm ∈ records h.mmioRoot → env.check = .ok →
    env.munmap wm.offset wm.len = true →
    xfpgaFpgaUnmapMmio env h wm.index = (.ok, deleted h wm)

theorem Mapped.serves {h : Handle} (hm : Mapped h) : Serves h :=
  ⟨fun _ _ hwm hcheck => map_of_find hcheck (hm.find_iff.mpr ⟨hwm, rfl⟩),
    fun _ _ _ _ hcheck hnone hmaps hmem =>
      map_of_none hm.valid hcheck (wsidFindByIndex_eq_none.mpr hnone) hmaps hmem,
    fun _ _ hwm hcheck hmunmap => unmap_of_find hcheck (hm.find_iff.mpr ⟨hwm, rfl⟩) hmunmap⟩

/-- Two calls that map a space, and between them no call that unmaps it, store one address: once
the first succeeds, the second does. -/
def KeepsAddress (start : Handle) (calls : List Call) : Prop :=
  ∀ before env between env' mmioNum,
    calls = before ++ .map env mmioNum true :: (between ++ [.map env' mmioNum true]) →
    let h := run step start before
    let h' := run step (step h (.map env mmioNum true)) between
    Along step (fun h call => ¬ Unmaps mmioNum h call) (step h (.map env mmioNum true)) between →
    resultOf h (.map env mmioNum true) = .ok → env'.check = .ok →
    ∃ addr, (xfpgaFpgaMapMmio env h mmioNum true).2.2 = some addr ∧
      xfpgaFpgaMapMmio env' h' mmioNum true = (.ok, h', some addr)

/-- Once a space is unmapped, the next call that names it and gets to the lookup maps it afresh if
the driver and memory allow it, and records nothing if it fails. -/
def MapsAfresh (start : Handle) (calls : List Call) : Prop :=
  ∀ before unmap between call mmioNum env, calls = before ++ unmap :: (between ++ [call]) →
    let h := run step start before
    let h' := run step (step h unmap) between
    Unmaps mmioNum h unmap → (∀ c ∈ between, spaceOf c ≠ mmioNum) →
    spaceOf call = mmioNum → mapEnvOf call = some env →
    (∀ wm ∈ records h'.mmioRoot, wm.index ≠ mmioNum) ∧
    (∀ rinfo addr, Reaches h' call → Maps env mmioNum rinfo addr → env.mem = true →
      SameMaps (recorded env h' mmioNum rinfo addr) (step h' call) ∧
        (offsetOf call ≤ rinfo.size → resultOf h' call = .ok)) ∧
    (Afresh env h' mmioNum (step h' call) ∨
      resultOf h' call ≠ .ok ∧ SameMaps h' (step h' call))

section

variable {start : Handle} {calls : List Call}

/-- What a call is promised: its undo succeeds, and its id is new. -/
abbrev Promised (h : Handle) (call : Call) : Prop := Undoes call ∧ Fresh h call

theorem mapped_run (hm : Mapped start) (hp : Along step Promised start calls) :
    Mapped (run step start calls) :=
  run_invariant (fun _ _ hm hp => mapped_step hm hp.1 hp.2) hm hp

theorem find_run {mmioNum : UInt32} {wm : WsidMap} (hm : Mapped start)
    (hp : Along step Promised start calls)
    (hkeep : Along step (fun h call => ¬ Unmaps mmioNum h call) start calls)
    (hfind : wsidFindByIndex start.mmioRoot mmioNum = some wm) :
    wsidFindByIndex (run step start calls).mmioRoot mmioNum = some wm := by
  induction calls generalizing start with
  | nil => exact hfind
  | cons call calls ih =>
    have hp' := hp.1
    exact ih (mapped_step hm hp'.1 hp'.2) hp.2 hkeep.2 (find_step hm hp'.1 hp'.2 hkeep.1 hfind)

theorem find_none_run {mmioNum : UInt32} (hm : Mapped start)
    (hp : Along step Promised start calls) (hother : ∀ call ∈ calls, spaceOf call ≠ mmioNum)
    (hnone : wsidFindByIndex start.mmioRoot mmioNum = none) :
    wsidFindByIndex (run step start calls).mmioRoot mmioNum = none := by
  induction calls generalizing start with
  | nil => exact hnone
  | cons call calls ih =>
    have hp' := hp.1
    exact ih (mapped_step hm hp'.1 hp'.2) hp.2 (fun c hc => hother c (List.mem_cons_of_mem _ hc))
      (find_none_step hm hp'.1 (hother call List.mem_cons_self) hnone)

theorem keepsAddress (hm : Mapped start) (hp : Along step Promised start calls) :
    KeepsAddress start calls := by
  rintro before env between env' mmioNum rfl h h' hkeep hok hcheck
  rw [along_append] at hp
  obtain ⟨hbefore, hmap, hrest⟩ := hp
  rw [along_append] at hrest
  have hmh : Mapped h := mapped_run hm hbefore
  obtain ⟨wm, hfind, hstored⟩ := find_of_map hmh hok
  have hfind' := find_run (mapped_step hmh hmap.1 hmap.2) hrest.1 hkeep hfind
  exact ⟨wm.addr, hstored, map_of_find hcheck hfind'⟩

theorem mapsAfresh (hm : Mapped start) (hp : Along step Promised start calls) :
    MapsAfresh start calls := by
  rintro before unmap between call mmioNum env rfl h h' hun hother rfl henv
  rw [along_append] at hp
  obtain ⟨hbefore, hunmap, hrest⟩ := hp
  rw [along_append] at hrest
  obtain ⟨hbetween, hlast, -⟩ := hrest
  have hmh : Mapped h := mapped_run hm hbefore
  have hmstep : Mapped (step h unmap) := mapped_step hmh hunmap.1 hunmap.2
  have hmh' : Mapped h' := mapped_run hmstep hbetween
  have hnone : wsidFindByIndex h'.mmioRoot (spaceOf call) = none :=
    find_none_run hmstep hbetween hother (find_none_of_unmaps hmh hunmap.1 hun)
  refine ⟨wsidFindByIndex_eq_none.mp hnone, fun rinfo addr hreach hmaps hmem =>
    maps_of_reaches hmh'.valid henv hreach hnone hmaps hmem, ?_⟩
  obtain ⟨hsame, hres⟩ | hfresh := maps_cases hmh'.valid henv hlast.1
  · refine .inr ⟨fun hok => ?_, hsame⟩
    obtain ⟨wm, hfind⟩ := hres hok
    exact absurd (hnone.symm.trans hfind) nofun
  · exact .inl hfresh

end

theorem one_mapping_per_space (flags : UInt32) (mem : UInt64 → UInt8) (calls : List Call)
    (hids : (calls.filterMap wsidOf).Nodup) (hundo : ∀ call ∈ calls, Undoes call) :
    Entries (run step (opened flags mem) calls) ∧ Serves (run step (opened flags mem) calls) ∧
      KeepsAddress (opened flags mem) calls ∧ MapsAfresh (opened flags mem) calls := by
  have hm := mapped_opened flags mem
  have hp : Along step Promised (opened flags mem) calls :=
    along_fresh calls hm hundo hids fun _ _ => List.not_mem_nil
  have hend := mapped_run hm hp
  exact ⟨⟨hend.perm, hend.indices⟩, hend.serves, keepsAddress hm hp, mapsAfresh hm hp⟩

def sampleCalls : List Call :=
  [.map pageEnv 0 true, .access { pageEnv with wsidGen := 2 } 0 8 .read64,
    .unmap ⟨.ok, fun _ _ => true⟩ 0, .access { pageEnv with wsidGen := 3 } 0 8 .read64]

theorem one_mapping_per_space_sample :
    Entries (run step (opened 0 0) sampleCalls) ∧ Serves (run step (opened 0 0) sampleCalls) ∧
      KeepsAddress (opened 0 0) sampleCalls ∧ MapsAfresh (opened 0 0) sampleCalls := by
  refine one_mapping_per_space 0 0 sampleCalls (by decide) fun call hcall env henv addr size => ?_
  simp only [sampleCalls, List.mem_cons, List.not_mem_nil, or_false] at hcall
  rcases hcall with rfl | rfl | rfl | rfl
  · exact (Option.some.inj henv) ▸ rfl
  · exact (Option.some.inj henv) ▸ rfl
  · exact nomatch henv
  · exact (Option.some.inj henv) ▸ rfl

end OpaeLibs.PluginXfpga.MmioRuns
