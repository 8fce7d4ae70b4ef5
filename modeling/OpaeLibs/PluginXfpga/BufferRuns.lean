import OpaeLibs.PluginXfpga.Buffer

namespace OpaeLibs.PluginXfpga.BufferRuns

open OpaeLibs.OpaeC.Props OpaeLibs.Lib.Runs
open OpaeLibs.PluginXfpga.WsidList OpaeLibs.PluginXfpga.Buffer

inductive Call where
  | prepare (env : PrepareEnv) (len : UInt64) (bufAddr : Option UInt64) (wsid : Bool)
      (flags : Int32)
  | release (env : ReleaseEnv) (wsid : UInt64)

def step (p : Port) : Call → Port
  | .prepare env len bufAddr wsid flags =>
    (xfpgaFpgaPrepareBuffer env p len bufAddr wsid flags).port
  | .release env wsid => (xfpgaFpgaReleaseBuffer env p wsid).2

/-- One record for each mapping in the driver. -/
def Matched (p : Port) : Prop := ((records p.wsidRoot).map WsidMap.phys).Perm p.mapped

/-- What a call is to leave behind. -/
structure Keeps (p : Port) (call : Call) : Prop where
  matched : Matched (step p call)
  failing : ∀ env len bufAddr wsid flags, call = .prepare env len bufAddr wsid flags →
    (xfpgaFpgaPrepareBuffer env p len bufAddr wsid flags).result ≠ .ok →
      (step p call).mapped = p.mapped
  retained : ∀ env wsid wm, call = .release env wsid → wsidFind p.wsidRoot wsid = some wm →
    env.portUnmap wm.phys = false → records (step p call).wsidRoot = records p.wsidRoot

/-- The call gets as far as the map ioctl, with the buffer `addr` of length `size`. -/
structure Reaches (env : PrepareEnv) (len : UInt64) (bufAddr : Option UInt64) (wsid : Bool)
    (flags : Int32) (addr size : UInt64) : Prop where
  check : env.check = .ok
  wsidPtr : wsid = true
  known : hasFlag flags (~~~(fpgaBufPreallocated ||| fpgaBufQuiet ||| fpgaBufReadOnly)) = false
  nonempty : len ≠ 0
  buffer : if hasFlag flags fpgaBufPreallocated then
      bufAddr = some addr ∧ addr ≠ 0 ∧ len &&& (env.pageSize - 1) = 0 ∧ size = len
    else
      bufAddr.isSome ∧ bufferAllocate env.mmap size = .ok addr ∧
        size = if len &&& (env.pageSize - 1) ≠ 0 then
          env.pageSize + (len &&& ~~~(env.pageSize - 1)) else len

/-- A buffer that was mapped can be recorded, and a record that is given up can be unmapped. -/
def Guard (p : Port) : Call → Prop
  | .prepare env len bufAddr wsid flags => ∀ addr size, Reaches env len bufAddr wsid flags addr size →
      (env.portMap addr size (hasFlag flags fpgaBufReadOnly)).isSome → env.mem = true
  | .release env wsid => env.check = .ok → ∀ wm, wsidFind p.wsidRoot wsid = some wm →
      env.portUnmap wm.phys = true

section Prepare

variable {env : PrepareEnv} {len : UInt64} {bufAddr : Option UInt64} {wsid : Bool} {flags : Int32}

theorem bufferToMap_ok_iff (addr size : UInt64) :
    bufferToMap env len bufAddr flags = .ok (addr, size) ↔
      len ≠ 0 ∧ if hasFlag flags fpgaBufPreallocated then
        bufAddr = some addr ∧ addr ≠ 0 ∧ len &&& (env.pageSize - 1) = 0 ∧ size = len
      else
        bufAddr.isSome ∧ bufferAllocate env.mmap size = .ok addr ∧
          size = if len &&& (env.pageSize - 1) ≠ 0 then
            env.pageSize + (len &&& ~~~(env.pageSize - 1)) else len := by
  unfold bufferToMap
  split
  case isTrue hpre =>
    cases bufAddr with
    | none => by_cases hlen : len = 0 <;> simp [hlen]
    | some a => grind
  case isFalse hpre =>
    cases bufAddr with
    | none => simp
    | some a =>
      by_cases hlen : len = 0
      · simp [hlen]
      · rw [if_neg hlen, and_iff_right hlen, Option.isSome_some, and_iff_right rfl]
        dsimp only
        generalize (if len &&& (env.pageSize - 1) ≠ 0 then
          env.pageSize + (len &&& ~~~(env.pageSize - 1)) else len) = rounded
        cases halloc : bufferAllocate env.mmap rounded with
        | error result =>
          constructor
          · exact nofun
          · rintro ⟨hok, rfl⟩
            rw [halloc] at hok
            exact absurd hok nofun
        | ok b => grind

theorem prepare_eq (p : Port) {addr size : UInt64}
    (h : Reaches env len bufAddr wsid flags addr size) :
    xfpgaFpgaPrepareBuffer env p len bufAddr wsid flags =
      mapAndRecord env p bufAddr addr size flags := by
  obtain ⟨hcheck, rfl, hknown, hlen, hbuf⟩ := h
  have hmap := (bufferToMap_ok_iff addr size).mpr ⟨hlen, hbuf⟩
  rw [xfpgaFpgaPrepareBuffer, if_neg (not_not.mpr hcheck), if_neg (by simp),
    if_neg (by simp [hknown]), hmap]

theorem prepare_cases (p : Port) (env : PrepareEnv) (len : UInt64) (bufAddr : Option UInt64)
    (wsid : Bool) (flags : Int32) :
    (xfpgaFpgaPrepareBuffer env p len bufAddr wsid flags).port = p ∨
      ∃ addr size, Reaches env len bufAddr wsid flags addr size := by
  rw [xfpgaFpgaPrepareBuffer]
  split_ifs with hcheck hwsid hknown
  · exact .inl rfl
  · exact .inl rfl
  · exact .inl rfl
  · cases hmap : bufferToMap env len bufAddr flags with
    | error result => exact .inl rfl
    | ok buffer =>
      obtain ⟨addr, size⟩ := buffer
      obtain ⟨hlen, hbuf⟩ := (bufferToMap_ok_iff addr size).mp hmap
      exact .inr ⟨addr, size, not_not.mp hcheck, by simpa using hwsid, by simpa using hknown,
        hlen, hbuf⟩

end Prepare

structure Inv (p : Port) : Prop where
  valid : Valid p.wsidRoot
  matched : Matched p

theorem Matched.length_eq {p : Port} (h : Matched p) :
    (records p.wsidRoot).length = p.mapped.length := by
  have hlen := List.Perm.length_eq h
  rwa [List.length_map] at hlen

theorem Keeps.of_eq {p : Port} {call : Call} (h : Inv p) (hstep : step p call = p) :
    Keeps p call where
  matched := by rw [hstep]; exact h.matched
  failing := fun _ _ _ _ _ _ _ => by rw [hstep]
  retained := fun _ _ _ _ _ _ => by rw [hstep]

section Prepare

variable {p : Port} {env : PrepareEnv} {len : UInt64} {bufAddr : Option UInt64} {wsid : Bool}
  {flags : Int32} {addr size : UInt64}

theorem mapAndRecord_refused (h : env.portMap addr size (hasFlag flags fpgaBufReadOnly) = none) :
    mapAndRecord env p bufAddr addr size flags = ⟨.invalidParam, p, bufAddr, none⟩ := by
  rw [mapAndRecord, h]

theorem mapAndRecord_unrecorded {ioAddr : UInt64}
    (h : env.portMap addr size (hasFlag flags fpgaBufReadOnly) = some ioAddr)
    (hmem : env.mem = false) :
    mapAndRecord env p bufAddr addr size flags =
      ⟨.noMemory, { p with mapped := ioAddr :: p.mapped }, bufAddr, some env.wsidGen⟩ := by
  rw [mapAndRecord, h, hmem]
  rfl

theorem mapAndRecord_recorded {ioAddr : UInt64}
    (h : env.portMap addr size (hasFlag flags fpgaBufReadOnly) = some ioAddr)
    (hmem : env.mem = true) :
    mapAndRecord env p bufAddr addr size flags =
      ⟨.ok, ⟨(wsidAdd true p.wsidRoot env.wsidGen addr ioAddr size 0 0 flags).2,
        ioAddr :: p.mapped⟩, some addr, some env.wsidGen⟩ := by
  rw [mapAndRecord, h, hmem]
  rfl

theorem Inv.recorded (h : Inv p) (wsid addr ioAddr size : UInt64) (flags : Int32) :
    Inv ⟨(wsidAdd true p.wsidRoot wsid addr ioAddr size 0 0 flags).2, ioAddr :: p.mapped⟩ := by
  refine ⟨(wsidAdd_spec h.valid _ _ _ _ _ _ _).1, ?_⟩
  have hperm := (wsidAdd_records h.valid wsid addr ioAddr size 0 0 flags).map WsidMap.phys
  exact hperm.trans (h.matched.cons ioAddr)

theorem not_guard_prepare (h : Inv p)
    (hg : ¬ Guard p (.prepare env len bufAddr wsid flags)) :
    ¬ Keeps p (.prepare env len bufAddr wsid flags) := by
  simp only [Guard, not_forall] at hg
  obtain ⟨addr, size, hreach, hmap, hmem⟩ := hg
  obtain ⟨ioAddr, hio⟩ := Option.isSome_iff_exists.mp hmap
  intro hkeeps
  have hlen := hkeeps.matched.length_eq
  rw [step, prepare_eq p hreach, mapAndRecord_unrecorded hio (by simpa using hmem),
    List.length_cons, h.matched.length_eq] at hlen
  exact absurd hlen (Nat.ne_of_lt (Nat.lt_succ_self _))

theorem guard_prepare (h : Inv p) (hg : Guard p (.prepare env len bufAddr wsid flags)) :
    Keeps p (.prepare env len bufAddr wsid flags) ∧
      Inv (step p (.prepare env len bufAddr wsid flags)) := by
  obtain hp | ⟨addr, size, hreach⟩ := prepare_cases p env len bufAddr wsid flags
  · exact ⟨.of_eq h hp, by rw [step, hp]; exact h⟩
  · have heq := prepare_eq p hreach
    cases hio : env.portMap addr size (hasFlag flags fpgaBufReadOnly) with
    | none =>
      rw [mapAndRecord_refused hio] at heq
      have hstep : step p (.prepare env len bufAddr wsid flags) = p := by rw [step, heq]
      exact ⟨.of_eq h hstep, by rw [hstep]; exact h⟩
    | some ioAddr =>
      rw [mapAndRecord_recorded hio (hg addr size hreach (by rw [hio]; rfl))] at heq
      have hinv := h.recorded env.wsidGen addr ioAddr size flags
      have hstep : Inv (step p (.prepare env len bufAddr wsid flags)) := by
        rw [step, heq]
        exact hinv
      refine ⟨⟨hstep.matched, ?_, nofun⟩, hstep⟩
      rintro _ _ _ _ _ ⟨⟩ hne
      rw [heq] at hne
      exact absurd rfl hne

end Prepare

section Release

variable {p : Port} {env : ReleaseEnv} {wsid : UInt64}

theorem release_cases (p : Port) (env : ReleaseEnv) (wsid : UInt64) :
    ((xfpgaFpgaReleaseBuffer env p wsid).2 = p ∧
      (env.check = .ok → wsidFind p.wsidRoot wsid = none)) ∨
    (env.check = .ok ∧ ∃ wm, wsidFind p.wsidRoot wsid = some wm ∧
      (xfpgaFpgaReleaseBuffer env p wsid).2 = ⟨(wsidDel p.wsidRoot wsid).2,
        if env.portUnmap wm.phys then p.mapped.erase wm.phys else p.mapped⟩) := by
  rw [xfpgaFpgaReleaseBuffer]
  by_cases hcheck : env.check = .ok
  · rw [if_neg (not_not.mpr hcheck)]
    cases hf : wsidFind p.wsidRoot wsid with
    | none => exact .inl ⟨rfl, fun _ => rfl⟩
    | some wm =>
      refine .inr ⟨hcheck, wm, rfl, ?_⟩
      by_cases hu : env.portUnmap wm.phys = true
      · rw [if_pos hu]
        dsimp only
        rw [if_neg (by simp [hu])]
        split <;> rfl
      · simp [hu, wsFree]
  · rw [if_pos hcheck]
    exact .inl ⟨rfl, fun h => absurd h hcheck⟩

theorem Inv.released (h : Inv p) {wm : WsidMap} (hf : wsidFind p.wsidRoot wsid = some wm) :
    Inv ⟨(wsidDel p.wsidRoot wsid).2, p.mapped.erase wm.phys⟩ := by
  refine ⟨(wsidDel_spec h.valid wsid).2.1, ?_⟩
  have hrecords := (wsidDel_records h.valid hf).map WsidMap.phys
  have herase := (hrecords.symm.trans h.matched).erase wm.phys
  rwa [List.map_cons, List.erase_cons_head] at herase

theorem guard_release_iff (h : Inv p) :
    Keeps p (.release env wsid) ↔ Guard p (.release env wsid) := by
  obtain ⟨hp, hnone⟩ | ⟨hcheck, wm, hf, hp⟩ := release_cases p env wsid
  · refine iff_of_true (.of_eq h hp) fun hcheck wm hf => ?_
    rw [hnone hcheck] at hf
    exact absurd hf nofun
  · have hguard : Guard p (.release env wsid) ↔ env.portUnmap wm.phys = true := by
      refine ⟨fun hg => hg hcheck wm hf, fun hu _ wm' hf' => ?_⟩
      rw [hf] at hf'
      rwa [← Option.some.inj hf']
    rw [hguard]
    cases hu : env.portUnmap wm.phys with
    | false =>
      -- the record is gone, the mapping is not
      refine iff_of_false (fun hkeeps => ?_) Bool.false_ne_true
      have hlen := hkeeps.matched.length_eq
      have hrecords := (wsidDel_records h.valid hf).length_eq
      rw [step, hp, hu, if_neg Bool.false_ne_true, ← h.matched.length_eq, hrecords,
        List.length_cons] at hlen
      exact absurd hlen (Nat.ne_of_lt (Nat.lt_succ_self _))
    | true =>
      refine iff_of_true ⟨?_, nofun, ?_⟩ rfl
      · rw [step, hp, hu, if_pos rfl]
        exact (h.released hf).matched
      · rintro _ _ wm' ⟨⟩ hf' hno
        rw [hf] at hf'
        rw [← Option.some.inj hf', hu] at hno
        exact absurd hno Bool.noConfusion

theorem inv_release (h : Inv p) (hg : Guard p (.release env wsid)) :
    Inv (step p (.release env wsid)) := by
  obtain ⟨hp, -⟩ | ⟨hcheck, wm, hf, hp⟩ := release_cases p env wsid
  · rw [step, hp]
    exact h
  · rw [step, hp, hg hcheck wm hf, if_pos rfl]
    exact h.released hf

end Release

theorem keeps_iff (p : Port) (call : Call) (h : Inv p) : Keeps p call ↔ Guard p call := by
  cases call with
  | prepare env len bufAddr wsid flags =>
    exact ⟨fun hk => by_contra fun hg => not_guard_prepare h hg hk,
      fun hg => (guard_prepare h hg).1⟩
  | release env wsid => exact guard_release_iff h

theorem inv_step (p : Port) (call : Call) (h : Inv p) (hg : Guard p call) : Inv (step p call) := by
  cases call with
  | prepare env len bufAddr wsid flags => exact (guard_prepare h hg).2
  | release env wsid => exact inv_release h hg

def opened : Port := ⟨⟨16384, List.replicate 16384 []⟩, []⟩

theorem opened_init : wsidTrackerInit (true, true) 16384 = some opened.wsidRoot := by
  rw [wsidTrackerInit, if_neg (by decide)]
  rfl

theorem inv_opened : Inv opened := by
  obtain ⟨root, hinit, hvalid, -⟩ := wsidTrackerInit_spec (n := 16384) (by decide) (by decide)
  rw [opened_init] at hinit
  obtain rfl := Option.some.inj hinit
  refine ⟨hvalid, ?_⟩
  rw [Matched, records, opened, List.flatten_replicate_nil]
  exact .refl _

theorem buffers_keep_iff (calls : List Call) :
    Along step Keeps opened calls ↔ Along step Guard opened calls :=
  along_iff inv_step keeps_iff calls inv_opened

def preparePage (mem : Bool) : Call :=
  .prepare ⟨.ok, 4096, fun _ _ => .mapped 0x700000000000, fun _ _ _ => some 0x10000, 1, mem⟩
    4096 (some 0) true 0

def releaseRefused : Call := .release ⟨.ok, fun _ _ => true, fun _ => false⟩ 1

/-- A mapping without its record, after a `malloc` that failed and after an unmap ioctl that did. -/
theorem mapping_left_behind :
    ((step opened (preparePage false)).mapped = [0x10000] ∧
      records (step opened (preparePage false)).wsidRoot = []) ∧
    ¬ Along step Keeps opened [preparePage false] ∧
    ¬ Along step Keeps opened [preparePage true, releaseRefused] := by
  refine ⟨⟨rfl, List.flatten_replicate_nil⟩, ?_, ?_⟩
  · rintro ⟨hkeeps, -⟩
    have hguard := (keeps_iff opened _ inv_opened).mp hkeeps
    have hreach : Reaches ⟨.ok, 4096, fun _ _ => .mapped 0x700000000000,
        fun _ _ _ => some 0x10000, 1, false⟩ 4096 (some 0) true 0 0x700000000000 4096 :=
      ⟨rfl, rfl, by decide, by decide, by decide⟩
    exact absurd (hguard _ _ hreach rfl) Bool.false_ne_true
  · rintro ⟨hfirst, hsecond, -⟩
    have hinv := inv_step opened _ inv_opened ((keeps_iff opened _ inv_opened).mp hfirst)
    have hguard := (keeps_iff _ _ hinv).mp hsecond
    have hfound : (wsidFind (step opened (preparePage true)).wsidRoot 1).isSome := by decide
    obtain ⟨wm, hwm⟩ := Option.isSome_iff_exists.mp hfound
    exact absurd (hguard rfl wm hwm) Bool.false_ne_true

end OpaeLibs.PluginXfpga.BufferRuns
