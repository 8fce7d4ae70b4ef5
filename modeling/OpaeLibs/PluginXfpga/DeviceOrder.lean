import OpaeLibs.PluginXfpga.DeviceProbes

namespace OpaeLibs.PluginXfpga.DeviceOrder

open OpaeLibs.Lib.Filling OpaeLibs.OpaeC.Props OpaeLibs.PluginXfpga.DeviceProbes
open OpaeLibs.PluginXfpga.SysfsInit
open OpaeLibs.PluginXfpga.Sysfs (Name Driver IdFile)

section Conditions

variable (env : InitEnv) (drv : Driver)

/-- No entry takes over what an entry that fails leaves over. -/
def Harmless (entries : List DirName) : Prop :=
  ∀ n ∈ entries, ∀ p, probed env drv n = some p → p.res = .ok →
    ∀ type, LeftOver env drv entries type → (p.own type).isSome

/-- The entries of a class directory that the order of does not matter: either all match or no
device is built, no region of an entry that fails gets into another device, and the table has room
for the devices and one more entry if any fails. -/
structure Orderly (entries : List DirName) : Prop where
  matched : built (verdict env drv) entries ≠ [] →
    ∀ n ∈ entries, ∀ e, verdict env drv n ≠ .refused e
  harmless : Harmless env drv entries
  room : (built (verdict env drv) entries).length ≤ sysfsMaxDevices
  spare : (∃ n ∈ entries, verdict env drv n = .failed) →
    (built (verdict env drv) entries).length < sysfsMaxDevices

/-- The devices that are built of the entries so far, with the regions that are left over. -/
structure Filled (entries l : List DirName) (s : InitState) : Prop where
  count : s.count = (built (verdict env drv) l).length
  table : (List.range s.count).map s.table = built (verdict env drv) l
  left : ∀ type k, s.count ≤ k → (region (s.table k) type).isSome → LeftOver env drv entries type
  res : s.res = statusOf (verdict env drv) .ok l .ok

end Conditions

section Steps

variable {env : InitEnv} {drv : Driver} {entries l : List DirName} {s s' : InitState} {n : DirName}

theorem initStep_cases (h : initStep env drv s n = some s') :
    (verdict env drv n = .skipped ∧ s' = s) ∨
    (∃ e : FpgaError, verdict env drv n = .refused e.val ∧ s' = { s with res := e.val }) ∨
    ∃ num, isDots n.val = false ∧ reMatchDevice drv n.val = .ok num ∧ s.count < sysfsMaxDevices ∧
      s' = ⟨Function.update s.table s.count (makeDevice env drv (s.table s.count) n.val num).1,
        if (makeDevice env drv (s.table s.count) n.val num).2 = .ok then s.count + 1 else s.count,
        .ok⟩ := by
  cases hdots : isDots n.val with
  | true =>
    rw [initStep, hdots, if_pos rfl] at h
    exact .inl ⟨by rw [verdict, hdots, if_pos rfl], (Option.some_inj.mp h).symm⟩
  | false =>
    rw [verdict, hdots, if_neg Bool.false_ne_true]
    rw [initStep, hdots, if_neg Bool.false_ne_true] at h
    cases hmatch : reMatchDevice drv n.val with
    | error e =>
      rw [hmatch] at h
      exact .inr (.inl ⟨e, rfl, (Option.some_inj.mp h).symm⟩)
    | ok num =>
      rw [hmatch] at h
      dsimp only at h
      split at h
      · cases h
      · next hroom =>
        exact .inr (.inr ⟨num, rfl, rfl, Nat.lt_of_not_le hroom, (Option.some_inj.mp h).symm⟩)

theorem exists_initStep (hroom : verdict env drv n = .failed ∨
    (∃ d, verdict env drv n = .built d) → s.count < sysfsMaxDevices) :
    ∃ s', initStep env drv s n = some s' := by
  rw [verdict] at hroom
  rw [initStep]
  split
  · exact ⟨s, rfl⟩
  · next hdots =>
    rw [if_neg hdots] at hroom
    cases hmatch : reMatchDevice drv n.val with
    | error e => exact ⟨_, rfl⟩
    | ok num =>
      rw [hmatch] at hroom
      dsimp only at hroom ⊢
      rw [if_neg]
      · exact ⟨_, rfl⟩
      · apply Nat.not_le.mpr
        apply hroom
        cases probe env drv n.val num with
        | none => exact .inl rfl
        | some p =>
          dsimp only
          split
          · exact .inr ⟨_, rfl⟩
          · exact .inl rfl

theorem initStep_of_probed {p : Probe} (hp : probed env drv n = some p)
    (h : initStep env drv s n = some s') :
    s' = ⟨Function.update s.table s.count (p.on (s.table s.count).fme (s.table s.count).port).1,
      if (p.on (s.table s.count).fme (s.table s.count).port).2 = .ok then s.count + 1 else s.count,
      .ok⟩ := by
  have hverdict := verdict_of_probed hp
  rcases initStep_cases h with ⟨hskip, -⟩ | ⟨e, hrefuse, -⟩ | ⟨num, hdots, hmatch, -, rfl⟩
  · rw [hskip] at hverdict
    split at hverdict <;> exact nomatch hverdict
  · rw [hrefuse] at hverdict
    split at hverdict <;> exact nomatch hverdict
  · rw [probed_of_match hdots hmatch] at hp
    rw [makeDevice_of_probe hp]

theorem Filled.fail (h : Filled env drv entries l s) (hfail : verdict env drv n = .failed)
    {dev : SysfsFpgaDevice}
    (hleft : ∀ type, (region dev type).isSome → LeftOver env drv entries type) :
    Filled env drv entries (l ++ [n]) ⟨Function.update s.table s.count dev, s.count, .ok⟩ := by
  have hbuilt : built (verdict env drv) (l ++ [n]) = built (verdict env drv) l :=
    built_concat_none (by rw [hfail]; rfl)
  constructor
  · rw [hbuilt]
    exact h.count
  · rw [hbuilt, map_update]
    exact h.table
  · intro type k hk hsome
    dsimp only at hk hsome
    by_cases hlast : k = s.count
    · rw [hlast, Function.update_self] at hsome
      exact hleft type hsome
    · rw [Function.update_of_ne hlast] at hsome
      exact h.left type k hk hsome
  · rw [statusOf_concat, hfail]
    rfl

theorem Filled.build (h : Filled env drv entries l s) {d : SysfsFpgaDevice}
    (hbuild : verdict env drv n = .built d) :
    Filled env drv entries (l ++ [n]) ⟨Function.update s.table s.count d, s.count + 1, .ok⟩ := by
  constructor
  · rw [built_concat hbuild, List.length_append, h.count]
    rfl
  · rw [built_concat hbuild, map_update_succ, h.table]
  · intro type k hk hsome
    dsimp only at hk hsome
    rw [Function.update_of_ne (by omega)] at hsome
    exact h.left type k (by omega) hsome
  · rw [statusOf_concat, hbuild]
    rfl

theorem Filled.pass (h : Filled env drv entries l s) (hnone : (verdict env drv n).result = none)
    {res : FpgaResult} (hres : (verdict env drv n).status .ok s.res = res) :
    Filled env drv entries (l ++ [n]) { s with res := res } := by
  have hbuilt := built_concat_none (l := l) hnone
  constructor
  · rw [hbuilt]
    exact h.count
  · rw [hbuilt]
    exact h.table
  · exact h.left
  · rw [statusOf_concat, ← h.res, hres]

theorem Filled.step (h : Filled env drv entries l s) (hn : n ∈ entries)
    (hharmless : ∀ p, probed env drv n = some p → p.res = .ok →
      ∀ type, LeftOver env drv entries type → (p.own type).isSome)
    (hstep : initStep env drv s n = some s') : Filled env drv entries (l ++ [n]) s' := by
  have hleft (type : FpgaObjtype) := h.left type s.count (Nat.le_refl _)
  rcases initStep_cases hstep with ⟨hskip, rfl⟩ | ⟨e, hrefuse, rfl⟩ | ⟨num, hdots, hmatch, -, rfl⟩
  · exact h.pass (by rw [hskip]; rfl) (by rw [hskip]; rfl)
  · exact h.pass (by rw [hrefuse]; rfl) (by rw [hrefuse]; rfl)
  · have hprobed : probed env drv n = _ := probed_of_match hdots hmatch
    have hverdict : verdict env drv n = _ := verdict_of_match hdots hmatch
    cases hprobe : probe env drv n.val num with
    | none =>
      rw [hprobe] at hverdict
      obtain ⟨hres, hregion⟩ := makeDevice_of_none hprobe (s.table s.count)
      rw [if_neg hres]
      refine h.fail hverdict fun type hsome => ?_
      rw [hregion] at hsome
      exact hleft type hsome
    | some p =>
      rw [hprobe] at hprobed hverdict
      dsimp only at hverdict
      rw [makeDevice_of_probe hprobe]
      by_cases hres : p.res = .ok
      · rw [Probe.on_congr fun type hsome => hharmless p hprobed hres type (hleft type hsome)]
        by_cases hown : (p.on none none).2 = .ok
        · rw [if_pos hown] at hverdict ⊢
          exact h.build hverdict
        · rw [if_neg hown] at hverdict ⊢
          refine h.fail hverdict fun type hsome => ?_
          rw [p.on_none hres hown type] at hsome
          exact nomatch hsome
      · rw [if_neg (p.on_error hres _ _)] at hverdict ⊢
        refine h.fail hverdict fun type hsome => ?_
        rw [p.region_on] at hsome
        cases hown : p.own type with
        | none =>
          rw [hown] at hsome
          exact hleft type hsome
        | some region =>
          rw [hown] at hsome
          exact ⟨n, hn, p, hprobed, hres, by rw [hown]; exact hsome⟩

end Steps

section Runs

variable {env : InitEnv} {drv : Driver} {entries l rest : List DirName} {s s' : InitState}

theorem Filled.run (hharmless : Harmless env drv entries) (hrest : rest ⊆ entries)
    (h : Filled env drv entries l s) (hloop : initLoop env drv rest s = some s') :
    Filled env drv entries (l ++ rest) s' := by
  induction rest generalizing l s with
  | nil =>
    obtain rfl := Option.some_inj.mp hloop
    rwa [List.append_nil]
  | cons n rest ih =>
    obtain ⟨s₁, hstep, hloop⟩ := Option.bind_eq_some_iff.mp hloop
    obtain ⟨hn, hrest⟩ := List.cons_subset.mp hrest
    have hfilled := ih hrest (h.step hn (hharmless n hn) hstep) hloop
    rwa [List.append_assoc, List.singleton_append] at hfilled

theorem Filled.exists_run (horder : Orderly env drv entries)
    (hperm : (l ++ rest).Perm entries) (h : Filled env drv entries l s) :
    ∃ s', initLoop env drv rest s = some s' := by
  induction rest generalizing l s with
  | nil => exact ⟨s, rfl⟩
  | cons n rest ih =>
    have hn : n ∈ entries :=
      hperm.mem_iff.mp (List.mem_append_right _ List.mem_cons_self)
    have hlen : (built (verdict env drv) entries).length =
        s.count + (built (verdict env drv) (n :: rest)).length := by
      rw [← (built_perm (verdict env drv) hperm).length_eq, built_append, List.length_append, h.count]
    have hroom : verdict env drv n = .failed ∨ (∃ d, verdict env drv n = .built d) →
        s.count < sysfsMaxDevices := by
      rintro (hfailed | ⟨d, hbuilt⟩)
      · have hspare := horder.spare ⟨n, hn, hfailed⟩
        omega
      · have hmax := horder.room
        have hpos : 0 < (built (verdict env drv) (n :: rest)).length :=
          List.length_pos_of_mem (List.mem_filterMap.mpr
            ⟨n, List.mem_cons_self, by rw [hbuilt]; rfl⟩)
        omega
    obtain ⟨s₁, hstep⟩ := exists_initStep hroom
    have happend : l ++ n :: rest = l ++ [n] ++ rest := by
      rw [List.append_assoc, List.singleton_append]
    rw [happend] at hperm
    rw [initLoop, hstep]
    exact ih hperm (h.step hn (horder.harmless n hn) hstep)

theorem initLoop_append (l l' : List DirName) (s : InitState) :
    initLoop env drv (l ++ l') s = (initLoop env drv l s).bind (initLoop env drv l') := by
  induction l generalizing s with
  | nil => rfl
  | cons n l ih =>
    rw [List.cons_append, initLoop, initLoop, Option.bind_assoc]
    exact Option.bind_congr fun s' _ => ih s'

end Runs

section Advances

variable {env : InitEnv} {drv : Driver} {l l' : List DirName} {s s₁ s' : InitState} {n : DirName}

/-- What any step does, whatever is in the table: slots that are filled stay, a new one has the name
of the entry, and an entry that can be built on its own is. -/
structure Advances (env : InitEnv) (drv : Driver) (l : List DirName) (s s' : InitState) : Prop where
  count : s.count + (built (verdict env drv) l).length ≤ s'.count
  room : s.count ≤ sysfsMaxDevices → s'.count ≤ sysfsMaxDevices
  same : ∀ k, k < s.count → s'.table k = s.table k
  new : ∀ k, k < s'.count → k < s.count ∨ ∃ n ∈ l, (s'.table k).sysfsName = n.val

theorem advances_step (h : initStep env drv s n = some s') : Advances env drv [n] s s' := by
  have hbuilt (hnone : (verdict env drv n).result = none) : built (verdict env drv) [n] = [] :=
    built_concat_none (l := []) hnone
  rcases initStep_cases h with ⟨hskip, rfl⟩ | ⟨e, hrefuse, rfl⟩ |
    ⟨num, hdots, hmatch, hroom, rfl⟩
  · refine ⟨?_, id, fun _ _ => rfl, fun k hk => .inl hk⟩
    rw [hbuilt (by rw [hskip]; rfl)]
    exact Nat.le_refl _
  · refine ⟨?_, id, fun _ _ => rfl, fun k hk => .inl hk⟩
    rw [hbuilt (by rw [hrefuse]; rfl)]
    exact Nat.le_refl _
  · constructor
    · cases hresult : (verdict env drv n).result with
      | none =>
        rw [hbuilt hresult]
        dsimp only
        split
        · exact Nat.le_succ _
        · exact Nat.le_refl _
      | some d =>
        have hverdict : verdict env drv n = .built d := by
          cases hverdict : verdict env drv n with
          | built d' =>
            rw [hverdict] at hresult
            rw [Option.some_inj.mp hresult]
          | _ =>
            rw [hverdict] at hresult
            exact nomatch hresult
        have hone : built (verdict env drv) [n] = [d] := built_concat (l := []) hverdict
        rw [hone, if_pos (makeDevice_of_built hdots hmatch hverdict _)]
        exact Nat.le_refl _
    · intro _
      dsimp only
      split
      · exact hroom
      · exact Nat.le_of_lt hroom
    · exact fun k hk => Function.update_of_ne (Nat.ne_of_lt hk) ..
    · intro k hk
      dsimp only at hk ⊢
      by_cases hlast : k = s.count
      · rw [hlast, Function.update_self]
        rw [hlast] at hk
        split at hk
        · next hok => exact .inr ⟨n, List.mem_cons_self, makeDevice_name n num _ hok⟩
        · exact absurd hk (Nat.lt_irrefl _)
      · split at hk
        · exact .inl (by omega)
        · exact .inl hk

theorem Advances.trans (h : Advances env drv l s s₁) (h' : Advances env drv l' s₁ s') :
    Advances env drv (l ++ l') s s' := by
  have hle : s.count ≤ s₁.count := Nat.le_trans (Nat.le_add_right _ _) h.count
  constructor
  · rw [built_append, List.length_append, ← Nat.add_assoc]
    exact Nat.le_trans (Nat.add_le_add_right h.count _) h'.count
  · exact fun hroom => h'.room (h.room hroom)
  · intro k hk
    rw [h'.same k (Nat.lt_of_lt_of_le hk hle), h.same k hk]
  · intro k hk
    rcases h'.new k hk with hk₁ | ⟨n, hn, hname⟩
    · rcases h.new k hk₁ with hk | ⟨n, hn, hname⟩
      · exact .inl hk
      · exact .inr ⟨n, List.mem_append_left _ hn, by rw [h'.same k hk₁, hname]⟩
    · exact .inr ⟨n, List.mem_append_right _ hn, hname⟩

theorem advances_loop (h : initLoop env drv l s = some s') : Advances env drv l s s' := by
  induction l generalizing s with
  | nil =>
    obtain rfl := Option.some_inj.mp h
    exact ⟨Nat.le_refl _, id, fun _ _ => rfl, fun k hk => .inl hk⟩
  | cons n l ih =>
    obtain ⟨s₁, hstep, hrest⟩ := Option.bind_eq_some_iff.mp h
    exact (advances_step hstep).trans (ih hrest)

end Advances

section Orders

variable {env : InitEnv} {drv : Driver} {entries : List DirName}

def emptyTable : Nat → SysfsFpgaDevice := fun _ =>
  { sysfsPath := [], sysfsName := [], number := 0, fme := none, port := none, segment := 0,
    bus := 0, device := 0, function := 0, deviceId := 0, vendorId := 0 }

/-- The tables at the beginning of a discovery: each one before it has found the same entries, in
some order, and its devices have been destroyed. -/
inductive Discovered (env : InitEnv) (entries : List DirName) : (Nat → SysfsFpgaDevice) → Prop
  | start : Discovered env entries emptyTable
  | again {table table' : Nat → SysfsFpgaDevice} {order : List DirName} {res : FpgaResult}
      {devices : List SysfsFpgaDevice} :
      Discovered env entries table → order.Perm entries →
      sysfsInitialize env table order = some (res, devices, table') →
      Discovered env entries (sysfsFinalize table' devices.length)

/-- Every two orders of the entries give the same result and the same devices, within the table, and
the result is `FPGA_OK` if there are any. -/
def OrderFree (env : InitEnv) (table : Nat → SysfsFpgaDevice) (entries : List DirName) : Prop :=
  ∀ o₁ o₂, o₁.Perm entries → o₂.Perm entries →
    ∃ r₁ r₂, sysfsInitialize env table o₁ = some r₁ ∧ sysfsInitialize env table o₂ = some r₂ ∧
      r₁.1 = r₂.1 ∧ r₁.2.1.Perm r₂.2.1 ∧ (r₁.2.1 ≠ [] → r₁.1 = .ok)

theorem sysfsInitialize_of_loop (hdriver : openDriver env = .ok drv)
    {table : Nat → SysfsFpgaDevice} {s : InitState}
    (hloop : initLoop env drv entries ⟨table, 0, .ok⟩ = some s) :
    sysfsInitialize env table entries =
      some (if s.count = 0 then .noDriver else s.res, (List.range s.count).map s.table,
        s.table) := by
  rw [sysfsInitialize, hdriver]
  dsimp only
  rw [hloop, Option.map_some]

theorem loop_of_sysfsInitialize (hdriver : openDriver env = .ok drv)
    {table : Nat → SysfsFpgaDevice} {r : FpgaResult × List SysfsFpgaDevice × (Nat → SysfsFpgaDevice)}
    (h : sysfsInitialize env table entries = some r) :
    ∃ s, initLoop env drv entries ⟨table, 0, .ok⟩ = some s ∧
      r = (if s.count = 0 then .noDriver else s.res, (List.range s.count).map s.table,
        s.table) := by
  rw [sysfsInitialize, hdriver] at h
  obtain ⟨s, hloop, rfl⟩ := Option.map_eq_some_iff.mp h
  exact ⟨s, hloop, rfl⟩

theorem filled_start {table : Nat → SysfsFpgaDevice}
    (hleft : ∀ type k, (region (table k) type).isSome → LeftOver env drv entries type) :
    Filled env drv entries [] ⟨table, 0, .ok⟩ :=
  ⟨rfl, rfl, fun type k _ => hleft type k, rfl⟩

theorem region_emptyTable (type : FpgaObjtype) (k : Nat) :
    region (emptyTable k) type = none := by
  cases type <;> rfl

theorem Discovered.left {table : Nat → SysfsFpgaDevice} (hdriver : openDriver env = .ok drv)
    (hharmless : Harmless env drv entries) (h : Discovered env entries table) :
    ∀ type k, (region (table k) type).isSome → LeftOver env drv entries type := by
  induction h with
  | start =>
    intro type k hsome
    rw [region_emptyTable] at hsome
    exact nomatch hsome
  | again hdiscovered hperm hinit ih =>
    obtain ⟨s, hloop, hr⟩ := loop_of_sysfsInitialize hdriver hinit
    simp only [Prod.mk.injEq] at hr
    obtain ⟨-, rfl, rfl⟩ := hr
    have hfilled := (filled_start ih).run hharmless hperm.subset hloop
    intro type k hsome
    rw [sysfsFinalize, List.length_map, List.length_range] at hsome
    split at hsome
    · cases type <;> exact nomatch hsome
    · next hk => exact hfilled.left type k (Nat.le_of_not_lt hk) hsome

theorem Orderly.discovery (horder : Orderly env drv entries) (hdriver : openDriver env = .ok drv)
    {table : Nat → SysfsFpgaDevice}
    (hleft : ∀ type k, (region (table k) type).isSome → LeftOver env drv entries type)
    {order : List DirName} (hperm : order.Perm entries) :
    ∃ table', sysfsInitialize env table order =
      some (if built (verdict env drv) entries = [] then .noDriver else .ok,
        built (verdict env drv) order, table') := by
  have hstart := filled_start hleft
  obtain ⟨s, hloop⟩ := hstart.exists_run (l := []) horder hperm
  have hfilled := hstart.run horder.harmless hperm.subset hloop
  rw [List.nil_append] at hfilled
  have hbuilt := built_perm (verdict env drv) hperm
  have hcount : s.count = 0 ↔ built (verdict env drv) entries = [] := by
    rw [hfilled.count, hbuilt.length_eq, List.length_eq_zero_iff]
  refine ⟨s.table, ?_⟩
  rw [sysfsInitialize_of_loop hdriver hloop, hfilled.table]
  congr 2
  by_cases hnone : built (verdict env drv) entries = []
  · rw [if_pos hnone, if_pos (hcount.mpr hnone)]
  · rw [if_neg hnone, if_neg (mt hcount.mp hnone), hfilled.res]
    exact statusOf_ok fun n hn => horder.matched hnone n (hperm.subset hn)

theorem Orderly.orderFree (horder : Orderly env drv entries) (hdriver : openDriver env = .ok drv)
    {table : Nat → SysfsFpgaDevice} (hdiscovered : Discovered env entries table) :
    OrderFree env table entries := by
  intro o₁ o₂ h₁ h₂
  have hleft := hdiscovered.left hdriver horder.harmless
  obtain ⟨t₁, hinit₁⟩ := horder.discovery hdriver hleft h₁
  obtain ⟨t₂, hinit₂⟩ := horder.discovery hdriver hleft h₂
  refine ⟨_, _, hinit₁, hinit₂, rfl, built_perm _ (h₁.trans h₂.symm), fun hne => ?_⟩
  refine if_neg fun hnone => hne ?_
  have hbuilt := built_perm (verdict env drv) h₁
  rw [hnone] at hbuilt
  exact hbuilt.eq_nil

end Orders

section Converse

variable {env : InitEnv} {drv : Driver} {entries : List DirName}

theorem OrderFree.loop (hfree : OrderFree env emptyTable entries)
    (hdriver : openDriver env = .ok drv) {order : List DirName} (hperm : order.Perm entries) :
    ∃ s, initLoop env drv order ⟨emptyTable, 0, .ok⟩ = some s ∧ (s.count ≠ 0 → s.res = .ok) := by
  obtain ⟨r, _, hinit, -, -, -, hok⟩ := hfree order order hperm hperm
  obtain ⟨s, hloop, rfl⟩ := loop_of_sysfsInitialize hdriver hinit
  refine ⟨s, hloop, fun hcount => ?_⟩
  have hsome : (List.range s.count).map s.table ≠ [] := by
    rw [Ne, List.map_eq_nil_iff, List.range_eq_nil]
    exact hcount
  have hres := hok hsome
  rwa [if_neg hcount] at hres

theorem OrderFree.devices_perm (hfree : OrderFree env emptyTable entries)
    (hdriver : openDriver env = .ok drv) {o₁ o₂ : List DirName} (h₁ : o₁.Perm entries)
    (h₂ : o₂.Perm entries) {s₁ s₂ : InitState}
    (hloop₁ : initLoop env drv o₁ ⟨emptyTable, 0, .ok⟩ = some s₁)
    (hloop₂ : initLoop env drv o₂ ⟨emptyTable, 0, .ok⟩ = some s₂) :
    ((List.range s₁.count).map s₁.table).Perm ((List.range s₂.count).map s₂.table) := by
  obtain ⟨r₁, r₂, hinit₁, hinit₂, -, hdevices, -⟩ := hfree o₁ o₂ h₁ h₂
  rw [sysfsInitialize_of_loop hdriver hloop₁] at hinit₁
  rw [sysfsInitialize_of_loop hdriver hloop₂] at hinit₂
  obtain rfl := Option.some_inj.mp hinit₁
  obtain rfl := Option.some_inj.mp hinit₂
  exact hdevices

theorem perm_erase_concat {n : DirName} (hn : n ∈ entries) :
    (entries.erase n ++ [n]).Perm entries :=
  (List.perm_append_singleton n _).trans (List.perm_cons_erase hn).symm

theorem OrderFree.last (hfree : OrderFree env emptyTable entries)
    (hdriver : openDriver env = .ok drv) {n : DirName} (hn : n ∈ entries) :
    ∃ s s', initLoop env drv (entries.erase n) ⟨emptyTable, 0, .ok⟩ = some s ∧
      initStep env drv s n = some s' ∧ (s'.count ≠ 0 → s'.res = .ok) := by
  obtain ⟨s', hloop, hok⟩ := hfree.loop hdriver (perm_erase_concat hn)
  rw [initLoop_append] at hloop
  obtain ⟨s, hbefore, hlast⟩ := Option.bind_eq_some_iff.mp hloop
  obtain ⟨_, hstep, hend⟩ := Option.bind_eq_some_iff.mp hlast
  obtain rfl := Option.some_inj.mp hend
  exact ⟨s, _, hbefore, hstep, hok⟩

/-- The result that an entry without a match leaves is the result of a discovery that ends
with it. -/
theorem OrderFree.matched (hfree : OrderFree env emptyTable entries)
    (hdriver : openDriver env = .ok drv) (hsome : built (verdict env drv) entries ≠ [])
    (n : DirName) (hn : n ∈ entries) (e : FpgaResult) : verdict env drv n ≠ .refused e := by
  intro hrefuse
  obtain ⟨s, s', hbefore, hstep, hok⟩ := hfree.last hdriver hn
  have hnone : built (verdict env drv) (entries.erase n ++ [n]) =
      built (verdict env drv) (entries.erase n) := built_concat_none (by rw [hrefuse]; rfl)
  have hcount : s.count ≠ 0 := by
    have hadvances := (advances_loop hbefore).count
    have hlen := (built_perm (verdict env drv) (perm_erase_concat hn)).length_eq
    rw [hnone] at hlen
    have hpos := List.length_pos_iff.mpr hsome
    dsimp only at hadvances
    omega
  rcases initStep_cases hstep with ⟨hskip, -⟩ | ⟨e', -, rfl⟩ | ⟨num, hdots, hmatch, -, -⟩
  · rw [hskip] at hrefuse
    exact nomatch hrefuse
  · exact e'.property (hok hcount)
  · rw [verdict_of_match hdots hmatch] at hrefuse
    split at hrefuse
    · exact nomatch hrefuse
    · split at hrefuse <;> exact nomatch hrefuse

theorem OrderFree.room (hfree : OrderFree env emptyTable entries)
    (hdriver : openDriver env = .ok drv) :
    (built (verdict env drv) entries).length ≤ sysfsMaxDevices := by
  obtain ⟨s, hloop, -⟩ := hfree.loop hdriver (List.Perm.refl entries)
  have hadvances := advances_loop hloop
  have hcount := hadvances.count
  have hroom := hadvances.room (Nat.zero_le _)
  dsimp only at hcount
  omega

theorem OrderFree.spare (hfree : OrderFree env emptyTable entries)
    (hdriver : openDriver env = .ok drv) (hfailed : ∃ n ∈ entries, verdict env drv n = .failed) :
    (built (verdict env drv) entries).length < sysfsMaxDevices := by
  obtain ⟨n, hn, hfail⟩ := hfailed
  obtain ⟨s, s', hbefore, hstep, -⟩ := hfree.last hdriver hn
  have hnone : built (verdict env drv) (entries.erase n ++ [n]) =
      built (verdict env drv) (entries.erase n) := built_concat_none (by rw [hfail]; rfl)
  have hcount := (advances_loop hbefore).count
  have hlen := (built_perm (verdict env drv) (perm_erase_concat hn)).length_eq
  rw [hnone] at hlen
  rcases initStep_cases hstep with ⟨hskip, -⟩ | ⟨e, hrefuse, -⟩ | ⟨num, -, -, hroom, -⟩
  · rw [hskip] at hfail
    exact nomatch hfail
  · rw [hrefuse] at hfail
    exact nomatch hfail
  · dsimp only at hcount
    omega

def sound (env : InitEnv) (drv : Driver) (n : DirName) : Bool :=
  (probed env drv n).all fun p => p.res == .ok

theorem sound_iff {n : DirName} :
    sound env drv n = true ↔ ∀ p, probed env drv n = some p → p.res = .ok := by
  rw [sound]
  cases probed env drv n with
  | none => exact iff_of_true rfl fun _ h => nomatch h
  | some p =>
    constructor
    · intro h _ hp
      obtain rfl := Option.some_inj.mp hp
      exact eq_of_beq h
    · intro h
      exact beq_iff_eq.mpr (h p rfl)

theorem not_leftOver_sound (type : FpgaObjtype) :
    ¬ LeftOver env drv (entries.filter (sound env drv)) type := by
  rintro ⟨r, hr, q, hq, hres, -⟩
  exact hres (sound_iff.mp (List.mem_filter.mp hr).2 q hq)

theorem sound_first {s : InitState}
    (hloop : initLoop env drv (entries.filter (sound env drv) ++
      entries.filter fun n => !sound env drv n) ⟨emptyTable, 0, .ok⟩ = some s)
    {n : DirName} {p : Probe} (hp : probed env drv n = some p) (hres : p.res = .ok)
    {d : SysfsFpgaDevice} (hd : d ∈ (List.range s.count).map s.table)
    (hname : d.sysfsName = n.val) : d = (p.on none none).1 := by
  rw [initLoop_append] at hloop
  obtain ⟨s₁, hfirst, hlast⟩ := Option.bind_eq_some_iff.mp hloop
  have hstart : Filled env drv (entries.filter (sound env drv)) [] ⟨emptyTable, 0, .ok⟩ := by
    apply filled_start
    intro type k hsome
    rw [region_emptyTable] at hsome
    exact nomatch hsome
  have hfilled := hstart.run (fun _ _ _ _ _ type h => absurd h (not_leftOver_sound type))
    (List.Subset.refl _) hfirst
  have hadvances := advances_loop hlast
  obtain ⟨k, hk, rfl⟩ := List.mem_map.mp hd
  rcases hadvances.new k (List.mem_range.mp hk) with hk | ⟨b, hb, hbname⟩
  · rw [hadvances.same k hk] at hname ⊢
    have hmem : s₁.table k ∈ built (verdict env drv) (entries.filter (sound env drv)) := by
      rw [List.nil_append] at hfilled
      rw [← hfilled.table]
      exact List.mem_map_of_mem (List.mem_range.mpr hk)
    obtain ⟨m, -, hm⟩ := List.mem_filterMap.mp hmem
    obtain ⟨q, hq, hbuilt⟩ := probed_of_result hm
    have hmn : m = n := by
      apply Subtype.ext
      rw [← hname, hbuilt]
      exact (probed_name hq).symm
    rw [hmn, hp] at hq
    rw [hbuilt, Option.some_inj.mp hq]
  · have hbn : b = n := Subtype.ext (hbname.symm.trans hname)
    rw [hbn] at hb
    have hunsound := (List.mem_filter.mp hb).2
    have hsound : sound env drv n = true := by
      rw [sound_iff, hp]
      intro q hq
      rwa [← Option.some_inj.mp hq]
    rw [hsound] at hunsound
    exact nomatch hunsound

theorem failing_first {r n : DirName} {rest : List DirName} {s : InitState}
    (hloop : initLoop env drv (r :: n :: rest) ⟨emptyTable, 0, .ok⟩ = some s)
    {q p : Probe} (hq : probed env drv r = some q) (hqres : q.res ≠ .ok)
    (hp : probed env drv n = some p) (hpres : p.res = .ok) {type : FpgaObjtype}
    (hleft : ((q.own type).getD none).isSome) (hown : p.own type = none) :
    ∃ d ∈ (List.range s.count).map s.table,
      d.sysfsName = n.val ∧ (region d type).isSome := by
  obtain ⟨s₁, hstep₁, hloop⟩ := Option.bind_eq_some_iff.mp hloop
  obtain ⟨s₂, hstep₂, hloop⟩ := Option.bind_eq_some_iff.mp hloop
  have hs₁ := initStep_of_probed hq hstep₁
  rw [if_neg (q.on_error hqres _ _)] at hs₁
  have hregion : (region (s₁.table 0) type).isSome := by
    rw [hs₁]
    dsimp only
    rw [Function.update_self, q.region_on, region_emptyTable]
    exact hleft
  have hcount₁ : s₁.count = 0 := by rw [hs₁]
  have hs₂ := initStep_of_probed hp hstep₂
  rw [hcount₁] at hs₂
  have hslot : (region (p.on (s₁.table 0).fme (s₁.table 0).port).1 type).isSome := by
    rw [p.region_on, hown]
    exact hregion
  rw [if_pos (p.on_ok_of_region hpres hslot)] at hs₂
  have hadvances := advances_loop hloop
  have hlt : 0 < s₂.count := by
    rw [hs₂]
    exact Nat.one_pos
  have hcount := hadvances.count
  refine ⟨s.table 0, List.mem_map_of_mem (List.mem_range.mpr (by omega)), ?_⟩
  rw [hadvances.same 0 hlt, hs₂]
  dsimp only
  rw [Function.update_self]
  exact ⟨probed_name hp, hslot⟩

theorem OrderFree.harmless (hfree : OrderFree env emptyTable entries)
    (hdriver : openDriver env = .ok drv) : Harmless env drv entries := by
  rintro n hn p hp hres type ⟨r, hr, q, hq, hqres, hleft⟩
  by_contra hown
  rw [Option.not_isSome_iff_eq_none] at hown
  have hne : n ≠ r := by
    intro heq
    rw [heq, hq] at hp
    rw [Option.some_inj.mp hp] at hqres
    exact hqres hres
  have hfirst : (r :: n :: (entries.erase r).erase n).Perm entries := by
    have hn' : n ∈ entries.erase r := (List.mem_erase_of_ne hne).mpr hn
    exact ((List.perm_cons_erase hn').symm.cons r).trans (List.perm_cons_erase hr).symm
  have hlast := List.filter_append_perm (sound env drv) entries
  obtain ⟨s₁, hloop₁, -⟩ := hfree.loop hdriver hfirst
  obtain ⟨s₂, hloop₂, -⟩ := hfree.loop hdriver hlast
  obtain ⟨d, hd, hname, hsome⟩ := failing_first hloop₁ hq hqres hp hres hleft hown
  have hd₂ := (hfree.devices_perm hdriver hfirst hlast hloop₁ hloop₂).subset hd
  have hregion := p.region_on (emptyTable 0) type
  rw [hown, Option.getD_none, region_emptyTable] at hregion
  have hnone : region (p.on none none).1 type = none := hregion
  rw [sound_first hloop₂ hp hres hd₂ hname, hnone] at hsome
  exact nomatch hsome

end Converse

/-- Discovery does not depend on the order of the entries, now or later, exactly if they are
orderly. -/
theorem device_order_iff (env : InitEnv) (entries : List DirName) :
    (∀ table, Discovered env entries table → OrderFree env table entries) ↔
      ∀ drv, openDriver env = .ok drv → Orderly env drv entries := by
  constructor
  · intro h drv hdriver
    have hfree := h emptyTable .start
    exact ⟨hfree.matched hdriver, hfree.harmless hdriver, hfree.room hdriver,
      hfree.spare hdriver⟩
  · intro h table hdiscovered
    cases hdriver : openDriver env with
    | ok drv => exact (h drv hdriver).orderFree hdriver hdiscovered
    | error e =>
      have hinit (order : List DirName) :
          sysfsInitialize env table order = some (e.val, [], table) := by
        rw [sysfsInitialize, hdriver]
      exact fun o₁ o₂ _ _ => ⟨_, _, hinit o₁, hinit o₂, rfl, .refl _, fun hne => absurd rfl hne⟩

def sampleEnv : InitEnv where
  statClass _ := .found
  openClass _ := true
  readlink _ := some "../../devices/pci0000:3a/0000:3b:00.0/fpga_region/region0".toList
  parseAttribute64
    | _, .vendor => some 0x8086
    | _, .device => some 0x09c4
  opendir _ := some ["dfl-fme.0".toList, "dfl-port.0".toList]
  allocRegion _ _ := true

def sampleRegion : DirName := ⟨"region0".toList, by decide⟩

def sampleStray : DirName := ⟨"uevent".toList, by decide⟩

/-- The entry that is read last decides the result, though a device is built. -/
theorem stray_entry_decides :
    (sysfsInitialize sampleEnv emptyTable [sampleRegion, sampleStray]).map
        (fun r => (r.1, r.2.1.length)) = some (.notFound, 1) ∧
      (sysfsInitialize sampleEnv emptyTable [sampleStray, sampleRegion]).map
        (fun r => (r.1, r.2.1.length)) = some (.ok, 1) ∧
      ¬ OrderFree sampleEnv emptyTable [sampleRegion, sampleStray] := by
  have hlast : (sysfsInitialize sampleEnv emptyTable [sampleRegion, sampleStray]).map
      (fun r => (r.1, r.2.1.length)) = some (.notFound, 1) := by decide
  have hfirst : (sysfsInitialize sampleEnv emptyTable [sampleStray, sampleRegion]).map
      (fun r => (r.1, r.2.1.length)) = some (.ok, 1) := by decide
  refine ⟨hlast, hfirst, fun hfree => ?_⟩
  obtain ⟨r₁, r₂, h₁, h₂, hres, -, -⟩ :=
    hfree _ [sampleStray, sampleRegion] (.refl _) (.swap ..)
  rw [h₁, Option.map_some] at hlast
  rw [h₂, Option.map_some] at hfirst
  have hnotFound : r₁.1 = .notFound := congrArg Prod.fst (Option.some_inj.mp hlast)
  have hok : r₂.1 = .ok := congrArg Prod.fst (Option.some_inj.mp hfirst)
  rw [hnotFound, hok] at hres
  exact nomatch hres

end OpaeLibs.PluginXfpga.DeviceOrder
