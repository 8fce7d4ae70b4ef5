import OpaeLibs.PluginXfpga.ObjectBounds

namespace OpaeLibs.PluginXfpga.LookupBounds

open OpaeLibs.Lib.CStrings OpaeLibs.Lib.Glob OpaeLibs.OpaeC.Props OpaeLibs.PluginXfpga.SysfsObject
  OpaeLibs.PluginXfpga.SysfsGlob OpaeLibs.PluginXfpga.ObjectPaths
  OpaeLibs.PluginXfpga.ObjectBounds

section Lookups

variable {brackets : Brackets} (tree : Tree brackets) {η : Type} (handle : Option η)

def fromWrites (depth : Nat) (flags : ObjectFlags) (mem : Memory) (path name : CString) :
    List Write :=
  objectWrites (tree.reading path) handle depth flags (strncpy mem 0 (path.val.length + 1) path)
    name

/-- What is written for the elements of an array, each with the size of its buffer. -/
def elementsWrites (depth : Nat) (flags : ObjectFlags) (mem : Memory) :
    List CString → List (Nat × Write)
  | [] => []
  | path :: paths =>
    match strrchr path with
    | none => []
    | some oname =>
      (fromWrites tree handle depth flags mem path oname).map ((path.val.length + 1, ·)) ++
        match makeFrom tree handle depth flags mem path oname with
        | some (.ok _) => elementsWrites depth flags mem paths
        | _ => []

/-- What is written when a path is resolved. A path that is found replaces the one in the buffer, of
which the size is the first argument. -/
def globWrites (size depth : Nat) (flags : ObjectFlags) (mem : Memory) (path name : CString) :
    List (Nat × Write) :=
  let full := if (strstr anyDepth path.val).isSome then findGlobPath tree path else some (.ok path)
  match full with
  | some (.ok pattern) =>
    (if (strstr anyDepth path.val).isSome then [(size, ⟨0, pattern.val.length + 1⟩)] else []) ++
      match opaeGlobPaths tree 0 pattern 0 with
      | (_, .error _) => []
      | (found, .ok objectPaths) =>
        match objectPaths with
        | [p] => (size, ⟨0, (cut sysfsPathMax p).val.length + 1⟩) ::
          (fromWrites tree handle depth flags mem (cut sysfsPathMax p) name).map ((size, ·))
        | _ =>
          if maxSysobjectGlob < found then []
          else if !tree.objects.allocObject pattern.val then []
          else if !tree.objects.allocObjects pattern.val then []
          else elementsWrites tree handle depth flags mem objectPaths
  | _ => []

def lookupWrites (size depth : Nat) (flags : LookupFlags) (mem : Memory) (path name : CString) :
    List (Nat × Write) :=
  if flags.glob then globWrites tree handle size depth flags.toObjectFlags mem path name
  else (fromWrites tree handle depth flags.toObjectFlags mem path name).map ((size, ·))

/-- A lookup returns, and each write is in its buffer. -/
def LookupBounded (size : Nat) (flags : LookupFlags) (mem : Memory) (path name : CString) : Prop :=
  ∃ depth, (makeObject tree handle depth flags mem path name).isSome ∧
    ∀ w ∈ lookupWrites tree handle size depth flags mem path name, w.2.Within w.1

/-- An object is made for a path, if it is made at all. -/
def Made (path name : CString) : Prop :=
  (∃ readable writable object, tree.objects.stat path.val = .ok (.file readable writable) ∧
    makeSysfsFile tree.objects handle path.val readable writable name = .ok object) ∨
  ∃ names, Scans tree.objects path.val names ∧ tree.objects.allocObjects path.val = true

/-- There is room for each element, and each is made; only of the last one the reading may fail. -/
def ElementsRoomy : List CString → Prop
  | [] => True
  | path :: paths => ∃ oname, strrchr path = some oname ∧
    Roomy (tree.reading path) (path.val.length + 1) path.val ∧
      (Made tree handle path oname → ElementsRoomy paths) ∧
      (¬Made tree handle path oname → paths = [] ∧ leavesObject tree path = true)

/-- There is room for the objects of the paths that are found, and for these paths, and no slot of
an array stays empty. -/
def FoundRoomy (size found : Nat) (pattern : CString) (objectPaths : List CString) : Prop :=
  match objectPaths with
  | [p] => Roomy (tree.reading (cut sysfsPathMax p)) size (cut sysfsPathMax p).val
  | _ => found ≤ maxSysobjectGlob ∧ (tree.objects.allocObject pattern.val = true →
    tree.objects.allocObjects pattern.val = true → ElementsRoomy tree handle objectPaths)

/-- There is room for all objects that a lookup makes, and no slot of an array stays empty. -/
def LookupRoomy (size : Nat) (flags : LookupFlags) (path : CString) : Prop :=
  if flags.glob then
    let full :=
      if (strstr anyDepth path.val).isSome then findGlobPath tree path else some (.ok path)
    match full with
    | none => False
    | some (.error _) => True
    | some (.ok pattern) =>
      match opaeGlobPaths tree 0 pattern 0 with
      | (_, .error _) => True
      | (found, .ok objectPaths) => FoundRoomy tree handle size found pattern objectPaths
  else Roomy (tree.reading path) size path.val

end Lookups

section LookupProofs

variable {brackets : Brackets} {tree : Tree brackets} {η : Type} {handle : Option η} {size : Nat}
  {flags : ObjectFlags} {mem : Memory} {path name : CString}

theorem covers_reading (path : CString) : Covers (tree.reading path) path.val := by
  rcases Nat.le_total path.val.length (tree.objects.pathMax + 2) with hle | hle
  · exact .inl (Nat.max_eq_left hle)
  · exact .inr (Nat.max_eq_right hle).symm

theorem from_within (handle : Option η) (hall : flags.recurseAll = true)
    (hroomy : Roomy (tree.reading path) size path.val) (mem : Memory) (name : CString) :
    (makeFrom tree handle (sysfsPathMax + 3) flags mem path name).isSome ∧
      ∀ w ∈ fromWrites tree handle (sysfsPathMax + 3) flags mem path name, w.Within size := by
  have hpath := pathAt_reading tree path mem
  rw [makeFrom, Option.isSome_map]
  apply within_of_roomy _ hall
  · rwa [hpath]
  · exact Nat.le_trans (Nat.le_of_eq (congrArg (· + 2) tree.pathMax_eq)) (Nat.le_add_right _ _)
  · rw [hpath]
    exact covers_reading path

theorem roomy_of_from {depth : Nat} (hall : flags.recurseAll = true) (hsize : size ≤ 2 ^ 64)
    (hsome : (makeFrom tree handle depth flags mem path name).isSome)
    (hwithin : ∀ w ∈ fromWrites tree handle depth flags mem path name, w.Within size) :
    Roomy (tree.reading path) size path.val := by
  rw [makeFrom, Option.isSome_map] at hsome
  exact roomy_of_bounded (pathAt_reading tree path mem) (covers_reading path) hall hsize
    ⟨depth, hsome, hwithin⟩

theorem scans_reading {names : List CString} :
    Scans (tree.reading path) path.val names ↔ Scans tree.objects path.val names :=
  ⟨fun h => ⟨h.stat, h.entries, h.some, h.object⟩, fun h => ⟨h.stat, h.entries, h.some, h.object⟩⟩

theorem group_ok {env : ObjectEnv}
    {make : ObjectFlags → Memory → CString → Option (Except FpgaError (FpgaObject η) × Memory)}
    {names : List CString} (h : Scans env (pathAt env mem) names)
    (hobjects : env.allocObjects (pathAt env mem) = true) (hall : flags.recurseAll = true)
    {out : Except FpgaError (FpgaObject η) × Memory}
    (hout : makeSysfsGroup env handle make flags mem name = some out) :
    ∃ object, out.1 = .ok object := by
  obtain ⟨hscan, hempty⟩ := scandir_of_scans h
  rw [makeSysfsGroup, hscan] at hout
  dsimp only at hout
  rw [hempty, h.object, hobjects, hall, Bool.or_true] at hout
  obtain ⟨_, _, hout⟩ := Option.bind_eq_some_iff.mp hout
  rw [← Option.some_inj.mp hout]
  exact ⟨_, rfl⟩

theorem group_error {env : ObjectEnv}
    {make : ObjectFlags → Memory → CString → Option (Except FpgaError (FpgaObject η) × Memory)}
    (h : ∀ names, Scans env (pathAt env mem) names →
      env.allocObjects (pathAt env mem) = false)
    (hstat : env.stat (pathAt env mem) = .ok .dir) (hall : flags.recurseAll = true)
    {out : Except FpgaError (FpgaObject η) × Memory}
    (hout : makeSysfsGroup env handle make flags mem name = some out) :
    ∃ e, out.1 = .error e := by
  by_cases hscans : ∃ names, Scans env (pathAt env mem) names
  · obtain ⟨names, hscans⟩ := hscans
    obtain ⟨hscan, hempty⟩ := scandir_of_scans hscans
    rw [makeSysfsGroup, hscan] at hout
    dsimp only at hout
    rw [hempty, hscans.object, h names hscans, hall, Bool.or_true] at hout
    rw [← Option.some_inj.mp hout]
    exact ⟨_, rfl⟩
  · obtain ⟨⟨e, herror⟩, -⟩ := group_of_not_scans handle make (fun _ _ _ => []) flags name hstat
      (not_exists.mp hscans)
    rw [herror] at hout
    rw [← Option.some_inj.mp hout]
    exact ⟨e, rfl⟩

theorem made_iff {depth : Nat} (hall : flags.recurseAll = true)
    {res : Except FpgaError (FpgaObject η)}
    (h : makeFrom tree handle depth flags mem path name = some res) :
    (∃ object, res = .ok object) ↔ Made tree handle path name := by
  obtain ⟨out, hout, rfl⟩ := Option.map_eq_some_iff.mp h
  cases depth with
  | zero => cases hout
  | succ depth =>
    have hpath := pathAt_reading tree path mem
    rw [makeSysfsObject, hpath] at hout
    cases hstat : tree.objects.stat path.val with
    | error errno =>
      have hstat' : (tree.reading path).stat path.val = .error errno := hstat
      rw [hstat'] at hout
      rw [← Option.some_inj.mp hout]
      constructor
      · rintro ⟨_, ⟨⟩⟩
      · rintro (⟨_, _, _, hfile, -⟩ | ⟨_, hscans, -⟩)
        · rw [hstat] at hfile
          cases hfile
        · cases hstat.symm.trans hscans.stat
    | ok st =>
      cases st with
      | file readable writable =>
        have hstat' : (tree.reading path).stat path.val = .ok (.file readable writable) := hstat
        rw [hstat'] at hout
        rw [← Option.some_inj.mp hout]
        constructor
        · rintro ⟨object, hobject⟩
          exact .inl ⟨readable, writable, object, hstat, hobject⟩
        · rintro (⟨_, _, object, hfile, hobject⟩ | ⟨_, hscans, -⟩)
          · rw [hstat] at hfile
            cases hfile
            exact ⟨object, hobject⟩
          · cases hstat.symm.trans hscans.stat
      | dir =>
        have hstat' : (tree.reading path).stat path.val = .ok .dir := hstat
        rw [hstat'] at hout
        by_cases hmade : ∃ names, Scans tree.objects path.val names ∧
            tree.objects.allocObjects path.val = true
        · obtain ⟨names, hscans, hobjects⟩ := hmade
          refine iff_of_true (group_ok (by rw [hpath]; exact scans_reading.mpr hscans)
            (by rw [hpath]; exact hobjects) hall hout) (.inr ⟨names, hscans, hobjects⟩)
        · obtain ⟨e, he⟩ := group_error (fun names hscans => by
            rw [hpath] at hscans ⊢
            rw [← Bool.not_eq_true]
            exact fun hobjects => hmade ⟨names, scans_reading.mp hscans, hobjects⟩)
            (by rw [hpath]; exact hstat') hall hout
          refine iff_of_false ?_ ?_
          · rintro ⟨object, hobject⟩
            cases he.symm.trans hobject
          · rintro (⟨_, _, _, hfile, -⟩ | hscans)
            · rw [hstat] at hfile
              cases hfile
            · exact hmade hscans

theorem elements_within (mem : Memory) (hall : flags.recurseAll = true) {paths : List CString}
    (hroomy : ElementsRoomy tree handle paths) :
    (makeElements tree handle (sysfsPathMax + 3) flags mem paths).isSome ∧
      ∀ w ∈ elementsWrites tree handle (sysfsPathMax + 3) flags mem paths, w.2.Within w.1 := by
  induction paths with
  | nil => exact ⟨rfl, fun _ h => by cases h⟩
  | cons path paths ih =>
    rw [makeElements, elementsWrites]
    cases hname : strrchr path with
    | none =>
      obtain ⟨oname, hsome, -⟩ := hroomy
      cases hname.symm.trans hsome
    | some oname =>
      obtain ⟨oname', hname', hroom, hrest, hlast⟩ := hroomy
      obtain rfl := Option.some.inj (hname.symm.trans hname')
      obtain ⟨hsome, hwithin⟩ := from_within handle hall hroom mem oname
      obtain ⟨res, hres⟩ := Option.isSome_iff_exists.mp hsome
      have hfst : ∀ w ∈ (fromWrites tree handle (sysfsPathMax + 3) flags mem path oname).map
          ((path.val.length + 1, ·)), w.2.Within w.1 := by
        intro w hw
        obtain ⟨w', hw', rfl⟩ := List.mem_map.mp hw
        exact hwithin w' hw'
      simp only [hres]
      cases res with
      | error e =>
        obtain ⟨rfl, hleaves⟩ := hlast fun hmade => by
          obtain ⟨object, hobject⟩ := (made_iff hall hres).mpr hmade
          cases hobject
        refine ⟨?_, fun w hw => hfst w (by rwa [List.append_nil] at hw)⟩
        rw [hleaves]
        rfl
      | ok object =>
        obtain ⟨hsome, hwithin⟩ := ih (hrest ((made_iff hall hres).mp ⟨object, rfl⟩))
        refine ⟨by rw [Option.isSome_map]; exact hsome, fun w hw => ?_⟩
        rcases List.mem_append.mp hw with hw | hw
        · exact hfst w hw
        · exact hwithin w hw

theorem elements_roomy {depth : Nat} (hall : flags.recurseAll = true) {paths : List CString}
    (hlen : ∀ p ∈ paths, p.val.length + 1 ≤ 2 ^ 64)
    (hsome : (makeElements tree handle depth flags mem paths).isSome)
    (hwithin : ∀ w ∈ elementsWrites tree handle depth flags mem paths, w.2.Within w.1) :
    ElementsRoomy tree handle paths := by
  induction paths with
  | nil => trivial
  | cons path paths ih =>
    cases hname : strrchr path with
    | none =>
      rw [makeElements, hname] at hsome
      cases hsome
    | some oname =>
      refine ⟨oname, hname, ?_⟩
      rw [makeElements, hname] at hsome
      rw [elementsWrites, hname] at hwithin
      dsimp only at hsome hwithin
      cases hres : makeFrom tree handle depth flags mem path oname with
      | none =>
        rw [hres] at hsome
        cases hsome
      | some res =>
        rw [hres] at hsome hwithin
        refine ⟨?_, fun hmade => ?_, fun hno => ?_⟩
        · have hsome' : (makeFrom tree handle depth flags mem path oname).isSome := by
            rw [hres]
            rfl
          refine roomy_of_from hall (hlen path List.mem_cons_self) hsome' fun w hw => ?_
          exact hwithin (path.val.length + 1, w)
            (List.mem_append_left _ (List.mem_map_of_mem hw))
        · obtain ⟨object, rfl⟩ := (made_iff hall hres).mpr hmade
          rw [Option.isSome_map] at hsome
          exact ih (fun p hp => hlen p (List.mem_cons_of_mem path hp)) hsome
            fun w hw => hwithin w (List.mem_append_right _ hw)
        · cases res with
          | ok object => exact absurd ((made_iff hall hres).mp ⟨object, rfl⟩) hno
          | error e =>
            dsimp only at hsome
            split at hsome
            · next hlast =>
              rw [Bool.and_eq_true, List.isEmpty_iff] at hlast
              exact hlast
            · cases hsome

theorem length_cut (n : Nat) (p : CString) : (cut n p).val.length ≤ n - 1 :=
  List.length_take_le ..

theorem replaced_within (hsize : sysfsPathMax ≤ size) {p : CString}
    (hp : p.val.length ≤ sysfsPathMax - 1) :
    Write.Within size ⟨0, p.val.length + 1⟩ := by
  have hpos : 0 < sysfsPathMax := by decide
  change 0 + (p.val.length + 1) ≤ size
  omega

theorem length_of_resolved {pattern : CString}
    (h : (if (strstr anyDepth path.val).isSome then findGlobPath tree path
      else some (.ok path)) = some (.ok pattern))
    (hany : (strstr anyDepth path.val).isSome) : pattern.val.length ≤ sysfsPathMax - 1 := by
  cases resolves_of_ok h with
  | plain hnone =>
    rw [hnone] at hany
    exact nomatch hany
  | depth => exact length_cut ..

theorem array_bounded_iff (hall : flags.recurseAll = true) {found : Nat} {pattern : CString}
    {objectPaths : List CString} (hlen : ∀ p ∈ objectPaths, p.val.length + 1 ≤ 2 ^ 64)
    {before : List (Nat × Write)} (hbefore : ∀ w ∈ before, w.2.Within w.1) :
    (∃ depth, (if maxSysobjectGlob < found then none else
        makeSysfsArray tree handle depth flags mem pattern name objectPaths).isSome ∧
      ∀ w ∈ before ++ (if maxSysobjectGlob < found then []
        else if !tree.objects.allocObject pattern.val then []
        else if !tree.objects.allocObjects pattern.val then []
        else elementsWrites tree handle depth flags mem objectPaths), w.2.Within w.1) ↔
    found ≤ maxSysobjectGlob ∧ (tree.objects.allocObject pattern.val = true →
      tree.objects.allocObjects pattern.val = true → ElementsRoomy tree handle objectPaths) := by
  by_cases hmany : maxSysobjectGlob < found
  · simp only [if_pos hmany]
    exact iff_of_false (fun ⟨_, hsome, _⟩ => nomatch hsome)
      fun h => absurd hmany (Nat.not_lt.mpr h.1)
  simp only [if_neg hmany, makeSysfsArray, Nat.not_lt.mp hmany, true_and]
  cases hobject : tree.objects.allocObject pattern.val with
  | false =>
    refine iff_of_true ⟨0, rfl, fun w hw => hbefore w ?_⟩ nofun
    simpa using hw
  | true =>
    cases hobjects : tree.objects.allocObjects pattern.val with
    | false =>
      refine iff_of_true ⟨0, rfl, fun w hw => hbefore w ?_⟩ nofun
      simpa using hw
    | true =>
      simp only [Bool.not_true, Bool.false_eq_true, if_false, Option.isSome_map, forall_const]
      constructor
      · rintro ⟨depth, hsome, hwithin⟩
        exact elements_roomy hall hlen hsome fun w hw => hwithin w (List.mem_append_right _ hw)
      · intro hroomy
        obtain ⟨hsome, hwithin⟩ := elements_within mem hall hroomy
        refine ⟨_, hsome, fun w hw => ?_⟩
        exact (List.mem_append.mp hw).elim (hbefore w) (hwithin w)

theorem single_bounded_iff (handle : Option η) (mem : Memory) (name : CString)
    (hall : flags.recurseAll = true) (hsize : size ≤ 2 ^ 64)
    {before : List (Nat × Write)} (hbefore : ∀ w ∈ before, w.2.Within w.1) :
    (∃ depth, (makeFrom tree handle depth flags mem path name).isSome ∧
      ∀ w ∈ before ++ (fromWrites tree handle depth flags mem path name).map ((size, ·)),
        w.2.Within w.1) ↔ Roomy (tree.reading path) size path.val := by
  constructor
  · rintro ⟨depth, hsome, hwithin⟩
    exact roomy_of_from hall hsize hsome fun w hw =>
      hwithin (size, w) (List.mem_append_right _ (List.mem_map_of_mem hw))
  · intro hroomy
    obtain ⟨hsome, hwithin⟩ := from_within handle hall hroomy mem name
    refine ⟨_, hsome, fun w hw => (List.mem_append.mp hw).elim (hbefore w) fun hw => ?_⟩
    obtain ⟨w', hw', rfl⟩ := List.mem_map.mp hw
    exact hwithin w' hw'

theorem glob_bounded_iff {flags : LookupFlags} (hall : flags.recurseAll = true)
    (hmin : sysfsPathMax ≤ size) (hsize : size ≤ 2 ^ 64) (hglob : flags.glob = true) :
    (∃ depth, (makeSysfsObjectGlob tree handle depth flags.toObjectFlags mem path name).isSome ∧
      ∀ w ∈ globWrites tree handle size depth flags.toObjectFlags mem path name,
        w.2.Within w.1) ↔ LookupRoomy tree handle size flags path := by
  rw [LookupRoomy, if_pos hglob]
  simp only [makeSysfsObjectGlob, globWrites]
  cases hfull : (if (strstr anyDepth path.val).isSome then findGlobPath tree path
    else some (.ok path)) with
  | none =>
    refine iff_of_false ?_ id
    rintro ⟨_, hsome, -⟩
    cases hsome
  | some res =>
    cases res with
    | error e => exact iff_of_true ⟨0, rfl, fun _ h => by cases h⟩ trivial
    | ok pattern =>
      have hbefore : ∀ w ∈ (if (strstr anyDepth path.val).isSome then
          [(size, ⟨0, pattern.val.length + 1⟩)] else [] : List (Nat × Write)),
          w.2.Within w.1 := by
        intro w hw
        split at hw
        · next hany =>
          rw [List.mem_singleton.mp hw]
          exact replaced_within hmin (length_of_resolved hfull hany)
        · cases hw
      dsimp only
      cases hpaths : opaeGlobPaths tree 0 pattern 0 with
      | mk found res =>
        cases res with
        | error e =>
          refine iff_of_true ⟨0, rfl, fun w hw => hbefore w ?_⟩ trivial
          simpa using hw
        | ok objectPaths =>
          obtain ⟨paths, -, -, hcopy⟩ := opaeGlobPaths_ok hpaths
          have hlen : ∀ p ∈ objectPaths, p.val.length + 1 ≤ 2 ^ 64 := by
            intro p hp
            rw [hcopy] at hp
            obtain ⟨q, -, rfl⟩ := List.mem_map.mp hp
            exact Nat.le_trans (Nat.succ_le_succ (length_cut pathMax q)) (by decide)
          rcases objectPaths with _ | ⟨p, _ | ⟨q, rest⟩⟩
          · exact array_bounded_iff hall hlen hbefore
          · have hwrite : ∀ w ∈ (if (strstr anyDepth path.val).isSome then
                [(size, ⟨0, pattern.val.length + 1⟩)] else [] : List (Nat × Write)) ++
                [(size, ⟨0, (cut sysfsPathMax p).val.length + 1⟩)], w.2.Within w.1 := by
              intro w hw
              refine (List.mem_append.mp hw).elim (hbefore w) fun hw => ?_
              rw [List.mem_singleton.mp hw]
              exact replaced_within hmin (length_cut ..)
            refine Iff.trans ?_ (single_bounded_iff handle mem name hall hsize hwrite)
            simp only [List.append_assoc, List.singleton_append]
          · exact array_bounded_iff hall hlen hbefore

/-- Recursion is bounded exactly if there is room. With a buffer of `SYSFS_PATH_MAX` bytes there is
none behind a directory that shows anything. -/
theorem recursion_bounded_iff (tree : Tree brackets) (handle : Option η) {size : Nat}
    (hmin : sysfsPathMax ≤ size) (hsize : size ≤ 2 ^ 64) {flags : LookupFlags}
    (hall : flags.recurseAll = true) (mem : Memory) (path name : CString) :
    LookupBounded tree handle size flags mem path name ↔
      LookupRoomy tree handle size flags path := by
  simp only [LookupBounded, makeObject, lookupWrites]
  by_cases hglob : flags.glob = true
  · simp only [if_pos hglob]
    exact glob_bounded_iff hall hmin hsize hglob
  · simp only [if_neg hglob]
    rw [LookupRoomy, if_neg hglob]
    have hnothing : ∀ w ∈ ([] : List (Nat × Write)), w.2.Within w.1 := nofun
    exact single_bounded_iff handle mem name hall hsize hnothing

end LookupProofs

section Samples

def sampleTree : Tree fun _ => none where
  objects := ObjectTree.sampleEnv
  pathMax_eq := rfl
  glob _ _ := .error .noMatch
  found := nofun
  dup _ := true

def sampleFlags : LookupFlags := ⟨⟨false, true⟩, false⟩

def sampleToken : CString := ⟨[47, 115], by decide⟩

def sampleGroup : CString := ⟨[97], fun h => absurd (List.mem_singleton.mp h) (by decide)⟩

def sampleFile : CString := ⟨[98], fun h => absurd (List.mem_singleton.mp h) (by decide)⟩

/-- The name of the first child is filled up behind the end of the buffer. -/
theorem overflow_found : validateName sampleGroup = true ∧
    ¬LookupBounded sampleTree (none : Option Unit) sysfsPathMax sampleFlags (fun _ => 0)
      (catTokenSysfsPath sampleToken sampleGroup) sampleGroup := by
  refine ⟨by decide, ?_⟩
  rintro ⟨depth, hsome, hwithin⟩
  have hroomy : Roomy (sampleTree.reading (catTokenSysfsPath sampleToken sampleGroup)) sysfsPathMax
      (catTokenSysfsPath sampleToken sampleGroup).val := by
    have hall : sampleFlags.toObjectFlags.recurseAll = true := rfl
    refine roomy_of_from hall (by decide) hsome fun w hw => ?_
    exact hwithin (sysfsPathMax, w) (List.mem_map_of_mem hw)
  rw [roomy_iff_not_opens (by decide) (by decide)] at hroomy
  exact hroomy [ObjectTree.sampleName 120 (by decide)]
    ⟨rfl, rfl, ⟨_, List.mem_cons_self, rfl⟩, rfl, rfl⟩

theorem recursion_bounded_sample :
    LookupBounded sampleTree (none : Option Unit) sysfsPathMax sampleFlags (fun _ => 0)
      (catTokenSysfsPath sampleToken sampleFile) sampleFile := by
  rw [recursion_bounded_iff sampleTree none (Nat.le_refl _) (by decide) rfl]
  refine (roomy_iff_not_opens (by decide) (by decide)).mpr fun names hopens => ?_
  exact nomatch hopens.stat

end Samples

end OpaeLibs.PluginXfpga.LookupBounds
