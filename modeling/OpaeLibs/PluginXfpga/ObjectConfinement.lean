import OpaeLibs.PluginXfpga.ObjectPaths

namespace OpaeLibs.PluginXfpga.ObjectConfinement

open OpaeLibs.Lib.CStrings OpaeLibs.Lib.Glob OpaeLibs.OpaeC.Props OpaeLibs.PluginXfpga.SysfsObject
  OpaeLibs.PluginXfpga.SysfsGlob OpaeLibs.PluginXfpga.ObjectPaths

section Confined

/-- Whether whatever a pattern finds is under a token. With two paths or more there is an array, of
which the path is the pattern. -/
def Keeps (brackets : Brackets) (token pattern : CString) : Prop :=
  (∀ p : CString, Globs brackets pattern.val p.val → Under token (cut sysfsPathMax p).val) ∧
  ∀ p q : CString, p ≠ q → Globs brackets pattern.val p.val → Globs brackets pattern.val q.val →
    (strrchr (cut pathMax p)).isSome → (strrchr (cut pathMax q)).isSome →
    Under token pattern.val ∧ Under token (cut pathMax p).val

/-- The names and flags for which nothing but what is under the token can be found: without
`FPGA_OBJECT_GLOB` there has to be room for the slash, with it the patterns must not match anything
else. -/
def Confined (brackets : Brackets) (token name : CString) (flags : LookupFlags) : Prop :=
  if flags.glob then
    ∀ pattern, Resolves brackets (catTokenSysfsPath token name) pattern →
      Keeps brackets token pattern
  else token.val.length + 1 < sysfsPathMax

variable {η : Type} {brackets : Brackets} {tree : Tree brackets} {handle : Option η}
  {token name : CString} {flags : LookupFlags}

theorem not_infix_of_strstr {pattern s : List UInt8} (h : strstr pattern s = none) :
    ¬pattern <:+: s := by
  induction s with
  | nil =>
    rw [strstr] at h
    intro hinfix
    rw [List.infix_nil.mp hinfix] at h
    exact nomatch h
  | cons b s ih =>
    rw [strstr] at h
    split at h
    · exact nomatch h
    · next hprefix =>
      rw [List.infix_cons_iff, not_or]
      exact ⟨fun h => hprefix (List.isPrefixOf_iff_prefix.mpr h), ih (Option.map_eq_none_iff.mp h)⟩

theorem under_cat (hname : validateName name = true) (hlen : token.val.length + 1 < sysfsPathMax) :
    Under token (catTokenSysfsPath token name).val := by
  have hdots : strstr [dot, dot] name.val = none := by
    rw [validateName, Bool.and_eq_true] at hname
    exact Option.isNone_iff_eq_none.mp hname.2
  obtain ⟨room, hroom⟩ : ∃ room, sysfsPathMax - 1 - token.val.length = room + 1 :=
    ⟨sysfsPathMax - 1 - token.val.length - 1, by omega⟩
  refine ⟨name.val.take room, ?_, stays_of_notMem fun hmem => not_infix_of_strstr hdots ?_⟩
  · change (token.val ++ slash :: name.val).take (sysfsPathMax - 1) = _
    rw [List.take_append, List.take_of_length_le (by omega), hroom, List.take_succ_cons]
  · exact (infix_of_mem_splitOn hmem).trans (List.take_prefix _ _).isInfix

theorem exists_ne {paths : List CString} (hnodup : paths.Nodup) (hlen : 1 < paths.length)
    (p : CString) : ∃ q ∈ paths, p ≠ q := by
  by_contra hall
  have hsub : paths ⊆ [p] := by
    intro q hq
    rw [List.mem_singleton]
    exact (Decidable.not_not.mp fun hne => hall ⟨q, hq, hne⟩).symm
  have hle := (List.subperm_of_subset hnodup hsub).length_le
  exact absurd hlen (Nat.not_lt.mpr hle)

theorem under_of_confined (hname : validateName name = true)
    (hconf : Confined brackets token name flags) {depth : Nat} {mem : Memory}
    {object : FpgaObject η}
    (h : makeObject tree handle depth flags mem (catTokenSysfsPath token name) name =
      some (.ok object)) {d : FpgaObject η} (hd : Descendant object d) : Under token d.path := by
  rw [makeObject] at h
  rw [Confined] at hconf
  split at hconf
  · next hglob =>
    rw [if_pos hglob] at h
    obtain ⟨pattern, paths, hres, hpaths, h⟩ := makeSysfsObjectGlob_ok h
    obtain ⟨-, hnodup, hmatch⟩ := tree.found _ _ _ hpaths
    rcases h with ⟨p, rfl, hmake⟩ | ⟨hlen, hmake⟩
    · exact makeFrom_under hmake ((hconf pattern hres).1 p (hmatch p List.mem_cons_self)) hd
    · rw [makeSysfsArray] at hmake
      split at hmake
      · exact nomatch hmake
      split at hmake
      · exact nomatch hmake
      obtain ⟨elements, helements, hobject⟩ := Option.map_eq_some_iff.mp hmake
      cases elements with
      | error e => exact nomatch hobject
      | ok elements =>
        have hnamed := makeElements_named helements
        have hboth (p : CString) (hp : p ∈ paths) :
            Under token pattern.val ∧ Under token (cut pathMax p).val := by
          obtain ⟨q, hq, hne⟩ := exists_ne hnodup hlen p
          exact (hconf pattern hres).2 p q hne (hmatch p hp) (hmatch q hq)
            (hnamed _ (List.mem_map_of_mem hp)) (hnamed _ (List.mem_map_of_mem hq))
        rw [← Except.ok.inj hobject] at hd
        cases hd with
        | refl =>
          exact (hboth _ (List.getElem_mem (Nat.lt_trans Nat.zero_lt_one hlen))).1
        | child hmem hd =>
          refine makeElements_under helements (fun p' hp' _ => ?_) _ hmem d hd
          obtain ⟨p, hp, rfl⟩ := List.mem_map.mp hp'
          exact (hboth p hp).2
  · next hglob =>
    rw [if_neg hglob] at h
    exact makeFrom_under h (under_cat hname hconf) hd

end Confined

section Scripts

def fileEnv : ObjectEnv where
  pathMax := 256
  pathMax_lt := ObjectTree.sampleEnv.pathMax_lt
  limit := 258
  le_limit := ObjectTree.sampleEnv.le_limit
  pageSize := 4096
  stat _ := .ok (.file true false)
  entries _ := .error .enoent
  nodup := nofun
  noSlash := nofun
  alphasort _ _ := true
  read _ _ := some []
  allocObject _ := true
  allocObjects _ := true

/-- What each call of `glob` finds, if it can be found. -/
def scripted (brackets : Brackets) (script : Nat → List CString)
    (hnodup : ∀ call, (script call).Nodup) : Tree brackets where
  objects := fileEnv
  pathMax_eq := rfl
  glob call pattern :=
    if script call ≠ [] ∧ ∀ p ∈ script call, Globs brackets pattern.val p.val then
      .ok (script call)
    else .error .noMatch
  found call pattern paths h := by
    split at h
    · next hscript =>
      rw [← Except.ok.inj h]
      exact ⟨hscript.1, hnodup call, hscript.2⟩
    · exact nomatch h
  dup _ := true

variable {η : Type} {brackets : Brackets} {script : Nat → List CString}
  {hnodup : ∀ call, (script call).Nodup} {token name : CString} {flags : LookupFlags}

theorem makeFrom_scripted (flags : ObjectFlags) (mem : Memory) (path name : CString) :
    makeFrom (scripted brackets script hnodup) (none : Option η) 1 flags mem path name =
      some (.ok (.mk .file path.val name.val none .rdonly 0 4096 [] [])) := by
  rw [makeFrom, makeSysfsObject, pathAt_reading]
  rfl

theorem opaeGlobPaths_scripted {call : Nat} {pattern : CString} (numFound : Nat)
    (hne : script call ≠ []) (hmatch : ∀ p ∈ script call, Globs brackets pattern.val p.val) :
    opaeGlobPaths (scripted brackets script hnodup) call pattern numFound =
      ((script call).length,
        .ok (((script call).take maxSysobjectGlob).map (cut pathMax))) := by
  have hglob : (scripted brackets script hnodup).glob call pattern = .ok (script call) :=
    if_pos ⟨hne, hmatch⟩
  have hdup : ((script call).take maxSysobjectGlob).all (scripted brackets script hnodup).dup =
      true := List.all_eq_true.mpr fun _ _ => rfl
  rw [opaeGlobPaths, hglob]
  dsimp only
  rw [hdup, if_pos rfl]

theorem opaeGlobPaths_nothing {call : Nat} (pattern : CString) (numFound : Nat)
    (hnil : script call = []) :
    opaeGlobPaths (scripted brackets script hnodup) call pattern numFound =
      (numFound, .error ⟨.notFound, FpgaResult.notFound_ne_ok⟩) := by
  have hglob : (scripted brackets script hnodup).glob call pattern = .error .noMatch :=
    if_neg fun h => h.1 hnil
  rw [opaeGlobPaths, hglob]
  rfl

theorem findAtDepths_scripted {path : CString} {i depth : Nat} {p : CString}
    (hdepth : script depth = [p]) (hother : ∀ j, j ≠ 0 → j ≠ depth → script j = [])
    (hp : Globs brackets (depthPattern path i depth).val p.val) {depths : List Nat}
    (hmem : depth ∈ depths) (hzero : 0 ∉ depths) (found : Nat) (res : Except FpgaError CString) :
    findAtDepths (scripted brackets script hnodup) path i depths found res =
      (1, .ok (cut sysfsPathMax p)) := by
  induction depths generalizing found res with
  | nil => cases hmem
  | cons j depths ih =>
    rw [List.mem_cons, not_or] at hzero
    rw [findAtDepths]
    by_cases hj : j = depth
    · rw [hj, opaeGlobPaths_scripted found (by rw [hdepth]; intro h; cases h) (by
        rw [hdepth]
        intro q hq
        rwa [List.mem_singleton.mp hq]), hdepth]
      exact congrArg (fun q => (1, Except.ok q)) (cut_cut p)
    · rw [opaeGlobPaths_nothing _ _ (hother j (Ne.symm hzero.1) hj)]
      exact ih ((List.mem_cons.mp hmem).resolve_left (Ne.symm hj)) hzero.2 ..

theorem exists_scripted {path pattern : CString} (hres : Resolves brackets path pattern)
    (paths : List CString) (hnodup : paths.Nodup) :
    ∃ script : Nat → List CString, ∃ hnodup, script 0 = paths ∧
      (if (strstr anyDepth path.val).isSome then
        findGlobPath (scripted brackets script hnodup) path
      else some (.ok path)) = some (.ok pattern) := by
  cases hres with
  | plain h =>
    refine ⟨fun _ => paths, fun _ => hnodup, rfl, ?_⟩
    rw [h]
    rfl
  | @depth i depth p hfst honly hdepth hp =>
    have hpos : depth ≠ 0 := by
      rintro rfl
      exact absurd hdepth (by decide)
    refine ⟨fun call => if call = 0 then paths else if call = depth then [p] else [],
      fun call => ?_, rfl, ?_⟩
    · dsimp only
      split
      · exact hnodup
      · split
        · exact List.nodup_singleton p
        · exact List.nodup_nil
    · rw [hfst, Option.isSome_some, if_pos rfl, findGlobPath, hfst]
      dsimp only
      rw [honly, Option.isSome_none, if_neg Bool.false_ne_true,
        findAtDepths_scripted (by rw [if_neg hpos, if_pos rfl])
          (fun j hzero hj => by rw [if_neg hzero, if_neg hj]) hp hdepth (by decide)]
      rfl

theorem makeObject_scripted {path pattern : CString} {paths : List CString} (hglob : flags.glob)
    (hfull : (if (strstr anyDepth path.val).isSome then
        findGlobPath (scripted brackets script hnodup) path
      else some (.ok path)) = some (.ok pattern)) (hscript : script 0 = paths) (hne : paths ≠ [])
    (hmatch : ∀ p ∈ paths, Globs brackets pattern.val p.val) (mem : Memory) :
    makeObject (scripted brackets script hnodup) (none : Option η) 1 flags mem path name =
      match (paths.take maxSysobjectGlob).map (cut pathMax) with
      | [p] => makeFrom (scripted brackets script hnodup) (none : Option η) 1 flags.toObjectFlags
          mem (cut sysfsPathMax p) name
      | objectPaths => if maxSysobjectGlob < paths.length then none
        else makeSysfsArray (scripted brackets script hnodup) (none : Option η) 1
          flags.toObjectFlags mem pattern name objectPaths := by
  subst hscript
  rw [makeObject, if_pos hglob, makeSysfsObjectGlob, hfull]
  dsimp only
  rw [opaeGlobPaths_scripted 0 hne hmatch]
  generalize ((script 0).take maxSysobjectGlob).map (cut pathMax) = objectPaths
  cases objectPaths with
  | nil => rfl
  | cons p rest => cases rest <;> rfl

end Scripts

section Ordinary

variable {brackets : Brackets} {token name : CString} {flags : LookupFlags}

def Visible (p : List UInt8) : Prop := ∀ n ∈ p.splitOn slash, n.head? ≠ some dot

theorem Visible.take {p : List UInt8} (h : Visible p) (k : Nat) : Visible (p.take k) := by
  obtain ⟨names, names', hsplit, hprefix⟩ := splitOn_take p slash k
  intro n hn hdot
  rw [Visible, hsplit] at h
  obtain ⟨n', hn', hle⟩ := exists_of_forall₂ hprefix hn
  refine h n' (List.mem_append_left names' hn') ?_
  obtain ⟨rest, rfl⟩ := hle
  rw [List.head?_append, hdot]
  rfl

theorem Visible.stays {p : List UInt8} (h : Visible p) : stays 0 (p.splitOn slash) = true :=
  stays_of_notMem fun hmem => h _ hmem rfl

theorem under_take {rest : List UInt8} (hrest : Visible rest) {n : Nat}
    (hlen : token.val.length < n) : Under token ((token.val ++ slash :: rest).take n) := by
  obtain ⟨room, hroom⟩ : ∃ room, n - token.val.length = room + 1 :=
    ⟨n - token.val.length - 1, by omega⟩
  refine ⟨rest.take room, ?_, (hrest.take room).stays⟩
  rw [List.take_append, List.take_of_length_le (Nat.le_of_lt hlen), hroom, List.take_succ_cons]

theorem visible_of_globs (htoken : Plain token.val) {pattern : List UInt8}
    (hpattern : ∀ n ∈ pattern.splitOn slash, n.head? ≠ some dot ∧ n.head? ≠ some 92)
    {p : List UInt8} (h : Globs brackets (token.val ++ slash :: pattern) p) :
    ∃ rest, p = token.val ++ slash :: rest ∧ Visible rest := by
  obtain ⟨names, -, hsplit, rfl, hmet⟩ := h.split fun dir hdir n hn =>
    (fnmatch_plain fun b hb => htoken b ((infix_of_mem_splitOn hdir).subset hb)).mp hn
  refine ⟨_, rfl, ?_⟩
  rw [List.splitOn_append_cons_self, List.append_cancel_left_eq] at hsplit
  rw [Visible, hsplit]
  intro n hn
  obtain ⟨m, hm, hmn⟩ := exists_of_forall₂ hmet.flip hn
  exact head_of_fnmatch hmn (hpattern m hm).1 (hpattern m hm).2

/-- A token whose path has no special bytes confines every name that fits, asks for no hidden names
and does not leave the depth open. -/
theorem confined_of_ordinary (htoken : Plain token.val)
    (hlen : token.val.length + 1 + name.val.length < sysfsPathMax)
    (hname : ∀ n ∈ name.val.splitOn slash, n.head? ≠ some dot ∧ n.head? ≠ some 92)
    (hdepth : strstr anyDepth (token.val ++ slash :: name.val) = none) :
    Confined brackets token name flags := by
  have hcat : (catTokenSysfsPath token name).val = token.val ++ slash :: name.val := by
    apply List.take_of_length_le
    rw [List.length_append, List.length_cons]
    omega
  have hlt : token.val.length < sysfsPathMax - 1 := by omega
  have hle : sysfsPathMax ≤ pathMax := by decide
  rw [Confined]
  split
  · intro pattern hres
    cases hres with
    | depth hfst =>
      rw [hcat, hdepth] at hfst
      exact nomatch hfst
    | plain =>
      rw [Keeps, hcat]
      refine ⟨fun p hp => ?_, fun p q _ hp _ _ _ => ⟨?_, ?_⟩⟩
      · obtain ⟨rest, hrest, hvisible⟩ := visible_of_globs htoken hname hp
        change Under token (p.val.take _)
        rw [hrest]
        exact under_take hvisible hlt
      · rw [← hcat]
        exact under_take (fun n hn => (hname n hn).1) hlt
      · obtain ⟨rest, hrest, hvisible⟩ := visible_of_globs htoken hname hp
        change Under token (p.val.take _)
        rw [hrest]
        exact under_take hvisible (by omega)
  · omega

end Ordinary

section Confinement

variable {brackets : Brackets} {token name : CString} {flags : LookupFlags}

theorem exists_escape (η : Type) (hconf : ¬Confined brackets token name flags) :
    ∃ (tree : Tree brackets) (mem : Memory) (object d : FpgaObject η),
      makeObject tree none 1 flags mem (catTokenSysfsPath token name) name = some (.ok object) ∧
        Descendant object d ∧ ¬Under token d.path := by
  rw [Confined] at hconf
  split at hconf
  · next hglob =>
    simp only [not_forall] at hconf
    obtain ⟨pattern, hres, hkeeps⟩ := hconf
    rw [Keeps, not_and_or] at hkeeps
    rcases hkeeps with hone | hmany
    · simp only [not_forall] at hone
      obtain ⟨p, hp, hunder⟩ := hone
      have hmatch : ∀ q ∈ [p], Globs brackets pattern.val q.val := by
        intro q hq
        rwa [List.mem_singleton.mp hq]
      obtain ⟨script, hnodup, hscript, hfull⟩ := exists_scripted hres [p] (List.nodup_singleton p)
      have hfile : makeObject (scripted brackets script hnodup) (none : Option η) 1 flags
          (fun _ => 0) (catTokenSysfsPath token name) name =
          some (.ok (.mk .file (cut sysfsPathMax p).val name.val none .rdonly 0 4096 [] [])) := by
        rw [makeObject_scripted hglob hfull hscript (List.cons_ne_nil _ _) hmatch, ← cut_cut]
        exact makeFrom_scripted ..
      exact ⟨_, _, _, _, hfile, .refl _, hunder⟩
    · simp only [not_forall] at hmany
      obtain ⟨p, q, hne, hp, hq, hnamep, hnameq, hunder⟩ := hmany
      have hmatch : ∀ r ∈ [p, q], Globs brackets pattern.val r.val := by
        intro r hr
        rcases List.mem_cons.mp hr with rfl | hr
        · exact hp
        · rwa [List.mem_singleton.mp hr]
      obtain ⟨script, hnodup, hscript, hfull⟩ :=
        exists_scripted hres [p, q] (by simpa using hne)
      obtain ⟨namep, hnamep⟩ := Option.isSome_iff_exists.mp hnamep
      obtain ⟨nameq, hnameq⟩ := Option.isSome_iff_exists.mp hnameq
      have harray : makeObject (scripted brackets script hnodup) (none : Option η) 1 flags
          (fun _ => 0) (catTokenSysfsPath token name) name =
          some (.ok (.mk .list pattern.val name.val none .rdonly 2 0 []
            [.mk .file (cut pathMax p).val namep.val none .rdonly 0 4096 [] [],
              .mk .file (cut pathMax q).val nameq.val none .rdonly 0 4096 [] []])) := by
        rw [makeObject_scripted hglob hfull hscript (List.cons_ne_nil _ _) hmatch]
        change (makeElements _ _ _ _ _ [cut pathMax p, cut pathMax q]).map _ = _
        rw [makeElements, hnamep]
        dsimp only
        rw [makeFrom_scripted]
        dsimp only
        rw [makeElements, hnameq]
        dsimp only
        rw [makeFrom_scripted]
        rfl
      by_cases hpattern : Under token pattern.val
      · refine ⟨_, _, _, _, harray, .child List.mem_cons_self (.refl _), fun h => ?_⟩
        exact hunder ⟨hpattern, h⟩
      · exact ⟨_, _, _, _, harray, .refl _, hpattern⟩
  · next hglob =>
    have hfile : makeObject (scripted brackets (fun _ => []) (fun _ => List.nodup_nil))
        (none : Option η) 1 flags (fun _ => 0) (catTokenSysfsPath token name) name =
        some (.ok (.mk .file (catTokenSysfsPath token name).val name.val none .rdonly 0 4096
          [] [])) := by
      rw [makeObject, if_neg hglob, makeFrom_scripted]
    refine ⟨_, _, _, _, hfile, .refl _, fun hunder => ?_⟩
    have hlt : token.val.length < (catTokenSysfsPath token name).val.length := hunder.length_lt
    have hle : (catTokenSysfsPath token name).val.length ≤ sysfsPathMax - 1 :=
      List.length_take_le ..
    omega

/-- The objects that a token's and a handle's lookups return are, with all that is below them, under
the token in every tree exactly if the name confines them. -/
theorem lookups_under_iff (η : Type) (brackets : Brackets) (token name : CString)
    (hname : validateName name = true) (flags : LookupFlags) :
    (∀ (tree : Tree brackets) (depth : Nat) (mem : Memory) (object : FpgaObject η),
      (xfpgaFpgaTokenGetObject tree depth mem token name flags = some (.ok object) ∨
        ∃ (tokenOf : η → CString) (handle : η), tokenOf handle = token ∧
          xfpgaFpgaHandleGetObject tree tokenOf depth mem handle name flags =
            some (.ok object)) →
      ∀ d, Descendant object d → Under token d.path) ↔ Confined brackets token name flags := by
  constructor
  · intro hall
    by_contra hconf
    obtain ⟨tree, mem, object, d, hobject, hd, hunder⟩ := exists_escape η hconf
    refine hunder (hall tree 1 mem object (.inl ?_) d hd)
    rwa [xfpgaFpgaTokenGetObject, if_pos hname]
  · rintro hconf tree depth mem object (hobject | ⟨tokenOf, handle, rfl, hobject⟩) d hd
    · rw [xfpgaFpgaTokenGetObject, if_pos hname] at hobject
      exact under_of_confined hname hconf hobject hd
    · rw [xfpgaFpgaHandleGetObject, if_pos hname] at hobject
      exact under_of_confined hname hconf hobject hd

def sampleToken : CString := ⟨[47, 115, 47, 102], by decide⟩

def sampleStars : CString := ⟨[42, 42, 47, 120], by decide⟩

def sampleSibling : CString := ⟨[47, 115, 47, 102, 48, 47, 120], by decide⟩

def sampleTree : Tree fun _ => none :=
  scripted _ (fun _ => [sampleSibling]) (fun _ => List.nodup_singleton _)

def sampleFlags : LookupFlags := ⟨⟨false, false⟩, true⟩

/-- The name is put behind the path of the token without a slash. -/
theorem sibling_found : validateName sampleStars = true ∧
    ∃ object : FpgaObject Unit,
      xfpgaFpgaTokenGetObject sampleTree 1 (fun _ => 0) sampleToken sampleStars sampleFlags =
        some (.ok object) ∧ object.path = sampleSibling.val ∧ ¬Under sampleToken object.path := by
  refine ⟨by decide, .mk .file sampleSibling.val sampleStars.val none .rdonly 0 4096 [] [], ?_, rfl,
    ?_⟩
  · have hfull : (if (strstr anyDepth (catTokenSysfsPath sampleToken sampleStars).val).isSome then
          findGlobPath sampleTree (catTokenSysfsPath sampleToken sampleStars)
        else some (.ok (catTokenSysfsPath sampleToken sampleStars))) =
        some (.ok sampleSibling) := by rfl
    rw [xfpgaFpgaTokenGetObject, if_pos (by decide)]
    exact (makeObject_scripted rfl hfull rfl (List.cons_ne_nil _ _) (by decide) _).trans
      (makeFrom_scripted ..)
  · rintro ⟨rest, hrest, -⟩
    have hbyte : sampleSibling.val[4]? = (sampleToken.val ++ slash :: rest)[4]? :=
      congrArg (fun p : List UInt8 => p[4]?) hrest
    have hslash : (sampleToken.val ++ slash :: rest)[4]? = some slash := rfl
    exact absurd (hbyte.trans hslash) (by decide)

theorem plain_sampleToken : Plain sampleToken.val := by
  intro b hb
  simp only [sampleToken, List.mem_cons, List.not_mem_nil, or_false] at hb
  rcases hb with rfl | rfl | rfl | rfl <;> decide

def sampleName : CString := ⟨[120], fun h => absurd (List.mem_singleton.mp h) (by decide)⟩

theorem lookups_under_sample : validateName sampleName = true ∧
    ∀ (tree : Tree fun _ => none) (depth : Nat) (mem : Memory) (object : FpgaObject Unit),
      (xfpgaFpgaTokenGetObject tree depth mem sampleToken sampleName sampleFlags =
          some (.ok object) ∨
        ∃ (tokenOf : Unit → CString) (handle : Unit), tokenOf handle = sampleToken ∧
          xfpgaFpgaHandleGetObject tree tokenOf depth mem handle sampleName sampleFlags =
            some (.ok object)) →
      ∀ d, Descendant object d → Under sampleToken d.path :=
  ⟨by decide, (lookups_under_iff Unit _ sampleToken sampleName (by decide) sampleFlags).mpr
    (confined_of_ordinary plain_sampleToken (by decide) (by decide) (by decide))⟩

end Confinement

end OpaeLibs.PluginXfpga.ObjectConfinement
