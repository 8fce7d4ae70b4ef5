import OpaeLibs.Lib.Ownership
import OpaeLibs.PluginXfpga.SysfsGlob

namespace OpaeLibs.PluginXfpga.GlobTable

open OpaeLibs.Lib.CStrings OpaeLibs.Lib.Ownership OpaeLibs.OpaeC.Props
  OpaeLibs.PluginXfpga.SysfsGlob

/-- What `glob` finds, and which of the copies of the found paths are allocated. A call is told by
the depth that `find_glob_path` tries, and is 0 for that of `make_sysfs_object`. The last four are
of the objects: the allocations of an array, what comes of its elements, and whether one that cannot
be made is in its slot all the same, as that of a file that cannot be read. -/
structure GlobEnv where
  glob : Nat → CString → Except GlobError (List CString)
  found : ∀ call pattern paths, glob call pattern = .ok paths → paths ≠ []
  dup : Nat → Nat → Bool
  allocObject : Bool
  allocObjects : Bool
  make : Nat → CString → CString → Except FpgaError Unit
  stored : Nat → Bool

abbrev Strings := Prog CString

/-- `object_paths`, with pointers to blocks or `NULL`. -/
abbrev Table := List (Option Nat)

def nullTable : Table := List.replicate maxSysobjectGlob none

/-- There is nothing to read behind the last slot. -/
def readSlot (table : Table) (i : Nat) : Strings (Option Nat) := fun s =>
  (table[i]?).map fun p => (p, s)

def undo : Nat → Table → Strings Table
  | 0, table => pure table
  | i + 1, table => do
    let p ← readSlot table i
    free p
    undo i (table.set i none)

def copyPaths (dup : Nat → Bool) : List CString → Nat → Table → Strings (Bool × Table)
  | [], _, table => pure (true, table)
  | p :: ps, i, table => do
    let copy ← malloc (fun _ => dup i) (cut pathMax p)
    if copy.isNone then
      let table ← undo i (table.set i copy)
      pure (false, table)
    else copyPaths dup ps (i + 1) (table.set i copy)

/-- The loop behind the use of a table, from `found` down. -/
def freePaths (table : Table) : Nat → Strings Unit
  | 0 => pure ()
  | found + 1 => do
    let p ← readSlot table found
    free p
    freePaths table found

section Code

variable (env : GlobEnv)

/-- The result, the number that is then in `*num_found`, and the table. -/
def opaeGlobPaths (call : Nat) (path : CString) (foundMax : Nat) (found : Table)
    (numFound : Nat) : Strings (Except FpgaError Unit × Nat × Table) :=
  match env.glob call path with
  | .ok paths => do
    let r ← copyPaths (env.dup call) (paths.take foundMax) 0 found
    pure (if r.1 then .ok () else .error ⟨.exception, FpgaResult.exception_ne_ok⟩,
      paths.length, r.2)
  | .error e => pure (.error (globError e), numFound, found)

def tryDepths (path : CString) (i : Nat) :
    List Nat → Except FpgaError CString → Nat → Table →
      Strings (Except FpgaError CString × Nat × Table)
  | [], res, found, table => pure (res, found, table)
  | depth :: depths, _, found, table => do
    let r ← opaeGlobPaths env depth (depthPattern path i depth) maxSysobjectGlob table found
    match r.1 with
    | .error e => tryDepths path i depths (.error e) r.2.1 r.2.2
    | .ok () =>
      if 0 < r.2.1 then
        let p ← readSlot r.2.2 0
        let first ← read p
        pure (.ok (cut sysfsPathMax first), r.2.1, r.2.2)
      else tryDepths path i depths (.ok ⟨[], nul_notMem_nil⟩) r.2.1 r.2.2

def globDepths : List Nat := [1, 2, 3, 4, 5]

def findGlobPath (sysfspath : CString) : Strings (Except FpgaError CString) :=
  match strstr anyDepth sysfspath.val with
  | none => pure (.error ⟨.notFound, FpgaResult.notFound_ne_ok⟩)
  | some i =>
    if (strstr anyDepth (sysfspath.val.drop (i + 1))).isSome then
      pure (.error ⟨.invalidParam, FpgaResult.invalidParam_ne_ok⟩)
    else do
      let r ← tryDepths env sysfspath i globDepths (.ok ⟨[], nul_notMem_nil⟩) 0 nullTable
      freePaths r.2.2 r.2.1
      pure r.1

/-- The elements of an array from an index on, and how many they are. Where one cannot be made,
`destroy_fpga_object` goes through all slots from the last one on, and faults on `NULL`. -/
def makeElements (objects : Table) : Nat → Nat → Strings (Except FpgaError Unit)
  | 0, _ => pure (.ok ())
  | n + 1, i => do
    let p ← readSlot objects i
    let path ← read p
    match strrchr path with
    | none => fault
    | some oname =>
      match env.make i path oname with
      | .error e => if n = 0 ∧ env.stored i then pure (.error e) else fault
      | .ok () => makeElements objects n (i + 1)

def makeSysfsArray (objects : Table) (numObjects : Nat) : Strings (Except FpgaError Unit) :=
  if !env.allocObject then pure (.error ⟨.noMemory, FpgaResult.noMemory_ne_ok⟩)
  else if !env.allocObjects then pure (.error ⟨.noMemory, FpgaResult.noMemory_ne_ok⟩)
  else makeElements env objects numObjects 0

/-- One path is an object, more are an array. -/
def makeFound (objectPaths : Table) (found : Nat) (name : CString) :
    Strings (Except FpgaError Unit) :=
  if found = 1 then do
    let p ← readSlot objectPaths 0
    let path ← read p
    pure (env.make 0 (cut sysfsPathMax path) name)
  else makeSysfsArray env objectPaths found

/-- From the last call of `opae_glob_paths` on. -/
def makeGlobbed (sysfspath name : CString) : Strings (Except FpgaError Unit) := do
  let r ← opaeGlobPaths env 0 sysfspath maxSysobjectGlob nullTable 0
  match r.1 with
  | .error e => pure (.error e)
  | .ok () => do
    let res ← makeFound env r.2.2 r.2.1 name
    freePaths r.2.2 r.2.1
    pure res

/-- `glob` is whether `FPGA_OBJECT_GLOB` is set. -/
def makeSysfsObject (sysfspath name : CString) (glob : Bool) : Strings (Except FpgaError Unit) :=
  if glob then
    if (strstr anyDepth sysfspath.val).isSome then do
      let r ← findGlobPath env sysfspath
      match r with
      | .error e => pure (.error e)
      | .ok fullPath => makeGlobbed env fullPath name
    else makeGlobbed env sysfspath name
  else pure (env.make 0 sysfspath name)

end Code

def tableOf (ids : List Nat) : Table :=
  ids.map some ++ List.replicate (maxSysobjectGlob - ids.length) none

section Tables

theorem length_tableOf {ids : List Nat} (hlen : ids.length ≤ maxSysobjectGlob) :
    (tableOf ids).length = maxSysobjectGlob := by
  rw [tableOf, List.length_append, List.length_map, List.length_replicate,
    Nat.add_sub_cancel' hlen]

theorem getElem?_tableOf {ids : List Nat} {i : Nat} (hi : i < ids.length) :
    (tableOf ids)[i]? = some (some ids[i]) := by
  rw [tableOf, List.getElem?_append_left (by rwa [List.length_map]), List.getElem?_map,
    List.getElem?_eq_getElem hi, Option.map_some]

theorem replicate_slots {n : Nat} (hn : n < maxSysobjectGlob) :
    List.replicate (maxSysobjectGlob - n) (none : Option Nat) =
      none :: List.replicate (maxSysobjectGlob - (n + 1)) none := by
  rw [← List.replicate_succ]
  congr 1
  omega

theorem set_tableOf {ids : List Nat} (hlen : ids.length < maxSysobjectGlob) (p : Option Nat) :
    (tableOf ids).set ids.length p = tableOf (ids ++ p.toList) := by
  rw [tableOf, replicate_slots hlen, List.set_append_right _ _ (Nat.le_of_eq (List.length_map _)),
    List.length_map, Nat.sub_self, List.set_cons_zero, tableOf]
  cases p with
  | none => rw [Option.toList_none, List.append_nil, replicate_slots hlen]
  | some i =>
    rw [Option.toList_some, List.map_append, List.append_assoc, List.length_append]
    rfl

theorem set_tableOf_last {ids : List Nat} {p : Nat} (hlen : ids.length < maxSysobjectGlob) :
    (tableOf (ids ++ [p])).set ids.length none = tableOf ids := by
  have hset := set_tableOf hlen (some p)
  rw [Option.toList_some] at hset
  rw [← hset, List.set_set, set_tableOf hlen, Option.toList_none, List.append_nil]

end Tables

section Blocks

open OpaeLibs.Lib.Heap

variable {base : Slots CString} {s : Store CString} {ids : List Nat} {texts : List CString}

theorem runs_readSlot {table : Table} {i : Nat} {p : Option Nat} (h : table[i]? = some p) :
    Runs (readSlot table i) s fun q s' => q = p ∧ s' = s :=
  ⟨p, s, by rw [readSlot, h, Option.map_some], rfl, rfl⟩

theorem faults_readSlot {table : Table} {i : Nat} (h : table.length ≤ i) :
    Faults (readSlot table i) s := by
  rw [Faults, readSlot, List.getElem?_eq_none h, Option.map_none]

theorem runs_undo (h : Owns base s ids) (hlen : ids.length ≤ maxSysobjectGlob) :
    Runs (undo ids.length (tableOf ids)) s fun table s' =>
      table = nullTable ∧ Owns base s' [] := by
  induction ids using List.reverseRecOn generalizing s with
  | nil => exact .pure ⟨rfl, h⟩
  | append_singleton ids p ih =>
    rw [List.length_append, List.length_singleton] at hlen ⊢
    have hslot : (tableOf (ids ++ [p]))[ids.length]? = some (some p) := by
      rw [getElem?_tableOf (by rw [List.length_append]; exact Nat.lt_succ_self _),
        List.getElem_concat_length rfl]
    refine (runs_readSlot hslot).bind fun q s' hq => ?_
    obtain ⟨rfl, rfl⟩ := hq
    have howns : Owns base s' ((some p).toList ++ ids) := h.perm List.perm_append_comm
    refine (runs_free howns).bind fun _ s'' howns => ?_
    rw [set_tableOf_last hlen]
    exact ih howns (Nat.le_of_lt hlen)

def Copied (env : GlobEnv) (call : Nat) (paths : List CString) : Prop :=
  ∀ k < min maxSysobjectGlob paths.length, env.dup call k = true

theorem runs_copyPaths (dup : Nat → Bool) (ps : List CString) (h : Owns base s ids)
    (hold : Holds s ids texts) (hlen : ids.length + ps.length ≤ maxSysobjectGlob) :
    Runs (copyPaths dup ps ids.length (tableOf ids)) s fun r s' =>
      ((∀ k, ids.length ≤ k → k < ids.length + ps.length → dup k = true) ∧
        ∃ ids', r = (true, tableOf ids') ∧ ids'.length = ids.length + ps.length ∧
          Owns base s' ids' ∧ Holds s' ids' (texts ++ ps.map (cut pathMax))) ∨
      (¬(∀ k, ids.length ≤ k → k < ids.length + ps.length → dup k = true) ∧
        r = (false, nullTable) ∧ Owns base s' []) := by
  induction ps generalizing s ids texts with
  | nil =>
    refine .pure (.inl ⟨fun k hle hlt => absurd hlt (Nat.not_lt.mpr hle), ids, rfl, rfl, h, ?_⟩)
    rw [List.map_nil, List.append_nil]
    exact hold
  | cons p ps ih =>
    rw [List.length_cons] at hlen ⊢
    have hroom : ids.length < maxSysobjectGlob := by omega
    cases hdup : dup ids.length with
    | false =>
      refine (runs_malloc_none (cut pathMax p) hdup h).bind fun copy s' hcopy => ?_
      obtain ⟨rfl, howns⟩ := hcopy
      rw [set_tableOf hroom, Option.toList_none, List.append_nil]
      refine (runs_undo howns (Nat.le_of_lt hroom)).bind fun table s'' htable => .pure (.inr ?_)
      obtain ⟨rfl, howns⟩ := htable
      refine ⟨fun hall => ?_, rfl, howns⟩
      have htrue := hall ids.length (Nat.le_refl _) (by omega)
      rw [hdup] at htrue
      exact nomatch htrue
    | true =>
      refine (runs_malloc_some (cut pathMax p) hdup h hold).bind fun copy s' hcopy => ?_
      obtain ⟨i, rfl, howns, hold⟩ := hcopy
      rw [set_tableOf hroom, Option.toList_some]
      have hlen' : (ids ++ [i]).length = ids.length + 1 := List.length_append
      have hrun := ih howns hold (by omega)
      rw [hlen'] at hrun
      have hall : (∀ k, ids.length ≤ k → k < ids.length + (ps.length + 1) → dup k = true) ↔
          ∀ k, ids.length + 1 ≤ k → k < ids.length + 1 + ps.length → dup k = true := by
        refine ⟨fun hall k hle hlt => hall k (by omega) (by omega), fun hall k hle hlt => ?_⟩
        cases Nat.eq_or_lt_of_le hle with
        | inl heq => exact heq ▸ hdup
        | inr hlt' => exact hall k hlt' (by omega)
      rw [hall]
      refine hrun.imp fun r s'' hr => ?_
      cases hr with
      | inr hfails => exact .inr hfails
      | inl hcopies =>
        obtain ⟨hmem, ids', hr, hids', howns, hold⟩ := hcopies
        refine .inl ⟨hmem, ids', hr, by omega, howns, ?_⟩
        rw [List.append_assoc] at hold
        exact hold

/-- What `opae_glob_paths` leaves: an error and an empty table, or the copies of the paths. -/
inductive Globbed (env : GlobEnv) (call : Nat) (path : CString) (numFound : Nat)
    (base : Slots CString) (s : Store CString) : Except FpgaError Unit × Nat × Table → Prop
  | failed (e : GlobError) (h : env.glob call path = .error e) (howns : Owns base s []) :
    Globbed env call path numFound base s (.error (globError e), numFound, nullTable)
  | uncopied (paths : List CString) (h : env.glob call path = .ok paths)
    (hcopied : ¬Copied env call paths) (howns : Owns base s []) :
    Globbed env call path numFound base s
      (.error ⟨.exception, FpgaResult.exception_ne_ok⟩, paths.length, nullTable)
  | copied (paths : List CString) (ids : List Nat) (h : env.glob call path = .ok paths)
    (hcopied : Copied env call paths) (hids : ids.length = min maxSysobjectGlob paths.length)
    (howns : Owns base s ids)
    (hold : Holds s ids ((paths.take maxSysobjectGlob).map (cut pathMax))) :
    Globbed env call path numFound base s (.ok (), paths.length, tableOf ids)

theorem runs_opaeGlobPaths (env : GlobEnv) (call : Nat) (path : CString) (numFound : Nat)
    (h : Owns base s []) :
    Runs (opaeGlobPaths env call path maxSysobjectGlob nullTable numFound) s fun r s' =>
      Globbed env call path numFound base s' r := by
  rw [opaeGlobPaths]
  cases hglob : env.glob call path with
  | error e => exact .pure (.failed e hglob h)
  | ok paths =>
    have hlen : (paths.take maxSysobjectGlob).length = min maxSysobjectGlob paths.length :=
      List.length_take
    have hold : Holds s [] ([] : List CString) := rfl
    have hcopies := runs_copyPaths (env.dup call) (paths.take maxSysobjectGlob) h hold
      (by rw [hlen, List.length_nil]; omega)
    have hall : (∀ k, [].length (α := Nat) ≤ k →
        k < [].length (α := Nat) + (paths.take maxSysobjectGlob).length → env.dup call k = true) ↔
          Copied env call paths := by
      rw [List.length_nil, Nat.zero_add, hlen]
      exact ⟨fun hall k hk => hall k (Nat.zero_le k) hk, fun hall k _ hk => hall k hk⟩
    rw [hall] at hcopies
    refine hcopies.bind fun r s' hr => .pure ?_
    cases hr with
    | inl hr =>
      obtain ⟨hcopied, ids, rfl, hids, howns, hold⟩ := hr
      rw [List.length_nil, Nat.zero_add, hlen] at hids
      exact .copied paths ids hglob hcopied hids howns hold
    | inr hr =>
      obtain ⟨hcopied, rfl, howns⟩ := hr
      exact .uncopied paths hglob hcopied howns

theorem runs_freePaths {table : Table} {found : Nat} (hfound : found ≤ table.length)
    (h : Owns base s ((table.take found).flatMap Option.toList)) :
    Runs (freePaths table found) s fun _ s' => Owns base s' [] := by
  induction found generalizing s with
  | zero => exact .pure h
  | succ found ih =>
    refine (runs_readSlot (List.getElem?_eq_getElem hfound)).bind fun p s' hp => ?_
    obtain ⟨rfl, rfl⟩ := hp
    have howns : Owns base s'
        (table[found].toList ++ (table.take found).flatMap Option.toList) := by
      refine h.perm ?_
      rw [List.take_succ_eq_append_getElem hfound, List.flatMap_append, List.flatMap_singleton]
      exact List.perm_append_comm
    exact (runs_free howns).bind fun _ s'' howns => ih (Nat.le_of_lt hfound) howns

theorem faults_freePaths {table : Table} {found : Nat} (h : table.length < found) :
    Faults (freePaths table found) s := by
  cases found with
  | zero => exact nomatch h
  | succ found => exact (faults_readSlot (Nat.le_of_lt_succ h)).bind _

theorem flatMap_replicate_none (n : Nat) :
    (List.replicate n (none : Option Nat)).flatMap Option.toList = [] := by
  rw [List.flatMap_eq_nil_iff]
  intro p hp
  rw [List.eq_of_mem_replicate hp, Option.toList_none]

theorem flatMap_take_tableOf {found : Nat} (h : ids.length ≤ found) :
    ((tableOf ids).take found).flatMap Option.toList = ids := by
  rw [tableOf, List.take_append, List.length_map, List.take_of_length_le (by rwa [List.length_map]),
    List.flatMap_append, List.take_replicate, flatMap_replicate_none, List.append_nil]
  induction ids with
  | nil => rfl
  | cons i ids ih => rw [List.map_cons, List.flatMap_cons, ih (Nat.le_of_succ_le h)]; rfl

theorem runs_freePaths_tableOf {found : Nat} (hlen : ids.length ≤ maxSysobjectGlob)
    (hfound : found ≤ maxSysobjectGlob) (hids : ids.length ≤ found) (h : Owns base s ids) :
    Runs (freePaths (tableOf ids) found) s fun _ s' => Owns base s' [] := by
  refine runs_freePaths (by rwa [length_tableOf hlen]) ?_
  rwa [flatMap_take_tableOf hids]

end Blocks

end OpaeLibs.PluginXfpga.GlobTable
