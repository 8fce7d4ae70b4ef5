import OpaeLibs.PluginXfpga.ObjectPaths

namespace OpaeLibs.PluginXfpga.ObjectBounds

open OpaeLibs.Lib.CStrings OpaeLibs.OpaeC.Props OpaeLibs.PluginXfpga.SysfsObject
  OpaeLibs.PluginXfpga.ObjectPaths
open OpaeLibs.PluginXfpga.ObjectTree (below_update mem_namelist)

/-- Bytes that are written into the buffer for a path. -/
structure Write where
  start : Nat
  count : Nat

def Write.Within (size : Nat) (w : Write) : Prop := w.start + w.count ≤ size

section Writes

variable {η : Type} (env : ObjectEnv) (handle : Option η)

/-- What `makeChildren` writes, which ends with the first child that is not returned. -/
def childrenWrites
    (make : Memory → CString → Option (Except FpgaError (FpgaObject η) × Memory))
    (writes : Memory → CString → List Write) (pathlen : Nat) : List CString → Memory → List Write
  | [], _ => []
  | name :: rest, mem =>
    let mem := strncpy mem (pathlen + 1) (nameCount env pathlen) name
    ⟨pathlen + 1, nameCount env pathlen⟩ :: writes mem name ++
      match make mem name with
      | none => []
      | some (_, mem) => childrenWrites make writes pathlen rest mem

def groupWrites
    (make : ObjectFlags → Memory → CString → Option (Except FpgaError (FpgaObject η) × Memory))
    (writes : ObjectFlags → Memory → CString → List Write) (flags : ObjectFlags) (mem : Memory) :
    List Write :=
  let path := pathAt env mem
  match scandir env path with
  | .error _ => []
  | .ok namelist =>
    if namelist.isEmpty then []
    else if !env.allocObject path then []
    else if flags.recurseOne || flags.recurseAll then
      let mem := Function.update mem path.length slash
      ⟨path.length, 1⟩ ::
        if !env.allocObjects path then []
        else childrenWrites env (make { flags with recurseOne := false })
          (writes { flags with recurseOne := false }) path.length namelist.reverse mem
    else []

def objectWrites : Nat → ObjectFlags → Memory → CString → List Write
  | 0, _, _, _ => []
  | depth + 1, flags, mem, _ =>
    match env.stat (pathAt env mem) with
    | .ok .dir =>
      groupWrites env (makeSysfsObject env handle depth) (objectWrites depth) flags mem
    | _ => []

end Writes

section Rooms

/-- The directory of a path shows something, and an object is made for it. -/
structure Scans (env : ObjectEnv) (p : List UInt8) (names : List CString) : Prop where
  stat : env.stat p = .ok .dir
  entries : env.entries p = .ok names
  some : ∃ n ∈ names, sysfsFilter n = true
  object : env.allocObject p = true

def childPath (env : ObjectEnv) (p : List UInt8) (name : CString) : List UInt8 :=
  (p ++ slash :: name.val).take env.limit

/-- The paths for which objects are made, however they are linked. -/
inductive Reached (env : ObjectEnv) : List UInt8 → List UInt8 → Prop
  | refl (p : List UInt8) : Reached env p p
  | child {p q : List UInt8} {names : List CString} {n : CString} (hscans : Scans env p names)
      (hobjects : env.allocObjects p = true) (hn : n ∈ names) (hkept : sysfsFilter n = true)
      (h : Reached env (childPath env p n) q) : Reached env p q

/-- There is room behind every directory that is reached: for the slash, and if there are children
for two bytes more than `SYSFS_PATH_MAX`, up to which the names are filled. -/
def Roomy (env : ObjectEnv) (size : Nat) (p : List UInt8) : Prop :=
  ∀ q names, Reached env p q → Scans env q names → q.length < size ∧
    (env.allocObjects q = true → q.length ≤ env.pathMax + 1 ∧ env.pathMax + 2 ≤ size)

variable {η : Type} {env : ObjectEnv} {handle : Option η} {size : Nat} {mem : Memory}
  {flags : ObjectFlags} {name : CString}

theorem Roomy.child {p : List UInt8} (h : Roomy env size p) {names : List CString}
    (hscans : Scans env p names) (hobjects : env.allocObjects p = true) {n : CString}
    (hn : n ∈ names) (hkept : sysfsFilter n = true) : Roomy env size (childPath env p n) :=
  fun q names hq => h q names (.child hscans hobjects hn hkept hq)

abbrev namelist (env : ObjectEnv) (names : List CString) : List CString :=
  ((names.filter sysfsFilter).mergeSort env.alphasort).reverse

section Group

variable (handle)
  (make : ObjectFlags → Memory → CString → Option (Except FpgaError (FpgaObject η) × Memory))
  (writes : ObjectFlags → Memory → CString → List Write)

theorem scandir_of_scans {p : List UInt8} {names : List CString} (h : Scans env p names) :
    scandir env p = .ok ((names.filter sysfsFilter).mergeSort env.alphasort) ∧
      ((names.filter sysfsFilter).mergeSort env.alphasort).isEmpty = false := by
  constructor
  · rw [scandir, h.entries]
    rfl
  · obtain ⟨n, hn, hkept⟩ := h.some
    rw [List.isEmpty_eq_false_iff_exists_mem]
    exact ⟨n, List.mem_reverse.mp (mem_namelist.mpr ⟨hn, hkept⟩)⟩

theorem group_of_not_scans (flags : ObjectFlags) (name : CString)
    (hstat : env.stat (pathAt env mem) = .ok .dir) (h : ∀ names, ¬Scans env (pathAt env mem) names) :
    (∃ e, makeSysfsGroup env handle make flags mem name = some (.error e, mem)) ∧
      groupWrites env make writes flags mem = [] := by
  rw [makeSysfsGroup, groupWrites]
  cases hentries : env.entries (pathAt env mem) with
  | error errno =>
    rw [scandir, hentries]
    exact ⟨⟨_, rfl⟩, rfl⟩
  | ok names =>
    rw [scandir, hentries]
    dsimp only [Except.map]
    cases hempty : ((names.filter sysfsFilter).mergeSort env.alphasort).isEmpty with
    | true => exact ⟨⟨_, rfl⟩, rfl⟩
    | false =>
      cases hobject : env.allocObject (pathAt env mem) with
      | false => exact ⟨⟨_, rfl⟩, rfl⟩
      | true =>
        obtain ⟨n, hn⟩ := List.isEmpty_eq_false_iff_exists_mem.mp hempty
        have hsome := mem_namelist.mp (List.mem_reverse.mpr hn)
        exact absurd ⟨hstat, hentries, ⟨n, hsome⟩, hobject⟩ (h names)

theorem group_of_no_objects (name : CString) {names : List CString}
    (h : Scans env (pathAt env mem) names)
    (hobjects : env.allocObjects (pathAt env mem) = false) (hall : flags.recurseAll = true) :
    (∃ out, makeSysfsGroup env handle make flags mem name = some out) ∧
      groupWrites env make writes flags mem = [⟨(pathAt env mem).length, 1⟩] := by
  obtain ⟨hscan, hempty⟩ := scandir_of_scans h
  rw [makeSysfsGroup, groupWrites, hscan]
  dsimp only
  rw [hempty, h.object, hobjects, hall, Bool.or_true]
  exact ⟨⟨_, rfl⟩, rfl⟩

theorem group_of_objects (name : CString) {names : List CString}
    (h : Scans env (pathAt env mem) names)
    (hobjects : env.allocObjects (pathAt env mem) = true) (hall : flags.recurseAll = true) :
    (makeSysfsGroup env handle make flags mem name).isSome =
        (makeChildren env (make { flags with recurseOne := false }) (pathAt env mem).length
          (namelist env names) (Function.update mem (pathAt env mem).length slash)).isSome ∧
      groupWrites env make writes flags mem = ⟨(pathAt env mem).length, 1⟩ ::
        childrenWrites env (make { flags with recurseOne := false })
          (writes { flags with recurseOne := false }) (pathAt env mem).length (namelist env names)
          (Function.update mem (pathAt env mem).length slash) := by
  obtain ⟨hscan, hempty⟩ := scandir_of_scans h
  rw [makeSysfsGroup, groupWrites, hscan]
  dsimp only
  rw [hempty, h.object, hobjects, hall, Bool.or_true]
  refine ⟨?_, rfl⟩
  cases makeChildren env (make { recurseOne := false, recurseAll := true })
    (pathAt env mem).length (namelist env names)
    (Function.update mem (pathAt env mem).length slash) <;> rfl

end Group

section Children

variable {make : Memory → CString → Option (Except FpgaError (FpgaObject η) × Memory)}
  {writes : Memory → CString → List Write} {p : List UInt8}

theorem children_within (hp : 0 ∉ p) (hcovers : Covers env p)
    (hcount : p.length + 1 + nameCount env p.length ≤ size) {names : List CString}
    (hmake : ∀ n ∈ names, ∀ mem, pathAt env mem = childPath env p n →
      ∃ out, make mem n = some out ∧ Kept env (fun _ => True) mem out ∧
        ∀ w ∈ writes mem n, w.Within size)
    (hmem : Bytes mem 0 ((p ++ [slash]).take env.limit)) :
    (makeChildren env make p.length names mem).isSome ∧
      ∀ w ∈ childrenWrites env make writes p.length names mem, w.Within size := by
  induction names generalizing mem with
  | nil => exact ⟨rfl, nofun⟩
  | cons name names ih =>
    obtain ⟨⟨res, mem₁⟩, hres, hkept, hwithin⟩ :=
      hmake name List.mem_cons_self _ (pathAt_child hp hcovers hmem name)
    have hsame := same_after_child hp hcovers hmem hkept.1
    obtain ⟨hsome, hrest⟩ := ih (fun n hn => hmake n (List.mem_cons_of_mem name hn))
      (hmem.congr fun j hj => hsame j (by rwa [Nat.zero_add] at hj))
    constructor
    · obtain ⟨⟨others, mem₂⟩, hothers⟩ := Option.isSome_iff_exists.mp hsome
      rw [makeChildren, hres]
      simp only [bind, Option.bind, hothers]
      cases res <;> rfl
    · rw [childrenWrites]
      simp only [hres]
      intro w hw
      rcases List.mem_cons.mp hw with rfl | hw
      · exact hcount
      · rcases List.mem_append.mp hw with hw | hw
        · exact hwithin w hw
        · exact hrest w hw

theorem children_made (hp : 0 ∉ p) (hcovers : Covers env p) {names : List CString}
    (hmake : ∀ n ∈ names, ∀ mem out, pathAt env mem = childPath env p n →
      make mem n = some out → Kept env (fun _ => True) mem out)
    (hmem : Bytes mem 0 ((p ++ [slash]).take env.limit))
    (hsome : (makeChildren env make p.length names mem).isSome)
    (hwithin : ∀ w ∈ childrenWrites env make writes p.length names mem, w.Within size) :
    ∀ n ∈ names, p.length + 1 + nameCount env p.length ≤ size ∧
      ∃ mem', pathAt env mem' = childPath env p n ∧ (make mem' n).isSome ∧
        ∀ w ∈ writes mem' n, w.Within size := by
  induction names generalizing mem with
  | nil =>
    intro _ h
    cases h
  | cons name names ih =>
    have hpath := pathAt_child hp hcovers hmem name
    cases hres : make (strncpy mem (p.length + 1) (nameCount env p.length) name) name with
    | none =>
      rw [makeChildren, hres] at hsome
      cases hsome
    | some out =>
      obtain ⟨res, mem₁⟩ := out
      rw [childrenWrites] at hwithin
      simp only [hres] at hwithin
      have hsame := same_after_child hp hcovers hmem
        (hmake name List.mem_cons_self _ _ hpath hres).1
      have hrest : (makeChildren env make p.length names mem₁).isSome := by
        rw [makeChildren, hres] at hsome
        cases hothers : makeChildren env make p.length names mem₁ with
        | none =>
          simp only [bind, Option.bind, hothers] at hsome
          cases hsome
        | some others => rfl
      intro n hn
      rcases List.mem_cons.mp hn with rfl | hn
      · refine ⟨hwithin _ List.mem_cons_self, _, hpath, by rw [hres]; rfl, fun w hw => ?_⟩
        exact hwithin w (List.mem_cons_of_mem _ (List.mem_append_left _ hw))
      · exact ih (fun n hn => hmake n (List.mem_cons_of_mem name hn))
          (hmem.congr fun j hj => hsame j (by rwa [Nat.zero_add] at hj)) hrest
          (fun w hw => hwithin w (List.mem_cons_of_mem _ (List.mem_append_right _ hw))) n hn

end Children

theorem kept_true {depth : Nat} {out : Except FpgaError (FpgaObject η) × Memory}
    (hcovers : Covers env (pathAt env mem))
    (h : makeSysfsObject env handle depth flags mem name = some out) :
    Kept env (fun _ => True) mem out :=
  makeSysfsObject_kept (fun _ _ _ _ _ _ _ _ => trivial) hcovers trivial h

/-- The call returns, and what is written until then is in the buffer. -/
def Bounded (env : ObjectEnv) (handle : Option η) (size : Nat) (flags : ObjectFlags) (mem : Memory)
    (name : CString) : Prop :=
  ∃ depth, (makeSysfsObject env handle depth flags mem name).isSome ∧
    ∀ w ∈ objectWrites env handle depth flags mem name, w.Within size

theorem object_of_dir (handle : Option η) (depth : Nat) (flags : ObjectFlags) (name : CString)
    (hstat : env.stat (pathAt env mem) = .ok .dir) :
    makeSysfsObject env handle (depth + 1) flags mem name =
        makeSysfsGroup env handle (makeSysfsObject env handle depth) flags mem name ∧
      objectWrites env handle (depth + 1) flags mem name =
        groupWrites env (makeSysfsObject env handle depth) (objectWrites env handle depth) flags
          mem := by
  rw [makeSysfsObject, objectWrites, hstat]
  exact ⟨rfl, rfl⟩

theorem object_of_not_dir (handle : Option η) (depth : Nat) (flags : ObjectFlags) (name : CString)
    (hstat : env.stat (pathAt env mem) ≠ .ok .dir) :
    (makeSysfsObject env handle (depth + 1) flags mem name).isSome ∧
      objectWrites env handle (depth + 1) flags mem name = [] := by
  rw [makeSysfsObject, objectWrites]
  cases hst : env.stat (pathAt env mem) with
  | error errno => exact ⟨rfl, rfl⟩
  | ok st =>
    cases st with
    | dir => exact absurd hst hstat
    | file readable writable => exact ⟨rfl, rfl⟩

theorem group_within {depth : Nat} (hcovers : Covers env (pathAt env mem))
    (hall : flags.recurseAll = true) (name : CString) {names : List CString}
    (hscans : Scans env (pathAt env mem) names)
    (hobjects : env.allocObjects (pathAt env mem) = true) (hlen : (pathAt env mem).length < size)
    (hshort : (pathAt env mem).length ≤ env.pathMax + 1) (hsize : env.pathMax + 2 ≤ size)
    (hchildren : ∀ n ∈ names, sysfsFilter n = true →
      ∀ mem', pathAt env mem' = childPath env (pathAt env mem) n →
      (makeSysfsObject env handle depth { flags with recurseOne := false } mem' n).isSome ∧
        ∀ w ∈ objectWrites env handle depth { flags with recurseOne := false } mem' n,
          w.Within size) :
    (makeSysfsGroup env handle (makeSysfsObject env handle depth) flags mem name).isSome ∧
      ∀ w ∈ groupWrites env (makeSysfsObject env handle depth) (objectWrites env handle depth)
        flags mem, w.Within size := by
  have hlt : (pathAt env mem).length < env.limit := Nat.lt_of_le_of_lt hshort env.le_limit
  have hcount : (pathAt env mem).length + 1 + nameCount env (pathAt env mem).length ≤ size := by
    rw [copied_to_limit hlt hcovers, hcovers.resolve_right (Nat.ne_of_lt hlt)]
    exact hsize
  have hzero : 0 ∉ pathAt env mem := notMem_textAt _ _
  have hbytes : Bytes mem 0 (pathAt env mem) := bytes_textAt _ _
  have hnames : ∀ n ∈ namelist env names, ∀ mem',
      pathAt env mem' = childPath env (pathAt env mem) n →
      ∃ out, makeSysfsObject env handle depth { flags with recurseOne := false } mem' n =
          some out ∧ Kept env (fun _ => True) mem' out ∧
        ∀ w ∈ objectWrites env handle depth { flags with recurseOne := false } mem' n,
          w.Within size := by
    intro n hn mem' hpath
    obtain ⟨hn, hkept⟩ := mem_namelist.mp hn
    obtain ⟨hsome, hwithin⟩ := hchildren n hn hkept mem' hpath
    obtain ⟨out, hout⟩ := Option.isSome_iff_exists.mp hsome
    refine ⟨out, hout, kept_true ?_ hout, hwithin⟩
    rw [hpath]
    exact hcovers.child _
  obtain ⟨hgroup, hgroupWrites⟩ := group_of_objects handle (makeSysfsObject env handle depth)
    (objectWrites env handle depth) name hscans hobjects hall
  obtain ⟨hsome, hwithin⟩ := children_within hzero hcovers hcount hnames
    ((below_update hbytes).take env.limit)
  rw [hgroup, hgroupWrites]
  refine ⟨hsome, fun w hw => ?_⟩
  rcases List.mem_cons.mp hw with rfl | hw
  · exact hlen
  · exact hwithin w hw

theorem within_of_children {depth : Nat} (hcovers : Covers env (pathAt env mem))
    (hall : flags.recurseAll = true) (hroomy : Roomy env size (pathAt env mem))
    (hchildren : ∀ names, Scans env (pathAt env mem) names →
      env.allocObjects (pathAt env mem) = true → ∀ n ∈ names, sysfsFilter n = true →
      ∀ mem', pathAt env mem' = childPath env (pathAt env mem) n →
      (makeSysfsObject env handle depth { flags with recurseOne := false } mem' n).isSome ∧
        ∀ w ∈ objectWrites env handle depth { flags with recurseOne := false } mem' n,
          w.Within size) :
    (makeSysfsObject env handle (depth + 1) flags mem name).isSome ∧
      ∀ w ∈ objectWrites env handle (depth + 1) flags mem name, w.Within size := by
  by_cases hstat : env.stat (pathAt env mem) = .ok .dir
  · obtain ⟨hobject, hwrites⟩ := object_of_dir handle depth flags name hstat
    rw [hobject, hwrites]
    by_cases hscans : ∃ names, Scans env (pathAt env mem) names
    · obtain ⟨names, hscans⟩ := hscans
      obtain ⟨hlen, hroom⟩ := hroomy _ names (.refl _) hscans
      cases hobjects : env.allocObjects (pathAt env mem) with
      | false =>
        obtain ⟨⟨out, hout⟩, hslash⟩ := group_of_no_objects handle
          (makeSysfsObject env handle depth) (objectWrites env handle depth) name hscans hobjects
          hall
        rw [hout, hslash]
        refine ⟨rfl, fun w hw => ?_⟩
        rw [List.mem_singleton.mp hw]
        exact hlen
      | true =>
        obtain ⟨hshort, hsize⟩ := hroom hobjects
        exact group_within hcovers hall name hscans hobjects hlen hshort hsize
          (hchildren names hscans hobjects)
    · obtain ⟨⟨e, hout⟩, hnone⟩ := group_of_not_scans handle (makeSysfsObject env handle depth)
        (objectWrites env handle depth) flags name hstat (not_exists.mp hscans)
      rw [hout, hnone]
      exact ⟨rfl, nofun⟩
  · obtain ⟨hsome, hnone⟩ := object_of_not_dir handle depth flags name hstat
    rw [hnone]
    exact ⟨hsome, nofun⟩

theorem within_of_roomy {depth : Nat} (hcovers : Covers env (pathAt env mem))
    (hall : flags.recurseAll = true) (hroomy : Roomy env size (pathAt env mem))
    (hdepth : env.pathMax + 2 ≤ depth + (pathAt env mem).length) :
    (makeSysfsObject env handle (depth + 1) flags mem name).isSome ∧
      ∀ w ∈ objectWrites env handle (depth + 1) flags mem name, w.Within size := by
  induction depth generalizing mem flags name with
  | zero =>
    apply within_of_children hcovers hall hroomy
    intro names hscans hobjects
    have hshort := ((hroomy _ names (.refl _) hscans).2 hobjects).1
    omega
  | succ depth ih =>
    apply within_of_children hcovers hall hroomy
    intro names hscans hobjects n hn hkept mem' hpath
    have hshort := ((hroomy _ names (.refl _) hscans).2 hobjects).1
    have hlimit := env.le_limit
    have hgrows : (pathAt env mem).length + 1 ≤ (pathAt env mem').length := by
      rw [hpath, childPath, List.length_take, List.length_append, List.length_cons]
      omega
    have hall' : { flags with recurseOne := false }.recurseAll = true := hall
    apply ih _ hall' _ (by omega)
    · rw [hpath]
      exact hcovers.child _
    · rw [hpath]
      exact hroomy.child hscans hobjects hn hkept

/-- A call that is bounded has room for the slash and the names, and the calls for the children are
bounded. -/
theorem bounded_children {p : List UInt8} (hp : pathAt env mem = p) (hcovers : Covers env p)
    (hall : flags.recurseAll = true) (hsize : size ≤ 2 ^ 64)
    (hbounded : Bounded env handle size flags mem name) {names : List CString}
    (hscans : Scans env p names) : p.length < size ∧ (env.allocObjects p = true →
      (p.length ≤ env.pathMax + 1 ∧ env.pathMax + 2 ≤ size) ∧
      ∀ n ∈ names, sysfsFilter n = true → ∃ mem', pathAt env mem' = childPath env p n ∧
        Bounded env handle size { flags with recurseOne := false } mem' n) := by
  obtain ⟨depth, hsome, hwithin⟩ := hbounded
  cases depth with
  | zero => exact nomatch hsome
  | succ depth =>
    subst hp
    obtain ⟨hobject, hwrites⟩ := object_of_dir handle depth flags name hscans.stat
    rw [hobject] at hsome
    rw [hwrites] at hwithin
    cases hobjects : env.allocObjects (pathAt env mem) with
    | false =>
      obtain ⟨-, hslash⟩ := group_of_no_objects handle (makeSysfsObject env handle depth)
        (objectWrites env handle depth) name hscans hobjects hall
      rw [hslash] at hwithin
      exact ⟨hwithin _ List.mem_cons_self, nofun⟩
    | true =>
      obtain ⟨hgroup, hgroupWrites⟩ := group_of_objects handle (makeSysfsObject env handle depth)
        (objectWrites env handle depth) name hscans hobjects hall
      rw [hgroup] at hsome
      rw [hgroupWrites] at hwithin
      have hlen : (pathAt env mem).length < size := hwithin _ List.mem_cons_self
      have hzero : 0 ∉ pathAt env mem := notMem_textAt _ _
      have hbytes : Bytes mem 0 (pathAt env mem) := bytes_textAt _ _
      have hmade := children_made hzero hcovers
        (fun n _ mem' out hpath hout => kept_true (by rw [hpath]; exact hcovers.child _) hout)
        ((below_update hbytes).take env.limit) hsome
        (fun w hw => hwithin w (List.mem_cons_of_mem _ hw))
      refine ⟨hlen, fun _ => ⟨?_, fun n hn hkept => ?_⟩⟩
      · obtain ⟨n, hn, hkept⟩ := hscans.some
        have hcount := (hmade n (mem_namelist.mpr ⟨hn, hkept⟩)).1
        have hlt := env.pathMax_lt
        rw [nameCount] at hcount
        omega
      · obtain ⟨-, mem', hpath, hsome, hwithin⟩ := hmade n (mem_namelist.mpr ⟨hn, hkept⟩)
        exact ⟨mem', hpath, depth, hsome, hwithin⟩

theorem roomy_of_bounded {p : List UInt8} (hp : pathAt env mem = p) (hcovers : Covers env p)
    (hall : flags.recurseAll = true) (hsize : size ≤ 2 ^ 64)
    (hbounded : Bounded env handle size flags mem name) : Roomy env size p := by
  intro q names hreached
  induction hreached generalizing mem flags name with
  | refl p =>
    intro hscans
    obtain ⟨hlen, hroom⟩ := bounded_children hp hcovers hall hsize hbounded hscans
    exact ⟨hlen, fun hobjects => (hroom hobjects).1⟩
  | child hscans hobjects hn hkept _ ih =>
    obtain ⟨-, hroom⟩ := bounded_children hp hcovers hall hsize hbounded hscans
    obtain ⟨mem', hpath, hchild⟩ := (hroom hobjects).2 _ hn hkept
    have hall' : { flags with recurseOne := false }.recurseAll = true := hall
    exact ih hpath (hcovers.child _) hall' hchild

theorem bounded_iff_roomy {p : List UInt8} (hp : pathAt env mem = p) (hcovers : Covers env p)
    (hall : flags.recurseAll = true) (hsize : size ≤ 2 ^ 64) :
    Bounded env handle size flags mem name ↔ Roomy env size p := by
  constructor
  · exact roomy_of_bounded hp hcovers hall hsize
  · intro hroomy
    subst hp
    exact ⟨env.pathMax + 3, within_of_roomy hcovers hall hroomy (Nat.le_add_right _ _)⟩

end Rooms

theorem roomy_iff_not_opens {env : ObjectEnv} {size : Nat} (hsize : size < env.pathMax + 2)
    {p : List UInt8} (hlen : p.length < size) :
    Roomy env size p ↔ ∀ names, ¬ObjectTree.Opens env p names := by
  constructor
  · intro hroomy names hopens
    have hscans : Scans env p names := ⟨hopens.stat, hopens.entries, hopens.some, hopens.object⟩
    have hroom := (hroomy p names (.refl p) hscans).2 hopens.objects
    omega
  · intro hopens q names hreached hscans
    cases hreached with
    | refl =>
      exact ⟨hlen, fun hobjects =>
        absurd ⟨hscans.stat, hscans.entries, hscans.some, hscans.object, hobjects⟩ (hopens names)⟩
    | child hscans hobjects =>
      exact absurd ⟨hscans.stat, hscans.entries, hscans.some, hscans.object, hobjects⟩ (hopens _)

end OpaeLibs.PluginXfpga.ObjectBounds
