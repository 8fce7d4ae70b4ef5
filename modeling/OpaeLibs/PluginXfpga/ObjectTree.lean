import OpaeLibs.PluginXfpga.SysfsObject

namespace OpaeLibs.PluginXfpga.ObjectTree

open OpaeLibs.Lib.CStrings OpaeLibs.OpaeC.Props OpaeLibs.PluginXfpga.SysfsObject

def join (p : List UInt8) (name : CString) : List UInt8 := p ++ slash :: name.val

def recurseAll : ObjectFlags := ⟨false, true⟩

/-- The directory tree below a path is finite, and its paths fit in `SYSFS_PATH_MAX`. -/
inductive Fits (env : ObjectEnv) : List UInt8 → Prop
  | node {p : List UInt8} (hlen : p.length < env.pathMax)
      (below : ∀ names, env.stat p = .ok .dir → env.entries p = .ok names →
        ∀ name ∈ names, sysfsFilter name = true → Fits env (join p name)) : Fits env p

variable {η : Type} {env : ObjectEnv} {handle : Option η}

section Buffer

theorem join_length (p : List UInt8) (name : CString) :
    (join p name).length = p.length + (1 + name.val.length) := by
  rw [join, List.length_append, List.length_cons, Nat.add_comm 1]

theorem notMem_join {p : List UInt8} (hp : 0 ∉ p) (name : CString) : 0 ∉ join p name := by
  rw [join, List.mem_append, List.mem_cons, not_or, not_or]
  exact ⟨hp, by decide, name.property⟩

theorem pathAt_of_holds {p : List UInt8} (hp : 0 ∉ p) {mem : Memory} (hmem : Holds mem 0 p)
    (hlen : p.length < env.pathMax) : pathAt env mem = p :=
  textAt_of_holds hp hmem (hlen.le.trans ((Nat.le_add_right _ 2).trans env.le_limit))

/-- The path of a group and the slash behind it. -/
def Below (mem : Memory) (p : List UInt8) : Prop := Bytes mem 0 (p ++ [slash])

theorem below_update {p : List UInt8} {mem : Memory} (hmem : Bytes mem 0 p) :
    Below (Function.update mem p.length slash) p := by
  apply Bytes.append
  · apply hmem.congr
    intro j hj
    exact Function.update_of_ne (by omega) ..
  · intro k hk
    obtain rfl : k = 0 := by simpa using hk
    rw [Nat.zero_add, Nat.add_zero, Function.update_self]
    rfl

/-- Copying a name behind the slash puts the path of a child into the buffer, whatever was there
before. -/
theorem holds_join {p : List UInt8} {mem : Memory} (hmem : Below mem p) {name : CString}
    (hlen : (join p name).length < env.pathMax) :
    Holds (strncpy mem (p.length + 1) (nameCount env p.length) name) 0 (join p name) := by
  rw [join_length] at hlen
  have hcount : name.val.length < nameCount env p.length := by
    have hmod : env.pathMax + 1 + 2 ^ 64 - p.length = env.pathMax + 1 - p.length + 2 ^ 64 := by
      omega
    have hlt := env.pathMax_lt
    rw [nameCount, hmod, Nat.add_mod_right, Nat.mod_eq_of_lt (by omega)]
    omega
  rw [join, ← List.singleton_append, ← List.append_assoc]
  apply Holds.append
  · apply Bytes.congr hmem
    intro j hj
    apply strncpy_of_lt
    simpa using hj
  · rw [Nat.zero_add, List.length_append]
    exact holds_strncpy hcount

end Buffer

section Making

/-- What `make_sysfs_object` makes for a path in the buffer, given enough depth. It leaves the path
there, but for its terminator. -/
def Makes (env : ObjectEnv) (handle : Option η) (p : List UInt8) (name : CString)
    (res : Except FpgaError (FpgaObject η)) : Prop :=
  ∃ depth, ∀ d, depth ≤ d → ∀ mem, Holds mem 0 p →
    ∃ mem', makeSysfsObject env handle d recurseAll mem name = some (res, mem') ∧ Bytes mem' 0 p

/-- The children that are made for the names of a directory. -/
def MakesAll (env : ObjectEnv) (handle : Option η) (p : List UInt8) (names : List CString)
    (objects : List (FpgaObject η)) : Prop :=
  ∃ depth, ∀ d, depth ≤ d → ∀ mem, Below mem p →
    ∃ mem', makeChildren env (makeSysfsObject env handle d recurseAll) p.length names mem =
      some (objects, mem') ∧ Below mem' p

theorem makesAll_nil (p : List UInt8) : MakesAll env handle p [] [] :=
  ⟨0, fun _ _ mem hmem => ⟨mem, rfl, hmem⟩⟩

theorem below_of_join {p : List UInt8} {name : CString} {mem : Memory}
    (h : Bytes mem 0 (join p name)) : Below mem p := by
  rw [join, ← List.singleton_append, ← List.append_assoc] at h
  exact Bytes.left h

theorem MakesAll.cons {p : List UInt8} {name : CString} {names : List CString}
    {res : Except FpgaError (FpgaObject η)} {objects : List (FpgaObject η)}
    (hlen : (join p name).length < env.pathMax) (hres : Makes env handle (join p name) name res)
    (hrest : MakesAll env handle p names objects) :
    MakesAll env handle p (name :: names) (match res with
      | .ok object => object :: objects
      | .error _ => objects) := by
  obtain ⟨depth₁, hres⟩ := hres
  obtain ⟨depth₂, hrest⟩ := hrest
  refine ⟨max depth₁ depth₂, fun d hd mem hmem => ?_⟩
  obtain ⟨mem₁, hmake, hbytes⟩ := hres d (by omega) _ (holds_join hmem hlen)
  obtain ⟨mem₂, hchildren, hbelow⟩ := hrest d (by omega) mem₁ (below_of_join hbytes)
  refine ⟨mem₂, ?_, hbelow⟩
  rw [makeChildren, hmake]
  simp only [bind, Option.bind, hchildren]
  cases res <;> rfl

theorem Makes.unique {p : List UInt8} {name : CString} {res res' : Except FpgaError (FpgaObject η)}
    (h : Makes env handle p name res) (h' : Makes env handle p name res') : res = res' := by
  obtain ⟨depth, h⟩ := h
  obtain ⟨depth', h'⟩ := h'
  obtain ⟨mem, hmem⟩ := exists_holds p
  obtain ⟨_, hmake, -⟩ := h (max depth depth') (by omega) mem hmem
  obtain ⟨_, hmake', -⟩ := h' (max depth depth') (by omega) mem hmem
  exact (Prod.mk.inj (Option.some_inj.mp (hmake.symm.trans hmake'))).1

theorem makes_of_stat {p : List UInt8} (hp : 0 ∉ p) (hlen : p.length < env.pathMax) {name : CString}
    {res : Except FpgaError (FpgaObject η)}
    (h : ∀ d mem, pathAt env mem = p → ∃ mem',
      makeSysfsObject env handle (d + 1) recurseAll mem name = some (res, mem') ∧
        (Bytes mem 0 p → Bytes mem' 0 p)) : Makes env handle p name res := by
  refine ⟨1, fun d hd mem hmem => ?_⟩
  obtain ⟨d, rfl⟩ := Nat.exists_eq_add_of_le' hd
  obtain ⟨mem', hmake, hbytes⟩ := h d mem (pathAt_of_holds hp hmem hlen)
  exact ⟨mem', hmake, hbytes hmem.1⟩

end Making

section Mirroring

/-- The object of a path with the objects below it. The children of a directory are paired, one to
one, with the entries that are not hidden and for whose own paths an object is made. -/
inductive Mirrors (env : ObjectEnv) (handle : Option η) :
    List UInt8 → CString → FpgaObject η → Prop
  | file {p : List UInt8} {name : CString} {readable writable : Bool} {buffer : List UInt8}
      (hstat : env.stat p = .ok (.file readable writable))
      (hread : filePerm handle readable writable = .wronly ∧ buffer = [] ∨
        env.read p (filePerm handle readable writable) = some buffer) :
      Mirrors env handle p name
        (.mk .file p name.val handle (filePerm handle readable writable) buffer.length
          env.pageSize buffer [])
  | dir {p : List UInt8} {name : CString} {names : List CString}
      (children : List (CString × FpgaObject η)) (hstat : env.stat p = .ok .dir)
      (hentries : env.entries p = .ok names) (nodup : (children.map Prod.fst).Nodup)
      (mem_iff : ∀ n, n ∈ children.map Prod.fst ↔ n ∈ names ∧ sysfsFilter n = true ∧
        ∃ object, Makes env handle (join p n) n (.ok object))
      (below : ∀ c ∈ children, Mirrors env handle (join p c.1) c.1 c.2) :
      Mirrors env handle p name (.mk .dir p name.val handle .rdonly children.length 0 []
        (children.map Prod.snd))

theorem makesAll_of_each {p : List UInt8} {l : List CString}
    (hlen : ∀ n ∈ l, (join p n).length < env.pathMax)
    (heach : ∀ n ∈ l, ∃ res, Makes env handle (join p n) n res ∧
      ∀ object, res = .ok object → Mirrors env handle (join p n) n object) :
    ∃ children : List (CString × FpgaObject η),
      MakesAll env handle p l (children.map Prod.snd) ∧ (children.map Prod.fst).Sublist l ∧
      (∀ n, n ∈ children.map Prod.fst ↔
        n ∈ l ∧ ∃ object, Makes env handle (join p n) n (.ok object)) ∧
      ∀ c ∈ children, Mirrors env handle (join p c.1) c.1 c.2 := by
  induction l with
  | nil => exact ⟨[], makesAll_nil p, .slnil, by simp, nofun⟩
  | cons n l ih =>
    obtain ⟨children, hall, hsub, hiff, hbelow⟩ := ih
      (fun m hm => hlen m (List.mem_cons_of_mem _ hm))
      (fun m hm => heach m (List.mem_cons_of_mem _ hm))
    obtain ⟨res, hres, hmirror⟩ := heach n List.mem_cons_self
    have hcons := hall.cons (hlen n List.mem_cons_self) hres
    cases res with
    | ok object =>
      refine ⟨(n, object) :: children, hcons, hsub.cons_cons n, fun m => ?_, ?_⟩
      · rw [List.map_cons, List.mem_cons, List.mem_cons, hiff]
        constructor
        · rintro (rfl | ⟨hm, hmake⟩)
          · exact ⟨.inl rfl, object, hres⟩
          · exact ⟨.inr hm, hmake⟩
        · rintro ⟨rfl | hm, hmake⟩
          · exact .inl rfl
          · exact .inr ⟨hm, hmake⟩
      · intro c hc
        rcases List.mem_cons.mp hc with rfl | hc
        · exact hmirror object rfl
        · exact hbelow c hc
    | error e =>
      refine ⟨children, hcons, hsub.cons n, fun m => ?_, hbelow⟩
      rw [hiff, List.mem_cons]
      constructor
      · rintro ⟨hm, hmake⟩
        exact ⟨.inr hm, hmake⟩
      · rintro ⟨rfl | hm, object, hmake⟩
        · exact nomatch hres.unique hmake
        · exact ⟨hm, object, hmake⟩

/-- Whether the directory of a path is opened and there is something in it that is not hidden. -/
structure Opens (env : ObjectEnv) (p : List UInt8) (names : List CString) : Prop where
  stat : env.stat p = .ok .dir
  entries : env.entries p = .ok names
  some : ∃ n ∈ names, sysfsFilter n = true
  object : env.allocObject p = true
  objects : env.allocObjects p = true

theorem mem_namelist {names : List CString} {n : CString} :
    n ∈ ((names.filter sysfsFilter).mergeSort env.alphasort).reverse ↔
      n ∈ names ∧ sysfsFilter n = true := by
  rw [List.mem_reverse, List.mem_mergeSort, List.mem_filter]

theorem makes_dir {p : List UInt8} (hp : 0 ∉ p) (hlen : p.length < env.pathMax)
    {names : List CString} (hopens : Opens env p names) {name : CString}
    {children : List (CString × FpgaObject η)}
    (hall : MakesAll env handle p ((names.filter sysfsFilter).mergeSort env.alphasort).reverse
      (children.map Prod.snd)) :
    Makes env handle p name (.ok (.mk .dir p name.val handle .rdonly children.length 0 []
      (children.map Prod.snd))) := by
  obtain ⟨depth, hall⟩ := hall
  refine ⟨depth + 1, fun d hd mem hmem => ?_⟩
  obtain ⟨d, rfl⟩ : ∃ k, d = k + 1 := ⟨d - 1, by omega⟩
  have hpath := pathAt_of_holds hp hmem hlen
  obtain ⟨mem', hchildren, hbelow⟩ := hall d (by omega) _ (below_update hmem.1)
  have hsome : ((names.filter sysfsFilter).mergeSort env.alphasort).isEmpty = false := by
    obtain ⟨n, hn, hkept⟩ := hopens.some
    rw [List.isEmpty_eq_false_iff_exists_mem]
    exact ⟨n, List.mem_reverse.mp (mem_namelist.mpr ⟨hn, hkept⟩)⟩
  refine ⟨mem', ?_, Bytes.left hbelow⟩
  rw [makeSysfsObject, hpath, hopens.stat]
  dsimp only
  rw [makeSysfsGroup, hpath, scandir, hopens.entries]
  dsimp only [Except.map]
  rw [hsome, hopens.object, hopens.objects, if_neg Bool.false_ne_true]
  simp only [Bool.not_true, Bool.false_eq_true, if_false, recurseAll, Bool.or_true, if_true]
  rw [show (⟨false, true⟩ : ObjectFlags) = recurseAll from rfl, hchildren]
  simp only [bind, Option.bind, List.length_map]
  rfl

theorem opens_of_ok {p : List UInt8} {names : List CString} (hstat : env.stat p = .ok .dir)
    (hentries : env.entries p = .ok names)
    (hsome : ((names.filter sysfsFilter).mergeSort env.alphasort).isEmpty = false)
    (hobject : env.allocObject p = true) (hobjects : env.allocObjects p = true) :
    Opens env p names := by
  obtain ⟨n, hn⟩ := List.isEmpty_eq_false_iff_exists_mem.mp hsome
  exact ⟨hstat, hentries, ⟨n, mem_namelist.mp (List.mem_reverse.mpr hn)⟩, hobject, hobjects⟩

/-- A directory that cannot be opened, that shows nothing or for which there is no memory. -/
theorem makes_error {p : List UInt8} (hp : 0 ∉ p) (hlen : p.length < env.pathMax)
    (hstat : env.stat p = .ok .dir) (h : ∀ names, ¬Opens env p names) (name : CString) :
    ∃ res, Makes env handle p name (.error res) := by
  cases hentries : env.entries p with
  | error errno =>
    refine ⟨scandirError errno, makes_of_stat hp hlen fun d mem hpath => ⟨mem, ?_, id⟩⟩
    rw [makeSysfsObject, hpath, hstat]
    dsimp only
    rw [makeSysfsGroup, hpath, scandir, hentries]
    rfl
  | ok names =>
    have hgroup (d : Nat) (mem : Memory) (hpath : pathAt env mem = p) :
        makeSysfsObject env handle (d + 1) recurseAll mem name =
          makeSysfsGroup env handle (makeSysfsObject env handle d) recurseAll mem name := by
      rw [makeSysfsObject, hpath, hstat]
    have hscan : scandir env p = .ok ((names.filter sysfsFilter).mergeSort env.alphasort) := by
      rw [scandir, hentries]
      rfl
    cases hempty : ((names.filter sysfsFilter).mergeSort env.alphasort).isEmpty with
    | true =>
      refine ⟨⟨.exception, FpgaResult.exception_ne_ok⟩, makes_of_stat hp hlen fun d mem hpath =>
        ⟨mem, ?_, id⟩⟩
      rw [hgroup d mem hpath, makeSysfsGroup, hpath, hscan]
      dsimp only
      rw [if_pos hempty]
    | false =>
      cases hobject : env.allocObject p with
      | false =>
        refine ⟨⟨.noMemory, FpgaResult.noMemory_ne_ok⟩, makes_of_stat hp hlen fun d mem hpath =>
          ⟨mem, ?_, id⟩⟩
        rw [hgroup d mem hpath, makeSysfsGroup, hpath, hscan]
        dsimp only
        rw [hempty, hobject]
        rfl
      | true =>
        have hobjects : env.allocObjects p = false := by
          rw [← Bool.not_eq_true]
          exact fun hobjects => h names (opens_of_ok hstat hentries hempty hobject hobjects)
        -- the slash is already behind the path
        refine ⟨⟨.noMemory, FpgaResult.noMemory_ne_ok⟩, makes_of_stat hp hlen fun d mem hpath =>
          ⟨Function.update mem p.length slash, ?_, fun hmem => Bytes.left (below_update hmem)⟩⟩
        rw [hgroup d mem hpath, makeSysfsGroup, hpath, hscan]
        dsimp only
        rw [hempty, hobject, hobjects]
        rfl

theorem mirrors_file {p : List UInt8} {name : CString} {readable writable : Bool}
    (hstat : env.stat p = .ok (.file readable writable)) {object : FpgaObject η}
    (h : makeSysfsFile env handle p readable writable name = .ok object) :
    Mirrors env handle p name object := by
  rw [makeSysfsFile] at h
  cases hobject : env.allocObject p with
  | false =>
    rw [hobject] at h
    exact nomatch h
  | true =>
    rw [hobject, Bool.not_true, if_neg Bool.false_ne_true] at h
    by_cases hperm : filePerm handle readable writable = .wronly
    · rw [if_pos hperm] at h
      rw [← Except.ok.inj h]
      exact .file hstat (.inl ⟨hperm, rfl⟩)
    · rw [if_neg hperm] at h
      cases hread : env.read p (filePerm handle readable writable) with
      | none =>
        rw [hread] at h
        exact nomatch h
      | some contents =>
        rw [hread] at h
        rw [← Except.ok.inj h]
        exact .file hstat (.inr hread)

theorem mirrors_of_opens {p : List UInt8} (hp : 0 ∉ p) (hlen : p.length < env.pathMax)
    {names : List CString} (hopens : Opens env p names)
    (hlens : ∀ n ∈ names, sysfsFilter n = true → (join p n).length < env.pathMax)
    (heach : ∀ n ∈ names, sysfsFilter n = true → ∃ res, Makes env handle (join p n) n res ∧
      ∀ object, res = .ok object → Mirrors env handle (join p n) n object) (name : CString) :
    ∃ object, Makes env handle p name (.ok object) ∧ Mirrors env handle p name object := by
  obtain ⟨children, hall, hsub, hiff, hbelow⟩ := makesAll_of_each
    (fun n hn => hlens n (mem_namelist.mp hn).1 (mem_namelist.mp hn).2)
    (fun n hn => heach n (mem_namelist.mp hn).1 (mem_namelist.mp hn).2)
  refine ⟨_, makes_dir hp hlen hopens hall, ?_⟩
  refine .dir children hopens.stat hopens.entries (hsub.nodup ?_) (fun n => ?_) hbelow
  · rw [List.nodup_reverse, (List.mergeSort_perm _ _).nodup_iff]
    exact (env.nodup p names hopens.entries).filter _
  · rw [hiff, mem_namelist, and_assoc]

theorem Fits.length_lt {p : List UInt8} (h : Fits env p) : p.length < env.pathMax := by
  cases h with
  | node hlen _ => exact hlen

theorem Fits.join {p : List UInt8} {names : List CString} (h : Fits env p)
    (hstat : env.stat p = .ok .dir) (hentries : env.entries p = .ok names) {n : CString}
    (hn : n ∈ names) (hkept : sysfsFilter n = true) : Fits env (ObjectTree.join p n) := by
  cases h with
  | node _ below => exact below names hstat hentries n hn hkept

theorem makes_of_fits {p : List UInt8} (hfits : Fits env p) (hp : 0 ∉ p) (name : CString) :
    ∃ res, Makes env handle p name res ∧
      ∀ object, res = .ok object → Mirrors env handle p name object := by
  induction hfits generalizing name with
  | @node p hlen below ih =>
    cases hstat : env.stat p with
    | error errno =>
      refine ⟨.error (statError errno), makes_of_stat hp hlen fun d mem hpath => ?_, nofun⟩
      refine ⟨mem, ?_, id⟩
      rw [makeSysfsObject, hpath, hstat]
    | ok st =>
      cases st with
      | file readable writable =>
        refine ⟨makeSysfsFile env handle p readable writable name,
          makes_of_stat hp hlen fun d mem hpath => ⟨mem, ?_, id⟩, fun _ => mirrors_file hstat⟩
        rw [makeSysfsObject, hpath, hstat]
      | dir =>
        by_cases hopens : ∃ names, Opens env p names
        · obtain ⟨names, hopens⟩ := hopens
          obtain ⟨object, hmakes, hmirrors⟩ := mirrors_of_opens hp hlen hopens
            (fun n hn hkept => (below names hstat hopens.entries n hn hkept).length_lt)
            (fun n hn hkept => ih names hstat hopens.entries n hn hkept (notMem_join hp n) n) name
          refine ⟨.ok object, hmakes, fun object' hobject => ?_⟩
          rw [← Except.ok.inj hobject]
          exact hmirrors
        · obtain ⟨res, hres⟩ := makes_error hp hlen hstat (not_exists.mp hopens) name
          exact ⟨_, hres, nofun⟩

/-- Objects are made of a whole directory tree, with one buffer for all of its paths. -/
theorem object_tree_mirrors {p : List UInt8} (hfits : Fits env p) (hp : 0 ∉ p)
    {names : List CString} (hopens : Opens env p names) (name : CString) :
    ∃ object, Makes env handle p name (.ok object) ∧ Mirrors env handle p name object :=
  mirrors_of_opens hp hfits.length_lt hopens
    (fun _ hn hkept => (hfits.join hopens.stat hopens.entries hn hkept).length_lt)
    (fun n hn hkept =>
      makes_of_fits (hfits.join hopens.stat hopens.entries hn hkept) (notMem_join hp n) n) name

section Sample

def sampleName (c : UInt8) (h : 0 ∉ [c]) : CString := ⟨[c], h⟩

def sampleEntries (p : List UInt8) : Except Errno (List CString) :=
  if p = [47, 115] then
    .ok [sampleName dot (by decide), sampleName 98 (by decide), sampleName 97 (by decide)]
  else if p = [47, 115, 47, 97] then .ok [sampleName 120 (by decide)]
  else .error .enoent

def sampleStat (p : List UInt8) : Except Errno FileStat :=
  if p = [47, 115] ∨ p = [47, 115, 47, 97] then .ok .dir
  else .ok (.file true false)

theorem sampleEntries_nodup (p : List UInt8) (names : List CString)
    (h : sampleEntries p = .ok names) : names.Nodup := by
  rw [sampleEntries] at h
  split at h
  · rw [← Except.ok.inj h]
    decide
  · split at h
    · rw [← Except.ok.inj h]
      decide
    · exact nomatch h

theorem sampleEntries_noSlash (p : List UInt8) (names : List CString)
    (h : sampleEntries p = .ok names) : ∀ n ∈ names, slash ∉ n.val := by
  rw [sampleEntries] at h
  split at h
  · rw [← Except.ok.inj h]
    decide
  · split at h
    · rw [← Except.ok.inj h]
      decide
    · exact nomatch h

def sampleEnv : ObjectEnv where
  pathMax := 256
  pathMax_lt := by decide
  limit := 258
  le_limit := Nat.le_refl _
  pageSize := 4096
  stat := sampleStat
  entries := sampleEntries
  nodup := sampleEntries_nodup
  noSlash := sampleEntries_noSlash
  alphasort a b := decide (a.val.headD 0 ≤ b.val.headD 0)
  read p _ := if p = [47, 115, 47, 97, 47, 120] then some [49] else none
  allocObject _ := true
  allocObjects _ := true

theorem fits_sampleEnv : Fits sampleEnv [47, 115] := by
  apply Fits.node (by decide)
  intro names _ hnames n hn hkept
  rw [← Except.ok.inj hnames, List.mem_cons, List.mem_cons, List.mem_singleton] at hn
  rcases hn with rfl | rfl | rfl
  · exact absurd hkept (by decide)
  · exact Fits.node (by decide) fun _ hstat => nomatch hstat
  · apply Fits.node (by decide)
    intro names _ hnames n hn hkept
    rw [← Except.ok.inj hnames, List.mem_singleton] at hn
    rw [hn]
    exact Fits.node (by decide) fun _ hstat => nomatch hstat

theorem object_tree_mirrors_sample :
    ∃ object : FpgaObject Unit,
      Makes sampleEnv none [47, 115] (sampleName 115 (by decide)) (.ok object) ∧
        Mirrors sampleEnv none [47, 115] (sampleName 115 (by decide)) object :=
  object_tree_mirrors fits_sampleEnv (by decide)
    ⟨rfl, rfl, ⟨sampleName 97 (by decide), by decide, rfl⟩, rfl, rfl⟩ _

end Sample

end Mirroring

end OpaeLibs.PluginXfpga.ObjectTree
