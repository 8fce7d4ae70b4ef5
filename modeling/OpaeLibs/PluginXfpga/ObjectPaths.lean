import OpaeLibs.PluginXfpga.ObjectTree
import OpaeLibs.PluginXfpga.SysfsGlob

namespace OpaeLibs.PluginXfpga.ObjectPaths

open OpaeLibs.Lib.CStrings OpaeLibs.Lib.Glob OpaeLibs.OpaeC.Props OpaeLibs.PluginXfpga.SysfsObject
  OpaeLibs.PluginXfpga.SysfsGlob
open OpaeLibs.PluginXfpga.ObjectTree (below_update)

/-- An object, one of its children, and so on. -/
inductive Descendant {η : Type} : FpgaObject η → FpgaObject η → Prop
  | refl (object : FpgaObject η) : Descendant object object
  | child {object child below : FpgaObject η} (hmem : child ∈ object.objects)
      (h : Descendant child below) : Descendant object below

/-- Whether names, one after the other, never lead above where they start. -/
def stays : Nat → List (List UInt8) → Bool
  | _, [] => true
  | depth, name :: names =>
    if name = [dot, dot] then decide (0 < depth) && stays (depth - 1) names
    else if name = [] ∨ name = [dot] then stays depth names
    else stays (depth + 1) names

/-- The path is the token's with a slash and names behind it that do not lead out of it. -/
def Under (token : CString) (p : List UInt8) : Prop :=
  ∃ rest, p = token.val ++ slash :: rest ∧ stays 0 (rest.splitOn slash) = true

section Stays

theorem stays_append {names names' : List (List UInt8)} (hnames' : [dot, dot] ∉ names')
    {depth : Nat} (h : stays depth names = true) : stays depth (names ++ names') = true := by
  induction names generalizing depth with
  | nil =>
    rw [List.nil_append]
    clear h
    induction names' generalizing depth with
    | nil => rfl
    | cons name names' ih =>
      rw [List.mem_cons, not_or] at hnames'
      rw [stays, if_neg (Ne.symm hnames'.1)]
      split
      · exact ih hnames'.2
      · exact ih hnames'.2
  | cons name names ih =>
    rw [List.cons_append]
    rw [stays] at h ⊢
    by_cases hup : name = [dot, dot]
    · rw [if_pos hup, Bool.and_eq_true] at h ⊢
      exact ⟨h.1, ih h.2⟩
    · rw [if_neg hup] at h ⊢
      split at h
      · next hsame =>
        rw [if_pos hsame]
        exact ih h
      · next hsame =>
        rw [if_neg hsame]
        exact ih h

theorem stays_of_notMem {names : List (List UInt8)} (h : [dot, dot] ∉ names) :
    stays 0 names = true := by
  have hnil : stays 0 [] = true := rfl
  exact stays_append h hnil

theorem Under.length_lt {token : CString} {p : List UInt8} (h : Under token p) :
    token.val.length < p.length := by
  obtain ⟨rest, rfl, -⟩ := h
  rw [List.length_append, List.length_cons]
  omega

theorem Under.child {token : CString} {p : List UInt8} (h : Under token p) {name : CString}
    (hkept : sysfsFilter name = true) (hslash : slash ∉ name.val) {limit : Nat}
    (hlimit : p.length ≤ limit) : Under token ((p ++ slash :: name.val).take limit) := by
  rw [List.take_append, List.take_of_length_le hlimit]
  cases hroom : limit - p.length with
  | zero => rwa [List.take_zero, List.append_nil]
  | succ room =>
    obtain ⟨rest, rfl, hstays⟩ := h
    refine ⟨rest ++ slash :: name.val.take room, by
      rw [List.take_succ_cons, List.append_assoc, List.cons_append], ?_⟩
    rw [List.splitOn_append_cons_self]
    apply stays_append _ hstays
    have hnot : slash ∉ name.val.take room := fun h => hslash (List.mem_of_mem_take h)
    rw [List.splitOn_eq_singleton hnot, List.mem_singleton]
    intro heq
    have hhead : (name.val.take room).head? = some dot := by rw [← heq]; rfl
    rw [List.head?_take] at hhead
    split at hhead
    · exact nomatch hhead
    · rw [sysfsFilter, hhead] at hkept
      exact nomatch hkept

end Stays

section Runs

variable {η : Type} {env : ObjectEnv} {handle : Option η} {P : List UInt8 → Prop}

/-- All that can be read behind the path is written with the name of a child. -/
def Covers (env : ObjectEnv) (p : List UInt8) : Prop :=
  env.limit = env.pathMax + 2 ∨ p.length = env.limit

/-- The path stays in the buffer, and the paths of the object and of those below it are as they
should be. -/
def Kept (env : ObjectEnv) (P : List UInt8 → Prop) (mem : Memory)
    (out : Except FpgaError (FpgaObject η) × Memory) : Prop :=
  (∀ i, i < (pathAt env mem).length → out.2 i = mem i) ∧
    ∀ object, out.1 = .ok object → ∀ d, Descendant object d → P d.path

theorem Covers.child {p : List UInt8} (h : Covers env p) (s : List UInt8) :
    Covers env ((p ++ s).take env.limit) := by
  refine h.imp_right fun hlen => ?_
  rw [List.length_take, List.length_append]
  omega

theorem copied_to_limit {p : List UInt8} (hlen : p.length < env.limit) (h : Covers env p) :
    p.length + 1 + nameCount env p.length = env.limit := by
  have hlimit : env.limit = env.pathMax + 2 := h.resolve_right (Nat.ne_of_lt hlen)
  have hmod : env.pathMax + 1 + 2 ^ 64 - p.length = env.pathMax + 1 - p.length + 2 ^ 64 := by
    omega
  have hlt := env.pathMax_lt
  rw [nameCount, hmod, Nat.add_mod_right, Nat.mod_eq_of_lt (by omega)]
  omega

theorem pathAt_child {p : List UInt8} (hp : 0 ∉ p) (hcovers : Covers env p) {mem : Memory}
    (hmem : Bytes mem 0 ((p ++ [slash]).take env.limit)) (name : CString) :
    pathAt env (strncpy mem (p.length + 1) (nameCount env p.length) name) =
      (p ++ slash :: name.val).take env.limit := by
  have happend : p ++ slash :: name.val = p ++ [slash] ++ name.val := by
    rw [List.append_assoc, List.singleton_append]
  apply textAt_eq_take
  · rw [List.mem_append, List.mem_cons, not_or, not_or]
    exact ⟨hp, by decide, name.property⟩
  · intro k hk
    rw [List.length_take] at hk
    have hklimit : k < env.limit := (Nat.lt_min.mp hk).1
    rw [Nat.zero_add, List.getElem?_take, if_pos hklimit, happend]
    by_cases hle : k ≤ p.length
    · have hlt : k < (p ++ [slash]).length := by simpa using Nat.lt_succ_of_le hle
      have hbyte := hmem k (by rw [List.length_take]; exact Nat.lt_min.mpr ⟨hklimit, hlt⟩)
      rw [List.getElem?_take, if_pos hklimit, Nat.zero_add] at hbyte
      rw [List.getElem?_append_left hlt, hbyte, strncpy_of_lt name (Nat.lt_succ_of_le hle)]
    · have hend := copied_to_limit (by omega) hcovers
      have hlen := (Nat.lt_min.mp hk).2
      rw [List.length_append, List.length_cons] at hlen
      have hname : k - (p.length + 1) < name.val.length := by omega
      rw [strncpy, if_pos (by omega), List.getElem?_append_right (by simp; omega),
        List.length_append, List.length_singleton, List.getD_eq_getElem?_getD,
        List.getElem?_eq_getElem hname]
      rfl
  · intro hlt
    rw [List.length_append, List.length_cons] at hlt ⊢
    have hend := copied_to_limit (by omega) hcovers
    rw [strncpy, if_pos (by omega), List.getD_eq_getElem?_getD, List.getElem?_eq_none (by omega)]
    rfl

theorem same_after_child {p : List UInt8} (hp : 0 ∉ p) (hcovers : Covers env p)
    {mem mem' : Memory} (hmem : Bytes mem 0 ((p ++ [slash]).take env.limit)) {name : CString}
    (hframe : ∀ i, i < (pathAt env
      (strncpy mem (p.length + 1) (nameCount env p.length) name)).length →
      mem' i = strncpy mem (p.length + 1) (nameCount env p.length) name i) :
    ∀ i, i < ((p ++ [slash]).take env.limit).length → mem' i = mem i := by
  intro i hi
  rw [List.length_take, List.length_append, List.length_singleton] at hi
  rw [hframe i (by
    rw [pathAt_child hp hcovers hmem name, List.length_take, List.length_append, List.length_cons]
    omega)]
  exact strncpy_of_lt name (by omega)

theorem makeChildren_kept
    {make : Memory → CString → Option (Except FpgaError (FpgaObject η) × Memory)}
    {p : List UInt8} (hp : 0 ∉ p) (hcovers : Covers env p) {names : List CString}
    (hmake : ∀ n ∈ names, ∀ mem out, pathAt env mem = (p ++ slash :: n.val).take env.limit →
      make mem n = some out → Kept env P mem out)
    {mem mem' : Memory} (hmem : Bytes mem 0 ((p ++ [slash]).take env.limit))
    {objects : List (FpgaObject η)}
    (h : makeChildren env make p.length names mem = some (objects, mem')) :
    (∀ i, i < ((p ++ [slash]).take env.limit).length → mem' i = mem i) ∧
      ∀ o ∈ objects, ∀ d, Descendant o d → P d.path := by
  induction names generalizing mem mem' objects with
  | nil =>
    obtain ⟨rfl, rfl⟩ := Prod.mk.inj (Option.some_inj.mp h)
    exact ⟨fun _ _ => rfl, nofun⟩
  | cons name names ih =>
    rw [makeChildren] at h
    obtain ⟨⟨res, mem₁⟩, hres, h⟩ := Option.bind_eq_some_iff.mp h
    obtain ⟨⟨others, mem₂⟩, hothers, h⟩ := Option.bind_eq_some_iff.mp h
    have hpath := pathAt_child hp hcovers hmem name
    obtain ⟨hframe, hres⟩ := hmake name List.mem_cons_self _ _ hpath hres
    have hsame := same_after_child hp hcovers hmem hframe
    have hmem₁ : Bytes mem₁ 0 ((p ++ [slash]).take env.limit) :=
      hmem.congr fun j hj => hsame j (by rwa [Nat.zero_add] at hj)
    obtain ⟨hframe₂, hothers⟩ := ih (fun n hn => hmake n (List.mem_cons_of_mem name hn)) hmem₁
      hothers
    cases res with
    | error e =>
      obtain ⟨rfl, rfl⟩ := Prod.mk.inj (Option.some_inj.mp h)
      exact ⟨fun i hi => (hframe₂ i hi).trans (hsame i hi), hothers⟩
    | ok object =>
      obtain ⟨rfl, rfl⟩ := Prod.mk.inj (Option.some_inj.mp h)
      refine ⟨fun i hi => (hframe₂ i hi).trans (hsame i hi), fun o ho => ?_⟩
      rcases List.mem_cons.mp ho with rfl | ho
      · exact hres o rfl
      · exact hothers o ho

theorem descendant_leaf {type : FpgaSysfsType} {path name : List UInt8} {perm : Perm}
    {size maxSize : Nat} {buffer : List UInt8} {d : FpgaObject η}
    (h : Descendant (.mk type path name handle perm size maxSize buffer []) d) : d.path = path := by
  cases h with
  | refl => rfl
  | child hmem _ => exact nomatch hmem

theorem kept_error {mem mem' : Memory} (hsame : ∀ i, i < (pathAt env mem).length → mem' i = mem i)
    (e : FpgaError) :
    Kept env P mem ((.error e, mem') : Except FpgaError (FpgaObject η) × Memory) :=
  ⟨hsame, nofun⟩

theorem makeSysfsFile_path {path : List UInt8} {readable writable : Bool} {name : CString}
    {object d : FpgaObject η}
    (h : makeSysfsFile env handle path readable writable name = .ok object)
    (hd : Descendant object d) : d.path = path := by
  rw [makeSysfsFile] at h
  split at h
  · cases h
  · dsimp only at h
    split at h
    · rw [← Except.ok.inj h] at hd
      exact descendant_leaf hd
    · split at h
      · rw [← Except.ok.inj h] at hd
        exact descendant_leaf hd
      · cases h

theorem makeSysfsGroup_kept
    {make : ObjectFlags → Memory → CString → Option (Except FpgaError (FpgaObject η) × Memory)}
    (hmake : ∀ flags mem name out, Covers env (pathAt env mem) → P (pathAt env mem) →
      make flags mem name = some out → Kept env P mem out)
    (hchild : ∀ p names, env.entries p = .ok names → P p → p.length ≤ env.limit →
      ∀ n ∈ names, sysfsFilter n = true → P ((p ++ slash :: n.val).take env.limit))
    {flags : ObjectFlags} {mem : Memory} {name : CString}
    {out : Except FpgaError (FpgaObject η) × Memory} (hcovers : Covers env (pathAt env mem))
    (hP : P (pathAt env mem)) (h : makeSysfsGroup env handle make flags mem name = some out) :
    Kept env P mem out := by
  have hsame : ∀ i, i < (pathAt env mem).length →
      Function.update mem (pathAt env mem).length slash i = mem i :=
    fun i hi => Function.update_of_ne (Nat.ne_of_lt hi) ..
  rw [makeSysfsGroup] at h
  cases hscan : scandir env (pathAt env mem) with
  | error errno =>
    rw [hscan] at h
    rw [← Option.some_inj.mp h]
    exact kept_error (fun _ _ => rfl) _
  | ok namelist =>
    rw [hscan] at h
    dsimp only at h
    split at h
    · rw [← Option.some_inj.mp h]
      exact kept_error (fun _ _ => rfl) _
    split at h
    · rw [← Option.some_inj.mp h]
      exact kept_error (fun _ _ => rfl) _
    split at h
    · split at h
      · rw [← Option.some_inj.mp h]
        exact kept_error hsame _
      · obtain ⟨⟨objects, mem'⟩, hchildren, h⟩ := Option.bind_eq_some_iff.mp h
        have hnames : ∀ n ∈ namelist.reverse,
            P ((pathAt env mem ++ slash :: n.val).take env.limit) := by
          intro n hn
          cases hentries : env.entries (pathAt env mem) with
          | error errno =>
            rw [scandir, hentries] at hscan
            cases hscan
          | ok names =>
            rw [scandir, hentries] at hscan
            rw [← Except.ok.inj hscan, List.mem_reverse, List.mem_mergeSort, List.mem_filter] at hn
            exact hchild _ _ hentries hP (length_textAt ..) n hn.1 hn.2
        have hzero : 0 ∉ pathAt env mem := notMem_textAt _ _
        have hbytes : Bytes mem 0 (pathAt env mem) := bytes_textAt _ _
        obtain ⟨hframe, hbelow⟩ := makeChildren_kept hzero hcovers
          (fun n hn mem₁ out hpath hout => hmake _ mem₁ n out (by rw [hpath]; exact hcovers.child _)
            (by rw [hpath]; exact hnames n hn) hout)
          ((below_update hbytes).take env.limit) hchildren
        rw [← Option.some_inj.mp h]
        refine ⟨fun i hi => (hframe i ?_).trans (hsame i hi), ?_⟩
        · have hle : (pathAt env mem).length ≤ env.limit := length_textAt ..
          rw [List.length_take, List.length_append, List.length_singleton]
          omega
        · intro object hobject d hd
          rw [← Except.ok.inj hobject] at hd
          cases hd with
          | refl => exact hP
          | child hmem hd => exact hbelow _ hmem d hd
    · rw [← Option.some_inj.mp h]
      refine ⟨fun _ _ => rfl, fun object hobject d hd => ?_⟩
      rw [← Except.ok.inj hobject] at hd
      rw [descendant_leaf hd]
      exact hP

/-- The paths of an object and of all objects below it have a property of the path in the buffer
that passes on to the entries of a directory. -/
theorem makeSysfsObject_kept
    (hchild : ∀ p names, env.entries p = .ok names → P p → p.length ≤ env.limit →
      ∀ n ∈ names, sysfsFilter n = true → P ((p ++ slash :: n.val).take env.limit))
    {depth : Nat} {flags : ObjectFlags} {mem : Memory} {name : CString}
    {out : Except FpgaError (FpgaObject η) × Memory} (hcovers : Covers env (pathAt env mem))
    (hP : P (pathAt env mem)) (h : makeSysfsObject env handle depth flags mem name = some out) :
    Kept env P mem out := by
  induction depth generalizing flags mem name out with
  | zero => exact nomatch h
  | succ depth ih =>
    rw [makeSysfsObject] at h
    split at h
    · rw [← Option.some_inj.mp h]
      exact kept_error (fun _ _ => rfl) _
    · exact makeSysfsGroup_kept (fun _ _ _ _ hcovers hP h => ih hcovers hP h) hchild hcovers hP h
    · rw [← Option.some_inj.mp h]
      refine ⟨fun _ _ => rfl, fun object hobject d hd => ?_⟩
      rw [makeSysfsFile_path hobject hd]
      exact hP

end Runs

section Lookups

variable {η : Type} {brackets : Brackets} {tree : Tree brackets} {handle : Option η}
  {token : CString}

theorem pathAt_reading (tree : Tree brackets) (path : CString) (mem : Memory) :
    pathAt (tree.reading path) (strncpy mem 0 (path.val.length + 1) path) = path.val :=
  textAt_of_holds path.property (holds_strncpy (Nat.lt_succ_self _)) (Nat.le_max_right ..)

theorem makeFrom_under {depth : Nat} {flags : ObjectFlags} {mem : Memory} {path name : CString}
    {object : FpgaObject η}
    (h : makeFrom tree handle depth flags mem path name = some (.ok object))
    (hunder : Under token path.val) {d : FpgaObject η} (hd : Descendant object d) :
    Under token d.path := by
  obtain ⟨out, hout, hobject⟩ := Option.map_eq_some_iff.mp h
  refine (makeSysfsObject_kept (P := Under token) ?_ ?_ ?_ hout).2 object hobject d hd
  · intro p names hnames hp hlen n hn hkept
    exact hp.child hkept (tree.objects.noSlash p names hnames n hn) hlen
  · rw [pathAt_reading]
    rcases Nat.le_total path.val.length (tree.objects.pathMax + 2) with hle | hle
    · exact .inl (Nat.max_eq_left hle)
    · exact .inr (Nat.max_eq_right hle).symm
  · rwa [pathAt_reading]

theorem makeElements_cons_ok {depth : Nat} {flags : ObjectFlags} {mem : Memory} {path : CString}
    {paths : List CString} {objects : List (FpgaObject η)}
    (h : makeElements tree handle depth flags mem (path :: paths) = some (.ok objects)) :
    ∃ oname object others, strrchr path = some oname ∧
      makeFrom tree handle depth flags mem path oname = some (.ok object) ∧
      makeElements tree handle depth flags mem paths = some (.ok others) ∧
      objects = object :: others := by
  rw [makeElements] at h
  cases hname : strrchr path with
  | none =>
    rw [hname] at h
    cases h
  | some oname =>
    rw [hname] at h
    dsimp only at h
    split at h
    · cases h
    · split at h <;> cases h
    · next object hobject =>
      obtain ⟨rest, hrest, h⟩ := Option.map_eq_some_iff.mp h
      cases rest with
      | error e => cases h
      | ok others => exact ⟨oname, object, others, rfl, hobject, hrest, (Except.ok.inj h).symm⟩

theorem makeElements_under {depth : Nat} {flags : ObjectFlags} {mem : Memory}
    {paths : List CString} {objects : List (FpgaObject η)}
    (h : makeElements tree handle depth flags mem paths = some (.ok objects))
    (hunder : ∀ p ∈ paths, (strrchr p).isSome → Under token p.val) :
    ∀ o ∈ objects, ∀ d, Descendant o d → Under token d.path := by
  induction paths generalizing objects with
  | nil =>
    rw [← Except.ok.inj (Option.some_inj.mp h)]
    exact nofun
  | cons path paths ih =>
    obtain ⟨oname, object, others, hname, hobject, hrest, rfl⟩ := makeElements_cons_ok h
    intro o ho d hd
    rcases List.mem_cons.mp ho with rfl | ho
    · exact makeFrom_under hobject (hunder path List.mem_cons_self (by rw [hname]; rfl)) hd
    · exact ih hrest (fun p hp => hunder p (List.mem_cons_of_mem path hp)) o ho d hd

theorem makeElements_named {depth : Nat} {flags : ObjectFlags} {mem : Memory}
    {paths : List CString} {objects : List (FpgaObject η)}
    (h : makeElements tree handle depth flags mem paths = some (.ok objects)) :
    ∀ p ∈ paths, (strrchr p).isSome := by
  induction paths generalizing objects with
  | nil => exact nofun
  | cons path paths ih =>
    obtain ⟨oname, object, others, hname, -, hrest, -⟩ := makeElements_cons_ok h
    intro p hp
    rcases List.mem_cons.mp hp with rfl | hp
    · rw [hname]
      rfl
    · exact ih hrest p hp

/-- The pattern that is searched for in the end. With `anyDepth` in the path it is a path that is
found for the pattern of some depth. -/
inductive Resolves (brackets : Brackets) (path : CString) : CString → Prop
  | plain (h : strstr anyDepth path.val = none) : Resolves brackets path path
  | depth {i depth : Nat} {p : CString} (hfst : strstr anyDepth path.val = some i)
      (honly : strstr anyDepth (path.val.drop (i + 1)) = none) (hdepth : depth ∈ [1, 2, 3, 4, 5])
      (hp : Globs brackets (depthPattern path i depth).val p.val) :
      Resolves brackets path (cut sysfsPathMax p)

theorem cut_cut (p : CString) : cut sysfsPathMax (cut pathMax p) = cut sysfsPathMax p := by
  apply Subtype.ext
  exact List.take_take.trans rfl

theorem opaeGlobPaths_ok {call : Nat} {path : CString} {numFound found : Nat}
    {objectPaths : List CString}
    (h : opaeGlobPaths tree call path numFound = (found, .ok objectPaths)) :
    ∃ paths, tree.glob call path = .ok paths ∧ found = paths.length ∧
      objectPaths = (paths.take maxSysobjectGlob).map (cut pathMax) := by
  rw [opaeGlobPaths] at h
  cases hglob : tree.glob call path with
  | error e =>
    rw [hglob] at h
    exact nomatch (Prod.mk.inj h).2
  | ok paths =>
    rw [hglob] at h
    obtain ⟨hfound, hcopy⟩ := Prod.mk.inj h
    refine ⟨paths, rfl, hfound.symm, ?_⟩
    split at hcopy
    · exact (Except.ok.inj hcopy).symm
    · exact nomatch hcopy

theorem findAtDepths_ok {path : CString} {i : Nat} {depths : List Nat} {found : Nat}
    {res : Except FpgaError CString} {p : CString}
    (h : (findAtDepths tree path i depths found res).2 = .ok p) :
    depths = [] ∧ res = .ok p ∨ ∃ depth ∈ depths, ∃ q,
      Globs brackets (depthPattern path i depth).val q.val ∧ p = cut sysfsPathMax q := by
  induction depths generalizing found res with
  | nil => exact .inl ⟨rfl, h⟩
  | cons depth depths ih =>
    right
    rw [findAtDepths] at h
    have hlater (found : Nat) (e : FpgaError)
        (h : (findAtDepths tree path i depths found (.error e)).2 = .ok p) :
        ∃ depth' ∈ depth :: depths, ∃ q,
          Globs brackets (depthPattern path i depth').val q.val ∧ p = cut sysfsPathMax q := by
      rcases ih h with ⟨-, h⟩ | ⟨depth', hmem, hq⟩
      · exact nomatch h
      · exact ⟨depth', List.mem_cons_of_mem depth hmem, hq⟩
    split at h
    · next first _ hglob =>
      obtain ⟨paths, hpaths, -, hcopy⟩ := opaeGlobPaths_ok hglob
      have hfirst : first ∈ (paths.take maxSysobjectGlob).map (cut pathMax) := by
        rw [← hcopy]
        exact List.mem_cons_self
      obtain ⟨q, hq, rfl⟩ := List.mem_map.mp hfirst
      refine ⟨depth, List.mem_cons_self, q, ?_, ?_⟩
      · exact (tree.found _ _ _ hpaths).2.2 q (List.mem_of_mem_take hq)
      · rw [← Except.ok.inj h, cut_cut]
    · next hglob =>
      obtain ⟨paths, hpaths, -, hcopy⟩ := opaeGlobPaths_ok hglob
      have hnil : paths = [] := by
        have htake := List.map_eq_nil_iff.mp hcopy.symm
        rw [List.take_eq_nil_iff] at htake
        exact htake.resolve_left (by decide)
      exact absurd hnil (tree.found _ _ _ hpaths).1
    · exact hlater _ _ h

theorem resolves_of_ok {path pattern : CString}
    (h : (if (strstr anyDepth path.val).isSome then findGlobPath tree path
      else some (.ok path)) = some (.ok pattern)) : Resolves brackets path pattern := by
  cases hfst : strstr anyDepth path.val with
  | none =>
    rw [hfst] at h
    rw [← Except.ok.inj (Option.some_inj.mp h)]
    exact .plain hfst
  | some i =>
    rw [hfst, Option.isSome_some, if_pos rfl, findGlobPath, hfst] at h
    dsimp only at h
    cases honly : strstr anyDepth (path.val.drop (i + 1)) with
    | some j =>
      rw [honly] at h
      exact nomatch h
    | none =>
      rw [honly, Option.isSome_none, if_neg Bool.false_ne_true] at h
      split at h
      · exact nomatch h
      · rcases findAtDepths_ok (Option.some_inj.mp h) with ⟨hnil, -⟩ | ⟨depth, hdepth, q, hq, rfl⟩
        · exact nomatch hnil
        · exact .depth hfst honly hdepth hq

theorem makeSysfsObjectGlob_ok {depth : Nat} {flags : ObjectFlags} {mem : Memory}
    {path name : CString} {object : FpgaObject η}
    (h : makeSysfsObjectGlob tree handle depth flags mem path name = some (.ok object)) :
    ∃ pattern paths, Resolves brackets path pattern ∧ tree.glob 0 pattern = .ok paths ∧
      ((∃ p, paths = [p] ∧
        makeFrom tree handle depth flags mem (cut sysfsPathMax p) name = some (.ok object)) ∨
      1 < paths.length ∧ makeSysfsArray tree handle depth flags mem pattern name
        (paths.map (cut pathMax)) = some (.ok object)) := by
  rw [makeSysfsObjectGlob] at h
  split at h
  · exact nomatch h
  · exact nomatch h
  · next pattern hfull =>
    refine ⟨pattern, ?_⟩
    split at h
    · exact nomatch h
    · next found objectPaths hglob =>
      obtain ⟨paths, hpaths, rfl, rfl⟩ := opaeGlobPaths_ok hglob
      refine ⟨paths, resolves_of_ok hfull, hpaths, ?_⟩
      have hne := (tree.found _ _ _ hpaths).1
      cases paths with
      | nil => exact absurd rfl hne
      | cons p rest =>
        cases rest with
        | nil =>
          left
          refine ⟨p, rfl, ?_⟩
          rw [← cut_cut]
          exact h
        | cons q rest =>
          right
          refine ⟨by simp, ?_⟩
          change (if maxSysobjectGlob < (p :: q :: rest).length then none
            else makeSysfsArray tree handle depth flags mem pattern name
              (((p :: q :: rest).take maxSysobjectGlob).map (cut pathMax))) = _ at h
          by_cases hmany : maxSysobjectGlob < (p :: q :: rest).length
          · rw [if_pos hmany] at h
            exact nomatch h
          · rwa [if_neg hmany, List.take_of_length_le (Nat.le_of_not_lt hmany)] at h

end Lookups

end OpaeLibs.PluginXfpga.ObjectPaths
