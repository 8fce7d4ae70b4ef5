import OpaeLibs.PluginXfpga.GlobTable

namespace OpaeLibs.PluginXfpga.GlobSafety

open OpaeLibs.Lib.CStrings OpaeLibs.Lib.Heap OpaeLibs.Lib.Ownership OpaeLibs.OpaeC.Props
  OpaeLibs.PluginXfpga.GlobTable
open OpaeLibs.PluginXfpga.SysfsGlob (GlobError globError cut pathMax sysfsPathMax maxSysobjectGlob
  strstr anyDepth depthPattern strrchr)

section Conditions

variable (env : GlobEnv) (path : CString) (i : Nat)

def Completes (depth : Nat) : Prop :=
  ∃ paths, env.glob depth (depthPattern path i depth) = .ok paths ∧ Copied env depth paths

def Fails (depth : Nat) : Prop := ∃ e, env.glob depth (depthPattern path i depth) = .error e

def Counted (depths : List Nat) (paths : List CString) : Prop :=
  ∃ before depth after, depths = before ++ depth :: after ∧
    (∀ d ∈ before, ¬Completes env path i d) ∧
    env.glob depth (depthPattern path i depth) = .ok paths ∧
    (Completes env path i depth ∨ ∀ d ∈ after, Fails env path i d)

/-- The path is the first one at the first depth at which they are copied. -/
def FirstFound (depths : List Nat) (p : CString) : Prop :=
  ∃ before depth after first rest, depths = before ++ depth :: after ∧
    (∀ d ∈ before, ¬Completes env path i d) ∧
    env.glob depth (depthPattern path i depth) = .ok (first :: rest) ∧
    Copied env depth (first :: rest) ∧ p = cut sysfsPathMax (cut pathMax first)

/-- The text `"/**/"` is in the path once. -/
def OnlyAt : Prop :=
  strstr anyDepth path.val = some i ∧ strstr anyDepth (path.val.drop (i + 1)) = none

/-- The last depth that finds any paths finds no more than there are slots. -/
def FindFits : Prop :=
  ∀ i, OnlyAt path i → ∀ paths, Counted env path i globDepths paths →
    paths.length ≤ maxSysobjectGlob

def Resolves (p : CString) : Prop :=
  strstr anyDepth path.val = none ∧ p = path ∨
    ∃ i, OnlyAt path i ∧ FirstFound env path i globDepths p

/-- The element of a path is made, or it is the last of `n` and there is an object in its slot. -/
def Fills (n k : Nat) (p : CString) : Prop :=
  ∃ oname, strrchr p = some oname ∧
    ∀ e, env.make k p oname = .error e → k + 1 = n ∧ env.stored k = true

/-- No slot of an array of the paths is empty when it is destroyed. -/
def Filled (paths : List CString) : Prop :=
  env.allocObject = true → env.allocObjects = true →
    ∀ k p, paths[k]? = some p → Fills env paths.length k (cut pathMax p)

/-- No more paths match than there are slots and these are filled, or they are not copied. -/
def GlobFits (p : CString) : Prop :=
  ∀ paths, env.glob 0 p = .ok paths → Copied env 0 paths →
    paths.length ≤ maxSysobjectGlob ∧ (paths.length ≠ 1 → Filled env paths)

def ObjectFits : Prop := FindFits env path ∧ ∀ p, Resolves env path p → GlobFits env p

/-- No more paths match than there are slots and these are filled, or there is no array. -/
def ArrayFits : Prop :=
  ∀ paths, env.glob 0 path = .ok paths → Copied env 0 paths →
    env.allocObject = true → env.allocObjects = true →
      paths.length ≤ maxSysobjectGlob ∧ Filled env paths

/-- Of the table that `opae_glob_paths` has filled, `make_sysfs_array` reads nothing that is not
stored in it, and frees nothing of it. -/
def ArrayReadsStored (s : Store CString) : Prop :=
  ∀ r s', opaeGlobPaths env 0 path maxSysobjectGlob nullTable 0 s = some (r, s') → r.1 = .ok () →
    Runs (makeSysfsArray env r.2.2 r.2.1) s' fun _ s'' => s'' = s'

end Conditions

section Depths

variable {env : GlobEnv} {path : CString} {i : Nat} {depth : Nat} {depths : List Nat}
  {paths : List CString} {p : CString}

theorem counted_cons :
    Counted env path i (depth :: depths) paths ↔
      env.glob depth (depthPattern path i depth) = .ok paths ∧
        (Completes env path i depth ∨ ∀ d ∈ depths, Fails env path i d) ∨
      ¬Completes env path i depth ∧ Counted env path i depths paths := by
  constructor
  · rintro ⟨before, d, after, heq, hbefore, hglob, hlast⟩
    cases before with
    | nil =>
      obtain ⟨rfl, rfl⟩ := List.cons.inj heq
      exact .inl ⟨hglob, hlast⟩
    | cons b before =>
      obtain ⟨rfl, rfl⟩ := List.cons.inj heq
      exact .inr ⟨hbefore _ List.mem_cons_self, before, d, after, rfl,
        fun e he => hbefore e (List.mem_cons_of_mem _ he), hglob, hlast⟩
  · rintro (⟨hglob, hlast⟩ | ⟨hnot, before, d, after, rfl, hbefore, hglob, hlast⟩)
    · exact ⟨[], depth, depths, rfl, nofun, hglob, hlast⟩
    · refine ⟨depth :: before, d, after, rfl, fun e he => ?_, hglob, hlast⟩
      cases List.mem_cons.mp he with
      | inl heq => exact heq ▸ hnot
      | inr he => exact hbefore e he

theorem firstFound_cons :
    FirstFound env path i (depth :: depths) p ↔
      (∃ first rest, env.glob depth (depthPattern path i depth) = .ok (first :: rest) ∧
        Copied env depth (first :: rest) ∧ p = cut sysfsPathMax (cut pathMax first)) ∨
      ¬Completes env path i depth ∧ FirstFound env path i depths p := by
  constructor
  · rintro ⟨before, d, after, first, rest, heq, hbefore, hfirst⟩
    cases before with
    | nil =>
      obtain ⟨rfl, rfl⟩ := List.cons.inj heq
      exact .inl ⟨first, rest, hfirst⟩
    | cons b before =>
      obtain ⟨rfl, rfl⟩ := List.cons.inj heq
      exact .inr ⟨hbefore _ List.mem_cons_self, before, d, after, first, rest, rfl,
        fun e he => hbefore e (List.mem_cons_of_mem _ he), hfirst⟩
  · rintro (⟨first, rest, hfirst⟩ | ⟨hnot, before, d, after, first, rest, rfl, hbefore, hfirst⟩)
    · exact ⟨[], depth, depths, first, rest, rfl, nofun, hfirst⟩
    · refine ⟨depth :: before, d, after, first, rest, rfl, fun e he => ?_, hfirst⟩
      cases List.mem_cons.mp he with
      | inl heq => exact heq ▸ hnot
      | inr he => exact hbefore e he

theorem firstFound_cons_of_not (hnot : ¬Completes env path i depth) :
    FirstFound env path i (depth :: depths) p ↔ FirstFound env path i depths p := by
  rw [firstFound_cons, and_iff_right hnot, or_iff_right]
  rintro ⟨first, rest, hglob, hcopied, -⟩
  exact hnot ⟨_, hglob, hcopied⟩

theorem not_counted (h : ∀ d ∈ depths, Fails env path i d) : ¬Counted env path i depths paths := by
  rintro ⟨before, d, after, rfl, -, hglob, -⟩
  obtain ⟨e, he⟩ := h d (List.mem_append_right _ List.mem_cons_self)
  rw [hglob] at he
  exact nomatch he

structure Tried (env : GlobEnv) (path : CString) (i : Nat) (depths : List Nat)
    (res : Except FpgaError CString) (found : Nat) (base : Slots CString) (s : Store CString)
    (r : Except FpgaError CString × Nat × Table) : Prop where
  table : ∃ ids, r.2.2 = tableOf ids ∧ ids.length ≤ maxSysobjectGlob ∧ ids.length ≤ r.2.1 ∧
    Owns base s ids
  counted : (∃ paths, Counted env path i depths paths) ∨
    (∀ d ∈ depths, Fails env path i d) ∧ r.2.1 = found
  length : ∀ paths, Counted env path i depths paths → paths.length = r.2.1
  first : ∀ p, r.1 = .ok p ↔ FirstFound env path i depths p ∨ depths = [] ∧ res = .ok p

theorem Tried.cons_uncopied {res res' : Except FpgaError CString} {found : Nat}
    {base : Slots CString} {s : Store CString} {r : Except FpgaError CString × Nat × Table}
    (hglob : env.glob depth (depthPattern path i depth) = .ok paths)
    (hcopied : ¬Copied env depth paths) (hres : ∀ p, res ≠ .ok p)
    (h : Tried env path i depths res paths.length base s r) :
    Tried env path i (depth :: depths) res' found base s r := by
  have hnot : ¬Completes env path i depth := by
    rintro ⟨paths', hpaths', hcopied'⟩
    rw [hglob] at hpaths'
    obtain rfl := Except.ok.inj hpaths'
    exact hcopied hcopied'
  refine ⟨h.table, .inl ?_, fun paths' hpaths' => ?_, fun p => ?_⟩
  · cases h.counted with
    | inl hcounted =>
      obtain ⟨paths', hpaths'⟩ := hcounted
      exact ⟨paths', counted_cons.mpr (.inr ⟨hnot, hpaths'⟩)⟩
    | inr hfails => exact ⟨paths, counted_cons.mpr (.inl ⟨hglob, .inr hfails.1⟩)⟩
  · cases counted_cons.mp hpaths' with
    | inr hlater => exact h.length paths' hlater.2
    | inl hhere =>
      obtain ⟨hglob', hlast⟩ := hhere
      rw [hglob] at hglob'
      obtain rfl := Except.ok.inj hglob'
      have hfails := hlast.resolve_left hnot
      cases h.counted with
      | inl hcounted =>
        obtain ⟨paths', hpaths'⟩ := hcounted
        exact absurd hpaths' (not_counted hfails)
      | inr hfound => exact hfound.2.symm
  · rw [h.first p, firstFound_cons_of_not hnot, or_iff_left, or_iff_left]
    · exact fun hnil => nomatch hnil.1
    · exact fun hnil => hres p hnil.2

theorem Tried.cons_failed {res res' : Except FpgaError CString} {found : Nat}
    {base : Slots CString} {s : Store CString} {r : Except FpgaError CString × Nat × Table}
    {e : GlobError} (hglob : env.glob depth (depthPattern path i depth) = .error e)
    (hres : ∀ p, res ≠ .ok p) (h : Tried env path i depths res found base s r) :
    Tried env path i (depth :: depths) res' found base s r := by
  have hnot : ¬Completes env path i depth := by
    rintro ⟨paths, hpaths, -⟩
    rw [hglob] at hpaths
    exact nomatch hpaths
  have hcons : ∀ paths, Counted env path i (depth :: depths) paths ↔
      Counted env path i depths paths := by
    intro paths
    rw [counted_cons, and_iff_right hnot, or_iff_right]
    rintro ⟨hglob', -⟩
    rw [hglob] at hglob'
    exact nomatch hglob'
  refine ⟨h.table, ?_, fun paths hpaths => h.length paths ((hcons paths).mp hpaths), fun p => ?_⟩
  · cases h.counted with
    | inl hcounted =>
      obtain ⟨paths, hpaths⟩ := hcounted
      exact .inl ⟨paths, (hcons paths).mpr hpaths⟩
    | inr hfails => exact .inr ⟨List.forall_mem_cons.mpr ⟨⟨e, hglob⟩, hfails.1⟩, hfails.2⟩
  · rw [h.first p, firstFound_cons_of_not hnot, or_iff_left, or_iff_left]
    · exact fun hnil => nomatch hnil.1
    · exact fun hnil => hres p hnil.2

theorem tried_copied {res : Except FpgaError CString} {found : Nat} {base : Slots CString}
    {s : Store CString} {ids : List Nat} {first : CString} {rest : List CString}
    (hglob : env.glob depth (depthPattern path i depth) = .ok (first :: rest))
    (hcopied : Copied env depth (first :: rest))
    (hids : ids.length = min maxSysobjectGlob (first :: rest).length) (howns : Owns base s ids) :
    Tried env path i (depth :: depths) res found base s
      (.ok (cut sysfsPathMax (cut pathMax first)), (first :: rest).length, tableOf ids) := by
  have hcompletes : Completes env path i depth := ⟨_, hglob, hcopied⟩
  refine ⟨⟨ids, rfl, by omega, by dsimp only; omega, howns⟩,
    .inl ⟨_, counted_cons.mpr (.inl ⟨hglob, .inl hcompletes⟩)⟩, fun paths hpaths => ?_,
    fun p => ?_⟩
  · cases counted_cons.mp hpaths with
    | inl hhere =>
      have heq := hhere.1
      rw [hglob] at heq
      rw [← Except.ok.inj heq]
    | inr hlater => exact absurd hcompletes hlater.1
  · rw [firstFound_cons, Except.ok.injEq]
    constructor
    · rintro rfl
      exact .inl (.inl ⟨first, rest, hglob, hcopied, rfl⟩)
    · rintro ((⟨first', rest', hglob', -, rfl⟩ | hlater) | ⟨hnil, -⟩)
      · rw [hglob] at hglob'
        rw [(List.cons.inj (Except.ok.inj hglob')).1]
      · exact absurd hcompletes hlater.1
      · exact nomatch hnil

theorem error_ne_ok (e : FpgaError) (p : CString) :
    (.error e : Except FpgaError CString) ≠ .ok p := by
  intro h
  exact nomatch h

theorem runs_tryDepths {base : Slots CString} {s : Store CString} (depths : List Nat)
    (res : Except FpgaError CString) (found : Nat) (h : Owns base s []) :
    Runs (tryDepths env path i depths res found nullTable) s fun r s' =>
      Tried env path i depths res found base s' r := by
  induction depths generalizing res found s with
  | nil =>
    refine .pure ⟨⟨[], rfl, Nat.zero_le _, Nat.zero_le _, h⟩, .inr ⟨nofun, rfl⟩,
      fun paths hpaths => absurd hpaths (not_counted nofun), fun p => ?_⟩
    rw [or_iff_right, and_iff_right rfl]
    rintro ⟨before, _, _, _, _, hnil, -⟩
    cases before with
    | nil => exact nomatch hnil
    | cons b before => exact nomatch hnil
  | cons depth depths ih =>
    have hglobs := runs_opaeGlobPaths env depth (depthPattern path i depth) found h
    refine hglobs.bind fun r s' hr => ?_
    cases hr with
    | failed e hglob howns =>
      refine (ih (.error (globError e)) found howns).imp fun _ _ htried => ?_
      exact htried.cons_failed hglob (error_ne_ok _)
    | uncopied paths hglob hcopied howns =>
      refine (ih (.error ⟨.exception, FpgaResult.exception_ne_ok⟩) paths.length howns).imp
        fun _ _ htried => ?_
      exact htried.cons_uncopied hglob hcopied (error_ne_ok _)
    | copied paths ids hglob hcopied hids howns hold =>
      cases paths with
      | nil => exact absurd rfl (env.found _ _ _ hglob)
      | cons first rest =>
        dsimp only
        rw [if_pos (by rw [List.length_cons]; exact Nat.succ_pos _)]
        have hpos : 0 < ids.length := by
          rw [hids, List.length_cons]
          exact Nat.lt_min.mpr ⟨by decide, Nat.succ_pos _⟩
        refine (runs_readSlot (getElem?_tableOf hpos)).bind fun p s'' hp => ?_
        obtain ⟨rfl, rfl⟩ := hp
        have hread := runs_read_holds hold (List.getElem?_eq_getElem hpos)
          (a := cut pathMax first) rfl
        refine hread.bind fun text s'' htext => .pure ?_
        obtain ⟨rfl, rfl⟩ := htext
        exact tried_copied hglob hcopied hids howns

end Depths

section Search

variable {env : GlobEnv} {path : CString} {base : Slots CString} {s : Store CString}

theorem runs_findGlobPath (hfits : FindFits env path) (h : Owns base s []) :
    Runs (findGlobPath env path) s fun r s' => Owns base s' [] ∧
      ∀ p, r = .ok p ↔ ∃ i, OnlyAt path i ∧ FirstFound env path i globDepths p := by
  rw [findGlobPath]
  cases hat : strstr anyDepth path.val with
  | none =>
    refine .pure ⟨h, fun p => ⟨fun hp => absurd hp (error_ne_ok _ _), ?_⟩⟩
    rintro ⟨i, honly, -⟩
    rw [OnlyAt, hat] at honly
    exact nomatch honly.1
  | some i =>
    dsimp only
    cases hmore : strstr anyDepth (path.val.drop (i + 1)) with
    | some j =>
      rw [if_pos (by rfl)]
      refine .pure ⟨h, fun p => ⟨fun hp => absurd hp (error_ne_ok _ _), ?_⟩⟩
      rintro ⟨i', ⟨hat', hmore'⟩, -⟩
      rw [hat] at hat'
      obtain rfl := Option.some.inj hat'
      rw [hmore] at hmore'
      exact nomatch hmore'
    | none =>
      rw [if_neg (by exact Bool.false_ne_true)]
      refine (runs_tryDepths _ _ _ h).bind fun r s' htried => ?_
      obtain ⟨ids, hids, hlen, hle, howns⟩ := htried.table
      have hfound : r.2.1 ≤ maxSysobjectGlob := by
        cases htried.counted with
        | inl hcounted =>
          obtain ⟨paths, hpaths⟩ := hcounted
          exact htried.length paths hpaths ▸ hfits i ⟨hat, hmore⟩ paths hpaths
        | inr hfails => exact hfails.2 ▸ Nat.zero_le _
      rw [hids]
      refine (runs_freePaths_tableOf hlen hfound hle howns).bind fun _ s'' howns => ?_
      refine .pure ⟨howns, fun p => (htried.first p).trans ?_⟩
      constructor
      · rintro (hfirst | ⟨hnil, -⟩)
        · exact ⟨i, ⟨hat, hmore⟩, hfirst⟩
        · exact nomatch hnil
      · rintro ⟨i', ⟨hat', -⟩, hfirst⟩
        rw [hat] at hat'
        exact .inl (Option.some.inj hat' ▸ hfirst)

theorem faults_findGlobPath (hfits : ¬FindFits env path) (h : Owns base s []) :
    Faults (findGlobPath env path) s := by
  rw [FindFits] at hfits
  push Not at hfits
  obtain ⟨i, ⟨hat, hmore⟩, paths, hpaths, hlt⟩ := hfits
  rw [findGlobPath, hat]
  dsimp only
  rw [hmore, if_neg (by exact Bool.false_ne_true)]
  refine (runs_tryDepths _ _ _ h).bind_faults fun r s' htried => ?_
  obtain ⟨ids, hids, hlen, -⟩ := htried.table
  refine (faults_freePaths ?_).bind _
  rw [hids, length_tableOf hlen, ← htried.length paths hpaths]
  exact hlt

end Search

section Elements

variable {env : GlobEnv} {s : Store CString} {ids : List Nat} {texts : List CString} {n k : Nat}
  {p : CString}

theorem makeElements_succ (hold : Holds s ids texts) (hk : k < ids.length)
    (htext : texts[k]? = some p) :
    makeElements env (tableOf ids) (n + 1) k s =
      match strrchr p with
      | none => none
      | some oname =>
        match env.make k p oname with
        | .error e => if n = 0 ∧ env.stored k then some (.error e, s) else none
        | .ok () => makeElements env (tableOf ids) n (k + 1) s := by
  have hread := runs_read_holds hold (List.getElem?_eq_getElem hk) htext
  rw [makeElements, (runs_readSlot (getElem?_tableOf hk)).bind_eq, hread.bind_eq]
  cases strrchr p with
  | none => rfl
  | some oname =>
    dsimp only
    cases env.make k p oname with
    | ok u => rfl
    | error e =>
      dsimp only
      split <;> rfl

theorem runs_makeElements {total : Nat} (htotal : k + n = total) (hold : Holds s ids texts)
    (hle : total ≤ ids.length)
    (hfills : ∀ j p, k ≤ j → j < total → texts[j]? = some p → Fills env total j p) :
    Runs (makeElements env (tableOf ids) n k) s fun _ s' => s' = s := by
  induction n generalizing k with
  | zero => exact .pure rfl
  | succ n ih =>
    have hlen := hold.length_eq
    have htext : texts[k]? = some texts[k] := List.getElem?_eq_getElem (by omega)
    obtain ⟨oname, hname, hmade⟩ := hfills k _ (Nat.le_refl k) (by omega) htext
    rw [Runs, makeElements_succ hold (by omega) htext, hname]
    dsimp only
    cases hmake : env.make k texts[k] oname with
    | error e =>
      obtain ⟨hlast, hstored⟩ := hmade e hmake
      refine ⟨.error e, s, ?_, rfl⟩
      dsimp only
      rw [if_pos ⟨by omega, hstored⟩]
    | ok u =>
      exact ih (by omega) fun j p hj hlt hp => hfills j p (by omega) hlt hp

theorem faults_makeElements {total : Nat} (htotal : k + n = total) (hold : Holds s ids texts)
    (hids : ids.length = min maxSysobjectGlob total) (hk : k ≤ ids.length)
    (hbad : maxSysobjectGlob < total ∨
      ∃ j p, k ≤ j ∧ texts[j]? = some p ∧ ¬Fills env total j p) :
    Faults (makeElements env (tableOf ids) n k) s := by
  have hlen := hold.length_eq
  induction n generalizing k with
  | zero =>
    rcases hbad with hmany | ⟨j, p, hj, hp, -⟩
    · omega
    · have hlt := (List.getElem?_eq_some_iff.mp hp).1
      omega
  | succ n ih =>
    by_cases hroom : k < ids.length
    · have htext : texts[k]? = some texts[k] := List.getElem?_eq_getElem (by omega)
      rw [Faults, makeElements_succ hold hroom htext]
      cases hname : strrchr texts[k] with
      | none => rfl
      | some oname =>
        dsimp only
        have hnext : Fills env total k texts[k] → maxSysobjectGlob < total ∨
            ∃ j p, k + 1 ≤ j ∧ texts[j]? = some p ∧ ¬Fills env total j p := by
          intro hfills
          rcases hbad with hmany | ⟨j, p, hj, hp, hno⟩
          · exact .inl hmany
          · refine .inr ⟨j, p, Nat.lt_of_le_of_ne hj ?_, hp, hno⟩
            rintro rfl
            exact hno (Option.some.inj (htext.symm.trans hp) ▸ hfills)
        cases hmake : env.make k texts[k] oname with
        | ok u =>
          refine ih (by omega) hroom (hnext ⟨oname, hname, fun e he => ?_⟩)
          cases hmake.symm.trans he
        | error e =>
          dsimp only
          rw [if_neg]
          rintro ⟨rfl, hstored⟩
          rcases hnext ⟨oname, hname, fun _ _ => ⟨htotal, hstored⟩⟩ with hmany | ⟨j, p, hj, hp, -⟩
          · omega
          · have hlt := (List.getElem?_eq_some_iff.mp hp).1
            omega
    · refine (faults_readSlot ?_).bind _
      rw [length_tableOf (by omega)]
      omega

end Elements

section Objects

variable {env : GlobEnv} {path name : CString} {base : Slots CString} {s : Store CString}
  {ids : List Nat} {texts paths : List CString}

theorem runs_makeSysfsArray (hold : Holds s ids ((paths.take maxSysobjectGlob).map (cut pathMax)))
    (hlen : paths.length ≤ maxSysobjectGlob) (hfilled : Filled env paths) :
    Runs (makeSysfsArray env (tableOf ids) paths.length) s fun _ s' => s' = s := by
  rw [makeSysfsArray]
  split
  · exact .pure rfl
  · next hobject =>
    split
    · exact .pure rfl
    · next hobjects =>
      rw [List.take_of_length_le hlen] at hold
      have hids := hold.length_eq
      rw [List.length_map] at hids
      refine runs_makeElements (Nat.zero_add _) hold (Nat.le_of_eq hids) fun j p _ _ hp => ?_
      rw [List.getElem?_map, Option.map_eq_some_iff] at hp
      obtain ⟨q, hq, rfl⟩ := hp
      exact hfilled (by simpa using hobject) (by simpa using hobjects) j q hq

/-- Where there are more paths, or an array that is not filled, a slot is read behind the table or
destroyed though it is empty. -/
theorem faults_makeSysfsArray
    (hold : Holds s ids ((paths.take maxSysobjectGlob).map (cut pathMax)))
    (hids : ids.length = min maxSysobjectGlob paths.length) (hobject : env.allocObject = true)
    (hobjects : env.allocObjects = true)
    (hbad : ¬(paths.length ≤ maxSysobjectGlob ∧ Filled env paths)) :
    Faults (makeSysfsArray env (tableOf ids) paths.length) s := by
  rw [makeSysfsArray, hobject, hobjects]
  refine faults_makeElements (Nat.zero_add _) hold hids (Nat.zero_le _) ?_
  by_cases hlen : paths.length ≤ maxSysobjectGlob
  · rw [and_iff_right hlen, Filled] at hbad
    push Not at hbad
    obtain ⟨-, -, k, p, hp, hno⟩ := hbad
    refine .inr ⟨k, cut pathMax p, Nat.zero_le k, ?_, hno⟩
    rw [List.take_of_length_le hlen, List.getElem?_map, hp, Option.map_some]
  · exact .inl (Nat.not_le.mp hlen)

theorem runs_makeFound (howns : Owns base s ids)
    (hold : Holds s ids ((paths.take maxSysobjectGlob).map (cut pathMax)))
    (hids : ids.length = paths.length) (hlen : paths.length ≤ maxSysobjectGlob)
    (hfilled : paths.length ≠ 1 → Filled env paths) :
    Runs (makeFound env (tableOf ids) paths.length name) s fun _ s' => s' = s := by
  rw [makeFound]
  split
  · next hone =>
    have hpos : 0 < ids.length := by omega
    refine (runs_readSlot (getElem?_tableOf hpos)).bind fun q s' hq => ?_
    obtain ⟨rfl, rfl⟩ := hq
    exact (runs_read howns (List.getElem_mem hpos)).bind fun text s hs => .pure hs
  · next hone => exact runs_makeSysfsArray hold hlen (hfilled hone)

theorem runs_makeGlobbed (hfits : GlobFits env path) (h : Owns base s []) :
    Runs (makeGlobbed env path name) s fun _ s' => Owns base s' [] := by
  refine (runs_opaeGlobPaths env 0 path 0 h).bind fun r s' hr => ?_
  cases hr with
  | failed e hglob howns => exact .pure howns
  | uncopied paths hglob hcopied howns => exact .pure howns
  | copied paths ids hglob hcopied hids howns hold =>
    obtain ⟨hlen, hfilled⟩ := hfits paths hglob hcopied
    rw [Nat.min_eq_right hlen] at hids
    dsimp only
    refine (runs_makeFound howns hold hids hlen hfilled).bind fun res s'' heq => ?_
    subst heq
    have hfree := runs_freePaths_tableOf (by omega) hlen (Nat.le_of_eq hids) howns
    exact hfree.bind fun _ s howns => .pure howns

/-- What is freed behind the table is not stored in it, and an array with an empty slot does not
come so far. -/
theorem faults_makeGlobbed (hfits : ¬GlobFits env path) (h : Owns base s []) :
    Faults (makeGlobbed env path name) s := by
  rw [GlobFits] at hfits
  push Not at hfits
  obtain ⟨paths, hglob, hcopied, hbad⟩ := hfits
  refine (runs_opaeGlobPaths env 0 path 0 h).bind_faults fun r s' hr => ?_
  cases hr with
  | failed e hglob' =>
    rw [hglob] at hglob'
    exact nomatch hglob'
  | uncopied paths' hglob' hcopied' =>
    rw [hglob] at hglob'
    exact absurd (Except.ok.inj hglob' ▸ hcopied) hcopied'
  | copied paths' ids hglob' hcopied' hids howns hold =>
    rw [hglob] at hglob'
    obtain rfl := Except.ok.inj hglob'
    by_cases hlen : paths.length ≤ maxSysobjectGlob
    · obtain ⟨hone, hno⟩ := hbad hlen
      have hobjects := hno
      rw [Filled] at hobjects
      push Not at hobjects
      obtain ⟨hobject, hobjects, -⟩ := hobjects
      refine Faults.bind ?_ _
      rw [makeFound, if_neg hone]
      exact faults_makeSysfsArray hold hids hobject hobjects fun h => hno h.2
    · refine faults_bind _ fun res s'' => (faults_freePaths ?_).bind _
      rw [length_tableOf (by omega)]
      exact Nat.not_le.mp hlen

theorem runs_makeSysfsObject {glob : Bool} (hfits : glob = true → ObjectFits env path)
    (h : Owns base s []) :
    Runs (makeSysfsObject env path name glob) s fun _ s' => Owns base s' [] := by
  cases glob with
  | false => exact .pure h
  | true =>
    obtain ⟨hfind, hglob⟩ := hfits rfl
    rw [makeSysfsObject, if_pos rfl]
    cases hat : strstr anyDepth path.val with
    | none => exact runs_makeGlobbed (hglob path (.inl ⟨hat, rfl⟩)) h
    | some i =>
      rw [if_pos (by rfl)]
      refine (runs_findGlobPath hfind h).bind fun r s' hr => ?_
      obtain ⟨howns, hfull⟩ := hr
      cases r with
      | error e => exact .pure howns
      | ok full => exact runs_makeGlobbed (hglob full (.inr ((hfull full).mp rfl))) howns

theorem faults_makeSysfsObject (hfits : ¬ObjectFits env path) (h : Owns base s []) :
    Faults (makeSysfsObject env path name true) s := by
  rw [makeSysfsObject, if_pos rfl]
  by_cases hfind : FindFits env path
  · rw [ObjectFits, and_iff_right hfind] at hfits
    push Not at hfits
    obtain ⟨p, hresolves, hglob⟩ := hfits
    rcases hresolves with ⟨hat, rfl⟩ | ⟨i, honly, hfirst⟩
    · rw [hat, if_neg (by exact Bool.false_ne_true)]
      exact faults_makeGlobbed hglob h
    · rw [honly.1, if_pos (by rfl)]
      refine (runs_findGlobPath hfind h).bind_faults fun r s' hr => ?_
      obtain ⟨howns, hfull⟩ := hr
      obtain rfl := (hfull p).mpr ⟨i, honly, hfirst⟩
      exact faults_makeGlobbed hglob howns
  · have hsome : (strstr anyDepth path.val).isSome = true := by
      rw [FindFits] at hfind
      push Not at hfind
      obtain ⟨i, honly, -⟩ := hfind
      rw [honly.1]
      rfl
    rw [if_pos hsome]
    exact (faults_findGlobPath hfind h).bind _

theorem reads_of_arrayFits (hfits : ArrayFits env path) : ArrayReadsStored env path s := by
  intro r s' hrun hok
  obtain ⟨r', s'', hrun', hr⟩ := runs_opaeGlobPaths env 0 path 0 (owns_self s)
  rw [hrun] at hrun'
  cases hrun'
  cases hr with
  | failed => exact nomatch hok
  | uncopied => exact nomatch hok
  | copied paths ids hglob hcopied hids howns hold =>
    dsimp only
    by_cases halloc : env.allocObject = true ∧ env.allocObjects = true
    · obtain ⟨hlen, hfilled⟩ := hfits paths hglob hcopied halloc.1 halloc.2
      exact runs_makeSysfsArray hold hlen hfilled
    · rw [makeSysfsArray]
      split
      · exact .pure rfl
      · next hobject =>
        split
        · exact .pure rfl
        · next hobjects =>
          exact absurd ⟨by simpa using hobject, by simpa using hobjects⟩ halloc

theorem arrayReadsStored_iff : ArrayReadsStored env path s ↔ ArrayFits env path := by
  refine ⟨fun hreads paths hglob hcopied hobject hobjects => ?_, reads_of_arrayFits⟩
  by_contra hbad
  obtain ⟨r, s', hrun, hr⟩ := runs_opaeGlobPaths env 0 path 0 (owns_self s)
  cases hr with
  | failed e hglob' =>
    rw [hglob] at hglob'
    exact nomatch hglob'
  | uncopied paths' hglob' hcopied' =>
    rw [hglob] at hglob'
    exact absurd (Except.ok.inj hglob' ▸ hcopied) hcopied'
  | copied paths' ids hglob' hcopied' hids howns hold =>
    rw [hglob] at hglob'
    obtain rfl := Except.ok.inj hglob'
    have hfaults := faults_makeSysfsArray hold hids hobject hobjects hbad
    exact hfaults.not_runs (hreads _ s' hrun rfl)

end Objects

/-- The code keeps to the entries of its tables, and frees each of them once, where no more paths
are found than a table has slots and no array with an empty slot is destroyed. -/
theorem globTable_iff (env : GlobEnv) (path name : CString) (glob : Bool) (s : Store CString) :
    (Runs (findGlobPath env path) s (fun _ s' => Released s.heap s') ↔ FindFits env path) ∧
    (Runs (makeSysfsObject env path name glob) s (fun _ s' => Released s.heap s') ↔
      (glob = true → ObjectFits env path)) ∧
    (ArrayReadsStored env path s ↔ ArrayFits env path) := by
  have howns := owns_self s
  refine ⟨⟨fun hruns => ?_, fun hfits => ?_⟩, ⟨fun hruns hglob => ?_, fun hfits => ?_⟩,
    arrayReadsStored_iff⟩
  · by_contra hfits
    exact (faults_findGlobPath hfits howns).not_runs hruns
  · exact (runs_findGlobPath hfits howns).imp fun _ _ h => h.1.released
  · subst hglob
    by_contra hfits
    exact (faults_makeSysfsObject hfits howns).not_runs hruns
  · exact (runs_makeSysfsObject hfits howns).imp fun _ _ h => h.released

/-- A pattern that 129 paths match. -/
def manyPaths : GlobEnv where
  glob := fun _ _ => .ok (List.replicate 129 ⟨[47, 97], by decide⟩)
  found := fun _ _ paths h => by
    rw [← Except.ok.inj h]
    exact List.cons_ne_nil _ _
  dup := fun _ _ => true
  allocObject := true
  allocObjects := true
  make := fun _ _ _ => .ok ()
  stored := fun _ => false

def manyPattern : CString := ⟨[47, 42], by decide⟩

theorem manyPaths_not_safe :
    ¬Runs (makeSysfsObject manyPaths manyPattern manyPattern true) ⟨Slots.empty, 0⟩
      (fun _ s' => Released Slots.empty s') := by
  refine (faults_makeSysfsObject (fun hfits => ?_) (owns_self _)).not_runs
  have hle := (hfits.2 manyPattern (.inl ⟨by decide, rfl⟩) _ rfl (fun _ _ => rfl)).1
  rw [List.length_replicate] at hle
  exact absurd hle (by decide)

end OpaeLibs.PluginXfpga.GlobSafety
