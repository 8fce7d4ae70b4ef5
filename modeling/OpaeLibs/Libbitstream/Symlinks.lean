import OpaeLibs.Libbitstream.PathChecks

namespace OpaeLibs.Libbitstream.Symlinks

open OpaeLibs.Lib.CStrings OpaeLibs.Lib.FileTrees OpaeLibs.Libbitstream.PathChecks

def opaeBitstreamPathNoParent : UInt32 := 0x00000001
def opaeBitstreamPathNoSymlink : UInt32 := 0x00000002

section Code

-- `leaves` is the text that `realpath` leaves in the buffer of a path if it fails
variable (t : FileTree) (leaves : List UInt8 → List UInt8)

/-- `fstatat` fails, or finds a link. -/
def failsOrLink (component : List UInt8) : Bool :=
  match t.lstat component with
  | none => true
  | some node => node.isLink

theorem length_strrchr_lt {c : UInt8} {s : List UInt8} {i : Nat} (h : strrchr c s = some i) :
    (s.take i).length < s.length := by
  obtain ⟨rest, heq, -⟩ := strrchr_eq_some h
  have hlen := congrArg List.length heq
  rw [List.length_append, List.length_cons] at hlen
  omega

def componentsContainSymlink (component : List UInt8) : Bool :=
  match _h : strrchr slash component with
  | some pslash => failsOrLink t component || componentsContainSymlink (component.take pslash)
  | none => failsOrLink t component
termination_by component.length
decreasing_by exact length_strrchr_lt _h

/-- `none` is a write behind `component`, which has `PATH_MAX` bytes. What `realpath` returns is not
looked at. -/
def opaeBitstreamPathContainsSymlink (path : List UInt8) : Option Bool :=
  if t.pathMax ≤ path.length then none
  else if path.head? = some slash then some (((t.realpath path).getD (leaves path)) != path)
  else some (componentsContainSymlink t path)

def opaeBitstreamPathIsValid (path : CString) (flags : UInt32) : Option Bool :=
  if path.val = [] then some false
  else if opaeBitstreamPathInvalidChars path.val path.val.length then some false
  else if opaeBitstreamPathNotFile t path.val then some false
  else if flags &&& opaeBitstreamPathNoParent ≠ 0 ∧
      opaeBitstreamPathContainsDotdot path.val path.val.length then some false
  else if flags &&& opaeBitstreamPathNoSymlink ≠ 0 then
    (opaeBitstreamPathContainsSymlink t leaves path.val).map (! ·)
  else some true

end Code

/-- No part of the path is a link. -/
def LinkFree (t : FileTree) (path : List UInt8) : Prop :=
  ∀ b, Boundary b path → ∀ target, t.lstat b ≠ some (.link target)

section Relative

variable {t : FileTree} {component : List UInt8}

theorem boundary_of_cut {pre rest rest' b : List UInt8} (hrest : slash ∉ rest)
    (h : pre ++ slash :: rest = b ++ slash :: rest') : Boundary b pre := by
  cases List.append_eq_append_iff.mp h with
  | inl h =>
    obtain ⟨a, rfl, ha⟩ := h
    cases a with
    | nil => exact .inl (List.append_nil pre)
    | cons x a =>
      have htail := (List.cons.inj ha).2
      exact absurd (htail ▸ List.mem_append_right a List.mem_cons_self) hrest
  | inr h =>
    obtain ⟨a, rfl, ha⟩ := h
    cases a with
    | nil => exact .inl (List.append_nil b).symm
    | cons x a =>
      obtain rfl := (List.cons.inj ha).1
      exact .inr ⟨a, rfl⟩

theorem not_link_of_failsOrLink (h : failsOrLink t component = false) (target : List UInt8) :
    t.lstat component ≠ some (.link target) := by
  intro hlink
  rw [failsOrLink, hlink] at h
  exact nomatch h

theorem linkFree_of_components (h : componentsContainSymlink t component = false) :
    LinkFree t component := by
  fun_induction componentsContainSymlink t component with
  | case1 component pslash hsome ih =>
    rw [Bool.or_eq_false_iff] at h
    obtain ⟨rest, hcut, hrest⟩ := strrchr_eq_some hsome
    rintro b (rfl | ⟨rest', hb⟩)
    · exact not_link_of_failsOrLink h.1
    · exact ih h.2 b (boundary_of_cut hrest (hcut.symm.trans hb))
  | case2 component hnone =>
    rintro b (rfl | ⟨rest, rfl⟩)
    · exact not_link_of_failsOrLink h
    · exact absurd (List.mem_append_right b List.mem_cons_self) (strrchr_eq_none.mp hnone)

theorem components_of_slash {pslash : Nat} (h : strrchr slash component = some pslash) :
    componentsContainSymlink t component =
      (failsOrLink t component || componentsContainSymlink t (component.take pslash)) := by
  rw [componentsContainSymlink]
  split
  · next hsome =>
    obtain rfl := Option.some.inj (h.symm.trans hsome)
    rfl
  · next hnone => exact nomatch h.symm.trans hnone

theorem components_of_name (h : strrchr slash component = none) :
    componentsContainSymlink t component = failsOrLink t component := by
  rw [componentsContainSymlink]
  split
  · next hsome => exact nomatch h.symm.trans hsome
  · rfl

end Relative

section Valid

variable {t : FileTree} {leaves : List UInt8 → List UInt8} {path : CString} {flags : UInt32}

structure Passes (t : FileTree) (path : CString) (flags : UInt32) : Prop where
  ne_nil : path.val ≠ []
  chars : opaeBitstreamPathInvalidChars path.val path.val.length = false
  isFile : opaeBitstreamPathNotFile t path.val = false
  noParent : flags &&& opaeBitstreamPathNoParent ≠ 0 →
    opaeBitstreamPathContainsDotdot path.val path.val.length = false

theorem stat_eq_of_isFile (h : opaeBitstreamPathNotFile t path.val = false) :
    t.stat path.val = some .file := by
  rw [opaeBitstreamPathNotFile] at h
  split at h
  · exact nomatch h
  · next node hnode =>
    rw [bne_eq_false_iff_eq] at h
    rw [hnode, h]

theorem length_lt_of_stat {p : List UInt8} {node : Node} (h : t.stat p = some node) :
    p.length < t.pathMax := by
  obtain ⟨place, hplace, -⟩ := Option.bind_eq_some_iff.mp h
  exact (length_lt_of_lookup hplace).2

theorem isValid_eq_true (hflag : flags &&& opaeBitstreamPathNoSymlink ≠ 0) :
    opaeBitstreamPathIsValid t leaves path flags = some true ↔
      Passes t path flags ∧ opaeBitstreamPathContainsSymlink t leaves path.val = some false := by
  rw [opaeBitstreamPathIsValid]
  constructor
  · intro h
    split at h
    · exact nomatch h
    next hnil =>
    split at h
    · exact nomatch h
    next hchars =>
    split at h
    · exact nomatch h
    next hfile =>
    split at h
    · exact nomatch h
    next hparent =>
    obtain ⟨found, hfound, hnot⟩ := Option.map_eq_some_iff.mp h
    rw [Bool.not_eq_true'] at hnot
    exact ⟨⟨hnil, Bool.not_eq_true _ ▸ hchars, Bool.not_eq_true _ ▸ hfile,
      fun hf => Bool.not_eq_true _ ▸ fun hd => hparent ⟨hf, hd⟩⟩, hnot ▸ hfound⟩
  · rintro ⟨⟨hnil, hchars, hfile, hparent⟩, hfound⟩
    rw [if_neg hnil, if_neg (by simp [hchars]), if_neg (by simp [hfile]),
      if_neg (by rintro ⟨hf, hd⟩; exact nomatch hd.symm.trans (hparent hf)), if_pos hflag, hfound]
    rfl

/-- An accepted path has no link in it unless it is absolute and `realpath` fails on it, but leaves
it in the buffer. -/
theorem linkFree_iff (t : FileTree) (leaves : List UInt8 → List UInt8) (path : CString)
    (flags : UInt32) (hflag : flags &&& opaeBitstreamPathNoSymlink ≠ 0) :
    (opaeBitstreamPathIsValid t leaves path flags = some true → LinkFree t path.val) ↔
      ¬(Passes t path flags ∧ path.val.head? = some slash ∧ t.realpath path.val = none ∧
        leaves path.val = path.val) := by
  rw [isValid_eq_true hflag]
  constructor
  · rintro hfree ⟨hpasses, habs, hreal, hleaves⟩
    have hstat := stat_eq_of_isFile hpasses.isFile
    obtain ⟨b, hb, target, hlink⟩ := exists_link_of_realpath_none habs hstat hreal
    refine hfree ⟨hpasses, ?_⟩ b hb target hlink
    rw [opaeBitstreamPathContainsSymlink, if_neg (Nat.not_le.mpr (length_lt_of_stat hstat)),
      if_pos habs, hreal, Option.getD_none, hleaves, bne_self_eq_false]
  · rintro hnot ⟨hpasses, hfound⟩
    have hstat := stat_eq_of_isFile hpasses.isFile
    rw [opaeBitstreamPathContainsSymlink, if_neg (Nat.not_le.mpr (length_lt_of_stat hstat))]
      at hfound
    split at hfound
    case isFalse => exact linkFree_of_components (Option.some.inj hfound)
    case isTrue habs =>
      have heq := bne_eq_false_iff_eq.mp (Option.some.inj hfound)
      intro b hb target hlink
      cases hreal : t.realpath path.val with
      | none =>
        rw [hreal] at heq
        exact hnot ⟨hpasses, habs, hreal, heq⟩
      | some p =>
        rw [hreal] at heq
        obtain rfl : p = path.val := heq
        have hdir : t.stat path.val ≠ some .dir := by
          rw [hstat]
          exact nofun
        exact nomatch isLink_of_realpath_eq hreal hdir hb hlink

end Valid

section Samples

def longName : List UInt8 := List.replicate 255 100

abbrev linkName : List UInt8 := ascii "l"
abbrev fileName : List UInt8 := ascii "f"

def longTarget : List UInt8 := [slash].intercalate (List.replicate 8 longName)

def longNode : Place → Option Node
  | [] => some .dir
  | name :: place =>
    if place.all (· == longName) && place.length ≤ 16 then
      if name = longName then some .dir
      else if name = linkName then some (.link longTarget)
      else if name = fileName then some .file
      else none
    else none

def longTree : FileTree := ⟨longNode, fun _ => true, [], 4096, 40⟩

def longPath : CString := ⟨ascii "/l/l/f", by decide⟩

theorem isName_longName : IsName longName := by
  refine ⟨by decide, by decide, by decide, fun h => ?_⟩
  exact absurd (List.eq_of_mem_replicate h) (by decide)

theorem longTree_node {k : Nat} (hk : k ≤ 16) (name : List UInt8) :
    longTree.node (name :: List.replicate k longName) =
      if name = longName then some .dir
      else if name = linkName then some (.link longTarget)
      else if name = fileName then some .file
      else none := if_pos (by simp [hk])

theorem enters_replicate {k : Nat} (hk : k ≤ 16) :
    longTree.enters (List.replicate k longName) = true := by
  have hnode : longTree.node (List.replicate k longName) = some .dir := by
    cases k with
    | zero => rfl
    | succ k => rw [List.replicate_succ, longTree_node (by omega), if_pos rfl]
  rw [FileTree.enters, Bool.and_eq_true, beq_iff_eq]
  exact ⟨hnode, rfl⟩

theorem walk_replicate {nofollow : Bool} {onLink : Place → List (List UInt8) → Option Place}
    (names : List (List UInt8)) (n k : Nat) (h : n + k ≤ 16) :
    longTree.walk nofollow onLink (List.replicate k longName)
        (List.replicate n longName ++ names) =
      longTree.walk nofollow onLink (List.replicate (n + k) longName) names := by
  induction n generalizing k with
  | zero => rw [List.replicate_zero, List.nil_append, Nat.zero_add]
  | succ n ih =>
    have hnode : longTree.node (longName :: List.replicate k longName) = some .dir := by
      rw [longTree_node (by omega), if_pos rfl]
    rw [List.replicate_succ, List.cons_append,
      walk_node isName_longName (enters_replicate (by omega)) hnode rfl, ← List.replicate_succ,
      ih (k + 1) (by omega), Nat.add_right_comm]
    rfl

theorem walk_linkName {onLink : Place → List (List UInt8) → Option Place} {k : Nat} (hk : k ≤ 16)
    (names : List (List UInt8)) :
    longTree.walk false onLink (List.replicate k longName) (linkName :: names) =
      onLink (List.replicate k longName) (List.replicate 8 longName ++ names) := by
  have hname : IsName linkName := ⟨by decide, by decide, by decide, by decide⟩
  have hnode : longTree.node (linkName :: List.replicate k longName) = some (.link longTarget) := by
    rw [longTree_node hk, if_neg (by decide), if_pos rfl]
  have hsplit : longTarget.splitOn slash = List.replicate 8 longName := by
    refine List.splitOn_intercalate slash (fun n hn => ?_) (by decide)
    rw [List.eq_of_mem_replicate hn]
    exact isName_longName.noSlash
  rw [walk_name hname (enters_replicate hk), hnode]
  dsimp only
  rw [if_neg (by simp), if_neg (by decide), if_neg (by decide), hsplit]

theorem lookup_longPath : longTree.lookup false longPath.val =
    some (fileName :: List.replicate 16 longName) := by
  have hname : IsName fileName := ⟨by decide, by decide, by decide, by decide⟩
  have hnode : longTree.node (fileName :: List.replicate 16 longName) = some .file := by
    rw [longTree_node (Nat.le_refl _), if_neg (by decide), if_neg (by decide), if_pos rfl]
  have hsplit : longPath.val.splitOn slash = [[], linkName, linkName, fileName] := by decide
  have hroot : longTree.enters [] = true := enters_replicate (Nat.zero_le 16)
  calc longTree.lookup false longPath.val
      = longTree.resolve false 40 [] [linkName, linkName, fileName] := by
        rw [lookup_abs (by decide) (by decide), hsplit]
        exact resolve_nil_cons hroot 40
    _ = longTree.resolve false 39 [] (List.replicate 8 longName ++ [linkName, fileName]) :=
        walk_linkName (Nat.zero_le 16) [linkName, fileName]
    _ = longTree.walk false (longTree.resolve false 38) (List.replicate 8 longName)
          [linkName, fileName] := walk_replicate [linkName, fileName] 8 0 (by decide)
    _ = longTree.resolve false 38 (List.replicate 8 longName)
          (List.replicate 8 longName ++ [fileName]) := walk_linkName (by decide) [fileName]
    _ = longTree.walk false (longTree.resolve false 37) (List.replicate 16 longName) [fileName] :=
        walk_replicate [fileName] 8 8 (by decide)
    _ = some (fileName :: List.replicate 16 longName) :=
        walk_node hname (enters_replicate (Nat.le_refl 16)) hnode rfl

theorem width_replicate (n : Nat) (name : List UInt8) :
    width (List.replicate n name) = n * (name.length + 1) := by
  induction n with
  | zero => exact (Nat.zero_mul _).symm
  | succ n ih => rw [List.replicate_succ, width_cons, ih, Nat.succ_mul, Nat.add_comm]

abbrev dirName : List UInt8 := ascii "d"

def plainNode : Place → Option Node
  | [] => some .dir
  | [name] => if name = dirName then some .dir else none
  | [name, parent] => if parent = dirName ∧ name = fileName then some .file else none
  | _ => none

def plainTree : FileTree := ⟨plainNode, fun _ => true, [], 4096, 40⟩

def plainPath : CString := ⟨ascii "d/.//f", by decide⟩

theorem plainPath_accepted : opaeBitstreamPathIsValid plainTree id plainPath
    opaeBitstreamPathNoSymlink = some true := by
  have hfile : componentsContainSymlink plainTree plainPath.val =
      (failsOrLink plainTree plainPath.val || componentsContainSymlink plainTree (ascii "d/./")) :=
    components_of_slash (show strrchr slash plainPath.val = some 4 by decide)
  have hslash : componentsContainSymlink plainTree (ascii "d/./") =
      (failsOrLink plainTree (ascii "d/./") || componentsContainSymlink plainTree (ascii "d/.")) :=
    components_of_slash (show strrchr slash (ascii "d/./") = some 3 by decide)
  have hdot : componentsContainSymlink plainTree (ascii "d/.") =
      (failsOrLink plainTree (ascii "d/.") || componentsContainSymlink plainTree dirName) :=
    components_of_slash (show strrchr slash (ascii "d/.") = some 1 by decide)
  have hdir : componentsContainSymlink plainTree dirName = failsOrLink plainTree dirName :=
    components_of_name (show strrchr slash dirName = none by decide)
  refine (isValid_eq_true (by decide)).mpr
    ⟨⟨by decide, by decide, by decide, fun h => absurd h (by decide)⟩, ?_⟩
  rw [opaeBitstreamPathContainsSymlink, if_neg (by decide), if_neg (by decide), hfile, hslash, hdot,
    hdir]
  decide

theorem linkFree_relative : opaeBitstreamPathIsValid plainTree id plainPath
    opaeBitstreamPathNoSymlink = some true ∧ LinkFree plainTree plainPath.val :=
  ⟨plainPath_accepted, (linkFree_iff plainTree id plainPath opaeBitstreamPathNoSymlink
    (by decide)).mpr (fun h => absurd h.2.1 (by decide)) plainPath_accepted⟩

/-- A path that is too long once its links are followed, which `realpath` leaves as it is. -/
theorem longPath_accepted : ¬(opaeBitstreamPathIsValid longTree id longPath
    opaeBitstreamPathNoSymlink = some true → LinkFree longTree longPath.val) := by
  have hnode : longTree.node (fileName :: List.replicate 16 longName) = some .file := by
    rw [longTree_node (Nat.le_refl _), if_neg (by decide), if_neg (by decide), if_pos rfl]
  have hstat : longTree.stat longPath.val = some .file := by
    rw [FileTree.stat, lookup_longPath]
    exact hnode
  have hlong : longTree.pathMax ≤
      (FileTree.text (fileName :: List.replicate 16 longName)).length := by
    rw [FileTree.text, if_neg (List.cons_ne_nil _ _), length_flatMap, width_reverse, width_cons,
      width_replicate, longName, List.length_replicate]
    decide
  have hreal : longTree.realpath longPath.val = none := by
    rw [FileTree.realpath, lookup_longPath, Option.bind_some, if_neg (Nat.not_lt.mpr hlong)]
  have hpasses : Passes longTree longPath opaeBitstreamPathNoSymlink := by
    refine ⟨by decide, by decide, ?_, fun h => absurd h (by decide)⟩
    rw [opaeBitstreamPathNotFile, hstat]
    rfl
  obtain ⟨b, hb, target, hlink⟩ := exists_link_of_realpath_none (by decide) hstat hreal
  intro hfree
  refine hfree ((isValid_eq_true (by decide)).mpr ⟨hpasses, ?_⟩) b hb target hlink
  rw [opaeBitstreamPathContainsSymlink, if_neg (by decide), if_pos (by decide), hreal]
  rfl

end Samples

end OpaeLibs.Libbitstream.Symlinks
