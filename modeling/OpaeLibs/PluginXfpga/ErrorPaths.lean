import OpaeLibs.PluginXfpga.ErrorWalk

namespace OpaeLibs.PluginXfpga.ErrorPaths

open OpaeLibs.Lib.CStrings OpaeLibs.Lib.LinkedLists OpaeLibs.PluginXfpga.ErrorList
  OpaeLibs.PluginXfpga.ErrorWalk

/-- An entry has the whole path of its file, and if it can be cleared that of the file that is tried
for it. -/
structure Names (classPath : Bool) (f : Found) (e : ErrorEntry) : Prop where
  errorFile : e.errorFile = f.path
  clearFile : e.info.canClear = true → some e.clearFile = tested classPath f

def HasRoom (f : Found) : Prop := f.path.length < sysfsPathMax

instance (f : Found) : Decidable (HasRoom f) := inferInstanceAs (Decidable (_ < _))

def walked (env : ErrorEnv) (t : DirectoryTree) (l : ErrorLists) : Walk :=
  walkFrom env.mem t.path t.opens t.entries l.memory.calls

/-- The code writes within its buffer, and the entries that it appends are of the files for whose
paths there is room, and have these. -/
def Complete (env : ErrorEnv) (t : DirectoryTree) (l : ErrorLists)
    (r : Option (UInt32 × CellLists ErrorEntry)) : Prop :=
  ∃ n m ids entries, r = some (n, m) ∧
    Chain m (m.links .var) (l.ids ++ ids) (l.entries ++ entries) ∧
    List.Forall₂ (Names env.classPath) ((walked env t l).files.filter (HasRoom ·)) entries

section

variable {env : ErrorEnv} {t : DirectoryTree} {l : ErrorLists} {f : Found}

theorem length_tested {path : List UInt8} (h : tested env.classPath f = some path) :
    path.length ≤ f.path.length := by
  rw [tested] at h
  split at h
  · next herrors =>
    split at h
    · obtain rfl := Option.some.inj h
      have hle : (ascii "clear").length ≤ (ascii "errors").length := by decide
      rw [Found.path, herrors.1, List.length_append, List.length_append]
      omega
    · cases h
  · split at h
    · obtain rfl := Option.some.inj h
      exact Nat.le_refl _
    · cases h

theorem names_entryOf (h : HasRoom f) : Names env.classPath f (entryOf env.classPath f) := by
  have hblen : min (sysfsPathMax - 1) f.path.length = f.path.length :=
    Nat.min_eq_right (Nat.le_sub_one_of_lt h)
  refine ⟨?_, fun hclear => ?_⟩
  · rw [entryOf]
    dsimp only
    rw [hblen, List.take_length]
  · obtain ⟨path, hpath⟩ := Option.isSome_iff_exists.mp hclear
    rw [entryOf]
    dsimp only
    rw [hblen, hpath, Option.getD_some, List.take_of_length_le (length_tested hpath)]

theorem buildErrorList_walked (env : ErrorEnv) (t : DirectoryTree) (l : ErrorLists) :
    Outcome (walked env t l).paths (Built env 0 l.ids l.entries (walked env t l))
      (buildErrorList env t.path t.opens t.entries (some .var) l.memory) :=
  buildErrorList_built t.path t.opens t.entries l.chain ⟨[], l.ids, rfl, rfl⟩

theorem room_of_complete
    (h : Complete env t l (buildErrorList env t.path t.opens t.entries (some .var) l.memory)) :
    (∀ p ∈ (walked env t l).paths, p.length < filenameMax) ∧
      ∀ f ∈ (walked env t l).files, HasRoom f := by
  obtain ⟨n, m, ids, entries, hr, hchain, hnames⟩ := h
  obtain ⟨hshort, b, hb, hbuilt⟩ | ⟨-, hnone⟩ := buildErrorList_walked env t l
  · obtain rfl := Option.some.inj (hb.symm.trans hr)
    obtain ⟨ids', hchain'⟩ := hbuilt.chain
    have hentries := List.append_cancel_left (hchain.unique hchain').2
    have hlength := hnames.length_eq
    rw [hentries, List.length_map] at hlength
    refine ⟨hshort, fun f hf => ?_⟩
    exact of_decide_eq_true (List.length_filter_eq_length_iff.mp hlength f hf)
  · exact nomatch hr.symm.trans hnone

end

/-- The entries are complete just where the paths that are put together are shorter than the buffer
and those of the files fit in an entry. -/
theorem buildErrorList_complete_iff (env : ErrorEnv) (t : DirectoryTree) (l : ErrorLists) :
    Complete env t l (buildErrorList env t.path t.opens t.entries (some .var) l.memory) ↔
      (∀ p ∈ (walked env t l).paths, p.length < filenameMax) ∧
        ∀ f ∈ (walked env t l).files, HasRoom f := by
  refine ⟨room_of_complete, fun ⟨hshort, hroom⟩ => ?_⟩
  obtain ⟨-, ⟨n, m⟩, hb, hbuilt⟩ | ⟨⟨p, hp, hlong⟩, -⟩ := buildErrorList_walked env t l
  · obtain ⟨ids, hchain⟩ := hbuilt.chain
    refine ⟨n, m, ids, _, hb, hchain, ?_⟩
    have hall : (walked env t l).files.filter (HasRoom ·) = (walked env t l).files :=
      List.filter_eq_self.mpr fun f hf => decide_eq_true (hroom f hf)
    rw [hall, List.forall₂_map_right_iff, List.forall₂_same]
    exact fun f hf => names_entryOf (hroom f hf)
  · exact absurd (hshort p hp) (Nat.not_lt.mpr hlong)

section Sample

def nameA : Name := ⟨ascii "a", by decide, by decide, by decide⟩

theorem mem_files_single {mem : Nat → Bool} {path : List UInt8} {calls : Nat}
    (hmem : mem calls = true) (hpath : path.length + 3 ≤ filenameMax) :
    ⟨path ++ [slash], nameA, .other nameA .file .nil⟩ ∈
      (walkFrom mem path true (.other nameA .file .nil) calls).files := by
  have hopened : ¬filenameMax < min path.length (filenameMax - 1) + 3 := by omega
  have hpasses : passes (path ++ [slash]) nameA = false := by
    have hname : nameA.text.length = 1 := rfl
    have hskips : skips nameA = false := rfl
    rw [passes, hskips, hname, List.length_append, List.length_singleton, Bool.false_or,
      decide_eq_false_iff_not]
    omega
  rw [walkFrom, opened, if_neg hopened, if_neg (by decide), walk, hpasses]
  simp [hmem]

def oneFile (path : List UInt8) (noNul : 0 ∉ path) : DirectoryTree :=
  ⟨path, noNul, true, .other nameA .file .nil, List.not_mem_nil, trivial⟩

def noErrors : ErrorLists := ⟨⟨⟨[]⟩, fun _ => none, 0⟩, [], [], .nil⟩

def ampleEnv : ErrorEnv := ⟨fun _ => true, false⟩

theorem oneFile_not_complete {path : List UInt8} {noNul : 0 ∉ path} (hpath : path.length = 254) :
    ¬Complete ampleEnv (oneFile path noNul) noErrors
      (buildErrorList ampleEnv path true (.other nameA .file .nil) (some .var)
        noErrors.memory) := by
  intro h
  have hle : path.length + 3 ≤ filenameMax := by
    rw [hpath, filenameMax]
    omega
  have hroom := (room_of_complete h).2 ⟨path ++ [slash], nameA, .other nameA .file .nil⟩
    (mem_files_single rfl hle)
  have hname : nameA.text.length = 1 := rfl
  rw [HasRoom, Found.path, List.length_append, List.length_append, hpath, hname,
    List.length_singleton, sysfsPathMax] at hroom
  omega

theorem notMem_long : 0 ∉ List.replicate 254 (100 : UInt8) := by
  rw [List.mem_replicate]
  exact fun h => nomatch h.2

/-- The entry of a file whose path has 256 bytes loses the last of them. -/
theorem longPath_not_complete :
    ¬Complete ampleEnv (oneFile (List.replicate 254 100) notMem_long) noErrors
      (buildErrorList ampleEnv (List.replicate 254 100) true (.other nameA .file .nil) (some .var)
        noErrors.memory) :=
  oneFile_not_complete List.length_replicate

end Sample

end OpaeLibs.PluginXfpga.ErrorPaths
