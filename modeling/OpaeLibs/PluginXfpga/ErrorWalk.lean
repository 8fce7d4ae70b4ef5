import OpaeLibs.PluginXfpga.ErrorList

namespace OpaeLibs.PluginXfpga.ErrorWalk

open OpaeLibs.Lib.CStrings OpaeLibs.Lib.LinkedLists OpaeLibs.PluginXfpga.ErrorList

/-- A file that is found, in a directory whose path ends with a slash. -/
structure Found where
  base : List UInt8
  name : Name
  dir : Listing

def Found.path (f : Found) : List UInt8 := f.base ++ f.name.text

/-- The paths that are put together, the files for which there is memory, and how many allocations
were tried. -/
structure Walk where
  paths : List (List UInt8)
  files : List Found
  calls : Nat

def passes (base : List UInt8) (name : Name) : Bool :=
  skips name || decide (filenameMax < base.length + name.text.length)

/-- A walk through the entries of a directory, which is given up where there is no memory for a
file. -/
def walk (mem : Nat → Bool) (dir : Listing) (base : List UInt8) : Listing → Nat → Walk
  | .nil, calls => ⟨[], [], calls⟩
  | .other name kind rest, calls =>
    if passes base name then walk mem dir base rest calls
    else if kind = .file then
      if mem calls then
        let w := walk mem dir base rest (calls + 1)
        ⟨(base ++ name.text) :: w.paths, ⟨base, name, dir⟩ :: w.files, w.calls⟩
      else ⟨[base ++ name.text], [], calls + 1⟩
    else
      let w := walk mem dir base rest calls
      ⟨(base ++ name.text) :: w.paths, w.files, w.calls⟩
  | .dir name opens below rest, calls =>
    if passes base name then walk mem dir base rest calls
    else
      let b := opened (base ++ name.text) opens ⟨[], [], calls⟩ fun base' =>
        walk mem below base' below calls
      let w := walk mem dir base rest b.calls
      ⟨(base ++ name.text) :: (b.paths ++ w.paths), b.files ++ w.files, w.calls⟩

def names : Listing → List (List UInt8)
  | .nil => []
  | .other name _ rest => name.text :: names rest
  | .dir name _ _ rest => name.text :: names rest

/-- No name comes twice in a directory. -/
def Distinct : Listing → Prop
  | .nil => True
  | .other name _ rest => name.text ∉ names rest ∧ Distinct rest
  | .dir name _ below rest => name.text ∉ names rest ∧ Distinct below ∧ Distinct rest

/-- A path and what it leads to. -/
structure DirectoryTree where
  path : List UInt8
  noNul : 0 ∉ path
  opens : Bool
  entries : Listing
  distinct : Distinct entries

/-- The list of errors of a token in memory. -/
structure ErrorLists where
  memory : CellLists ErrorEntry
  ids : List Nat
  entries : List ErrorEntry
  chain : Chain memory (memory.links .var) ids entries

def walkFrom (mem : Nat → Bool) (path : List UInt8) (opens : Bool) (entries : Listing)
    (calls : Nat) : Walk :=
  opened path opens ⟨[], [], calls⟩ fun base => walk mem entries base entries calls

def tested (classPath : Bool) (f : Found) : Option (List UInt8) :=
  if f.name.text = ascii "errors" ∧ classPath then
    if f.dir.has (ascii "clear") then some (f.base ++ ascii "clear") else none
  else if errorsClearable.contains f.name.text then some f.path
  else none

/-- The entry of a file. Both paths are cut where that of the file has to be. -/
def entryOf (classPath : Bool) (f : Found) : ErrorEntry :=
  let blen := min (sysfsPathMax - 1) f.path.length
  ⟨⟨f.name.text.take (fpgaErrorNameMax - 1), (tested classPath f).isSome⟩, f.path.take blen,
    ((tested classPath f).getD []).take blen⟩

section Entries

variable {env : ErrorEnv} {dir : Listing} {base : List UInt8} {name : Name}

theorem ite_passes {β : Type} (a b : β) :
    (if skips name then a else if filenameMax < base.length + name.text.length then a else b) =
      if passes base name then a else b := by
  rw [passes]
  cases skips name with
  | true => rfl
  | false => simp

theorem copyName_eq {text : List UInt8} (h : (base ++ text).length < filenameMax) :
    copyName base text = some (base ++ text) := by
  rw [List.length_append] at h
  exact if_pos h

theorem copyName_eq_none {text : List UInt8} (h : ¬(base ++ text).length < filenameMax) :
    copyName base text = none := by
  rw [List.length_append] at h
  exact if_neg h

theorem take_min (s : List UInt8) : s.take (min (sysfsPathMax - 1) s.length) =
    s.take (sysfsPathMax - 1) := by
  rw [← List.take_take, List.take_length]

theorem clearable_short (h : errorsClearable.contains name.text = true) :
    name.text.take (fpgaErrorNameMax - 1) = name.text := by
  have hall : ∀ t ∈ errorsClearable, t.length ≤ fpgaErrorNameMax - 1 := by decide
  exact List.take_of_length_le (hall _ (List.contains_iff_mem.mp h))

theorem newEntry_eq (h : (base ++ name.text).length < filenameMax) :
    newEntry env dir base name (base ++ name.text) =
      some (entryOf env.classPath ⟨base, name, dir⟩) := by
  rw [newEntry, entryOf, tested, Found.path]
  dsimp only
  rw [List.length_take, take_min]
  by_cases herrors : name.text = ascii "errors" ∧ env.classPath = true
  · have hclear : (base ++ ascii "clear").length < filenameMax := by
      have hlt : (ascii "clear").length < (ascii "errors").length := by decide
      rw [herrors.1, List.length_append] at h
      rw [List.length_append]
      omega
    rw [if_pos herrors, if_pos herrors, copyName_eq hclear, Option.map_some]
    cases dir.has (ascii "clear") with
    | true => rfl
    | false => simp
  · rw [if_neg herrors, if_neg herrors]
    cases hclearable : errorsClearable.contains name.text with
    | true =>
      rw [if_pos rfl, if_pos rfl, clearable_short hclearable, copyName_eq h]
      rfl
    | false =>
      rw [if_neg Bool.false_ne_true, if_neg Bool.false_ne_true]
      exact congrArg some (congrArg _ (List.take_nil).symm)

end Entries

section Outcomes

/-- The code comes to an end with the property, or writes past the end of its buffer if one of the
paths has no room. -/
def Outcome {β : Type} (paths : List (List UInt8)) (post : β → Prop) (r : Option β) : Prop :=
  (∀ p ∈ paths, p.length < filenameMax) ∧ (∃ b, r = some b ∧ post b) ∨
    (∃ p ∈ paths, filenameMax ≤ p.length) ∧ r = none

variable {β γ : Type} {paths paths' : List (List UInt8)} {path : List UInt8} {post : β → Prop}
  {post' : γ → Prop} {r : Option β}

theorem Outcome.nil {b : β} (h : post b) : Outcome [] post (some b) := .inl ⟨nofun, b, rfl, h⟩

theorem outcome_overflow (path : List UInt8) (hpath : path ∈ paths)
    (hlong : ¬path.length < filenameMax) :
    Outcome paths post none := .inr ⟨⟨path, hpath, Nat.not_lt.mp hlong⟩, rfl⟩

theorem Outcome.cons (h : Outcome paths post r) (hpath : path.length < filenameMax) :
    Outcome (path :: paths) post r := by
  obtain ⟨hshort, hr⟩ | ⟨⟨p, hp, hlong⟩, hr⟩ := h
  · exact .inl ⟨List.forall_mem_cons.mpr ⟨hpath, hshort⟩, hr⟩
  · exact .inr ⟨⟨p, List.mem_cons_of_mem path hp, hlong⟩, hr⟩

theorem Outcome.bind {next : β → Option γ} (h : Outcome paths post r)
    (hnext : ∀ b, post b → Outcome paths' post' (next b)) :
    Outcome (paths ++ paths') post' (r.bind next) := by
  obtain ⟨hshort, b, rfl, hb⟩ | ⟨⟨p, hp, hlong⟩, rfl⟩ := h
  · obtain ⟨hshort', hr⟩ | ⟨⟨p, hp, hlong⟩, hr⟩ := hnext b hb
    · exact .inl ⟨fun p hp => (List.mem_append.mp hp).elim (hshort p) (hshort' p), hr⟩
    · exact .inr ⟨⟨p, List.mem_append_right _ hp, hlong⟩, hr⟩
  · exact .inr ⟨⟨p, List.mem_append_left _ hp, hlong⟩, rfl⟩

theorem Outcome.imp (h : Outcome paths post r) {post' : β → Prop} (himp : ∀ b, post b → post' b) :
    Outcome paths post' r :=
  h.imp_left fun ⟨hshort, b, hr, hb⟩ => ⟨hshort, b, hr, himp b hb⟩

theorem outcome_opened (path : List UInt8) (opens : Bool) {closed : Walk}
    {w : List UInt8 → Walk} {b : β} {read : List UInt8 → Option β} (post : Walk → β → Prop)
    (hclosed : closed.paths = []) (hb : post closed b)
    (hread : ∀ base, Outcome (w base).paths (post (w base)) (read base)) :
    Outcome (opened path opens closed w).paths (post (opened path opens closed w))
      (opened path opens (some b) read) := by
  unfold opened
  split
  · rw [hclosed]
    exact .nil hb
  · split
    · rw [hclosed]
      exact .nil hb
    · exact hread _

theorem outcome_name (base : List UInt8) (name : Name) {w w' : Walk} {skipped : Option β}
    {read : List UInt8 → Option β} (post : Walk → β → Prop)
    (hskipped : Outcome w.paths (post w) skipped) (hpath : base ++ name.text ∈ w'.paths)
    (hread : (base ++ name.text).length < filenameMax →
      Outcome w'.paths (post w') (read (base ++ name.text))) :
    Outcome (if passes base name then w else w').paths (post (if passes base name then w else w'))
      (if skips name then skipped
        else if filenameMax < base.length + name.text.length then skipped
        else (copyName base name.text).bind read) := by
  rw [ite_passes]
  cases passes base name with
  | true => exact hskipped
  | false =>
    rw [if_neg Bool.false_ne_true, if_neg Bool.false_ne_true]
    by_cases hfits : (base ++ name.text).length < filenameMax
    · rw [copyName_eq hfits, Option.bind_some]
      exact hread hfits
    · rw [copyName_eq_none hfits, Option.bind_none]
      exact outcome_overflow _ hpath hfits

end Outcomes

section Refinement

/-- The entries of the files of a walk are behind those that are there. -/
structure Built (env : ErrorEnv) (n : UInt32) (is : List Nat) (as : List ErrorEntry) (w : Walk)
    (r : UInt32 × CellLists ErrorEntry) : Prop where
  count : r.1 = n + UInt32.ofNat w.files.length
  calls : r.2.calls = w.calls
  chain : ∃ is', Chain r.2 (r.2.links .var) (is ++ is')
    (as ++ w.files.map (entryOf env.classPath))

variable {env : ErrorEnv} {m : CellLists ErrorEntry} {is : List Nat} {as : List ErrorEntry}

theorem ofNat_length_nil (n : UInt32) : n = n + UInt32.ofNat ([] : List Found).length :=
  (UInt32.add_zero n).symm

theorem built_nil (env : ErrorEnv) (h : Chain m (m.links .var) is as) (n : UInt32) :
    Built env n is as ⟨[], [], m.calls⟩ (n, m) := by
  refine ⟨ofNat_length_nil n, rfl, [], ?_⟩
  rw [List.append_nil, List.map_nil, List.append_nil]
  exact h

theorem Built.file {w : Walk} {n : UInt32} {i : Nat} {f : Found} {r : UInt32 × CellLists ErrorEntry}
    (h : Built env (n + 1) (is ++ [i]) (as ++ [entryOf env.classPath f]) w r)
    (paths : List (List UInt8)) : Built env n is as ⟨paths, f :: w.files, w.calls⟩ r := by
  obtain ⟨is', hchain⟩ := h.chain
  refine ⟨?_, h.calls, i :: is', ?_⟩
  · rw [h.count, List.length_cons, Nat.add_comm, UInt32.ofNat_add, ← UInt32.add_assoc]
    rfl
  · rw [List.append_assoc, List.append_assoc] at hchain
    exact hchain

theorem Built.append {b w : Walk} {n added : UInt32} {is' : List Nat}
    {r : UInt32 × CellLists ErrorEntry} (hadded : added = 0 + UInt32.ofNat b.files.length)
    (h : Built env (n + added) (is ++ is') (as ++ b.files.map (entryOf env.classPath)) w r)
    (paths : List (List UInt8)) :
    Built env n is as ⟨paths, b.files ++ w.files, w.calls⟩ r := by
  obtain ⟨is'', hchain⟩ := h.chain
  refine ⟨?_, h.calls, is' ++ is'', ?_⟩
  · rw [h.count, hadded, List.length_append, UInt32.ofNat_add, UInt32.zero_add, UInt32.add_assoc]
  · rw [List.map_append, ← List.append_assoc, ← List.append_assoc]
    exact hchain

theorem readEntries_built (entries dir : Listing) (base : List UInt8) {l : Link} (n : UInt32)
    (h : Chain m (m.links .var) is as) (hl : OnList l is) :
    let w := walk env.mem dir base entries m.calls
    Outcome w.paths (Built env n is as w) (readEntries env dir base entries (some l) n m) := by
  dsimp only
  induction entries generalizing dir base l n m is as with
  | nil => exact .nil (built_nil env h n)
  | other name kind rest ih =>
    rw [walk, readEntries]
    refine outcome_name base name (Built env n is as) (ih dir base n h hl) ?_ fun hfits => ?_
    · split
      · split <;> exact List.mem_cons_self
      · exact List.mem_cons_self
    · cases kind with
      | link =>
        exact ((ih dir base n h hl).imp fun _ hb => ⟨hb.count, hb.calls, hb.chain⟩).cons hfits
      | missing =>
        exact ((ih dir base n h hl).imp fun _ hb => ⟨hb.count, hb.calls, hb.chain⟩).cons hfits
      | file =>
        dsimp only
        rw [if_pos rfl, CellLists.malloc]
        cases env.mem m.calls with
        | false =>
          have hchain : Chain { m with calls := m.calls + 1 } (m.links .var) is as :=
            h.frame (fun _ _ => rfl) fun _ _ => rfl
          have hn : n + 1 - 1 = n := UInt32.add_sub_cancel n 1
          rw [if_neg Bool.false_ne_true, if_neg Bool.false_ne_true]
          dsimp only
          rw [hn]
          have hb := built_nil env hchain n
          exact (Outcome.nil ⟨hb.count, hb.calls, hb.chain⟩).cons hfits
        | true =>
          obtain ⟨m', happend, hcalls, hchain⟩ :=
            append_cell h hl (entryOf env.classPath ⟨base, name, dir⟩)
          have hlast : OnList (.next m.heap.next) (is ++ [m.heap.next]) := by
            rw [← lastOf_concat .var is m.heap.next]
            exact onList_last _
          rw [if_pos rfl, if_pos rfl]
          dsimp only
          rw [newEntry_eq hfits, Option.bind_some, fill_malloc, happend, Option.bind_some, ← hcalls]
          exact ((ih dir base (n + 1) hchain hlast).imp fun _ hb => hb.file _).cons hfits
  | dir name opens below rest ihbelow ihrest =>
    rw [walk, readEntries]
    refine outcome_name base name (Built env n is as) (ihrest dir base n h hl)
      List.mem_cons_self fun hfits => ?_
    have hbelow := outcome_opened (base ++ name.text) opens (Built env 0 is as) rfl
      (built_nil env h 0) fun base' => ihbelow below base' 0 h hl
    refine (hbelow.bind fun r hb => ?_).cons hfits
    obtain ⟨is', hchain⟩ := hb.chain
    have hrest := ihrest dir base (n + r.1) hchain (hl.append is')
    rw [hb.calls] at hrest
    exact hrest.imp fun _ hb' => hb'.append hb.count _

theorem buildErrorList_built (path : List UInt8) (opens : Bool) (entries : Listing) {l : Link}
    (h : Chain m (m.links .var) is as) (hl : OnList l is) :
    let w := walkFrom env.mem path opens entries m.calls
    Outcome w.paths (Built env 0 is as w) (buildErrorList env path opens entries (some l) m) :=
  outcome_opened path opens _ rfl (built_nil env h 0) fun base =>
    readEntries_built entries entries base 0 h hl

/-- Without a list the files are counted, and nothing else is done. -/
def Counted (n : UInt32) (m : CellLists ErrorEntry) (w : Walk) (r : UInt32 × CellLists ErrorEntry) :
    Prop := r = (n + UInt32.ofNat w.files.length, m)

theorem counted_nil (m : CellLists ErrorEntry) (n : UInt32) (calls : Nat) :
    Counted n m ⟨[], [], calls⟩ (n, m) :=
  congrArg (·, m) (ofNat_length_nil n)

theorem readEntries_counted (entries dir : Listing) (base : List UInt8) (n : UInt32)
    (m : CellLists ErrorEntry) (calls : Nat) :
    let w := walk (fun _ => true) dir base entries calls
    Outcome w.paths (Counted n m w) (readEntries env dir base entries none n m) := by
  dsimp only
  induction entries generalizing dir base n calls with
  | nil => exact .nil (counted_nil m n calls)
  | other name kind rest ih =>
    rw [walk, readEntries]
    refine outcome_name base name (Counted n m) (ih dir base n calls) ?_ fun hfits => ?_
    · split <;> exact List.mem_cons_self
    · cases kind with
      | link => exact (ih dir base n calls).cons hfits
      | missing => exact (ih dir base n calls).cons hfits
      | file =>
        rw [if_pos rfl, if_pos rfl]
        refine ((ih dir base (n + 1) (calls + 1)).imp fun r hr => ?_).cons hfits
        rw [Counted, List.length_cons, Nat.add_comm, UInt32.ofNat_add, ← UInt32.add_assoc]
        exact hr
  | dir name opens below rest ihbelow ihrest =>
    rw [walk, readEntries]
    refine outcome_name base name (Counted n m) (ihrest dir base n calls) List.mem_cons_self
      fun hfits => ?_
    have hbelow := outcome_opened (base ++ name.text) opens (Counted 0 m) rfl
      (counted_nil m 0 calls) fun base' => ihbelow below base' 0 calls
    refine (hbelow.bind fun r hr => ?_).cons hfits
    obtain rfl := hr
    refine (ihrest dir base _ _).imp fun r hr => ?_
    rw [Counted, List.length_append, UInt32.ofNat_add, ← UInt32.add_assoc]
    rw [UInt32.zero_add] at hr
    exact hr

theorem buildErrorList_counted (env : ErrorEnv) (path : List UInt8) (opens : Bool)
    (entries : Listing) (m : CellLists ErrorEntry) (calls : Nat) :
    let w := walkFrom (fun _ => true) path opens entries calls
    Outcome w.paths (Counted 0 m w) (buildErrorList env path opens entries none m) :=
  outcome_opened path opens _ rfl (counted_nil m 0 calls) fun base =>
    readEntries_counted entries entries base 0 m calls

end Refinement

end OpaeLibs.PluginXfpga.ErrorWalk
