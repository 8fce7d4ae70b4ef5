import OpaeLibs.PluginXfpga.ErrorPaths

namespace OpaeLibs.PluginXfpga.ErrorNumbers

open OpaeLibs.Lib.CStrings OpaeLibs.Lib.Heap OpaeLibs.Lib.LinkedLists OpaeLibs.OpaeC.Props
  OpaeLibs.PluginXfpga.ErrorList OpaeLibs.PluginXfpga.ErrorWalk OpaeLibs.PluginXfpga.ErrorPaths

/-- The paths of a directory are shorter than the buffer. -/
def Short : List UInt8 → Listing → Prop
  | _, .nil => True
  | base, .other name _ rest => (base ++ name.text).length < filenameMax ∧ Short base rest
  | base, .dir name _ below rest => (base ++ name.text).length < filenameMax ∧
      Short (base ++ name.text ++ [slash]) below ∧ Short base rest

structure ShortTree extends DirectoryTree where
  short : Short (path ++ [slash]) entries

/-- As many entries are appended as is returned, and without failure of an allocation as many are
counted. -/
structure Numbered (env : ErrorEnv) (t : DirectoryTree) (l : ErrorLists) : Prop where
  built : ∃ n m ids entries,
    buildErrorList env t.path t.opens t.entries (some .var) l.memory = some (n, m) ∧
    Chain m (m.links .var) (l.ids ++ ids) (l.entries ++ entries) ∧ n.toNat = entries.length
  counted : (∀ call, env.mem call = true) →
    (buildErrorList env t.path t.opens t.entries (some .var) l.memory).map Prod.fst =
      countErrorFiles env t.path t.opens t.entries l.memory

/-- What clearing all entries does, one after the other. -/
def clearEach {σ : Type} (files : Files σ) : List ErrorEntry → σ → FpgaResult × σ
  | [], s => (.ok, s)
  | p :: errors, s =>
    if p.info.canClear then
      let (res, s) := clearEntry files s p (readEntry files s p)
      if res ≠ .ok then (res, s) else clearEach files errors s
    else clearEach files errors s

/-- All calls act on the entry with the number. -/
structure Acts (errors : List ErrorEntry) : Prop where
  read : ∀ (σ : Type) (files : Files σ) num s,
    xfpgaFpgaReadError files (some ⟨fpgaTokenMagic, errors⟩) num s =
      errors[num.toNat]?.elim (.notFound, none) (readEntry files s)
  clear : ∀ (σ : Type) (files : Files σ) num s,
    xfpgaFpgaClearError files (some ⟨fpgaTokenMagic, errors⟩) num s =
      errors[num.toNat]?.elim (.notFound, s) fun p => clearEntry files s p (readEntry files s p)
  info : ∀ num, xfpgaFpgaGetErrorInfo (some ⟨fpgaTokenMagic, errors⟩) num true =
    errors[num.toNat]?.elim (.notFound, none) fun p => (.ok, some p.info)
  steps : ∀ k p, errors[k]? = some p → errorAt errors (UInt32.ofNat k) = some (k, p)
  clearAll : ∀ (σ : Type) (files : Files σ) s,
    xfpgaFpgaClearAllErrors files (some ⟨fpgaTokenMagic, errors⟩) s = clearEach files errors s

/-- A list of errors by its first cell. -/
structure SourceList where
  memory : CellLists ErrorEntry
  src : Option Nat
  ids : List Nat
  entries : List ErrorEntry
  chain : Chain memory src ids entries

/-- The clone has the same entries in cells of its own, or there is none and no cell is left of it.
The source is as it was. -/
def Cloned (mem : Nat → Bool) (l : SourceList) : Prop :=
  ∃ p m, cloneErrorList mem l.src l.memory = some (p, m) ∧ Chain m l.src l.ids l.entries ∧
    (∀ i < l.memory.heap.next, m.heap.get i = l.memory.heap.get i) ∧
    ((∃ ids, Chain m p ids l.entries ∧ ∀ i ∈ ids, l.memory.heap.next ≤ i) ∨
      p = none ∧ ∀ i, l.memory.heap.next ≤ i → m.heap.get i = none)

section Building

variable {env : ErrorEnv} {l : ErrorLists}

theorem walk_short (mem : Nat → Bool) (entries : Listing) {dir : Listing} {base : List UInt8}
    {calls : Nat} (h : Short base entries) :
    ∀ p ∈ (walk mem dir base entries calls).paths, p.length < filenameMax := by
  induction entries generalizing dir base calls with
  | nil =>
    intro _ h
    cases h
  | other name kind rest ih =>
    rw [walk]
    cases passes base name with
    | true => exact ih h.2
    | false =>
      rw [if_neg Bool.false_ne_true]
      split
      · split
        · exact List.forall_mem_cons.mpr ⟨h.1, ih h.2⟩
        · exact List.forall_mem_cons.mpr ⟨h.1, fun _ h => by cases h⟩
      · exact List.forall_mem_cons.mpr ⟨h.1, ih h.2⟩
  | dir name opens below rest ihbelow ihrest =>
    rw [walk]
    cases passes base name with
    | true => exact ihrest h.2.2
    | false =>
      rw [if_neg Bool.false_ne_true]
      refine List.forall_mem_cons.mpr ⟨h.1, fun p hp => ?_⟩
      obtain hp | hp := List.mem_append.mp hp
      · rw [opened] at hp
        split at hp
        · cases hp
        · split at hp
          · cases hp
          · exact ihbelow h.2.1 p hp
      · exact ihrest h.2.2 p hp

theorem walkFrom_short (mem : Nat → Bool) (t : ShortTree) (calls : Nat) :
    ∀ p ∈ (walkFrom mem t.path t.opens t.entries calls).paths, p.length < filenameMax := by
  rw [walkFrom, opened]
  split
  · intro _ hp
    cases hp
  · split
    · intro _ hp
      cases hp
    · exact walk_short mem t.entries t.short

theorem exists_built (env : ErrorEnv) (t : ShortTree) (l : ErrorLists) :
    ∃ r, buildErrorList env t.path t.opens t.entries (some .var) l.memory = some r ∧
      Built env 0 l.ids l.entries (walked env t.toDirectoryTree l) r := by
  obtain ⟨-, hbuilt⟩ | ⟨⟨p, hp, hlong⟩, -⟩ := buildErrorList_walked env t.toDirectoryTree l
  · exact hbuilt
  · exact absurd (walkFrom_short env.mem t _ p hp) (Nat.not_lt.mpr hlong)

theorem countErrorFiles_eq (env : ErrorEnv) (t : ShortTree) (m : CellLists ErrorEntry)
    (calls : Nat) :
    countErrorFiles env t.path t.opens t.entries m = some (UInt32.ofNat
      (walkFrom (fun _ => true) t.path t.opens t.entries calls).files.length) := by
  obtain ⟨-, r, hr, hcounted⟩ | ⟨⟨p, hp, hlong⟩, -⟩ :=
    buildErrorList_counted env t.path t.opens t.entries m calls
  · obtain rfl := hcounted
    rw [countErrorFiles, hr, Option.map_some, UInt32.zero_add]
  · exact absurd (walkFrom_short _ t _ p hp) (Nat.not_lt.mpr hlong)

theorem lt_of_numbered {t : ShortTree} (h : Numbered env t.toDirectoryTree l) :
    (walked env t.toDirectoryTree l).files.length < 2 ^ 32 := by
  obtain ⟨n, m, ids, entries, hr, hchain, hn⟩ := h.built
  obtain ⟨r, hr', hbuilt⟩ := exists_built env t l
  obtain rfl := Option.some.inj (hr'.symm.trans hr)
  obtain ⟨ids', hchain'⟩ := hbuilt.chain
  have hentries := List.append_cancel_left (hchain.unique hchain').2
  have hlength := congrArg List.length hentries
  rw [List.length_map] at hlength
  rw [← hlength, ← hn]
  exact n.toNat_lt

theorem numbered_iff (env : ErrorEnv) (t : ShortTree) (l : ErrorLists) :
    Numbered env t.toDirectoryTree l ↔
      (walked env t.toDirectoryTree l).files.length < 2 ^ 32 := by
  refine ⟨lt_of_numbered, fun hlt => ⟨?_, fun hmem => ?_⟩⟩
  · obtain ⟨⟨n, m⟩, hr, hbuilt⟩ := exists_built env t l
    obtain ⟨ids, hchain⟩ := hbuilt.chain
    refine ⟨n, m, ids, _, hr, hchain, ?_⟩
    have hcount : n = 0 + UInt32.ofNat (walked env t.toDirectoryTree l).files.length := hbuilt.count
    rw [hcount, UInt32.zero_add, List.length_map, UInt32.toNat_ofNat_of_lt' hlt]
  · obtain ⟨r, hr, hbuilt⟩ := exists_built env t l
    have hall : env.mem = fun _ => true := funext hmem
    rw [hr, Option.map_some, hbuilt.count, UInt32.zero_add,
      countErrorFiles_eq env t l.memory l.memory.calls, walked, hall]

end Building

section Acting

variable {errors : List ErrorEntry}

theorem ofNat_inj_of_le {k : Nat} {num : UInt32} (hk : k ≤ num.toNat) :
    UInt32.ofNat k = num ↔ k = num.toNat := by
  have hlt : k < 2 ^ 32 := Nat.lt_of_le_of_lt hk num.toNat_lt
  rw [← UInt32.toNat_inj, UInt32.toNat_ofNat_of_lt' hlt]

theorem errorFrom_eq (num : UInt32) (errors : List ErrorEntry) {k : Nat} (hk : k ≤ num.toNat) :
    errorFrom num errors (UInt32.ofNat k) k =
      (errors[num.toNat - k]?).map fun p => (num.toNat, p) := by
  induction errors generalizing k with
  | nil => rfl
  | cons p errors ih =>
    rw [errorFrom]
    by_cases heq : k = num.toNat
    · subst heq
      rw [if_pos (ofNat_inj_of_le hk |>.mpr rfl), Nat.sub_self]
      rfl
    · have hlt : k + 1 ≤ num.toNat := by omega
      have hsub : num.toNat - k = num.toNat - (k + 1) + 1 := by omega
      have hnext : UInt32.ofNat k + 1 = UInt32.ofNat (k + 1) := (UInt32.ofNat_add k 1).symm
      rw [if_neg (mt (ofNat_inj_of_le hk).mp heq), hnext, ih hlt, hsub, List.getElem?_cons_succ]

theorem errorAt_eq (errors : List ErrorEntry) (num : UInt32) :
    errorAt errors num = (errors[num.toNat]?).map fun p => (num.toNat, p) :=
  errorFrom_eq num errors (Nat.zero_le _)

theorem checked_magic {β : Type} (refused : FpgaResult → β) (act : List ErrorEntry → β) :
    checked (some ⟨fpgaTokenMagic, errors⟩) refused act = act errors := by
  rw [checked]
  exact if_neg (not_not.mpr rfl)

variable {σ : Type} (files : Files σ)

theorem readError_eq (errors : List ErrorEntry) (num : UInt32) (s : σ) :
    xfpgaFpgaReadError files (some ⟨fpgaTokenMagic, errors⟩) num s =
      errors[num.toNat]?.elim (.notFound, none) (readEntry files s) := by
  rw [xfpgaFpgaReadError, checked_magic, errorAt_eq]
  cases errors[num.toNat]? <;> rfl

theorem clearError_eq (errors : List ErrorEntry) (num : UInt32) (s : σ) :
    xfpgaFpgaClearError files (some ⟨fpgaTokenMagic, errors⟩) num s =
      errors[num.toNat]?.elim (.notFound, s) fun p =>
        clearEntry files s p (readEntry files s p) := by
  rw [xfpgaFpgaClearError, checked_magic, errorAt_eq, readError_eq]
  cases errors[num.toNat]? <;> rfl

theorem clearFrom_eq (hlength : errors.length ≤ 2 ^ 32) (pre rest : List ErrorEntry)
    (herrors : errors = pre ++ rest) (s : σ) :
    clearFrom files (some ⟨fpgaTokenMagic, errors⟩) rest (UInt32.ofNat pre.length) s =
      clearEach files rest s := by
  induction rest generalizing pre s with
  | nil => rfl
  | cons p rest ih =>
    have hlt : pre.length < 2 ^ 32 := by
      rw [herrors, List.length_append, List.length_cons] at hlength
      omega
    have hentry : errors[(UInt32.ofNat pre.length).toNat]? = some p := by
      rw [UInt32.toNat_ofNat_of_lt' hlt, herrors]
      simp
    have hnext : UInt32.ofNat pre.length + 1 = UInt32.ofNat (pre ++ [p]).length := by
      rw [List.length_append, List.length_singleton, UInt32.ofNat_add]
      rfl
    have hrest := ih (pre ++ [p]) (by rw [herrors, List.append_assoc]; rfl)
    rw [clearFrom, clearEach, clearError_eq, hentry, hnext]
    simp only [Option.elim_some, hrest]

theorem length_le_of_acts (h : Acts errors) : errors.length ≤ 2 ^ 32 := by
  by_contra hlong
  have hlt : 2 ^ 32 < errors.length := Nat.not_le.mp hlong
  have hstep := h.steps (2 ^ 32) errors[2 ^ 32] (List.getElem?_eq_getElem hlt)
  rw [errorAt_eq] at hstep
  obtain ⟨p, -, hp⟩ := Option.map_eq_some_iff.mp hstep
  exact nomatch (Prod.mk.inj hp).1

theorem acts_iff (errors : List ErrorEntry) : Acts errors ↔ errors.length ≤ 2 ^ 32 := by
  refine ⟨length_le_of_acts, fun hlength => ⟨fun σ files num s => readError_eq files errors num s,
    fun σ files num s => clearError_eq files errors num s, fun num => ?_, fun k p hp => ?_,
    fun σ files s => ?_⟩⟩
  · rw [xfpgaFpgaGetErrorInfo, if_neg (by decide), checked_magic, errorAt_eq]
    cases errors[num.toNat]? <;> rfl
  · obtain ⟨hk, -⟩ := List.getElem?_eq_some_iff.mp hp
    rw [errorAt_eq, UInt32.toNat_ofNat_of_lt' (Nat.lt_of_lt_of_le hk hlength), hp]
    rfl
  · rw [xfpgaFpgaClearAllErrors, checked_magic]
    exact clearFrom_eq files hlength [] errors rfl s

end Acting

section Cloning

/-- In the midst of cloning: the rest of the source, and what there is of the clone. -/
structure Cloning (m₀ m : CellLists ErrorEntry) (src : Option Nat) (is : List Nat)
    (as : List ErrorEntry) (js : List Nat) (bs : List ErrorEntry) : Prop where
  le_next : m₀.heap.next ≤ m.heap.next
  older : ∀ i < m₀.heap.next, m.heap.get i = m₀.heap.get i
  links : ∀ i < m₀.heap.next, m.links (.next i) = m₀.links (.next i)
  rest : Chain m src is as
  restOld : ∀ i ∈ is, i < m₀.heap.next
  clone : Chain m (m.links .var) js bs
  newer : ∀ i ∈ js, m₀.heap.next ≤ i
  live : ∀ i, m₀.heap.next ≤ i → (m.heap.get i).isSome → i ∈ js

/-- The end of cloning. -/
def EndsAs (m₀ : CellLists ErrorEntry) (entries : List ErrorEntry)
    (r : Option (Option Nat × CellLists ErrorEntry)) : Prop :=
  ∃ p m, r = some (p, m) ∧ (∀ i < m₀.heap.next, m.heap.get i = m₀.heap.get i) ∧
    (∀ i < m₀.heap.next, m.links (.next i) = m₀.links (.next i)) ∧
    ((∃ ids, Chain m p ids entries ∧ ∀ i ∈ ids, m₀.heap.next ≤ i) ∨
      p = none ∧ ∀ i, m₀.heap.next ≤ i → m.heap.get i = none)

variable {m₀ m : CellLists ErrorEntry} {src : Option Nat} {is js : List Nat}
  {as bs : List ErrorEntry}

theorem Cloning.failed (h : Cloning m₀ m src is as js bs) (entries : List ErrorEntry) :
    EndsAs m₀ entries ((freeCells (m.heap.next + 1) (m.links .var)
      { m with calls := m.calls + 1 }).map fun m => (none, m)) := by
  have hclone : Chain { m with calls := m.calls + 1 } (m.links .var) js bs :=
    h.clone.frame (fun _ _ => rfl) fun _ _ => rfl
  obtain ⟨m', hfree, hlinks, -, hget⟩ :=
    freeCells_eq hclone (Nat.le_succ_of_le hclone.length_le)
  refine ⟨none, m', by rw [hfree, Option.map_some], fun i hi => ?_, fun i hi => ?_,
    .inr ⟨rfl, fun i hi => ?_⟩⟩
  · have hnot : i ∉ js := fun hj => absurd (h.newer i hj) (Nat.not_le.mpr hi)
    rw [hget, if_neg hnot]
    exact h.older i hi
  · rw [hlinks]
    exact h.links i hi
  · rw [hget]
    split
    · rfl
    · next hnot => exact Option.not_isSome_iff_eq_none.mp (mt (h.live i hi) hnot)

theorem Cloning.get_old (h : Cloning m₀ m src is as js bs) (a : ErrorEntry) {k : Nat}
    (hk : k < m₀.heap.next) : (m.cell a).heap.get k = m.heap.get k := by
  have hnew := h.le_next
  rw [get_cell, if_neg (by omega)]

theorem Cloning.links_old (h : Cloning m₀ m src is as js bs) (a : ErrorEntry) {k : Nat}
    (hk : k < m₀.heap.next) :
    ((m.cell a).store (lastOf .var js) (some m.heap.next)).links (.next k) =
      m.links (.next k) := by
  have hnew := h.le_next
  have hne : Link.next k ≠ lastOf .var js := by
    intro heq
    obtain ⟨-, hlast⟩ | ⟨j, hj, hlast⟩ := lastOf_cases .var js
    · exact nomatch heq.trans hlast
    · obtain rfl := Link.next.inj (heq.trans hlast)
      exact absurd (h.newer k hj) (Nat.not_le.mpr hk)
  have hcell : (m.cell a).links (.next k) = m.links (.next k) :=
    links_cell m a fun heq => by
      have := Link.next.inj heq
      omega
  exact (links_store_of_ne _ hne _).trans hcell

theorem Cloning.step {i : Nat} {a : ErrorEntry}
    (h : Cloning m₀ m (some i) (i :: is) (a :: as) js bs) :
    Cloning m₀ ((m.cell a).store (lastOf .var js) (some m.heap.next)) (m.links (.next i)) is as
      (js ++ [m.heap.next]) (bs ++ [a]) := by
  have hnew : m₀.heap.next ≤ m.heap.next := h.le_next
  have hnot : m.heap.next ∉ js := fun hj => h.clone.ne_next hj rfl
  have hvar : (m.cell a).links .var = m.links .var := links_cell m a nofun
  have hclone : Chain (m.cell a) ((m.cell a).links .var) js bs := by
    rw [hvar]
    exact h.clone.cell a
  have hrest := h.restOld
  rw [List.forall_mem_cons] at hrest
  refine ⟨?_, fun k hk => (h.get_old a hk).trans (h.older k hk),
    fun k hk => (h.links_old a hk).trans (h.links k hk), ?_, hrest.2, ?_, ?_, ?_⟩
  · have hnext : m.heap.next ≤ (m.heap.alloc a).next := by
      rw [Slots.next_alloc]
      exact Nat.le_succ _
    exact Nat.le_trans hnew hnext
  · have hsuffix : Chain m (m.links (.next i)) is as := by
      cases h.rest with
      | cons _ hrest => exact hrest
    exact hsuffix.frame (fun k hk => h.get_old a (hrest.2 k hk)) fun k hk =>
      h.links_old a (hrest.2 k hk)
  · refine hclone.store_last (fun hmem => ?_) ((get_cell m a _).trans (if_pos rfl)) hnot nofun
      (Function.update_self ..)
    obtain ⟨_, _, heq⟩ := List.mem_map.mp hmem
    exact nomatch heq
  · intro k hk
    rw [List.mem_append, List.mem_singleton] at hk
    exact hk.elim (h.newer k) fun heq => heq ▸ hnew
  · intro k hk hsome
    rw [List.mem_append, List.mem_singleton]
    by_cases heq : k = m.heap.next
    · exact .inr heq
    · have hsome' : (m.heap.get k).isSome := by
        have hcell : (m.cell a).heap.get k = m.heap.get k := by rw [get_cell, if_neg heq]
        rw [← hcell]
        exact hsome
      exact .inl (h.live k hk hsome')

theorem cloneCells_ends (mem : Nat → Bool) {fuel : Nat} (h : Cloning m₀ m src is as js bs)
    (hfuel : is.length ≤ fuel) :
    EndsAs m₀ (bs ++ as) (cloneCells mem fuel src (lastOf .var js) m) := by
  induction is generalizing m src as js bs fuel with
  | nil =>
    cases hrest : h.rest with
    | nil =>
      rw [List.append_nil]
      refine ⟨m.links .var, m, by rw [cloneCells], h.older, h.links, .inl ⟨js, h.clone, h.newer⟩⟩
  | cons i is ih =>
    obtain ⟨fuel, rfl⟩ : ∃ n, fuel = n + 1 :=
      Nat.exists_eq_add_one.mpr (Nat.lt_of_lt_of_le (Nat.succ_pos _) hfuel)
    cases hrest : h.rest with
    | @cons _ a _ as hget _ =>
      rw [cloneCells, CellLists.malloc]
      cases mem m.calls with
      | false => exact h.failed _
      | true =>
        have hget' : (m.heap.alloc default).get i = some a := by
          rw [Slots.get_alloc, if_neg (Nat.ne_of_lt (Slots.lt_next hget))]
          exact hget
        rw [if_pos rfl]
        dsimp only
        rw [hget', Option.bind_some, fill_malloc]
        have hnext := ih h.step (Nat.le_of_succ_le_succ hfuel)
        rw [lastOf_concat, List.append_assoc] at hnext
        exact hnext

theorem cloneErrorList_cloned (mem : Nat → Bool) (l : SourceList) : Cloned mem l := by
  have hlive : ∀ i, l.memory.heap.next ≤ i →
      (l.memory.heap.get i).isSome → i ∈ ([] : List Nat) := by
    intro i hi hsome
    rw [Slots.get_of_le hi] at hsome
    exact nomatch hsome
  have hlinks : ∀ i, (l.memory.store .var none).links (.next i) = l.memory.links (.next i) :=
    fun i => links_store_of_ne l.memory (show Link.next i ≠ .var from nofun) none
  have hstart : Cloning l.memory (l.memory.store .var none) l.src l.ids l.entries [] [] :=
    ⟨Nat.le_refl _, fun _ _ => rfl, fun i _ => hlinks i,
      l.chain.frame (fun _ _ => rfl) fun i _ => hlinks i, l.chain.lt_next,
      by rw [links_store_self]; exact .nil, nofun, hlive⟩
  obtain ⟨p, m, hclone, hget, hlinks, hends⟩ :=
    cloneCells_ends mem hstart (Nat.le_succ_of_le l.chain.length_le)
  exact ⟨p, m, hclone, l.chain.frame (fun i hi => hget i (l.chain.lt_next i hi))
    fun i hi => hlinks i (l.chain.lt_next i hi), hget, hends⟩

/-- The list that is built is one to clone. -/
theorem exists_source (env : ErrorEnv) (t : ShortTree) (l : ErrorLists) :
    ∃ n, ∃ built : SourceList,
      buildErrorList env t.path t.opens t.entries (some .var) l.memory = some (n, built.memory) ∧
        built.src = built.memory.links .var := by
  obtain ⟨⟨n, m⟩, hr, hbuilt⟩ := exists_built env t l
  obtain ⟨ids, hchain⟩ := hbuilt.chain
  exact ⟨n, ⟨m, _, _, _, hchain⟩, hr, rfl⟩

end Cloning

/-- The number of errors is right just if it is less than `2 ^ 32`, the calls act on the entry with
their number just if there are no more of them, and a clone is equal or not there, also that of the
list that is built. -/
theorem error_numbers_iff (env : ErrorEnv) (t : ShortTree) (l : ErrorLists)
    (errors : List ErrorEntry) (mem : Nat → Bool) (source : SourceList) :
    (Numbered env t.toDirectoryTree l ↔
        (walked env t.toDirectoryTree l).files.length < 2 ^ 32) ∧
      (Acts errors ↔ errors.length ≤ 2 ^ 32) ∧ Cloned mem source ∧
      ∃ n, ∃ built : SourceList,
        buildErrorList env t.path t.opens t.entries (some .var) l.memory = some (n, built.memory) ∧
          built.src = built.memory.links .var ∧ Cloned mem built := by
  obtain ⟨n, built, hr, hsrc⟩ := exists_source env t l
  exact ⟨numbered_iff env t l, acts_iff errors, cloneErrorList_cloned mem source, n, built, hr,
    hsrc, cloneErrorList_cloned mem built⟩

section Sample

/-- The bits of a number. -/
def bitsText (i : Nat) : List UInt8 :=
  (List.range 32).map fun j => if i.testBit j then 49 else 48

theorem length_bitsText (i : Nat) : (bitsText i).length = 32 := by
  rw [bitsText, List.length_map, List.length_range]

theorem bitsText_inj {i j : Nat} (hi : i < 2 ^ 32) (hj : j < 2 ^ 32)
    (h : bitsText i = bitsText j) : i = j := by
  apply Nat.eq_of_testBit_eq
  intro k
  by_cases hk : k < 32
  · have hbit := List.map_inj_left.mp h k (List.mem_range.mpr hk)
    cases hbi : i.testBit k <;> cases hbj : j.testBit k <;> simp [hbi, hbj] at hbit ⊢
  · have hle : 2 ^ 32 ≤ 2 ^ k := Nat.pow_le_pow_right (by decide) (Nat.not_lt.mp hk)
    rw [Nat.testBit_lt_two_pow (Nat.lt_of_lt_of_le hi hle),
      Nat.testBit_lt_two_pow (Nat.lt_of_lt_of_le hj hle)]

def bitsName (i : Nat) : Name where
  text := bitsText i
  noNul := by
    intro h
    obtain ⟨j, -, hj⟩ := List.mem_map.mp h
    cases hbit : i.testBit j <;> simp [hbit] at hj
  ne_nil := by
    intro h
    have hlength := length_bitsText i
    rw [h] at hlength
    exact nomatch hlength
  fits := by
    rw [length_bitsText]
    decide

theorem passes_bitsName (i : Nat) {base : List UInt8} (hbase : base.length ≤ 8) :
    passes base (bitsName i) = false := by
  have hexcluded : errorsExclude.contains (bitsText i) = false := by
    rw [← Bool.not_eq_true, List.contains_iff_mem]
    intro h
    have hshort : ∀ t ∈ errorsExclude, t.length < 32 := by decide
    have hlt := hshort _ h
    rw [length_bitsText] at hlt
    exact Nat.lt_irrefl _ hlt
  have hhead : (bitsText i).head? ≠ some dot := by
    intro h
    obtain ⟨j, -, hj⟩ := List.mem_map.mp (List.mem_of_mem_head? h)
    cases hbit : i.testBit j <;> simp [hbit, dot] at hj
  have hskips : skips (bitsName i) = false :=
    Bool.or_eq_false_iff.mpr ⟨decide_eq_false hhead, hexcluded⟩
  have hlength : (bitsName i).text.length = 32 := length_bitsText i
  rw [passes, hskips, hlength, Bool.false_or, decide_eq_false_iff_not, filenameMax]
  omega

def manyFiles : Nat → Listing
  | 0 => .nil
  | n + 1 => .other (bitsName n) .file (manyFiles n)

theorem mem_names_manyFiles {text : List UInt8} {n : Nat} (h : text ∈ names (manyFiles n)) :
    ∃ i < n, text = bitsText i := by
  induction n with
  | zero => exact nomatch h
  | succ n ih =>
    obtain rfl | h := List.mem_cons.mp h
    · exact ⟨n, Nat.lt_succ_self n, rfl⟩
    · obtain ⟨i, hi, rfl⟩ := ih h
      exact ⟨i, Nat.lt_succ_of_lt hi, rfl⟩

theorem distinct_manyFiles {n : Nat} (hn : n ≤ 2 ^ 32) : Distinct (manyFiles n) := by
  induction n with
  | zero => exact trivial
  | succ n ih =>
    refine ⟨fun h => ?_, ih (Nat.le_of_succ_le hn)⟩
    obtain ⟨i, hi, heq⟩ := mem_names_manyFiles h
    obtain rfl := bitsText_inj hn (Nat.lt_trans hi hn) heq
    exact Nat.lt_irrefl _ hi

theorem short_manyFiles (n : Nat) {base : List UInt8} (hbase : base.length ≤ 8) :
    Short base (manyFiles n) := by
  induction n with
  | zero => exact trivial
  | succ n ih =>
    have hlength : (bitsName n).text.length = 32 := length_bitsText n
    refine ⟨?_, ih⟩
    rw [List.length_append, hlength, filenameMax]
    omega

theorem length_walk_manyFiles (n : Nat) {dir : Listing} {base : List UInt8}
    (hbase : base.length ≤ 8) (calls : Nat) :
    (walk (fun _ => true) dir base (manyFiles n) calls).files.length = n := by
  induction n generalizing calls with
  | zero => rfl
  | succ n ih =>
    rw [manyFiles, walk, passes_bitsName n hbase]
    exact congrArg (· + 1) (ih (calls + 1))

def manyTree (n : Nat) (hn : n ≤ 2 ^ 32) : ShortTree where
  path := ascii "/e"
  noNul := by decide
  opens := true
  entries := manyFiles n
  distinct := distinct_manyFiles hn
  short := short_manyFiles n (by decide)

theorem length_walked_manyTree (n : Nat) (hn : n ≤ 2 ^ 32) :
    (walked ampleEnv (manyTree n hn).toDirectoryTree noErrors).files.length = n :=
  length_walk_manyFiles n (show (ascii "/e" ++ [slash]).length ≤ 8 by decide) 0

/-- Of `2 ^ 32` files none is counted. -/
theorem manyTree_not_numbered :
    ¬Numbered ampleEnv (manyTree (2 ^ 32) (Nat.le_refl _)).toDirectoryTree noErrors := by
  intro h
  have hlt := lt_of_numbered h
  rw [length_walked_manyTree] at hlt
  exact Nat.lt_irrefl _ hlt

end Sample

end OpaeLibs.PluginXfpga.ErrorNumbers
