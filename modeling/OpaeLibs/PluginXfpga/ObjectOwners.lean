import OpaeLibs.PluginXfpga.ObjectMaking

namespace OpaeLibs.PluginXfpga.ObjectOwners

open OpaeLibs.Lib.Heap OpaeLibs.Lib.Ownership OpaeLibs.OpaeC.Props
  OpaeLibs.PluginXfpga.ObjectBlocks OpaeLibs.PluginXfpga.ObjectMaking
open OpaeLibs.Lib.CStrings (nul_notMem_nil)
open OpaeLibs.PluginXfpga.ObjectReads (SyncOutcome)
open OpaeLibs.PluginXfpga.SysfsGlob (LookupFlags)
open OpaeLibs.PluginXfpga.SysfsObject (ObjectFlags filePerm)

/-- An object owns all that has been allocated for it, or an error leaves nothing. -/
def Owned {η : Type} (s : Store (List UInt8)) (r : Made η) (s' : Store (List UInt8)) : Prop :=
  (r.1 = .ok ∧ ∃ o, r.2 = some o ∧ Owns s.heap s' o.blocks) ∨
    (r.1 ≠ .ok ∧ r.2 = none ∧ Released s.heap s')

section Conditions

variable {η : Type} (handle : Option η)

/-- A file is only written, or it can be read. -/
def Syncs (allocs : Allocs) (buffer readable writable : Bool) (sync : SyncOutcome) : Prop :=
  filePerm handle readable writable = .wronly ∨
    allocs.path = true ∧ ∃ text, sync = .reads text ∧ (buffer = true ∨ text = [])

/-- An object is made of what is at a path. -/
def Succeeds (flags : ObjectFlags) : Node → Prop
  | .missing _ => False
  | .file _ allocs buffer readable writable sync =>
    allocs.object = true ∧ Syncs handle allocs buffer readable writable sync
  | .unreadable _ => False
  | .dir _ allocs array entries =>
    entries ≠ [] ∧ allocs.object = true ∧ (recurses flags = true → array = true)

/-- There is a file for which a structure is allocated, but it cannot be read. -/
def Stores : Node → Prop
  | .file _ allocs buffer readable writable sync =>
    allocs.object = true ∧ ¬Syncs handle allocs buffer readable writable sync
  | _ => False

mutual

/-- Of the files that are reached, all for which a structure is allocated can be read. -/
def Clean (flags : ObjectFlags) : Node → Prop
  | .missing _ => True
  | .file _ allocs buffer readable writable sync =>
    allocs.object = true → Syncs handle allocs buffer readable writable sync
  | .unreadable _ => True
  | .dir _ allocs array entries =>
    allocs.object = true → recurses flags = true → array = true → AllClean (below flags) entries

def AllClean (flags : ObjectFlags) : List Node → Prop
  | [] => True
  | n :: ns => Clean flags n ∧ AllClean flags ns

end

/-- All elements are made; or all but the last, which is a file that cannot be read. -/
def ElementsEnd (flags : ObjectFlags) : List Element → Prop
  | [] => True
  | x :: xs => x.slash = true ∧
    (Succeeds handle flags x.node ∧ Clean handle flags x.node ∧ ElementsEnd flags xs ∨
      Stores handle x.node ∧ xs = [])

def ArrayClean (flags : ObjectFlags) (allocs : Allocs) (array : Bool) (elements : List Element) :
    Prop :=
  allocs.object = true → array = true → ElementsEnd handle flags elements

def ObjectClean (flags : LookupFlags) (a : Answer) : Prop :=
  if flags.glob then
    match a.globbed with
    | .fails _ => True
    | .found _ allocs array elements _ =>
      match elements with
      | [x] => Clean handle flags.toObjectFlags x.node
      | elements => ArrayClean handle flags.toObjectFlags allocs array elements
  else Clean handle flags.toObjectFlags a.node

def GroupClean (flags : LookupFlags) (globbed : Except FpgaError Unit)
    (scanned : Except FpgaError Directory) : Prop :=
  (flags.glob = true → globbed = .ok ()) → ∀ d, scanned = .ok d → d.allocs.object = true →
    recurses flags.toObjectFlags = true → d.array = true →
      ∀ a ∈ d.entries,
        ObjectClean handle { flags with toObjectFlags := below flags.toObjectFlags } a

end Conditions

section Leaks

variable {η : Type}

/-- What is used of a result: the object, unless there is an error. -/
def kept (r : Made η) : List Nat := if r.1 = .ok then r.2.elim [] Obj.blocks else []

/-- A call makes an object and may leave blocks that are not of it, which it does not if it is
clean. -/
def Leaves (p : Blocks (Made η)) (clean : Prop) : Prop :=
  ∀ s, RunsOr (¬clean) p s fun r s' => ∃ leaked, (leaked = [] ↔ clean) ∧
    Owns s.heap s' (kept r ++ leaked) ∧ (r.1 = .ok → r.2.isSome = true) ∧
    (clean → r.1 ≠ .ok → r.2 = none)

theorem Owns.leaked_eq_nil {base : Slots (List UInt8)} {s : Store (List UInt8)}
    {ids leaked : List Nat} (h : Owns base s ids) (h' : Owns base s (ids ++ leaked)) :
    leaked = [] := by
  cases leaked with
  | nil => rfl
  | cons i leaked =>
    have hmem : i ∈ ids ++ i :: leaked := List.mem_append_right _ List.mem_cons_self
    have hlive := (h'.live i (h'.newer i hmem)).mpr hmem
    have hold := (h.live i (h'.newer i hmem)).mp hlive
    exact absurd rfl ((List.nodup_append.mp h'.nodup).2.2 i hold i List.mem_cons_self)

theorem Released.leaked_eq_nil {base : Slots (List UInt8)} {s : Store (List UInt8)}
    {leaked : List Nat} (h : Released base s) (h' : Owns base s leaked) : leaked = [] := by
  cases leaked with
  | nil => rfl
  | cons i leaked =>
    have hle := h'.newer i List.mem_cons_self
    have hlive := (h'.live i hle).mpr List.mem_cons_self
    rw [h.newer i hle] at hlive
    exact nomatch hlive

theorem Leaves.owned_iff {p : Blocks (Made η)} {clean : Prop} (h : Leaves p clean)
    (s : Store (List UInt8)) : Runs p s (fun r s' => Owned s r s') ↔ clean := by
  rcases h s with ⟨hclean, hfault⟩ | ⟨r, s', hrun, leaked, hleaked, howns, hsome, hnone⟩
  · exact iff_of_false (fun hruns => hfault.not_runs hruns) hclean
  · constructor
    · rintro ⟨r', s'', hrun', howned⟩
      rw [hrun] at hrun'
      cases hrun'
      rw [← hleaked]
      rw [kept] at howns
      rcases howned with ⟨hok, o, ho, howns'⟩ | ⟨hne, -, hreleased⟩
      · rw [if_pos hok, ho] at howns
        exact Owns.leaked_eq_nil howns' howns
      · rw [if_neg hne] at howns
        exact Released.leaked_eq_nil hreleased howns
    · intro hclean
      obtain rfl := hleaked.mpr hclean
      rw [List.append_nil, kept] at howns
      refine ⟨r, s', hrun, ?_⟩
      by_cases hok : r.1 = .ok
      · obtain ⟨o, ho⟩ := Option.isSome_iff_exists.mp (hsome hok)
        rw [if_pos hok, ho] at howns
        exact .inl ⟨hok, o, ho, howns⟩
      · rw [if_neg hok] at howns
        exact .inr ⟨hok, hnone hclean hok, howns.released⟩

theorem leaves_error (e : FpgaError) : Leaves (pure (e.val, none) : Blocks (Made η)) True := by
  intro s
  refine .inr (.pure ⟨[], iff_of_true rfl trivial, ?_, fun h => absurd h e.property,
    fun _ _ => rfl⟩)
  rw [kept, if_neg e.property]
  exact owns_self s

end Leaks

section Groups

variable {η α : Type} {handle : Option η} {prog : α → Blocks (Made η)} {clean : α → Prop}
  {s : Store (List UInt8)} {names : Names} {allocs : Allocs} {recurse array : Bool} {xs : List α}

theorem runs_allocObject (handle : Option η) (names : Names) (allocs : Allocs)
    (s : Store (List UInt8)) :
    Runs (allocObject handle names allocs) s fun r s' =>
      allocs.object = false ∧ r = none ∧ Owns s.heap s' [] ∨
      allocs.object = true ∧ ∃ h, r = some h ∧ Owns s.heap s' h.blocks ∧
        (h.path.isSome = true ↔ allocs.path = true) := by
  refine (runs_allocFpgaObject _ _ _ _ _ s).bind fun (r : Option (Header η)) s' hr => .pure ?_
  rcases hr with ⟨hmem, rfl, howns⟩ | ⟨hmem, h, rfl, halloc⟩
  · exact .inl ⟨hmem, rfl, howns⟩
  · refine .inr ⟨hmem, _, rfl, halloc.owns, ?_⟩
    have hpath := congrArg Option.isSome halloc.pathText
    rw [Option.isSome_map, Option.isSome_map, copied] at hpath
    show h.path.isSome = true ↔ _
    rw [hpath]
    cases allocs.path with
    | false => exact iff_of_false (fun h => by cases h) fun h => by cases h
    | true => exact iff_of_true rfl rfl

theorem perm_made (made : List (Obj η)) (o : Obj η) (leaked₁ leaked₂ : List Nat) :
    (blocksOf made ++ leaked₂ ++ (o.blocks ++ leaked₁)).Perm
      (blocksOf (o :: made) ++ (leaked₂ ++ leaked₁)) := by
  rw [blocksOf, List.append_assoc, List.append_assoc]
  exact (List.perm_append_comm_assoc leaked₂ o.blocks leaked₁).append_left _

theorem leaves_fillGroup (xs : List α) (h : ∀ x ∈ xs, Leaves (prog x) (clean x))
    (objects : List (Obj η)) (s : Store (List UInt8)) :
    RunsOr (¬∀ x ∈ xs, clean x) (fillGroup (xs.map prog) objects) s fun os s' =>
      ∃ made leaked, os = objects ++ made ∧ (leaked = [] ↔ ∀ x ∈ xs, clean x) ∧
        Owns s.heap s' (blocksOf made ++ leaked) := by
  induction xs generalizing objects s with
  | nil =>
    refine .inr (.pure ⟨[], [], (List.append_nil _).symm, iff_of_true rfl nofun, owns_self s⟩)
  | cons x xs ih =>
    rw [List.map_cons, fillGroup, List.forall_mem_cons]
    have hxs := fun y hy => h y (List.mem_cons_of_mem x hy)
    refine (h x List.mem_cons_self s).bind (fun hclean hall => hclean hall.1) fun r s₁ hr => ?_
    obtain ⟨leaked₁, hleaked₁, howns₁, hsome, -⟩ := hr
    refine (ih hxs _ s₁).imp (fun hclean hall => hclean hall.2) fun os s₂ hos => ?_
    obtain ⟨made, leaked₂, rfl, hleaked₂, howns₂⟩ := hos
    have hall := howns₁.trans howns₂
    have hnil : leaked₂ ++ leaked₁ = [] ↔ clean x ∧ ∀ y ∈ xs, clean y := by
      rw [List.append_eq_nil_iff, hleaked₁, hleaked₂, and_comm]
    by_cases hok : r.1 = .ok
    · obtain ⟨o, ho⟩ := Option.isSome_iff_exists.mp (hsome hok)
      rw [if_pos hok, ho, Option.toList_some]
      refine ⟨o :: made, leaked₂ ++ leaked₁, List.append_assoc _ _ _, hnil, hall.perm ?_⟩
      rw [kept, if_pos hok, ho, Option.elim_some]
      exact perm_made made o leaked₁ leaked₂
    · rw [if_neg hok]
      refine ⟨made, leaked₂ ++ leaked₁, rfl, hnil, ?_⟩
      rw [kept, if_neg hok, List.nil_append] at hall
      rwa [← List.append_assoc]

/-- What comes of a call at which an object is made or not, with what it leaves. -/
structure Makes (succeeds clean : Prop) (s : Store (List UInt8)) (r : Made η)
    (s' : Store (List UInt8)) : Prop where
  result : r.1 = .ok ↔ succeeds
  object : r.1 = .ok → r.2.isSome = true
  none : r.1 ≠ .ok → r.2 = none
  leaves : ∃ leaked, (leaked = [] ↔ clean) ∧ Owns s.heap s' (kept r ++ leaked)

theorem makes_none {succeeds clean : Prop} {s' : Store (List UInt8)} {e : FpgaResult}
    (he : e ≠ .ok) (hs : ¬succeeds) (hc : clean) (h : Owns s.heap s' []) :
    Makes succeeds clean s ((e, none) : Made η) s' := by
  refine ⟨iff_of_false he hs, fun hok => absurd hok he, fun _ => rfl, [], iff_of_true rfl hc, ?_⟩
  rwa [kept, if_neg he]

theorem makes_some {succeeds clean : Prop} {s' : Store (List UInt8)} {o : Obj η}
    (leaked : List Nat) (hs : succeeds) (hc : leaked = [] ↔ clean)
    (h : Owns s.heap s' (o.blocks ++ leaked)) : Makes succeeds clean s (.ok, some o) s' := by
  refine ⟨iff_of_true rfl hs, fun _ => rfl, fun hne => absurd rfl hne, leaked, hc, ?_⟩
  rwa [kept, if_pos rfl]

theorem owns_container {base : Slots (List UInt8)} {s₁ s' : Store (List UInt8)} {h : Header η}
    {i : Nat} {os : List (Obj η)} {leaked : List Nat} (type : ContainerType)
    (h₁ : Owns base s₁ (i :: h.blocks)) (h' : Owns s₁.heap s' (blocksOf os ++ leaked)) :
    Owns base s' ((Obj.container h type i os).blocks ++ leaked) := by
  refine (h₁.trans h').perm ?_
  refine List.Perm.trans ?_ ((perm_container h type).append_right leaked)
  rw [List.append_assoc, List.append_assoc]
  exact List.Perm.append_left _ List.perm_append_comm

/-- Whether a group is made is a matter of its own allocations, and whether it is clean one of its
children. -/
theorem makes_makeGroup (handle : Option η) (recurse : Bool) (names : Names) (allocs : Allocs)
    (array : Bool) (h : ∀ x ∈ xs, Leaves (prog x) (clean x)) (s : Store (List UInt8)) :
    RunsOr
      (¬(xs ≠ [] → allocs.object = true → recurse = true → array = true → ∀ x ∈ xs, clean x))
      (makeGroup handle recurse names allocs array (xs.map prog)) s
      (Makes (xs ≠ [] ∧ allocs.object = true ∧ (recurse = true → array = true))
        (xs ≠ [] → allocs.object = true → recurse = true → array = true → ∀ x ∈ xs, clean x)
        s) := by
  rw [makeGroup]
  cases xs with
  | nil =>
    exact .inr (.pure (makes_none nofun (fun hs => hs.1 rfl) (fun hne => absurd rfl hne)
      (owns_self s)))
  | cons x xs =>
    have hne : x :: xs ≠ [] := List.cons_ne_nil x xs
    rw [if_neg (by exact Bool.false_ne_true)]
    refine (runs_allocObject handle names allocs s).bindOr fun r s₁ hr => ?_
    rcases hr with ⟨hobject, rfl, howns⟩ | ⟨hobject, hd, rfl, howns, -⟩
    · rw [hobject]
      exact .inr (.pure (makes_none nofun (fun hs => (nomatch hs.2.1)) (fun _ h => (nomatch h))
        howns))
    · rw [hobject]
      cases recurse with
      | false =>
        refine .inr (.pure (makes_some _ ⟨hne, rfl, nofun⟩
          (iff_of_true rfl fun _ _ h => (nomatch h)) ?_))
        rw [List.append_nil]
        exact howns
      | true =>
        refine (runs_malloc_owns (fun _ => array) [] howns).bindOr fun p s₂ hp => ?_
        rcases hp.2.2 with ⟨harray, rfl, howns₂⟩ | ⟨harray, i, rfl, howns₂⟩
        · have hbare : Owns s.heap s₂ ((Obj.bare hd .dir).blocks ++ []) := by
            rw [List.append_nil]
            exact howns₂
          have hnot : array ≠ true := fun h => (nomatch harray.symm.trans h)
          refine .inr ((runs_destroyFpgaObject _ hbare).bind fun _ s₃ howns₃ => .pure ?_)
          exact makes_none nofun (fun hs => hnot (hs.2.2 rfl)) (fun _ _ _ h => absurd h hnot)
            howns₃
        · refine (leaves_fillGroup (x :: xs) h [] s₂).bind
            (fun hclean hall => hclean (hall hne rfl rfl harray)) fun os s₃ hos => .inr (.pure ?_)
          obtain ⟨made, leaked, rfl, hleaked, howns₃⟩ := hos
          refine makes_some _ ⟨hne, rfl, fun _ => harray⟩ (hleaked.trans ?_)
            (owns_container .dir howns₂ howns₃)
          exact ⟨fun hall _ _ _ _ => hall, fun hall => hall hne rfl rfl harray⟩

end Groups

section Nodes

variable {η : Type} {handle : Option η} {pageSize : Nat} {s : Store (List UInt8)}
  {flags : ObjectFlags}

/-- What comes of the call for what is at a path. -/
structure NodeMade (handle : Option η) (flags : ObjectFlags) (n : Node) (s : Store (List UInt8))
    (r : Made η) (s' : Store (List UInt8)) : Prop where
  result : r.1 = .ok ↔ Succeeds handle flags n
  object : r.1 = .ok → r.2.isSome = true
  leaves : ∃ leaked, (leaked = [] ↔ Clean handle flags n) ∧ Owns s.heap s' (kept r ++ leaked)
  none : r.1 ≠ .ok → ¬Stores handle n → r.2 = none
  stored : r.1 ≠ .ok → Stores handle n → ∃ o, r.2 = some o ∧ Owns s.heap s' o.blocks

theorem Stores.not_clean {n : Node} (h : Stores handle n) : ¬Clean handle flags n := by
  cases n with
  | file names allocs buffer readable writable sync =>
    rw [Clean]
    exact fun hclean => h.2 (hclean h.1)
  | missing e => exact h.elim
  | unreadable e => exact h.elim
  | dir names allocs array entries => exact h.elim

theorem Stores.not_succeeds {n : Node} (h : Stores handle n) : ¬Succeeds handle flags n := by
  cases n with
  | file names allocs buffer readable writable sync => exact fun hs => h.2 hs.2
  | missing e => exact h.elim
  | unreadable e => exact h.elim
  | dir names allocs array entries => exact h.elim

theorem Makes.nodeMade {n : Node} {r : Made η} {s' : Store (List UInt8)}
    (h : Makes (Succeeds handle flags n) (Clean handle flags n) s r s')
    (hn : ¬Stores handle n) : NodeMade handle flags n s r s' :=
  ⟨h.result, h.object, h.leaves, fun hne _ => h.none hne, fun _ hs => absurd hs hn⟩

theorem syncObject_isSome {sync : SyncOutcome} {path buffer : Ptr} :
    (syncObject pageSize sync path buffer).isSome = true ↔
      path.isSome = true ∧ ∃ text, sync = .reads text ∧ (buffer.isSome = true ∨ text = []) := by
  cases sync with
  | openFails => exact iff_of_false nofun fun ⟨_, _, h, _⟩ => (nomatch h)
  | readFails stored => exact iff_of_false nofun fun ⟨_, _, h, _⟩ => (nomatch h)
  | reads text =>
    rw [syncObject]
    cases path with
    | none => exact iff_of_false nofun fun h => (nomatch h.1)
    | some p =>
      cases buffer with
      | some b => exact iff_of_true rfl ⟨rfl, text, rfl, .inl rfl⟩
      | none =>
        cases text with
        | nil => exact iff_of_true rfl ⟨rfl, [], rfl, .inr rfl⟩
        | cons c text =>
          refine iff_of_false nofun ?_
          rintro ⟨-, _, ⟨⟩, hsome | hnil⟩
          · exact nomatch hsome
          · exact nomatch hnil

theorem runs_makeFile (names : Names) (allocs : Allocs) (buffer readable writable : Bool)
    (sync : SyncOutcome) (s : Store (List UInt8)) :
    Runs (makeFile handle pageSize names allocs buffer readable writable sync) s
      (NodeMade handle flags (.file names allocs buffer readable writable sync) s) := by
  refine (runs_allocObject handle names allocs s).bind fun r s₁ hr => ?_
  rcases hr with ⟨hobject, rfl, howns⟩ | ⟨hobject, h, rfl, howns, hpath⟩
  · have hnot : allocs.object ≠ true := fun h => by cases hobject.symm.trans h
    refine .pure (Makes.nodeMade (makes_none (fun h => by cases h) ?_ ?_ howns) ?_)
    · exact fun hs => hnot hs.1
    · rw [Clean]
      exact fun h => absurd h hnot
    · exact fun hs => hnot hs.1
  · refine (runs_malloc_owns (fun _ => buffer) (List.replicate pageSize 0) howns).bind
      fun b s₂ hb => ?_
    have howned : Owns s.heap s₂ (b.toList ++ h.blocks) ∧
        (b.isSome = true ↔ buffer = true) := by
      rcases hb.2.2 with ⟨hbuffer, rfl, howns₂⟩ | ⟨hbuffer, i, rfl, howns₂⟩
      · exact ⟨howns₂, iff_of_false (fun h => by cases h) fun h => by cases hbuffer.symm.trans h⟩
      · exact ⟨howns₂, iff_of_true rfl hbuffer⟩
    obtain ⟨howns₂, hbuffer⟩ := howned
    have hfile : ∀ size, Owns s.heap s₂ (Obj.blocks (.file
        { h with perm := filePerm handle readable writable } b size pageSize)) := fun size =>
      howns₂.perm (perm_file { h with perm := filePerm handle readable writable } b)
    have hmade : ∀ size, Syncs handle allocs buffer readable writable sync →
        NodeMade handle flags (.file names allocs buffer readable writable sync) s (.ok, some (.file
          { h with perm := filePerm handle readable writable } b size pageSize)) s₂ := by
      intro size hsyncs
      refine Makes.nodeMade (makes_some [] ⟨hobject, hsyncs⟩ ?_ ?_) fun hs =>
        hs.2 hsyncs
      · rw [Clean]
        exact iff_of_true rfl fun _ => hsyncs
      · rw [List.append_nil]
        exact hfile size
    dsimp only
    split
    · next hperm => exact .pure (hmade 0 (.inl hperm))
    · next hperm =>
      have hsync : (syncObject pageSize sync h.path b).isSome = true ↔
          Syncs handle allocs buffer readable writable sync := by
        rw [syncObject_isSome, hpath, hbuffer, Syncs]
        exact ⟨.inr, fun hs => hs.resolve_left hperm⟩
      split
      · next size hsize => exact .pure (hmade size (hsync.mp (hsize ▸ rfl)))
      · next hnone =>
        have hstores : Stores handle (.file names allocs buffer readable writable sync) := by
          refine ⟨hobject, fun hs => ?_⟩
          have hsome := hsync.mpr hs
          rw [hnone] at hsome
          cases hsome
        refine .pure ⟨iff_of_false (fun h => by cases h) hstores.not_succeeds,
          (fun h => by cases h), ⟨_, ?_, hfile 0⟩,
          fun _ hn => absurd hstores hn, fun _ _ => ⟨_, rfl, hfile 0⟩⟩
        exact iff_of_false (blocks_file_ne_nil _ b 0 pageSize) hstores.not_clean

theorem allClean_iff (ns : List Node) :
    AllClean handle flags ns ↔ ∀ n ∈ ns, Clean handle flags n := by
  induction ns with
  | nil => exact iff_of_true trivial nofun
  | cons n ns ih => rw [AllClean, ih, List.forall_mem_cons]

theorem makeNodes_eq (ns : List Node) :
    makeNodes handle pageSize flags ns = ns.map (makeNode handle pageSize flags) := by
  induction ns with
  | nil => rfl
  | cons n ns ih => rw [makeNodes, ih, List.map_cons]

theorem NodeMade.leaves_of {n : Node}
    (h : ∀ s, RunsOr (¬Clean handle flags n ∧ ¬Stores handle n)
      (makeNode handle pageSize flags n) s (NodeMade handle flags n s)) :
    Leaves (makeNode handle pageSize flags n) (Clean handle flags n) := by
  intro s
  refine (h s).imp And.left fun r s' hmade => ?_
  obtain ⟨leaked, hleaked, howns⟩ := hmade.leaves
  exact ⟨leaked, hleaked, howns, hmade.object,
    fun hclean hne => hmade.none hne fun hs => hs.not_clean hclean⟩

mutual

theorem makes_makeNode (flags : ObjectFlags) (n : Node) (s : Store (List UInt8)) :
    RunsOr (¬Clean handle flags n ∧ ¬Stores handle n) (makeNode handle pageSize flags n) s
      (NodeMade handle flags n s) := by
  cases n with
  | missing e =>
    rw [makeNode]
    refine .inr (.pure (Makes.nodeMade (makes_none e.property ?_ ?_ (owns_self s)) ?_))
    · exact id
    · rw [Clean]
      trivial
    · exact id
  | unreadable e =>
    rw [makeNode]
    refine .inr (.pure (Makes.nodeMade (makes_none e.property ?_ ?_ (owns_self s)) ?_))
    · exact id
    · rw [Clean]
      trivial
    · exact id
  | file names allocs buffer readable writable sync =>
    rw [makeNode]
    exact (runs_makeFile names allocs buffer readable writable sync s).runsOr
  | dir names allocs array entries =>
    have hclean : Clean handle flags (.dir names allocs array entries) ↔
        (entries ≠ [] → allocs.object = true → recurses flags = true → array = true →
          ∀ n ∈ entries, Clean handle (below flags) n) := by
      rw [Clean, allClean_iff]
      refine ⟨fun h _ => h, fun h => ?_⟩
      cases entries with
      | nil => exact fun _ _ _ => nofun
      | cons n ns => exact h (List.cons_ne_nil n ns)
    have hgroup := makes_makeGroup handle (recurses flags) names allocs array
      (fun n hn => NodeMade.leaves_of (makes_makeNodes (below flags) entries n hn)) s
    rw [makeNode, makeNodes_eq]
    rw [← hclean] at hgroup
    refine hgroup.imp (fun h => ⟨h, id⟩) fun r s' hr => ?_
    refine Makes.nodeMade ?_ id
    exact hr

theorem makes_makeNodes (flags : ObjectFlags) (ns : List Node) (n : Node) (hn : n ∈ ns)
    (s : Store (List UInt8)) :
    RunsOr (¬Clean handle flags n ∧ ¬Stores handle n) (makeNode handle pageSize flags n) s
      (NodeMade handle flags n s) := by
  cases ns with
  | nil => exact nomatch hn
  | cons m ns =>
    cases List.mem_cons.mp hn with
    | inl heq => exact heq ▸ makes_makeNode flags m s
    | inr hn => exact makes_makeNodes flags ns n hn s

end

end Nodes

section Arrays

variable {η : Type} {handle : Option η} {pageSize : Nat} {flags : ObjectFlags}
  {s : Store (List UInt8)}

theorem destroySlots_map_some (os : List (Obj η)) :
    destroySlots (os.map some) = destroyObjects os := by
  induction os with
  | nil => rw [List.map_nil, destroySlots, destroyObjects]
  | cons o os ih => rw [List.map_cons, destroySlots, destroyObjects, ih]

theorem faults_destroySlots {slots : List (Option (Obj η))} (h : none ∈ slots) :
    Faults (destroySlots slots) s := by
  induction slots generalizing s with
  | nil => exact nomatch h
  | cons slot slots ih =>
    cases slot with
    | none => exact faults_bind _ fun _ _ => rfl
    | some o =>
      refine (ih ?_).bind _
      cases List.mem_cons.mp h with
      | inl heq => exact nomatch heq
      | inr h => exact h

theorem faults_destroyArray {h : Header η} {array : Nat} {slots : List (Option (Obj η))}
    (hnull : none ∈ slots) : Faults (destroyArray h array slots) s :=
  faults_bind _ fun _ _ => faults_bind _ fun _ _ => (faults_destroySlots hnull).bind _

theorem runs_destroyArray {base : Slots (List UInt8)} {h : Header η} {array : Nat}
    {os : List (Obj η)} {ids : List Nat}
    (howns : Owns base s ((Obj.container h .list array os).blocks ++ ids)) :
    Runs (destroyArray h array (os.map some)) s fun _ s' => Owns base s' ids := by
  have hrun := runs_destroyFpgaObject _ howns
  rw [destroyFpgaObject, ← destroySlots_map_some] at hrun
  exact hrun

/-- What comes of the elements: a slot that is `NULL`, with an error, or objects in all slots. -/
def ElementsMade (handle : Option η) (flags : ObjectFlags) (xs : List Element)
    (s : Store (List UInt8)) (q : FpgaResult × List (Option (Obj η))) (s' : Store (List UInt8)) :
    Prop :=
  q.1 ≠ .ok ∧ none ∈ q.2 ∧ ¬ElementsEnd handle flags xs ∨
    ∃ os leaked, q.2 = os.map some ∧ (leaked = [] ↔ ElementsEnd handle flags xs) ∧
      Owns s.heap s' (blocksOf os ++ leaked)

theorem elementsEnd_cons {x : Element} {xs : List Element} (hslash : x.slash = true) :
    ElementsEnd handle flags (x :: xs) ↔
      Succeeds handle flags x.node ∧ Clean handle flags x.node ∧ ElementsEnd handle flags xs ∨
        Stores handle x.node ∧ xs = [] := by
  rw [ElementsEnd, hslash]
  exact and_iff_right rfl

theorem ElementsMade.cons {x : Element} {xs : List Element} {r : Made η}
    {s₁ s₂ : Store (List UInt8)} {q : FpgaResult × List (Option (Obj η))} (hslash : x.slash = true)
    (hr : NodeMade handle flags x.node s r s₁) (hok : r.1 = .ok)
    (hq : ElementsMade handle flags xs s₁ q s₂) :
    ElementsMade handle flags (x :: xs) s (q.1, r.2 :: q.2) s₂ := by
  have hsucceeds := hr.result.mp hok
  have hend : ElementsEnd handle flags (x :: xs) ↔
      Clean handle flags x.node ∧ ElementsEnd handle flags xs := by
    rw [elementsEnd_cons hslash, or_iff_left fun hs => hs.1.not_succeeds hsucceeds,
      and_iff_right hsucceeds]
  obtain ⟨o, ho⟩ := Option.isSome_iff_exists.mp (hr.object hok)
  obtain ⟨leaked₁, hleaked₁, howns₁⟩ := hr.leaves
  rw [kept, if_pos hok, ho, Option.elim_some] at howns₁
  rw [ho]
  rcases hq with ⟨hne, hnull, hnot⟩ | ⟨os, leaked₂, hos, hleaked₂, howns₂⟩
  · exact .inl ⟨hne, List.mem_cons_of_mem _ hnull, fun hgood => hnot (hend.mp hgood).2⟩
  · refine .inr ⟨o :: os, leaked₂ ++ leaked₁, ?_, ?_, (howns₁.trans howns₂).perm ?_⟩
    · rw [List.map_cons, ← hos]
    · rw [List.append_eq_nil_iff, hleaked₁, hleaked₂, hend, and_comm]
    · exact perm_made os o leaked₁ leaked₂

theorem ElementsMade.stop {x : Element} {xs : List Element} {r : Made η} {s₁ : Store (List UInt8)}
    (hslash : x.slash = true) (hr : NodeMade handle flags x.node s r s₁) (hne : r.1 ≠ .ok) :
    ElementsMade handle flags (x :: xs) s (r.1, r.2 :: xs.map fun _ => none) s₁ := by
  have hend : ElementsEnd handle flags (x :: xs) ↔ Stores handle x.node ∧ xs = [] := by
    rw [elementsEnd_cons hslash, or_iff_right fun hs => hne (hr.result.mpr hs.1)]
  by_cases hstores : Stores handle x.node
  · obtain ⟨o, ho, howns⟩ := hr.stored hne hstores
    rw [ho]
    cases xs with
    | nil =>
      refine .inr ⟨[o], [], rfl, iff_of_true rfl (hend.mpr ⟨hstores, rfl⟩), ?_⟩
      rw [List.append_nil, blocksOf, blocksOf, List.nil_append]
      exact howns
    | cons y ys =>
      refine .inl ⟨hne, List.mem_cons_of_mem _ List.mem_cons_self, fun hgood => ?_⟩
      exact nomatch (hend.mp hgood).2
  · rw [hr.none hne hstores]
    exact .inl ⟨hne, List.mem_cons_self, fun hgood => hstores (hend.mp hgood).1⟩

theorem makes_makeElements (xs : List Element) (s : Store (List UInt8)) :
    RunsOr (¬ElementsEnd handle flags xs) (makeElements handle pageSize flags xs) s
      (ElementsMade handle flags xs s) := by
  induction xs generalizing s with
  | nil => exact .inr (.pure (.inr ⟨[], [], rfl, iff_of_true rfl trivial, owns_self s⟩))
  | cons x xs ih =>
    rw [makeElements]
    cases hslash : x.slash with
    | false =>
      refine .inr (.pure (.inl ⟨nofun, List.mem_cons_self, fun hend => ?_⟩))
      rw [ElementsEnd, hslash] at hend
      exact nomatch hend.1
    | true =>
      rw [if_neg (by exact Bool.false_ne_true)]
      refine (makes_makeNode flags x.node s).bind (fun hbad hgood => ?_) fun r s₁ hr => ?_
      · rcases (elementsEnd_cons hslash).mp hgood with ⟨-, hclean, -⟩ | ⟨hstores, -⟩
        · exact hbad.1 hclean
        · exact hbad.2 hstores
      · by_cases hok : r.1 = .ok
        · rw [if_neg (not_not_intro hok)]
          refine (ih s₁).bind (fun hbad hgood => hbad ?_) fun q s₂ hq =>
            .inr (.pure (.cons hslash hr hok hq))
          have hnot : ¬(Stores handle x.node ∧ xs = []) := fun hs =>
            hs.1.not_succeeds (hr.result.mp hok)
          exact (((elementsEnd_cons hslash).mp hgood).resolve_right hnot).2.2
        · rw [if_pos hok]
          exact .inr (.pure (.stop hslash hr hok))

theorem leaves_makeSysfsArray (names : Names) (allocs : Allocs) (array : Bool)
    (elements : List Element) :
    Leaves (makeSysfsArray handle pageSize flags names allocs array elements)
      (ArrayClean handle flags allocs array elements) := by
  intro s
  rw [makeSysfsArray]
  have herror : ∀ {e : FpgaResult} {leaked : List Nat} {s' : Store (List UInt8)}, e ≠ .ok →
      (leaked = [] ↔ ArrayClean handle flags allocs array elements) → Owns s.heap s' leaked →
      ∃ leaked, (leaked = [] ↔ ArrayClean handle flags allocs array elements) ∧
        Owns s.heap s' (kept ((e, none) : Made η) ++ leaked) ∧
        (e = .ok → (none : Option (Obj η)).isSome = true) ∧
        (ArrayClean handle flags allocs array elements → e ≠ .ok →
          (none : Option (Obj η)) = none) := by
    intro e leaked s' he hleaked howns
    refine ⟨leaked, hleaked, ?_, fun h => absurd h he, fun _ _ => rfl⟩
    rwa [kept, if_neg he]
  refine (runs_allocObject handle names allocs s).bindOr fun r s₁ hr => ?_
  rcases hr with ⟨hobject, rfl, howns⟩ | ⟨hobject, h, rfl, howns, -⟩
  · refine .inr (.pure (herror nofun (iff_of_true rfl fun hobj => ?_) howns))
    exact nomatch hobject.symm.trans hobj
  · refine (runs_malloc_owns (fun _ => array) [] howns).bindOr fun p s₂ hp => ?_
    rcases hp.2.2 with ⟨harray, rfl, howns₂⟩ | ⟨harray, i, rfl, howns₂⟩
    · have hbare : Owns s.heap s₂ ((Obj.bare h .list).blocks ++ []) := by
        rw [List.append_nil]
        exact howns₂
      refine .inr ((runs_destroyFpgaObject _ hbare).bind fun _ s₃ howns₃ => .pure ?_)
      refine herror nofun (iff_of_true rfl fun _ harr => ?_) howns₃
      exact nomatch harray.symm.trans harr
    · have hclean : ArrayClean handle flags allocs array elements ↔
          ElementsEnd handle flags elements :=
        ⟨fun hall => hall hobject harray, fun hend _ _ => hend⟩
      refine (makes_makeElements elements s₂).bind (fun hbad hgood => hbad (hclean.mp hgood))
        fun q s₃ hq => ?_
      rcases hq with ⟨hne, hnull, hnot⟩ | ⟨os, leaked, hos, hleaked, howns₃⟩
      · rw [if_pos hne]
        exact .inl ⟨fun hgood => hnot (hclean.mp hgood), (faults_destroyArray hnull).bind _⟩
      · have hall := owns_container .list howns₂ howns₃
        rw [hos]
        split
        · next hne =>
          refine .inr ((runs_destroyArray hall).bind fun _ s₄ howns₄ => .pure ?_)
          exact herror hne (hleaked.trans hclean.symm) howns₄
        · refine .inr (.pure ⟨leaked, hleaked.trans hclean.symm, ?_, fun _ => rfl,
            fun _ hne => absurd rfl hne⟩)
          have hobjects : (os.map some).reduceOption = os := by
            rw [List.reduceOption, List.filterMap_map]
            exact List.filterMap_some
          rw [hobjects]
          exact hall

end Arrays

section Objects

variable {η : Type} {handle : Option η} {pageSize : Nat}

theorem leaves_makeNode (flags : ObjectFlags) (n : Node) :
    Leaves (makeNode handle pageSize flags n) (Clean handle flags n) :=
  NodeMade.leaves_of (makes_makeNode flags n)

theorem Leaves.congr {p : Blocks (Made η)} {clean clean' : Prop} (h : Leaves p clean)
    (hiff : clean ↔ clean') : Leaves p clean' :=
  propext hiff ▸ h

theorem leaves_makeSysfsObject (handle : Option η) (pageSize : Nat) (flags : LookupFlags)
    (a : Answer) :
    Leaves (makeSysfsObject handle pageSize flags a) (ObjectClean handle flags a) := by
  rw [makeSysfsObject, ObjectClean]
  split
  · cases a.globbed with
    | fails e => exact leaves_error e
    | found names allocs array elements fits =>
      rcases elements with _ | ⟨x, _ | ⟨y, ys⟩⟩
      · exact leaves_makeSysfsArray names allocs array []
      · exact leaves_makeNode _ x.node
      · exact leaves_makeSysfsArray names allocs array (x :: y :: ys)
  · exact leaves_makeNode _ _

theorem leaves_scanned (flags : LookupFlags) (scanned : Except FpgaError Directory) :
    Leaves
      (match scanned with
        | .error e => pure (e.val, none)
        | .ok d =>
          makeGroup handle (recurses flags.toObjectFlags) d.names d.allocs d.array
            (d.entries.map (makeSysfsObject handle pageSize
              { flags with toObjectFlags := below flags.toObjectFlags })))
      (∀ d, scanned = .ok d → d.allocs.object = true → recurses flags.toObjectFlags = true →
        d.array = true → ∀ a ∈ d.entries,
          ObjectClean handle { flags with toObjectFlags := below flags.toObjectFlags } a) := by
  cases scanned with
  | error e => exact (leaves_error e).congr (iff_of_true trivial nofun)
  | ok d =>
    have hgroup := fun s => makes_makeGroup handle (recurses flags.toObjectFlags) d.names d.allocs
      d.array (fun a (_ : a ∈ d.entries) => leaves_makeSysfsObject handle pageSize
        { flags with toObjectFlags := below flags.toObjectFlags } a) s
    refine Leaves.congr (fun s => (hgroup s).imp id fun r s' hr => ?_) ?_
    · obtain ⟨leaked, hleaked, howns⟩ := hr.leaves
      exact ⟨leaked, hleaked, howns, hr.object, fun _ hne => hr.none hne⟩
    · constructor
      · rintro hall d' heq hobject hrecurse harray a ha
        obtain rfl := Except.ok.inj heq
        exact hall (List.ne_nil_of_mem ha) hobject hrecurse harray a ha
      · exact fun hall _ => hall d rfl

theorem leaves_makeSysfsGroup (flags : LookupFlags) (globbed : Except FpgaError Unit)
    (scanned : Except FpgaError Directory) :
    Leaves (makeSysfsGroup handle pageSize flags globbed scanned)
      (GroupClean handle flags globbed scanned) := by
  unfold makeSysfsGroup GroupClean
  split
  · next e hglob =>
    rw [hglob]
    exact (leaves_error e).congr (iff_of_true trivial fun h => nomatch h rfl)
  · next globbed _ _ hnot =>
    have hok : flags.glob = true → globbed = .ok () := fun hglob => by
      cases globbed with
      | error e => exact (hnot e hglob rfl).elim
      | ok u => rfl
    exact (leaves_scanned flags scanned).congr ⟨fun h _ => h, fun h => h hok⟩

end Objects

/-- An object, a group or an array is owned, or nothing is left of it, if and only if all that is
made on the way is clean. -/
theorem made_owned_iff {η : Type} (handle : Option η) (pageSize : Nat) (s : Store (List UInt8)) :
    (∀ flags a, Runs (makeSysfsObject handle pageSize flags a) s (fun r s' => Owned s r s') ↔
        ObjectClean handle flags a) ∧
      (∀ flags globbed scanned,
        Runs (makeSysfsGroup handle pageSize flags globbed scanned) s
            (fun r s' => Owned s r s') ↔
          GroupClean handle flags globbed scanned) ∧
      ∀ flags names allocs array elements,
        Runs (makeSysfsArray handle pageSize flags names allocs array elements) s
            (fun r s' => Owned s r s') ↔
          ArrayClean handle flags allocs array elements :=
  ⟨fun flags a => (leaves_makeSysfsObject handle pageSize flags a).owned_iff s,
    fun flags globbed scanned => (leaves_makeSysfsGroup flags globbed scanned).owned_iff s,
    fun _ names allocs array elements =>
      (leaves_makeSysfsArray names allocs array elements).owned_iff s⟩

def plainFlags : LookupFlags := ⟨⟨false, false⟩, false⟩

def emptyNames : Names := ⟨⟨[], nul_notMem_nil⟩, ⟨[], nul_notMem_nil⟩⟩

def served : Allocs := ⟨true, true, true⟩

def unopened : Node := .file emptyNames served true true false .openFails

def halfGone : List Element :=
  [⟨true, .missing ⟨.notFound, FpgaResult.notFound_ne_ok⟩⟩, ⟨true, unopened⟩]

/-- The structure of a file that cannot be opened is stored with the error; and `NULL` is
dereferenced when the array is given up. -/
theorem unopened_not_owned :
    ¬Runs (makeSysfsObject (none : Option Unit) 4096 plainFlags
        ⟨unopened, .fails ⟨.notFound, by decide⟩⟩) ⟨Slots.empty, 0⟩
        (fun r s' => Owned ⟨Slots.empty, 0⟩ r s') ∧
      ¬Runs (makeSysfsArray (none : Option Unit) 4096 plainFlags.toObjectFlags emptyNames served
        true halfGone) ⟨Slots.empty, 0⟩ (fun r s' => Owned ⟨Slots.empty, 0⟩ r s') := by
  rw [(leaves_makeSysfsObject _ _ _ _).owned_iff, (leaves_makeSysfsArray _ _ _ _).owned_iff]
  constructor
  · intro hclean
    rcases hclean rfl with hperm | ⟨-, text, htext, -⟩
    · exact nomatch hperm
    · exact nomatch htext
  · intro hclean
    rcases (hclean rfl rfl).2 with ⟨hmade, -, -⟩ | ⟨hstored, -⟩
    · exact hmade
    · exact hstored

end OpaeLibs.PluginXfpga.ObjectOwners
