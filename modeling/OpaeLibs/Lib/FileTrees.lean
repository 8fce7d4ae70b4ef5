import OpaeLibs.Lib.Glob

namespace OpaeLibs.Lib.FileTrees

open OpaeLibs.Lib.Glob

abbrev slash : UInt8 := 47
abbrev dot : UInt8 := 46

inductive Node
  | dir
  | file
  | link (target : List UInt8)
  | other
deriving DecidableEq

def Node.isLink : Node → Bool
  | link _ => true
  | _ => false

/-- The names from a place up to the root. -/
abbrev Place := List (List UInt8)

/-- A file system and the directory that relative paths start from. A path has fewer than `pathMax`
bytes, and at most `symloopMax` links are followed. -/
structure FileTree where
  node : Place → Option Node
  searchable : Place → Bool
  workingDir : Place
  pathMax : Nat
  symloopMax : Nat

namespace FileTree

variable (t : FileTree)

/-- Names can be looked up there. -/
def enters (place : Place) : Bool := t.node place == some .dir && t.searchable place

def start (path : List UInt8) : Place := if path.head? = some slash then [] else t.workingDir

/-- Where names, one after the other, lead. A link is gone on with by `onLink`, but the last one is
where they lead to if it is not to be followed. -/
def walk (nofollow : Bool) (onLink : Place → List (List UInt8) → Option Place) :
    Place → List (List UInt8) → Option Place
  | place, [] => some place
  | place, name :: names =>
    if !t.enters place then none
    else if name = [] ∨ name = [dot] then walk nofollow onLink place names
    else if name = [dot, dot] then walk nofollow onLink place.tail names
    else
      match t.node (name :: place) with
      | none => none
      | some (.link target) =>
        if names = [] ∧ nofollow = true then some (name :: place)
        else if target = [] then none
        else
          onLink (if target.head? = some slash then [] else place) (target.splitOn slash ++ names)
      | some _ => walk nofollow onLink (name :: place) names

/-- The same, with as many links that are followed. -/
def resolve (nofollow : Bool) : Nat → Place → List (List UInt8) → Option Place
  | 0 => t.walk nofollow fun _ _ => none
  | links + 1 => t.walk nofollow (resolve nofollow links)

def lookup (nofollow : Bool) (path : List UInt8) : Option Place :=
  if path = [] ∨ t.pathMax ≤ path.length then none
  else t.resolve nofollow t.symloopMax (t.start path) (path.splitOn slash)

def stat (path : List UInt8) : Option Node := (t.lookup false path).bind t.node

/-- `fstatat` with `AT_SYMLINK_NOFOLLOW` from the working directory. -/
def lstat (path : List UInt8) : Option Node := (t.lookup true path).bind t.node

def text (place : Place) : List UInt8 :=
  if place = [] then [slash] else place.reverse.flatMap fun name => slash :: name

/-- The path without links, if there is room for it. -/
def realpath (path : List UInt8) : Option (List UInt8) :=
  (t.lookup false path).bind fun place =>
    if (text place).length < t.pathMax then some (text place) else none

end FileTree

/-- A name as a directory has it. -/
structure IsName (name : List UInt8) : Prop where
  ne_nil : name ≠ []
  ne_dot : name ≠ [dot]
  ne_dotdot : name ≠ [dot, dot]
  noSlash : slash ∉ name

/-- A part of a path that ends with one of its names. -/
def Boundary (b path : List UInt8) : Prop := b = path ∨ ∃ rest, path = b ++ slash :: rest

section Walk

variable {t : FileTree} {nofollow : Bool} {onLink : Place → List (List UInt8) → Option Place}
  {place : Place} {name : List UInt8} {names : List (List UInt8)}

theorem walk_skip (h : name = [] ∨ name = [dot]) (henters : t.enters place = true) :
    t.walk nofollow onLink place (name :: names) = t.walk nofollow onLink place names := by
  rw [FileTree.walk, henters, if_neg (by decide), if_pos h]

theorem walk_name (h : IsName name) (henters : t.enters place = true) :
    t.walk nofollow onLink place (name :: names) =
      match t.node (name :: place) with
      | none => none
      | some (.link target) =>
        if names = [] ∧ nofollow = true then some (name :: place)
        else if target = [] then none
        else
          onLink (if target.head? = some slash then [] else place) (target.splitOn slash ++ names)
      | some _ => t.walk nofollow onLink (name :: place) names := by
  rw [FileTree.walk, henters, if_neg (by decide), if_neg (by simp [h.ne_nil, h.ne_dot]),
    if_neg h.ne_dotdot]

theorem walk_node (h : IsName name) (henters : t.enters place = true) {node : Node}
    (hnode : t.node (name :: place) = some node) (hlink : node.isLink = false) :
    t.walk nofollow onLink place (name :: names) =
      t.walk nofollow onLink (name :: place) names := by
  rw [walk_name h henters, hnode]
  cases node with
  | link target => exact nomatch hlink
  | dir | file | other => rfl

/-- A step from a place by a name that is not that of a link. -/
inductive Advance (t : FileTree) (place : Place) (name : List UInt8) : Place → Prop
  | stay : Advance t place name place
  | up : Advance t place name place.tail
  | down (hname : IsName name) {node : Node} (hnode : t.node (name :: place) = some node)
      (hlink : node.isLink = false) : Advance t place name (name :: place)

theorem walk_cases (hslash : slash ∉ name) (henters : t.enters place = true) :
    (∃ place', Advance t place name place' ∧ ∀ nofollow onLink names,
      t.walk nofollow onLink place (name :: names) = t.walk nofollow onLink place' names) ∨
    IsName name ∧ (t.node (name :: place) = none ∨
      ∃ target, t.node (name :: place) = some (.link target)) := by
  by_cases hskip : name = [] ∨ name = [dot]
  · exact .inl ⟨place, .stay, fun _ _ _ => walk_skip hskip henters⟩
  · have hskip' := not_or.mp hskip
    by_cases hdotdot : name = [dot, dot]
    · refine .inl ⟨place.tail, .up, fun nofollow onLink names => ?_⟩
      rw [FileTree.walk, henters, if_neg (by decide), if_neg hskip, if_pos hdotdot]
    · have hname : IsName name := ⟨hskip'.1, hskip'.2, hdotdot, hslash⟩
      cases hnode : t.node (name :: place) with
      | none => exact .inr ⟨hname, .inl rfl⟩
      | some node =>
        cases hlink : node.isLink with
        | false =>
          exact .inl ⟨name :: place, .down hname hnode hlink,
            fun _ _ _ => walk_node hname henters hnode hlink⟩
        | true =>
          cases node with
          | link target => exact .inr ⟨hname, .inr ⟨target, rfl⟩⟩
          | dir | file | other => exact nomatch hlink

theorem enters_of_walk {p : Place} (h : t.walk nofollow onLink place (name :: names) = some p) :
    t.enters place = true := by
  cases henters : t.enters place with
  | true => rfl
  | false =>
    rw [FileTree.walk, henters] at h
    exact nomatch h

end Walk

section Names

theorem notMem_of_mem_splitOn {a : UInt8} {s l : List UInt8} (h : l ∈ s.splitOn a) : a ∉ l := by
  induction s generalizing l with
  | nil =>
    rw [List.splitOn_nil, List.mem_singleton] at h
    rw [h]
    exact List.not_mem_nil
  | cons b s ih =>
    obtain ⟨name, names, hsplit⟩ := List.exists_cons_of_ne_nil (List.splitOn_ne_nil a s)
    rw [List.splitOn_cons_eq_if_modifyHead, hsplit] at h
    rw [hsplit] at ih
    split at h
    case isTrue =>
      cases List.mem_cons.mp h with
      | inl h => exact h ▸ List.not_mem_nil
      | inr h => exact ih h
    case isFalse hne =>
      rw [List.modifyHead_cons] at h
      cases List.mem_cons.mp h with
      | inl h =>
        rw [h, List.mem_cons, not_or]
        exact ⟨fun heq => hne (beq_iff_eq.mpr heq.symm), ih List.mem_cons_self⟩
      | inr h => exact ih (List.mem_cons_of_mem name h)

/-- The bytes of names with a slash for each. -/
def width (names : List (List UInt8)) : Nat := (names.map fun name => name.length + 1).sum

theorem width_cons (name : List UInt8) (names : List (List UInt8)) :
    width (name :: names) = name.length + 1 + width names := by
  rw [width, List.map_cons, List.sum_cons, width]

theorem width_tail_le (names : List (List UInt8)) : width names.tail ≤ width names := by
  cases names with
  | nil => exact Nat.le_refl _
  | cons name names =>
    rw [List.tail_cons, width_cons]
    exact Nat.le_add_left _ _

theorem length_flatMap (names : List (List UInt8)) :
    (names.flatMap fun name => slash :: name).length = width names := by
  induction names with
  | nil => rfl
  | cons name names ih =>
    rw [List.flatMap_cons, List.length_append, ih, width_cons, List.length_cons]

theorem width_reverse (names : List (List UInt8)) : width names.reverse = width names := by
  rw [width, width, List.map_reverse, List.sum_reverse]

theorem width_splitOn (path : List UInt8) : width (path.splitOn slash) = path.length + 1 := by
  induction path with
  | nil => rfl
  | cons b path ih =>
    obtain ⟨name, names, hsplit⟩ := List.exists_cons_of_ne_nil (List.splitOn_ne_nil slash path)
    rw [List.splitOn_cons_eq_if_modifyHead]
    split
    · rw [width_cons, ih, List.length_cons, List.length_nil]
      omega
    · rw [hsplit, List.modifyHead_cons, width_cons]
      rw [hsplit, width_cons] at ih
      rw [List.length_cons, List.length_cons]
      omega

theorem splitOn_flatMap {names : List (List UInt8)} (h : ∀ n ∈ names, slash ∉ n) :
    (names.flatMap fun name => slash :: name).splitOn slash = [] :: names := by
  have happend : ∀ name, slash ∉ name →
      (name ++ names.flatMap fun name => slash :: name).splitOn slash = name :: names := by
    induction names with
    | nil =>
      intro name hname
      rw [List.flatMap_nil, List.append_nil, List.splitOn_eq_singleton hname]
    | cons name' names ih =>
      intro name hname
      rw [List.flatMap_cons, List.cons_append,
        List.splitOn_append_cons_self_of_not_mem hname,
        ih (fun n hn => h n (List.mem_cons_of_mem name' hn)) name' (h name' List.mem_cons_self)]
  exact happend [] List.not_mem_nil

theorem Boundary.splitOn {b path : List UInt8} (h : Boundary b path) :
    ∃ rest, path.splitOn slash = b.splitOn slash ++ rest := by
  cases h with
  | inl h => exact ⟨[], by rw [h, List.append_nil]⟩
  | inr h =>
    obtain ⟨rest, rfl⟩ := h
    exact ⟨rest.splitOn slash, List.splitOn_append_cons_self b rest⟩

theorem Boundary.length_le {b path : List UInt8} (h : Boundary b path) :
    b.length ≤ path.length := by
  cases h with
  | inl h => exact Nat.le_of_eq (congrArg List.length h)
  | inr h =>
    obtain ⟨rest, rfl⟩ := h
    rw [List.length_append]
    exact Nat.le_add_right _ _

theorem boundary_intercalate {names rest : List (List UInt8)} (hnames : names ≠ [])
    {path : List UInt8} (h : path.splitOn slash = names ++ rest) :
    Boundary ([slash].intercalate names) path := by
  have hpath : [slash].intercalate (path.splitOn slash) = path := List.intercalate_splitOn slash
  rw [h] at hpath
  cases rest with
  | nil =>
    rw [List.append_nil] at hpath
    exact .inl hpath
  | cons name rest =>
    rw [intercalate_append slash hnames (List.cons_ne_nil name rest)] at hpath
    exact .inr ⟨_, hpath.symm⟩

end Names

section Grounded

/-- Every directory up to the root can be searched, and nothing on the way is a link. -/
def Grounded (t : FileTree) : Place → Prop
  | [] => True
  | name :: place => IsName name ∧ t.enters place = true ∧
      (∃ node, t.node (name :: place) = some node ∧ node.isLink = false) ∧ Grounded t place

variable {t : FileTree} {nofollow : Bool} {onLink : Place → List (List UInt8) → Option Place}
  {place : Place} {names : List (List UInt8)}

theorem Grounded.tail (h : Grounded t place) : Grounded t place.tail := by
  cases place with
  | nil => exact h
  | cons name place => exact h.2.2.2

theorem Grounded.of_append {names : List (List UInt8)} (h : Grounded t (names ++ place)) :
    Grounded t place := by
  induction names with
  | nil => exact h
  | cons name names ih => exact ih h.2.2.2

theorem Grounded.noSlash (h : Grounded t place) : ∀ n ∈ place, slash ∉ n := by
  induction place with
  | nil => exact nofun
  | cons name place ih =>
    intro n hn
    cases List.mem_cons.mp hn with
    | inl hn => exact hn ▸ h.1.noSlash
    | inr hn => exact ih h.2.2.2 n hn

theorem Grounded.enters_root (h : Grounded t place) (hne : place ≠ []) : t.enters [] = true := by
  induction place with
  | nil => exact absurd rfl hne
  | cons name place ih =>
    cases place with
    | nil => exact h.2.1
    | cons name' place => exact ih h.2.2.2 (List.cons_ne_nil name' place)

theorem Grounded.advance {name : List UInt8} {place' : Place} (h : Grounded t place)
    (henters : t.enters place = true) (hstep : Advance t place name place') :
    Grounded t place' := by
  cases hstep with
  | stay => exact h
  | up => exact h.tail
  | down hname hnode hlink => exact ⟨hname, henters, ⟨_, hnode, hlink⟩, h⟩

theorem grounded_walk
    (hon : ∀ place names p, Grounded t place → (∀ n ∈ names, slash ∉ n) →
      onLink place names = some p → Grounded t p)
    (hplace : Grounded t place) (hnames : ∀ n ∈ names, slash ∉ n) {p : Place}
    (h : t.walk false onLink place names = some p) : Grounded t p := by
  induction names generalizing place with
  | nil => exact Option.some.inj h ▸ hplace
  | cons name names ih =>
    have hrest : ∀ n ∈ names, slash ∉ n := fun n hn => hnames n (List.mem_cons_of_mem name hn)
    have henters := enters_of_walk h
    obtain ⟨place', hstep, hgo⟩ | ⟨hname, hnode | ⟨target, hnode⟩⟩ :=
      walk_cases (hnames name List.mem_cons_self) henters
    · rw [hgo] at h
      exact ih (hplace.advance henters hstep) hrest h
    · rw [walk_name hname henters, hnode] at h
      exact nomatch h
    · rw [walk_name hname henters, hnode] at h
      dsimp only at h
      rw [if_neg (by simp)] at h
      split at h
      · exact nomatch h
      · refine hon _ _ _ ?_ ?_ h
        · split
          · exact trivial
          · exact hplace
        · intro n hn
          cases List.mem_append.mp hn with
          | inl hn => exact notMem_of_mem_splitOn hn
          | inr hn => exact hrest n hn

theorem grounded_resolve {links : Nat} (hplace : Grounded t place)
    (hnames : ∀ n ∈ names, slash ∉ n) {p : Place} (h : t.resolve false links place names = some p) :
    Grounded t p := by
  induction links generalizing place names p with
  | zero =>
    have hnone : ∀ p : Place, none ≠ some p := fun p => (Option.some_ne_none p).symm
    exact grounded_walk (fun _ _ p _ _ h => absurd h (hnone p)) hplace hnames h
  | succ links ih => exact grounded_walk (fun _ _ _ hp hn h => ih hp hn h) hplace hnames h

/-- A grounded place is where its names lead, whatever is made of links. -/
theorem walk_grounded (h : Grounded t (names.reverse ++ place)) :
    t.walk nofollow onLink place names = some (names.reverse ++ place) := by
  induction names generalizing place with
  | nil => rfl
  | cons name names ih =>
    rw [List.reverse_cons, List.append_assoc, List.singleton_append] at h ⊢
    obtain ⟨hname, henters, ⟨node, hnode, hlink⟩, -⟩ := h.of_append
    rw [walk_node hname henters hnode hlink]
    exact ih h

theorem resolve_grounded (h : Grounded t names.reverse) (links : Nat) :
    t.resolve nofollow links [] names = some names.reverse := by
  rw [← List.append_nil names.reverse] at h ⊢
  cases links with
  | zero => exact walk_grounded h
  | succ links => exact walk_grounded h

theorem resolve_nil_cons (henters : t.enters [] = true) (links : Nat) :
    t.resolve nofollow links [] ([] :: names) = t.resolve nofollow links [] names := by
  cases links with
  | zero => exact walk_skip (.inl rfl) henters
  | succ links => exact walk_skip (.inl rfl) henters

end Grounded

section Links

variable {t : FileTree} {path : List UInt8}

theorem Advance.width_le {place place' : Place} {name : List UInt8}
    (h : Advance t place name place') : width place' ≤ width place + (name.length + 1) := by
  cases h with
  | stay => exact Nat.le_add_right _ _
  | up => exact Nat.le_add_right_of_le (width_tail_le place)
  | down hname hnode hlink =>
    rw [width_cons]
    omega

theorem exists_link_or_width_le {onLink : Place → List (List UInt8) → Option Place}
    {place p : Place} {names : List (List UInt8)} (hnames : ∀ n ∈ names, slash ∉ n)
    (h : t.walk false onLink place names = some p) :
    (∃ ks rest q target, names = ks ++ rest ∧ ks ≠ [] ∧ t.node q = some (.link target) ∧
      ∀ onLink', t.walk true onLink' place ks = some q) ∨ width p ≤ width place + width names := by
  induction names generalizing place with
  | nil => exact .inr (Option.some.inj h ▸ Nat.le_add_right _ _)
  | cons name names ih =>
    have hrest : ∀ n ∈ names, slash ∉ n := fun n hn => hnames n (List.mem_cons_of_mem name hn)
    have henters := enters_of_walk h
    rw [width_cons]
    obtain ⟨place', hstep, hgo⟩ | ⟨hname, hnode | ⟨target, hnode⟩⟩ :=
      walk_cases (hnames name List.mem_cons_self) henters
    · rw [hgo] at h
      have hwidth := hstep.width_le
      cases ih hrest h with
      | inl hlink =>
        obtain ⟨ks, rest, q, target, rfl, -, hnode, hq⟩ := hlink
        refine .inl ⟨name :: ks, rest, q, target, rfl, List.cons_ne_nil name ks, hnode, ?_⟩
        intro onLink'
        rw [hgo]
        exact hq onLink'
      | inr hle => exact .inr (by omega)
    · rw [walk_name hname henters, hnode] at h
      exact nomatch h
    · refine .inl ⟨[name], names, name :: place, target, rfl, List.cons_ne_nil _ _, hnode, ?_⟩
      intro onLink'
      rw [walk_name hname henters, hnode]
      exact if_pos ⟨rfl, rfl⟩

theorem exists_link_or_width_le_resolve {links : Nat} {place p : Place} {names : List (List UInt8)}
    (hnames : ∀ n ∈ names, slash ∉ n) (h : t.resolve false links place names = some p) :
    (∃ ks rest q target, names = ks ++ rest ∧ ks ≠ [] ∧ t.node q = some (.link target) ∧
      ∀ links, t.resolve true links place ks = some q) ∨ width p ≤ width place + width names := by
  have hcases : (∃ ks rest q target, names = ks ++ rest ∧ ks ≠ [] ∧ t.node q = some (.link target) ∧
      ∀ onLink', t.walk true onLink' place ks = some q) ∨ width p ≤ width place + width names := by
    cases links with
    | zero => exact exists_link_or_width_le hnames h
    | succ links => exact exists_link_or_width_le hnames h
  refine hcases.imp_left ?_
  rintro ⟨ks, rest, q, target, heq, hks, hnode, hq⟩
  refine ⟨ks, rest, q, target, heq, hks, hnode, fun links => ?_⟩
  cases links with
  | zero => exact hq _
  | succ links => exact hq _

theorem enters_of_resolve {nofollow : Bool} {links : Nat} {place p : Place} {name : List UInt8}
    {names : List (List UInt8)} (h : t.resolve nofollow links place (name :: names) = some p) :
    t.enters place = true := by
  cases links with
  | zero => exact enters_of_walk h
  | succ links => exact enters_of_walk h

theorem node_of_enters {place : Place} (h : t.enters place = true) : t.node place = some .dir :=
  beq_iff_eq.mp (Bool.and_eq_true_iff.mp h).1

theorem lookup_abs {nofollow : Bool} (habs : path.head? = some slash)
    (hlen : path.length < t.pathMax) : t.lookup nofollow path =
      t.resolve nofollow t.symloopMax [] (path.splitOn slash) := by
  have hne : path ≠ [] := by
    rintro rfl
    exact nomatch habs
  have hnot : ¬(path = [] ∨ t.pathMax ≤ path.length) := not_or.mpr ⟨hne, Nat.not_le.mpr hlen⟩
  rw [FileTree.lookup, if_neg hnot, FileTree.start, if_pos habs]

theorem splitOn_abs (habs : path.head? = some slash) :
    ∃ names, path.splitOn slash = [] :: names ∧ width names = path.length := by
  cases path with
  | nil => exact nomatch habs
  | cons b path =>
    obtain rfl := Option.some.inj habs
    refine ⟨path.splitOn slash, ?_, ?_⟩
    · rw [List.splitOn_cons_eq_if_modifyHead, if_pos (beq_self_eq_true slash)]
    · rw [width_splitOn, List.length_cons]

theorem length_lt_of_lookup {nofollow : Bool} {place : Place}
    (h : t.lookup nofollow path = some place) : path ≠ [] ∧ path.length < t.pathMax := by
  rw [FileTree.lookup] at h
  split at h
  · exact nomatch h
  · next hnot =>
    rw [not_or, Nat.not_le] at hnot
    exact hnot

theorem head?_text (place : Place) : (FileTree.text place).head? = some slash := by
  rw [FileTree.text]
  split
  · rfl
  · next hne =>
    obtain ⟨name, names, hrev⟩ := List.exists_cons_of_ne_nil (List.reverse_ne_nil_iff.mpr hne)
    rw [hrev]
    rfl

theorem length_text {place : Place} (hne : place ≠ []) :
    (FileTree.text place).length = width place := by
  rw [FileTree.text, if_neg hne, length_flatMap, width_reverse]

theorem exists_grounded_of_realpath_eq (hreal : t.realpath path = some path) :
    ∃ place, Grounded t place ∧ FileTree.text place = path ∧ t.lookup false path = some place := by
  obtain ⟨place, hplace, htext⟩ := Option.bind_eq_some_iff.mp hreal
  rw [Option.ite_none_right_eq_some] at htext
  have htext : FileTree.text place = path := Option.some.inj htext.2
  have habs : path.head? = some slash := htext ▸ head?_text place
  have hlookup : t.lookup false path = _ := lookup_abs habs (length_lt_of_lookup hplace).2
  rw [hplace] at hlookup
  have hroot : Grounded t [] := trivial
  exact ⟨place, grounded_resolve hroot (fun n hn => notMem_of_mem_splitOn hn) hlookup.symm,
    htext, hplace⟩

theorem Boundary.head?_eq {b : List UInt8} (hb : Boundary b path) (hne : b ≠ [])
    (habs : path.head? = some slash) : b.head? = some slash := by
  cases b with
  | nil => exact absurd rfl hne
  | cons a b =>
    cases hb with
    | inl hb => exact hb ▸ habs
    | inr hb =>
      obtain ⟨rest, rfl⟩ := hb
      exact habs

theorem Grounded.isLink_eq_false {place : Place} (h : Grounded t place) (hne : place ≠ [])
    {node : Node} (hnode : t.node place = some node) : node.isLink = false := by
  cases place with
  | nil => exact absurd rfl hne
  | cons name below =>
    obtain ⟨-, -, ⟨node', hnode', hlink⟩, -⟩ := h
    obtain rfl := Option.some.inj (hnode.symm.trans hnode')
    exact hlink

theorem isLink_of_realpath_eq (hreal : t.realpath path = some path)
    (hstat : t.stat path ≠ some .dir) {b : List UInt8} (hb : Boundary b path) {node : Node}
    (hnode : t.lstat b = some node) : node.isLink = false := by
  obtain ⟨place, hground, htext, hplace⟩ := exists_grounded_of_realpath_eq hreal
  have habs : path.head? = some slash := htext ▸ head?_text place
  obtain ⟨q, hq, hnodeq⟩ := Option.bind_eq_some_iff.mp hnode
  obtain ⟨hbne, hblen⟩ := length_lt_of_lookup hq
  have hbabs := hb.head?_eq hbne habs
  obtain ⟨names, hnames, hwidth⟩ := splitOn_abs hbabs
  have hne : place ≠ [] := by
    rintro rfl
    obtain ⟨names', hnames', -⟩ := splitOn_abs habs
    have hlookup : t.lookup false path = _ := lookup_abs habs (length_lt_of_lookup hplace).2
    rw [hplace, hnames'] at hlookup
    have hdir := node_of_enters (enters_of_resolve hlookup.symm)
    apply hstat
    rw [FileTree.stat, hplace]
    exact hdir
  have henters := hground.enters_root hne
  obtain ⟨rest, hsplit⟩ := hb.splitOn
  have hall : [] :: place.reverse = [] :: (names ++ rest) := by
    rw [← List.cons_append, ← hnames, ← hsplit, ← htext, FileTree.text, if_neg hne,
      splitOn_flatMap fun n hn => hground.noSlash n (List.mem_reverse.mp hn)]
  have hrev : place = rest.reverse ++ names.reverse := by
    rw [← List.reverse_append, ← (List.cons.inj hall).2, List.reverse_reverse]
  have hgroundq : Grounded t names.reverse := Grounded.of_append (hrev ▸ hground)
  rw [lookup_abs hbabs hblen, hnames, resolve_nil_cons henters, resolve_grounded hgroundq] at hq
  obtain rfl := Option.some.inj hq
  refine hgroundq.isLink_eq_false (fun hnil => ?_) hnodeq
  have hzero : width names = 0 := by
    rw [List.reverse_eq_nil_iff.mp hnil]
    rfl
  rw [hzero] at hwidth
  exact hbne (List.length_eq_zero_iff.mp hwidth.symm)

theorem lookup_front {nofollow : Bool} (hlen : path.length < t.pathMax)
    (henters : t.enters [] = true) {ks rest : List (List UInt8)} (hks : ks ≠ [])
    (hnames : path.splitOn slash = [] :: (ks ++ rest)) :
    t.lookup nofollow ([slash].intercalate ([] :: ks)) =
      t.resolve nofollow t.symloopMax [] ks := by
  obtain ⟨k, ks, rfl⟩ := List.exists_cons_of_ne_nil hks
  have hb : Boundary ([slash].intercalate ([] :: k :: ks)) path :=
    boundary_intercalate (List.cons_ne_nil _ _) (hnames.trans (List.cons_append ..).symm)
  have hnoSlash : ∀ n ∈ [] :: k :: ks, slash ∉ n := by
    intro n hn
    apply notMem_of_mem_splitOn (s := path)
    rw [hnames, ← List.cons_append]
    exact List.mem_append_left rest hn
  have hbabs : ([slash].intercalate ([] :: k :: ks)).head? = some slash := by
    rw [List.intercalate_cons_cons]
    rfl
  rw [lookup_abs hbabs (Nat.lt_of_le_of_lt hb.length_le hlen),
    List.splitOn_intercalate slash hnoSlash (List.cons_ne_nil _ _), resolve_nil_cons henters]

theorem exists_link_of_realpath_none (habs : path.head? = some slash) {node : Node}
    (hstat : t.stat path = some node) (hreal : t.realpath path = none) :
    ∃ b, Boundary b path ∧ ∃ target, t.lstat b = some (.link target) := by
  obtain ⟨place, hplace, -⟩ := Option.bind_eq_some_iff.mp hstat
  have hlen := (length_lt_of_lookup hplace).2
  have hlong : t.pathMax ≤ (FileTree.text place).length := by
    rw [FileTree.realpath, hplace, Option.bind_some, ite_eq_right_iff] at hreal
    rw [← Nat.not_lt]
    exact fun hlt => nomatch hreal hlt
  obtain ⟨names, hnames, hwidth⟩ := splitOn_abs habs
  rw [lookup_abs habs hlen, hnames] at hplace
  have henters := enters_of_resolve hplace
  rw [resolve_nil_cons henters] at hplace
  have hnoSlash : ∀ n ∈ names, slash ∉ n :=
    fun n hn => notMem_of_mem_splitOn (hnames ▸ List.mem_cons_of_mem [] hn)
  cases exists_link_or_width_le_resolve hnoSlash hplace with
  | inl hlink =>
    obtain ⟨ks, rest, q, target, rfl, hks, hnode, hq⟩ := hlink
    have hb : Boundary ([slash].intercalate ([] :: ks)) path :=
      boundary_intercalate (List.cons_ne_nil _ _) (hnames.trans (List.cons_append ..).symm)
    refine ⟨_, hb, target, ?_⟩
    rw [FileTree.lstat, lookup_front hlen henters hks hnames, hq]
    exact hnode
  | inr hle =>
    -- the text of the place is no longer than the path, for which there is room
    have hpos : 0 < path.length := List.length_pos_of_ne_nil fun hnil => by
      rw [hnil] at habs
      exact nomatch habs
    have hzero : width [] = 0 := rfl
    rcases eq_or_ne place [] with rfl | hne
    · rw [FileTree.text, if_pos rfl, List.length_singleton] at hlong
      omega
    · rw [length_text hne] at hlong
      omega

end Links

end OpaeLibs.Lib.FileTrees
