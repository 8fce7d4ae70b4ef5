import Mathlib

namespace OpaeLibs.Lib.Glob

/-- A part of a wildcard pattern. -/
inductive Item (α : Type)
  | many
  | one (p : α → Bool)
  | lit (a : α)

theorem intercalate_append {α : Type} {a b : List (List α)} (sep : α) (ha : a ≠ []) (hb : b ≠ []) :
    [sep].intercalate (a ++ b) = [sep].intercalate a ++ sep :: [sep].intercalate b := by
  induction a with
  | nil => exact absurd rfl ha
  | cons name a ih =>
    by_cases ha : a = []
    · rw [ha, List.singleton_append, List.intercalate_cons_of_ne_nil hb, List.intercalate_singleton]
      exact List.append_assoc ..
    · rw [List.cons_append, List.intercalate_cons_of_ne_nil (by simp [ha]),
        List.intercalate_cons_of_ne_nil ha, ih ha]
      simp only [List.append_assoc]

theorem infix_intercalate {α : Type} {l : List α} {ls : List (List α)} (sep : α) (h : l ∈ ls) :
    l <:+: [sep].intercalate ls := by
  induction ls with
  | nil => exact nomatch h
  | cons name ls ih =>
    cases ls with
    | nil =>
      have heq : l = [sep].intercalate [name] :=
        (List.mem_singleton.mp h).trans List.intercalate_singleton.symm
      exact heq ▸ List.infix_refl l
    | cons name' ls =>
      rw [List.intercalate_cons_cons, List.append_assoc]
      rcases List.mem_cons.mp h with rfl | h
      · exact (List.prefix_append _ _).isInfix
      · exact (ih h).trans (List.suffix_append_of_suffix (List.suffix_append _ _)).isInfix

theorem exists_of_forall₂ {α β : Type} {R : α → β → Prop} {l : List α} {l' : List β}
    (h : List.Forall₂ R l l') {a : α} (ha : a ∈ l) : ∃ b ∈ l', R a b := by
  induction h with
  | nil => exact nomatch ha
  | cons hab _ ih =>
    rcases List.mem_cons.mp ha with rfl | ha
    · exact ⟨_, List.mem_cons_self, hab⟩
    · obtain ⟨b, hb, hab⟩ := ih ha
      exact ⟨b, List.mem_cons_of_mem _ hb, hab⟩

section

variable {α : Type} [DecidableEq α]

theorem infix_of_mem_splitOn {l s : List α} {sep : α} (h : l ∈ s.splitOn sep) : l <:+: s := by
  have hinfix := infix_intercalate sep h
  rwa [List.intercalate_splitOn] at hinfix

theorem splitOn_take (s : List α) (sep : α) (k : Nat) :
    ∃ names names', s.splitOn sep = names ++ names' ∧
      List.Forall₂ (· <+: ·) ((s.take k).splitOn sep) names := by
  induction s generalizing k with
  | nil =>
    refine ⟨[[]], [], rfl, ?_⟩
    rw [List.take_nil]
    exact .cons (List.prefix_refl []) .nil
  | cons b s ih =>
    cases k with
    | zero =>
      obtain ⟨name, names, hsplit⟩ := List.exists_cons_of_ne_nil (List.splitOn_ne_nil sep (b :: s))
      exact ⟨[name], names, hsplit, .cons (List.nil_prefix) .nil⟩
    | succ k =>
      obtain ⟨names, names', hsplit, hprefix⟩ := ih k
      rw [List.take_succ_cons, List.splitOn_cons_eq_if_modifyHead,
        List.splitOn_cons_eq_if_modifyHead, hsplit]
      by_cases hb : (b == sep) = true
      · rw [if_pos hb, if_pos hb]
        exact ⟨[] :: names, names', rfl, .cons (List.prefix_refl []) hprefix⟩
      · rw [if_neg hb, if_neg hb]
        cases hcut : (s.take k).splitOn sep with
        | nil => exact absurd hcut (List.splitOn_ne_nil sep _)
        | cons name cutNames =>
          rw [hcut] at hprefix
          cases hprefix with
          | cons hname hrest =>
            exact ⟨_, names', rfl, .cons ((List.prefix_cons_inj b).mpr hname) hrest⟩

def accepts : List (Item α) → List α → Bool
  | [] => fun s => s.isEmpty
  | .many :: items => fun s => s.tails.any (accepts items)
  | .one p :: items => fun
    | [] => false
    | b :: s => p b && accepts items s
  | .lit a :: items => fun
    | [] => false
    | b :: s => decide (a = b) && accepts items s

/-- Whether the items begin with a given symbol. -/
def beginsWith (a : α) : List (Item α) → Bool
  | .lit b :: _ => decide (a = b)
  | _ => false

/-- A name that begins with the symbol `hidden` is only met by items that say so. -/
def meets (hidden : α) (items : List (Item α)) (name : List α) : Bool :=
  (decide (name.head? = some hidden) → beginsWith hidden items) && accepts items name

theorem accepts_lits {s t : List α} : accepts (s.map .lit) t = true ↔ t = s := by
  induction s generalizing t with
  | nil => exact List.isEmpty_iff
  | cons a s ih =>
    cases t with
    | nil => exact ⟨nofun, nofun⟩
    | cons b t =>
      rw [List.map_cons, accepts, Bool.and_eq_true, decide_eq_true_iff, ih, List.cons_eq_cons]
      exact and_congr_left' eq_comm

theorem head_of_meets {hidden : α} {items : List (Item α)} {name : List α}
    (h : meets hidden items name = true) (hitems : beginsWith hidden items = false) :
    name.head? ≠ some hidden := by
  intro hname
  rw [meets, Bool.and_eq_true, decide_eq_true_iff] at h
  rw [h.1 (decide_eq_true hname)] at hitems
  exact nomatch hitems

theorem meets_lits {hidden : α} {s t : List α} :
    meets hidden (s.map .lit) t = true ↔ t = s := by
  rw [meets, Bool.and_eq_true, accepts_lits, decide_eq_true_iff]
  refine and_iff_right_of_imp ?_
  rintro rfl hhead
  cases t with
  | nil => exact nomatch hhead
  | cons b t =>
    rw [List.head?_cons, decide_eq_true_iff, Option.some_inj] at hhead
    exact decide_eq_true hhead.symm

/-- Whether each name of a path is met by what stands in its place in another. -/
def PathMeets (sep : α) (met : List α → List α → Bool) (pattern path : List α) : Prop :=
  List.Forall₂ (fun p n => met p n = true) (pattern.splitOn sep) (path.splitOn sep)

variable {sep : α} {met : List α → List α → Bool}

theorem PathMeets.split {dir pattern path : List α}
    (h : PathMeets sep met (dir ++ sep :: pattern) path)
    (hdir : ∀ p ∈ dir.splitOn sep, ∀ n, met p n = true → n = p) :
    ∃ names, names ≠ [] ∧ path.splitOn sep = dir.splitOn sep ++ names ∧
      path = dir ++ sep :: [sep].intercalate names ∧
      List.Forall₂ (fun p n => met p n = true) (pattern.splitOn sep) names := by
  rw [PathMeets, List.splitOn_append_cons_self] at h
  have htake := List.forall₂_take_append _ _ _ h.flip
  have hdrop := List.forall₂_drop_append _ _ _ h.flip
  have heq : (path.splitOn sep).take (dir.splitOn sep).length = dir.splitOn sep := by
    generalize dir.splitOn sep = ps at htake hdir
    generalize (path.splitOn sep).take ps.length = ns at htake
    induction htake with
    | nil => rfl
    | cons hmet _ ih =>
      rw [hdir _ List.mem_cons_self _ hmet,
        ih fun p hp => hdir p (List.mem_cons_of_mem _ hp)]
  have hsplit := List.take_append_drop (dir.splitOn sep).length (path.splitOn sep)
  rw [heq] at hsplit
  have hne : (path.splitOn sep).drop (dir.splitOn sep).length ≠ [] := by
    intro hnil
    rw [hnil] at hdrop
    exact List.splitOn_ne_nil sep pattern (List.forall₂_nil_left_iff.mp hdrop)
  refine ⟨_, hne, hsplit.symm, ?_, hdrop.flip⟩
  have hpath : [sep].intercalate (path.splitOn sep) = path := List.intercalate_splitOn sep
  rw [← hsplit, intercalate_append sep (List.splitOn_ne_nil sep dir) hne,
    List.intercalate_splitOn] at hpath
  exact hpath.symm

end

section Bytes

/-- What an expression in brackets stands for, and how many bytes it has behind the first. This
depends on the locale. -/
abbrev Brackets := List UInt8 → Option ((UInt8 → Bool) × Nat)

variable (brackets : Brackets)

def parse : Nat → List UInt8 → List (Item UInt8)
  | 0, _ => []
  | _ + 1, [] => []
  | fuel + 1, b :: s =>
    if b = 42 then .many :: parse fuel s
    else if b = 63 then .one (fun _ => true) :: parse fuel s
    else if b = 91 then
      match brackets s with
      | some (p, count) => .one p :: parse fuel (s.drop count)
      | none => .lit b :: parse fuel s
    else if b = 92 then .lit (s.headD b) :: parse fuel (s.drop 1)
    else .lit b :: parse fuel s

def fnmatch (pattern name : List UInt8) : Bool :=
  meets 46 (parse brackets pattern.length pattern) name

/-- The paths that `glob` looks for. -/
def Globs (pattern path : List UInt8) : Prop := PathMeets 47 (fnmatch brackets) pattern path

/-- A text in which no byte is special. -/
def Plain (s : List UInt8) : Prop := ∀ b ∈ s, b ∉ [42, 63, 91, 92]

instance (pattern path : List UInt8) : Decidable (Globs brackets pattern path) :=
  inferInstanceAs (Decidable (List.Forall₂ ..))

variable {brackets}

theorem parse_plain {s : List UInt8} (hs : Plain s) {fuel : Nat} (hfuel : s.length ≤ fuel) :
    parse brackets fuel s = s.map .lit := by
  induction s generalizing fuel with
  | nil => cases fuel <;> rfl
  | cons b s ih =>
    cases fuel with
    | zero => exact absurd hfuel (by simp)
    | succ fuel =>
      have hb := hs b List.mem_cons_self
      simp only [List.mem_cons, List.not_mem_nil, or_false, not_or] at hb
      rw [parse, if_neg hb.1, if_neg hb.2.1, if_neg hb.2.2.1, if_neg hb.2.2.2, List.map_cons,
        ih (fun c hc => hs c (List.mem_cons_of_mem b hc)) (Nat.le_of_succ_le_succ hfuel)]

theorem fnmatch_plain {s : List UInt8} (hs : Plain s) {name : List UInt8} :
    fnmatch brackets s name = true ↔ name = s := by
  rw [fnmatch, parse_plain hs (Nat.le_refl _), meets_lits]

theorem head_of_fnmatch {s name : List UInt8} (h : fnmatch brackets s name = true)
    (hdot : s.head? ≠ some 46) (hback : s.head? ≠ some 92) : name.head? ≠ some 46 := by
  apply head_of_meets h
  cases s with
  | nil => rfl
  | cons b s =>
    rw [List.head?_cons, ne_eq, Option.some_inj] at hdot hback
    rw [List.length_cons, parse]
    by_cases hmany : b = 42
    · rw [if_pos hmany]
      rfl
    by_cases hone : b = 63
    · rw [if_neg hmany, if_pos hone]
      rfl
    by_cases hset : b = 91
    · rw [if_neg hmany, if_neg hone, if_pos hset]
      cases brackets s with
      | some res => rfl
      | none => exact decide_eq_false (Ne.symm hdot)
    · rw [if_neg hmany, if_neg hone, if_neg hset, if_neg hback]
      exact decide_eq_false (Ne.symm hdot)

end Bytes

end OpaeLibs.Lib.Glob
