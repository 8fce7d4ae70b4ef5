import Mathlib

namespace OpaeLibs.Lib.Chains

variable {α κ : Type*}

def chain (table : List (List α)) (i : Nat) : List α := table[i]?.getD []

@[simp] theorem chain_nil (i : Nat) : chain ([] : List (List α)) i = [] := rfl

@[simp] theorem chain_cons_zero (c : List α) (table : List (List α)) :
    chain (c :: table) 0 = c := rfl

@[simp] theorem chain_cons_succ (c : List α) (table : List (List α)) (i : Nat) :
    chain (c :: table) (i + 1) = chain table i := rfl

theorem chain_set {table : List (List α)} {i : Nat} (hi : i < table.length) (c : List α)
    (j : Nat) : chain (table.set i c) j = if i = j then c else chain table j := by
  rw [chain, chain, List.getElem?_set]
  split <;> rfl

theorem set_chain (table : List (List α)) (i : Nat) : table.set i (chain table i) = table := by
  apply List.ext_getElem?
  intro j
  rw [List.getElem?_set]
  split
  case isTrue hij =>
    subst hij
    split
    case isTrue hi => rw [chain, List.getElem?_eq_getElem hi, Option.getD_some]
    case isFalse hi => rw [List.getElem?_eq_none (Nat.not_lt.mp hi)]
  case isFalse => rfl

theorem mem_flatten {table : List (List α)} {e : α} :
    e ∈ table.flatten ↔ ∃ i, e ∈ chain table i := by
  induction table with
  | nil => simp
  | cons c table ih =>
    rw [List.flatten_cons, List.mem_append, ih]
    exact Nat.or_exists_add_one (p := fun i => e ∈ chain (c :: table) i)

theorem flatten_of_nil {table : List (List α)} {j : Nat}
    (h : ∀ i, i ≠ j → chain table i = []) : table.flatten = chain table j := by
  induction table generalizing j with
  | nil => rfl
  | cons c table ih =>
    cases j with
    | zero =>
      have hrest : table.flatten = [] := by
        rw [List.eq_nil_iff_forall_not_mem]
        intro e he
        obtain ⟨i, hi⟩ := mem_flatten.mp he
        have hnil : chain table i = [] := h (i + 1) (Nat.succ_ne_zero i)
        exact absurd (hnil ▸ hi) List.not_mem_nil
      rw [List.flatten_cons, hrest, List.append_nil, chain_cons_zero]
    | succ j =>
      have hc : c = [] := h 0 (Nat.succ_ne_zero j).symm
      have hrest := ih fun i hi => h (i + 1) fun heq => hi (Nat.succ.inj heq)
      rw [List.flatten_cons, hc, List.nil_append, hrest, chain_cons_succ]

theorem chain_map (f : List α → List α) (hf : f [] = []) (table : List (List α)) (i : Nat) :
    chain (table.map f) i = f (chain table i) := by
  rw [chain, chain, List.getElem?_map]
  cases table[i]? with
  | none => exact hf.symm
  | some c => rfl

section Filed

variable (key : α → κ) (hash : κ → Nat)

/-- Every entry is in the chain that its key hashes to. -/
structure Filed (table : List (List α)) : Prop where
  lt_length : ∀ k, hash k < table.length
  hash_eq : ∀ i, ∀ e ∈ chain table i, hash (key e) = i

variable {key hash}

theorem filed_empty {n : Nat} (h : ∀ k, hash k < n) :
    Filed key hash (List.replicate n []) := by
  refine ⟨fun k => by rw [List.length_replicate]; exact h k, fun i e he => ?_⟩
  rw [chain, List.getElem?_replicate] at he
  split at he <;> exact absurd he List.not_mem_nil

theorem Filed.set {table : List (List α)} (h : Filed key hash table) {k : κ} {c : List α}
    (hc : ∀ e ∈ c, hash (key e) = hash k) : Filed key hash (table.set (hash k) c) := by
  refine ⟨fun k' => by rw [List.length_set]; exact h.lt_length k', fun i e he => ?_⟩
  rw [chain_set (h.lt_length k)] at he
  split at he
  case isTrue hi => rw [hc e he, hi]
  case isFalse => exact h.hash_eq i e he

end Filed

section Stack

variable [DecidableEq κ] (key : α → κ) (hash : κ → Nat)

def stack (table : List (List α)) (k : κ) : List α :=
  (chain table (hash k)).filter fun e => key e = k

def push (e : α) (table : List (List α)) : List (List α) :=
  table.set (hash (key e)) (e :: chain table (hash (key e)))

def pop (k : κ) (table : List (List α)) : List (List α) :=
  table.set (hash k) ((chain table (hash k)).eraseP fun e => key e = k)

variable {key hash} {table : List (List α)} (h : Filed key hash table)
include h

theorem Filed.stack_set (k : κ) (c : List α) (k' : κ) :
    stack key hash (table.set (hash k) c) k' =
      if hash k = hash k' then c.filter (fun e => key e = k') else stack key hash table k' := by
  rw [stack, chain_set (h.lt_length k)]
  split <;> rfl

omit [DecidableEq κ] in
theorem Filed.push (e : α) : Filed key hash (push key hash e table) := by
  apply h.set
  rw [List.forall_mem_cons]
  exact ⟨rfl, h.hash_eq _⟩

theorem Filed.pop (k : κ) : Filed key hash (pop key hash k table) :=
  h.set fun e he => h.hash_eq _ e (List.mem_of_mem_eraseP he)

theorem Filed.stack_push (e : α) :
    stack key hash (Chains.push key hash e table) =
      Function.update (stack key hash table) (key e) (e :: stack key hash table (key e)) := by
  funext k
  rw [Chains.push, h.stack_set]
  by_cases hk : k = key e
  · subst hk
    rw [if_pos rfl, Function.update_self, List.filter_cons_of_pos (by simp), stack]
  · rw [Function.update_of_ne hk]
    split
    case isTrue hh => rw [List.filter_cons_of_neg (by simpa using Ne.symm hk), hh, stack]
    case isFalse => rfl

omit h in
theorem filter_eraseP (c : List α) (k k' : κ) :
    (c.eraseP fun e => key e = k).filter (fun e => key e = k') =
      if k' = k then (c.filter fun e => key e = k).tail else c.filter fun e => key e = k' := by
  induction c with
  | nil => simp
  | cons e c ih =>
    by_cases he : key e = k
    · rw [List.eraseP_cons_of_pos (by simpa using he)]
      by_cases hk : k' = k
      · rw [if_pos hk, List.filter_cons_of_pos (by simpa using he), List.tail_cons, hk]
      · rw [if_neg hk, List.filter_cons_of_neg (by simpa [he] using Ne.symm hk)]
    · rw [List.eraseP_cons_of_neg (by simpa using he)]
      by_cases hk : k' = k
      · subst hk
        rw [List.filter_cons_of_neg (by simpa using he), ih, if_pos rfl, if_pos rfl,
          List.filter_cons_of_neg (by simpa using he)]
      · rw [if_neg hk] at ih ⊢
        rw [List.filter_cons, List.filter_cons, ih]

theorem Filed.stack_pop (k : κ) :
    stack key hash (Chains.pop key hash k table) =
      Function.update (stack key hash table) k (stack key hash table k).tail := by
  funext k'
  rw [Chains.pop, h.stack_set, filter_eraseP]
  by_cases hk : k' = k
  · subst hk
    rw [if_pos rfl, if_pos rfl, Function.update_self, stack]
  · rw [if_neg hk, Function.update_of_ne hk]
    split
    case isTrue hh => rw [stack, hh]
    case isFalse => rfl

theorem Filed.filter_flatten (k : κ) :
    table.flatten.filter (fun e => key e = k) = stack key hash table k := by
  have hmap := chain_map (List.filter fun e => key e = k) rfl table
  rw [List.filter_flatten, flatten_of_nil (j := hash k), hmap, stack]
  intro i hi
  rw [hmap, List.filter_eq_nil_iff]
  intro e he hk
  have heq : key e = k := by simpa using hk
  exact hi (by rw [← heq, h.hash_eq i e he])

theorem Filed.mem_flatten (e : α) : e ∈ table.flatten ↔ e ∈ stack key hash table (key e) := by
  rw [← h.filter_flatten, List.mem_filter]
  simp

/-- A table whose stacks have one entry more holds one entry more. -/
theorem Filed.perm_cons {table' : List (List α)} (h' : Filed key hash table') {e : α}
    (hs : stack key hash table' =
      Function.update (stack key hash table) (key e) (e :: stack key hash table (key e))) :
    table'.flatten.Perm (e :: table.flatten) := by
  classical
  rw [List.perm_iff_count]
  intro x
  have hcount : ∀ {t : List (List α)}, Filed key hash t →
      t.flatten.count x = (stack key hash t (key x)).count x := by
    intro t ht
    rw [← ht.filter_flatten, List.count_filter (by simp)]
  rw [List.count_cons, hcount h', hcount h, hs]
  by_cases hx : key x = key e
  · rw [hx, Function.update_self, List.count_cons]
  · rw [Function.update_of_ne hx, if_neg (by simpa using fun he => hx (congrArg key he).symm),
      Nat.add_zero]

theorem Filed.perm_push (e : α) :
    (Chains.push key hash e table).flatten.Perm (e :: table.flatten) :=
  h.perm_cons (h.push e) (h.stack_push e)

theorem Filed.perm_pop {k : κ} {e : α} (he : (stack key hash table k).head? = some e) :
    table.flatten.Perm (e :: (Chains.pop key hash k table).flatten) := by
  obtain ⟨rest, hrest⟩ := List.head?_eq_some_iff.mp he
  have hmem : e ∈ stack key hash table k := hrest ▸ List.mem_cons_self
  have hk : key e = k := by simpa using (List.mem_filter.mp hmem).2
  apply (h.pop k).perm_cons h
  rw [h.stack_pop, hk, Function.update_self, Function.update_idem, hrest, List.tail_cons, ← hrest,
    Function.update_eq_self]

end Stack

end OpaeLibs.Lib.Chains
