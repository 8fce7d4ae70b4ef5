import OpaeLibs.Lib.Heap

namespace OpaeLibs.Lib.Ownership

open OpaeLibs.Lib.Heap

/-- The blocks of a heap with what is in them, and how many allocations were tried. -/
structure Store (α : Type) where
  heap : Slots α
  calls : Nat

/-- A computation over a heap; `none` is a pointer that is used without a block. -/
def Prog (α β : Type) := Store α → Option (β × Store α)

variable {α β γ : Type}

instance : Monad (Prog α) where
  pure b := fun s => some (b, s)
  bind p f := fun s => (p s).bind fun r => f r.1 r.2

/-- `mem` says which of the allocations succeed, in their order. -/
def malloc (mem : Nat → Bool) (a : α) : Prog α (Option Nat) := fun s =>
  if mem s.calls then some (some s.heap.next, ⟨s.heap.alloc a, s.calls + 1⟩)
  else some (none, ⟨s.heap, s.calls + 1⟩)

/-- Nothing is done with `NULL`. -/
def free (p : Option Nat) : Prog α Unit := fun s =>
  match p with
  | none => some ((), s)
  | some i => (s.heap.get i).map fun _ => ((), ⟨s.heap.free i, s.calls⟩)

def read (p : Option Nat) : Prog α α := fun s =>
  (p.bind s.heap.get).map fun a => (a, s)

def write (p : Option Nat) (a : α) : Prog α Unit := fun s =>
  match p with
  | none => none
  | some i => (s.heap.get i).map fun _ => ((), ⟨s.heap.set i a, s.calls⟩)

/-- A pointer that may not be used is used. -/
def fault : Prog α β := fun _ => none

def freeAll : List (Option Nat) → Prog α Unit
  | [] => pure ()
  | p :: ps => do
    free p
    freeAll ps

/-- The computation comes to an end with the property. -/
def Runs (p : Prog α β) (s : Store α) (post : β → Store α → Prop) : Prop :=
  ∃ b s', p s = some (b, s') ∧ post b s'

/-- Of the blocks that are newer than a heap, those are left; the older are as they were. -/
structure Owns (base : Slots α) (s : Store α) (ids : List Nat) : Prop where
  next_le : base.next ≤ s.heap.next
  older : ∀ i < base.next, s.heap.get i = base.get i
  nodup : ids.Nodup
  newer : ∀ i ∈ ids, base.next ≤ i
  live : ∀ i, base.next ≤ i → ((s.heap.get i).isSome ↔ i ∈ ids)

def Holds (s : Store α) (ids : List Nat) (as : List α) : Prop := ids.map s.heap.get = as.map some

/-- The computation uses a pointer that has no block. -/
def Faults (p : Prog α β) (s : Store α) : Prop := p s = none

/-- Every block that is newer than the heap is freed, and no other. -/
structure Released (base : Slots α) (s : Store α) : Prop where
  older : ∀ i < base.next, s.heap.get i = base.get i
  newer : ∀ i, base.next ≤ i → s.heap.get i = none

section Rules

variable {s : Store α} {post : β → Store α → Prop}

theorem Runs.pure {b : β} (h : post b s) : Runs (pure b : Prog α β) s post := ⟨b, s, rfl, h⟩

theorem Runs.bind {p : Prog α β} {f : β → Prog α γ} {post' : γ → Store α → Prop}
    (hp : Runs p s post) (hf : ∀ b s', post b s' → Runs (f b) s' post') :
    Runs (p >>= f) s post' := by
  obtain ⟨b, s', hrun, hpost⟩ := hp
  obtain ⟨c, s'', hrun', hpost'⟩ := hf b s' hpost
  refine ⟨c, s'', ?_, hpost'⟩
  rw [← hrun']
  exact congrArg (Option.bind · fun r => f r.1 r.2) hrun

theorem Runs.imp {p : Prog α β} {post' : β → Store α → Prop} (hp : Runs p s post)
    (h : ∀ b s', post b s' → post' b s') : Runs p s post' := by
  obtain ⟨b, s', hrun, hpost⟩ := hp
  exact ⟨b, s', hrun, h b s' hpost⟩

theorem runs_pure_iff {b : β} : Runs (Pure.pure b : Prog α β) s post ↔ post b s :=
  ⟨fun ⟨_, _, hrun, hpost⟩ => by cases hrun; exact hpost, Runs.pure⟩

theorem bind_eq_of_eq {p : Prog α β} {f : β → Prog α γ} {b : β} {s' : Store α}
    (h : p s = some (b, s')) : (p >>= f) s = f b s' :=
  congrArg (Option.bind · fun r => f r.1 r.2) h

theorem Runs.bind_iff {p : Prog α β} {f : β → Prog α γ} {post' : γ → Store α → Prop} {c : Prop}
    (hp : Runs p s post) (hf : ∀ b s', post b s' → (Runs (f b) s' post' ↔ c)) :
    Runs (p >>= f) s post' ↔ c := by
  obtain ⟨b, s', hrun, hpost⟩ := hp
  rw [← hf b s' hpost, Runs, Runs, bind_eq_of_eq hrun]

theorem Runs.bind_eq {p : Prog α β} {f : β → Prog α γ} {a : β}
    (hp : Runs p s fun b s' => b = a ∧ s' = s) : (p >>= f) s = f a s := by
  obtain ⟨b, s', hrun, rfl, rfl⟩ := hp
  exact congrArg (Option.bind · fun r => f r.1 r.2) hrun

theorem Faults.not_runs {p : Prog α β} (h : Faults p s) : ¬Runs p s post := by
  rintro ⟨b, s', hrun, -⟩
  rw [Faults, hrun] at h
  exact nomatch h

theorem Faults.runs_iff {p : Prog α β} {c : Prop} (h : Faults p s) (hc : ¬c) :
    Runs p s post ↔ c := iff_of_false h.not_runs hc

theorem Faults.bind {p : Prog α β} (h : Faults p s) (f : β → Prog α γ) : Faults (p >>= f) s := by
  rw [Faults] at h
  exact congrArg (Option.bind · fun r => f r.1 r.2) h

theorem Runs.bind_faults {p : Prog α β} {f : β → Prog α γ} (hp : Runs p s post)
    (hf : ∀ b s', post b s' → Faults (f b) s') : Faults (p >>= f) s := by
  obtain ⟨b, s', hrun, hpost⟩ := hp
  rw [Faults, ← hf b s' hpost]
  exact congrArg (Option.bind · fun r => f r.1 r.2) hrun

theorem faults_bind (p : Prog α β) {f : β → Prog α γ} (hf : ∀ b s', Faults (f b) s') :
    Faults (p >>= f) s := by
  cases hp : p s with
  | none => exact Faults.bind hp f
  | some r =>
    have hrun : Runs p s fun _ _ => True := ⟨r.1, r.2, hp, trivial⟩
    exact hrun.bind_faults fun b s' _ => hf b s'

/-- The computation comes to an end with the property, unless it is a bad one that faults. -/
def RunsOr (bad : Prop) (p : Prog α β) (s : Store α) (post : β → Store α → Prop) : Prop :=
  bad ∧ Faults p s ∨ Runs p s post

theorem Runs.runsOr {bad : Prop} {p : Prog α β} (hp : Runs p s post) : RunsOr bad p s post :=
  .inr hp

theorem Runs.bindOr {bad : Prop} {p : Prog α β} {f : β → Prog α γ} {post' : γ → Store α → Prop}
    (hp : Runs p s post) (hf : ∀ b s', post b s' → RunsOr bad (f b) s' post') :
    RunsOr bad (p >>= f) s post' := by
  obtain ⟨b, s', hrun, hpost⟩ := hp
  have hbind : Runs p s fun b' s'' => b' = b ∧ s'' = s' := ⟨b, s', hrun, rfl, rfl⟩
  rcases hf b s' hpost with ⟨hbad, hfault⟩ | hruns
  · refine .inl ⟨hbad, hbind.bind_faults ?_⟩
    rintro _ _ ⟨rfl, rfl⟩
    exact hfault
  · refine .inr (hbind.bind ?_)
    rintro _ _ ⟨rfl, rfl⟩
    exact hruns

theorem RunsOr.bind {bad bad' : Prop} {p : Prog α β} {f : β → Prog α γ}
    {post' : γ → Store α → Prop} (hp : RunsOr bad p s post) (hbad : bad → bad')
    (hf : ∀ b s', post b s' → RunsOr bad' (f b) s' post') : RunsOr bad' (p >>= f) s post' := by
  rcases hp with ⟨h, hfault⟩ | hruns
  · exact .inl ⟨hbad h, hfault.bind f⟩
  · exact hruns.bindOr hf

theorem RunsOr.imp {bad bad' : Prop} {p : Prog α β} {post' : β → Store α → Prop}
    (hp : RunsOr bad p s post) (hbad : bad → bad') (h : ∀ b s', post b s' → post' b s') :
    RunsOr bad' p s post' := by
  rcases hp with ⟨hb, hfault⟩ | hruns
  · exact .inl ⟨hbad hb, hfault⟩
  · exact .inr (hruns.imp h)

end Rules

section Blocks

variable {base : Slots α} {s : Store α} {ids : List Nat}

theorem owns_self (s : Store α) : Owns s.heap s [] where
  next_le := Nat.le_refl _
  older := fun _ _ => rfl
  nodup := List.nodup_nil
  newer := nofun
  live := fun i hi => by
    rw [Slots.get_of_le hi]
    exact ⟨nofun, nofun⟩

theorem Owns.perm {ids' : List Nat} (h : Owns base s ids) (hperm : ids.Perm ids') :
    Owns base s ids' where
  next_le := h.next_le
  older := h.older
  nodup := hperm.nodup_iff.mp h.nodup
  newer := fun i hi => h.newer i (hperm.mem_iff.mpr hi)
  live := fun i hi => (h.live i hi).trans hperm.mem_iff

theorem Owns.released (h : Owns base s []) : Released base s where
  older := h.older
  newer := fun i hi => by
    rw [← Option.not_isSome_iff_eq_none, h.live i hi]
    exact List.not_mem_nil

theorem Owns.lt_next (h : Owns base s ids) {i : Nat} (hi : i ∈ ids) : i < s.heap.next := by
  obtain ⟨a, ha⟩ := Option.isSome_iff_exists.mp ((h.live i (h.newer i hi)).mpr hi)
  exact Slots.lt_next ha

theorem Owns.trans {s' : Store α} {ids' : List Nat} (h : Owns base s ids)
    (h' : Owns s.heap s' ids') : Owns base s' (ids' ++ ids) where
  next_le := Nat.le_trans h.next_le h'.next_le
  older := fun i hi => (h'.older i (Nat.lt_of_lt_of_le hi h.next_le)).trans (h.older i hi)
  nodup := by
    refine List.nodup_append.mpr ⟨h'.nodup, h.nodup, fun i hi j hj heq => ?_⟩
    exact Nat.not_lt.mpr (h'.newer i hi) (heq ▸ h.lt_next hj)
  newer := fun i hi => by
    cases List.mem_append.mp hi with
    | inl hi => exact Nat.le_trans h.next_le (h'.newer i hi)
    | inr hi => exact h.newer i hi
  live := fun i hi => by
    rw [List.mem_append]
    by_cases hlt : i < s.heap.next
    · rw [h'.older i hlt, h.live i hi, or_iff_right]
      exact fun hmem => Nat.not_lt.mpr (h'.newer i hmem) hlt
    · rw [h'.live i (Nat.not_lt.mp hlt), or_iff_left]
      exact fun hmem => hlt (h.lt_next hmem)

theorem runs_malloc (mem : Nat → Bool) (a : α) (h : Owns base s ids) :
    Runs (malloc mem a) s fun p s' => Owns base s' (p.toList ++ ids) := by
  rw [Runs]
  cases hmem : mem s.calls with
  | false =>
    refine ⟨none, ⟨s.heap, s.calls + 1⟩, ?_, h.next_le, h.older, h.nodup, h.newer, h.live⟩
    rw [malloc, hmem]
    rfl
  | true =>
    have hnot : s.heap.next ∉ ids := by
      intro hi
      have hsome := (h.live _ h.next_le).mpr hi
      rw [Slots.get_of_le (Nat.le_refl _)] at hsome
      exact nomatch hsome
    refine ⟨some s.heap.next, ⟨s.heap.alloc a, s.calls + 1⟩, ?_, ?_⟩
    · rw [malloc, hmem]
      rfl
    · rw [Option.toList_some, List.singleton_append]
      refine ⟨?_, fun i hi => ?_, List.nodup_cons.mpr ⟨hnot, h.nodup⟩, fun i hi => ?_,
        fun i hi => ?_⟩
      · rw [Slots.next_alloc]
        exact Nat.le_succ_of_le h.next_le
      · rw [Slots.get_alloc, if_neg (Nat.ne_of_lt (Nat.lt_of_lt_of_le hi h.next_le))]
        exact h.older i hi
      · cases List.mem_cons.mp hi with
        | inl heq => exact heq ▸ h.next_le
        | inr hi => exact h.newer i hi
      · rw [Slots.get_alloc, List.mem_cons]
        split
        · next heq => exact ⟨fun _ => .inl heq, fun _ => rfl⟩
        · next hne => rw [h.live i hi, or_iff_right hne]

theorem runs_malloc_none {mem : Nat → Bool} (a : α) (hmem : mem s.calls = false)
    (h : Owns base s ids) : Runs (malloc mem a) s fun p s' => p = none ∧ Owns base s' ids := by
  refine ⟨none, ⟨s.heap, s.calls + 1⟩, ?_, rfl, h.next_le, h.older, h.nodup, h.newer, h.live⟩
  rw [malloc, hmem]
  rfl

theorem runs_malloc_some {mem : Nat → Bool} (a : α) {as : List α} (hmem : mem s.calls = true)
    (h : Owns base s ids) (hold : Holds s ids as) :
    Runs (malloc mem a) s fun p s' =>
      ∃ i, p = some i ∧ Owns base s' (ids ++ [i]) ∧ Holds s' (ids ++ [i]) (as ++ [a]) := by
  obtain ⟨p, s', hrun, howns⟩ := runs_malloc mem a h
  have hp : malloc mem a s = some (some s.heap.next, ⟨s.heap.alloc a, s.calls + 1⟩) := by
    rw [malloc, hmem]
    rfl
  rw [hp] at hrun
  cases hrun
  refine ⟨_, _, hp, s.heap.next, rfl, howns.perm (List.perm_append_comm), ?_⟩
  rw [Holds, List.map_append, List.map_append, ← hold]
  congr 1
  · refine List.map_congr_left fun i hi => ?_
    have hne : i ≠ s.heap.next := by
      intro heq
      have hsome := (h.live i (h.newer i hi)).mpr hi
      rw [heq, Slots.get_of_le (Nat.le_refl _)] at hsome
      exact nomatch hsome
    rw [Slots.get_alloc, if_neg hne]
  · rw [List.map_singleton, List.map_singleton, Slots.get_alloc, if_pos rfl]

theorem runs_malloc_self (mem : Nat → Bool) (a : α) (s : Store α) :
    Runs (malloc mem a) s fun p s' => s'.calls = s.calls + 1 ∧ Owns s.heap s' p.toList ∧
      p.map s'.heap.get = if mem s.calls then some (some a) else none := by
  cases hmem : mem s.calls with
  | false =>
    have hrun : malloc mem a s = some (none, ⟨s.heap, s.calls + 1⟩) := by
      rw [malloc, hmem]
      rfl
    obtain ⟨p, s', hrun', hnone, howns⟩ := runs_malloc_none a hmem (owns_self s)
    rw [hrun] at hrun'
    cases hrun'
    exact ⟨_, _, hrun, rfl, howns, rfl⟩
  | true =>
    have hrun : malloc mem a s = some (some s.heap.next, ⟨s.heap.alloc a, s.calls + 1⟩) := by
      rw [malloc, hmem]
      rfl
    have hmalloc := runs_malloc_some a hmem (owns_self s) (show Holds s [] [] from rfl)
    obtain ⟨p, s', hrun', i, hi, howns, hold⟩ := hmalloc
    rw [hrun] at hrun'
    cases hrun'
    obtain rfl := Option.some.inj hi
    exact ⟨_, _, hrun, rfl, howns, congrArg some (List.cons.inj hold).1⟩

theorem runs_malloc_owns (mem : Nat → Bool) (a : α) (h : Owns base s ids) :
    Runs (malloc mem a) s fun p s' => s'.calls = s.calls + 1 ∧
      (∀ i < s.heap.next, s'.heap.get i = s.heap.get i) ∧
      (mem s.calls = false ∧ p = none ∧ Owns base s' ids ∨
        mem s.calls = true ∧ ∃ i, p = some i ∧ Owns base s' (i :: ids)) := by
  refine (runs_malloc_self mem a s).imp fun p s' hp => ⟨hp.1, hp.2.1.older, ?_⟩
  obtain ⟨-, howns, hget⟩ := hp
  have hall := h.trans howns
  cases hmem : mem s.calls with
  | false =>
    rw [hmem, if_neg Bool.false_ne_true, Option.map_eq_none_iff] at hget
    subst hget
    exact .inl ⟨rfl, rfl, hall⟩
  | true =>
    rw [hmem, if_pos rfl] at hget
    obtain ⟨i, rfl, -⟩ := Option.map_eq_some_iff.mp hget
    exact .inr ⟨rfl, i, rfl, hall⟩

theorem runs_free {p : Option Nat} (h : Owns base s (p.toList ++ ids)) :
    Runs (free p) s fun _ s' => Owns base s' ids := by
  cases p with
  | none => exact ⟨(), s, rfl, h⟩
  | some i =>
    rw [Option.toList_some, List.singleton_append] at h
    have hle := h.newer i List.mem_cons_self
    have hnodup := List.nodup_cons.mp h.nodup
    obtain ⟨a, ha⟩ := Option.isSome_iff_exists.mp ((h.live i hle).mpr List.mem_cons_self)
    refine ⟨(), ⟨s.heap.free i, s.calls⟩, ?_, ?_⟩
    · rw [free, ha, Option.map_some]
    · refine ⟨?_, fun j hj => ?_, hnodup.2, fun j hj => h.newer j (List.mem_cons_of_mem i hj),
        fun j hj => ?_⟩
      · rw [Slots.next_free]
        exact h.next_le
      · rw [Slots.get_free ha, if_neg (Nat.ne_of_lt (Nat.lt_of_lt_of_le hj hle))]
        exact h.older j hj
      · rw [Slots.get_free ha]
        split
        · next heq => exact ⟨nofun, fun hmem => absurd (heq ▸ hmem) hnodup.1⟩
        · next hne => rw [h.live j hj, List.mem_cons, or_iff_right hne]

theorem runs_freeAll {ps : List (Option Nat)} (h : Owns base s (ps.flatMap Option.toList ++ ids)) :
    Runs (freeAll ps) s fun _ s' => Owns base s' ids := by
  induction ps generalizing s with
  | nil => exact .pure h
  | cons p ps ih =>
    rw [List.flatMap_cons, List.append_assoc] at h
    exact (runs_free h).bind fun _ _ h => ih h

theorem runs_read {i : Nat} (h : Owns base s ids) (hi : i ∈ ids) :
    Runs (read (some i)) s fun _ s' => s' = s := by
  obtain ⟨a, ha⟩ := Option.isSome_iff_exists.mp ((h.live i (h.newer i hi)).mpr hi)
  exact ⟨a, s, by rw [read, Option.bind_some, ha, Option.map_some], rfl⟩

theorem Holds.length_eq {as : List α} (hold : Holds s ids as) : as.length = ids.length := by
  have hlen := congrArg List.length hold
  rw [List.length_map, List.length_map] at hlen
  exact hlen.symm

theorem runs_read_get {i : Nat} {a : α} (h : s.heap.get i = some a) :
    Runs (read (some i)) s fun b s' => b = a ∧ s' = s :=
  ⟨a, s, by rw [read, Option.bind_some, h, Option.map_some], rfl, rfl⟩

theorem runs_write_get {i : Nat} {a : α} (h : s.heap.get i = some a) (b : α) :
    Runs (write (some i) b) s fun _ s' => s'.calls = s.calls ∧ s'.heap.next = s.heap.next ∧
      ∀ j, s'.heap.get j = if j = i then some b else s.heap.get j :=
  ⟨(), ⟨s.heap.set i b, s.calls⟩, by rw [write, h, Option.map_some], rfl, Slots.next_set _ _ _,
    Slots.get_set h b⟩

theorem runs_write {i : Nat} (a : α) (h : Owns base s ids) (hi : i ∈ ids) :
    Runs (write (some i) a) s fun _ s' => Owns base s' ids ∧ s'.calls = s.calls ∧
      ∀ j, s'.heap.get j = if j = i then some a else s.heap.get j := by
  obtain ⟨b, hb⟩ := Option.isSome_iff_exists.mp ((h.live i (h.newer i hi)).mpr hi)
  have hget := Slots.get_set hb a
  refine ⟨(), ⟨s.heap.set i a, s.calls⟩, by rw [write, hb, Option.map_some], ?_, rfl, hget⟩
  refine ⟨?_, fun j hj => ?_, h.nodup, h.newer, fun j hj => ?_⟩
  · rw [Slots.next_set]
    exact h.next_le
  · rw [hget, if_neg (Nat.ne_of_lt (Nat.lt_of_lt_of_le hj (h.newer i hi)))]
    exact h.older j hj
  · rw [hget]
    split
    · next heq => exact ⟨fun _ => heq ▸ hi, fun _ => rfl⟩
    · exact h.live j hj

theorem runs_read_holds {as : List α} {k i : Nat} {a : α} (hold : Holds s ids as)
    (hi : ids[k]? = some i) (ha : as[k]? = some a) :
    Runs (read (some i)) s fun b s' => b = a ∧ s' = s := by
  have hget := congrArg (·[k]?) hold
  rw [List.getElem?_map, List.getElem?_map, hi, ha, Option.map_some, Option.map_some] at hget
  exact ⟨a, s, by rw [read, Option.bind_some, Option.some.inj hget, Option.map_some], rfl, rfl⟩

end Blocks

end OpaeLibs.Lib.Ownership
