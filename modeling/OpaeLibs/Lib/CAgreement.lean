import OpaeLibs.Lib.CStatements
import OpaeLibs.Lib.Outcomes

namespace OpaeLibs.Lib.CAgreement

open OpaeLibs.Lib.CGrammar OpaeLibs.Lib.CEvaluation OpaeLibs.Lib.CStatements
open OpaeLibs.Lib.Outcomes

scoped instance : LawfulBEq Name := inferInstance

/-- What is known of the names where two runs have come: which are declared and with which types in
the first run, which may have different values or different types, and which the second run has not
set yet. -/
structure Scope where
  inScope : List Name
  types : Name → Option TypeName
  differing : List Name
  retyped : List Name
  unset : List Name

/-- What statements do to names: those that they may leave with different values or with different
types, those that they may set, and those that they set alike in both runs wherever they are gone
through. -/
structure Change where
  bound : List Name
  retyped : List Name
  set : List Name
  settled : List Name

namespace Change

def none : Change := ⟨[], [], [], []⟩

def andThen (c d : Change) : Change :=
  ⟨c.bound.filter (· ∉ d.settled) ++ d.bound, c.retyped ++ d.retyped, c.set ++ d.set,
    c.settled ++ d.settled⟩

def binding (c : Change) (xs ys : List Name) : Change :=
  { c with bound := xs ++ c.bound, retyped := ys ++ c.retyped }

def maybe (c : Change) : Change := { c with settled := [] }

def counting (c : Change) (x : Name) : Change := ⟨x :: c.bound, c.retyped, x :: c.set, []⟩

def setting (l : CExpr) : Change := ⟨[], [], identOf l, identOf l⟩

end Change

namespace Scope

variable (σ : Scope) (x : Name) (u : Option TypeName)

def set : Scope :=
  { σ with differing := σ.differing.filter (· ≠ x), unset := σ.unset.filter (· ≠ x) }

def declare : Scope :=
  ⟨x :: σ.inScope, Function.update σ.types x u, σ.differing.filter (· ≠ x),
    σ.retyped.filter (· ≠ x), σ.unset.filter (· ≠ x)⟩

/-- A declared name has no value in the first run, and it may have one in the second. -/
def redeclare : Scope :=
  ⟨x :: σ.inScope, Function.update σ.types x u, x :: σ.differing, σ.retyped.filter (· ≠ x),
    σ.unset.filter (· ≠ x)⟩

def behind (c : Change) : Scope :=
  ⟨σ.inScope, σ.types, σ.differing.filter (· ∉ c.settled) ++ c.bound, σ.retyped ++ c.retyped,
    σ.unset.filter (· ∉ c.set)⟩

/-- The second scope tells less. -/
structure Le (σ τ : Scope) : Prop where
  inScope : τ.inScope ⊆ σ.inScope
  types : τ.types = σ.types
  differing : σ.differing ⊆ τ.differing
  retyped : σ.retyped ⊆ τ.retyped
  unset : τ.unset ⊆ σ.unset

variable {σ x u}

theorem Le.refl : Le σ σ := ⟨fun _ h => h, rfl, fun _ h => h, fun _ h => h, fun _ h => h⟩

theorem Le.trans {τ υ : Scope} (h : Le σ τ) (h' : Le τ υ) : Le σ υ :=
  ⟨fun _ hx => h.inScope (h'.inScope hx), h'.types.trans h.types,
    fun _ hx => h'.differing (h.differing hx), fun _ hx => h'.retyped (h.retyped hx),
    fun _ hx => h.unset (h'.unset hx)⟩

theorem mem_differing_behind {c : Change} {y : Name} :
    y ∈ (σ.behind c).differing ↔ (y ∈ σ.differing ∧ y ∉ c.settled) ∨ y ∈ c.bound := by
  rw [behind, List.mem_append, List.mem_filter, decide_eq_true_iff]

theorem mem_unset_behind {c : Change} {y : Name} :
    y ∈ (σ.behind c).unset ↔ y ∈ σ.unset ∧ y ∉ c.set := by
  rw [behind, List.mem_filter, decide_eq_true_iff]

theorem mem_retyped_behind {c : Change} {y : Name} :
    y ∈ (σ.behind c).retyped ↔ y ∈ σ.retyped ∨ y ∈ c.retyped := by
  rw [behind, List.mem_append]

theorem le_behind {c : Change} (hc : c.settled = []) : Le σ (σ.behind c) :=
  ⟨fun _ h => h, rfl, fun _ h => mem_differing_behind.mpr (.inl ⟨h, hc ▸ List.not_mem_nil⟩),
    fun _ h => mem_retyped_behind.mpr (.inl h), fun _ h => (mem_unset_behind.mp h).1⟩

theorem declare_set_le : Le ((σ.declare x u).set x) (σ.declare x u) := by
  refine ⟨fun _ h => h, rfl, fun y h => List.mem_of_mem_filter h, fun _ h => h, fun y h => ?_⟩
  simpa [declare, set] using h

theorem redeclare_set_le : Le ((σ.redeclare x u).set x) (σ.declare x u) := by
  refine ⟨fun _ h => h, rfl, fun y h => ?_, fun _ h => h, fun y h => ?_⟩
  · simpa [redeclare, declare, set] using h
  · simpa [redeclare, declare, set] using h

theorem Le.behind {τ : Scope} {c : Change} (h : Le σ τ) : Le (σ.behind c) (τ.behind c) := by
  refine ⟨h.inScope, h.types, fun y hy => ?_, fun y hy => ?_, fun y hy => ?_⟩
  · rw [mem_differing_behind] at hy ⊢
    exact hy.imp_left fun hy => ⟨h.differing hy.1, hy.2⟩
  · rw [mem_retyped_behind] at hy ⊢
    exact hy.imp_left fun hy => h.retyped hy
  · rw [mem_unset_behind] at hy ⊢
    exact ⟨h.unset hy.1, hy.2⟩

theorem behind_le {c d : Change} (hbound : c.bound ⊆ d.bound) (hretyped : c.retyped ⊆ d.retyped)
    (hset : c.set ⊆ d.set) (hsettled : d.settled ⊆ c.settled) : Le (σ.behind c) (σ.behind d) := by
  refine ⟨fun _ h => h, rfl, fun y hy => ?_, fun y hy => ?_, fun y hy => ?_⟩
  · rw [mem_differing_behind] at hy ⊢
    exact hy.imp (fun hy => ⟨hy.1, fun h => hy.2 (hsettled h)⟩) fun hy => hbound hy
  · rw [mem_retyped_behind] at hy ⊢
    exact hy.imp_right fun hy => hretyped hy
  · rw [mem_unset_behind] at hy ⊢
    exact ⟨hy.1, fun h => hy.2 (hset h)⟩

theorem behind_maybe_le {c : Change} : Le (σ.behind c) (σ.behind c.maybe) :=
  behind_le (List.Subset.refl _) (List.Subset.refl _) (List.Subset.refl _) (List.nil_subset _)

theorem behind_andThen_le {c d : Change} :
    Le ((σ.behind c).behind d) (σ.behind (c.andThen d)) := by
  refine ⟨fun _ h => h, rfl, fun y hy => ?_, fun y hy => ?_, fun y hy => ?_⟩
  · rw [mem_differing_behind, mem_differing_behind] at hy
    rw [mem_differing_behind]
    simp only [Change.andThen, List.mem_append, List.mem_filter, decide_eq_true_iff, not_or]
    tauto
  · rw [mem_retyped_behind, mem_retyped_behind, or_assoc] at hy
    rw [mem_retyped_behind, Change.andThen, List.mem_append]
    exact hy
  · rw [mem_unset_behind] at hy
    rw [mem_unset_behind, mem_unset_behind]
    simp only [Change.andThen, List.mem_append, not_or] at hy
    tauto

/-- What is behind again and again is as good as behind once, where it may be passed by. -/
theorem behind_maybe_behind_le {c : Change} :
    Le ((σ.behind c.maybe).behind c) (σ.behind c.maybe) := by
  refine ⟨fun _ h => h, rfl, fun y hy => ?_, fun y hy => ?_, fun y hy => ?_⟩
  · rcases mem_differing_behind.mp hy with hy | hy
    · exact hy.1
    · exact mem_differing_behind.mpr (.inr hy)
  · rcases mem_retyped_behind.mp hy with hy | hy
    · exact hy
    · exact mem_retyped_behind.mpr (.inr hy)
  · rw [mem_unset_behind] at hy ⊢
    exact ⟨mem_unset_behind.mpr hy, hy.2⟩

/-- What is known behind a block that declares a name, from what is known where it ends. -/
structure Left (x : Name) (τ υ : Scope) : Prop where
  inScope : ∀ y ∈ υ.inScope, y ≠ x → y ∈ τ.inScope
  types : ∀ y, y ≠ x → υ.types y = τ.types y
  differing : τ.differing ⊆ υ.differing
  declared : x ∈ υ.differing
  retyped : τ.retyped ⊆ υ.retyped
  type : x ∉ υ.retyped → υ.types x = τ.types x ∧ (τ.types x).isSome = true
  unset : υ.unset ⊆ τ.unset

end Scope

section Environments

variable {V L : Type}

/-- Two bindings are the same, or the values of a variable of one type. -/
def Alike (b b' : Binding V L) : Prop := b = b' ∨ ∃ t v v', b = .value t v ∧ b' = .value t v'

/-- The environments of two runs agree as far as a scope tells. -/
structure Agree (inMemory : Name → Bool) (σ : Scope) (ρ ρ' : Env V L) : Prop where
  same : ∀ x, x ∉ σ.differing → x ∉ σ.retyped → ρ x = ρ' x
  alike : ∀ x ∈ σ.inScope, (inMemory x = false → x ∉ σ.retyped) → Alike (ρ x) (ρ' x)
  typed : ∀ x ∈ σ.inScope, inMemory x = false →
    ∃ t v, ρ x = .value t v ∧ ∀ u ∈ σ.types x, t = some u
  valued : ∀ x ∈ σ.inScope, inMemory x = false → ∃ t v, ρ' x = .value t v
  fresh : ∀ x ∈ σ.unset, ρ' x = .value none none
  no_object : ∀ x, inMemory x = false → ∀ l, ρ' x ≠ .object l

variable {inMemory : Name → Bool} {σ τ υ : Scope} {ρ ρ' : Env V L} {x : Name}

theorem Alike.value {t t' : Option TypeName} {v v' : Option V}
    (h : Alike (L := L) (.value t v) (.value t' v')) : t = t' := by
  rcases h with h | ⟨u, w, w', h, h'⟩
  · exact (Binding.value.inj h).1
  · exact (Binding.value.inj h).1.trans (Binding.value.inj h').1.symm

theorem Agree.mono (h : Agree inMemory σ ρ ρ') (hle : Scope.Le σ τ) : Agree inMemory τ ρ ρ' :=
  ⟨fun x hx hty => h.same x (fun hmem => hx (hle.differing hmem)) fun hmem =>
      hty (hle.retyped hmem),
    fun x hx hty => h.alike x (hle.inScope hx) fun hmemory hmem => hty hmemory (hle.retyped hmem),
    fun x hx => hle.types ▸ h.typed x (hle.inScope hx), fun x hx => h.valued x (hle.inScope hx),
    fun x hx => h.fresh x (hle.unset hx), h.no_object⟩

theorem mem_filter_ne {xs : List Name} {x y : Name} :
    y ∈ xs.filter (· ≠ x) ↔ y ∈ xs ∧ y ≠ x := by
  rw [List.mem_filter, decide_eq_true_iff]

/-- A name of which the bindings are the same is as good as set. -/
theorem Agree.set (h : Agree inMemory σ ρ ρ') (hx : ρ x = ρ' x) :
    Agree inMemory (σ.set x) ρ ρ' := by
  refine ⟨fun y hy => ?_, h.alike, h.typed, h.valued,
    fun y hy => h.fresh y (mem_filter_ne.mp hy).1, h.no_object⟩
  by_cases hyx : y = x
  · exact fun _ => by rw [hyx, hx]
  · exact h.same y fun hmem => hy (mem_filter_ne.mpr ⟨hmem, hyx⟩)

/-- A variable is set in both runs, to one value where it has one type. -/
theorem Agree.update {t t' : Option TypeName} {v v' w w' : Option V}
    (h : Agree inMemory σ ρ ρ') (hx : ρ x = .value t w) (hx' : ρ' x = .value t' w')
    (hv : t = t' → v = v') (hknown : x ∈ σ.retyped ∨ t = t') :
    Agree inMemory (σ.set x) (Function.update ρ x (.value t v))
      (Function.update ρ' x (.value t' v')) := by
  constructor
  · intro y hy hty
    by_cases hyx : y = x
    · subst hyx
      have ht := hknown.resolve_left hty
      rw [Function.update_self, Function.update_self, hv ht, ht]
    · rw [Function.update_of_ne hyx, Function.update_of_ne hyx]
      exact h.same y (fun hmem => hy (mem_filter_ne.mpr ⟨hmem, hyx⟩)) hty
  · intro y hy hty
    by_cases hyx : y = x
    · subst hyx
      have halike := h.alike y hy hty
      rw [hx, hx'] at halike
      rw [Function.update_self, Function.update_self, ← hv halike.value, ← halike.value]
      exact .inl rfl
    · rw [Function.update_of_ne hyx, Function.update_of_ne hyx]
      exact h.alike y hy hty
  · intro y hy hmemory
    by_cases hyx : y = x
    · subst hyx
      obtain ⟨u, b, hb, htype⟩ := h.typed y hy hmemory
      rw [hx, Binding.value.injEq] at hb
      exact ⟨t, v, Function.update_self .., hb.1 ▸ htype⟩
    · rw [Function.update_of_ne hyx]
      exact h.typed y hy hmemory
  · intro y hy hmemory
    by_cases hyx : y = x
    · exact ⟨t', v', by rw [hyx, Function.update_self]⟩
    · rw [Function.update_of_ne hyx]
      exact h.valued y hy hmemory
  · intro y hy
    obtain ⟨hy, hyx⟩ := mem_filter_ne.mp hy
    rw [Function.update_of_ne hyx]
    exact h.fresh y hy
  · intro y hmemory l
    by_cases hyx : y = x
    · rw [hyx, Function.update_self]
      exact nofun
    · rw [Function.update_of_ne hyx]
      exact h.no_object y hmemory l

/-- Names but for one are found as before where a name is bound anew. -/
theorem Agree.bind {b b' : Binding V L} {u : Option TypeName}
    (h : Agree inMemory σ ρ ρ') (hυ : υ = σ.declare x u ∨ υ = σ.redeclare x u)
    (hsame : x ∉ υ.differing → b = b') (halike : Alike b b')
    (hb : inMemory x = false → (∃ t v, b = .value t v ∧ ∀ u' ∈ u, t = some u') ∧
      ∃ t v, b' = .value t v) :
    Agree inMemory υ (Function.update ρ x b) (Function.update ρ' x b') := by
  have hscope : υ.inScope = x :: σ.inScope := by rcases hυ with rfl | rfl <;> rfl
  have htypes : υ.types = Function.update σ.types x u := by rcases hυ with rfl | rfl <;> rfl
  have hretyped : υ.retyped = σ.retyped.filter (· ≠ x) := by rcases hυ with rfl | rfl <;> rfl
  have hunset : υ.unset = σ.unset.filter (· ≠ x) := by rcases hυ with rfl | rfl <;> rfl
  have hdiffering {y : Name} (hyx : y ≠ x) (hy : y ∉ υ.differing) : y ∉ σ.differing := by
    rcases hυ with rfl | rfl
    · exact fun hmem => hy (mem_filter_ne.mpr ⟨hmem, hyx⟩)
    · exact fun hmem => hy (List.mem_cons_of_mem _ hmem)
  have hkept {y : Name} (hyx : y ≠ x) (hy : y ∉ υ.retyped) : y ∉ σ.retyped :=
    fun hmem => hy (hretyped ▸ mem_filter_ne.mpr ⟨hmem, hyx⟩)
  constructor
  · intro y hy hty
    by_cases hyx : y = x
    · rw [hyx, Function.update_self, Function.update_self, hsame (hyx ▸ hy)]
    · rw [Function.update_of_ne hyx, Function.update_of_ne hyx]
      exact h.same y (hdiffering hyx hy) (hkept hyx hty)
  · intro y hy hty
    by_cases hyx : y = x
    · rw [hyx, Function.update_self, Function.update_self]
      exact halike
    · rw [Function.update_of_ne hyx, Function.update_of_ne hyx]
      exact h.alike y (List.mem_of_ne_of_mem hyx (hscope ▸ hy)) fun hmemory =>
        hkept hyx (hty hmemory)
  · intro y hy hmemory
    rw [htypes]
    by_cases hyx : y = x
    · rw [hyx, Function.update_self, Function.update_self]
      exact (hb (hyx ▸ hmemory)).1
    · rw [Function.update_of_ne hyx, Function.update_of_ne hyx]
      exact h.typed y (List.mem_of_ne_of_mem hyx (hscope ▸ hy)) hmemory
  · intro y hy hmemory
    by_cases hyx : y = x
    · rw [hyx, Function.update_self]
      exact (hb (hyx ▸ hmemory)).2
    · rw [Function.update_of_ne hyx]
      exact h.valued y (List.mem_of_ne_of_mem hyx (hscope ▸ hy)) hmemory
  · intro y hy
    rw [hunset] at hy
    obtain ⟨hy, hyx⟩ := mem_filter_ne.mp hy
    rw [Function.update_of_ne hyx]
    exact h.fresh y hy
  · intro y hmemory l
    by_cases hyx : y = x
    · obtain ⟨t, v, rfl⟩ := (hb (hyx ▸ hmemory)).2
      rw [hyx, Function.update_self]
      exact nofun
    · rw [Function.update_of_ne hyx]
      exact h.no_object y hmemory l

theorem Agree.declare {b : Binding V L} {u : Option TypeName} (h : Agree inMemory σ ρ ρ')
    (hb : inMemory x = false → ∃ t v, b = .value t v ∧ ∀ u' ∈ u, t = some u') :
    Agree inMemory (σ.declare x u) (Function.update ρ x b) (Function.update ρ' x b) := by
  refine h.bind (.inl rfl) (fun _ => rfl) (.inl rfl) fun hmemory => ?_
  obtain ⟨t, v, hv, htype⟩ := hb hmemory
  exact ⟨⟨t, v, hv, htype⟩, t, v, hv⟩

theorem Agree.redeclare {u : Option TypeName} {v v' : Option V} (h : Agree inMemory σ ρ ρ') :
    Agree inMemory (σ.redeclare x u) (Function.update ρ x (.value u v))
      (Function.update ρ' x (.value u v')) :=
  h.bind (.inr rfl) (fun hx => absurd List.mem_cons_self hx) (.inr ⟨u, v, v', rfl, rfl⟩) fun _ =>
    ⟨⟨u, v, rfl, fun _ hu => hu⟩, u, v', rfl⟩

/-- Where a block ends, the first run has back what a name that the block declares was bound to, and
the second run keeps what it has. -/
theorem Agree.restore {b : Binding V L} (h : Agree inMemory τ ρ ρ') (hleft : Scope.Left x τ υ)
    (hscope : x ∈ τ.inScope) (hmemory : inMemory x = false)
    (hb : x ∈ υ.inScope → ∃ t v, b = .value t v ∧ ∀ u ∈ υ.types x, t = some u) :
    Agree inMemory υ (Function.update ρ x b) ρ' := by
  constructor
  · intro y hy hty
    have hyx : y ≠ x := fun hyx => hy (hyx ▸ hleft.declared)
    rw [Function.update_of_ne hyx]
    exact h.same y (fun hmem => hy (hleft.differing hmem)) fun hmem => hty (hleft.retyped hmem)
  · intro y hy hty
    by_cases hyx : y = x
    · subst hyx
      have hty := hty hmemory
      obtain ⟨heq, hsome⟩ := hleft.type hty
      obtain ⟨u, hu⟩ := Option.isSome_iff_exists.mp hsome
      obtain ⟨t, v, rfl, ht⟩ := hb hy
      obtain ⟨t', w, hw, ht'⟩ := h.typed y hscope hmemory
      obtain ⟨t'', w', hw'⟩ := h.valued y hscope hmemory
      have halike := h.alike y hscope fun _ hmem => hty (hleft.retyped hmem)
      rw [hw, hw'] at halike
      rw [Function.update_self, hw', ← halike.value, ht' u hu, ht u (heq.trans hu)]
      exact .inr ⟨_, _, _, rfl, rfl⟩
    · rw [Function.update_of_ne hyx]
      exact h.alike y (hleft.inScope y hy hyx) fun hmemory hmem =>
        hty hmemory (hleft.retyped hmem)
  · intro y hy hmem
    by_cases hyx : y = x
    · subst hyx
      rw [Function.update_self]
      exact hb hy
    · rw [Function.update_of_ne hyx, hleft.types y hyx]
      exact h.typed y (hleft.inScope y hy hyx) hmem
  · intro y hy hmem
    by_cases hyx : y = x
    · exact hyx ▸ h.valued x hscope hmemory
    · exact h.valued y (hleft.inScope y hy hyx) hmem
  · exact fun y hy => h.fresh y (hleft.unset hy)
  · exact h.no_object

/-- A variable that may differ is set in the first run alone. -/
theorem Agree.advance {t t' : Option TypeName} {v w w' : Option V} (h : Agree inMemory σ ρ ρ')
    (hx : x ∈ σ.differing) (hold : ρ x = .value t w) (hvalue : ρ' x = .value t' w')
    (hmemory : inMemory x = false) (hknown : x ∈ σ.retyped ∨ t = t') :
    Agree inMemory σ (Function.update ρ x (.value t v)) ρ' := by
  constructor
  · intro y hy
    have hyx : y ≠ x := fun hyx => hy (hyx ▸ hx)
    rw [Function.update_of_ne hyx]
    exact h.same y hy
  · intro y hy hty
    by_cases hyx : y = x
    · subst hyx
      have ht := hknown.resolve_left (hty hmemory)
      rw [Function.update_self, hvalue, ht]
      exact .inr ⟨t', v, w', rfl, rfl⟩
    · rw [Function.update_of_ne hyx]
      exact h.alike y hy hty
  · intro y hy hlocal
    by_cases hyx : y = x
    · subst hyx
      obtain ⟨u, b, hb, htype⟩ := h.typed y hy hlocal
      rw [hold, Binding.value.injEq] at hb
      exact ⟨t, v, Function.update_self .., hb.1 ▸ htype⟩
    · rw [Function.update_of_ne hyx]
      exact h.typed y hy hlocal
  · exact h.valued
  · exact h.fresh
  · exact h.no_object

end Environments

section States

variable {V L W : Type}

/-- Two runs have come to states that agree, and they have had the same effects. -/
structure Match (inMemory : Name → Bool) (σ : Scope) (s t : State V L W) : Prop where
  env : Agree inMemory σ s.env t.env
  world : s.world = t.world

variable {M : Machine V L W} {inMemory : Name → Bool} {σ τ : Scope} {s t : State V L W}
  {x : Name} {e l r : CExpr} {v : V}

/-- An expression of names that do not differ. -/
def Known (σ : Scope) (e : CExpr) : Prop := ∀ x ∈ names e, x ∉ σ.differing ∧ x ∉ σ.retyped

theorem Match.mono (h : Match inMemory σ s t) (hle : Scope.Le σ τ) : Match inMemory τ s t :=
  ⟨h.env.mono hle, h.world⟩

theorem Match.eval_eq (h : Match inMemory σ s t) (he : Known σ e) :
    eval M s.env e s.world = eval M t.env e t.world := by
  rw [eval_congr e fun x hx => congrArg _ (h.env.same x (he x hx).1 (he x hx).2), h.world]

theorem Match.place_eq (h : Match inMemory σ s t) (he : Known σ e) :
    place M s.env e s.world = place M t.env e t.world := by
  rw [place_congr e fun x hx => congrArg _ (h.env.same x (he x hx).1 (he x hx).2), h.world]

/-- A value and a state are found in both runs alike. -/
def Valued (inMemory : Name → Bool) (σ : Scope) (a b : V × State V L W) : Prop :=
  a.1 = b.1 ∧ Match inMemory σ a.2 b.2

theorem Match.evalAt (h : Match inMemory σ s t) (he : Known σ e) :
    Option.Rel (Valued inMemory σ) (evalAt M e s) (evalAt M e t) := by
  rw [CStatements.evalAt, CStatements.evalAt, h.eval_eq he]
  cases eval M t.env e t.world with
  | none => exact .none
  | some a => exact .some ⟨rfl, h.env, rfl⟩

theorem Match.storeTo (h : Match inMemory σ s t) (hl : Known σ l) :
    Option.Rel (Match inMemory σ) (storeTo M l v s) (storeTo M l v t) := by
  rw [CStatements.storeTo, CStatements.storeTo, h.place_eq hl]
  cases place M t.env l t.world with
  | none => exact .none
  | some p =>
    cases hstore : M.store p.1 v p.2 with
    | none =>
      simp only [Option.bind_eq_bind, Option.bind_some, hstore, Option.bind_none]
      exact .none
    | some q =>
      simp only [Option.bind_eq_bind, Option.bind_some, hstore]
      exact .some ⟨h.env, rfl⟩

/-- What may be assigned to: a name in scope, or a known place. -/
def Settable (σ : Scope) : CExpr → Prop
  | .ident x => x ∈ σ.inScope ∨ Known σ (.ident x)
  | l => Known σ l

def Scope.assigned (σ : Scope) : CExpr → Scope
  | .ident x => σ.set x
  | _ => σ

theorem settable_of_known (hl : Known σ l) : Settable σ l := by
  cases l with
  | ident x => exact .inr hl
  | _ => exact hl

theorem Match.ident_eq (h : Match inMemory σ s t) (hx : Known σ (.ident x)) : s.env x = t.env x :=
  h.env.same x (hx x List.mem_cons_self).1 (hx x List.mem_cons_self).2

theorem Match.assigned (h : Match inMemory σ s t) (hl : Known σ l) :
    Match inMemory (σ.assigned l) s t := by
  cases l with
  | ident x => exact ⟨h.env.set (h.ident_eq hl), h.world⟩
  | _ => exact h

/-- What a name is bound to that may be assigned to: the same, or values of a variable, which has
one type unless it may have been declared with another. -/
theorem Match.settable_cases (h : Match inMemory σ s t) (hx : Settable σ (.ident x)) :
    s.env x = t.env x ∨ ∃ u w u' w', s.env x = .value u w ∧ t.env x = .value u' w' ∧
      (x ∈ σ.retyped ∨ u = u') := by
  rcases hx with hx | hx
  · by_cases hty : inMemory x = false → x ∉ σ.retyped
    · rcases h.env.alike x hx hty with heq | ⟨u, w, w', hs, ht⟩
      · exact .inl heq
      · exact .inr ⟨u, w, u, w', hs, ht, .inr rfl⟩
    · rw [Classical.not_imp, not_not] at hty
      obtain ⟨u, w, hs, -⟩ := h.env.typed x hx hty.1
      obtain ⟨u', w', ht⟩ := h.env.valued x hx hty.1
      exact .inr ⟨u, w, u', w', hs, ht, .inl hty.2⟩
  · exact .inl (h.ident_eq hx)

theorem Match.storeTo_ident (h : Match inMemory σ s t) (hx : s.env x = t.env x) :
    Option.Rel (Match inMemory (σ.set x)) (CStatements.storeTo M (.ident x) v s)
      (CStatements.storeTo M (.ident x) v t) := by
  have hplace : place M s.env (.ident x) s.world = place M t.env (.ident x) t.world := by
    rw [place, place, hx, h.world]
  rw [CStatements.storeTo, CStatements.storeTo, hplace]
  refine rel_bind_self fun p => rel_bind_self fun q => .some ⟨h.env.set hx, rfl⟩

theorem Match.setTo_value {u u' : Option TypeName} {w w' : Option V} (h : Match inMemory σ s t)
    (hs : s.env x = .value u w) (ht : t.env x = .value u' w') (hu : x ∈ σ.retyped ∨ u = u') :
    Option.Rel (Match inMemory (σ.set x)) (CStatements.setTo M (.ident x) v s)
      (CStatements.setTo M (.ident x) v t) := by
  simp only [CStatements.setTo, hs, ht]
  exact .some ⟨h.env.update hs ht (fun hu => by rw [hu]) hu, h.world⟩

theorem Match.setTo_ident (h : Match inMemory σ s t) (hx : Settable σ (.ident x)) :
    Option.Rel (Match inMemory (σ.set x)) (CStatements.setTo M (.ident x) v s)
      (CStatements.setTo M (.ident x) v t) := by
  rcases h.settable_cases hx with hx | ⟨u, w, u', w', hs, ht, hu⟩
  · cases hs : s.env x with
    | value u w => exact h.setTo_value hs (hx ▸ hs) (.inr rfl)
    | external =>
      have ht : t.env x = .external := hx ▸ hs
      simp only [CStatements.setTo, hs, ht]
      exact h.storeTo_ident hx
    | object l =>
      have ht : t.env x = .object l := hx ▸ hs
      simp only [CStatements.setTo, hs, ht]
      exact h.storeTo_ident hx
  · exact h.setTo_value hs ht hu

theorem Match.setTo (h : Match inMemory σ s t) (hl : Settable σ l) :
    Option.Rel (Match inMemory (σ.assigned l)) (setTo M l v s) (setTo M l v t) := by
  cases l with
  | ident x => exact h.setTo_ident hl
  | _ => exact h.storeTo hl

theorem Match.noted (h : Match inMemory σ s t) :
    Match inMemory σ (noted M l v s) (noted M l v t) := by
  cases l <;> first | exact h | exact ⟨h.env, congrArg (M.note _ v) h.world⟩

theorem Match.assignTo (h : Match inMemory σ s t) (hl : Settable σ l) :
    Option.Rel (Match inMemory (σ.assigned l)) (assignTo M l v s) (assignTo M l v t) :=
  rel_map (h.setTo hl) fun _ _ hab => hab.noted

theorem Match.assign (h : Match inMemory σ s t) (hl : Settable σ l) (hr : Known σ r) :
    Option.Rel (Match inMemory (σ.assigned l)) (assign M l r s) (assign M l r t) := by
  apply rel_bind (h.evalAt hr)
  rintro a b ⟨hv, hab⟩
  rw [hv]
  exact hab.assignTo hl

theorem Match.isVariable_eq (h : Match inMemory σ s t) (hl : Known σ l) :
    isVariable s.env l = isVariable t.env l := by
  cases l with
  | ident x => rw [isVariable, isVariable, h.ident_eq hl]
  | _ => rfl

theorem Match.opStore {op : BinOp} (h : Match inMemory σ s t) (hl : Known σ l)
    (hr : Known σ r) :
    Option.Rel (Match inMemory (σ.assigned l)) (opStore M op l r s) (opStore M op l r t) := by
  rw [CStatements.opStore, CStatements.opStore, h.place_eq hl]
  refine rel_bind_self fun p => rel_bind_self fun a => ?_
  have hload : Match inMemory σ (⟨s.env, a.2⟩ : State V L W) ⟨t.env, a.2⟩ := ⟨h.env, rfl⟩
  apply rel_bind (hload.evalAt hr)
  rintro b c ⟨hv, hbc⟩
  rw [hv, hbc.world]
  refine rel_bind_self fun v => rel_bind_self fun q => .some ?_
  have hstored : Match inMemory σ (⟨b.2.env, q.2⟩ : State V L W) ⟨c.2.env, q.2⟩ := ⟨hbc.env, rfl⟩
  exact (hstored.assigned hl).noted

theorem Match.opAssign {op : BinOp} (h : Match inMemory σ s t) (hl : Known σ l)
    (hr : Known σ r) :
    Option.Rel (Match inMemory (σ.assigned l)) (opAssign M op l r s) (opAssign M op l r t) := by
  rw [CStatements.opAssign, CStatements.opAssign, h.isVariable_eq hl]
  split
  · apply rel_bind (h.evalAt hl)
    rintro a a' ⟨ha, haa⟩
    apply rel_bind (haa.evalAt hr)
    rintro b b' ⟨hb, hbb⟩
    rw [ha, hb]
    exact rel_bind_self fun v => hbb.assignTo (settable_of_known hl)
  · exact h.opStore hl hr

theorem Match.countAt {size : Option CExpr} (h : Match inMemory σ s t)
    (hsize : ∀ e ∈ size, Known σ e) :
    Option.Rel (fun a b => a.1 = b.1 ∧ Match inMemory σ a.2 b.2) (countAt M size s)
      (countAt M size t) := by
  cases size with
  | none => exact .some ⟨rfl, h⟩
  | some e => exact rel_map (h.evalAt (hsize e rfl)) fun _ _ hab => ⟨congrArg some hab.1, hab.2⟩

theorem Match.bindName {u : TypeName} {size : Option CExpr} (h : Match inMemory σ s t)
    (hsize : ∀ e ∈ size, Known σ e) :
    Option.Rel (Match inMemory (σ.declare x (some u))) (bindName M inMemory u x size s)
      (bindName M inMemory u x size t) := by
  rw [CStatements.bindName, CStatements.bindName]
  split
  · next hx =>
    apply rel_bind (h.countAt hsize)
    rintro a b ⟨hn, hab⟩
    rw [hn, hab.world]
    refine rel_bind_self fun l => .some ⟨hab.env.declare fun hfalse => ?_, rfl⟩
    exact absurd (hx.symm.trans hfalse) nofun
  · exact .some ⟨h.env.declare fun _ => ⟨_, _, rfl, fun _ hu => hu⟩, h.world⟩

end States

section Outcomes

variable {V L W : Type} {M : Machine V L W}

/-- Two statements go on to states of a relation, or they return alike. -/
inductive Reach (P : State V L W → State V L W → Prop) : Outcome V L W → Outcome V L W → Prop
  | next {s t} : P s t → Reach P (.next s) (.next t)
  | returned {v w} : Reach P (.returned v w) (.returned v w)

variable {P Q : State V L W → State V L W → Prop} {r r' : Outcome V L W}

theorem Reach.imp (h : Reach P r r') (hpq : ∀ s t, P s t → Q s t) : Reach Q r r' := by
  cases h with
  | next h => exact .next (hpq _ _ h)
  | returned => exact .returned

theorem whileRound_rel {test test' : State V L W → Option (V × State V L W)}
    {body body' : State V L W → Option (Outcome V L W)} {s t : State V L W}
    (htest : Option.Rel (fun a b => a.1 = b.1 ∧ P a.2 b.2) (test s) (test' t))
    (hbody : ∀ s t, P s t → Option.Rel (Reach P) (body s) (body' t)) :
    Option.Rel (Sum.LiftRel P (Reach P)) (whileRound M test body s)
      (whileRound M test' body' t) := by
  apply rel_bind htest
  rintro a b ⟨hv, hab⟩
  rw [hv]
  split
  · apply rel_bind (hbody _ _ hab)
    rintro r r' (h | _)
    · exact .some (.inl h)
    · exact .some (.inr .returned)
  · exact .some (.inr (.next hab))

end Outcomes

end OpaeLibs.Lib.CAgreement
