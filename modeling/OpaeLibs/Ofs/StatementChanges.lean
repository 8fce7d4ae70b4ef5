import OpaeLibs.Lib.CFrames
import OpaeLibs.Ofs.StatementScopes

namespace OpaeLibs.Ofs.StatementChanges

open OpaeLibs.Lib.CGrammar OpaeLibs.Lib.CEvaluation OpaeLibs.Lib.CStatements
open OpaeLibs.Lib.CAgreement OpaeLibs.Lib.CFrames OpaeLibs.Ofs.Umd OpaeLibs.Ofs.Expressions
open OpaeLibs.Ofs.Statements OpaeLibs.Ofs.StatementMeaning OpaeLibs.Ofs.StatementScopes

variable {driver : DriverNames} {inMemory : Name → Bool} {σ : Scope}

section Scopes

variable {stmt : PyStmt} {stmts : List PyStmt} {x : Name} {annot : Annot} {u : Option TypeName}
  {types : Name → Option TypeName} {value : Option PyExpr}

theorem set_le_behind : Scope.Le (σ.set x) (σ.behind (.setting (.ident x))) := by
  refine ⟨fun _ h => h, rfl, fun y h => ?_, fun y h => Scope.mem_retyped_behind.mpr (.inl h),
    fun y h => ?_⟩
  · obtain ⟨hy, hyx⟩ := mem_filter_ne.mp h
    exact Scope.mem_differing_behind.mpr (.inl ⟨hy, fun heq => hyx (List.mem_singleton.mp heq)⟩)
  · obtain ⟨hy, hyx⟩ := Scope.mem_unset_behind.mp h
    exact mem_filter_ne.mpr ⟨hy, fun heq => hyx (List.mem_singleton.mpr heq)⟩

theorem assigned_le_behind {l : CExpr} : Scope.Le (σ.assigned l) (σ.behind (.setting l)) := by
  cases l with
  | ident x => exact set_le_behind
  | _ => exact Scope.le_behind rfl

variable (driver inMemory) in
theorem after_le_behind (σ : Scope) (stmt : PyStmt) (h : declarations [stmt] = []) :
    Scope.Le (after driver inMemory σ stmt) (σ.behind (change driver σ.types stmt)) := by
  cases stmt with
  | assign target more value => exact assigned_le_behind
  | augAssign target op value => exact assigned_le_behind
  | annAssign x annot value => exact nomatch h
  | ret value => exact Scope.le_behind rfl
  | expr value => exact Scope.le_behind rfl
  | ifStmt test body orelse => exact .refl
  | whileStmt test body => exact .refl
  | forRange x range body => exact .refl

theorem typesBehind_eq (h : declarations [stmt] = []) : typesBehind driver types stmt = types := by
  cases stmt with
  | annAssign x annot value => exact nomatch h
  | _ => rfl

theorem returns_cons :
    returns (stmt :: stmts) = false ↔ isReturn stmt = false ∧ returns stmts = false := by
  rw [returns, List.any_cons, Bool.or_eq_false_iff, returns]

theorem blockChange_eq (h : returns stmts = false) : blockChange driver types stmts =
    (changeAll driver types stmts).binding ((declarations stmts).map (·.1))
      (retypes driver types stmts) := by
  rw [blockChange, ended, h]
  rfl

theorem declarations_cons : declarations stmts ⊆ declarations (stmt :: stmts) := by
  cases stmt with
  | annAssign x annot value => exact List.subset_cons_self _ _
  | _ => exact List.Subset.refl _

theorem mem_retypes : x ∈ retypes driver types stmts ↔
    ∃ annot, (x, annot) ∈ declarations stmts ∧ types x ≠ declaredType driver annot := by
  rw [retypes, List.mem_map]
  constructor
  · rintro ⟨⟨y, annot⟩, hd, rfl⟩
    rw [List.mem_filter, decide_eq_true_iff] at hd
    exact ⟨annot, hd⟩
  · rintro ⟨annot, hd⟩
    exact ⟨(x, annot), List.mem_filter.mpr ⟨hd.1, decide_eq_true hd.2⟩, rfl⟩

theorem retypes_cons : retypes driver types stmts ⊆ retypes driver types (stmt :: stmts) := by
  intro y hy
  obtain ⟨annot, hd, hne⟩ := mem_retypes.mp hy
  exact mem_retypes.mpr ⟨annot, declarations_cons hd, hne⟩

variable (driver inMemory σ) in
theorem blockChange_cons_le (hdecl : declarations [stmt] = []) (h : returns (stmt :: stmts) = false) :
    Scope.Le ((after driver inMemory σ stmt).behind
        (blockChange driver (after driver inMemory σ stmt).types stmts))
      (σ.behind (blockChange driver σ.types (stmt :: stmts))) := by
  have hle := after_le_behind driver inMemory σ stmt hdecl
  rw [← hle.types, blockChange_eq h, blockChange_eq (returns_cons.mp h).2]
  refine hle.behind.trans (Scope.behind_andThen_le.trans ?_)
  rw [changeAll, typesBehind_eq hdecl]
  refine Scope.behind_le (fun y hy => ?_) (fun y hy => ?_) (List.Subset.refl _)
    (List.Subset.refl _)
  · simp only [Change.andThen, Change.binding, List.mem_append] at hy ⊢
    exact hy.elim (fun hy => .inr (.inl hy))
      fun hy => hy.imp (fun hy => List.map_subset _ declarations_cons hy) fun hy => .inr hy
  · simp only [Change.andThen, Change.binding, List.mem_append] at hy ⊢
    exact hy.elim (fun hy => .inr (.inl hy))
      fun hy => hy.imp (fun hy => retypes_cons hy) fun hy => .inr hy

variable (inMemory σ x u value)

theorem declaredScope_cases :
    declaredScope inMemory σ x u value = σ.declare x u ∨
      declaredScope inMemory σ x u value = σ.redeclare x u := by
  rw [declaredScope]
  split
  · exact .inl rfl
  · exact .inr rfl

theorem declaredScope_fields :
    (declaredScope inMemory σ x u value).inScope = x :: σ.inScope ∧
      (declaredScope inMemory σ x u value).types = Function.update σ.types x u ∧
      (declaredScope inMemory σ x u value).differing ⊆ x :: σ.differing ∧
      (declaredScope inMemory σ x u value).retyped = σ.retyped.filter (· ≠ x) ∧
      (declaredScope inMemory σ x u value).unset = σ.unset.filter (· ≠ x) := by
  rcases declaredScope_cases inMemory σ x u value with heq | heq
  · rw [heq]
    exact ⟨rfl, rfl, fun y hy => List.mem_cons_of_mem _ (mem_filter_ne.mp hy).1, rfl, rfl⟩
  · rw [heq]
    exact ⟨rfl, rfl, fun y hy => hy, rfl, rfl⟩

variable {inMemory σ x u value}

/-- A type that a block gives a name is another one than the name has around the block, or than the
block has given it before. -/
theorem retypes_update (hx : (x, annot) ∈ declarations stmts) :
    retypes driver (Function.update types x (declaredType driver annot)) stmts ⊆
      retypes driver types stmts := by
  intro y hy
  obtain ⟨a, hd, hne⟩ := mem_retypes.mp hy
  by_cases hyx : y = x
  · subst hyx
    rw [Function.update_self] at hne
    by_cases heq : types y = declaredType driver annot
    · exact mem_retypes.mpr ⟨a, hd, heq ▸ hne⟩
    · exact mem_retypes.mpr ⟨annot, hx, heq⟩
  · rw [Function.update_of_ne hyx] at hne
    exact mem_retypes.mpr ⟨a, hd, hne⟩

/-- What C knows behind a block that goes on with a declaration. -/
theorem declared_left {x : Ident} (hsome : (declaredType driver annot).isSome = true)
    (h : returns (.annAssign x annot value :: stmts) = false) :
    Scope.Left x.val
      ((declaredScope inMemory σ x.val (declaredType driver annot) value).behind
        (blockChange driver (Function.update σ.types x.val (declaredType driver annot)) stmts))
      (σ.behind (blockChange driver σ.types (.annAssign x annot value :: stmts))) := by
  obtain ⟨hscope, htypes, hdiffering, hretyped, hunset⟩ :=
    declaredScope_fields inMemory σ x.val (declaredType driver annot) value
  have hmem : (x.val, annot) ∈ declarations (.annAssign x annot value :: stmts) :=
    List.mem_cons_self
  rw [blockChange_eq h, blockChange_eq (returns_cons.mp h).2, changeAll, change, typesBehind]
  constructor
  · intro y hy _
    exact hscope ▸ List.mem_cons_of_mem _ hy
  · intro y hyx
    exact ((congrFun htypes y).trans (Function.update_of_ne hyx _ _)).symm
  · intro y hy
    rw [Scope.mem_differing_behind] at hy ⊢
    simp only [Change.andThen, Change.binding, declarations, List.map_cons, List.mem_append,
      List.mem_cons, List.nil_append] at hy ⊢
    rcases hy with ⟨hy, hsettled⟩ | hy
    · exact (List.mem_cons.mp (hdiffering hy)).elim (fun hyx => .inr (.inl (.inl hyx)))
        fun hy => .inl ⟨hy, hsettled⟩
    · exact .inr (hy.elim (fun hy => .inl (.inr hy)) fun hy => .inr (.inr hy))
  · exact Scope.mem_differing_behind.mpr (.inr List.mem_cons_self)
  · intro y hy
    rw [Scope.mem_retyped_behind] at hy ⊢
    simp only [Change.andThen, Change.binding, List.mem_append, List.nil_append] at hy ⊢
    rcases hy with hy | hy | hy
    · rw [hretyped] at hy
      exact .inl (mem_filter_ne.mp hy).1
    · exact .inr (.inl (retypes_update hmem (retypes_cons hy)))
    · exact .inr (.inr hy)
  · intro hx
    have htype : (declaredScope inMemory σ x.val (declaredType driver annot) value).types x.val =
        declaredType driver annot := (congrFun htypes _).trans (Function.update_self ..)
    refine ⟨?_, (congrArg Option.isSome htype).trans hsome⟩
    by_contra hne
    refine hx (Scope.mem_retyped_behind.mpr (.inr (List.mem_append_left _ ?_)))
    exact mem_retypes.mpr ⟨annot, hmem, fun heq => hne (heq.trans htype.symm)⟩
  · intro y hy
    rw [Scope.mem_unset_behind] at hy ⊢
    simp only [Change.andThen, Change.binding, List.mem_append, List.mem_singleton, not_or] at hy ⊢
    exact ⟨hunset ▸ mem_filter_ne.mpr ⟨hy.1, hy.2.1⟩, hy.2.2⟩

end Scopes

section Targets

theorem identOf_nameTree (x : Ident) : identOf (nameTree driver x) ⊆ [x.val] := by
  rw [nameTree]
  split
  · exact List.nil_subset _
  · exact List.Subset.refl _

theorem identOf_target {target : Target} {l : CExpr}
    (h : operations driver target.expr = some l) :
    identOf l ⊆ target.names := by
  cases target with
  | name id =>
    rw [← Option.some.inj h]
    exact identOf_nameTree id
  | field value attr =>
    rw [operations, Target.expr, treeWith] at h
    have hnil : identOf l = [] := by
      cases value with
      | name id =>
        rw [fieldTree] at h
        split at h <;> (rw [← Option.some.inj h]; rfl)
      | _ =>
        simp only [fieldTree] at h
        obtain ⟨t, -, rfl⟩ := Option.map_eq_some_iff.mp h
        rfl
    rw [hnil]
    exact List.nil_subset _
  | subscript value slice =>
    obtain ⟨e, -, h⟩ := Option.bind_eq_some_iff.mp h
    obtain ⟨i, -, h⟩ := Option.bind_eq_some_iff.mp h
    rw [← Option.some.inj h]
    exact List.nil_subset _

theorem identOf_tree (target : Target) : identOf (tree driver target.expr) ⊆ target.names := by
  rw [tree]
  cases h : operations driver target.expr with
  | none => exact List.nil_subset _
  | some l => exact identOf_target h

variable (driver) in
mutual

theorem assigned_cStmt : (stmt : PyStmt) → assigned (cStmt driver stmt) ⊆ targets stmt
  | .assign target _ _ => List.subset_append_of_subset_left _ (identOf_tree target)
  | .augAssign target _ _ => identOf_tree target
  | .annAssign _ _ _ => List.nil_subset _
  | .ret _ => List.nil_subset _
  | .expr _ => List.nil_subset _
  | .ifStmt _ body _ => List.subset_append_of_subset_left _ (assignedAll_cStmts body)
  | .whileStmt _ body => assignedAll_cStmts body
  | .forRange _ _ body => List.cons_subset_cons _ (assignedAll_cStmts body)

theorem assignedAll_cStmts : (stmts : List PyStmt) →
    assignedAll (cStmts driver stmts) ⊆ targetsAll stmts
  | [] => List.nil_subset _
  | stmt :: stmts => List.append_subset.mpr
      ⟨fun _ h => List.mem_append_left _ (assigned_cStmt stmt h),
        fun _ h => List.mem_append_right _ (assignedAll_cStmts stmts h)⟩

end

end Targets

end OpaeLibs.Ofs.StatementChanges
