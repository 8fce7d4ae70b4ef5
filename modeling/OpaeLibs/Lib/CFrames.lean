import OpaeLibs.Lib.CStatements
import OpaeLibs.Lib.Outcomes

namespace OpaeLibs.Lib.CFrames

open OpaeLibs.Lib.CGrammar OpaeLibs.Lib.CEvaluation OpaeLibs.Lib.CStatements OpaeLibs.Lib.Loops
open OpaeLibs.Lib.Outcomes

variable {V L W : Type} {M : Machine V L W}

/-- Names that are not among those are bound as they were. -/
def Framed (xs : List Name) (s t : State V L W) : Prop := ∀ x, x ∉ xs → t.env x = s.env x

variable {xs ys : List Name} {s t u : State V L W} {l e : CExpr} {v : V} {x : Name}

theorem Framed.trans (h : Framed xs s t) (h' : Framed xs t u) : Framed xs s u :=
  fun x hx => (h' x hx).trans (h x hx)

theorem Framed.mono (h : Framed xs s t) (hsub : xs ⊆ ys) : Framed ys s t :=
  fun x hx => h x fun hmem => hx (hsub hmem)

theorem framed_of_eq (h : t.env = s.env) : Framed xs s t := fun _ _ => congrFun h _

theorem framed_update {b : Binding V L} {w : W} :
    Framed [x] s ⟨Function.update s.env x b, w⟩ :=
  fun _ hy => Function.update_of_ne (fun hyx => hy (List.mem_singleton.mpr hyx)) _ _

section Steps

theorem evalAt_env : Ensures (evalAt M e s) fun a => a.2.env = s.env := by
  intro a ha
  obtain ⟨r, -, rfl⟩ := Option.map_eq_some_iff.mp ha
  rfl

theorem storeTo_env : Ensures (storeTo M l v s) fun t => t.env = s.env := by
  refine Ensures.bind (P := fun _ => True) (fun _ _ => trivial) ?_
  intro p _
  refine Ensures.bind (P := fun _ => True) (fun _ _ => trivial) ?_
  intro q _
  exact ensures_pure rfl

theorem setTo_framed : Ensures (setTo M l v s) (Framed (identOf l) s) := by
  have hstore : Ensures (storeTo M l v s) (Framed (identOf l) s) :=
    storeTo_env.imp fun t ht => framed_of_eq ht
  unfold setTo
  split
  · split
    · exact ensures_some.mpr framed_update
    · exact hstore
  · exact hstore

theorem noted_env : (noted M l v s).env = s.env := by cases l <;> rfl

theorem assignTo_framed : Ensures (assignTo M l v s) (Framed (identOf l) s) :=
  setTo_framed.map fun _ ht => ht.trans (framed_of_eq noted_env)

theorem opAssign_framed {op : BinOp} {r : CExpr} :
    Ensures (opAssign M op l r s) (Framed (identOf l) s) := by
  rw [opAssign]
  split
  · refine Ensures.bind evalAt_env ?_
    intro a ha
    refine Ensures.bind evalAt_env ?_
    intro b hb
    refine Ensures.bind (P := fun _ => True) (fun _ _ => trivial) ?_
    intro v _
    exact assignTo_framed.imp fun t ht => (framed_of_eq (hb.trans ha)).trans ht
  · refine Ensures.bind (P := fun _ => True) (fun _ _ => trivial) ?_
    intro p _
    refine Ensures.bind (P := fun _ => True) (fun _ _ => trivial) ?_
    intro a _
    refine Ensures.bind evalAt_env ?_
    intro b hb
    refine Ensures.bind (P := fun _ => True) (fun _ _ => trivial) ?_
    intro v _
    refine Ensures.bind (P := fun _ => True) (fun _ _ => trivial) ?_
    intro q _
    exact ensures_pure (framed_of_eq (noted_env.trans hb))

theorem countAt_env {size : Option CExpr} :
    Ensures (countAt M size s) fun a => a.2.env = s.env := by
  cases size with
  | none => exact ensures_some.mpr rfl
  | some e => exact evalAt_env.map fun a ha => ha

variable {inMemory : Name → Bool}

theorem bindName_framed {u : TypeName} {size : Option CExpr} :
    Ensures (bindName M inMemory u x size s) (Framed [x] s) := by
  rw [bindName]
  split
  · refine Ensures.bind countAt_env ?_
    intro a ha
    refine Ensures.bind (P := fun _ => True) (fun _ _ => trivial) ?_
    intro l _
    exact ensures_pure ((framed_of_eq ha).trans framed_update)
  · exact ensures_some.mpr framed_update

theorem assign_framed {r : CExpr} : Ensures (assign M l r s) (Framed (identOf l) s) := by
  refine Ensures.bind evalAt_env ?_
  intro a ha
  exact assignTo_framed.imp fun t ht => (framed_of_eq ha).trans ht

theorem declare_framed {u : TypeName} {size value : Option CExpr} :
    Ensures (declare M inMemory u x size value s) (Framed [x] s) := by
  refine Ensures.bind bindName_framed ?_
  intro t ht
  cases value with
  | none => exact ensures_some.mpr ht
  | some e => exact assign_framed.imp fun r hr => ht.trans hr

theorem advance_framed : Ensures (advance M x s) (Framed [x] s) := by
  refine Ensures.bind evalAt_env ?_
  intro a ha
  refine Ensures.bind (P := fun _ => True) (fun _ _ => trivial) ?_
  intro v _
  exact setTo_framed.imp fun t ht => (framed_of_eq ha).trans ht

end Steps

section Assigned

mutual

/-- The names that a statement assigns to, but for those that it declares. -/
def assigned : CStmt → List Name
  | .assign l _ => identOf l
  | .opAssign _ l _ => identOf l
  | .ifStmt _ body => assignedAll body
  | .whileStmt _ body => assignedAll body
  | .forStmt x _ _ body => x :: assignedAll body
  | _ => []

def assignedAll : List CStmt → List Name
  | [] => []
  | c :: cs => assigned c ++ assignedAll cs

end

end Assigned

section Runs

/-- What a statement goes on with is framed. -/
def Goes (xs : List Name) (s : State V L W) : Outcome V L W → Prop
  | .next t => Framed xs s t
  | .returned _ _ => True

theorem Goes.mono {r : Outcome V L W} (h : Goes xs s r) (hsub : xs ⊆ ys) : Goes ys s r := by
  cases r with
  | next t => exact Framed.mono h hsub
  | returned v w => trivial

theorem Goes.after {r : Outcome V L W} (h : Goes xs t r) (hst : Framed xs s t) :
    Goes xs s r := by
  cases r with
  | next u => exact hst.trans h
  | returned v w => trivial

theorem whileRound_goes {test : State V L W → Option (V × State V L W)}
    {body : State V L W → Option (Outcome V L W)}
    (htest : ∀ t, Ensures (test t) fun a => a.2.env = t.env)
    (hbody : ∀ t, Ensures (body t) (Goes xs t)) (ht : Framed xs s t) :
    Ensures (whileRound M test body t) (Sum.elim (Framed xs s) (Goes xs s)) := by
  refine Ensures.bind (htest t) ?_
  intro a ha
  have hst : Framed xs s a.2 := ht.trans (framed_of_eq ha)
  split
  · refine Ensures.bind (hbody a.2) ?_
    intro r hr
    cases r with
    | next u => exact ensures_some.mpr (hst.trans hr)
    | returned v w => exact ensures_some.mpr trivial
  · exact ensures_some.mpr hst

variable {inMemory : Name → Bool} {n : Nat}

theorem goes_next {o : Option (State V L W)} (h : Ensures o (Framed xs s)) :
    Ensures (o.map .next) (Goes xs s) :=
  h.map fun _ ht => ht

/-- Where a block ends, what it declares is bound as it was. -/
theorem endScope_goes {c : CStmt} {r : Outcome V L W}
    (hst : Framed (declares c ++ assigned c) s t) (h : Goes xs t r) :
    Goes (assigned c ++ xs) s (endScope M c s t r) := by
  cases r with
  | returned v w => cases c <;> trivial
  | next u =>
    have hframed : Framed (declares c ++ (assigned c ++ xs)) s u := by
      refine (hst.mono ?_).trans (Framed.mono h ?_)
      · rw [← List.append_assoc]
        exact List.subset_append_left _ _
      · exact fun y hy => List.mem_append_right _ (List.mem_append_right _ hy)
    cases c with
    | decl ty x size value =>
      intro y hy
      by_cases hyx : y = x
      · rw [hyx]
        exact Function.update_self ..
      · refine (Function.update_of_ne hyx _ _).trans (hframed y fun hmem => ?_)
        exact (List.mem_cons.mp hmem).elim hyx hy
    | _ => exact hframed

mutual

theorem exec_goes : (c : CStmt) → (s : State V L W) →
    Ensures (exec M inMemory n c s) (Goes (declares c ++ assigned c) s)
  | .expr e, s => by
    rw [exec]
    exact evalAt_env.map fun a ha => framed_of_eq ha
  | .assign l r, s => by
    rw [exec]
    exact goes_next assign_framed
  | .opAssign op l r, s => by
    rw [exec]
    exact goes_next opAssign_framed
  | .decl t x size value, s => by
    rw [exec]
    exact goes_next declare_framed
  | .ret none, s => by
    rw [exec]
    exact ensures_some.mpr trivial
  | .ret (some e), s => by
    rw [exec]
    exact evalAt_env.map fun _ _ => trivial
  | .ifStmt test body, s => by
    rw [exec]
    refine Ensures.bind evalAt_env ?_
    intro a ha
    split
    · exact (execAll_goes body a.2).imp fun r hr => hr.after (framed_of_eq ha)
    · exact ensures_some.mpr (framed_of_eq ha)
  | .whileStmt test body, s => by
    rw [exec]
    exact loop_ensures (I := Framed (assignedAll body) s)
      (fun t ht => whileRound_goes (fun _ => evalAt_env) (execAll_goes body) ht) fun _ _ => rfl
  | .forStmt x start test body, s => by
    rw [exec]
    refine Ensures.bind evalAt_env ?_
    intro a ha
    refine Ensures.bind setTo_framed ?_
    intro t ht
    have hx : [x] ⊆ x :: assignedAll body := List.cons_subset_cons _ (List.nil_subset _)
    have hbody (u : State V L W) : Ensures (execAll M inMemory n true body u >>= advanced M x)
        (Goes (x :: assignedAll body) u) := by
      refine Ensures.bind (execAll_goes body u) ?_
      intro r hr
      have hr := hr.mono (List.subset_cons_self x _)
      cases r with
      | next v => exact goes_next (advance_framed.imp fun w hw => Framed.trans hr (hw.mono hx))
      | returned v w => exact ensures_some.mpr trivial
    exact loop_ensures (I := Framed (x :: assignedAll body) s)
      (fun u hu => whileRound_goes (fun _ => evalAt_env) hbody hu)
      ((framed_of_eq ha).trans (ht.mono hx))

/-- What a nested block goes on with is bound as it was, but for what it assigns to. -/
theorem execAll_goes : (cs : List CStmt) → (s : State V L W) →
    Ensures (execAll M inMemory n true cs s) (Goes (assignedAll cs) s)
  | [], s => by
    rw [execAll]
    exact ensures_some.mpr fun _ _ => rfl
  | c :: cs, s => by
    rw [execAll, assignedAll]
    refine Ensures.bind (exec_goes c s) ?_
    intro r hr
    cases r with
    | returned v w => exact ensures_some.mpr trivial
    | next t =>
      refine Ensures.bind (execAll_goes cs t) ?_
      intro u hu
      exact ensures_pure (endScope_goes hr hu)

end

end Runs

end OpaeLibs.Lib.CFrames
