import OpaeLibs.Ofs.StatementChanges

namespace OpaeLibs.Ofs.StatementRuns

open OpaeLibs.Lib.CGrammar OpaeLibs.Lib.CLexer OpaeLibs.Lib.CEvaluation OpaeLibs.Lib.CStatements
open OpaeLibs.Lib.CAgreement OpaeLibs.Lib.CFrames OpaeLibs.Lib.Loops OpaeLibs.Lib.Outcomes
open OpaeLibs.Ofs.Umd OpaeLibs.Ofs.Expressions OpaeLibs.Ofs.Statements
open OpaeLibs.Ofs.StatementMeaning OpaeLibs.Ofs.StatementScopes OpaeLibs.Ofs.StatementChanges

variable {driver : DriverNames} {kind : Name → NameKind} {inMemory : Name → Bool}
  {V L W : Type} {M : Machine V L W} {σ : Scope} {s t : State V L W}

theorem pyEval_match {e : PyExpr} (h : Legible driver kind e) (hknown : Known σ (tree driver e))
    (hmatch : Match inMemory σ s t) :
    Option.Rel (Valued inMemory σ) (evalAt M (tree driver e) s) (pyEval driver M e t) := by
  rw [pyEval, operations_of_legible h]
  exact hmatch.evalAt hknown

section Blocks

variable {stmts : List PyStmt}

variable (driver inMemory σ stmts) in
/-- Where two runs come that go through the statements of a block. -/
structure Through (nested : Bool) (s t : State V L W) : Prop where
  goes_on : returns stmts = false
  world : s.world = t.world
  agree : nested = true → Match inMemory (σ.behind (blockChange driver σ.types stmts)) s t

end Blocks

section Declarations

variable {x : Ident} {annot : Annot} {value : Option PyExpr} {ends : Bool}

variable (driver) in
theorem declared_of_declares (h : Declares kind annot) :
    ∃ u size, Annot.declared driver annot = some (u, size) ∧
      (∀ e ∈ size, ∃ n, e = .num n) := by
  cases annot with
  | name ty =>
    obtain ⟨u, hu, -⟩ := h
    exact ⟨u, none, by rw [Annot.declared, hu]; rfl, nofun⟩
  | ptr ty => exact ⟨_, none, rfl, nofun⟩
  | array ty size => exact ⟨_, _, rfl, fun e he => ⟨size, (Option.some.inj he).symm⟩⟩
  | arrayOf ty size => exact absurd h id

theorem bind_match {u : TypeName} {size : Option CExpr}
    (hmatch : Match inMemory σ s t) (hobject : inMemory x.val = true → x.val ∈ σ.unset)
    (hsize : ∀ e ∈ size, ∃ n, e = .num n) :
    Option.Rel (Match inMemory (declaredScope inMemory σ x.val (some u) none))
      (bindName M inMemory u x.val size s) (annotate M inMemory u x.val size t) := by
  have hknown : ∀ e ∈ size, Known σ e := by
    intro e he
    obtain ⟨n, rfl⟩ := hsize e he
    exact nofun
  rw [declaredScope]
  by_cases hmemory : inMemory x.val = true
  · rw [if_pos (.inr (.inl hmemory)), annotate, hmatch.env.fresh _ (hobject hmemory)]
    simp only [if_pos hmemory]
    exact hmatch.bindName hknown
  · rw [Bool.not_eq_true] at hmemory
    have hbind (r : State V L W) : bindName M inMemory u x.val size r =
        some ⟨Function.update r.env x.val (.value (some u) none), r.world⟩ := by
      rw [bindName, hmemory]
      rfl
    rw [hbind]
    by_cases hunset : x.val ∈ σ.unset
    · rw [if_pos (.inr (.inr hunset)), annotate, hmatch.env.fresh _ hunset]
      simp only [hmemory]
      exact .some ⟨hmatch.env.declare fun _ => ⟨_, _, rfl, fun _ hu => hu⟩, hmatch.world⟩
    · rw [if_neg (by simp [hmemory, hunset])]
      cases hb : t.env x.val with
      | object l => exact absurd hb (hmatch.env.no_object _ hmemory l)
      | value u' v =>
        simp only [annotate, hb, hmemory]
        exact .some ⟨hmatch.env.redeclare, hmatch.world⟩
      | external =>
        simp only [annotate, hb, hbind]
        exact .some ⟨hmatch.env.redeclare, hmatch.world⟩

theorem declaredScope_set_le {e : PyExpr} {x : Name} {u : Option TypeName} :
    Scope.Le ((declaredScope inMemory σ x u none).set x)
      (declaredScope inMemory σ x u (some e)) := by
  rw [declaredScope, declaredScope, if_pos (.inl rfl : (some e).isSome ∨ _)]
  split
  · exact Scope.declare_set_le
  · exact Scope.redeclare_set_le

theorem known_declaredScope {e : PyExpr} {u : Option TypeName}
    (h : KeptDecl driver inMemory ends σ x value) (he : e ∈ value) :
    Known (declaredScope inMemory σ x.val u none) (tree driver e) := by
  intro y hy
  have hvalue := h.value e he y hy
  obtain ⟨-, -, hdiffering, hretyped, -⟩ := declaredScope_fields inMemory σ x.val u none
  rw [hretyped]
  split at hvalue
  · next hyx =>
    rw [declaredScope, if_pos (.inr (.inr (hyx ▸ hvalue.1)))]
    exact ⟨fun hmem => (mem_filter_ne.mp hmem).2 hyx, fun hmem => (mem_filter_ne.mp hmem).2 hyx⟩
  · next hyx =>
    exact ⟨fun hmem => (List.mem_cons.mp (hdiffering hmem)).elim hyx hvalue.1,
      fun hmem => hvalue.2 (mem_filter_ne.mp hmem).1⟩

theorem mem_declaredScope {x : Name} {u : Option TypeName} {value : Option PyExpr} :
    x ∈ (declaredScope inMemory σ x u value).inScope :=
  (declaredScope_fields inMemory σ x u value).1 ▸ List.mem_cons_self

theorem annotate_framed {u : TypeName} {x : Name} {size : Option CExpr} :
    Ensures (annotate M inMemory u x size t) (Framed [x] t) := by
  unfold annotate
  split
  · exact ensures_some.mpr fun _ _ => rfl
  · split
    · exact bindName_framed
    · exact ensures_some.mpr framed_update
  · exact bindName_framed

theorem annotate_unset {u : TypeName} {size : Option CExpr} {r : State V L W}
    (hx : t.env x.val = .value none none) (hmemory : inMemory x.val = false)
    (hr : annotate M inMemory u x.val size t = some r) :
    (t.env x.val).untyped = (r.env x.val).untyped := by
  simp only [annotate, hx, hmemory] at hr
  cases hr
  rw [hx]
  simp only [Function.update_self]
  rfl

theorem annotate_assign {u : TypeName} (size : Option CExpr) {e : PyExpr}
    (h : KeptDecl driver inMemory ends σ x value) (he : e ∈ value)
    (hlegible : Legible driver kind e) (hmatch : Match inMemory σ s t) :
    (do
      let u ← annotate M inMemory u x.val size t
      let a ← pyEval driver M e ⟨t.env, u.world⟩
      assignTo M (.ident x.val) a.1 ⟨u.env, a.2.world⟩) =
    (do
      let u ← annotate M inMemory u x.val size t
      assign M (.ident x.val) (tree driver e) u) := by
  apply Option.bind_congr
  intro r hr
  have heval : eval M t.env (tree driver e) = eval M r.env (tree driver e) := by
    apply eval_congr
    intro y hy
    have hvalue := h.value e he y hy
    split at hvalue
    · next hyx =>
      subst hyx
      exact annotate_unset (hmatch.env.fresh _ hvalue.1) hvalue.2 hr
    · next hyx =>
      rw [annotate_framed r hr y fun hmem => hyx (List.mem_singleton.mp hmem)]
  rw [pyEval, operations_of_legible hlegible]
  simp only [Option.bind_eq_bind, Option.bind_some, assign, evalAt, heval]
  cases eval M r.env (tree driver e) r.world <;> rfl

theorem declare_match {u : TypeName} {size : Option CExpr}
    (hwritten : WrittenDecl driver kind x annot value)
    (h : KeptDecl driver inMemory ends σ x value)
    (hmatch : Match inMemory σ s t)
    (hdecl : Annot.declared driver annot = some (u, size))
    (hsize : ∀ e ∈ size, ∃ n, e = .num n) :
    Option.Rel (Match inMemory (declaredScope inMemory σ x.val (some u) value))
      (declare M inMemory u x.val size (value.map (tree driver)) s)
      (annAssign driver M inMemory x annot value t) := by
  have hbind := bind_match (M := M) (u := u) hmatch (fun hmemory => (h.object hmemory).2) hsize
  rw [annAssign, hdecl, declare]
  simp only [Option.bind_eq_bind, Option.bind_some]
  cases value with
  | none =>
    simp only [Option.map_none, Option.elim_none]
    rw [Option.bind_fun_some]
    exact hbind
  | some e =>
    have hassign := annotate_assign (M := M) (u := u) size h rfl
      (hwritten.legible e rfl) hmatch
    simp only [Option.bind_eq_bind] at hassign
    dsimp only
    rw [hassign]
    refine rel_bind hbind fun a b hab => ?_
    exact rel_imp (hab.assign (.inl mem_declaredScope) (known_declaredScope h rfl))
      fun c d hcd => hcd.mono declaredScope_set_le

end Declarations

section Loops

variable {x : Ident} {stop : CExpr} {body : List PyStmt} {u : Option TypeName} {ρ : Env V L}
  {c c' p : State V L W} {v : V}

theorem behind_loopScope_le :
    Scope.Le (((loopScope driver σ x body).set x.val).behind (blockChange driver σ.types body))
      (loopScope driver σ x body) := by
  refine ⟨fun _ h => h, rfl, fun y h => ?_, fun y h => ?_, fun y h => ?_⟩
  · rcases Scope.mem_differing_behind.mp h with h | h
    · exact (mem_filter_ne.mp h.1).1
    · exact Scope.mem_differing_behind.mpr (.inr (List.mem_cons_of_mem _ h))
  · exact (Scope.mem_retyped_behind.mp h).elim id fun h => Scope.mem_retyped_behind.mpr (.inr h)
  · have hy := (Scope.mem_unset_behind.mp h).2
    rw [Change.counting, List.mem_cons, not_or] at hy
    exact Scope.mem_unset_behind.mpr ⟨mem_filter_ne.mpr ⟨h, hy.1⟩, hy.2⟩

theorem mem_loopScope : x.val ∈ (loopScope driver σ x body).differing :=
  Scope.mem_differing_behind.mpr (.inr List.mem_cons_self)

/-- The counter of a range is a variable in both languages, of one type unless it may have been
declared with another. -/
theorem counter_cases {τ : Scope} (hscope : x.val ∈ τ.inScope) (h : Match inMemory τ c p)
    {w : Option V} (hc : c.env x.val = .value u w) :
    ∃ u' w', p.env x.val = .value u' w' ∧ (x.val ∈ τ.retyped ∨ u = u') := by
  rcases h.settable_cases (.inl hscope) with heq | ⟨t, w, u', w', hs, ht, hu⟩
  · exact ⟨u, _, heq ▸ hc, .inr rfl⟩
  · rw [hc, Binding.value.injEq] at hs
    exact ⟨u', w', ht, hs.1 ▸ hu⟩

/-- Python's variable takes the value that C's variable has at the beginning of a round. -/
theorem turn_begins (hrange : KeptRange inMemory σ x stop body)
    (h : Match inMemory (loopScope driver σ x body) c p)
    (hc : c.env x.val = .value u (some v)) :
    ∃ q, setTarget M (.ident x.val) v p = some q ∧
      Match inMemory ((loopScope driver σ x body).set x.val) c q := by
  have hscope : x.val ∈ (loopScope driver σ x body).inScope := hrange.scope
  obtain ⟨u', w, hp, hu⟩ := counter_cases hscope h hc
  refine ⟨_, by simp only [setTarget, hp]; rfl, ?_⟩
  have henv : Agree inMemory ((loopScope driver σ x body).set x.val)
      (Function.update c.env x.val (.value u (some v)))
      (Function.update p.env x.val (.value u' (some v))) := h.env.update hc hp (fun _ => rfl) hu
  rw [← hc, Function.update_eq_self] at henv
  exact ⟨henv, h.world⟩

theorem evalAt_test (hc : c.env x.val = .value u (some v)) :
    evalAt M (.binary .lt (.ident x.val) stop) c = (do
      let b ← evalAt M stop c
      let a ← M.binary .lt v b.1
      return (a, b.2)) := by
  simp only [evalAt, eval, hc, StateT.lift, bind, StateT.bind, decided, Option.pure_def,
    Option.bind_some]
  cases eval M c.env stop c.world with
  | none => rfl
  | some b =>
    simp only [Option.bind_some, Option.map_some]
    cases M.binary .lt v b.1 <;> rfl

/-- `i < stop` as its operations are. -/
theorem operations_test {stop : PyExpr} (h : WrittenRange driver kind x stop) :
    operations driver stop = some (tree driver stop) := by
  have h := operations_of_legible h.legible
  rw [operations, treeWith] at h
  obtain ⟨l, -, h⟩ := Option.bind_eq_some_iff.mp h
  obtain ⟨r, hr, -⟩ := Option.bind_eq_some_iff.mp h
  rw [tree, operations, hr]
  rfl

theorem loop_none {α β : Type} {step : α → Option (α ⊕ β)} {n : Nat} {a : α}
    (h : step a = none) : loop step n a = none := by
  cases n with
  | zero => rfl
  | succ n => rw [loop, h]

variable {n : Nat} {cBody pyBody : State V L W → Option (Outcome V L W)}

variable (driver inMemory σ x body cBody pyBody) in
/-- The bodies of both loops run alike, and C's keeps what it does not assign to. -/
structure Bodies : Prop where
  alike : ∀ c p, Match inMemory ((loopScope driver σ x body).set x.val) c p →
    Option.Rel (Reach (Through driver inMemory ((loopScope driver σ x body).set x.val) body true))
      (cBody c) (pyBody p)
  frame : ∀ c, Ensures (cBody c) (Goes (targetsAll body) c)

section Rounds

variable (driver inMemory σ x body u ρ) in
/-- Where a round of a loop over a range begins: C's variable is the counter of the range, and the
names of the bound are what they were. -/
structure Turn (e : CExpr) (c : State V L W) (d : V × State V L W) : Prop where
  agree : Match inMemory (loopScope driver σ x body) c d.2
  counter : c.env x.val = .value u (some d.1)
  bound : ∀ y ∈ names e, c.env y = ρ y

variable {d : V × State V L W} {b : V}

theorem turn_ends (hrange : KeptRange inMemory σ x stop body)
    (hend : KeptEnd inMemory σ x stop body)
    (h : Turn driver inMemory σ x body u ρ stop c d)
    (hthrough : Through driver inMemory ((loopScope driver σ x body).set x.val) body true c' p)
    (hframe : Framed (targetsAll body) c c') :
    Option.Rel (Turn driver inMemory σ x body u ρ stop) (advance M x.val c')
      ((successor M u none d.1).map fun v => (v, p)) := by
  have hc : c'.env x.val = .value u (some d.1) :=
    (hframe x.val hend.kept_counter).trans h.counter
  have hmatch := (hthrough.agree rfl).mono behind_loopScope_le
  have hscope : x.val ∈ (loopScope driver σ x body).inScope := hrange.scope
  obtain ⟨u', w, hp, hu⟩ := counter_cases hscope hmatch hc
  have heval : evalAt M (.ident x.val) c' = some (d.1, c') := by
    rw [evalAt, eval, hc]
    rfl
  rw [advance, heval, successor]
  simp only [Option.bind_eq_bind, Option.bind_some, Option.getD_none]
  cases M.binary .add d.1 (M.number 1) with
  | none => exact .none
  | some v =>
    simp only [Option.bind_some, setTo, hc, Option.map_some]
    refine .some ⟨⟨hmatch.env.advance mem_loopScope hc hp hrange.local_counter hu, hmatch.world⟩,
      Function.update_self .., fun y hy => ?_⟩
    have hyx : y ≠ x.val := fun hyx => hrange.other (hyx ▸ hy)
    rw [← h.bound y hy, ← hframe y (hend.kept_bound y hy)]
    exact Function.update_of_ne hyx _ _

theorem round_match (hrange : KeptRange inMemory σ x stop body)
    (hend : KeptEnd inMemory σ x stop body)
    (hbodies : Bodies driver inMemory σ x body cBody pyBody)
    (hb : eval M ρ stop = StateT.lift (some b))
    (h : Turn driver inMemory σ x body u ρ stop c d) :
    Option.Rel (Sum.LiftRel (Turn driver inMemory σ x body u ρ stop)
        (Reach (Match inMemory (loopScope driver σ x body))))
      (whileRound M (evalAt M (.binary .lt (.ident x.val) stop))
        (fun s => cBody s >>= advanced M x.val) c)
      (forRound M (.ident x.val) (before M b none) (successor M u none) pyBody d) := by
  have hstop : evalAt M stop c = some (b, c) := by
    rw [evalAt, eval_congr stop fun y hy => congrArg _ (h.bound y hy), hb]
    rfl
  obtain ⟨q, hq, hmatch⟩ := turn_begins (M := M) hrange h.agree h.counter
  rw [whileRound, evalAt_test h.counter, hstop, forRound, before]
  simp only [Option.bind_eq_bind, Option.bind_some, Option.pure_def]
  cases M.binary .lt d.1 b with
  | none => exact .none
  | some a =>
    simp only [Option.bind_some, Option.map_some]
    by_cases ha : M.truth a = true
    · rw [if_pos ha, if_pos ha, hq]
      simp only [Option.bind_some]
      have hrel := hbodies.alike c q hmatch
      have hgoes := hbodies.frame c
      revert hrel hgoes
      generalize cBody c = o
      generalize pyBody q = o'
      intro hrel hgoes
      cases hrel with
      | none => exact .none
      | some hr =>
        cases hr with
        | returned => exact .some (.inr .returned)
        | next hnext =>
          have hturn := turn_ends (M := M) hrange hend h hnext (hgoes _ rfl)
          simp only [Option.bind_some, advanced]
          revert hturn
          generalize advance M x.val _ = o
          generalize successor M u none d.1 = o'
          intro hturn
          cases o' with
          | none =>
            cases hturn
            exact .none
          | some v =>
            cases hturn with
            | some hturn => exact .some (.inl hturn)
    · rw [if_neg ha, if_neg ha]
      exact .some (.inr (.next h.agree))

end Rounds

/-- A loop of which the body returns has one round at most, in which the bound is evaluated. -/
theorem returned_match (hrange : KeptRange inMemory σ x stop body)
    (hreturns : returns body = true) (hbodies : Bodies driver inMemory σ x body cBody pyBody)
    (h : Match inMemory (loopScope driver σ x body) c t) (hc : c.env x.val = .value u (some v))
    (hstop : eval M c.env stop = eval M t.env stop) :
    Option.Rel (Reach (Match inMemory (loopScope driver σ x body)))
      (loop (whileRound M (evalAt M (.binary .lt (.ident x.val) stop))
        fun s => cBody s >>= advanced M x.val) n c)
      (do
        let b ← evalAt M stop t
        loop (forRound M (.ident x.val) (before M b.1 none) (successor M u none) pyBody) n
          (v, b.2)) := by
  cases n with
  | zero =>
    cases evalAt M stop t with
    | none => exact .none
    | some b => exact .none
  | succ n =>
    rw [loop, whileRound, evalAt_test hc, evalAt, evalAt, hstop, h.world]
    simp only [Option.bind_eq_bind, Option.pure_def]
    cases eval M t.env stop t.world with
    | none => exact .none
    | some b =>
      have hworld : Match inMemory (loopScope driver σ x body) (⟨c.env, b.2⟩ : State V L W)
        ⟨t.env, b.2⟩ := ⟨h.env, rfl⟩
      obtain ⟨q, hq, hmatch⟩ := turn_begins (M := M) hrange hworld hc
      simp only [Option.map_some, Option.bind_some, loop, forRound, before]
      cases M.binary .lt v b.1 with
      | none => exact .none
      | some a =>
        simp only [Option.bind_eq_bind, Option.bind_some, Option.map_some]
        by_cases ha : M.truth a = true
        · rw [if_pos ha, if_pos ha, hq]
          have hrel := hbodies.alike _ q hmatch
          simp only [Option.bind_some]
          revert hrel
          generalize cBody _ = o
          generalize pyBody q = o'
          intro hrel
          cases hrel with
          | none => exact .none
          | some hr =>
            cases hr with
            | returned => exact .some .returned
            | next hnext =>
              exact absurd (hnext.goes_on.symm.trans hreturns) Bool.false_ne_true
        · rw [if_neg ha, if_neg ha]
          exact .some (.next hworld)

/-- C's loop is the loop over the range, of which the bound is evaluated once. -/
theorem for_match {stop : PyExpr} (start : V) (hwritten : WrittenRange driver kind x stop)
    (hrange : KeptRange inMemory σ x (tree driver stop) body)
    (hbodies : Bodies driver inMemory σ x body cBody pyBody) (hmatch : Match inMemory σ s t) :
    Option.Rel (Reach (Match inMemory (loopScope driver σ x body)))
      (do
        let c ← setTo M (.ident x.val) start s
        loop (whileRound M (evalAt M (.binary .lt (.ident x.val) (tree driver stop)))
          fun s => cBody s >>= advanced M x.val) n c)
      (do
        let b ← pyEval driver M stop t
        loop (forRound M (nameTree driver x) (before M b.1 none)
          (successor M (typeAt (nameTree driver x) b.2) none) pyBody) n
          (converted M (typeAt (nameTree driver x) b.2) start, b.2)) := by
  have hname : nameTree driver x = .ident x.val := if_neg hwritten.registers
  have hloop := hmatch.mono (Scope.le_behind rfl : Scope.Le σ (loopScope driver σ x body))
  obtain ⟨u, w, hs, -⟩ := hmatch.env.typed x.val hrange.scope hrange.local_counter
  obtain ⟨u', w', ht, hu⟩ := counter_cases hrange.scope hmatch hs
  obtain rfl : u = u' := hu.resolve_left hrange.one_type
  have hbound : ∀ y ∈ names (tree driver stop),
      Function.update s.env x.val (.value u (some (converted M u start))) y = t.env y := by
    intro y hy
    have hyx : y ≠ x.val := fun hyx => hrange.other (hyx ▸ hy)
    rw [Function.update_of_ne hyx]
    exact hmatch.env.same y (hrange.known y hy).1 (hrange.known y hy).2
  have hagree : Match inMemory (loopScope driver σ x body)
      ⟨Function.update s.env x.val (.value u (some (converted M u start))), s.world⟩ t :=
    ⟨hloop.env.advance mem_loopScope hs ht hrange.local_counter (.inr rfl), hloop.world⟩
  have hpython : (do
        let b ← pyEval driver M stop t
        loop (forRound M (.ident x.val) (before M b.1 none)
          (successor M (typeAt (.ident x.val) b.2) none) pyBody) n
          (converted M (typeAt (.ident x.val) b.2) start, b.2)) = (do
        let b ← evalAt M (tree driver stop) t
        loop (forRound M (.ident x.val) (before M b.1 none) (successor M u none) pyBody) n
          (converted M u start, b.2)) := by
    rw [pyEval, operations_test hwritten]
    refine Option.bind_congr fun b hb => ?_
    have htype : typeAt (.ident x.val) b.2 = u := by
      simp only [typeAt, evalAt_env b hb, ht]
    rw [htype]
  rw [hname, hpython]
  simp only [setTo, hs, Option.bind_eq_bind, Option.bind_some]
  cases hreturns : returns body with
  | true =>
    exact returned_match hrange hreturns hbodies hagree (Function.update_self ..)
      (eval_congr _ fun y hy => congrArg _ (hbound y hy))
  | false =>
    have hend := hrange.kept_end hreturns
    have hvalues : ∀ y ∈ names (tree driver stop), ∃ u v, t.env y = .value u v := by
      intro y hy
      obtain ⟨u, v, hv, -⟩ :=
        hmatch.env.typed y (hend.bound_scope y hy).1 (hend.bound_scope y hy).2
      have hknown := hrange.known y hy
      exact ⟨u, v, hmatch.env.same y hknown.1 hknown.2 ▸ hv⟩
    obtain ⟨b, hb⟩ := eval_steady (M := M) _ hend.steady hvalues
    rw [evalAt, hb]
    cases b with
    | none =>
      rw [loop_none]
      · exact .none
      · rw [whileRound, evalAt_test (Function.update_self ..), evalAt,
          eval_congr _ fun y hy => congrArg _ (hbound y hy), hb]
        rfl
    | some b =>
      exact loop_rel (fun c d h => round_match hrange hend hbodies hb h) n
        ⟨hagree, Function.update_self .., hbound⟩

end Loops

section Runs

variable {n : Nat} {stmt : PyStmt} {stmts : List PyStmt}

theorem rel_next {τ : Scope} {o o' : Option (State V L W)} (hreturn : isReturn stmt = false)
    (h : Option.Rel (Match inMemory τ) o o') :
    Option.Rel (Reach fun s t => isReturn stmt = false ∧ Match inMemory τ s t) (o.map .next)
      (o'.map .next) :=
  rel_map h fun _ _ hab => .next ⟨hreturn, hab⟩

theorem declaredType_of_declares {annot : Annot} (h : Declares kind annot) :
    (declaredType driver annot).isSome = true := by
  obtain ⟨u, size, hdecl, -⟩ := declared_of_declares driver h
  rw [declaredType, hdecl]
  rfl

/-- A declaration of a nested block is undone where the block ends. -/
theorem leave_match {x : Ident} {annot : Annot} {value : Option PyExpr} {declared u v : State V L W}
    (hwritten : WrittenDecl driver kind x annot value) (hmemory : inMemory x.val = false)
    (hmatch : Match inMemory σ s t)
    (hdeclared : Match inMemory (after driver inMemory σ (.annAssign x annot value)) declared p)
    (hreturns : returns (.annAssign x annot value :: stmts) = false)
    (h : Match inMemory ((after driver inMemory σ (.annAssign x annot value)).behind
      (blockChange driver (after driver inMemory σ (.annAssign x annot value)).types stmts)) u v) :
    ∃ w, leave M x.val s declared (.next u) = .next w ∧ Match inMemory
      (σ.behind (blockChange driver σ.types (.annAssign x annot value :: stmts))) w v := by
  have hscope : x.val ∈ (after driver inMemory σ (.annAssign x annot value)).inScope :=
    mem_declaredScope
  have htypes : (after driver inMemory σ (.annAssign x annot value)).types =
      Function.update σ.types x.val (declaredType driver annot) :=
    (declaredScope_fields inMemory σ x.val _ value).2.1
  obtain ⟨w, b, hb, -⟩ := hdeclared.env.typed x.val hscope hmemory
  refine ⟨⟨Function.update u.env x.val (s.env x.val), u.world⟩, by rw [leave, hb], ?_, h.world⟩
  rw [htypes] at h
  exact h.env.restore (declared_left (declaredType_of_declares hwritten.declares) hreturns) hscope
    hmemory fun hx => hmatch.env.typed x.val hx hmemory

/-- What a block declares ends with it, and the names may differ from there. -/
theorem endScope_match {nested : Bool} {declared p : State V L W} {r r' : Outcome V L W}
    (hwritten : Written driver kind stmt)
    (hkept : Kept driver inMemory (nested && !returns stmts) σ stmt)
    (hreturn : isReturn stmt = false) (hmatch : Match inMemory σ s t)
    (hdeclared : Match inMemory (after driver inMemory σ stmt) declared p)
    (h : Reach (Through driver inMemory (after driver inMemory σ stmt) stmts nested) r r') :
    Reach (Through driver inMemory σ (stmt :: stmts) nested)
      (if nested then endScope M (cStmt driver stmt) s declared r else r) r' := by
  cases h with
  | returned =>
    cases nested <;> cases stmt <;> exact .returned
  | next h =>
    have hgoes : returns (stmt :: stmts) = false := returns_cons.mpr ⟨hreturn, h.goes_on⟩
    cases nested with
    | false => exact .next ⟨hgoes, h.world, fun hfalse => absurd hfalse Bool.false_ne_true⟩
    | true =>
      have hagree := h.agree rfl
      cases stmt with
      | annAssign x annot value =>
        have hkept : KeptDecl driver inMemory (true && !returns stmts) σ x value := hkept
        have hends : (true && !returns stmts) = true := by rw [h.goes_on]; rfl
        have hmemory : inMemory x.val = false := by
          rw [← Bool.not_eq_true]
          exact fun hmemory => Bool.false_ne_true ((hkept.object hmemory).1.symm.trans hends)
        obtain ⟨w, hw, hleft⟩ := leave_match (M := M) hwritten hmemory hmatch hdeclared hgoes hagree
        have hleave : endScope M (cStmt driver (.annAssign x annot value)) s declared (.next _) =
          .next w := hw
        rw [if_pos rfl, hleave]
        exact .next ⟨hgoes, hleft.world, fun _ => hleft⟩
      | _ => exact .next ⟨hgoes, h.world, fun _ =>
          hagree.mono (blockChange_cons_le driver inMemory σ rfl hgoes)⟩

theorem body_goes (body : List PyStmt) (c : State V L W) :
    Ensures (execAll M inMemory n true (cStmts driver body) c) (Goes (targetsAll body) c) :=
  (execAll_goes (cStmts driver body) c).imp fun _ hr => hr.mono (assignedAll_cStmts driver body)

theorem evalAt_zero : evalAt M (.num 0) s = some (M.number 0, s) := rfl

theorem run_assign {target : Target} {value : PyExpr} (h : Legible driver kind target.expr) :
    run driver M inMemory n (.assign target [] value) t =
      (do
        let a ← pyEval driver M value t
        assignTo M (tree driver target.expr) a.1 a.2).map .next := by
  rw [run]
  cases pyEval driver M value t with
  | none => rfl
  | some a =>
    simp only [assignEach, operations_of_legible h, Option.bind_eq_bind, Option.bind_some,
      Option.pure_def, Option.bind_fun_some]
    exact (Option.map_eq_bind ..).symm

mutual

/-- A kept statement and its reading in C run alike. -/
theorem run_match : (stmt : PyStmt) → {ends : Bool} → {σ : Scope} → {s t : State V L W} →
    Written driver kind stmt → Kept driver inMemory ends σ stmt → Match inMemory σ s t →
    Option.Rel (Reach fun s t => isReturn stmt = false ∧
        Match inMemory (after driver inMemory σ stmt) s t)
      (exec M inMemory n (cStmt driver stmt) s) (run driver M inMemory n stmt t)
  | .assign target more value, ends, σ, s, t, hwritten, hkept, hmatch => by
    obtain ⟨rfl, htarget, hvalue⟩ := hwritten
    obtain ⟨hsettable, hknown⟩ := hkept
    rw [cStmt, exec, after, run_assign htarget, assign]
    refine rel_next rfl (rel_bind (pyEval_match hvalue hknown hmatch) fun a b hab => ?_)
    rw [hab.1]
    exact hab.2.assignTo hsettable
  | .augAssign target op value, ends, σ, s, t, hwritten, hkept, hmatch => by
    obtain ⟨htarget, hvalue⟩ := hwritten
    rw [cStmt, exec, run, after, operations_of_legible htarget, operations_of_legible hvalue]
    exact rel_next rfl (hmatch.opAssign hkept.1 hkept.2)
  | .annAssign x annot value, ends, σ, s, t, hwritten, hkept, hmatch => by
    have hwritten : WrittenDecl driver kind x annot value := hwritten
    obtain ⟨u, size, hdecl, hsize⟩ := declared_of_declares driver hwritten.declares
    rw [cStmt, declOf, hdecl, exec, run, after, declaredType, hdecl]
    exact rel_next rfl (declare_match hwritten hkept hmatch hdecl hsize)
  | .ret value, ends, σ, s, t, hwritten, hkept, hmatch => by
    obtain ⟨e, rfl, hlegible⟩ := hwritten
    rw [cStmt, Option.map_some, exec, run]
    refine rel_map (pyEval_match hlegible (hkept e rfl) hmatch) fun a b hab => ?_
    rw [hab.1, hab.2.world]
    exact .returned
  | .expr value, ends, σ, s, t, hwritten, hkept, hmatch => by
    rw [cStmt, exec, run, after]
    exact rel_map (pyEval_match hwritten.2 hkept hmatch) fun a b hab => .next ⟨rfl, hab.2⟩
  | .ifStmt test body orelse, ends, σ, s, t, hwritten, hkept, hmatch => by
    obtain ⟨htest, hbody, rfl⟩ := hwritten
    rw [cStmt, exec, run, after, whileScope]
    refine rel_bind (pyEval_match htest hkept.1 hmatch) fun a b hab => ?_
    rw [hab.1]
    split
    · exact rel_imp (runAll_match body hbody hkept.2 hab.2) fun r r' hr =>
        hr.imp fun _ _ h => ⟨rfl, (h.agree rfl).mono Scope.behind_maybe_le⟩
    · rw [runAll]
      exact .some (.next ⟨rfl, hab.2.mono (Scope.le_behind rfl)⟩)
  | .whileStmt test body, ends, σ, s, t, hwritten, hkept, hmatch => by
    obtain ⟨htest, hbody⟩ := hwritten
    rw [cStmt, exec, run, after]
    have hle : Scope.Le σ (whileScope driver σ body) := Scope.le_behind rfl
    refine rel_imp (loop_rel (Q := Reach (Match inMemory (whileScope driver σ body)))
      (fun c p h => ?_) n (hmatch.mono hle)) fun r r' hr => hr.imp fun _ _ h => ⟨rfl, h⟩
    refine whileRound_rel (pyEval_match htest hkept.1 h) fun c p h => ?_
    exact rel_imp (runAll_match body hbody hkept.2 h) fun r r' hr =>
      hr.imp fun _ _ h => (h.agree rfl).mono Scope.behind_maybe_behind_le
  | .forRange x (.upTo stop) body, ends, σ, s, t, hwritten, hkept, hmatch => by
    obtain ⟨hrange, hbody⟩ := hwritten
    obtain ⟨-, hkeptRange, hkeptBody⟩ := hkept
    have h := for_match (M := M) (n := n) (M.number 0) hrange hkeptRange
      ⟨fun c p h => runAll_match body hbody hkeptBody h, body_goes body⟩ hmatch
    rw [cStmt, exec, run, after, startOf, stopOf, bounds, evalAt_zero]
    simp only [Option.bind_eq_bind, Option.bind_some, Option.bind_assoc, Option.pure_def] at h ⊢
    exact rel_imp h fun r r' hr => hr.imp fun _ _ h => ⟨rfl, h⟩
  | .forRange x (.fromTo start stop) body, ends, σ, s, t, hwritten, hkept, hmatch => by
    obtain ⟨hstart, hrange, hbody⟩ := hwritten
    obtain ⟨hknown, hkeptRange, hkeptBody⟩ := hkept
    rw [cStmt, exec, run, after, startOf, stopOf, bounds]
    simp only [Option.bind_eq_bind, Option.bind_assoc, Option.pure_def, Option.bind_some]
    refine rel_bind (pyEval_match hstart hknown hmatch) fun a b hab => ?_
    rw [hab.1]
    refine rel_imp (for_match b.1 hrange hkeptRange
      ⟨fun c p h => runAll_match body hbody hkeptBody h, body_goes body⟩ hab.2) fun r r' hr =>
        hr.imp fun _ _ h => ⟨rfl, h⟩
  | .forRange x (.stepped start stop step) body, ends, σ, s, t, hwritten, _, _ =>
    absurd hwritten id

theorem runAll_match : (stmts : List PyStmt) → {nested : Bool} → {σ : Scope} →
    {s t : State V L W} → WrittenAll driver kind stmts →
    KeptAll driver inMemory nested σ stmts → Match inMemory σ s t →
    Option.Rel (Reach (Through driver inMemory σ stmts nested))
      (execAll M inMemory n nested (cStmts driver stmts) s) (runAll driver M inMemory n stmts t)
  | [], nested, σ, s, t, _, _, hmatch => by
    rw [cStmts, execAll, runAll]
    exact .some (.next ⟨rfl, hmatch.world, fun _ => hmatch.mono (Scope.le_behind rfl)⟩)
  | stmt :: stmts, nested, σ, s, t, hwritten, hkept, hmatch => by
    obtain ⟨hwritten, hwrittenRest⟩ := hwritten
    obtain ⟨hkept, hrest⟩ := hkept
    rw [cStmts, execAll, runAll]
    refine rel_bind (run_match stmt hwritten hkept hmatch) fun r r' hr => ?_
    cases hr with
    | returned => exact .some .returned
    | next hnext =>
      obtain ⟨hreturn, hdeclared⟩ := hnext
      have hrel := runAll_match stmts hwrittenRest (hrest hreturn) hdeclared
      exact rel_bind_pure hrel fun r r' hr =>
        endScope_match hwritten hkept hreturn hmatch hdeclared hr

end

end Runs

end OpaeLibs.Ofs.StatementRuns
