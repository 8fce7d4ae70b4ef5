import OpaeLibs.Lib.Outcomes
import OpaeLibs.Ofs.ExpressionTexts

namespace OpaeLibs.Ofs.Grouping

open OpaeLibs.Lib.CGrammar OpaeLibs.Lib.CLexer OpaeLibs.Ofs.Umd OpaeLibs.Ofs.Expressions
open OpaeLibs.Lib.Outcomes OpaeLibs.Ofs.ExpressionTexts

variable {driver : DriverNames}

section Visits

variable {e : PyExpr} {es : List PyExpr} {out : Visited} {vs : List Visited}

theorem visitAll_cons (h : visitAll driver (e :: es) = .ok vs) :
    ∃ v vs', visit driver e = .ok v ∧ visitAll driver es = .ok vs' ∧ vs = v :: vs' := by
  rw [visitAll] at h
  obtain ⟨v, hv, h⟩ := except_bind_ok.mp h
  obtain ⟨vs', hvs', h⟩ := except_bind_ok.mp h
  exact ⟨v, vs', hv, hvs', (Except.ok.inj h).symm⟩

theorem length_of_visitAll (h : visitAll driver es = .ok vs) : es.length = vs.length := by
  induction es generalizing vs with
  | nil =>
    rw [← Except.ok.inj h]
    rfl
  | cons e es ih =>
    obtain ⟨v, vs', -, hvs', rfl⟩ := visitAll_cons h
    rw [List.length_cons, List.length_cons, ih hvs']

theorem exists_of_visitAll (h : visitAll driver es = .ok vs) (he : e ∈ es) :
    ∃ v ∈ vs, visit driver e = .ok v := by
  induction es generalizing vs with
  | nil => exact nomatch he
  | cons x es ih =>
    obtain ⟨v, vs', hv, hvs', rfl⟩ := visitAll_cons h
    rcases List.mem_cons.mp he with rfl | he
    · exact ⟨v, List.mem_cons_self, hv⟩
    · obtain ⟨w, hw, hvisit⟩ := ih hvs' he
      exact ⟨w, List.mem_cons_of_mem _ hw, hvisit⟩

theorem exists_of_texts {ss : List Text} (h : texts vs = .ok ss) {v : Visited} (hv : v ∈ vs) :
    ∃ s ∈ ss, v = .str s := by
  induction vs generalizing ss with
  | nil => cases hv
  | cons w vs ih =>
    cases w with
    | code text => cases h
    | str text =>
      rw [texts] at h
      cases hrest : texts vs with
      | error err =>
        rw [hrest] at h
        cases h
      | ok ss' =>
        rw [hrest] at h
        obtain rfl : text :: ss' = ss := Except.ok.inj h
        rcases List.mem_cons.mp hv with rfl | hv
        · exact ⟨text, List.mem_cons_self, rfl⟩
        · obtain ⟨s, hs, hvs⟩ := ih hrest hv
          exact ⟨s, List.mem_cons_of_mem _ hs, hvs⟩

theorem infix_afterCommas {s : Text} {ss : List Text} (h : s ∈ ss) : s <:+: afterCommas ss := by
  have hflat := List.infix_of_mem_flatten (L := ss.map ([',', ' '] ++ ·))
    (List.mem_map_of_mem h)
  exact (List.suffix_append [',', ' '] s).isInfix.trans hflat

theorem infix_join {text : Text} (h : join vs = .ok text) {v : Visited} (hv : v ∈ vs) :
    ∃ s, v = .str s ∧ s <:+: text := by
  rw [join] at h
  cases hss : texts vs with
  | error err =>
    rw [hss] at h
    cases h
  | ok ss =>
    rw [hss] at h
    rw [← Except.ok.inj h]
    obtain ⟨s, hs, rfl⟩ := exists_of_texts hss hv
    refine ⟨s, rfl, ?_⟩
    cases ss with
    | nil => cases hs
    | cons u ss =>
      rw [intercalate_cons]
      rcases List.mem_cons.mp hs with rfl | hs
      · exact (List.prefix_append s _).isInfix
      · exact (infix_afterCommas hs).trans (List.suffix_append u _).isInfix

theorem visitCall_ok {func : PyExpr} (h : visitCall driver func vs = .ok out) :
    ∃ id, func = .name id ∧ (id.val = refName ∧ ref vs = .ok out ∨
      id.val ≠ refName ∧ ∃ s, join (if passesDrv driver (resolveFunction driver id) then
        .str drvName :: vs else vs) = .ok s ∧
          out = .code (resolveFunction driver id ++ '(' :: s ++ [')'])) := by
  cases func with
  | name id =>
    refine ⟨id, rfl, ?_⟩
    by_cases hid : id.val = refName
    · rw [visitCall, if_pos hid] at h
      exact .inl ⟨hid, h⟩
    · rw [visitCall, if_neg hid] at h
      obtain ⟨s, hs, h⟩ := except_bind_ok.mp h
      exact .inr ⟨hid, s, hs, (Except.ok.inj h).symm⟩
  | _ => cases h

theorem ref_ok (h : ref vs = .ok out) : out.isCode = false ∧
    ((∃ v, vs = [v] ∧ out.text = '&' :: v.text) ∨
      ∃ v w, vs = [v, w] ∧ v.text <:+: out.text) := by
  unfold ref at h
  split at h
  · next v =>
    rw [← Except.ok.inj h]
    exact ⟨rfl, .inl ⟨v, rfl, rfl⟩⟩
  · next v cast =>
    split at h
    · rw [← Except.ok.inj h]
      exact ⟨rfl, .inr ⟨v, .str cast, rfl, (List.suffix_cons '&' v.text).isInfix⟩⟩
    · rw [← Except.ok.inj h]
      exact ⟨rfl, .inr ⟨v, .str cast, rfl, List.infix_append _ v.text _⟩⟩
  · exact nomatch h
  · exact nomatch h

theorem infix_operands (l mid r : Text) : l <:+: l ++ mid ++ r ∧ r <:+: l ++ mid ++ r := by
  constructor
  · rw [List.append_assoc]
    exact (List.prefix_append l _).isInfix
  · exact (List.suffix_append _ r).isInfix

theorem binOp_ok {left right : PyExpr} {op : ArithOp}
    (h : visit driver (.binOp left op right) = .ok out) :
    ∃ l r, visit driver left = .ok l ∧ visit driver right = .ok r ∧
      l.text <:+: out.text ∧ r.text <:+: out.text := by
  obtain ⟨l, hl, h⟩ := except_bind_ok.mp h
  obtain ⟨r, hr, h⟩ := except_bind_ok.mp h
  refine ⟨l, r, hl, hr, ?_⟩
  rw [← Except.ok.inj h, Visited.text]
  exact infix_operands l.text op.text r.text

theorem compare_ok {left right : PyExpr} {op : CmpOp}
    (h : visit driver (.compare left op right) = .ok out) :
    ∃ l r, visit driver left = .ok l ∧ visit driver right = .ok r ∧
      l.text <:+: out.text ∧ r.text <:+: out.text := by
  obtain ⟨l, hl, h⟩ := except_bind_ok.mp h
  obtain ⟨r, hr, h⟩ := except_bind_ok.mp h
  refine ⟨l, r, hl, hr, ?_⟩
  rw [← Except.ok.inj h, Visited.text, List.append_cons, List.append_assoc l.text]
  exact infix_operands l.text (' ' :: op.text ++ [' ']) r.text

theorem argument_ok {id : Ident} {args : List PyExpr} (hvs : visitAll driver args = .ok vs)
    {text : Text} (hjoin : join (if passesDrv driver (resolveFunction driver id) then
      .str drvName :: vs else vs) = .ok text) (he : e ∈ args) :
    ∃ s, visit driver e = .ok (.str s) ∧
      s <:+: resolveFunction driver id ++ '(' :: text ++ [')'] := by
  obtain ⟨v, hv, hvisit⟩ := exists_of_visitAll hvs he
  have hmem : v ∈ (if passesDrv driver (resolveFunction driver id) then
      .str drvName :: vs else vs) := by
    split
    · exact List.mem_cons_of_mem _ hv
    · exact hv
  obtain ⟨s, rfl, hwithin⟩ := infix_join hjoin hmem
  refine ⟨s, hvisit, hwithin.trans ?_⟩
  rw [List.append_cons (resolveFunction driver id) '(' text]
  exact List.infix_append _ text [')']

theorem code_of_visit (h : visit driver e = .ok out) : out.isCode = isCode e := by
  cases e with
  | call func args =>
    obtain ⟨vs, -, h⟩ := except_bind_ok.mp h
    obtain ⟨id, rfl, ⟨hid, h⟩ | ⟨hid, s, -, rfl⟩⟩ := visitCall_ok h
    · rw [(ref_ok h).1, isCode, hid]
      rfl
    · exact (bne_iff_ne.mpr hid).symm
  | name id => rw [← Except.ok.inj h]; rfl
  | constant value => rw [← Except.ok.inj h]; rfl
  | field value attr =>
    cases value with
    | name id =>
      rw [visit, visitAttribute] at h
      split at h <;> (rw [← Except.ok.inj h]; rfl)
    | _ => cases h
  | subscript value slice =>
    cases value with
    | name id =>
      obtain ⟨v, -, h⟩ := except_bind_ok.mp h
      rw [← Except.ok.inj h]
      rfl
    | _ => cases h
  | binOp left op right =>
    obtain ⟨l, -, h⟩ := except_bind_ok.mp h
    obtain ⟨r, -, h⟩ := except_bind_ok.mp h
    rw [← Except.ok.inj h]
    rfl
  | compare left op right =>
    obtain ⟨l, -, h⟩ := except_bind_ok.mp h
    obtain ⟨r, -, h⟩ := except_bind_ok.mp h
    rw [← Except.ok.inj h]
    rfl
  | notOp operand =>
    obtain ⟨v, -, h⟩ := except_bind_ok.mp h
    rw [← Except.ok.inj h]
    rfl

theorem text_of_leadsAmp (hlead : leadsAmp e = true) (h : visit driver e = .ok out) :
    ∃ s, out.text = '&' :: s := by
  induction e using expr_induct generalizing out with
  | call func args _ _ =>
    obtain ⟨vs, hvs, h⟩ := except_bind_ok.mp h
    obtain ⟨id, rfl, hcases⟩ := visitCall_ok h
    rw [leadsAmp, Bool.and_eq_true, beq_iff_eq, beq_iff_eq, List.length_eq_one_iff] at hlead
    obtain ⟨hid, e, rfl⟩ := hlead
    obtain ⟨v, vs', -, hnil, rfl⟩ := visitAll_cons hvs
    obtain rfl : [] = vs' := Except.ok.inj hnil
    rcases hcases with ⟨-, h⟩ | ⟨hne, -⟩
    · rcases (ref_ok h).2 with ⟨w, -, htext⟩ | ⟨_, _, hvs, -⟩
      · exact ⟨w.text, htext⟩
      · cases (List.cons.inj hvs).2
    · exact absurd hid hne
  | binOp left op right ihl _ =>
    obtain ⟨l, hl, h⟩ := except_bind_ok.mp h
    obtain ⟨r, -, h⟩ := except_bind_ok.mp h
    obtain ⟨s, hs⟩ := ihl hlead hl
    rw [← Except.ok.inj h, Visited.text, hs]
    exact ⟨_, rfl⟩
  | compare left op right ihl _ =>
    obtain ⟨l, hl, h⟩ := except_bind_ok.mp h
    obtain ⟨r, -, h⟩ := except_bind_ok.mp h
    obtain ⟨s, hs⟩ := ihl hlead hl
    rw [← Except.ok.inj h, Visited.text, hs]
    exact ⟨_, rfl⟩
  | _ => cases hlead

end Visits

section Trees

variable {e : PyExpr} {es : List PyExpr}

theorem exists_of_treesWith {group : CExpr → CExpr} {trees : List CExpr}
    (h : treesWith driver group es = some trees) (he : e ∈ es) :
    ∃ t ∈ trees, treeWith driver group e = some t := by
  induction es generalizing trees with
  | nil => exact nomatch he
  | cons x es ih =>
    rw [treesWith] at h
    obtain ⟨t, ht, h⟩ := Option.bind_eq_some_iff.mp h
    obtain ⟨ts, hts, h⟩ := Option.bind_eq_some_iff.mp h
    rw [← Option.some.inj h]
    rcases List.mem_cons.mp he with rfl | he
    · exact ⟨t, List.mem_cons_self, ht⟩
    · obtain ⟨u, hu, htree⟩ := ih hts he
      exact ⟨u, List.mem_cons_of_mem _ hu, htree⟩

theorem refTree_two {group : CExpr → CExpr} {e' : PyExpr} {trees : List CExpr} {tree : CExpr}
    (h : refTree driver group [e, e'] trees = some tree) :
    ∃ ty c, e' = .name ty ∧ castType driver ty = some c := by
  cases e' with
  | name ty =>
    rcases trees with _ | ⟨t, _ | ⟨u, _ | ⟨v, trees⟩⟩⟩
    · exact nomatch h
    · exact nomatch h
    · obtain ⟨c, hc, -⟩ := Option.map_eq_some_iff.mp h
      exact ⟨ty, c, rfl, hc⟩
    · exact nomatch h
  | _ => rcases trees with _ | ⟨t, _ | ⟨u, _ | ⟨v, trees⟩⟩⟩ <;> exact nomatch h

theorem plainRef_of_ref {group : CExpr → CExpr} {args : List PyExpr} {vs : List Visited}
    {trees : List CExpr} {out : Visited} {tree : CExpr} (hvs : visitAll driver args = .ok vs)
    (htrees : treesWith driver group args = some trees) (href : ref vs = .ok out)
    (htree : refTree driver group args trees = some tree) (hamps : ¬amps <:+: out.text)
    (ih : ∀ e ∈ args, ∀ v t, visit driver e = .ok v → treeWith driver group e = some t →
      v.text <:+: out.text → plain driver e = true) :
    plainRef driver args = true ∧ plainAll driver args = true := by
  rcases (ref_ok href).2 with ⟨v, rfl, htext⟩ | ⟨v, w, rfl, hwithin⟩
  · obtain ⟨e, rfl⟩ := List.length_eq_one_iff.mp (length_of_visitAll hvs)
    obtain ⟨_, _, hv, -, heq⟩ := visitAll_cons hvs
    obtain ⟨rfl, -⟩ := List.cons.inj heq
    obtain ⟨t, -, ht⟩ := exists_of_treesWith htrees List.mem_cons_self
    have hplain := ih e List.mem_cons_self v t hv ht
      (htext ▸ (List.suffix_cons '&' v.text).isInfix)
    have hlead : leadsAmp e = false := by
      rw [Bool.eq_false_iff]
      intro hlead
      obtain ⟨s, hs⟩ := text_of_leadsAmp hlead hv
      rw [htext, hs] at hamps
      exact hamps (List.prefix_append amps s).isInfix
    rw [plainRef, hlead, plainAll, hplain]
    exact ⟨rfl, rfl⟩
  · obtain ⟨e, e', rfl⟩ := List.length_eq_two.mp (length_of_visitAll hvs)
    obtain ⟨_, _, hv, -, heq⟩ := visitAll_cons hvs
    obtain ⟨rfl, -⟩ := List.cons.inj heq
    obtain ⟨t, -, ht⟩ := exists_of_treesWith htrees List.mem_cons_self
    have hplain := ih e List.mem_cons_self v t hv ht hwithin
    obtain ⟨ty, c, rfl, hc⟩ := refTree_two htree
    rw [plainRef, hc, plainAll, hplain]
    exact ⟨rfl, rfl⟩

theorem plain_of_visit {out : Visited} {tree : CExpr} (hvisit : visit driver e = .ok out)
    (htree : operations driver e = some tree) (hamps : ¬amps <:+: out.text) :
    plain driver e = true := by
  induction e using expr_induct generalizing out tree with
  | name id => rfl
  | constant value => rfl
  | field value attr _ =>
    cases value with
    | name id => rfl
    | _ => cases hvisit
  | call func args _ ih =>
    obtain ⟨vs, hvs, hvisit⟩ := except_bind_ok.mp hvisit
    obtain ⟨trees, htrees, htree⟩ := Option.bind_eq_some_iff.mp htree
    obtain ⟨id, rfl, ⟨hid, href⟩ | ⟨hid, s, hjoin, rfl⟩⟩ := visitCall_ok hvisit
    · rw [callTree, if_pos hid] at htree
      rw [plain, plainCall, if_pos hid, Bool.and_eq_true]
      exact plainRef_of_ref hvs htrees href htree hamps fun e he v t hv ht hwithin =>
        ih e he hv ht fun h => hamps (h.trans hwithin)
    · have hargs (e : PyExpr) (he : e ∈ args) : isCode e = false ∧ plain driver e = true := by
        obtain ⟨text, hvisit, hwithin⟩ := argument_ok hvs hjoin he
        obtain ⟨t, -, ht⟩ := exists_of_treesWith htrees he
        exact ⟨(code_of_visit hvisit).symm,
          ih e he hvisit ht fun h => hamps (h.trans hwithin)⟩
      rw [plain, plainCall, if_neg hid, Bool.and_eq_true, mem_of_plainAll, List.all_eq_true]
      exact ⟨fun e he => by simpa using (hargs e he).1, fun e he => (hargs e he).2⟩
  | subscript value slice _ ih =>
    cases value with
    | name id =>
      obtain ⟨v, hv, hvisit⟩ := except_bind_ok.mp hvisit
      obtain ⟨t, ht, -⟩ := Option.bind_eq_some_iff.mp htree
      refine ih hv ht fun h => hamps (h.trans ?_)
      rw [← Except.ok.inj hvisit]
      exact List.infix_append (id.val ++ ['[']) v.text [']'] |>.trans (by simp [Visited.text])
    | _ => cases hvisit
  | binOp left op right ihl ihr =>
    obtain ⟨l, r, hl, hr, hleft, hright⟩ := binOp_ok hvisit
    obtain ⟨tl, htl, htree⟩ := Option.bind_eq_some_iff.mp htree
    obtain ⟨tr, htr, -⟩ := Option.bind_eq_some_iff.mp htree
    rw [plain, Bool.and_eq_true]
    exact ⟨ihl hl htl fun h => hamps (h.trans hleft), ihr hr htr fun h => hamps (h.trans hright)⟩
  | compare left op right ihl ihr =>
    obtain ⟨l, r, hl, hr, hleft, hright⟩ := compare_ok hvisit
    obtain ⟨tl, htl, htree⟩ := Option.bind_eq_some_iff.mp htree
    obtain ⟨tr, htr, -⟩ := Option.bind_eq_some_iff.mp htree
    rw [plain, Bool.and_eq_true]
    exact ⟨ihl hl htl fun h => hamps (h.trans hleft), ihr hr htr fun h => hamps (h.trans hright)⟩
  | notOp operand ih =>
    obtain ⟨v, hv, hvisit⟩ := except_bind_ok.mp hvisit
    obtain ⟨t, ht, -⟩ := Option.bind_eq_some_iff.mp htree
    rw [← Except.ok.inj hvisit] at hamps
    exact ih hv ht fun h => hamps (h.trans (List.suffix_cons '!' v.text).isInfix)

theorem land_notMem_trees {trees : List CExpr} (h : treesWith driver .paren es = some trees)
    (hes : ∀ e ∈ es, ∀ tree, written driver e = some tree → .op .land ∉ print tree) :
    .op .land ∉ printRest trees := by
  induction es generalizing trees with
  | nil =>
    rw [← Option.some.inj h]
    exact List.not_mem_nil
  | cons e es ih =>
    obtain ⟨t, ht, h⟩ := Option.bind_eq_some_iff.mp h
    obtain ⟨ts, hts, h⟩ := Option.bind_eq_some_iff.mp h
    rw [← Option.some.inj h, printRest, List.mem_append, List.mem_cons]
    rintro ((hmem | hmem) | hmem)
    · exact nomatch hmem
    · exact hes e List.mem_cons_self t ht hmem
    · exact ih hts (fun e he => hes e (List.mem_cons_of_mem _ he)) hmem

theorem land_notMem_call {f : CExpr} {trees : List CExpr} (hf : .op .land ∉ print f)
    (h : .op .land ∉ printRest trees) : .op .land ∉ print (.call f trees) := by
  rw [print, List.mem_append, List.mem_cons, List.mem_append, List.mem_singleton]
  rintro (hmem | hmem | hmem | hmem)
  · exact hf hmem
  · exact nomatch hmem
  · exact h (List.mem_of_mem_tail hmem)
  · exact nomatch hmem

theorem land_notMem_ref {trees : List CExpr} (h : .op .land ∉ printRest trees) {tree : CExpr}
    (htree : refTree driver .paren es trees = some tree) : .op .land ∉ print tree := by
  unfold refTree at htree
  split at htree
  · next t =>
    rw [← Option.some.inj htree]
    simpa [print, printRest] using h
  · next t _ =>
    obtain ⟨c, -, hc⟩ := Option.map_eq_some_iff.mp htree
    rw [← hc]
    have ht : .op .land ∉ print t := fun hmem => h (by simp [printRest, hmem])
    simpa [print, TypeName.tokens] using ht
  · exact nomatch htree

theorem land_notMem {tree : CExpr} (h : written driver e = some tree) :
    .op .land ∉ print tree := by
  induction e using expr_induct generalizing tree with
  | name id =>
    rw [← Option.some.inj h, nameTree]
    split <;> simp [registerTree, print]
  | constant value =>
    rw [← Option.some.inj h]
    simp [print]
  | field value attr ih =>
    rw [written, treeWith] at h
    cases value with
    | name id =>
      rw [fieldTree] at h
      split at h <;> (rw [← Option.some.inj h]; simp [registerTree, print])
    | _ =>
      simp only [fieldTree] at h
      obtain ⟨t, ht, h⟩ := Option.map_eq_some_iff.mp h
      rw [← h]
      simpa [print] using ih ht
  | call func args ihf ih =>
    obtain ⟨trees, htrees, h⟩ := Option.bind_eq_some_iff.mp h
    have hland := land_notMem_trees htrees fun e he tree => ih e he
    cases func with
    | name id =>
      rw [callTree] at h
      split at h
      · exact land_notMem_ref hland h
      · rw [← Option.some.inj h]
        apply land_notMem_call (by simp [print])
        split
        · simpa [printRest, print] using hland
        · exact hland
    | _ =>
      simp only [callTree] at h
      obtain ⟨t, ht, h⟩ := Option.map_eq_some_iff.mp h
      rw [← h]
      exact land_notMem_call (ihf ht) hland
  | subscript value slice ihv ih =>
    rw [written, treeWith] at h
    obtain ⟨t, ht, h⟩ := Option.bind_eq_some_iff.mp h
    obtain ⟨i, hi, h⟩ := Option.bind_eq_some_iff.mp h
    have hbase : .op .land ∉ print t := by
      cases value with
      | name id =>
        rw [← Option.some.inj ht]
        simp [print]
      | _ => exact ihv ht
    rw [← Option.some.inj h]
    simpa [print] using ⟨hbase, ih hi⟩
  | binOp left op right ihl ihr =>
    obtain ⟨tl, htl, h⟩ := Option.bind_eq_some_iff.mp h
    obtain ⟨tr, htr, h⟩ := Option.bind_eq_some_iff.mp h
    have hop : Token.op .land ≠ .op (ArithOp.binOp op) := by cases op <;> decide
    rw [← Option.some.inj h, print, List.mem_append, List.mem_cons]
    exact fun hmem => hmem.elim (ihl htl) fun hmem => hmem.elim hop (ihr htr)
  | compare left op right ihl ihr =>
    obtain ⟨tl, htl, h⟩ := Option.bind_eq_some_iff.mp h
    obtain ⟨tr, htr, h⟩ := Option.bind_eq_some_iff.mp h
    have hop : Token.op .land ≠ .op (CmpOp.binOp op) := by cases op <;> decide
    rw [← Option.some.inj h, print, List.mem_append, List.mem_cons]
    exact fun hmem => hmem.elim (ihl htl) fun hmem => hmem.elim hop (ihr htr)
  | notOp operand ih =>
    obtain ⟨t, ht, h⟩ := Option.bind_eq_some_iff.mp h
    rw [← Option.some.inj h, print, List.mem_cons]
    exact fun hmem => hmem.elim (by decide) (ih ht)

end Trees

variable {kind : Name → NameKind} {e : PyExpr}

theorem atLevel_of_preserves (h : Preserves driver kind e) :
    plain driver e = true ∧ ∃ tree, written driver e = some tree ∧ AtLevel kind 0 tree := by
  obtain ⟨out, tree, ts, hvisit, htree, hlex, e', rfl, hlevel, rfl⟩ := h
  have hstrip := htree
  rw [operations_eq, Option.map_eq_some_iff] at hstrip
  obtain ⟨w, hw, hstrip⟩ := hstrip
  have hland : .op .land ∉ print e' := by
    rw [← mem_print_strip rfl, ← hstrip, mem_print_strip rfl]
    exact land_notMem hw
  have hplain := plain_of_visit hvisit htree (amps_infix_of_lexFrom hlex hland)
  obtain ⟨out', w', hvisit', hw', hspelled⟩ := spelled_of_plain hplain
  obtain rfl : out = out' := Except.ok.inj (hvisit.symm.trans hvisit')
  obtain rfl : w = w' := Option.some.inj (hw.symm.trans hw')
  have hprint := lex_eq (hspelled.lexes [] [] ends_nil lexes_nil)
  rw [List.append_nil, List.append_nil, hlex] at hprint
  rw [eq_of_print e' w (Option.some.inj hprint) hstrip.symm] at hlevel
  exact ⟨hplain, w, hw, hlevel⟩

theorem preserves_of_atLevel (hplain : plain driver e = true) {tree : CExpr}
    (htree : written driver e = some tree) (hlevel : AtLevel kind 0 tree) :
    Preserves driver kind e := by
  obtain ⟨out, tree', hvisit, htree', hspelled⟩ := spelled_of_plain hplain
  obtain rfl : tree = tree' := Option.some.inj (htree.symm.trans htree')
  have hlex := lex_eq (hspelled.lexes [] [] ends_nil lexes_nil)
  rw [List.append_nil, List.append_nil] at hlex
  refine ⟨out, strip tree, print tree, hvisit, ?_, hlex, tree, rfl, hlevel, rfl⟩
  rw [operations_eq, htree]
  rfl

/-- An expression is kept just where its text needs no parentheses but those that are written. -/
theorem preserves_iff : Preserves driver kind e ↔
    plain driver e = true ∧ ∃ tree, written driver e = some tree ∧ AtLevel kind 0 tree := by
  constructor
  · exact atLevel_of_preserves
  · rintro ⟨hplain, tree, htree, hlevel⟩
    exact preserves_of_atLevel hplain htree hlevel

section Sample

def sampleNames : DriverNames := ⟨⟨"ofs_test".toList, rfl⟩, [⟨"id_lo".toList, rfl⟩], []⟩

def sampleName (c : Char) (h : isIdent [c] = true) : PyExpr := .name ⟨[c], h⟩

def sampleProduct : PyExpr :=
  .binOp (.binOp (sampleName 'a' rfl) .add (sampleName 'b' rfl)) .mult (sampleName 'c' rfl)

/-- A sum that is multiplied is regrouped. -/
theorem not_forall_preserves : ¬∀ e, (operations sampleNames e).isSome = true →
    Preserves sampleNames (fun _ => .value) e := by
  intro h
  obtain ⟨-, tree, htree, hlevel⟩ := atLevel_of_preserves (h sampleProduct rfl)
  rw [← Option.some.inj htree] at hlevel
  exact absurd hlevel.2.1.1 (by decide)

end Sample

end OpaeLibs.Ofs.Grouping
