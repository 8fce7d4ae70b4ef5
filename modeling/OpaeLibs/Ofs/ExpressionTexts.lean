import OpaeLibs.Ofs.Expressions

namespace OpaeLibs.Ofs.ExpressionTexts

open OpaeLibs.Lib.CGrammar OpaeLibs.Lib.CLexer OpaeLibs.Ofs.Umd OpaeLibs.Ofs.Expressions

section Characters

variable {c d : Char} {cs : List Char}

/-- What an expression may begin with. -/
def starts (c : Char) : Bool := isIdentStart c || c.isDigit || c == '!' || c == '&' || c == '('

theorem starts_of_isIdentStart (h : isIdentStart c = true) : starts c = true := by
  rw [starts, h]
  rfl

theorem pair_of_starts (hd : starts d = true) (h : d = '&' → c ≠ '&') : pair c d = none := by
  unfold pair
  split <;> first | rfl | exact absurd hd (by decide) | exact absurd rfl (h rfl)

def pairHeads : List Char :=
  ['<', '>', '=', '!', '.'] ++ ['+', '-', '*', '/', '%', '&', '|', '^']

theorem pair_of_notMem (h : c ∉ pairHeads) : pair c d = none := by
  unfold pair
  split <;> first | rfl | exact absurd h (by decide) | skip
  apply if_neg
  exact fun hmem => h (List.mem_append_right _ hmem)

theorem forall_head {p : Char → Prop} (h : p c) : ∀ d ∈ (c :: cs).head?, p d := by
  intro d hd
  rwa [← Option.some_inj.mp hd]

theorem ends_cons (h : isNumberChar c = false) : Ends (c :: cs) := forall_head h

theorem ends_nil : Ends [] := nofun

theorem ident_ends (h : Ends cs) : ∀ c ∈ cs.head?, isIdentChar c = false := by
  intro c hc
  exact (Bool.or_eq_false_iff.mp (h c hc)).1

theorem isIdent_append {x y : Name} (hx : isIdent x = true) (hy : y.all isIdentChar = true) :
    isIdent (x ++ y) = true := by
  cases x with
  | nil => exact nomatch hx
  | cons c x =>
    rw [isIdent, Bool.and_eq_true] at hx
    rw [List.cons_append, isIdent, List.all_append, hx.1, hx.2, hy]
    rfl

theorem all_of_isIdent {x : Name} (h : isIdent x = true) : x.all isIdentChar = true := by
  cases x with
  | nil => rfl
  | cons c x =>
    rw [isIdent, Bool.and_eq_true] at h
    rw [List.all_cons, isIdentChar_of_isIdentStart h.1, h.2]
    rfl

theorem head_of_isIdent {x : Name} (h : isIdent x = true) :
    ∃ c cs, x = c :: cs ∧ isIdentStart c = true := by
  cases x with
  | nil => exact nomatch h
  | cons c x =>
    rw [isIdent, Bool.and_eq_true] at h
    exact ⟨c, x, rfl, h.1⟩

end Characters

section Names

variable {driver : DriverNames}

variable (driver) in
theorem isIdent_resolveFunction (fn : Ident) : isIdent (resolveFunction driver fn) = true := by
  rw [resolveFunction]
  split
  · apply isIdent_append driver.name.property
    rw [List.all_cons, all_of_isIdent fn.property]
    rfl
  · exact fn.property

theorem castType_some {ty : Ident} {t : TypeName} (h : castType driver ty = some t) :
    ty ∉ driver.regNames ∧ isIdent t.base = true ∧
      getType ty.val = t.base ++ List.replicate t.stars '*' := by
  rw [castType] at h
  split at h
  · next hty =>
    rw [← Option.some_inj.mp h]
    refine ⟨hty.1, hty.2.1, ?_⟩
    rw [← hty.2.2, List.takeWhile_append_dropWhile]
  · exact nomatch h

variable {rest : List Char} {ts : List Token}

theorem lexes_stars (n : Nat) (hrest : ∀ c ∈ rest.head?, pair '*' c = none) (h : Lexes rest ts) :
    Lexes (List.replicate n '*' ++ rest) (List.replicate n (.op .mul) ++ ts) := by
  induction n with
  | zero => exact h
  | succ n ih =>
    rw [List.replicate_succ, List.replicate_succ]
    apply lexes_single rfl _ ih
    cases n with
    | zero => exact hrest
    | succ n => exact forall_head rfl

theorem lexes_type {t : TypeName} (ht : isIdent t.base = true)
    (hrest : ∀ c ∈ rest.head?, isIdentChar c = false ∧ pair '*' c = none) (h : Lexes rest ts) :
    Lexes (t.base ++ List.replicate t.stars '*' ++ rest) (t.tokens ++ ts) := by
  rw [List.append_assoc]
  apply lexes_ident ht _ (lexes_stars t.stars (fun c hc => (hrest c hc).2) h)
  cases t.stars with
  | zero => exact fun c hc => (hrest c hc).1
  | succ n => exact forall_head rfl

theorem lexes_register (reg : Ident)
    (hends : ∀ c ∈ rest.head?, isIdentChar c = false) (h : Lexes rest ts) :
    Lexes (drvName ++ ['-', '>', 'r', '_'] ++ reg.val ++ rest)
      (print (registerTree reg) ++ ts) := by
  have hreg : isIdent (['r', '_'] ++ reg.val) = true :=
    isIdent_append (by decide) (all_of_isIdent reg.property)
  have harrow := lexes_pair (c := '-') (d := '>') rfl (lexes_ident hreg hends h)
  have hdrv := lexes_ident (x := drvName) (by decide) (forall_head rfl) harrow
  rw [List.append_assoc]
  exact hdrv

end Names

section Spelling

variable {driver : DriverNames}

/-- What is visited is spelled by its text, whatever comes behind it. -/
structure SpelledAs (e : PyExpr) (out : Visited) (tree : CExpr) : Prop where
  code : out.isCode = isCode e
  head : ∃ c cs, out.text = c :: cs ∧ starts c = true ∧ (c = '&' → leadsAmp e = true)
  lexes : ∀ rest ts, Ends rest → Lexes rest ts → Lexes (out.text ++ rest) (print tree ++ ts)

variable (driver) in
def Spelled (e : PyExpr) : Prop :=
  ∃ out tree, visit driver e = .ok out ∧ written driver e = some tree ∧ SpelledAs e out tree

theorem head_ident {e : PyExpr} {x : Name} (hx : isIdent x = true) (s : Text) :
    ∃ c cs, x ++ s = c :: cs ∧ starts c = true ∧ (c = '&' → leadsAmp e = true) := by
  obtain ⟨c, cs, rfl, hc⟩ := head_of_isIdent hx
  refine ⟨c, cs ++ s, rfl, starts_of_isIdentStart hc, ?_⟩
  rintro rfl
  exact absurd hc (by decide)

theorem spelled_name (id : Ident) : Spelled driver (.name id) := by
  refine ⟨_, _, rfl, rfl, rfl, ?_, fun rest ts hends h => ?_⟩
  · rw [Visited.text, visitName]
    split
    · exact head_ident (x := drvName) rfl _
    · simpa using head_ident (e := .name id) id.property []
  · rw [Visited.text, visitName, nameTree]
    split
    · have hvalue := lexes_ident (x := "value".toList) (by decide) (ident_ends hends) h
      have harrow := lexes_pair (c := '-') (d := '>') rfl hvalue
      have hreg := lexes_register id (forall_head (by decide)) harrow
      rw [print, List.append_assoc, List.append_assoc]
      exact hreg
    · exact lexes_ident id.property (ident_ends hends) h

theorem spelled_constant (value : Nat) : Spelled driver (.constant value) := by
  refine ⟨_, _, rfl, rfl, rfl, ?_, fun rest ts hends h => lexes_num value hends h⟩
  obtain ⟨c, cs, hcs⟩ := List.exists_cons_of_ne_nil (Nat.toDigits_ne_nil (n := value) (b := 10))
  have hc : c.isDigit = true :=
    Nat.isDigit_of_mem_toDigits (b := 10) (by decide) (by decide) (hcs ▸ List.mem_cons_self)
  refine ⟨c, cs, hcs, ?_, ?_⟩
  · rw [starts, hc, Bool.or_true]
    rfl
  · rintro rfl
    exact absurd hc (by decide)

theorem spelled_field (id attr : Ident) : Spelled driver (.field (.name id) attr) := by
  by_cases hreg : id ∈ driver.regNames
  · refine ⟨_, _, if_pos hreg, if_pos hreg, rfl, head_ident (x := drvName) rfl _, ?_⟩
    intro rest ts hends h
    have hattr : isIdent (['f', '_'] ++ attr.val) = true :=
      isIdent_append (by decide) (all_of_isIdent attr.property)
    have harrow := lexes_pair (c := '-') (d := '>') rfl (lexes_ident hattr (ident_ends hends) h)
    have hfield := lexes_register id (forall_head (by decide)) harrow
    rw [print, List.append_assoc]
    simpa [Visited.text, List.append_assoc] using hfield
  · refine ⟨_, _, if_neg hreg, if_neg hreg, rfl, head_ident id.property _, ?_⟩
    intro rest ts hends h
    have hattr := lexes_ident attr.property (ident_ends hends) h
    have hnext : ∀ d ∈ (attr.val ++ rest).head?, pair '.' d = none := by
      obtain ⟨c, cs, hc, hstart⟩ := head_of_isIdent attr.property
      rw [hc]
      exact forall_head (pair_of_starts (starts_of_isIdentStart hstart) fun _ => by decide)
    have hdot := lexes_single (c := '.') rfl hnext hattr
    have hfield := lexes_ident id.property (forall_head rfl) hdot
    rw [print, Visited.text, List.append_assoc]
    exact hfield

theorem Spelled.operand {e : PyExpr} {out : Visited} {tree : CExpr} (h : SpelledAs e out tree)
    {c : Char} {t : Token} (hc : single c = some t) (hamp : c = '&' → leadsAmp e = false)
    {rest : Text} {ts : List Token} (hends : Ends rest) (hrest : Lexes rest ts) :
    Lexes (c :: (out.text ++ rest)) (t :: (print tree ++ ts)) := by
  apply lexes_single hc _ (h.lexes rest ts hends hrest)
  obtain ⟨d, cs, hd, hstart, hlead⟩ := h.head
  rw [hd]
  apply forall_head
  apply pair_of_starts hstart
  rintro rfl rfl
  exact Bool.false_ne_true ((hamp rfl).symm.trans (hlead rfl))

theorem spelled_not {e : PyExpr} (h : Spelled driver e) : Spelled driver (.notOp e) := by
  obtain ⟨out, tree, hvisit, htree, hspelled⟩ := h
  refine ⟨.str ('!' :: out.text), .lnot tree, ?_, ?_, rfl,
    ⟨_, _, rfl, rfl, fun h => absurd h (by decide)⟩, ?_⟩
  · rw [visit, hvisit]
    rfl
  · rw [written] at htree
    rw [written, treeWith, htree]
    rfl
  · intro rest ts hends hrest
    exact Spelled.operand hspelled rfl (fun h => absurd h (by decide)) hends hrest

theorem spelled_arith {left right : PyExpr} {op : ArithOp} (hl : Spelled driver left)
    (hr : Spelled driver right) : Spelled driver (.binOp left op right) := by
  obtain ⟨lhs, l, hvisitl, htreel, hl⟩ := hl
  obtain ⟨rhs, r, hvisitr, htreer, hr⟩ := hr
  refine ⟨.str (lhs.text ++ op.text ++ rhs.text), .binary (ArithOp.binOp op) l r,
    ?_, ?_, rfl, ?_, ?_⟩
  · rw [visit, hvisitl, hvisitr]
    rfl
  · rw [written] at htreel htreer
    rw [written, treeWith, htreel, htreer]
    rfl
  · obtain ⟨c, cs, hc, hstart, hlead⟩ := hl.head
    refine ⟨c, cs ++ op.text ++ rhs.text, ?_, hstart, hlead⟩
    rw [Visited.text, hc]
    rfl
  · intro rest ts hends hrest
    have hop : Lexes (op.text ++ (rhs.text ++ rest))
        (.op (ArithOp.binOp op) :: (print r ++ ts)) := by
      cases op <;>
        exact Spelled.operand hr rfl (fun h => absurd h (by decide)) hends hrest
    have hlhs := hl.lexes _ _ (by cases op <;> exact ends_cons rfl) hop
    rw [print, Visited.text, List.append_assoc, List.append_assoc, List.append_assoc]
    exact hlhs

theorem spelled_compare {left right : PyExpr} {op : CmpOp} (hl : Spelled driver left)
    (hr : Spelled driver right) : Spelled driver (.compare left op right) := by
  obtain ⟨lhs, l, hvisitl, htreel, hl⟩ := hl
  obtain ⟨rhs, r, hvisitr, htreer, hr⟩ := hr
  refine ⟨.str (lhs.text ++ ' ' :: op.text ++ ' ' :: rhs.text), .binary (CmpOp.binOp op) l r,
    ?_, ?_, rfl, ?_, ?_⟩
  · rw [visit, hvisitl, hvisitr]
    rfl
  · rw [written] at htreel htreer
    rw [written, treeWith, htreel, htreer]
    rfl
  · obtain ⟨c, cs, hc, hstart, hlead⟩ := hl.head
    refine ⟨c, cs ++ ' ' :: op.text ++ ' ' :: rhs.text, ?_, hstart, hlead⟩
    rw [Visited.text, hc]
    rfl
  · intro rest ts hends hrest
    have hrhs := (hr.lexes rest ts hends hrest).blank
    have hop : Lexes (op.text ++ ' ' :: (rhs.text ++ rest))
        (.op (CmpOp.binOp op) :: (print r ++ ts)) := by
      cases op with
      | lt => exact lexes_single rfl (forall_head rfl) hrhs
      | gt => exact lexes_single rfl (forall_head rfl) hrhs
      | eq => exact lexes_pair rfl hrhs
    have hlhs := hl.lexes _ _ (ends_cons rfl) hop.blank
    rw [print, Visited.text, List.append_assoc, List.append_assoc, List.append_assoc]
    exact hlhs

theorem spelled_subscript (id : Ident) {slice : PyExpr} (h : Spelled driver slice) :
    Spelled driver (.subscript (.name id) slice) := by
  obtain ⟨out, tree, hvisit, htree, hspelled⟩ := h
  refine ⟨.str (id.val ++ '[' :: out.text ++ [']']), .index (.ident id.val) tree, ?_, ?_, rfl,
    ?_, ?_⟩
  · rw [visit, hvisit]
    rfl
  · rw [written] at htree
    rw [written, treeWith, htree]
    rfl
  · rw [Visited.text, List.append_assoc]
    exact head_ident id.property _
  · intro rest ts hends hrest
    have hclose : Lexes (']' :: rest) (.rbrack :: ts) :=
      lexes_single rfl (fun _ _ => pair_of_notMem (by decide)) hrest
    have hslice := hspelled.lexes _ _ (ends_cons rfl) hclose
    have hopen := lexes_single (c := '[') rfl (fun _ _ => pair_of_notMem (by decide)) hslice
    have hid := lexes_ident id.property (forall_head rfl) hopen
    simpa [print, Visited.text, List.append_assoc] using hid

section Arguments

variable {es : List PyExpr}

/-- Texts with a comma before each. -/
def afterCommas (ss : List Text) : Text := (ss.map ([',', ' '] ++ ·)).flatten

theorem intercalate_cons (s : Text) (ss : List Text) :
    List.intercalate [',', ' '] (s :: ss) = s ++ afterCommas ss := by
  induction ss generalizing s with
  | nil => simp [List.intercalate, afterCommas]
  | cons u ss ih =>
    have hrest := ih u
    simp only [List.intercalate, List.intersperse_cons_cons, List.flatten_cons] at hrest ⊢
    rw [hrest]
    simp [afterCommas]

theorem ends_afterCommas {rest : Text} (h : Ends rest) (ss : List Text) :
    Ends (afterCommas ss ++ rest) := by
  cases ss with
  | nil => exact h
  | cons s ss => exact ends_cons rfl

variable (driver) in
/-- What the arguments of a call are visited as. -/
structure SpelledAll (es : List PyExpr) (vs : List Visited) (trees : List CExpr)
    (ss : List Text) : Prop where
  visited : visitAll driver es = .ok vs
  written : treesWith driver .paren es = some trees
  texts : texts vs = .ok ss
  lexes : ∀ rest ts, Ends rest → Lexes rest ts →
    Lexes (afterCommas ss ++ rest) (printRest trees ++ ts)

theorem spelledAll (h : ∀ e ∈ es, Spelled driver e) (hcode : ∀ e ∈ es, isCode e = false) :
    ∃ vs trees ss, SpelledAll driver es vs trees ss := by
  induction es with
  | nil => exact ⟨[], [], [], rfl, rfl, rfl, fun rest ts _ hrest => hrest⟩
  | cons e es ih =>
    obtain ⟨vs, trees, ss, hvs⟩ := ih (fun e he => h e (List.mem_cons_of_mem _ he))
      fun e he => hcode e (List.mem_cons_of_mem _ he)
    obtain ⟨out, tree, hvisit, htree, hspelled⟩ := h e List.mem_cons_self
    have hstr := hspelled.code.trans (hcode e List.mem_cons_self)
    cases out with
    | code text => exact nomatch hstr
    | str text =>
      refine ⟨.str text :: vs, tree :: trees, text :: ss, ?_, ?_, ?_, fun rest ts hends hrest => ?_⟩
      · rw [visitAll, hvisit, hvs.visited]
        rfl
      · rw [Expressions.written] at htree
        rw [treesWith, htree, hvs.written]
        rfl
      · rw [Umd.texts, hvs.texts]
        rfl
      · have htail := hvs.lexes rest ts hends hrest
        have htext := (hspelled.lexes _ _ (ends_afterCommas hends ss) htail).blank
        have hcomma := lexes_single (c := ',') rfl (forall_head rfl) htext
        simpa [afterCommas, printRest, Visited.text] using hcomma

variable {vs : List Visited} {trees : List CExpr} {ss : List Text}

theorem join_cons (hvs : SpelledAll driver es vs trees ss) (s : Text) :
    join (.str s :: vs) = .ok (s ++ afterCommas ss) := by
  rw [join, Umd.texts, hvs.texts]
  exact congrArg Except.ok (intercalate_cons s ss)

theorem lexes_cons (hvs : SpelledAll driver es vs trees ss) {s : Text} {tree : CExpr}
    (hs : ∀ rest ts, Ends rest → Lexes rest ts → Lexes (s ++ rest) (print tree ++ ts))
    {rest : Text} {ts : List Token} (hends : Ends rest) (hrest : Lexes rest ts) :
    Lexes (s ++ afterCommas ss ++ rest) ((printRest (tree :: trees)).tail ++ ts) := by
  have htail := hs _ _ (ends_afterCommas hends ss) (hvs.lexes rest ts hends hrest)
  simpa [printRest] using htail

theorem spelled_join (h : ∀ e ∈ es, Spelled driver e) (hcode : ∀ e ∈ es, isCode e = false) :
    ∃ vs trees s, visitAll driver es = .ok vs ∧ treesWith driver .paren es = some trees ∧
      join vs = .ok s ∧ ∀ rest ts, Ends rest → Lexes rest ts →
        Lexes (s ++ rest) ((printRest trees).tail ++ ts) := by
  cases es with
  | nil => exact ⟨[], [], [], rfl, rfl, rfl, fun rest ts _ hrest => hrest⟩
  | cons e es =>
    obtain ⟨vs, trees, ss, hvs⟩ := spelledAll (fun e he => h e (List.mem_cons_of_mem _ he))
      fun e he => hcode e (List.mem_cons_of_mem _ he)
    obtain ⟨out, tree, hvisit, htree, hspelled⟩ := h e List.mem_cons_self
    have hstr := hspelled.code.trans (hcode e List.mem_cons_self)
    cases out with
    | code text => exact nomatch hstr
    | str text =>
      refine ⟨.str text :: vs, tree :: trees, _, ?_, ?_, join_cons hvs text,
        fun rest ts hends hrest => lexes_cons hvs hspelled.lexes hends hrest⟩
      · rw [visitAll, hvisit, hvs.visited]
        rfl
      · rw [Expressions.written] at htree
        rw [treesWith, htree, hvs.written]
        rfl

theorem spelled_join_drv (h : ∀ e ∈ es, Spelled driver e) (hcode : ∀ e ∈ es, isCode e = false) :
    ∃ vs trees s, visitAll driver es = .ok vs ∧ treesWith driver .paren es = some trees ∧
      join (.str drvName :: vs) = .ok s ∧ ∀ rest ts, Ends rest → Lexes rest ts →
        Lexes (s ++ rest) ((printRest (.ident drvName :: trees)).tail ++ ts) := by
  obtain ⟨vs, trees, ss, hvs⟩ := spelledAll h hcode
  exact ⟨vs, trees, _, hvs.visited, hvs.written, join_cons hvs drvName,
    fun rest ts hends hrest => lexes_cons hvs
      (fun rest ts hends hrest => lexes_ident (by decide) (ident_ends hends) hrest) hends hrest⟩

theorem spelled_call {id : Ident} (hid : id.val ≠ refName) (h : ∀ e ∈ es, Spelled driver e)
    (hcode : ∀ e ∈ es, isCode e = false) : Spelled driver (.call (.name id) es) := by
  obtain ⟨vs, trees, s, hvs, htrees, hjoin, hlex⟩ : ∃ vs trees s, visitAll driver es = .ok vs ∧
      treesWith driver .paren es = some trees ∧
      join (if passesDrv driver (resolveFunction driver id) then .str drvName :: vs else vs) =
        .ok s ∧ ∀ rest ts, Ends rest → Lexes rest ts → Lexes (s ++ rest) ((printRest
          (if passesDrv driver (resolveFunction driver id) then .ident drvName :: trees
            else trees)).tail ++ ts) := by
    by_cases hdrv : passesDrv driver (resolveFunction driver id) = true
    · simp only [hdrv, if_true]
      exact spelled_join_drv h hcode
    · simp only [hdrv]
      exact spelled_join h hcode
  refine ⟨.code (resolveFunction driver id ++ '(' :: s ++ [')']), .call (.ident
    (resolveFunction driver id)) (if passesDrv driver (resolveFunction driver id) then
      .ident drvName :: trees else trees), ?_, ?_, ?_, ?_, ?_⟩
  · simp only [visit, hvs, visitCall, if_neg hid, bind, Except.bind, hjoin]
    rfl
  · rw [Expressions.written, treeWith, htrees]
    exact if_neg hid
  · exact (bne_iff_ne.mpr hid).symm
  · rw [Visited.text, List.append_assoc]
    exact head_ident (isIdent_resolveFunction driver id) _
  · intro rest ts hends hrest
    have hclose : Lexes (')' :: rest) (.rparen :: ts) :=
      lexes_single rfl (fun _ _ => pair_of_notMem (by decide)) hrest
    have hargs := hlex _ _ (ends_cons rfl) hclose
    have hopen := lexes_single (c := '(') rfl (fun _ _ => pair_of_notMem (by decide)) hargs
    have hfn := lexes_ident (isIdent_resolveFunction driver id) (forall_head rfl) hopen
    simpa [print, Visited.text, List.append_assoc] using hfn

theorem spelled_ref {id : Ident} (hid : id.val = refName) {e : PyExpr} (h : Spelled driver e)
    (hlead : leadsAmp e = false) : Spelled driver (.call (.name id) [e]) := by
  obtain ⟨out, tree, hvisit, htree, hspelled⟩ := h
  have hcode : isCode (.call (.name id) [e]) = false := by
    rw [isCode, hid]
    rfl
  have hleads : leadsAmp (.call (.name id) [e]) = true := by
    rw [leadsAmp, hid]
    rfl
  refine ⟨.str ('&' :: out.text), .addr tree, ?_, ?_, hcode.symm,
    ⟨_, _, rfl, rfl, fun _ => hleads⟩, ?_⟩
  · rw [visit, visitAll, hvisit]
    exact if_pos hid
  · rw [Expressions.written] at htree
    rw [Expressions.written, treeWith, treesWith, htree]
    exact if_pos hid
  · intro rest ts hends hrest
    exact Spelled.operand hspelled rfl (fun _ => hlead) hends hrest

theorem spelled_cast {id ty : Ident} (hid : id.val = refName) {e : PyExpr}
    (h : Spelled driver e) {t : TypeName} (ht : castType driver ty = some t) :
    Spelled driver (.call (.name id) [e, .name ty]) := by
  obtain ⟨out, tree, hvisit, htree, hspelled⟩ := h
  obtain ⟨hreg, hbase, htext⟩ := castType_some ht
  have hcode : isCode (.call (.name id) [e, .name ty]) = false := by
    rw [isCode, hid]
    rfl
  refine ⟨.str ('(' :: getType ty.val ++ [')', '&', '('] ++ out.text ++ [')']),
    .cast t (.addr (.paren tree)), ?_, ?_, hcode.symm,
    ⟨_, _, rfl, rfl, fun h => absurd h (by decide)⟩, ?_⟩
  · have hname : visit driver (.name ty) = .ok (.str ty.val) := by
      rw [visit, visitName, if_neg hreg]
    have hne : ty.val.isEmpty = false := by
      obtain ⟨c, cs, hty, -⟩ := head_of_isIdent ty.property
      rw [hty]
      rfl
    rw [visit, visitAll, visitAll, hvisit, hname]
    refine (if_pos hid).trans ?_
    rw [ref, hne]
    rfl
  · rw [Expressions.written] at htree
    rw [Expressions.written, treeWith, treesWith, treesWith, htree]
    refine (if_pos hid).trans ?_
    rw [refTree, ht]
    rfl
  · intro rest ts hends hrest
    have hclose : Lexes (')' :: rest) (.rparen :: ts) :=
      lexes_single rfl (fun _ _ => pair_of_notMem (by decide)) hrest
    have hgroup := hspelled.lexes _ _ (ends_cons rfl) hclose
    have hopen := lexes_single (c := '(') rfl (fun _ _ => pair_of_notMem (by decide)) hgroup
    have hamp := lexes_single (c := '&') rfl (forall_head rfl) hopen
    have hcast := lexes_single (c := ')') rfl (fun _ _ => pair_of_notMem (by decide)) hamp
    have htype := lexes_type hbase (forall_head ⟨rfl, rfl⟩) hcast
    have hparen := lexes_single (c := '(') rfl (fun _ _ => pair_of_notMem (by decide)) htype
    rw [← htext] at hparen
    simpa [print, Visited.text, List.append_assoc] using hparen

end Arguments

theorem mem_of_plainAll {es : List PyExpr} : plainAll driver es = true ↔
    ∀ e ∈ es, plain driver e = true := by
  induction es with
  | nil => exact ⟨fun _ => nofun, fun _ => rfl⟩
  | cons e es ih => rw [plainAll, Bool.and_eq_true, ih, List.forall_mem_cons]

theorem spelled_of_plain {e : PyExpr} (h : plain driver e = true) : Spelled driver e := by
  induction e using expr_induct with
  | name id => exact spelled_name id
  | constant value => exact spelled_constant value
  | field value attr _ =>
    cases value with
    | name id => exact spelled_field id attr
    | _ => exact nomatch h
  | call func args _ ih =>
    rw [plain, Bool.and_eq_true, mem_of_plainAll] at h
    obtain ⟨hcall, hargs⟩ := h
    have hspelled (e : PyExpr) (he : e ∈ args) : Spelled driver e := ih e he (hargs e he)
    cases func with
    | name id =>
      by_cases hid : id.val = refName
      · rw [plainCall, if_pos hid] at hcall
        unfold plainRef at hcall
        split at hcall
        · next e =>
          exact spelled_ref hid (hspelled e List.mem_cons_self) (by simpa using hcall)
        · next e ty =>
          obtain ⟨t, ht⟩ := Option.isSome_iff_exists.mp hcall
          exact spelled_cast hid (hspelled e List.mem_cons_self) ht
        · exact nomatch hcall
      · rw [plainCall, if_neg hid, List.all_eq_true] at hcall
        exact spelled_call hid hspelled fun e he => by simpa using hcall e he
    | _ => exact nomatch hcall
  | subscript value slice _ ih =>
    rw [plain, Bool.and_eq_true] at h
    cases value with
    | name id => exact spelled_subscript id (ih h.2)
    | _ => exact nomatch h.1
  | binOp left op right ihl ihr =>
    rw [plain, Bool.and_eq_true] at h
    exact spelled_arith (ihl h.1) (ihr h.2)
  | compare left op right ihl ihr =>
    rw [plain, Bool.and_eq_true] at h
    exact spelled_compare (ihl h.1) (ihr h.2)
  | notOp operand ih => exact spelled_not (ih h)

end Spelling

end OpaeLibs.Ofs.ExpressionTexts
