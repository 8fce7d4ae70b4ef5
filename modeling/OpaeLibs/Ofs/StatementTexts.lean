import OpaeLibs.Ofs.StatementScopes

namespace OpaeLibs.Ofs.StatementTexts

open OpaeLibs.Lib.CGrammar OpaeLibs.Lib.CLexer OpaeLibs.Lib.CEvaluation OpaeLibs.Lib.CStatements
open OpaeLibs.Lib.CAgreement OpaeLibs.Lib.Outcomes OpaeLibs.Ofs.Umd OpaeLibs.Ofs.Expressions
open OpaeLibs.Ofs.ExpressionTexts OpaeLibs.Ofs.Grouping OpaeLibs.Ofs.Statements
open OpaeLibs.Ofs.StatementMeaning OpaeLibs.Ofs.StatementScopes

section Reading

variable (kind : Name → NameKind)

def ReadsExpr (text : Text) (e : CExpr) : Prop := ∃ ts, lex text = some ts ∧ Parses kind ts e

def isPlace : CExpr → Bool
  | .ident _ => true
  | .index _ _ => true
  | .member _ _ => true
  | .arrow _ _ => true
  | _ => false

/-- The operators that there are assignments with. -/
def assigns (o : BinOp) : Bool :=
  o ∈ [.mul, .div, .mod, .add, .sub, .shl, .shr, .band, .bxor, .bor]

/-- The declaration of a name: a type, its stars, the name and, for an array, its size. -/
inductive ReadsDecl : Text → TypeName → Name → Option CExpr → Prop
  | name {text t x} : lex text = some (t.tokens ++ [.ident x]) → kind t.base = .type →
      kind x = .value → ReadsDecl text t x none
  | array {text base x ts size} :
      lex text = some (.ident base :: .ident x :: .lbrack :: (ts ++ [.rbrack])) →
      kind base = .type → kind x = .value → Parses kind ts size →
      ReadsDecl text ⟨base, 0⟩ x (some size)

inductive ReadsSimple : Text → CStmt → Prop
  | expr {text e} : ReadsExpr kind text e → ReadsSimple text (.expr e)
  | assign {l r el er} : ReadsExpr kind l el → isPlace el = true → ReadsExpr kind r er →
      ReadsSimple (l ++ " = ".toList ++ r) (.assign el er)
  | opAssign {l op r o el er} : ReadsExpr kind l el → isPlace el = true →
      lex op = some [.op o] → assigns o = true → ReadsExpr kind r er →
      ReadsSimple (l ++ ' ' :: op ++ "= ".toList ++ r) (.opAssign o el er)
  | decl {text t x size} : ReadsDecl kind text t x size → ReadsSimple text (.decl t x size none)
  | initDecl {text t x r e} : ReadsDecl kind text t x none → ReadsExpr kind r e →
      ReadsSimple (text ++ " = ".toList ++ r) (.decl t x none (some e))
  | ret {r e} : ReadsExpr kind r e → ReadsSimple ("return ".toList ++ r) (.ret (some e))

/-- Lines are read as statements. -/
inductive ReadsLines : List Text → List CStmt → Prop
  | nil : ReadsLines [] []
  | simple (indent : Nat) {text c lines cs} : ReadsSimple kind text c → ReadsLines lines cs →
      ReadsLines ((tabs indent ++ text ++ [';']) :: lines) (c :: cs)
  | ifStmt (indent : Nat) {test e body cBody lines cs} : ReadsExpr kind test e →
      ReadsLines body cBody → ReadsLines lines cs →
      ReadsLines ((tabs indent ++ ("if (".toList ++ test ++ [')']) ++ [' ', '{']) ::
        (body ++ (tabs indent ++ ['}']) :: lines)) (.ifStmt e cBody :: cs)
  | whileStmt (indent : Nat) {test e body cBody lines cs} : ReadsExpr kind test e →
      ReadsLines body cBody → ReadsLines lines cs →
      ReadsLines ((tabs indent ++ ("while (".toList ++ test ++ [')']) ++ [' ', '{']) ::
        (body ++ (tabs indent ++ ['}']) :: lines)) (.whileStmt e cBody :: cs)
  | forStmt (indent : Nat) {x start test e e' body cBody lines cs} : ReadsExpr kind x (.ident x) →
      ReadsExpr kind start e → ReadsExpr kind test e' →
      ReadsLines body cBody → ReadsLines lines cs →
      ReadsLines ((tabs indent ++ ("for (".toList ++ x ++ " = ".toList ++ start ++ "; ".toList ++
        test ++ "; ".toList ++ x ++ "++)".toList) ++ [' ', '{']) ::
        (body ++ (tabs indent ++ ['}']) :: lines)) (.forStmt x e e' cBody :: cs)

end Reading

variable {driver : DriverNames} {kind : Name → NameKind}

section Expressions

theorem reads_legible {e : PyExpr} (h : Legible driver kind e) :
    ∃ out, visit driver e = .ok out ∧ ReadsExpr kind out.text (tree driver e) := by
  obtain ⟨hplain, w, hw, hlevel⟩ := h
  obtain ⟨out, e', ts, hvisit, htree, hlex, hparses⟩ := preserves_of_atLevel hplain hw hlevel
  refine ⟨out, hvisit, ts, hlex, ?_⟩
  rw [tree, htree]
  exact hparses

theorem isPlace_nameTree (x : Ident) : isPlace (nameTree driver x) = true := by
  rw [nameTree]
  split <;> rfl

theorem isPlace_target {target : Target} (h : Legible driver kind target.expr) :
    isPlace (tree driver target.expr) = true := by
  have htree := operations_of_legible h
  obtain ⟨hplain, -⟩ := h
  revert htree
  generalize tree driver target.expr = l
  intro htree
  cases target with
  | name id =>
    rw [← Option.some.inj htree]
    exact isPlace_nameTree id
  | field value attr =>
    cases value with
    | name id =>
      rw [operations, Target.expr, treeWith, fieldTree] at htree
      split at htree <;> (rw [← Option.some.inj htree]; rfl)
    | _ => cases hplain
  | subscript value slice =>
    obtain ⟨e, -, htree⟩ := Option.bind_eq_some_iff.mp htree
    obtain ⟨i, -, htree⟩ := Option.bind_eq_some_iff.mp htree
    rw [← Option.some.inj htree]
    rfl

theorem lex_arithOp (op : ArithOp) : lex op.text = some [.op (ArithOp.binOp op)] := by
  cases op <;> decide

theorem assigns_arithOp (op : ArithOp) : assigns (ArithOp.binOp op) = true := by
  cases op <;> rfl

theorem lexes_name (x : Ident) : Lexes x.val [.ident x.val] := by
  have h : Lexes (x.val ++ []) [.ident x.val] := lexes_ident x.property nofun lexes_nil
  rwa [List.append_nil] at h

theorem reads_ident {x : Ident} (h : kind x.val = .value) :
    ReadsExpr kind x.val (.ident x.val) :=
  ⟨_, lex_eq (lexes_name x), .ident x.val, rfl, h, rfl⟩

theorem reads_zero : ReadsExpr kind ['0'] (.num 0) :=
  ⟨[.num 0], by decide, .num 0, rfl, trivial, rfl⟩

end Expressions

section Declarations

theorem typeNamed_some {text : Text} {t : TypeName} (h : typeNamed text = some t) :
    isIdent t.base = true ∧ text = t.base ++ List.replicate t.stars '*' := by
  rw [typeNamed] at h
  split at h
  · next htext =>
    rw [← Option.some_inj.mp h]
    refine ⟨htext.1, ?_⟩
    rw [← htext.2, List.takeWhile_append_dropWhile]
  · exact nomatch h

theorem pair_star_ident {x : Ident} : ∀ c ∈ x.val.head?, pair '*' c = none := by
  obtain ⟨c, cs, hx, hc⟩ := head_of_isIdent x.property
  rw [hx]
  apply forall_head
  exact pair_of_starts (starts_of_isIdentStart hc) fun _ => by decide

variable (driver) in
theorem reads_decl {x : Ident} {annot : Annot} (hx : kind x.val = .value)
    (h : Declares kind annot) :
    ∃ t size, Annot.declared driver annot = some (t, size) ∧
      ReadsDecl kind (declText x annot) t x.val size ∧
      (size.isSome = isArray annot) := by
  cases annot with
  | name ty =>
    obtain ⟨t, ht, hkind⟩ := h
    obtain ⟨hbase, htext⟩ := typeNamed_some ht
    refine ⟨t, none, by rw [Annot.declared, ht]; rfl, .name ?_ hkind hx, rfl⟩
    rw [declText, htext]
    exact lex_eq (lexes_type hbase (forall_head ⟨by decide, by decide⟩) (lexes_name x).blank)
  | ptr ty =>
    refine ⟨⟨ty.val, 1⟩, none, rfl, .name ?_ h hx, rfl⟩
    have hstar := (lexes_single (c := '*') rfl pair_star_ident (lexes_name x)).blank
    exact lex_eq (lexes_ident ty.property (forall_head rfl) hstar)
  | array ty size =>
    have hclose : Lexes [']'] [.rbrack] := lexes_single rfl (fun _ h => by cases h) lexes_nil
    have hsize := lexes_num size (ends_cons rfl) hclose
    have hopen := lexes_single (c := '[') rfl (fun _ _ => pair_of_notMem (by decide)) hsize
    have hname := (lexes_ident x.property (forall_head rfl) hopen).blank
    have hlex : lex (declText x (.array ty size)) =
        some (.ident ty.val :: .ident x.val :: .lbrack :: ([.num size] ++ [.rbrack])) := by
      simpa [declText] using lex_eq (lexes_ident ty.property (forall_head rfl) hname)
    exact ⟨⟨ty.val, 0⟩, some (.num size), rfl,
      .array hlex h hx ⟨.num size, rfl, trivial, rfl⟩, rfl⟩
  | arrayOf ty size => exact absurd h id

end Declarations

section Lines

/-- A node is written as lines that are read as a statement, whatever lines follow. -/
def Writes (driver : DriverNames) (kind : Name → NameKind) (node : CNode) (c : CStmt) : Prop :=
  ∀ indent, ∃ lines, writeNode driver indent node = .ok lines ∧
    ∀ rest cs, ReadsLines kind rest cs → ReadsLines kind (lines ++ rest) (c :: cs)

def WritesAll (driver : DriverNames) (kind : Name → NameKind) (nodes : List CNode)
    (cs : List CStmt) : Prop :=
  ∀ indent, ∃ lines, writeBody driver indent nodes = .ok lines ∧ ReadsLines kind lines cs

theorem writes_code {text : Text} {c : CStmt} (h : ReadsSimple kind text c) :
    Writes driver kind (.code text) c :=
  fun indent => ⟨_, rfl, fun _ _ hrest => .simple indent h hrest⟩

variable {nodes : List CNode} {cs : List CStmt} {test : Text} {e : CExpr}

theorem writes_if (ht : ReadsExpr kind test e) (h : WritesAll driver kind nodes cs) :
    Writes driver kind (.conditional "if".toList test nodes) (.ifStmt e cs) := by
  intro indent
  obtain ⟨lines, hlines, hreads⟩ := h (indent + 1)
  refine ⟨_, by rw [writeNode, hlines]; rfl, fun rest cs' hrest => ?_⟩
  have hif := ReadsLines.ifStmt indent ht hreads hrest
  simpa using hif

theorem writes_while (ht : ReadsExpr kind test e) (h : WritesAll driver kind nodes cs) :
    Writes driver kind (.conditional "while".toList test nodes) (.whileStmt e cs) := by
  intro indent
  obtain ⟨lines, hlines, hreads⟩ := h (indent + 1)
  refine ⟨_, by rw [writeNode, hlines]; rfl, fun rest cs' hrest => ?_⟩
  have hwhile := ReadsLines.whileStmt indent ht hreads hrest
  simpa using hwhile

theorem reads_test {x : Ident} {stop : PyExpr} (h : WrittenRange driver kind x stop) :
    ∃ out, visit driver stop = .ok out ∧ kind x.val = .value ∧
      ReadsExpr kind ('i' :: ' ' :: '<' :: ' ' :: out.text)
        (.binary .lt (.ident x.val) (tree driver stop)) := by
  have hname : nameTree driver x = .ident x.val := if_neg h.registers
  obtain ⟨out, hout, hreads⟩ := reads_legible h.legible
  have htree := operations_of_legible h.legible
  obtain ⟨-, w, hw, hlevel⟩ := h.legible
  obtain ⟨r, -, hw⟩ := Option.bind_eq_some_iff.mp hw
  rw [← Option.some.inj hw, hname] at hlevel
  obtain ⟨r, hr, htree⟩ := Option.bind_eq_some_iff.mp htree
  obtain ⟨rhs, hrhs, hout⟩ := except_bind_ok.mp hout
  refine ⟨rhs, hrhs, hlevel.2.1, ?_⟩
  rw [← Option.some.inj htree, hname, ← Except.ok.inj hout, visitName,
    if_neg h.registers] at hreads
  rw [tree, operations, hr, h.counter]
  rw [h.counter] at hreads
  exact hreads

theorem writes_for {range : Range} {start : Text} {e' : CExpr} {out : Visited}
    (hx : kind x.val = .value)
    (hheader : forHeader driver x range = .ok ("for (".toList ++ x.val ++ " = ".toList ++ start ++
      "; i < ".toList ++ out.text ++ "; ".toList ++ x.val ++ "++)".toList))
    (hstart : ReadsExpr kind start e)
    (htest : ReadsExpr kind ('i' :: ' ' :: '<' :: ' ' :: out.text) e')
    (h : WritesAll driver kind nodes cs) :
    Writes driver kind (.forBlock x range nodes) (.forStmt x.val e e' cs) := by
  intro indent
  obtain ⟨lines, hlines, hreads⟩ := h (indent + 1)
  refine ⟨_, by rw [writeNode, hheader, hlines]; rfl, fun rest cs' hrest => ?_⟩
  have hfor := ReadsLines.forStmt indent (reads_ident hx) hstart htest hreads hrest
  simpa using hfor

mutual

/-- A statement of which no part is lost is visited as a node that is written as it. -/
theorem visit_written : (stmt : PyStmt) → Written driver kind stmt →
    ∃ node, visitStmt driver stmt = .ok node ∧ Writes driver kind node (cStmt driver stmt)
  | .assign target more value, h => by
    obtain ⟨-, htarget, hvalue⟩ := h
    obtain ⟨lhs, hlhs, hl⟩ := reads_legible htarget
    obtain ⟨rhs, hrhs, hr⟩ := reads_legible hvalue
    refine ⟨_, by rw [visitStmt, hlhs, hrhs]; rfl, ?_⟩
    exact writes_code (.assign hl (isPlace_target htarget) hr)
  | .augAssign target op value, h => by
    obtain ⟨htarget, hvalue⟩ := h
    obtain ⟨lhs, hlhs, hl⟩ := reads_legible htarget
    obtain ⟨rhs, hrhs, hr⟩ := reads_legible hvalue
    refine ⟨_, by rw [visitStmt, hlhs, hrhs]; rfl, ?_⟩
    exact writes_code (.opAssign hl (isPlace_target htarget) (lex_arithOp op)
      (assigns_arithOp op) hr)
  | .annAssign x annot value, h => by
    have h : WrittenDecl driver kind x annot value := h
    obtain ⟨t, size, hdecl, hreads, hsize⟩ := reads_decl driver h.value_kind h.declares
    rw [cStmt, declOf, hdecl]
    cases value with
    | none => exact ⟨_, rfl, writes_code (.decl hreads)⟩
    | some e =>
      obtain ⟨rhs, hrhs, hr⟩ := reads_legible (h.legible e rfl)
      have hnone : size = none := by
        rw [← Option.not_isSome_iff_eq_none, hsize]
        exact fun harray => nomatch h.array harray
      subst hnone
      exact ⟨_, by rw [visitStmt, hrhs]; rfl, writes_code (.initDecl hreads hr)⟩
  | .ret value, h => by
    obtain ⟨e, rfl, hlegible⟩ := h
    obtain ⟨out, hout, hr⟩ := reads_legible hlegible
    exact ⟨_, by rw [visitStmt, hout]; rfl, writes_code (.ret hr)⟩
  | .expr value, h => by
    obtain ⟨hcode, hlegible⟩ := h
    obtain ⟨out, hout, hr⟩ := reads_legible hlegible
    refine ⟨_, by rw [visitStmt, hout]; rfl, ?_⟩
    have hout := (code_of_visit hout).trans hcode
    cases out with
    | str text => exact nomatch hout
    | code text => exact writes_code (.expr hr)
  | .ifStmt test body orelse, h => by
    obtain ⟨htest, hbody, -⟩ := h
    obtain ⟨out, hout, hr⟩ := reads_legible htest
    obtain ⟨nodes, hnodes, hwrites⟩ := visitAll_written body hbody
    exact ⟨_, by rw [visitStmt, hout, hnodes]; rfl, writes_if hr hwrites⟩
  | .whileStmt test body, h => by
    obtain ⟨htest, hbody⟩ := h
    obtain ⟨out, hout, hr⟩ := reads_legible htest
    obtain ⟨nodes, hnodes, hwrites⟩ := visitAll_written body hbody
    exact ⟨_, by rw [visitStmt, hout, hnodes]; rfl, writes_while hr hwrites⟩
  | .forRange x (.upTo stop) body, h => by
    obtain ⟨hrange, hbody⟩ := h
    obtain ⟨nodes, hnodes, hwrites⟩ := visitAll_written body hbody
    obtain ⟨out, hout, hx, htest⟩ := reads_test hrange
    refine ⟨_, by rw [visitStmt, hnodes]; rfl, ?_⟩
    refine writes_for hx ?_ reads_zero htest hwrites
    rw [forHeader, visitName, if_neg hrange.registers]
    simp only [hout]
    rfl
  | .forRange x (.fromTo start stop) body, h => by
    obtain ⟨hstart, hrange, hbody⟩ := h
    obtain ⟨nodes, hnodes, hwrites⟩ := visitAll_written body hbody
    obtain ⟨first, hfirst, hreads⟩ := reads_legible hstart
    obtain ⟨out, hout, hx, htest⟩ := reads_test hrange
    refine ⟨_, by rw [visitStmt, hnodes]; rfl, ?_⟩
    refine writes_for hx ?_ hreads htest hwrites
    rw [forHeader, visitName, if_neg hrange.registers]
    simp only [hfirst, hout]
    rfl
  | .forRange x (.stepped start stop step) body, h => absurd h id

theorem visitAll_written : (stmts : List PyStmt) → WrittenAll driver kind stmts →
    ∃ nodes, visitStmts driver stmts = .ok nodes ∧
      WritesAll driver kind nodes (cStmts driver stmts)
  | [], _ => ⟨[], rfl, fun _ => ⟨[], rfl, .nil⟩⟩
  | stmt :: stmts, h => by
    obtain ⟨hstmt, hrest⟩ := h
    obtain ⟨node, hnode, hwrites⟩ := visit_written stmt hstmt
    obtain ⟨nodes, hnodes, hwritesAll⟩ := visitAll_written stmts hrest
    refine ⟨node :: nodes, by rw [visitStmts, hnode, hnodes]; rfl, fun indent => ?_⟩
    obtain ⟨lines, hlines, hreads⟩ := hwrites indent
    obtain ⟨rest, hrestLines, hreadsAll⟩ := hwritesAll indent
    refine ⟨lines ++ rest, by rw [writeBody, hlines, hrestLines]; rfl, ?_⟩
    exact hreads rest _ hreadsAll

end

end Lines

end OpaeLibs.Ofs.StatementTexts
