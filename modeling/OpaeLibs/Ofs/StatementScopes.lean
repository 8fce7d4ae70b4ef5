import OpaeLibs.Lib.CAgreement
import OpaeLibs.Ofs.Grouping
import OpaeLibs.Ofs.StatementMeaning

namespace OpaeLibs.Ofs.StatementScopes

open OpaeLibs.Lib.CGrammar OpaeLibs.Lib.CLexer OpaeLibs.Lib.CEvaluation OpaeLibs.Lib.CStatements
open OpaeLibs.Lib.CAgreement OpaeLibs.Ofs.Umd OpaeLibs.Ofs.Expressions OpaeLibs.Ofs.Statements
open OpaeLibs.Ofs.StatementMeaning

variable (driver : DriverNames)

section Memory

mutual

def exprs : PyStmt → List PyExpr
  | .assign target more value => value :: (target :: more).map Target.expr
  | .augAssign target _ value => [target.expr, value]
  | .annAssign _ _ value => value.toList
  | .ret value => value.toList
  | .expr value => [value]
  | .ifStmt test body orelse => test :: (exprsAll body ++ exprsAll orelse)
  | .whileStmt test body => test :: exprsAll body
  | .forRange _ range body => range.exprs ++ exprsAll body

def exprsAll : List PyStmt → List PyExpr
  | [] => []
  | s :: ss => exprs s ++ exprsAll ss

end

mutual

def arrays : PyStmt → List Name
  | .annAssign target (.array _ _) _ => [target.val]
  | .annAssign target (.arrayOf _ _) _ => [target.val]
  | .ifStmt _ body orelse => arraysAll body ++ arraysAll orelse
  | .whileStmt _ body => arraysAll body
  | .forRange _ _ body => arraysAll body
  | _ => []

def arraysAll : List PyStmt → List Name
  | [] => []
  | s :: ss => arrays s ++ arraysAll ss

end

/-- The names that have to be objects in memory: the arrays, and what an address or a member is
taken of. -/
def memoryNames (body : List PyStmt) : List Name :=
  arraysAll body ++ (exprsAll body).flatMap fun e => (operations driver e).elim [] located

def needsMemory (body : List PyStmt) (x : Name) : Bool := x ∈ memoryNames driver body

end Memory

def tree (e : PyExpr) : CExpr := (operations driver e).getD (.num 0)

variable (kind : Name → NameKind)

/-- An expression that needs no parentheses but those that are written. -/
def Legible (e : PyExpr) : Prop :=
  plain driver e = true ∧ ∃ w, written driver e = some w ∧ AtLevel kind 0 w

section

variable {driver kind}

theorem operations_of_legible {e : PyExpr} (h : Legible driver kind e) :
    operations driver e = some (tree driver e) := by
  obtain ⟨-, w, hw, -⟩ := h
  have heq : operations driver e = some (strip w) := by
    rw [operations_eq, hw]
    rfl
  rw [tree, heq]
  rfl

end

def Declares : Annot → Prop
  | .name ty => ∃ t, typeNamed (getType ty.val) = some t ∧ kind t.base = .type
  | .ptr ty => kind ty.val = .type
  | .array ty _ => kind ty.val = .type
  | .arrayOf _ _ => False

def isArray : Annot → Bool
  | .array _ _ => true
  | .arrayOf _ _ => true
  | _ => false

section Texts

/-- A declaration that is written as one of C. -/
structure WrittenDecl (x : Ident) (annot : Annot) (value : Option PyExpr) : Prop where
  value_kind : kind x.val = .value
  declares : Declares kind annot
  array : isArray annot = true → value = none
  legible : ∀ e ∈ value, Legible driver kind e

/-- A range of which the header tests the loop's own variable. -/
structure WrittenRange (x : Ident) (stop : PyExpr) : Prop where
  counter : x.val = ['i']
  registers : x ∉ driver.regNames
  legible : Legible driver kind (.compare (.name x) .lt stop)

mutual

/-- Statements of which no part is lost in the text. -/
def Written : PyStmt → Prop
  | .assign target more value =>
    more = [] ∧ Legible driver kind target.expr ∧ Legible driver kind value
  | .augAssign target _ value => Legible driver kind target.expr ∧ Legible driver kind value
  | .annAssign x annot value => WrittenDecl driver kind x annot value
  | .ret value => ∃ e, value = some e ∧ Legible driver kind e
  | .expr value => isCode value = true ∧ Legible driver kind value
  | .ifStmt test body orelse => Legible driver kind test ∧ WrittenAll body ∧ orelse = []
  | .whileStmt test body => Legible driver kind test ∧ WrittenAll body
  | .forRange x (.upTo stop) body => WrittenRange driver kind x stop ∧ WrittenAll body
  | .forRange x (.fromTo start stop) body =>
    Legible driver kind start ∧ WrittenRange driver kind x stop ∧ WrittenAll body
  | .forRange _ (.stepped _ _ _) _ => False

def WrittenAll : List PyStmt → Prop
  | [] => True
  | s :: ss => Written s ∧ WrittenAll ss

end

end Texts

variable (inMemory : Name → Bool)

section Changes

def isReturn : PyStmt → Bool
  | .ret _ => true
  | _ => false

def returns (ss : List PyStmt) : Bool := ss.any isReturn

def declarations : List PyStmt → List (Name × Annot)
  | [] => []
  | .annAssign x annot _ :: ss => (x.val, annot) :: declarations ss
  | _ :: ss => declarations ss

def declaredType (annot : Annot) : Option TypeName := (Annot.declared driver annot).map (·.1)

variable (types : Name → Option TypeName)

/-- The names that a block declares with other types than they have around it. -/
def retypes (ss : List PyStmt) : List Name :=
  ((declarations ss).filter fun d => types d.1 ≠ declaredType driver d.2).map (·.1)

/-- The change of a block: the names that it declares end with it, and none goes on from a block
that returns. -/
def ended (ss : List PyStmt) (c : Change) : Change :=
  if returns ss then .none
  else c.binding ((declarations ss).map (·.1)) (retypes driver types ss)

def typesBehind (types : Name → Option TypeName) : PyStmt → Name → Option TypeName
  | .annAssign x annot _ => Function.update types x.val (declaredType driver annot)
  | _ => types

mutual

/-- What a statement does to the names that C and Python bind, where C has declared them with
those types. -/
def change (types : Name → Option TypeName) : PyStmt → Change
  | .assign target _ _ => .setting (tree driver target.expr)
  | .augAssign target _ _ => .setting (tree driver target.expr)
  | .annAssign x _ _ => ⟨[x.val], [], [x.val], []⟩
  | .ret _ => .none
  | .expr _ => .none
  | .ifStmt _ body _ => (ended driver types body (changeAll types body)).maybe
  | .whileStmt _ body => (ended driver types body (changeAll types body)).maybe
  | .forRange x _ body => (ended driver types body (changeAll types body)).counting x.val

def changeAll (types : Name → Option TypeName) : List PyStmt → Change
  | [] => .none
  | s :: ss => (change types s).andThen (changeAll (typesBehind driver types s) ss)

end

def blockChange (ss : List PyStmt) : Change := ended driver types ss (changeAll driver types ss)

end Changes

/-- The scope behind a declaration. -/
def declaredScope (σ : Scope) (x : Name) (u : Option TypeName) (value : Option PyExpr) : Scope :=
  if value.isSome ∨ inMemory x = true ∨ x ∈ σ.unset then σ.declare x u else σ.redeclare x u

def whileScope (σ : Scope) (body : List PyStmt) : Scope :=
  σ.behind (blockChange driver σ.types body).maybe

def loopScope (σ : Scope) (x : Ident) (body : List PyStmt) : Scope :=
  σ.behind ((blockChange driver σ.types body).counting x.val)

def after (σ : Scope) : PyStmt → Scope
  | .assign target _ _ => σ.assigned (tree driver target.expr)
  | .augAssign target _ _ => σ.assigned (tree driver target.expr)
  | .annAssign x annot value => declaredScope inMemory σ x.val (declaredType driver annot) value
  | .ret _ => σ
  | .expr _ => σ
  | .ifStmt _ body _ => whileScope driver σ body
  | .whileStmt _ body => whileScope driver σ body
  | .forRange x _ body => loopScope driver σ x body

def startOf : Range → CExpr
  | .upTo _ => .num 0
  | .fromTo start _ => tree driver start
  | .stepped start _ _ => tree driver start

def stopOf : Range → CExpr
  | .upTo stop => tree driver stop
  | .fromTo _ stop => tree driver stop
  | .stepped _ stop _ => tree driver stop

/-- A declaration. The name is no object where its block ends without a return. What initializes it
has the name only where it has no value in either language. -/
structure KeptDecl (ends : Bool) (σ : Scope) (x : Ident) (value : Option PyExpr) : Prop where
  value : ∀ e ∈ value, ∀ y ∈ names (tree driver e),
    if y = x.val then y ∈ σ.unset ∧ inMemory y = false else y ∉ σ.differing ∧ y ∉ σ.retyped
  object : inMemory x.val = true → ends = false ∧ x.val ∈ σ.unset

mutual

/-- The names that a statement assigns to, but for those that it declares. -/
def targets : PyStmt → List Name
  | .assign target more _ => (target :: more).flatMap Target.names
  | .augAssign target _ _ => target.names
  | .ifStmt _ body orelse => targetsAll body ++ targetsAll orelse
  | .whileStmt _ body => targetsAll body
  | .forRange target _ body => target.val :: targetsAll body
  | _ => []

def targetsAll : List PyStmt → List Name
  | [] => []
  | s :: ss => targets s ++ targetsAll ss

end

/-- The end of a range that stays what it is from round to round. -/
structure KeptEnd (σ : Scope) (x : Ident) (stop : CExpr) (body : List PyStmt) : Prop where
  kept_counter : x.val ∉ targetsAll body
  steady : steady stop = true
  bound_scope : ∀ y ∈ names stop, y ∈ σ.inScope ∧ inMemory y = false
  kept_bound : ∀ y ∈ names stop, y ∉ targetsAll body

/-- A range of which the loop has a variable of its own. -/
structure KeptRange (σ : Scope) (x : Ident) (stop : CExpr) (body : List PyStmt) : Prop where
  scope : x.val ∈ σ.inScope
  local_counter : inMemory x.val = false
  one_type : x.val ∉ σ.retyped
  other : x.val ∉ names stop
  known : Known σ stop
  kept_end : returns body = false → KeptEnd inMemory σ x stop body

mutual

/-- Statements that find the names bound alike, in a block that ends without a return behind them
or not. -/
def Kept (ends : Bool) (σ : Scope) : PyStmt → Prop
  | .assign target _ value =>
    Settable σ (tree driver target.expr) ∧ Known σ (tree driver value)
  | .augAssign target _ value =>
    Known σ (tree driver target.expr) ∧ Known σ (tree driver value)
  | .annAssign x _ value => KeptDecl driver inMemory ends σ x value
  | .ret value => ∀ e ∈ value, Known σ (tree driver e)
  | .expr value => Known σ (tree driver value)
  | .ifStmt test body _ => Known σ (tree driver test) ∧ KeptAll true σ body
  | .whileStmt test body =>
    Known (whileScope driver σ body) (tree driver test) ∧
      KeptAll true (whileScope driver σ body) body
  | .forRange x range body =>
    Known σ (startOf driver range) ∧
      KeptRange inMemory σ x (stopOf driver range) body ∧
      KeptAll true ((loopScope driver σ x body).set x.val) body

/-- Nothing is asked of what is behind a return. -/
def KeptAll (nested : Bool) (σ : Scope) : List PyStmt → Prop
  | [] => True
  | s :: ss => Kept (nested && !returns ss) σ s ∧
      (isReturn s = false → KeptAll nested (after driver inMemory σ s) ss)

end

def declOf (x : Ident) (annot : Annot) (value : Option PyExpr) : CStmt :=
  let t := (Annot.declared driver annot).getD (⟨[], 0⟩, none)
  .decl t.1 x.val t.2 (value.map (tree driver))

mutual

def cStmt : PyStmt → CStmt
  | .assign target _ value => .assign (tree driver target.expr) (tree driver value)
  | .augAssign target op value =>
    .opAssign (ArithOp.binOp op) (tree driver target.expr) (tree driver value)
  | .annAssign x annot value => declOf driver x annot value
  | .ret value => .ret (value.map (tree driver))
  | .expr value => .expr (tree driver value)
  | .ifStmt test body _ => .ifStmt (tree driver test) (cStmts body)
  | .whileStmt test body => .whileStmt (tree driver test) (cStmts body)
  | .forRange x range body =>
    .forStmt x.val (startOf driver range) (.binary .lt (.ident x.val) (stopOf driver range))
      (cStmts body)

def cStmts : List PyStmt → List CStmt
  | [] => []
  | s :: ss => cStmt s :: cStmts ss

end

end OpaeLibs.Ofs.StatementScopes
