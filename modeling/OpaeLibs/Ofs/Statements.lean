import OpaeLibs.Ofs.Umd

namespace OpaeLibs.Ofs.Statements

open OpaeLibs.Lib.CGrammar OpaeLibs.Lib.CLexer OpaeLibs.Ofs.Umd

inductive Target
  | name (id : Ident)
  | field (value : PyExpr) (attr : Ident)
  | subscript (value slice : PyExpr)

def Target.expr : Target → PyExpr
  | name id => .name id
  | field value attr => .field value attr
  | subscript value slice => .subscript value slice

def Target.names : Target → List Name
  | name id => [id.val]
  | _ => []

/-- The annotations `ty`, `ptr(ty)`, and `ty[size]` with a number or a name. -/
inductive Annot
  | name (ty : Ident)
  | ptr (ty : Ident)
  | array (ty : Ident) (size : Nat)
  | arrayOf (ty size : Ident)

inductive Range
  | upTo (stop : PyExpr)
  | fromTo (start stop : PyExpr)
  | stepped (start stop step : PyExpr)

def Range.exprs : Range → List PyExpr
  | upTo stop => [stop]
  | fromTo start stop => [start, stop]
  | stepped start stop step => [start, stop, step]

/-- The statements of `ast` that are visited; an `elif` is an `if` of an `orelse`. -/
inductive PyStmt
  | assign (target : Target) (more : List Target) (value : PyExpr)
  | augAssign (target : Target) (op : ArithOp) (value : PyExpr)
  | annAssign (target : Ident) (annot : Annot) (value : Option PyExpr)
  | ret (value : Option PyExpr)
  | expr (value : PyExpr)
  | ifStmt (test : PyExpr) (body orelse : List PyStmt)
  | whileStmt (test : PyExpr) (body : List PyStmt)
  | forRange (target : Ident) (range : Range) (body : List PyStmt)

/-- What the visit of a statement returns: a `c_code`, a `c_if` or a `c_while` with its keyword and
the text of its test, a `c_for`, or a `str`, which is no node. -/
inductive CNode
  | str (text : Text)
  | code (text : Text)
  | conditional (keyword cond : Text) (body : List CNode)
  | forBlock (target : Ident) (range : Range) (body : List CNode)

def Visited.node : Visited → CNode
  | .str text => .str text
  | .code text => .code text

/-- The visit of an annotation by a `decl_visitor`, also of the size that it contains. -/
def declText (target : Ident) : Annot → Text
  | .name ty => getType ty.val ++ ' ' :: target.val
  | .ptr ty => ty.val ++ ' ' :: '*' :: target.val
  | .array ty size => ty.val ++ ' ' :: target.val ++ '[' :: Nat.toDigits 10 size ++ [']']
  | .arrayOf ty size =>
    ty.val ++ ' ' :: target.val ++ '[' :: (getType size.val ++ ' ' :: target.val) ++ [']']

section

variable (driver : DriverNames)

mutual

def visitStmt : PyStmt → Except VisitError CNode
  | .assign target _ value => do
    let lhs ← visit driver target.expr
    let rhs ← visit driver value
    return .code (lhs.text ++ " = ".toList ++ rhs.text)
  | .augAssign target op value => do
    let lhs ← visit driver target.expr
    let rhs ← visit driver value
    return .code (lhs.text ++ ' ' :: op.text ++ "= ".toList ++ rhs.text)
  | .annAssign target annot (some value) => do
    let rhs ← visit driver value
    return .code (declText target annot ++ " = ".toList ++ rhs.text)
  | .annAssign target annot none => .ok (.code (declText target annot))
  | .ret (some value) => do
    let text ← visit driver value
    return .code ("return ".toList ++ text.text)
  | .ret none => .error .attributeError
  | .expr value => do
    let text ← visit driver value
    return Visited.node text
  | .ifStmt test body _ => do
    let cond ← visit driver test
    let nodes ← visitStmts body
    return .conditional "if".toList cond.text nodes
  | .whileStmt test body => do
    let cond ← visit driver test
    let nodes ← visitStmts body
    return .conditional "while".toList cond.text nodes
  | .forRange target range body => do
    let nodes ← visitStmts body
    return .forBlock target range nodes

def visitStmts : List PyStmt → Except VisitError (List CNode)
  | [] => .ok []
  | s :: ss => do
    let node ← visitStmt s
    let nodes ← visitStmts ss
    return node :: nodes

end

/-- `c_for.write_header`: a third argument of `range` is a `str` or a `c_code`, which no `int` is
compared with. -/
def forHeader (target : Ident) (range : Range) : Except VisitError Text :=
  let name := visitName driver target
  let header (start stop : Text) : Text :=
    "for (".toList ++ name ++ " = ".toList ++ start ++ "; i < ".toList ++ stop ++ "; ".toList ++
      name ++ "++)".toList
  match range with
  | .upTo stop => do
    let stop ← visit driver stop
    return header ['0'] stop.text
  | .fromTo start stop => do
    let start ← visit driver start
    let stop ← visit driver stop
    return header start.text stop.text
  | .stepped start stop step => do
    let _ ← visit driver start
    let _ ← visit driver stop
    let _ ← visit driver step
    .error .typeError

def tabs (indent : Nat) : Text := List.replicate indent '\t'

mutual

/-- The lines of `c_block.write_body` for a node. -/
def writeNode (indent : Nat) : CNode → Except VisitError (List Text)
  | .str _ => .error .attributeError
  | .code text => .ok [tabs indent ++ text ++ [';']]
  | .conditional keyword cond body => do
    let lines ← writeBody (indent + 1) body
    return (tabs indent ++ (keyword ++ " (".toList ++ cond ++ [')']) ++ [' ', '{']) ::
      lines ++ [tabs indent ++ ['}']]
  | .forBlock target range body => do
    let header ← forHeader driver target range
    let lines ← writeBody (indent + 1) body
    return (tabs indent ++ header ++ [' ', '{']) :: lines ++ [tabs indent ++ ['}']]

def writeBody (indent : Nat) : List CNode → Except VisitError (List Text)
  | [] => .ok []
  | node :: nodes => do
    let lines ← writeNode indent node
    let rest ← writeBody indent nodes
    return lines ++ rest

end

def writeFunction (body : List PyStmt) : Except VisitError (List Text) := do
  let nodes ← visitStmts driver body
  writeBody driver 1 nodes

end

end OpaeLibs.Ofs.Statements
