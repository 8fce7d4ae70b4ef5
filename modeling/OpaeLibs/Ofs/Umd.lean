import OpaeLibs.Lib.CLexer

namespace OpaeLibs.Ofs.Umd

open OpaeLibs.Lib.CGrammar OpaeLibs.Lib.CLexer

abbrev Text := List Char

/-- A name that is an identifier in Python and in C. -/
abbrev Ident := {x : Name // isIdent x = true}

instance : LawfulBEq Ident := inferInstance

inductive ArithOp
  | add
  | sub
  | mult
  | div
deriving DecidableEq

inductive CmpOp
  | lt
  | gt
  | eq
deriving DecidableEq

/-- The expressions of `ast` that are visited. -/
inductive PyExpr
  | name (id : Ident)
  | constant (value : Nat)
  | field (value : PyExpr) (attr : Ident)
  | call (func : PyExpr) (args : List PyExpr)
  | subscript (value slice : PyExpr)
  | binOp (left : PyExpr) (op : ArithOp) (right : PyExpr)
  | compare (left : PyExpr) (op : CmpOp) (right : PyExpr)
  | notOp (operand : PyExpr)

/-- The names of a driver, of its registers and of the functions of its API. -/
structure DriverNames where
  name : Ident
  regNames : List Ident
  fnNames : List Ident

/-- What a visit returns: a `str` or a `c_code`. -/
inductive Visited
  | str (text : Text)
  | code (text : Text)

def Visited.text : Visited → Text
  | str text => text
  | code text => text

def Visited.isCode : Visited → Bool
  | str _ => false
  | code _ => true

inductive VisitError
  | attributeError
  | typeError
deriving DecidableEq

def ArithOp.text : ArithOp → Text
  | add => ['+']
  | sub => ['-']
  | mult => ['*']
  | div => ['/']

def CmpOp.text : CmpOp → Text
  | lt => ['<']
  | gt => ['>']
  | eq => ['=', '=']

/-- `str.replace` of `_ptr` by a star. -/
def replacePtr : Text → Text
  | '_' :: 'p' :: 't' :: 'r' :: cs => '*' :: replacePtr cs
  | c :: cs => c :: replacePtr cs
  | [] => []

def getType (name : Text) : Text :=
  if ['_', 'p', 't', 'r'].isSuffixOf name then replacePtr name else name

abbrev refName : Name := ['r', 'e', 'f']

abbrev drvName : Name := ['d', 'r', 'v']

/-- The alias `ref`. A `c_code` is true, but it has no `endswith`. -/
def ref : List Visited → Except VisitError Visited
  | [name] => .ok (.str ('&' :: name.text))
  | [name, .str cast] =>
    if cast.isEmpty then .ok (.str ('&' :: name.text))
    else .ok (.str ('(' :: getType cast ++ [')', '&', '('] ++ name.text ++ [')']))
  | [_, .code _] => .error .attributeError
  | _ => .error .typeError

/-- The texts that are joined, of which none may be a `c_code`. -/
def texts : List Visited → Except VisitError (List Text)
  | [] => .ok []
  | .str text :: args => (texts args).map (text :: ·)
  | .code _ :: _ => .error .typeError

def join (args : List Visited) : Except VisitError Text :=
  (texts args).map (List.intercalate [',', ' '])

section

variable (driver : DriverNames)

def resolveFunction (fn : Ident) : Name :=
  if fn ∈ driver.fnNames then driver.name.val ++ '_' :: fn.val else fn.val

/-- Whether `drv` is passed to a function: whether its name starts with that of the driver. -/
def passesDrv (fn : Name) : Bool := driver.name.val.isPrefixOf fn

def visitName (id : Ident) : Text :=
  if id ∈ driver.regNames then drvName ++ ['-', '>', 'r', '_'] ++ id.val ++ "->value".toList
  else id.val

def visitAttribute (value : PyExpr) (attr : Ident) : Except VisitError Visited :=
  match value with
  | .name id =>
    if id ∈ driver.regNames then
      .ok (.str (drvName ++ ['-', '>', 'r', '_'] ++ id.val ++ ['-', '>', 'f', '_'] ++ attr.val))
    else .ok (.str (id.val ++ '.' :: attr.val))
  | _ => .error .attributeError

def visitCall (func : PyExpr) (args : List Visited) : Except VisitError Visited :=
  match func with
  | .name id =>
    if id.val = refName then ref args
    else do
      let fn := resolveFunction driver id
      let args ← join (if passesDrv driver fn then .str drvName :: args else args)
      return .code (fn ++ '(' :: args ++ [')'])
  | _ => .error .attributeError

mutual

def visit : PyExpr → Except VisitError Visited
  | .name id => .ok (.str (visitName driver id))
  | .constant value => .ok (.str (Nat.toDigits 10 value))
  | .field value attr => visitAttribute driver value attr
  | .call func args => do
    let args ← visitAll args
    visitCall driver func args
  | .subscript value slice =>
    match value with
    | .name id => do
      let slice ← visit slice
      return .str (id.val ++ '[' :: slice.text ++ [']'])
    | _ => .error .attributeError
  | .binOp left op right => do
    let lhs ← visit left
    let rhs ← visit right
    return .str (lhs.text ++ op.text ++ rhs.text)
  | .compare left op right => do
    let lhs ← visit left
    let rhs ← visit right
    return .str (lhs.text ++ ' ' :: op.text ++ ' ' :: rhs.text)
  | .notOp operand => do
    let operand ← visit operand
    return .str ('!' :: operand.text)

def visitAll : List PyExpr → Except VisitError (List Visited)
  | [] => .ok []
  | e :: es => do
    let text ← visit e
    let texts ← visitAll es
    return text :: texts

end

end

end OpaeLibs.Ofs.Umd
