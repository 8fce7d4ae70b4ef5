import OpaeLibs.Lib.CStatements
import OpaeLibs.Ofs.Expressions
import OpaeLibs.Ofs.Statements

namespace OpaeLibs.Ofs.StatementMeaning

open OpaeLibs.Lib.CGrammar OpaeLibs.Lib.CLexer OpaeLibs.Lib.CEvaluation OpaeLibs.Lib.CStatements
open OpaeLibs.Lib.Loops OpaeLibs.Ofs.Umd OpaeLibs.Ofs.Expressions OpaeLibs.Ofs.Statements

section Names

mutual

def touched : PyStmt → List Name
  | .assign target more _ => (target :: more).flatMap Target.names
  | .augAssign target _ _ => target.names
  | .annAssign target _ _ => [target.val]
  | .ifStmt _ body orelse => touchedAll body ++ touchedAll orelse
  | .whileStmt _ body => touchedAll body
  | .forRange target _ body => target.val :: touchedAll body
  | _ => []

def touchedAll : List PyStmt → List Name
  | [] => []
  | s :: ss => touched s ++ touchedAll ss

end

end Names

def typeNamed (text : Text) : Option TypeName :=
  let base := text.takeWhile isIdentChar
  let stars := text.dropWhile isIdentChar
  if isIdent base ∧ stars = List.replicate stars.length '*' then some ⟨base, stars.length⟩
  else none

section Meaning

variable (driver : DriverNames)

def Annot.declared : Annot → Option (TypeName × Option CExpr)
  | .name ty => (typeNamed (getType ty.val)).map (·, none)
  | .ptr ty => some (⟨ty.val, 1⟩, none)
  | .array ty size => some (⟨ty.val, 0⟩, some (.num size))
  | .arrayOf ty size => some (⟨ty.val, 0⟩, some (nameTree driver size))

variable {V L W : Type} (M : Machine V L W)

/-- The operations of an expression, with C's values. -/
def pyEval (e : PyExpr) (s : State V L W) : Option (V × State V L W) := do
  let tree ← operations driver e
  evalAt M tree s

def assignEach : List Target → V → State V L W → Option (State V L W)
  | [], _, s => some s
  | target :: targets, v, s => do
    let l ← operations driver target.expr
    let s ← assignTo M l v s
    assignEach targets v s

variable (inMemory : Name → Bool)

/-- A name is declared with a type; it keeps the value that it has. -/
def annotate (t : TypeName) (x : Name) (size : Option CExpr) (s : State V L W) :
    Option (State V L W) :=
  match s.env x with
  | .object _ => some s
  | .value _ v =>
    if inMemory x then bindName M inMemory t x size s
    else some ⟨Function.update s.env x (.value (some t) v), s.world⟩
  | .external => bindName M inMemory t x size s

/-- An annotated assignment. The value is evaluated with the names as they were. -/
def annAssign (x : Ident) (annot : Annot) (value : Option PyExpr) (s : State V L W) :
    Option (State V L W) := do
  let t ← Annot.declared driver annot
  match value with
  | none => annotate M inMemory t.1 x.val t.2 s
  | some e => do
    let u ← annotate M inMemory t.1 x.val t.2 s
    let a ← pyEval driver M e ⟨s.env, u.world⟩
    assignTo M (.ident x.val) a.1 ⟨u.env, a.2.world⟩

/-- The start, the end and the step of a range, each of which is evaluated once. -/
def bounds (range : Range) (s : State V L W) : Option ((V × V × Option V) × State V L W) :=
  match range with
  | .upTo stop => do
    let b ← pyEval driver M stop s
    return ((M.number 0, b.1, none), b.2)
  | .fromTo start stop => do
    let a ← pyEval driver M start s
    let b ← pyEval driver M stop a.2
    return ((a.1, b.1, none), b.2)
  | .stepped start stop step => do
    let a ← pyEval driver M start s
    let b ← pyEval driver M stop a.2
    let c ← pyEval driver M step b.2
    return ((a.1, b.1, some c.1), c.2)

/-- Whether a value of a range is before its end. There is no range with a step that is neither
positive nor negative. -/
def before (stop : V) (step : Option V) (v : V) : Option Bool :=
  match step with
  | none => (M.binary .lt v stop).map M.truth
  | some d => do
    let up ← M.binary .lt (M.number 0) d
    let down ← M.binary .lt d (M.number 0)
    if M.truth up then (M.binary .lt v stop).map M.truth
    else if M.truth down then (M.binary .gt v stop).map M.truth
    else none

/-- The next value of a range, in the type of the loop's variable. -/
def successor (t : Option TypeName) (step : Option V) (v : V) : Option V :=
  (M.binary .add v (step.getD (M.number 1))).map (converted M t)

def typeAt (l : CExpr) (s : State V L W) : Option TypeName :=
  match l with
  | .ident x =>
    match s.env x with
    | .value t _ => t
    | _ => none
  | _ => none

def setTarget (l : CExpr) (v : V) (s : State V L W) : Option (State V L W) :=
  match l with
  | .ident x =>
    match s.env x with
    | .value t _ => some ⟨Function.update s.env x (.value t (some v)), s.world⟩
    | _ => storeTo M l v s
  | _ => storeTo M l v s

def forRound (l : CExpr) (more : V → Option Bool) (next : V → Option V)
    (body : State V L W → Option (Outcome V L W)) (c : V × State V L W) :
    Option ((V × State V L W) ⊕ Outcome V L W) := do
  let b ← more c.1
  if b then
    let s ← setTarget M l c.1 c.2
    let r ← body s
    match r with
    | .next t => do
      let v ← next c.1
      return .inl (v, t)
    | .returned v w => some (.inr (.returned v w))
  else some (.inr (.next c.2))

variable (n : Nat)

mutual

/-- What a statement of Python does with the values of C, with at most `n` rounds of each loop. The
variables are those of the function; no block ends them. -/
def run : PyStmt → State V L W → Option (Outcome V L W)
  | .assign target more value, s => do
    let a ← pyEval driver M value s
    let t ← assignEach driver M (target :: more) a.1 a.2
    return .next t
  | .augAssign target op value, s => do
    let l ← operations driver target.expr
    let r ← operations driver value
    (opAssign M (ArithOp.binOp op) l r s).map .next
  | .annAssign target annot value, s =>
    (annAssign driver M inMemory target annot value s).map .next
  | .ret none, s => some (.returned none s.world)
  | .ret (some value), s => (pyEval driver M value s).map fun a => .returned (some a.1) a.2.world
  | .expr value, s => (pyEval driver M value s).map fun a => .next a.2
  | .ifStmt test body orelse, s => do
    let a ← pyEval driver M test s
    if M.truth a.1 then runAll body a.2 else runAll orelse a.2
  | .whileStmt test body, s => loop (whileRound M (pyEval driver M test) (runAll body)) n s
  | .forRange target range body, s => do
    let b ← bounds driver M range s
    let l := nameTree driver target
    let t := typeAt l b.2
    loop (forRound M l (before M b.1.2.1 b.1.2.2) (successor M t b.1.2.2) (runAll body)) n
      (converted M t b.1.1, b.2)

def runAll : List PyStmt → State V L W → Option (Outcome V L W)
  | [], s => some (.next s)
  | stmt :: stmts, s => do
    let r ← run stmt s
    match r with
    | .next t => runAll stmts t
    | .returned v w => some (.returned v w)

end

end Meaning

end OpaeLibs.Ofs.StatementMeaning
