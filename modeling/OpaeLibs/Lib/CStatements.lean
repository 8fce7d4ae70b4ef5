import OpaeLibs.Lib.CEvaluation
import OpaeLibs.Lib.Loops

namespace OpaeLibs.Lib.CStatements

open OpaeLibs.Lib.CGrammar OpaeLibs.Lib.CEvaluation OpaeLibs.Lib.Loops

/-- Statements of C. A `for` runs its variable up by one in each round. -/
inductive CStmt
  | expr (e : CExpr)
  | assign (l r : CExpr)
  | opAssign (op : BinOp) (l r : CExpr)
  | decl (t : TypeName) (x : Name) (size value : Option CExpr)
  | ret (e : Option CExpr)
  | ifStmt (test : CExpr) (body : List CStmt)
  | whileStmt (test : CExpr) (body : List CStmt)
  | forStmt (x : Name) (start test : CExpr) (body : List CStmt)

structure State (V L W : Type) where
  env : Env V L
  world : W

inductive Outcome (V L W : Type)
  | next (s : State V L W)
  | returned (v : Option V) (w : W)

section Steps

variable {V L W : Type} (M : Machine V L W)

def evalAt (e : CExpr) (s : State V L W) : Option (V × State V L W) :=
  (eval M s.env e s.world).map fun r => (r.1, ⟨s.env, r.2⟩)

def converted (t : Option TypeName) (v : V) : V := t.elim v (M.convert · v)

def storeTo (l : CExpr) (v : V) (s : State V L W) : Option (State V L W) := do
  let p ← place M s.env l s.world
  let q ← M.store p.1 v p.2
  return ⟨s.env, q.2⟩

/-- What an assignment to a place may bind. -/
def identOf : CExpr → List Name
  | .ident x => [x]
  | _ => []

def setTo (l : CExpr) (v : V) (s : State V L W) : Option (State V L W) :=
  match l with
  | .ident x =>
    match s.env x with
    | .value t _ => some ⟨Function.update s.env x (.value t (some (converted M t v))), s.world⟩
    | _ => storeTo M l v s
  | _ => storeTo M l v s

def noted (l : CExpr) (v : V) (s : State V L W) : State V L W :=
  match l with
  | .ident x => ⟨s.env, M.note x v s.world⟩
  | _ => s

def assignTo (l : CExpr) (v : V) (s : State V L W) : Option (State V L W) :=
  (setTo M l v s).map (noted M l v)

def assign (l r : CExpr) (s : State V L W) : Option (State V L W) := do
  let a ← evalAt M r s
  assignTo M l a.1 a.2

def isVariable (ρ : Env V L) : CExpr → Bool
  | .ident x =>
    match ρ x with
    | .value _ _ => true
    | _ => false
  | _ => false

/-- A place that is loaded from and stored to is evaluated once. -/
def opStore (op : BinOp) (l r : CExpr) (s : State V L W) : Option (State V L W) := do
  let p ← place M s.env l s.world
  let a ← M.load p.1 p.2
  let b ← evalAt M r ⟨s.env, a.2⟩
  let v ← M.binary op a.1 b.1
  let q ← M.store p.1 v b.2.world
  return noted M l v ⟨b.2.env, q.2⟩

def opAssign (op : BinOp) (l r : CExpr) (s : State V L W) : Option (State V L W) :=
  if isVariable s.env l then do
    let a ← evalAt M l s
    let b ← evalAt M r a.2
    let v ← M.binary op a.1 b.1
    assignTo M l v b.2
  else opStore M op l r s

/-- How many elements an array has. -/
def countAt (size : Option CExpr) (s : State V L W) : Option (Option V × State V L W) :=
  match size with
  | none => some (none, s)
  | some e => (evalAt M e s).map fun a => (some a.1, a.2)

variable (inMemory : Name → Bool)

def bindName (t : TypeName) (x : Name) (size : Option CExpr) (s : State V L W) :
    Option (State V L W) :=
  if inMemory x then do
    let n ← countAt M size s
    let l ← M.allocate t n.1 n.2.world
    return ⟨Function.update n.2.env x (.object l.1), l.2⟩
  else some ⟨Function.update s.env x (.value (some t) none), s.world⟩

/-- A declaration. What initializes a name is in its scope. -/
def declare (t : TypeName) (x : Name) (size value : Option CExpr) (s : State V L W) :
    Option (State V L W) := do
  let s ← bindName M inMemory t x size s
  value.elim (some s) fun e => assign M (.ident x) e s

/-- Where a block ends, a name that it declares is what it was before, and its object is gone. -/
def leave (x : Name) (before declared : State V L W) : Outcome V L W → Outcome V L W
  | .returned v w => .returned v w
  | .next s =>
    .next ⟨Function.update s.env x (before.env x),
      match declared.env x with
      | .object l => M.release l s.world
      | _ => s.world⟩

def endScope : CStmt → State V L W → State V L W → Outcome V L W → Outcome V L W
  | .decl _ x _ _, before, declared, r => leave M x before declared r
  | _, _, _, r => r

def whileRound (test : State V L W → Option (V × State V L W))
    (body : State V L W → Option (Outcome V L W)) (s : State V L W) :
    Option (State V L W ⊕ Outcome V L W) := do
  let a ← test s
  if M.truth a.1 then
    let r ← body a.2
    match r with
    | .next t => some (.inl t)
    | .returned v w => some (.inr (.returned v w))
  else some (.inr (.next a.2))

def advance (x : Name) (s : State V L W) : Option (State V L W) := do
  let a ← evalAt M (.ident x) s
  let v ← M.binary .add a.1 (M.number 1)
  setTo M (.ident x) v a.2

def advanced (x : Name) : Outcome V L W → Option (Outcome V L W)
  | .next s => (advance M x s).map .next
  | .returned v w => some (.returned v w)

variable (n : Nat)

mutual

/-- What a statement does, with at most `n` rounds of each loop; `none` is a fault, or a loop that
has more. -/
def exec : CStmt → State V L W → Option (Outcome V L W)
  | .expr e, s => (evalAt M e s).map fun a => .next a.2
  | .assign l r, s => (assign M l r s).map .next
  | .opAssign op l r, s => (opAssign M op l r s).map .next
  | .decl t x size value, s => (declare M inMemory t x size value s).map .next
  | .ret none, s => some (.returned none s.world)
  | .ret (some e), s => (evalAt M e s).map fun a => .returned (some a.1) a.2.world
  | .ifStmt test body, s => do
    let a ← evalAt M test s
    if M.truth a.1 then execAll true body a.2 else some (.next a.2)
  | .whileStmt test body, s => loop (whileRound M (evalAt M test) (execAll true body)) n s
  | .forStmt x start test body, s => do
    let a ← evalAt M start s
    let t ← setTo M (.ident x) a.1 a.2
    loop (whileRound M (evalAt M test) fun s => execAll true body s >>= advanced M x) n t

/-- Statements in a row, of a block that is nested in another or of the function itself, of which
the names last until it returns. -/
def execAll (nested : Bool) : List CStmt → State V L W → Option (Outcome V L W)
  | [], s => some (.next s)
  | c :: cs, s => do
    let r ← exec c s
    match r with
    | .returned v w => some (.returned v w)
    | .next t => do
      let u ← execAll nested cs t
      return if nested then endScope M c s t u else u

end

end Steps

section Names

def declares : CStmt → List Name
  | .decl _ x _ _ => [x]
  | _ => []

variable (locals : List Name)

def Finds (scope : List Name) (e : CExpr) : Prop := ∀ x ∈ names e, x ∈ locals → x ∈ scope

mutual

/-- C's rules on variables: a declaration of each of them is in scope where it is used, and no
block has two of one name. -/
def Scoped (scope : List Name) : CStmt → Prop
  | .expr e => Finds locals scope e
  | .assign l r => Finds locals scope l ∧ Finds locals scope r
  | .opAssign _ l r => Finds locals scope l ∧ Finds locals scope r
  | .decl _ x size value =>
    (∀ e ∈ size, Finds locals scope e) ∧ ∀ e ∈ value, Finds locals (x :: scope) e
  | .ret value => ∀ e ∈ value, Finds locals scope e
  | .ifStmt test body => Finds locals scope test ∧ ScopedAll scope [] body
  | .whileStmt test body => Finds locals scope test ∧ ScopedAll scope [] body
  | .forStmt x start test body =>
    Finds locals scope (.ident x) ∧ Finds locals scope start ∧ Finds locals scope test ∧
      ScopedAll scope [] body

def ScopedAll (scope block : List Name) : List CStmt → Prop
  | [] => True
  | c :: cs => Scoped scope c ∧ (∀ x ∈ declares c, x ∉ block) ∧
      ScopedAll (declares c ++ scope) (declares c ++ block) cs

end

end Names

end OpaeLibs.Lib.CStatements
