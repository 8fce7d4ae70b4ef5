import OpaeLibs.Ofs.Umd

namespace OpaeLibs.Ofs.Expressions

open OpaeLibs.Lib.CGrammar OpaeLibs.Lib.CLexer OpaeLibs.Ofs.Umd

@[elab_as_elim]
theorem expr_induct {motive : PyExpr → Prop} (name : ∀ id, motive (.name id))
    (constant : ∀ value, motive (.constant value))
    (field : ∀ value attr, motive value → motive (.field value attr))
    (call : ∀ func args, motive func → (∀ a ∈ args, motive a) → motive (.call func args))
    (subscript : ∀ value slice, motive value → motive slice → motive (.subscript value slice))
    (binOp : ∀ left op right, motive left → motive right → motive (.binOp left op right))
    (compare : ∀ left op right, motive left → motive right → motive (.compare left op right))
    (notOp : ∀ operand, motive operand → motive (.notOp operand)) (e : PyExpr) : motive e :=
  @PyExpr.rec motive (fun es => ∀ e ∈ es, motive e) name constant field call subscript binOp
    compare notOp (fun _ h => nomatch h) (fun _ _ he hes => List.forall_mem_cons.mpr ⟨he, hes⟩) e

def ArithOp.binOp : ArithOp → BinOp
  | .add => .add
  | .sub => .sub
  | .mult => .mul
  | .div => .div

def CmpOp.binOp : CmpOp → BinOp
  | .lt => .lt
  | .gt => .gt
  | .eq => .eq

section Trees

variable (driver : DriverNames)

def castType (ty : Ident) : Option TypeName :=
  let base := (getType ty.val).takeWhile isIdentChar
  let stars := (getType ty.val).dropWhile isIdentChar
  if ty ∉ driver.regNames ∧ isIdent base ∧ stars = List.replicate stars.length '*' then
    some ⟨base, stars.length⟩
  else none

/-- A member of the driver's struct, behind which is a register. -/
def registerTree (reg : Ident) : CExpr := .arrow (.ident drvName) (['r', '_'] ++ reg.val)

def nameTree (id : Ident) : CExpr :=
  if id ∈ driver.regNames then .arrow (registerTree id) "value".toList else .ident id.val

def fieldTree (value : PyExpr) (attr : Ident) (tree : Option CExpr) : Option CExpr :=
  match value with
  | .name id =>
    if id ∈ driver.regNames then some (.arrow (registerTree id) (['f', '_'] ++ attr.val))
    else some (.member (.ident id.val) attr.val)
  | _ => tree.map fun t => .member t attr.val

/-- A name that is subscripted is taken as it is. -/
def subscriptedTree (value : PyExpr) (tree : Option CExpr) : Option CExpr :=
  match value with
  | .name id => some (.ident id.val)
  | _ => tree

variable (group : CExpr → CExpr)

/-- An address, and the type that it is cast to; `ref` is nothing with other arguments. -/
def refTree : List PyExpr → List CExpr → Option CExpr
  | [_], [t] => some (.addr t)
  | [_, .name ty], [t, _] => (castType driver ty).map fun c => .cast c (.addr (group t))
  | _, _ => none

def callTree (func : PyExpr) (tree : Option CExpr) (args : List PyExpr) (trees : List CExpr) :
    Option CExpr :=
  match func with
  | .name id =>
    if id.val = refName then refTree driver group args trees
    else
      let fn := resolveFunction driver id
      some (.call (.ident fn) (if passesDrv driver fn then .ident drvName :: trees else trees))
  | _ => tree.map fun t => .call t trees

mutual

/-- The operations of an expression, where what is cast is grouped. -/
def treeWith : PyExpr → Option CExpr
  | .name id => some (nameTree driver id)
  | .constant value => some (.num value)
  | .field value attr => fieldTree driver value attr (treeWith value)
  | .call func args => do
    let trees ← treesWith args
    callTree driver group func (treeWith func) args trees
  | .subscript value slice => do
    let e ← subscriptedTree value (treeWith value)
    let i ← treeWith slice
    return .index e i
  | .binOp left op right => do
    let l ← treeWith left
    let r ← treeWith right
    return .binary (ArithOp.binOp op) l r
  | .compare left op right => do
    let l ← treeWith left
    let r ← treeWith right
    return .binary (CmpOp.binOp op) l r
  | .notOp operand => do
    let e ← treeWith operand
    return .lnot e

def treesWith : List PyExpr → Option (List CExpr)
  | [] => some []
  | e :: es => do
    let t ← treeWith e
    let ts ← treesWith es
    return t :: ts

end

end Trees

section Plain

variable (driver : DriverNames)

def operations (e : PyExpr) : Option CExpr := treeWith driver id e

/-- The tree with parentheses around what `ref` casts and nowhere else. -/
def written (e : PyExpr) : Option CExpr := treeWith driver .paren e

def isName : PyExpr → Bool
  | .name _ => true
  | _ => false

/-- Whether the visit of an expression returns a `c_code`. -/
def isCode : PyExpr → Bool
  | .call (.name id) _ => id.val != refName
  | .call _ _ => true
  | _ => false

/-- Whether an expression begins with a `ref` without a cast. -/
def leadsAmp : PyExpr → Bool
  | .call (.name id) args => id.val == refName && args.length == 1
  | .binOp left _ _ => leadsAmp left
  | .compare left _ _ => leadsAmp left
  | _ => false

def plainRef : List PyExpr → Bool
  | [e] => !leadsAmp e
  | [_, .name ty] => (castType driver ty).isSome
  | _ => false

def plainCall (func : PyExpr) (args : List PyExpr) : Bool :=
  match func with
  | .name id => if id.val = refName then plainRef driver args else args.all fun a => !isCode a
  | _ => false

mutual

/-- Only names are called, subscripted and asked for a field, no call of a function is an argument
of one, and `ref` takes something that does not begin with another `ref`, or it takes something and
the name of a type. -/
def plain : PyExpr → Bool
  | .name _ => true
  | .constant _ => true
  | .field value _ => isName value
  | .call func args => plainCall driver func args && plainAll args
  | .subscript value slice => isName value && plain slice
  | .binOp left _ right => plain left && plain right
  | .compare left _ right => plain left && plain right
  | .notOp operand => plain operand

def plainAll : List PyExpr → Bool
  | [] => true
  | e :: es => plain e && plainAll es

end

/-- The text of an expression is read as the tree of its operations. -/
def Preserves (kind : Name → NameKind) (e : PyExpr) : Prop :=
  ∃ out tree ts, visit driver e = .ok out ∧ operations driver e = some tree ∧
    lex out.text = some ts ∧ Parses kind ts tree

end Plain

section Grouping

variable {driver : DriverNames}

theorem strip_nameTree (id : Ident) : strip (nameTree driver id) = nameTree driver id := by
  rw [nameTree]
  split <;> rfl

theorem map_strip_refTree (args : List PyExpr) (trees : List CExpr) :
    (refTree driver .paren args trees).map strip = refTree driver id args (stripAll trees) := by
  unfold refTree
  rcases args with _ | ⟨a, _ | ⟨b, _ | ⟨c, args⟩⟩⟩ <;>
    rcases trees with _ | ⟨t, _ | ⟨u, _ | ⟨v, trees⟩⟩⟩ <;> try rfl
  all_goals cases b <;> try rfl
  next ty => cases hty : castType driver ty <;> simp [hty, stripAll, strip]

theorem map_strip_callTree (func : PyExpr) (tree : Option CExpr) (args : List PyExpr)
    (trees : List CExpr) : (callTree driver .paren func tree args trees).map strip =
      callTree driver id func (tree.map strip) args (stripAll trees) := by
  cases func with
  | name f =>
    by_cases href : f.val = refName
    · rw [callTree, callTree, if_pos href, if_pos href, map_strip_refTree]
    · simp only [callTree, if_neg href, Option.map_some, strip]
      split <;> rfl
  | _ => cases tree <;> rfl

theorem strip_fieldTree (value : PyExpr) (attr : Ident) (tree : Option CExpr) :
    (fieldTree driver value attr tree).map strip =
      fieldTree driver value attr (tree.map strip) := by
  cases value with
  | name id =>
    rw [fieldTree, fieldTree]
    split <;> rfl
  | _ => cases tree <;> rfl

theorem strip_subscriptedTree (value : PyExpr) (tree : Option CExpr) :
    (subscriptedTree value tree).map strip = subscriptedTree value (tree.map strip) := by
  cases value <;> rfl

theorem treesWith_eq {es : List PyExpr}
    (h : ∀ e ∈ es, treeWith driver id e = (treeWith driver .paren e).map strip) :
    treesWith driver id es = (treesWith driver .paren es).map stripAll := by
  induction es with
  | nil => rfl
  | cons e es ih =>
    rw [treesWith, treesWith, h e List.mem_cons_self,
      ih fun e he => h e (List.mem_cons_of_mem _ he)]
    cases treeWith driver .paren e with
    | none => rfl
    | some t => cases treesWith driver .paren es <;> rfl

theorem operations_eq (e : PyExpr) : operations driver e = (written driver e).map strip := by
  rw [operations, written]
  induction e using expr_induct with
  | name id => exact congrArg some (strip_nameTree id).symm
  | constant value => rfl
  | field value attr ih => rw [treeWith, treeWith, ih, strip_fieldTree]
  | call func args ihf ihargs =>
    rw [treeWith, treeWith, ihf, treesWith_eq ihargs]
    cases treesWith driver .paren args with
    | none => rfl
    | some trees => exact (map_strip_callTree func _ args trees).symm
  | subscript value slice ihv ihs =>
    rw [treeWith, treeWith, ihv, ihs, ← strip_subscriptedTree]
    cases subscriptedTree value (treeWith driver .paren value) with
    | none => rfl
    | some t => cases treeWith driver .paren slice <;> rfl
  | binOp left op right ihl ihr =>
    rw [treeWith, treeWith, ihl, ihr]
    cases treeWith driver .paren left with
    | none => rfl
    | some l => cases treeWith driver .paren right <;> rfl
  | compare left op right ihl ihr =>
    rw [treeWith, treeWith, ihl, ihr]
    cases treeWith driver .paren left with
    | none => rfl
    | some l => cases treeWith driver .paren right <;> rfl
  | notOp operand ih =>
    rw [treeWith, treeWith, ih]
    cases treeWith driver .paren operand <;> rfl

end Grouping

end OpaeLibs.Ofs.Expressions
