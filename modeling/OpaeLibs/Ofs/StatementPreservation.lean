import OpaeLibs.Ofs.StatementRuns
import OpaeLibs.Ofs.StatementTexts

namespace OpaeLibs.Ofs.StatementPreservation

open OpaeLibs.Lib.CGrammar OpaeLibs.Lib.CLexer OpaeLibs.Lib.CEvaluation OpaeLibs.Lib.CStatements
open OpaeLibs.Lib.CAgreement OpaeLibs.Lib.Outcomes OpaeLibs.Ofs.Umd OpaeLibs.Ofs.Statements
open OpaeLibs.Ofs.Expressions OpaeLibs.Ofs.Grouping
open OpaeLibs.Ofs.StatementMeaning OpaeLibs.Ofs.StatementScopes OpaeLibs.Ofs.StatementTexts
open OpaeLibs.Ofs.StatementRuns

section Functions

variable {V L W : Type}

def parameters (params : List Ident) : List Name := drvName :: params.map (·.val)

/-- The variables of a function in Python but for its parameters. -/
def localNames (params : List Ident) (body : List PyStmt) : List Name :=
  (touchedAll body).filter (· ∉ parameters params)

/-- Where a function is called: its parameters are bound, and no other name is. -/
structure Started (params : List Ident) (inMemory : Name → Bool) (ρ : Env V L) : Prop where
  bound : ∀ x ∈ parameters params, inMemory x = false → ∃ t v, ρ x = .value t v
  others : ∀ x, x ∉ parameters params → ρ x = .external

/-- In Python the variables of a function are its own from the beginning. -/
def entered (params : List Ident) (body : List PyStmt) (s : State V L W) : State V L W :=
  ⟨fun x => if x ∈ localNames params body then .value none none else s.env x, s.world⟩

def result : Outcome V L W → Option V × W
  | .next s => (none, s.world)
  | .returned v w => (v, w)

end Functions

section Preservation

variable (driver : DriverNames) (kind : Name → NameKind)

/-- C's rules on the variables of a function. -/
def WellScoped (params : List Ident) (body : List PyStmt) (cs : List CStmt) : Prop :=
  (parameters params).Nodup ∧
    ScopedAll (localNames params body) (parameters params) (parameters params) cs

/-- The lines of a function are read as statements of C that have the same effects and return the
same value as those of Python, whatever the values, the memory and the calls of C are. -/
def Preserves (params : List Ident) (body : List PyStmt) : Prop :=
  ∃ lines cs, writeFunction driver body = .ok lines ∧ ReadsLines kind lines cs ∧
    WellScoped params body cs ∧
    ∀ (V L W : Type) (M : Machine V L W) (s : State V L W),
      Started params (needsMemory driver body) s.env → ∀ n,
        (execAll M (needsMemory driver body) n false cs s).map result =
          (runAll driver M (needsMemory driver body) n body (entered params body s)).map result

variable {driver kind} {params : List Ident} {body : List PyStmt}

theorem result_eq {V L W : Type} {P : State V L W → State V L W → Prop}
    {o o' : Option (Outcome V L W)} (h : Option.Rel (Reach P) o o')
    (hworld : ∀ s t, P s t → s.world = t.world) : o.map result = o'.map result := by
  cases h with
  | none => rfl
  | some h =>
    cases h with
    | next hst => exact congrArg (fun w => some (none, w)) (hworld _ _ hst)
    | returned => rfl

theorem visitStmt_orelse (test : PyExpr) (body orelse : List PyStmt) :
    visitStmt driver (.ifStmt test body orelse) = visitStmt driver (.ifStmt test body []) := by
  rw [visitStmt, visitStmt]

end Preservation

section Sample

variable {driver : DriverNames} {kind : Name → NameKind}

end Sample

end OpaeLibs.Ofs.StatementPreservation
