import OpaeLibs.Lib.CGrammar

namespace OpaeLibs.Lib.CEvaluation

open OpaeLibs.Lib.CGrammar

/-- What a name stands for in a function: something outside of it, a variable with its type and its
value, or an object in memory. -/
inductive Binding (V L : Type)
  | external
  | value (type : Option TypeName) (v : Option V)
  | object (l : L)

/-- What an expression finds, which asks for no type. -/
def Binding.untyped {V L : Type} : Binding V L → Binding V L
  | .value _ v => .value none v
  | b => b

abbrev Env (V L : Type) := Name → Binding V L

/-- C's values, objects and memory, what a call does and what is noted of a run. -/
structure Machine (V L W : Type) where
  number : Nat → V
  binary : BinOp → V → V → Option V
  truth : V → Bool
  convert : TypeName → V → V
  pointer : L → V
  pointee : V → Option L
  member : L → Name → Option L
  external : Name → StateT W Option V
  externalPlace : Name → Option L
  load : L → StateT W Option V
  store : L → V → StateT W Option Unit
  call : V → List V → StateT W Option V
  allocate : TypeName → Option V → StateT W Option L
  release : L → W → W
  note : Name → V → W → W

def decided : BinOp → Bool → Option Nat
  | .land, false => some 0
  | .lor, true => some 1
  | _, _ => none

section Evaluation

variable {V L W : Type} (M : Machine V L W)

/-- The object of an array, of which a pointer and an index are evaluated. -/
def element (p n : StateT W Option V) : StateT W Option L := do
  let a ← p
  let b ← n
  let q ← StateT.lift (M.binary .add a b)
  StateT.lift (M.pointee q)

def memberOf (object : StateT W Option L) (x : Name) : StateT W Option L := do
  let l ← object
  StateT.lift (M.member l x)

def target (p : StateT W Option V) : StateT W Option L := do
  let a ← p
  StateT.lift (M.pointee a)

variable (ρ : Env V L)

mutual

/-- The value of an expression, with the effects that its evaluation has from left to right. -/
def eval : CExpr → StateT W Option V
  | .ident x =>
    match ρ x with
    | .external => M.external x
    | .value _ v => StateT.lift v
    | .object l => M.load l
  | .num n => pure (M.number n)
  | .paren e => eval e
  | .call f args => do
    let g ← eval f
    let vs ← evalAll args
    M.call g vs
  | .index e i => element M (eval e) (eval i) >>= M.load
  | .member e x => memberOf M (place e) x >>= M.load
  | .arrow e x => memberOf M (target M (eval e)) x >>= M.load
  | .lnot e => do
    let v ← eval e
    return M.number (if M.truth v then 0 else 1)
  | .addr e => do
    let l ← place e
    return M.pointer l
  | .cast t e => do
    let v ← eval e
    return M.convert t v
  | .binary o l r => do
    let a ← eval l
    match decided o (M.truth a) with
    | some n => return M.number n
    | none => do
      let b ← eval r
      StateT.lift (M.binary o a b)

/-- The object that an expression stands for. A variable that is in no memory has none. -/
def place : CExpr → StateT W Option L
  | .ident x =>
    match ρ x with
    | .external => StateT.lift (M.externalPlace x)
    | .value _ _ => failure
    | .object l => pure l
  | .paren e => place e
  | .index e i => element M (eval e) (eval i)
  | .member e x => memberOf M (place e) x
  | .arrow e x => memberOf M (target M (eval e)) x
  | _ => failure

def evalAll : List CExpr → StateT W Option (List V)
  | [] => pure []
  | e :: es => do
    let v ← eval e
    let vs ← evalAll es
    return v :: vs

end

end Evaluation

mutual

def names : CExpr → List Name
  | .ident x => [x]
  | .num _ => []
  | .paren e => names e
  | .call f args => names f ++ namesAll args
  | .index e i => names e ++ names i
  | .member e _ => names e
  | .arrow e _ => names e
  | .lnot e => names e
  | .addr e => names e
  | .cast _ e => names e
  | .binary _ l r => names l ++ names r

def namesAll : List CExpr → List Name
  | [] => []
  | e :: es => names e ++ namesAll es

end

def base : CExpr → List Name
  | .ident x => [x]
  | .paren e => base e
  | .member e _ => base e
  | _ => []

mutual

/-- The variables that have to be objects: those of which an expression takes the address, or a
member. -/
def located : CExpr → List Name
  | .ident _ => []
  | .num _ => []
  | .paren e => located e
  | .call f args => located f ++ locatedAll args
  | .index e i => located e ++ located i
  | .member e _ => base e ++ located e
  | .arrow e _ => located e
  | .lnot e => located e
  | .addr e => base e ++ located e
  | .cast _ e => located e
  | .binary _ l r => located l ++ located r

def locatedAll : List CExpr → List Name
  | [] => []
  | e :: es => located e ++ locatedAll es

end

section Congruence

variable {V L W : Type} {M : Machine V L W} {ρ ρ' : Env V L}

theorem untyped_cases {b b' : Binding V L} (h : b.untyped = b'.untyped) :
    b = b' ∨ ∃ t t' v, b = .value t v ∧ b' = .value t' v := by
  cases b with
  | value t v =>
    cases b' with
    | value t' v' =>
      rw [Binding.untyped, Binding.untyped, Binding.value.injEq] at h
      exact .inr ⟨t, t', v, rfl, h.2 ▸ rfl⟩
    | _ => cases h
  | external => cases b' <;> first | exact .inl rfl | cases h
  | object l =>
    cases b' with
    | object l' => exact .inl h
    | _ => cases h

mutual

theorem eval_congr : (e : CExpr) → (∀ x ∈ names e, (ρ x).untyped = (ρ' x).untyped) →
    eval M ρ e = eval M ρ' e
  | .ident x, h => by
    rw [eval, eval]
    rcases untyped_cases (h x List.mem_cons_self) with hx | ⟨t, t', v, hx, hx'⟩
    · rw [hx]
    · rw [hx, hx']
  | .num _, _ => by rw [eval, eval]
  | .paren e, h => by rw [eval, eval, eval_congr e h]
  | .call f args, h => by
    rw [names, List.forall_mem_append] at h
    rw [eval, eval, eval_congr f h.1, evalAll_congr args h.2]
  | .index e i, h => by
    rw [names, List.forall_mem_append] at h
    rw [eval, eval, eval_congr e h.1, eval_congr i h.2]
  | .member e _, h => by rw [eval, eval, place_congr e h]
  | .arrow e _, h => by rw [eval, eval, eval_congr e h]
  | .lnot e, h => by rw [eval, eval, eval_congr e h]
  | .addr e, h => by rw [eval, eval, place_congr e h]
  | .cast _ e, h => by rw [eval, eval, eval_congr e h]
  | .binary _ l r, h => by
    rw [names, List.forall_mem_append] at h
    rw [eval, eval, eval_congr l h.1, eval_congr r h.2]

theorem place_congr : (e : CExpr) → (∀ x ∈ names e, (ρ x).untyped = (ρ' x).untyped) →
    place M ρ e = place M ρ' e
  | .ident x, h => by
    rw [place, place]
    rcases untyped_cases (h x List.mem_cons_self) with hx | ⟨t, t', v, hx, hx'⟩
    · rw [hx]
    · rw [hx, hx']
  | .num _, _ => by rw [place, place] <;> exact nofun
  | .paren e, h => by rw [place, place, place_congr e h]
  | .call _ _, _ => by rw [place, place] <;> exact nofun
  | .index e i, h => by
    rw [names, List.forall_mem_append] at h
    rw [place, place, eval_congr e h.1, eval_congr i h.2]
  | .member e _, h => by rw [place, place, place_congr e h]
  | .arrow e _, h => by rw [place, place, eval_congr e h]
  | .lnot _, _ => by rw [place, place] <;> exact nofun
  | .addr _, _ => by rw [place, place] <;> exact nofun
  | .cast _ _, _ => by rw [place, place] <;> exact nofun
  | .binary _ _ _, _ => by rw [place, place] <;> exact nofun

theorem evalAll_congr : (es : List CExpr) → (∀ x ∈ namesAll es, (ρ x).untyped = (ρ' x).untyped) →
    evalAll M ρ es = evalAll M ρ' es
  | [], _ => rfl
  | e :: es, h => by
    rw [namesAll, List.forall_mem_append] at h
    rw [evalAll, evalAll, eval_congr e h.1, evalAll_congr es h.2]

end

end Congruence

section Steadiness

/-- Whether an expression is built from constants and variables by operators alone. -/
def steady : CExpr → Bool
  | .ident _ => true
  | .num _ => true
  | .paren e => steady e
  | .lnot e => steady e
  | .cast _ e => steady e
  | .binary _ l r => steady l && steady r
  | _ => false

variable {V L W : Type} {M : Machine V L W} {ρ : Env V L}

/-- A steady expression of variables that are in no memory has a value that nothing outside of them
changes, and no effect. -/
theorem eval_steady : (e : CExpr) → steady e = true →
    (∀ x ∈ names e, ∃ t v, ρ x = .value t v) → ∃ v : Option V, eval M ρ e = StateT.lift v
  | .ident x, _, hvalues => by
    obtain ⟨t, v, hv⟩ := hvalues x List.mem_cons_self
    exact ⟨v, by rw [eval, hv]⟩
  | .num n, _, _ => ⟨some (M.number n), rfl⟩
  | .paren e, hsteady, hvalues => by
    obtain ⟨v, hv⟩ := eval_steady e hsteady hvalues
    exact ⟨v, by rw [eval, hv]⟩
  | .lnot e, hsteady, hvalues => by
    obtain ⟨v, hv⟩ := eval_steady e hsteady hvalues
    refine ⟨v.map fun v => M.number (if M.truth v then 0 else 1), ?_⟩
    rw [eval, hv]
    cases v <;> rfl
  | .cast t e, hsteady, hvalues => by
    obtain ⟨v, hv⟩ := eval_steady e hsteady hvalues
    refine ⟨v.map (M.convert t), ?_⟩
    rw [eval, hv]
    cases v <;> rfl
  | .binary o l r, hsteady, hvalues => by
    rw [names, List.forall_mem_append] at hvalues
    rw [steady, Bool.and_eq_true] at hsteady
    obtain ⟨a, ha⟩ := eval_steady l hsteady.1 hvalues.1
    obtain ⟨b, hb⟩ := eval_steady r hsteady.2 hvalues.2
    rw [eval, ha, hb]
    cases a with
    | none => exact ⟨none, rfl⟩
    | some a =>
      cases hdecided : decided o (M.truth a) with
      | some n =>
        refine ⟨some (M.number n), ?_⟩
        funext w
        simp [StateT.lift, bind, StateT.bind, hdecided, pure, StateT.pure]
      | none =>
        refine ⟨b.bind (M.binary o a), ?_⟩
        funext w
        cases b <;> simp [StateT.lift, bind, StateT.bind, hdecided, pure]
  | .call _ _, hsteady, _ => absurd hsteady Bool.false_ne_true
  | .index _ _, hsteady, _ => absurd hsteady Bool.false_ne_true
  | .member _ _, hsteady, _ => absurd hsteady Bool.false_ne_true
  | .arrow _ _, hsteady, _ => absurd hsteady Bool.false_ne_true
  | .addr _, hsteady, _ => absurd hsteady Bool.false_ne_true

end Steadiness

end OpaeLibs.Lib.CEvaluation
