import OpaeLibs.OpaeC.ApiShell

namespace OpaeLibs.OpaeC.Enumerate

open OpaeLibs.Lib.Heap
open OpaeLibs.OpaeC.Props OpaeLibs.OpaeC.ApiShell

/-- What an adapter's `fpgaEnumerate` returns: `tokens` is what it stores from the start of the
array on. -/
structure EnumerateReply where
  res : FpgaResult
  tokens : List Nat
  numMatches : UInt32
deriving DecidableEq, Repr

/-- An adapter's `fpgaEnumerate` is a function of the filters, of whether it is given an array and
of its size. `malloc` is asked per filter and per token wrapped. -/
structure EnumerateEnv where
  calloc : Bool
  fixupMalloc : Nat → Bool
  tokenMalloc : Nat → Bool
  enumerate : Nat → List (FpgaProperties TokenPtr) → Bool → UInt32 → EnumerateReply

structure OpaeEnumerationContext where
  filters : List (FpgaProperties TokenPtr)
  /-- The part of the caller's array that has been written. -/
  wrappedTokens : Option (List Nat)
  maxWrappedTokens : UInt32
  numMatches : UInt32
  adapterTokens : Option (List (Option OpaePtr))
  numWrappedTokens : UInt32
  errors : Nat
deriving DecidableEq, Repr

/-- The plugin pointers among the filters' parents. -/
def filterParents (filters : List (FpgaProperties TokenPtr)) : List OpaePtr :=
  filters.filterMap fun (p : FpgaProperties TokenPtr) =>
    if fieldValid p fpgaPropertyParent then
      match p.parent with
      | some (.opae parent) => some parent
      | _ => none
    else none

def overwrite (cells : List (Option OpaePtr)) (tokens : List OpaePtr) : List (Option OpaePtr) :=
  tokens.map some ++ cells.drop tokens.length

/-- The `for` loop of `opae_enumerate`; the flag is cleared if it is left early. -/
def wrapTokens (tables : Tables) (env : EnumerateEnv) (adapter : Nat) :
    OpaeEnumerationContext → Shell → List (Option OpaePtr) →
      Option (Bool × OpaeEnumerationContext × Shell)
  | ctx, s, [] => some (true, ctx, s)
  | ctx, s, token :: rest => do
    let (wt, s) ← opaeAllocateWrappedToken (env.tokenMalloc ctx.numWrappedTokens.toNat) s token
      adapter
    match wt with
    | none => return (false, { ctx with errors := ctx.errors + 1 }, s)
    | some wt =>
      match ctx.wrappedTokens with
      | some written =>
        wrapTokens tables env adapter
          { ctx with
            wrappedTokens := some (written ++ [wt])
            numWrappedTokens := ctx.numWrappedTokens + 1 } s rest
      | none => do
        let (_, s) ← opaeDestroyWrappedToken tables .ok s wt
        wrapTokens tables env adapter ctx s rest

/-- The flag is `OPAE_ENUM_STOP`. -/
def opaeEnumerate (tables : Tables) (env : EnumerateEnv) (adapter : Nat)
    (st : OpaeEnumerationContext × Shell) : Option (Bool × OpaeEnumerationContext × Shell) :=
  let (ctx, s) := st
  let spaceRemaining := ctx.maxWrappedTokens - ctx.numWrappedTokens
  if ctx.wrappedTokens.isSome ∧ spaceRemaining = 0 then some (true, ctx, s)
  else if !tables adapter .fpgaEnumerate then some (false, ctx, s)
  else
    let s := dispatch s adapter .fpgaEnumerate ((filterParents ctx.filters).map some)
    let reply := env.enumerate adapter ctx.filters ctx.adapterTokens.isSome spaceRemaining
    let ctx := { ctx with
      adapterTokens := ctx.adapterTokens.map fun cells =>
        overwrite cells (reply.tokens.map fun t => ⟨adapter, t⟩) }
    if reply.res ≠ .ok then some (false, { ctx with errors := ctx.errors + 1 }, s)
    else
      let ctx := { ctx with numMatches := ctx.numMatches + reply.numMatches }
      match ctx.adapterTokens with
      | none => some (false, ctx, s)
      | some cells => do
        let spaceRemaining :=
          if spaceRemaining > reply.numMatches then reply.numMatches else spaceRemaining
        let (completed, ctx, s) ←
          wrapTokens tables env adapter ctx s (cells.take spaceRemaining.toNat)
        if !completed then return (true, ctx, s)
        else return (ctx.numWrappedTokens = ctx.maxWrappedTokens, ctx, s)

def opaePluginMgrForEachAdapter {σ : Type} (callback : Nat → σ → Option (Bool × σ)) :
    List Nat → σ → Option σ
  | [], st => some st
  | adapter :: rest, st => do
    let (stop, st) ← callback adapter st
    if stop then return st else opaePluginMgrForEachAdapter callback rest st

structure ParentTokenFixup where
  prop : Nat
  wrappedToken : Nat
deriving DecidableEq, Repr

/-- The pass over the filters that puts the plugins' tokens in place of the wrapped parents. -/
def unwrapParents (env : EnumerateEnv) (s : Shell) (ptfList : List ParentTokenFixup) (i : Nat) :
    List (Option Nat) → Option (Except FpgaError Unit × List ParentTokenFixup × Shell)
  | [] => some (.ok (), ptfList, s)
  | f :: rest => do
    match ← validate s.props f with
    | none => return (.error ⟨.invalidParam, FpgaResult.invalidParam_ne_ok⟩, ptfList, s)
    | some (id, p) =>
      if fieldValid p fpgaPropertyParent then
        match ← opaeValidateWrappedToken s p.parent with
        | none => return (.error ⟨.invalidParam, FpgaResult.invalidParam_ne_ok⟩, ptfList, s)
        | some (parent, wt) =>
          if !env.fixupMalloc i then
            return (.error ⟨.noMemory, FpgaResult.noMemory_ne_ok⟩, ptfList, s)
          else
            let p := { p with parent := wt.opaeToken.map .opae }
            unwrapParents env { s with props := s.props.set id p } (⟨id, parent⟩ :: ptfList) (i + 1)
              rest
      else unwrapParents env s ptfList (i + 1) rest

def restoreParents (s : Shell) : List ParentTokenFixup → Option Shell
  | [] => some s
  | trash :: rest => do
    match ← validate s.props (some trash.prop) with
    | none => restoreParents s rest
    | some (id, p) =>
      let p := { p with parent := some (.wrapped trash.wrappedToken) }
      restoreParents { s with props := s.props.set id p } rest

/-- The arguments; `tokens` and `numMatches` say that the pointer is not `NULL`. -/
structure EnumerateArgs where
  filters : Option (List (Option Nat))
  numFilters : UInt32
  tokens : Bool
  maxTokens : UInt32
  numMatches : Bool
deriving DecidableEq, Repr

/-- `numMatches` is what is stored through the pointer, `tokens` what is stored in the array. -/
structure EnumerateResult where
  res : FpgaResult
  numMatches : Option UInt32
  tokens : List Nat
  shell : Shell
deriving DecidableEq, Repr

def EnumerateArgs.filterList (args : EnumerateArgs) : List (Option Nat) :=
  (args.filters.getD []).take args.numFilters.toNat

def enumerationContext (s : Shell) (args : EnumerateArgs) : OpaeEnumerationContext where
  filters := args.filterList.filterMap fun f => f.bind s.props.get
  wrappedTokens := if args.tokens then some [] else none
  maxWrappedTokens := args.maxTokens
  numMatches := 0
  adapterTokens := if args.tokens then some (List.replicate args.maxTokens.toNat none) else none
  numWrappedTokens := 0
  errors := 0

def fpgaEnumerate (tables : Tables) (env : EnumerateEnv) (adapters : List Nat) (s : Shell)
    (args : EnumerateArgs) : Option EnumerateResult :=
  if !args.numMatches then some ⟨.invalidParam, none, [], s⟩
  else if args.maxTokens > 0 ∧ !args.tokens then some ⟨.invalidParam, none, [], s⟩
  else if args.numFilters > 0 ∧ args.filters.isNone then some ⟨.invalidParam, none, [], s⟩
  else if args.numFilters = 0 ∧ args.filters.isSome then some ⟨.invalidParam, none, [], s⟩
  else if args.tokens ∧ !env.calloc then some ⟨.noMemory, some 0, [], s⟩
  else do
    let (unwrapped, ptfList, s) ← unwrapParents env s [] 0 args.filterList
    match unwrapped with
    | .error res =>
      let s ← restoreParents s ptfList
      return ⟨res.1, some 0, [], s⟩
    | .ok () =>
      let (ctx, s) ← opaePluginMgrForEachAdapter (opaeEnumerate tables env) adapters
        (enumerationContext s args, s)
      let s ← restoreParents s ptfList
      return ⟨if ctx.errors > 0 then .exception else .ok, some ctx.numMatches,
        ctx.wrappedTokens.getD [], s⟩

end OpaeLibs.OpaeC.Enumerate
