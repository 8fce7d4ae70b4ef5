import OpaeLibs.Lib.Outcomes
import OpaeLibs.OpaeC.EnumerateFilters
import OpaeLibs.OpaeC.TokenOwners
import OpaeLibs.PluginVfio.Enumerate
import OpaeLibs.PluginXfpga.Enumerate

namespace OpaeLibs.OpaeC.RepeatedFilter

open OpaeLibs.Lib.Heap OpaeLibs.Lib.Outcomes
open OpaeLibs.OpaeC.Props OpaeLibs.OpaeC.ApiShell OpaeLibs.OpaeC.Enumerate
open OpaeLibs.OpaeC.EnumerateTokens OpaeLibs.OpaeC.TokenOwners

section Alike

variable {tables : Tables} {env : EnumerateEnv}

/-- The shells differ at most in the calls that the plugins have seen. -/
def LogApart (s s' : Shell) : Prop := ∃ log, s' = { s with log := log }

/-- Two states of the enumeration: the filters of one are those of the other, in any order and
number. -/
structure Alike (st st' : OpaeEnumerationContext × Shell) : Prop where
  ctx : ∃ filters, st'.1 = { st.1 with filters := filters } ∧
    ∀ p, p ∈ st.1.filters ↔ p ∈ filters
  shell : LogApart st.2 st'.2

/-- The plugins take the filters for alternatives. -/
def Alternatives (env : EnumerateEnv) : Prop :=
  ∀ adapter filters filters', (∀ p, p ∈ filters ↔ p ∈ filters') →
    env.enumerate adapter filters = env.enumerate adapter filters'

def Paired {α : Type} (a a' : α × Shell) : Prop := a'.1 = a.1 ∧ LogApart a.2 a'.2

theorem LogApart.dispatch {s s' : Shell} (h : LogApart s s') (adapter : Nat) (fn : ApiFn)
    (args args' : List (Option OpaePtr)) :
    LogApart (dispatch s adapter fn args) (dispatch s' adapter fn args') := by
  obtain ⟨log, rfl⟩ := h
  exact ⟨_, rfl⟩

theorem opaeUprefWrappedToken_rel {s s' : Shell} (h : LogApart s s') (t : Nat) :
    Option.Rel LogApart (opaeUprefWrappedToken s t) (opaeUprefWrappedToken s' t) := by
  obtain ⟨log, rfl⟩ := h
  rw [opaeUprefWrappedToken, opaeUprefWrappedToken]
  cases s.tokens.get t with
  | none => exact .none
  | some wt =>
    simp only [Option.bind_eq_bind, Option.bind_some]
    split <;> exact .some ⟨log, rfl⟩

theorem opaeDownrefWrappedToken_rel {s s' : Shell} (h : LogApart s s') (destroyed : FpgaResult)
    (t : Nat) : Option.Rel Paired (opaeDownrefWrappedToken tables destroyed s t)
      (opaeDownrefWrappedToken tables destroyed s' t) := by
  obtain ⟨log, rfl⟩ := h
  rw [opaeDownrefWrappedToken, opaeDownrefWrappedToken]
  cases s.tokens.get t with
  | none => exact .none
  | some wt =>
    simp only [Option.bind_eq_bind, Option.bind_some]
    split
    · split
      · exact .some ⟨rfl, _, rfl⟩
      · exact .some ⟨rfl, log, rfl⟩
    · exact .some ⟨rfl, log, rfl⟩

theorem opaeAllocateWrappedToken_rel {s s' : Shell} (h : LogApart s s') (malloc : Bool)
    (token : Option OpaePtr) (adapter : Nat) :
    Option.Rel Paired (opaeAllocateWrappedToken malloc s token adapter)
      (opaeAllocateWrappedToken malloc s' token adapter) := by
  rw [opaeAllocateWrappedToken, opaeAllocateWrappedToken]
  cases malloc with
  | false => exact .some ⟨rfl, h⟩
  | true =>
    obtain ⟨log, rfl⟩ := h
    apply rel_bind
    · apply opaeUprefWrappedToken_rel
      exact ⟨log, rfl⟩
    · exact fun a b hab => .some ⟨rfl, hab⟩

theorem wrapTokens_rel (adapter : Nat) {ctx ctx' : OpaeEnumerationContext} {s s' : Shell}
    (h : Alike (ctx, s) (ctx', s')) (cells : List (Option OpaePtr)) :
    Option.Rel (fun a b => b.1 = a.1 ∧ Alike a.2 b.2) (wrapTokens tables env adapter ctx s cells)
      (wrapTokens tables env adapter ctx' s' cells) := by
  induction cells generalizing ctx ctx' s s' with
  | nil => exact .some ⟨rfl, h⟩
  | cons cell rest ih =>
    obtain ⟨⟨filters, hctx, hmem⟩, hs⟩ := h
    obtain rfl : ctx' = { ctx with filters := filters } := hctx
    rw [wrapTokens, wrapTokens]
    apply rel_bind (opaeAllocateWrappedToken_rel hs _ cell adapter)
    rintro ⟨wt, s₁⟩ ⟨wt', s₁'⟩ ⟨hwt, hs₁⟩
    obtain rfl : wt' = wt := hwt
    cases wt' with
    | none => exact .some ⟨rfl, ⟨filters, rfl, hmem⟩, hs₁⟩
    | some wt =>
      dsimp only
      cases hwritten : ctx.wrappedTokens with
      | some written => exact ih ⟨⟨filters, rfl, hmem⟩, hs₁⟩
      | none =>
        apply rel_bind (opaeDownrefWrappedToken_rel hs₁ .ok wt)
        rintro a b ⟨-, hab⟩
        exact ih ⟨⟨filters, by rw [← hwritten], hmem⟩, hab⟩

theorem opaeEnumerate_rel (halt : Alternatives env) (adapter : Nat)
    {st st' : OpaeEnumerationContext × Shell} (h : Alike st st') :
    Option.Rel (fun a b => b.1 = a.1 ∧ Alike a.2 b.2) (opaeEnumerate tables env adapter st)
      (opaeEnumerate tables env adapter st') := by
  obtain ⟨⟨ctx, s⟩, ⟨ctx', s'⟩⟩ := st, st'
  obtain ⟨⟨filters, hctx, hmem⟩, hs⟩ := h
  obtain rfl : ctx' = { ctx with filters := filters } := hctx
  have hreply := halt adapter ctx.filters filters hmem
  rw [opaeEnumerate, opaeEnumerate]
  dsimp only
  rw [← hreply]
  split
  · exact .some ⟨rfl, ⟨filters, rfl, hmem⟩, hs⟩
  split
  · exact .some ⟨rfl, ⟨filters, rfl, hmem⟩, hs⟩
  have hd := hs.dispatch adapter .fpgaEnumerate ((filterParents ctx.filters).map some)
    ((filterParents filters).map some)
  split
  · exact .some ⟨rfl, ⟨filters, rfl, hmem⟩, hd⟩
  cases ctx.adapterTokens with
  | none => exact .some ⟨rfl, ⟨filters, rfl, hmem⟩, hd⟩
  | some cells =>
    apply rel_bind
    · apply wrapTokens_rel
      exact ⟨⟨filters, rfl, hmem⟩, hd⟩
    · rintro ⟨completed, ctx₁, s₁⟩ ⟨completed', ctx₁', s₁'⟩ ⟨hcompleted, hst⟩
      obtain rfl : completed' = completed := hcompleted
      have hst' := hst
      obtain ⟨⟨fs, hctx, -⟩, -⟩ := hst'
      obtain rfl : ctx₁' = { ctx₁ with filters := fs } := hctx
      dsimp only
      split
      · exact .some ⟨rfl, hst⟩
      · exact .some ⟨rfl, hst⟩

theorem opaePluginMgrForEachAdapter_rel (halt : Alternatives env) (adapters : List Nat)
    {st st' : OpaeEnumerationContext × Shell} (h : Alike st st') :
    Option.Rel Alike (opaePluginMgrForEachAdapter (opaeEnumerate tables env) adapters st)
      (opaePluginMgrForEachAdapter (opaeEnumerate tables env) adapters st') := by
  induction adapters generalizing st st' with
  | nil => exact .some h
  | cons adapter rest ih =>
    rw [opaePluginMgrForEachAdapter, opaePluginMgrForEachAdapter]
    apply rel_bind (opaeEnumerate_rel halt adapter h)
    rintro ⟨stop, st₁⟩ ⟨stop', st₁'⟩ ⟨hstop, hst⟩
    obtain rfl : stop' = stop := hstop
    cases stop' with
    | true => exact .some hst
    | false => exact ih hst

theorem restoreParents_rel {s s' : Shell} (h : LogApart s s') (ptfList : List ParentTokenFixup) :
    Option.Rel LogApart (restoreParents s ptfList) (restoreParents s' ptfList) := by
  induction ptfList generalizing s s' with
  | nil => exact .some h
  | cons trash rest ih =>
    obtain ⟨log, rfl⟩ := h
    rw [restoreParents, restoreParents]
    cases validate s.props (some trash.prop) with
    | none => exact .none
    | some v =>
      cases v with
      | none => exact ih ⟨log, rfl⟩
      | some v => exact ih ⟨log, rfl⟩

end Alike

section Unwrapping

variable {env : EnumerateEnv} (hmalloc : ∀ i, env.fixupMalloc i = true)

def parentSet (s : Shell) (f : Option Nat) : Bool :=
  (f.bind s.props.get).any fun p => fieldValid p fpgaPropertyParent

/-- A filter is an object without a parent or with one that is wrapped. -/
def ValidFilter (s : Shell) (f : Option Nat) : Prop :=
  ∃ p, f.bind s.props.get = some p ∧ (fieldValid p fpgaPropertyParent →
    ∃ t wt, p.parent = some (.wrapped t) ∧ s.tokens.get t = some wt)

/-- All filters are valid, and none that has a parent is listed twice. -/
structure Accepted (s : Shell) (filters : List (Option Nat)) : Prop where
  valid : ∀ f ∈ filters, ValidFilter s f
  once : (filters.filter (parentSet s)).Nodup

variable {s : Shell} {filters : List (Option Nat)}

theorem Accepted.congr {s' : Shell} (h : Accepted s filters) (htokens : s'.tokens = s.tokens)
    (hprops : ∀ f ∈ filters, f.bind s'.props.get = f.bind s.props.get) : Accepted s' filters := by
  obtain ⟨hvalid, honce⟩ := h
  have hset : filters.filter (parentSet s') = filters.filter (parentSet s) := by
    apply List.filter_congr
    intro f hf
    rw [parentSet, parentSet, hprops f hf]
  refine ⟨fun f hf => ?_, hset ▸ honce⟩
  obtain ⟨p, hp, hparent⟩ := hvalid f hf
  exact ⟨p, (hprops f hf).trans hp, htokens ▸ hparent⟩

theorem accepted_cons_plain {f : Option Nat} (hvalid : ValidFilter s f)
    (hplain : ¬parentSet s f = true) : Accepted s (f :: filters) ↔ Accepted s filters := by
  constructor
  · rintro ⟨hvalid, honce⟩
    rw [List.filter_cons_of_neg hplain] at honce
    exact ⟨fun g hg => hvalid g (List.mem_cons_of_mem f hg), honce⟩
  · rintro ⟨hall, honce⟩
    rw [← List.filter_cons_of_neg hplain] at honce
    exact ⟨List.forall_mem_cons.mpr ⟨hvalid, hall⟩, honce⟩

theorem accepted_cons_parent {f : Option Nat} (hvalid : ValidFilter s f)
    (hparent : parentSet s f = true) :
    Accepted s (f :: filters) ↔ f ∉ filters ∧ Accepted s filters := by
  constructor
  · rintro ⟨hvalid, honce⟩
    rw [List.filter_cons_of_pos hparent, List.nodup_cons] at honce
    obtain ⟨hfresh, honce⟩ := honce
    exact ⟨fun hf => hfresh (List.mem_filter.mpr ⟨hf, hparent⟩),
      fun g hg => hvalid g (List.mem_cons_of_mem f hg), honce⟩
  · rintro ⟨hfresh, hall, honce⟩
    refine ⟨List.forall_mem_cons.mpr ⟨hvalid, hall⟩, ?_⟩
    rw [List.filter_cons_of_pos hparent, List.nodup_cons]
    exact ⟨fun hf => hfresh (List.mem_filter.mp hf).1, honce⟩

theorem Accepted.sublist (h : Accepted s filters) {filters' : List (Option Nat)}
    (hsub : filters'.Sublist filters) : Accepted s filters' :=
  ⟨fun f hf => h.valid f (hsub.subset hf), h.once.sublist (hsub.filter (parentSet s))⟩

theorem not_accepted_twice {f : Option Nat} {before after : List (Option Nat)}
    (hf : f ∈ before ++ after) (hset : parentSet s f = true) :
    ¬Accepted s (before ++ f :: after) := by
  rintro ⟨-, honce⟩
  rw [List.filter_append, List.filter_cons_of_pos hset, List.nodup_middle, ← List.filter_append,
    List.nodup_cons] at honce
  exact honce.1 (List.mem_filter.mpr ⟨hf, hset⟩)

theorem accepted_unwrapped {id t : Nat} {wt : OpaeWrappedToken} {p : FpgaProperties TokenPtr}
    (hp : s.props.get id = some p) (hfield : fieldValid p fpgaPropertyParent)
    (hparent : p.parent = some (.wrapped t)) (hwt : s.tokens.get t = some wt) :
    Accepted { s with props := s.props.set id { p with parent := wt.opaeToken.map .opae } }
      filters ↔ Accepted s (some id :: filters) := by
  have hvalid : ValidFilter s (some id) := ⟨p, hp, fun _ => ⟨t, wt, hparent, hwt⟩⟩
  have hset : parentSet s (some id) = true := by
    rw [parentSet, Option.bind_some, hp, Option.any_some]
    exact decide_eq_true hfield
  rw [accepted_cons_parent hvalid hset]
  have hother : some id ∉ filters → ∀ f ∈ filters, f.bind
      (s.props.set id { p with parent := wt.opaeToken.map .opae }).get = f.bind s.props.get := by
    intro hfresh f hf
    cases f with
    | none => rfl
    | some i =>
      have hne : i ≠ id := fun he => hfresh (he ▸ hf)
      rw [Option.bind_some, Option.bind_some, Slots.get_set hp, if_neg hne]
  constructor
  · intro h
    have hfresh : some id ∉ filters := by
      intro hmem
      obtain ⟨q, hq, hwrapped⟩ := h.valid _ hmem
      rw [Option.bind_some, Slots.get_set hp, if_pos rfl] at hq
      obtain rfl := Option.some.inj hq
      obtain ⟨t', wt', ht', -⟩ := hwrapped hfield
      obtain ⟨q, -, hq⟩ := Option.map_eq_some_iff.mp ht'
      exact nomatch hq
    exact ⟨hfresh, h.congr rfl fun f hf => (hother hfresh f hf).symm⟩
  · rintro ⟨hfresh, h⟩
    exact h.congr rfl (hother hfresh)

include hmalloc

theorem unwrapParents_outcome (hlive : FiltersLive s filters) (ptfList : List ParentTokenFixup)
    (i : Nat) : ∃ res ptfs s', unwrapParents env s ptfList i filters = some (res, ptfs, s') ∧
      ((Accepted s filters ∧ res = .ok ()) ∨
        (¬Accepted s filters ∧ res = .error ⟨.invalidParam, FpgaResult.invalidParam_ne_ok⟩)) := by
  induction filters generalizing s ptfList i with
  | nil => exact ⟨_, _, _, rfl, .inl ⟨⟨(fun _ h => by cases h), List.nodup_nil⟩, rfl⟩⟩
  | cons f rest ih =>
    cases f with
    | none =>
      refine ⟨_, _, _, rfl, .inr ⟨fun h => ?_, rfl⟩⟩
      obtain ⟨p, hp, -⟩ := h.valid none List.mem_cons_self
      cases hp
    | some id =>
      obtain ⟨p, hp, hwrapped⟩ := hlive id List.mem_cons_self
      have hrest : FiltersLive s rest := fun i hi => hlive i (List.mem_cons_of_mem _ hi)
      rw [unwrapParents, validate, hp]
      simp only [Option.map_some, Option.bind_eq_bind, Option.bind_some]
      by_cases hfield : fieldValid p fpgaPropertyParent
      · rw [if_pos hfield]
        have htoken : ∀ t ∈ wrappedId p.parent, ∃ wt, s.tokens.get t = some wt := by
          intro t ht
          apply hwrapped hfield
          rcases hparent : p.parent with _ | ⟨_ | _⟩ <;> rw [hparent] at ht <;> cases ht
          rfl
        obtain ⟨t, wt, hparent, hwt, he⟩ | ⟨hnone, he⟩ := validateToken_cases p.parent htoken
        · rw [he]
          simp only [Option.bind_some, hmalloc, Bool.not_true, Bool.false_eq_true, if_false]
          have hunwrapped : FiltersLive { s with
              props := s.props.set id { p with parent := wt.opaeToken.map .opae } } rest :=
            hlive.set hp fun t => by cases wt.opaeToken <;> simp
          obtain ⟨res, ptfs, s', hu, hres⟩ := ih hunwrapped (⟨id, t⟩ :: ptfList) (i + 1)
          rw [accepted_unwrapped hp hfield hparent hwt] at hres
          exact ⟨res, ptfs, s', hu, hres⟩
        · rw [he]
          refine ⟨_, _, _, rfl, .inr ⟨fun h => ?_, rfl⟩⟩
          obtain ⟨q, hq, hparent⟩ := h.valid (some id) List.mem_cons_self
          obtain rfl := Option.some.inj (hp.symm.trans hq)
          obtain ⟨t, wt, ht, -⟩ := hparent hfield
          rw [ht] at hnone
          cases hnone
      · rw [if_neg hfield]
        obtain ⟨res, ptfs, s', hu, hres⟩ := ih hrest ptfList (i + 1)
        have hvalid : ValidFilter s (some id) := ⟨p, hp, fun h => absurd h hfield⟩
        have hplain : ¬parentSet s (some id) = true := by
          rw [parentSet, Option.bind_some, hp, Option.any_some]
          simpa using hfield
        rw [← accepted_cons_plain hvalid hplain] at hres
        exact ⟨res, ptfs, s', hu, hres⟩

theorem unwrapParents_index (ptfList : List ParentTokenFixup) (i j : Nat) :
    unwrapParents env s ptfList i filters = unwrapParents env s ptfList j filters := by
  induction filters generalizing s ptfList i j with
  | nil => rfl
  | cons f rest ih =>
    rw [unwrapParents, unwrapParents]
    congr 1
    ext1 v
    cases v with
    | none => rfl
    | some v =>
      obtain ⟨id, p⟩ := v
      dsimp only
      split
      · congr 1
        ext1 w
        cases w with
        | none => rfl
        | some w =>
          dsimp only
          rw [hmalloc i, hmalloc j]
          exact ih _ (i + 1) (j + 1)
      · exact ih ptfList (i + 1) (j + 1)

theorem unwrapParents_skip {id : Nat} {p : FpgaProperties TokenPtr} (hp : s.props.get id = some p)
    (hplain : ¬fieldValid p fpgaPropertyParent) (ptfList : List ParentTokenFixup) (i j : Nat)
    (before after : List (Option Nat)) :
    unwrapParents env s ptfList i (before ++ some id :: after) =
      unwrapParents env s ptfList j (before ++ after) := by
  induction before generalizing s ptfList i j with
  | nil =>
    rw [List.nil_append, List.nil_append, unwrapParents, validate, hp]
    simp only [Option.map_some, Option.bind_eq_bind, Option.bind_some, if_neg hplain]
    exact unwrapParents_index hmalloc ptfList (i + 1) j
  | cons f before ih =>
    rw [List.cons_append, List.cons_append, unwrapParents, unwrapParents]
    cases hf : validate s.props f with
    | none => rfl
    | some v =>
      cases v with
      | none => rfl
      | some v =>
        obtain ⟨id', p'⟩ := v
        simp only [Option.bind_eq_bind, Option.bind_some]
        split
        · next hfield =>
          cases opaeValidateWrappedToken s p'.parent with
          | none => rfl
          | some w =>
            cases w with
            | none => rfl
            | some w =>
              simp only [Option.bind_some, hmalloc, Bool.not_true, Bool.false_eq_true, if_false]
              apply ih
              have hp' : s.props.get id' = some p' := by
                cases f with
                | none => cases hf
                | some f =>
                  obtain ⟨q, hq, heq⟩ := Option.map_eq_some_iff.mp hf
                  obtain ⟨rfl, rfl⟩ := Prod.mk.inj (Option.some.inj heq)
                  exact hq
              have hne : id ≠ id' := by
                rintro rfl
                obtain rfl := Option.some.inj (hp.symm.trans hp')
                exact hplain hfield
              rw [Slots.get_set hp', if_neg hne]
              exact hp
        · exact ih hp ptfList (i + 1) (j + 1)

end Unwrapping

section Calls

def withFilters (args : EnumerateArgs) (filters : List (Option Nat)) : EnumerateArgs :=
  { args with filters := some filters, numFilters := UInt32.ofNat filters.length }

/-- The call gives up before it looks at the filters. -/
def Refused (env : EnumerateEnv) (args : EnumerateArgs) : Prop :=
  args.numMatches = false ∨ (args.maxTokens > 0 ∧ args.tokens = false) ∨
    (args.tokens = true ∧ env.calloc = false)

structure SameResult (r r' : EnumerateResult) : Prop where
  res : r.res = r'.res
  numMatches : r.numMatches = r'.numMatches
  tokens : r.tokens = r'.tokens
  wrappers : r.tokens.map r.shell.tokens.get = r'.tokens.map r'.shell.tokens.get

def Agree (o o' : Option EnumerateResult) : Prop :=
  ∃ r r', o = some r ∧ o' = some r' ∧ SameResult r r'

variable {tables : Tables} {env : EnumerateEnv} {adapters : List Nat} {s : Shell}
  {args : EnumerateArgs} {filters : List (Option Nat)}

theorem filterList_withFilters (hlen : filters.length < 2 ^ 32) :
    (withFilters args filters).filterList = filters := by
  have hnum : (UInt32.ofNat filters.length).toNat = filters.length :=
    UInt32.toNat_ofNat_of_lt' hlen
  rw [EnumerateArgs.filterList, withFilters, hnum]
  exact List.take_length

theorem agree_some {r r' : EnumerateResult} :
    Agree (some r) (some r') ↔ SameResult r r' := by
  constructor
  · rintro ⟨q, q', hq, hq', h⟩
    obtain rfl := Option.some.inj hq
    obtain rfl := Option.some.inj hq'
    exact h
  · exact fun h => ⟨r, r', rfl, rfl, h⟩

theorem sameResult_refl (r : EnumerateResult) : SameResult r r := ⟨rfl, rfl, rfl, rfl⟩

theorem numFilters_ne_zero (hne : filters ≠ []) (hlen : filters.length < 2 ^ 32) :
    UInt32.ofNat filters.length ≠ 0 := by
  intro hzero
  have hnat := congrArg UInt32.toNat hzero
  rw [UInt32.toNat_ofNat_of_lt' hlen] at hnat
  exact hne (List.length_eq_zero_iff.mp hnat)

theorem fpgaEnumerate_refused (h : Refused env args) (tables : Tables) (adapters : List Nat)
    (s : Shell) : ∃ r, ∀ filters, filters ≠ [] → filters.length < 2 ^ 32 →
      fpgaEnumerate tables env adapters s (withFilters args filters) = some r := by
  by_cases h1 : args.numMatches = true
  swap
  · refine ⟨⟨.invalidParam, none, [], s⟩, fun filters _ _ => ?_⟩
    rw [fpgaEnumerate, if_pos (by simpa [withFilters] using h1)]
  by_cases h2 : args.maxTokens > 0 ∧ !args.tokens
  · refine ⟨⟨.invalidParam, none, [], s⟩, fun filters _ _ => ?_⟩
    rw [fpgaEnumerate, if_neg (by simpa [withFilters] using h1), if_pos (by exact h2)]
  have h5 : args.tokens ∧ !env.calloc := by
    obtain h | ⟨hmax, htokens⟩ | ⟨htokens, hcalloc⟩ := h
    · exact absurd h (by simp [h1])
    · exact absurd ⟨hmax, by simp [htokens]⟩ h2
    · exact ⟨htokens, by simp [hcalloc]⟩
  refine ⟨⟨.noMemory, some 0, [], s⟩, fun filters hne hlen => ?_⟩
  rw [fpgaEnumerate, if_neg (by simpa [withFilters] using h1), if_neg (by exact h2),
    if_neg (by simp [withFilters]), if_neg (by simp [withFilters, numFilters_ne_zero hne hlen]),
    if_pos (by exact h5)]

section Passes

variable (h : ¬Refused env args) (hne : filters ≠ []) (hlen : filters.length < 2 ^ 32)
  {ptfList : List ParentTokenFixup} {s' : Shell}
include h hne hlen

theorem fpgaEnumerate_unwraps :
    fpgaEnumerate tables env adapters s (withFilters args filters) =
      (unwrapParents env s [] 0 filters).bind fun (unwrapped, ptfList, s') =>
        match unwrapped with
        | .error res => (restoreParents s' ptfList).bind fun s => some ⟨res.1, some 0, [], s⟩
        | .ok () => (opaePluginMgrForEachAdapter (opaeEnumerate tables env) adapters
          (enumerationContext s' (withFilters args filters), s')).bind fun (ctx, s) =>
            (restoreParents s ptfList).bind fun s =>
              some ⟨if ctx.errors > 0 then .exception else .ok, some ctx.numMatches,
                ctx.wrappedTokens.getD [], s⟩ := by
  simp only [Refused, not_or, not_and] at h
  obtain ⟨h1, h2, h5⟩ := h
  rw [fpgaEnumerate, if_neg (by simpa [withFilters] using h1),
    if_neg (by simpa [withFilters] using h2), if_neg (by simp [withFilters]),
    if_neg (by simp [withFilters, numFilters_ne_zero hne hlen]),
    if_neg (by simpa [withFilters] using h5), filterList_withFilters hlen]
  rfl

theorem fpgaEnumerate_error {res : FpgaError}
    (hu : unwrapParents env s [] 0 filters = some (.error res, ptfList, s')) :
    fpgaEnumerate tables env adapters s (withFilters args filters) =
      some ⟨res.1, some 0, [], s⟩ := by
  obtain ⟨⟨ps, hs'⟩, ⟨new, rfl, hback⟩, -⟩ := undoable_of_unwrapParents hu
  have hs : { s' with props := s.props } = s := by rw [show s' = _ from hs']
  rw [fpgaEnumerate_unwraps h hne hlen, hu]
  simp only [Option.bind_some]
  rw [hback s' rfl, restoreParents, hs]
  rfl

theorem fpgaEnumerate_ok
    (hu : unwrapParents env s [] 0 filters = some (.ok (), ptfList, s')) :
    fpgaEnumerate tables env adapters s (withFilters args filters) =
      (opaePluginMgrForEachAdapter (opaeEnumerate tables env) adapters
        (enumerationContext s' (withFilters args filters), s')).bind fun st =>
          (restoreParents st.2 ptfList).bind fun s =>
            some ⟨if st.1.errors > 0 then .exception else .ok, some st.1.numMatches,
              st.1.wrappedTokens.getD [], s⟩ := by
  rw [fpgaEnumerate_unwraps h hne hlen, hu]
  rfl

theorem res_ne_invalidParam (hu : unwrapParents env s [] 0 filters = some (.ok (), ptfList, s'))
    {r : EnumerateResult}
    (hr : fpgaEnumerate tables env adapters s (withFilters args filters) = some r) :
    r.res ≠ .invalidParam := by
  rw [fpgaEnumerate_ok h hne hlen hu] at hr
  obtain ⟨st, -, hr⟩ := Option.bind_eq_some_iff.mp hr
  obtain ⟨t, -, hr⟩ := Option.bind_eq_some_iff.mp hr
  obtain rfl := Option.some.inj hr
  dsimp only
  split <;> exact nofun

end Passes

theorem enumerationContext_alike {filters' : List (Option Nat)}
    (hmem : ∀ f, f ∈ filters ↔ f ∈ filters') (hlen : filters.length < 2 ^ 32)
    (hlen' : filters'.length < 2 ^ 32) :
    Alike (enumerationContext s (withFilters args filters), s)
      (enumerationContext s (withFilters args filters'), s) := by
  refine ⟨⟨filters'.filterMap fun f => f.bind s.props.get, ?_, ?_⟩, s.log, rfl⟩
  · rw [enumerationContext, enumerationContext, filterList_withFilters hlen']
    rfl
  · intro p
    rw [enumerationContext, filterList_withFilters hlen, List.mem_filterMap, List.mem_filterMap]
    exact exists_congr fun f => and_congr_left fun _ => hmem f

theorem agree_of_same_members (halt : Alternatives env) (h : ¬Refused env args)
    {filters' : List (Option Nat)} (hmem : ∀ f, f ∈ filters ↔ f ∈ filters') (hne : filters ≠ [])
    (hne' : filters' ≠ []) (hlen : filters.length < 2 ^ 32) (hlen' : filters'.length < 2 ^ 32)
    (hlive : FiltersLive s filters) {ptfList : List ParentTokenFixup} {s' : Shell}
    (hu : unwrapParents env s [] 0 filters = some (.ok (), ptfList, s'))
    (hu' : unwrapParents env s [] 0 filters' = some (.ok (), ptfList, s')) :
    Agree (fpgaEnumerate tables env adapters s (withFilters args filters))
      (fpgaEnumerate tables env adapters s (withFilters args filters')) := by
  have hrel : Option.Rel SameResult
      (fpgaEnumerate tables env adapters s (withFilters args filters))
      (fpgaEnumerate tables env adapters s (withFilters args filters')) := by
    rw [fpgaEnumerate_ok h hne hlen hu, fpgaEnumerate_ok h hne' hlen' hu']
    apply rel_bind (opaePluginMgrForEachAdapter_rel halt adapters
      (enumerationContext_alike hmem hlen hlen'))
    rintro ⟨ctx, t⟩ ⟨ctx', t'⟩ ⟨⟨fs, hctx, -⟩, hshell⟩
    obtain rfl : ctx' = { ctx with filters := fs } := hctx
    apply rel_bind (restoreParents_rel hshell ptfList)
    rintro s₁ _ ⟨log, rfl⟩
    exact .some ⟨rfl, rfl, rfl, rfl⟩
  have hlisted : FiltersLive s (withFilters args filters).filterList := by
    rwa [filterList_withFilters hlen]
  obtain ⟨r, ws, hr, -⟩ := fpgaEnumerate_spec tables env adapters hlisted
  rw [hr] at hrel ⊢
  cases hr' : fpgaEnumerate tables env adapters s (withFilters args filters') with
  | none =>
    rw [hr'] at hrel
    exact nomatch hrel
  | some r' =>
    rw [hr'] at hrel
    exact ⟨r, r', rfl, rfl, Option.rel_some_some.mp hrel⟩

theorem mem_repeated {α : Type} {f : α} {before after : List α} (hf : f ∈ before ++ after)
    (g : α) : g ∈ before ++ after ↔ g ∈ before ++ f :: after := by
  rw [List.mem_append, List.mem_append, List.mem_cons]
  constructor
  · exact fun hg => hg.imp_right .inr
  · rintro (hg | rfl | hg)
    · exact .inl hg
    · exact List.mem_append.mp hf
    · exact .inr hg

/-- To list a filter once more changes nothing, unless it has a parent and would be accepted. -/
theorem repeated_filter_iff (tables : Tables) (adapters : List Nat) {env : EnumerateEnv}
    (halt : Alternatives env) (hmalloc : ∀ i, env.fixupMalloc i = true) {s : Shell}
    (args : EnumerateArgs) {f : Option Nat} {before after : List (Option Nat)}
    (hf : f ∈ before ++ after) (hlive : FiltersLive s (before ++ after))
    (hlen : (before ++ f :: after).length < 2 ^ 32) :
    Agree (fpgaEnumerate tables env adapters s (withFilters args (before ++ after)))
        (fpgaEnumerate tables env adapters s (withFilters args (before ++ f :: after))) ↔
      Refused env args ∨ parentSet s f = false ∨ ¬Accepted s (before ++ after) := by
  have hne : before ++ after ≠ [] := List.ne_nil_of_mem hf
  have hne' : before ++ f :: after ≠ [] := by simp
  have hlen' : (before ++ after).length < 2 ^ 32 := by
    rw [List.length_append] at hlen ⊢
    rw [List.length_cons] at hlen
    omega
  have hmem := mem_repeated hf
  have hlive' : FiltersLive s (before ++ f :: after) := fun id hid => hlive id ((hmem _).mpr hid)
  by_cases h : Refused env args
  · obtain ⟨r, hr⟩ := fpgaEnumerate_refused h tables adapters s
    rw [hr _ hne hlen', hr _ hne' hlen, agree_some]
    exact iff_of_true (sameResult_refl r) (.inl h)
  obtain ⟨res, ptfs, s₁, hu, hres⟩ := unwrapParents_outcome hmalloc hlive [] 0
  obtain ⟨res', ptfs', s₁', hu', hres'⟩ := unwrapParents_outcome hmalloc hlive' [] 0
  obtain ⟨haccepted, rfl⟩ | ⟨hrefused, rfl⟩ := hres
  · by_cases hset : parentSet s f = true
    · obtain ⟨haccepted', -⟩ | ⟨-, rfl⟩ := hres'
      · exact absurd haccepted' (not_accepted_twice hf hset)
      apply iff_of_false
      · rw [fpgaEnumerate_error h hne' hlen hu']
        rintro ⟨r, r', hr, hr', hsame⟩
        obtain rfl := Option.some.inj hr'
        exact res_ne_invalidParam h hne hlen' hu hr hsame.res
      · rintro (hr | hr | hr)
        · exact h hr
        · exact Bool.false_ne_true (hr.symm.trans hset)
        · exact hr haccepted
    · have hplain : parentSet s f = false := Bool.eq_false_iff.mpr hset
      refine iff_of_true ?_ (.inr (.inl hplain))
      obtain ⟨p, hp, -⟩ := haccepted.valid f hf
      obtain ⟨id, rfl, hget⟩ := Option.bind_eq_some_iff.mp hp
      have hnot : ¬fieldValid p fpgaPropertyParent := by
        rw [parentSet, hp, Option.any_some] at hplain
        exact of_decide_eq_false hplain
      have hskip := unwrapParents_skip hmalloc hget hnot [] 0 0 before after
      exact agree_of_same_members halt h hmem hne hne' hlen' hlen hlive hu (hskip.trans hu)
  · have hrefused' : ¬Accepted s (before ++ f :: after) :=
      fun haccepted => hrefused (haccepted.sublist (by simp))
    obtain ⟨haccepted', -⟩ | ⟨-, rfl⟩ := hres'
    · exact absurd haccepted' hrefused'
    rw [fpgaEnumerate_error h hne hlen' hu, fpgaEnumerate_error h hne' hlen hu', agree_some]
    exact iff_of_true (sameResult_refl _) (.inr (.inr hrefused))

section Sample

def sampleArgs : EnumerateArgs := ⟨none, 0, true, 2, true⟩

def plainShell : Shell := { start with props := .alloc .empty opaePropertiesCreate }

theorem alternatives_sampleEnv : Alternatives sampleEnv := fun _ _ _ _ => rfl

theorem repeated_filter_sample :
    Agree (fpgaEnumerate (fun _ _ => true) sampleEnv [0, 1] plainShell
        (withFilters sampleArgs [some 0]))
      (fpgaEnumerate (fun _ _ => true) sampleEnv [0, 1] plainShell
        (withFilters sampleArgs [some 0, some 0])) := by
  have hlive : FiltersLive plainShell ([] ++ [some 0]) := by
    intro id hid
    obtain rfl : id = 0 := by simpa using hid
    exact ⟨opaePropertiesCreate, rfl, fun _ t ht => nomatch ht⟩
  have hiff := repeated_filter_iff (fun _ _ => true) [0, 1] alternatives_sampleEnv (fun _ => rfl)
    sampleArgs (f := some 0) List.mem_cons_self hlive (by decide)
  exact hiff.mpr (.inr (.inl (by decide)))

/-- With its parent the object is turned down where it comes up again. -/
theorem repeated_parent_refused :
    Alternatives sampleEnv ∧
    (fpgaEnumerate (fun _ _ => true) sampleEnv [0, 1] EnumerateFilters.sampleShell
      (withFilters sampleArgs [some 0])).map (fun r => (r.res, r.numMatches)) =
        some (.ok, some 2) ∧
    (fpgaEnumerate (fun _ _ => true) sampleEnv [0, 1] EnumerateFilters.sampleShell
      (withFilters sampleArgs [some 0, some 0])).map (fun r => (r.res, r.numMatches)) =
        some (.invalidParam, some 0) :=
  ⟨alternatives_sampleEnv, by decide, by decide⟩

end Sample

end Calls

/-! The enumerations of both plugins take their filters for alternatives. -/

section Plugins

variable {α : Type} {l l' : List α}

theorem any_congr_members (h : ∀ a, a ∈ l ↔ a ∈ l') (p : α → Bool) : l.any p = l'.any p := by
  rw [Bool.eq_iff_iff, List.any_eq_true, List.any_eq_true]
  exact exists_congr fun a => and_congr_left fun _ => h a

theorem isEmpty_congr_members (h : ∀ a, a ∈ l ↔ a ∈ l') : l.isEmpty = l'.isEmpty := by
  rw [Bool.eq_iff_iff, List.isEmpty_iff, List.isEmpty_iff, List.eq_nil_iff_forall_not_mem,
    List.eq_nil_iff_forall_not_mem]
  exact forall_congr' fun a => not_congr (h a)

open OpaeLibs.PluginVfio.Enumerate in
theorem vfioFpgaEnumerate_alternatives {filters filters' : List PluginVfio.Enumerate.Filter}
    (h : ∀ f, f ∈ filters ↔ f ∈ filters')
    (clone : Nat → KnownToken → Option KnownToken) (maxTokens : UInt32)
    (devices : List KnownDevice) :
    vfioFpgaEnumerate clone (some filters) maxTokens devices =
      vfioFpgaEnumerate clone (some filters') maxTokens devices := by
  have hreports : reports (some filters) devices =
      reports (some filters') devices := by
    have hpci : pciMatchesFilters (some filters) = pciMatchesFilters (some filters') := by
      funext dev
      exact any_congr_members h _
    have hmatches : matchesFilters (some filters) = matchesFilters (some filters') := by
      funext t
      exact any_congr_members h _
    rw [reports, reports, hpci, hmatches]
  rw [vfioFpgaEnumerate_eq, vfioFpgaEnumerate_eq, hreports]

open OpaeLibs.PluginXfpga.Enumerate in
theorem xfpgaFpgaEnumerate_alternatives {π δ : Type} [DecidableEq π]
    {filters filters' : List (PluginXfpga.Enumerate.Filter π δ)}
    (h : ∀ f, f ∈ filters ↔ f ∈ filters') (env : EnumEnv π δ) (maxTokens : Nat)
    (init : FpgaResult) (devices : List (SysfsFpgaDevice π δ)) :
    enumerateWith env filters maxTokens (includeAfu filters) init devices =
      enumerateWith env filters' maxTokens (includeAfu filters') init devices := by
  have hempty := isEmpty_congr_members h
  have hconsider : ∀ acc n, consider env filters maxTokens acc n =
      consider env filters' maxTokens acc n := by
    intro acc n
    rw [consider, consider, matchesFilters, matchesFilters, hempty, any_congr_members h]
  have hwalk : ∀ nodes s acc, walk env filters maxTokens nodes s acc =
      walk env filters' maxTokens nodes s acc := by
    intro nodes
    induction nodes with
    | nil => exact fun _ _ => rfl
    | cons i rest ih =>
      intro s acc
      rw [walk, walk, ih]
      simp only [hconsider, ih]
  rw [enumerateWith, enumerateWith, includeAfu, includeAfu, hempty, any_congr_members h]
  simp only [hwalk]

/-- An adapter that replies by what a plugin finds for the filters, as the plugin reads them. -/
inductive RepliesBy : (List (FpgaProperties TokenPtr) → Bool → UInt32 → EnumerateReply) → Prop
  | vfio (read : FpgaProperties TokenPtr → PluginVfio.Enumerate.Filter)
      (clone : Nat → PluginVfio.Enumerate.KnownToken → Option PluginVfio.Enumerate.KnownToken)
      (devices : List PluginVfio.Enumerate.KnownDevice)
      (reply : Bool → List (Option PluginVfio.Enumerate.KnownToken) × UInt32 → EnumerateReply) :
      RepliesBy fun filters tokens maxTokens => reply tokens
        (PluginVfio.Enumerate.vfioFpgaEnumerate clone (some (filters.map read)) maxTokens devices)
  | xfpga {π δ : Type} [DecidableEq π]
      (read : FpgaProperties TokenPtr → PluginXfpga.Enumerate.Filter π δ)
      (env : PluginXfpga.Enumerate.EnumEnv π δ) (init : FpgaResult)
      (devices : List (PluginXfpga.Enumerate.SysfsFpgaDevice π δ))
      (reply : Bool → FpgaResult × PluginXfpga.Enumerate.Found π δ → EnumerateReply) :
      RepliesBy fun filters tokens maxTokens => reply tokens
        (PluginXfpga.Enumerate.enumerateWith env (filters.map read) maxTokens.toNat
          (PluginXfpga.Enumerate.includeAfu (filters.map read)) init devices)

/-- Both plugins take the filters for alternatives. -/
theorem alternatives_of_plugins {env : EnumerateEnv}
    (h : ∀ adapter, RepliesBy (env.enumerate adapter)) : Alternatives env := by
  intro adapter filters filters' hmem
  have hread {β : Type} (read : FpgaProperties TokenPtr → β) (b : β) :
      b ∈ filters.map read ↔ b ∈ filters'.map read := by
    rw [List.mem_map, List.mem_map]
    exact exists_congr fun p => and_congr_left fun _ => hmem p
  have hby := h adapter
  generalize env.enumerate adapter = enumerate at hby ⊢
  cases hby with
  | vfio read clone devices reply =>
    funext tokens maxTokens
    have hsame := vfioFpgaEnumerate_alternatives (hread read) clone maxTokens devices
    exact congrArg (reply tokens) hsame
  | xfpga read env init devices reply =>
    funext tokens maxTokens
    have hsame := xfpgaFpgaEnumerate_alternatives (hread read) env maxTokens.toNat init devices
    exact congrArg (reply tokens) hsame

end Plugins

end OpaeLibs.OpaeC.RepeatedFilter
