import OpaeLibs.OpaeC.EnumerateWalk

namespace OpaeLibs.OpaeC.EnumerateTokens

open OpaeLibs.Lib.Heap
open OpaeLibs.OpaeC.Props OpaeLibs.OpaeC.ApiShell OpaeLibs.OpaeC.Enumerate
open OpaeLibs.OpaeC.EnumerateWalk

/-- The filters and their wrapped parents have not been freed. -/
def FiltersLive (s : Shell) (filters : List (Option Nat)) : Prop :=
  ∀ id, some id ∈ filters → ∃ p, s.props.get id = some p ∧
    (fieldValid p fpgaPropertyParent → ∀ t, p.parent = some (.wrapped t) →
      ∃ wt, s.tokens.get t = some wt)

theorem FiltersLive.set {s : Shell} {f : Option Nat} {rest : List (Option Nat)}
    (h : FiltersLive s (f :: rest)) {id : Nat} {p p' : FpgaProperties TokenPtr}
    (hp : s.props.get id = some p) (hp' : ∀ t, p'.parent ≠ some (.wrapped t)) :
    FiltersLive { s with props := s.props.set id p' } rest := by
  intro i hi
  obtain ⟨q, hq, hlive⟩ := h i (List.mem_cons_of_mem _ hi)
  by_cases he : i = id
  · exact ⟨p', by simp [Slots.get_set hp, he], fun _ t ht => absurd ht (hp' t)⟩
  · exact ⟨q, by simpa [Slots.get_set hp, he] using hq, hlive⟩

/-- The fixups made can be undone: last in first out, they give the properties objects back. -/
structure Undoable (s : Shell) (ptfList : List ParentTokenFixup)
    (r : Except FpgaError Unit × List ParentTokenFixup × Shell) : Prop where
  shell : ∃ ps, r.2.2 = { s with props := ps }
  restored : ∃ new, r.2.1 = new ++ ptfList ∧ ∀ s' : Shell, s'.props = r.2.2.props →
    restoreParents s' (new ++ ptfList) = restoreParents { s' with props := s.props } ptfList
  error : ∀ res, r.1 = .error res → res.1 ≠ .exception

theorem undoable_stop (s : Shell) (ptfList : List ParentTokenFixup) (res : Except FpgaError Unit)
    (h : ∀ e, res = .error e → e.1 ≠ .exception) : Undoable s ptfList (res, ptfList, s) :=
  ⟨⟨s.props, rfl⟩, ⟨[], rfl, fun s' hs => by rw [← hs]; rfl⟩, h⟩

theorem undoable_of_unwrapParents {env : EnumerateEnv} {s : Shell}
    {ptfList : List ParentTokenFixup} {i : Nat} {filters : List (Option Nat)}
    {r : Except FpgaError Unit × List ParentTokenFixup × Shell}
    (h : unwrapParents env s ptfList i filters = some r) : Undoable s ptfList r := by
  induction filters generalizing s ptfList i with
  | nil =>
    obtain rfl := Option.some.inj h
    exact undoable_stop s ptfList _ (by simp)
  | cons f rest ih =>
    have hinvalid := undoable_stop s ptfList (.error ⟨.invalidParam, FpgaResult.invalidParam_ne_ok⟩)
      fun _ he => by cases he; decide
    have hmemory := undoable_stop s ptfList (.error ⟨.noMemory, FpgaResult.noMemory_ne_ok⟩)
      fun _ he => by cases he; decide
    rw [unwrapParents] at h
    obtain ⟨v, hv, h⟩ := Option.bind_eq_some_iff.mp h
    match f, v, hv with
    | none, _, hv =>
      obtain rfl := Option.some.inj hv
      obtain rfl := Option.some.inj h
      exact hinvalid
    | some id, v, hv =>
      obtain ⟨p, hp, rfl⟩ := Option.map_eq_some_iff.mp hv
      by_cases hfield : fieldValid p fpgaPropertyParent
      · simp only [if_pos hfield] at h
        obtain ⟨w, hw, h⟩ := Option.bind_eq_some_iff.mp h
        cases w with
        | none =>
          obtain rfl := Option.some.inj h
          exact hinvalid
        | some w =>
          obtain ⟨t, wt⟩ := w
          have hparent : p.parent = some (.wrapped t) := by
            unfold opaeValidateWrappedToken at hw
            split at hw
            · next t' ht' =>
              obtain ⟨wt', -, heq⟩ := Option.map_eq_some_iff.mp hw
              obtain ⟨rfl, -⟩ := Prod.mk.inj (Option.some.inj heq)
              exact ht'
            · exact nomatch hw
          by_cases hmalloc : env.fixupMalloc i
          · simp only [hmalloc, Bool.not_true, Bool.false_eq_true, if_false] at h
            obtain ⟨⟨ps, hshell⟩, ⟨new, hnew, hback⟩, herr⟩ := ih h
            refine ⟨⟨ps, hshell⟩, ⟨new ++ [⟨id, t⟩], by simp [hnew], fun s' hs => ?_⟩, herr⟩
            have hp' : { p with parent := some (.wrapped t) } = p := by rw [← hparent]
            rw [List.append_assoc, List.singleton_append, hback s' hs]
            simp [restoreParents, validate, Slots.get_set hp, Slots.set_set_of_get hp, hp']
          · simp only [hmalloc, Bool.not_false, if_true] at h
            obtain rfl := Option.some.inj h
            exact hmemory
      · simp only [if_neg hfield] at h
        exact ih h

theorem unwrapParents_isSome (env : EnumerateEnv) (s : Shell) (ptfList : List ParentTokenFixup)
    (i : Nat) {filters : List (Option Nat)} (h : FiltersLive s filters) :
    ∃ r, unwrapParents env s ptfList i filters = some r := by
  induction filters generalizing s ptfList i with
  | nil => exact ⟨_, rfl⟩
  | cons f rest ih =>
    cases f with
    | none => exact ⟨_, rfl⟩
    | some id =>
      obtain ⟨p, hp, hlive⟩ := h id List.mem_cons_self
      by_cases hv : fieldValid p fpgaPropertyParent
      · by_cases hpar : ∃ t, p.parent = some (.wrapped t)
        · obtain ⟨t, hpar⟩ := hpar
          obtain ⟨wt, hwt⟩ := hlive hv t hpar
          cases hm : env.fixupMalloc i with
          | false => simp [unwrapParents, validate, hp, hv, hpar, opaeValidateWrappedToken, hwt, hm]
          | true =>
            obtain ⟨r, he⟩ := ih
              { s with props := s.props.set id { p with parent := wt.opaeToken.map .opae } }
              (⟨id, t⟩ :: ptfList) (i + 1) (h.set hp (fun t => by cases wt.opaeToken <;> simp))
            refine ⟨r, ?_⟩
            simpa [unwrapParents, validate, hp, hv, hpar, opaeValidateWrappedToken, hwt, hm]
              using he
        · have hnone : opaeValidateWrappedToken s p.parent = some none := by
            cases hq : p.parent with
            | none => rfl
            | some q =>
              cases q with
              | opae q => rfl
              | wrapped t => exact absurd ⟨t, hq⟩ hpar
          simp [unwrapParents, validate, hp, hv, hnone]
      · obtain ⟨r, he⟩ := ih s ptfList (i + 1) (fun i hi => h i (List.mem_cons_of_mem _ hi))
        exact ⟨r, by simpa [unwrapParents, validate, hp, hv] using he⟩

def unwrappedFilters (env : EnumerateEnv) (s : Shell) (args : EnumerateArgs) :
    List (FpgaProperties TokenPtr) :=
  match unwrapParents env s [] 0 args.filterList with
  | some (_, _, s) => (enumerationContext s args).filters
  | none => []

/-- What a call does to the shell, whatever the plugins answer. -/
structure Enumerated (s : Shell) (args : EnumerateArgs) (r : EnumerateResult)
    (ws : List OpaeWrappedToken) : Prop where
  shell : ∃ log, r.shell = { grow s ws with log := log }
  tokens : r.tokens = List.range' s.tokens.next ws.length
  owned : ∀ w ∈ ws, w.refCount = 1
  bound : ws.length ≤ args.maxTokens.toNat

/-- A call compared with the matches `ms` of the adapters. -/
structure Exact (env : EnumerateEnv) (adapters : List Nat) (args : EnumerateArgs)
    (ms : Nat → List Nat) (r : EnumerateResult) (ws : List OpaeWrappedToken) : Prop where
  isPrefix : ws <+: (adapters.flatMap (wraps ms)).take args.maxTokens.toNat
  complete : r.res = .ok ∨ r.res = .exception ∧ (∀ k, env.tokenMalloc k = true) →
    ws = (adapters.flatMap (wraps ms)).take args.maxTokens.toNat
  count : r.res = .ok → r.numMatches = some (UInt32.ofNat
    (if args.tokens then counted ms args.maxTokens.toNat adapters
      else (adapters.flatMap ms).length))

theorem enumerated_nothing (s : Shell) (args : EnumerateArgs) (res : FpgaResult)
    (n : Option UInt32) (log : List Dispatch) :
    Enumerated s args ⟨res, n, [], { s with log := log }⟩ [] :=
  ⟨⟨log, by rw [grow_nil]⟩, rfl, by simp, Nat.zero_le _⟩

theorem exact_refused (env : EnumerateEnv) (adapters : List Nat) (args : EnumerateArgs)
    (ms : Nat → List Nat) {r : EnumerateResult} (hok : r.res ≠ .ok) (hex : r.res ≠ .exception) :
    Exact env adapters args ms r [] :=
  ⟨List.nil_prefix, fun h => by simp [hok, hex] at h, fun h => absurd h hok⟩

theorem filling_enumerationContext (s : Shell) {args : EnumerateArgs} (h : args.tokens = true) :
    Filling [] (enumerationContext s args) := by
  refine ⟨by simp [enumerationContext, h], rfl, Nat.zero_le _, ?_⟩
  exact ⟨_, by simp [enumerationContext, h]; rfl, by simp [enumerationContext]⟩

theorem fpgaEnumerate_walks (tables : Tables) (env : EnumerateEnv) (adapters : List Nat)
    {s s' : Shell} {args : EnumerateArgs} (hmax : args.maxTokens > 0 → args.tokens = true)
    (hs : ∃ ps, s' = { s with props := ps }) {ptfList : List ParentTokenFixup}
    (hback : ∀ s'' : Shell, s''.props = s'.props →
      restoreParents s'' ptfList = some { s'' with props := s.props })
    (hfilters : unwrappedFilters env s args = (enumerationContext s' args).filters) :
    ∃ ctx s'' ws, opaePluginMgrForEachAdapter (opaeEnumerate tables env) adapters
        (enumerationContext s' args, s') = some (ctx, s'') ∧
      ∃ log, restoreParents s'' ptfList = some { grow s ws with log := log } ∧
        let r : EnumerateResult := ⟨if ctx.errors > 0 then .exception else .ok,
          some ctx.numMatches, ctx.wrappedTokens.getD [], { grow s ws with log := log }⟩
        Enumerated s args r ws ∧ ∀ ms,
          (∀ a ∈ adapters, Reports tables env (unwrappedFilters env s args) a (ms a)) →
          Exact env adapters args ms r ws := by
  obtain ⟨ps, rfl⟩ := hs
  cases ht : args.tokens with
  | true =>
    obtain ⟨ctx, s'', ws, he, hw, hf⟩ := walk_array tables env adapters
      (filling_enumerationContext { s with props := ps } ht) { s with props := ps }
    obtain ⟨log, rfl⟩ := hw.shell
    refine ⟨ctx, _, ws, he, log, hback _ rfl, ⟨⟨log, rfl⟩, ?_, hw.owned, ?_⟩, fun ms hr => ?_⟩
    · rw [hw.filling.wrapped]
      rfl
    · have hbound := hw.filling.bound
      rw [hw.max] at hbound
      simpa [enumerationContext] using hbound
    · have hx := hf ms fun a ha => hfilters ▸ hr a ha
      have herr : ∀ res, (if ctx.errors > 0 then FpgaResult.exception else .ok) = res → res = .ok →
          ctx.errors = 0 := by
        rintro res rfl hok
        by_cases h : ctx.errors > 0
        · simp [h] at hok
        · omega
      refine ⟨hx.isPrefix, fun hc => hx.complete ?_, fun hok => ?_⟩
      · exact hc.imp (herr _ rfl) And.right
      · rw [hx.count (herr _ rfl hok), ht]
        exact congrArg some (UInt32.zero_add _)
  | false =>
    have hz : args.maxTokens.toNat = 0 := by
      by_contra hne
      have hpos : args.maxTokens > 0 := UInt32.lt_iff_toNat_lt.mpr (Nat.pos_of_ne_zero hne)
      simp [hmax hpos] at ht
    obtain ⟨ctx, log, he, hw, -, hf⟩ := walk_null tables env adapters
      (enumerationContext { s with props := ps } args) (by simp [enumerationContext, ht])
      (by simp [enumerationContext, ht]) { s with props := ps }
    refine ⟨ctx, _, [], he, log, ?_, ⟨⟨log, rfl⟩, by rw [hw]; rfl, by simp, Nat.zero_le _⟩,
      fun ms hr => ⟨List.nil_prefix, by simp [hz], fun hok => ?_⟩⟩
    · simpa [grow_nil] using hback { s with props := ps, log := log } rfl
    have herr : ctx.errors = 0 := by
      by_contra hne
      simp [Nat.pos_of_ne_zero hne] at hok
    rw [hf ms (fun a ha => hfilters ▸ hr a ha) herr, ht]
    exact congrArg some (UInt32.zero_add _)

theorem fpgaEnumerate_of_unwrapParents (tables : Tables) (env : EnumerateEnv)
    (adapters : List Nat) {s : Shell} {args : EnumerateArgs}
    {u : Except FpgaError Unit × List ParentTokenFixup × Shell}
    (hu : unwrapParents env s [] 0 args.filterList = some u) :
    ∃ r ws, fpgaEnumerate tables env adapters s args = some r ∧ Enumerated s args r ws ∧
      ∀ ms, (∀ a ∈ adapters, Reports tables env (unwrappedFilters env s args) a (ms a)) →
        Exact env adapters args ms r ws := by
  have hrefused : ∀ (res : FpgaResult) n, res ≠ .ok → res ≠ .exception →
      fpgaEnumerate tables env adapters s args = some ⟨res, n, [], s⟩ →
      ∃ r ws, fpgaEnumerate tables env adapters s args = some r ∧ Enumerated s args r ws ∧
        ∀ ms, (∀ a ∈ adapters, Reports tables env (unwrappedFilters env s args) a (ms a)) →
          Exact env adapters args ms r ws := fun res n hok hex he =>
    ⟨_, [], he, enumerated_nothing s args res n s.log, fun ms _ =>
      exact_refused env adapters args ms hok hex⟩
  obtain ⟨res, _, s'⟩ := u
  obtain ⟨⟨ps, hs'⟩, ⟨ptfList, rfl, hback⟩, herr⟩ := undoable_of_unwrapParents hu
  rw [List.append_nil] at hu hback
  by_cases h1 : args.numMatches = true
  swap
  · exact hrefused .invalidParam none (by decide) (by decide) (by simp [fpgaEnumerate, h1])
  by_cases h2 : args.maxTokens > 0 ∧ !args.tokens
  · exact hrefused .invalidParam none (by decide) (by decide) (by
      rw [fpgaEnumerate, if_neg (by simp [h1]), if_pos h2])
  by_cases h3 : args.numFilters > 0 ∧ args.filters.isNone
  · exact hrefused .invalidParam none (by decide) (by decide) (by
      rw [fpgaEnumerate, if_neg (by simp [h1]), if_neg h2, if_pos h3])
  by_cases h4 : args.numFilters = 0 ∧ args.filters.isSome
  · exact hrefused .invalidParam none (by decide) (by decide) (by
      rw [fpgaEnumerate, if_neg (by simp [h1]), if_neg h2, if_neg h3, if_pos h4])
  by_cases h5 : args.tokens ∧ !env.calloc
  · exact hrefused .noMemory (some 0) (by decide) (by decide) (by
      rw [fpgaEnumerate, if_neg (by simp [h1]), if_neg h2, if_neg h3, if_neg h4, if_pos h5])
  have hs : { s' with props := s.props } = s := by rw [show s' = _ from hs']
  cases res with
  | error res =>
    refine hrefused res.1 (some 0) res.2 (herr res rfl) ?_
    rw [fpgaEnumerate, if_neg (by simp [h1]), if_neg h2, if_neg h3, if_neg h4, if_neg h5, hu]
    simp [hback s' rfl, restoreParents, hs]
  | ok _ =>
    obtain ⟨ctx, s'', ws, hwalk, log, hrest, henum, hexact⟩ := fpgaEnumerate_walks tables env
      adapters (by simpa using h2) ⟨ps, hs'⟩ hback (by simp [unwrappedFilters, hu])
    refine ⟨_, ws, ?_, henum, hexact⟩
    rw [fpgaEnumerate, if_neg (by simp [h1]), if_neg h2, if_neg h3, if_neg h4, if_neg h5, hu]
    simp [hwalk, hrest]

theorem fpgaEnumerate_spec (tables : Tables) (env : EnumerateEnv) (adapters : List Nat) {s : Shell}
    {args : EnumerateArgs} (h : FiltersLive s args.filterList) :
    ∃ r ws, fpgaEnumerate tables env adapters s args = some r ∧ Enumerated s args r ws ∧
      ∀ ms, (∀ a ∈ adapters, Reports tables env (unwrappedFilters env s args) a (ms a)) →
        Exact env adapters args ms r ws := by
  obtain ⟨u, hu⟩ := unwrapParents_isSome env s [] 0 h
  exact fpgaEnumerate_of_unwrapParents tables env adapters hu

theorem Enumerated.written {s : Shell} {args : EnumerateArgs} {r : EnumerateResult}
    {ws : List OpaeWrappedToken} (h : Enumerated s args r ws) :
    r.tokens.map r.shell.tokens.get = ws.map some := by
  obtain ⟨log, hs⟩ := h.shell
  rw [h.tokens, hs]
  exact Slots.map_get_allocAll _ _

section Accepted

/-- A filter that is a live object, as is the wrapped parent that it has if any. -/
def Unwrappable (s : Shell) (f : Option Nat) : Prop :=
  ∃ id p, f = some id ∧ s.props.get id = some p ∧ (fieldValid p fpgaPropertyParent →
    ∃ t wt, p.parent = some (.wrapped t) ∧ s.tokens.get t = some wt)

structure Accepted (env : EnumerateEnv) (s : Shell) (args : EnumerateArgs) : Prop where
  num_matches : args.numMatches = true
  array : args.maxTokens > 0 → args.tokens = true
  filters : args.numFilters > 0 ↔ args.filters.isSome
  calloc : args.tokens = true → env.calloc = true
  unwrappable : ∀ f ∈ args.filterList, Unwrappable s f
  distinct : args.filterList.Nodup
  fixup : ∀ k, env.fixupMalloc k = true

def Works (tables : Tables) (env : EnumerateEnv) (filters : List (FpgaProperties TokenPtr))
    (adapter : Nat) : Prop :=
  tables adapter .fpgaEnumerate = true →
    ∀ given max, (env.enumerate adapter filters given max).res = .ok

variable {tables : Tables} {env : EnumerateEnv} {s : Shell}

theorem Unwrappable.set {f : Option Nat} {id : Nat} {p p' : FpgaProperties TokenPtr}
    (h : Unwrappable s f) (hp : s.props.get id = some p) (hf : f ≠ some id) :
    Unwrappable { s with props := s.props.set id p' } f := by
  obtain ⟨i, q, rfl, hq, hparent⟩ := h
  have hi : i ≠ id := fun he => hf (congrArg some he)
  exact ⟨i, q, rfl, by simpa [Slots.get_set hp, hi] using hq, hparent⟩

theorem unwrapParents_ok {filters : List (Option Nat)} (ptfList : List ParentTokenFixup) (i : Nat)
    (h : ∀ f ∈ filters, Unwrappable s f) (hnodup : filters.Nodup)
    (hmalloc : ∀ k, env.fixupMalloc k = true) :
    ∃ r, unwrapParents env s ptfList i filters = some r ∧ r.1 = .ok () := by
  induction filters generalizing s ptfList i with
  | nil => exact ⟨_, rfl, rfl⟩
  | cons f rest ih =>
    obtain ⟨hf, hdistinct⟩ := List.nodup_cons.mp hnodup
    obtain ⟨⟨id, p, rfl, hp, hparent⟩, hrest⟩ := List.forall_mem_cons.mp h
    by_cases hv : fieldValid p fpgaPropertyParent
    · obtain ⟨t, wt, hpar, hwt⟩ := hparent hv
      have hset : ∀ g ∈ rest, Unwrappable
          { s with props := s.props.set id { p with parent := wt.opaeToken.map .opae } } g :=
        fun g hg => (hrest g hg).set hp fun he => hf (he ▸ hg)
      obtain ⟨r, he, hr⟩ := ih (⟨id, t⟩ :: ptfList) (i + 1) hset hdistinct
      refine ⟨r, ?_, hr⟩
      simpa [unwrapParents, validate, hp, hv, hpar, opaeValidateWrappedToken, hwt, hmalloc] using he
    · obtain ⟨r, he, hr⟩ := ih ptfList (i + 1) hrest hdistinct
      exact ⟨r, by simpa [unwrapParents, validate, hp, hv] using he, hr⟩

theorem wrapTokens_errors {adapter : Nat} {ctx ctx' : OpaeEnumerationContext} {s' : Shell}
    {cells : List (Option OpaePtr)} {ok : Bool} (hmalloc : ∀ k, env.tokenMalloc k = true)
    (h : wrapTokens tables env adapter ctx s cells = some (ok, ctx', s')) :
    ctx'.errors = ctx.errors ∧ ctx'.filters = ctx.filters := by
  induction cells generalizing ctx s with
  | nil =>
    cases h
    exact ⟨rfl, rfl⟩
  | cons token rest ih =>
    rw [wrapTokens, hmalloc, opaeAllocateWrappedToken_true] at h
    simp only [Option.bind_eq_bind, Option.bind_some] at h
    split at h
    · have hwrapped := ih h
      exact hwrapped
    · obtain ⟨r, -, h⟩ := Option.bind_eq_some_iff.mp h
      exact ih h

theorem opaeEnumerate_errors {adapter : Nat} {ctx ctx' : OpaeEnumerationContext} {s' : Shell}
    {stop : Bool} (hmalloc : ∀ k, env.tokenMalloc k = true)
    (hworks : Works tables env ctx.filters adapter)
    (h : opaeEnumerate tables env adapter (ctx, s) = some (stop, ctx', s')) :
    ctx'.errors = ctx.errors ∧ ctx'.filters = ctx.filters := by
  rw [opaeEnumerate] at h
  split at h
  · cases h
    exact ⟨rfl, rfl⟩
  split at h
  · cases h
    exact ⟨rfl, rfl⟩
  next ht =>
    have hres := hworks (by simpa using ht) ctx.adapterTokens.isSome
      (ctx.maxWrappedTokens - ctx.numWrappedTokens)
    simp only [hres, ne_eq, not_true_eq_false, if_false] at h
    split at h
    · cases h
      exact ⟨rfl, rfl⟩
    · obtain ⟨⟨ok, c, s₁⟩, hw, h⟩ := Option.bind_eq_some_iff.mp h
      have hc := wrapTokens_errors hmalloc hw
      dsimp only at h
      split at h <;> (cases h; exact hc)

theorem walk_errors {adapters : List Nat} {ctx ctx' : OpaeEnumerationContext} {s' : Shell}
    (hmalloc : ∀ k, env.tokenMalloc k = true)
    (hworks : ∀ a ∈ adapters, Works tables env ctx.filters a)
    (h : opaePluginMgrForEachAdapter (opaeEnumerate tables env) adapters (ctx, s) =
      some (ctx', s')) : ctx'.errors = ctx.errors := by
  induction adapters generalizing ctx s with
  | nil =>
    cases h
    rfl
  | cons adapter rest ih =>
    obtain ⟨hadapter, hrest⟩ := List.forall_mem_cons.mp hworks
    obtain ⟨⟨stop, c, s₁⟩, he, h⟩ := Option.bind_eq_some_iff.mp h
    obtain ⟨herr, hfilters⟩ := opaeEnumerate_errors hmalloc hadapter he
    dsimp only at h
    split at h
    · cases h
      exact herr
    · exact (ih (hfilters ▸ hrest) h).trans herr

/-- A call that is accepted succeeds where every wrapper can be allocated and the plugins work. -/
theorem fpgaEnumerate_accepted {adapters : List Nat} {args : EnumerateArgs} {r : EnumerateResult}
    (h : Accepted env s args) (hmalloc : ∀ k, env.tokenMalloc k = true)
    (hworks : ∀ a ∈ adapters, Works tables env (unwrappedFilters env s args) a)
    (hr : fpgaEnumerate tables env adapters s args = some r) : r.res = .ok := by
  obtain ⟨⟨res, ptfList, s'⟩, hu, hok⟩ := unwrapParents_ok [] 0 h.unwrappable h.distinct h.fixup
  obtain rfl : res = .ok () := hok
  have hfilters : unwrappedFilters env s args = (enumerationContext s' args).filters := by
    rw [unwrappedFilters, hu]
  have h3 : ¬(args.numFilters > 0 ∧ args.filters.isNone) := by
    rintro ⟨hpos, hnone⟩
    have hsome := h.filters.mp hpos
    rw [Option.isNone_iff_eq_none.mp hnone] at hsome
    exact Bool.false_ne_true hsome
  have h4 : ¬(args.numFilters = 0 ∧ args.filters.isSome) := by
    rintro ⟨hz, hsome⟩
    exact absurd (hz ▸ h.filters.mpr hsome) (by decide)
  have h5 : ¬(args.tokens ∧ !env.calloc) := by
    rintro ⟨ht, hc⟩
    simp [h.calloc ht] at hc
  have h2 : ¬(args.maxTokens > 0 ∧ !args.tokens) := by
    rintro ⟨hpos, ht⟩
    simp [h.array hpos] at ht
  rw [fpgaEnumerate, if_neg (by simp [h.num_matches]), if_neg h2, if_neg h3, if_neg h4, if_neg h5,
    hu, Option.bind_eq_bind, Option.bind_some] at hr
  obtain ⟨⟨ctx, s₁⟩, hwalk, hr⟩ := Option.bind_eq_some_iff.mp hr
  obtain ⟨s₂, -, hr⟩ := Option.bind_eq_some_iff.mp hr
  cases hr
  have herr : ctx.errors = 0 := walk_errors hmalloc (hfilters ▸ hworks) hwalk
  exact if_neg (by omega)

end Accepted

def sampleMatches (adapter : Nat) : List Nat := [10 + adapter]

def sampleEnv : EnumerateEnv where
  calloc := true
  fixupMalloc _ := true
  tokenMalloc _ := true
  enumerate adapter _ given max :=
    ⟨.ok, if given then (sampleMatches adapter).take max.toNat else [], 1⟩

theorem sample_reports (filters : List (FpgaProperties TokenPtr)) (adapter : Nat) :
    Reports (fun _ _ => true) sampleEnv filters adapter (sampleMatches adapter) :=
  ⟨by simp, by simp [sampleEnv], fun _ _ _ => rfl, fun _ _ => rfl⟩

def sampleArgs (max : UInt32) : EnumerateArgs := ⟨none, 0, max ≠ 0, max, true⟩

theorem sample_live (max : UInt32) : FiltersLive start (sampleArgs max).filterList := by
  intro id hid
  simp [sampleArgs, EnumerateArgs.filterList] at hid

section

variable {tables : Tables} {env env' : EnumerateEnv} {adapters : List Nat} {ms : Nat → List Nat}
  {s s' : Shell} {args args' : EnumerateArgs}

/-- The array after a call: the wrapped matches in the adapters' order up to its end, all of them
new. A wrapper that cannot be allocated cuts the list short. A call that is accepted succeeds where
nothing fails. -/
theorem fpgaEnumerate_tokens (hlive : FiltersLive s args.filterList)
    (hreports : ∀ a ∈ adapters, Reports tables env (unwrappedFilters env s args) a (ms a)) :
    ∃ r, fpgaEnumerate tables env adapters s args = some r ∧
      r.tokens.map r.shell.tokens.get <+:
        ((adapters.flatMap (wraps ms)).take args.maxTokens.toNat).map some ∧
      (r.res = .ok ∨ r.res = .exception ∧ (∀ k, env.tokenMalloc k = true) →
        r.tokens.map r.shell.tokens.get =
          ((adapters.flatMap (wraps ms)).take args.maxTokens.toNat).map some) ∧
      r.tokens.Nodup ∧ (∀ t ∈ r.tokens, s.tokens.get t = none) ∧
      (Accepted env s args → (∀ k, env.tokenMalloc k = true) →
        (∀ a ∈ adapters, Works tables env (unwrappedFilters env s args) a) → r.res = .ok) := by
  obtain ⟨r, ws, he, henum, hexact⟩ := fpgaEnumerate_spec tables env adapters hlive
  have hx := hexact ms hreports
  refine ⟨r, he, ?_, fun hc => ?_, ?_, fun t ht => ?_,
    fun h hmalloc hworks => fpgaEnumerate_accepted h hmalloc hworks he⟩
  · rw [henum.written]
    exact hx.isPrefix.map some
  · rw [henum.written, hx.complete hc]
  · rw [henum.tokens]
    exact List.nodup_range'
  · rw [henum.tokens, List.mem_range'_1] at ht
    exact Slots.get_of_le ht.1

theorem fpgaEnumerate_tokens_sample :
    ∃ r, fpgaEnumerate (fun _ _ => true) sampleEnv [0, 1] start (sampleArgs 2) = some r ∧
      r.res = .ok ∧ r.tokens.map r.shell.tokens.get =
        [some ⟨some ⟨0, 10⟩, 1, 0⟩, some ⟨some ⟨1, 11⟩, 1, 1⟩] := by
  obtain ⟨r, he, -, hc, -, -, hok⟩ := fpgaEnumerate_tokens (sample_live 2)
    fun a (_ : a ∈ [0, 1]) => sample_reports _ a
  have hres : r.res = .ok := hok
    ⟨rfl, fun _ => rfl, by decide, fun _ => rfl, nofun, List.nodup_nil, fun _ => rfl⟩
    (fun _ => rfl) fun _ _ _ _ _ => rfl
  exact ⟨r, he, hres, hc (.inl hres)⟩

/-- Once the array is full no adapter further on has a match. -/
def Fits (ms : Nat → List Nat) (max : Nat) (adapters : List Nat) : Prop :=
  ∀ pre a post, adapters = pre ++ a :: post → max ≤ (pre.flatMap ms).length → ms a = []

theorem counted_le (ms : Nat → List Nat) (max : Nat) (adapters : List Nat) :
    counted ms max adapters ≤ (adapters.flatMap ms).length := by
  induction adapters generalizing max with
  | nil => simp [counted]
  | cons a rest ih =>
    have := ih (max - (ms a).length)
    rw [counted, List.flatMap_cons, List.length_append]
    split <;> omega

theorem fits_cons (ms : Nat → List Nat) (max a : Nat) (rest : List Nat) :
    Fits ms max (a :: rest) ↔
      (max = 0 → ms a = []) ∧ Fits ms (max - (ms a).length) rest := by
  constructor
  · refine fun h => ⟨fun hz => h [] a rest rfl (by simp [hz]), fun pre b post he hle => ?_⟩
    refine h (a :: pre) b post (by rw [he]; rfl) ?_
    rw [List.flatMap_cons, List.length_append]
    omega
  · rintro ⟨ha, hrest⟩ pre b post he hle
    cases pre with
    | nil =>
      obtain ⟨rfl, rfl⟩ := List.cons.inj he
      exact ha (by simpa using hle)
    | cons c pre =>
      obtain ⟨rfl, rfl⟩ := List.cons.inj he
      rw [List.flatMap_cons, List.length_append] at hle
      exact hrest pre b post rfl (by omega)

theorem counted_eq_iff (ms : Nat → List Nat) (max : Nat) (adapters : List Nat) :
    counted ms max adapters = (adapters.flatMap ms).length ↔ Fits ms max adapters := by
  induction adapters generalizing max with
  | nil => exact ⟨fun _ pre a post he => by simp at he, fun _ => rfl⟩
  | cons a rest ih =>
    rw [fits_cons, ← ih, counted, List.flatMap_cons, List.length_append]
    by_cases hz : max = 0
    · simp only [hz, if_true, Nat.zero_sub, counted_zero, true_imp_iff, ← List.length_eq_zero_iff]
      omega
    · simp [hz]

theorem toNat_count {c total : Nat} (hc : c ≤ total) :
    (UInt32.ofNat c).toNat = total ↔ total < 2 ^ 32 ∧ c = total := by
  rw [UInt32.toNat_ofNat']
  omega

theorem Exact.total_iff {r : EnumerateResult} {ws : List OpaeWrappedToken}
    (h : Exact env adapters args ms r ws) (hok : r.res = .ok) :
    r.numMatches.map UInt32.toNat = some (adapters.flatMap ms).length ↔
      (adapters.flatMap ms).length < 2 ^ 32 ∧
        (args.tokens = true → Fits ms args.maxTokens.toNat adapters) := by
  rw [h.count hok, Option.map_some, Option.some.injEq]
  cases args.tokens with
  | true =>
    rw [if_pos rfl, toNat_count (counted_le ms _ adapters), counted_eq_iff]
    simp
  | false =>
    rw [if_neg Bool.false_ne_true, toNat_count (Nat.le_refl _)]
    simp

/-- Two successful calls for the same matches, of which each may have an array of any size or none,
report their number exactly if each array ends no earlier than the last adapter with a match. -/
theorem num_matches_agree_iff (hlive : FiltersLive s args.filterList)
    (hlive' : FiltersLive s' args'.filterList)
    (hreports : ∀ a ∈ adapters, Reports tables env (unwrappedFilters env s args) a (ms a))
    (hreports' : ∀ a ∈ adapters, Reports tables env' (unwrappedFilters env' s' args') a (ms a))
    {r r' : EnumerateResult} (hr : fpgaEnumerate tables env adapters s args = some r)
    (hr' : fpgaEnumerate tables env' adapters s' args' = some r') (hok : r.res = .ok)
    (hok' : r'.res = .ok) :
    (r.numMatches = r'.numMatches ∧
        r.numMatches.map UInt32.toNat = some (adapters.flatMap ms).length) ↔
      (adapters.flatMap ms).length < 2 ^ 32 ∧
      (args.tokens = true → Fits ms args.maxTokens.toNat adapters) ∧
      (args'.tokens = true → Fits ms args'.maxTokens.toNat adapters) := by
  obtain ⟨q, ws, hq, -, hexact⟩ := fpgaEnumerate_spec tables env adapters hlive
  obtain ⟨q', ws', hq', -, hexact'⟩ := fpgaEnumerate_spec tables env' adapters hlive'
  obtain rfl : q = r := Option.some.inj (hq.symm.trans hr)
  obtain rfl : q' = r' := Option.some.inj (hq'.symm.trans hr')
  have htotal := (hexact ms hreports).total_iff hok
  have htotal' := (hexact' ms hreports').total_iff hok'
  constructor
  · rintro ⟨heq, hn⟩
    have hfits := htotal.mp hn
    exact ⟨hfits.1, hfits.2, (htotal'.mp (heq ▸ hn)).2⟩
  · rintro ⟨hlt, hfits, hfits'⟩
    have hn := htotal.mpr ⟨hlt, hfits⟩
    have hn' := htotal'.mpr ⟨hlt, hfits'⟩
    refine ⟨Option.map_injective (fun a b => UInt32.toNat_inj.mp) (hn.trans hn'.symm), hn⟩

theorem num_matches_agree_iff_sample :
    ∃ r r', fpgaEnumerate (fun _ _ => true) sampleEnv [0, 1] start (sampleArgs 2) = some r ∧
      fpgaEnumerate (fun _ _ => true) sampleEnv [0, 1] start (sampleArgs 0) = some r' ∧
      ((r.numMatches = r'.numMatches ∧ r.numMatches.map UInt32.toNat = some 2) ↔
        2 < 2 ^ 32 ∧ (true = true → Fits sampleMatches 2 [0, 1]) ∧
          (false = true → Fits sampleMatches 0 [0, 1])) := by
  have hok : ((fpgaEnumerate (fun _ _ => true) sampleEnv [0, 1] start (sampleArgs 2)).map
      (·.res)) = some .ok := by decide
  have hok' : ((fpgaEnumerate (fun _ _ => true) sampleEnv [0, 1] start (sampleArgs 0)).map
      (·.res)) = some .ok := by decide
  obtain ⟨r, hr, hok⟩ := Option.map_eq_some_iff.mp hok
  obtain ⟨r', hr', hok'⟩ := Option.map_eq_some_iff.mp hok'
  exact ⟨r, r', hr, hr', num_matches_agree_iff (sample_live 2) (sample_live 0)
    (fun a _ => sample_reports _ a) (fun a _ => sample_reports _ a) hr hr' hok hok'⟩

/-- The array of one token is full after the first plugin, and the second one is not asked. -/
theorem full_array_stops_count :
    (∀ filters adapter, Reports (fun _ _ => true) sampleEnv filters adapter
      (sampleMatches adapter)) ∧
    (fpgaEnumerate (fun _ _ => true) sampleEnv [0, 1] start (sampleArgs 1)).map
      (fun r => (r.res, r.numMatches)) = some (.ok, some 1) ∧
    (fpgaEnumerate (fun _ _ => true) sampleEnv [0, 1] start (sampleArgs 0)).map
      (fun r => (r.res, r.numMatches)) = some (.ok, some 2) :=
  ⟨sample_reports, by decide, by decide⟩

end

end OpaeLibs.OpaeC.EnumerateTokens
