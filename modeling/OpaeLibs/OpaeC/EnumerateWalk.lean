import OpaeLibs.OpaeC.Enumerate

namespace OpaeLibs.OpaeC.EnumerateWalk

open OpaeLibs.Lib.Heap
open OpaeLibs.OpaeC.Props OpaeLibs.OpaeC.ApiShell OpaeLibs.OpaeC.Enumerate

def grow (s : Shell) (ws : List OpaeWrappedToken) : Shell :=
  { s with
    tokens := s.tokens.allocAll ws
    tokenList := (List.range' s.tokens.next ws.length).reverse ++ s.tokenList }

theorem grow_nil (s : Shell) : grow s [] = s := by simp [grow]

theorem grow_append (s : Shell) (vs ws : List OpaeWrappedToken) :
    grow (grow s vs) ws = grow s (vs ++ ws) := by
  have hr : List.range' s.tokens.next vs.length ++
      List.range' (s.tokens.next + vs.length) ws.length =
        List.range' s.tokens.next (vs.length + ws.length) := by
    rw [List.range'_append_1]
  simp only [grow, Slots.next_allocAll, Slots.allocAll_append, List.length_append, ← hr,
    List.reverse_append, List.append_assoc]

theorem opaeAllocateWrappedToken_true (s : Shell) (token : Option OpaePtr) (adapter : Nat) :
    opaeAllocateWrappedToken true s token adapter =
      some (some s.tokens.next, grow s [⟨token, 1, adapter⟩]) := by
  simp [opaeAllocateWrappedToken, opaeUprefWrappedToken, Slots.get_alloc, Slots.set_alloc_next,
    grow]
  rfl

theorem wrapTokens_spec (tables : Tables) (env : EnumerateEnv) (adapter : Nat)
    (ctx : OpaeEnumerationContext) {written : List Nat} (hw : ctx.wrappedTokens = some written)
    (s : Shell) (cells : List (Option OpaePtr)) :
    ∃ n ok, n ≤ cells.length ∧ (ok = true → n = cells.length) ∧
      (ok = false → ∃ k, env.tokenMalloc k = false) ∧
      wrapTokens tables env adapter ctx s cells = some (ok,
        { ctx with
          wrappedTokens := some (written ++ List.range' s.tokens.next n)
          numWrappedTokens := ctx.numWrappedTokens + UInt32.ofNat n
          errors := if ok then ctx.errors else ctx.errors + 1 },
        grow s ((cells.take n).map fun t => ⟨t, 1, adapter⟩)) := by
  induction cells generalizing ctx written s with
  | nil =>
    refine ⟨0, true, by simp, by simp, by simp, ?_⟩
    simp [wrapTokens, grow_nil, ← hw]
  | cons token rest ih =>
    cases hm : env.tokenMalloc ctx.numWrappedTokens.toNat with
    | false =>
      refine ⟨0, false, by simp, by simp, fun _ => ⟨_, hm⟩, ?_⟩
      simp [wrapTokens, hm, opaeAllocateWrappedToken, grow_nil, ← hw]
    | true =>
      obtain ⟨n, ok, hn, hok, hfail, he⟩ := ih { ctx with
        wrappedTokens := some (written ++ [s.tokens.next])
        numWrappedTokens := ctx.numWrappedTokens + 1 } rfl (grow s [⟨token, 1, adapter⟩])
      refine ⟨n + 1, ok, by simpa using hn, fun h => by simpa using hok h, hfail, ?_⟩
      have hnum : ctx.numWrappedTokens + 1 + UInt32.ofNat n =
          ctx.numWrappedTokens + UInt32.ofNat (n + 1) := by
        rw [UInt32.ofNat_add, UInt32.add_assoc, UInt32.add_comm 1]
        rfl
      simp only [wrapTokens, hm, opaeAllocateWrappedToken_true, Option.bind_eq_bind,
        Option.bind_some, hw, he, hnum, grow_append]
      simp [grow, List.range'_succ]

/-- The context of an enumeration into an array of which `written` has been filled. -/
structure Filling (written : List Nat) (ctx : OpaeEnumerationContext) : Prop where
  wrapped : ctx.wrappedTokens = some written
  num : ctx.numWrappedTokens.toNat = written.length
  bound : written.length ≤ ctx.maxWrappedTokens.toNat
  cells : ∃ cells, ctx.adapterTokens = some cells ∧ ctx.maxWrappedTokens.toNat ≤ cells.length

theorem Filling.space {written : List Nat} {ctx : OpaeEnumerationContext}
    (h : Filling written ctx) :
    (ctx.maxWrappedTokens - ctx.numWrappedTokens).toNat =
      ctx.maxWrappedTokens.toNat - written.length := by
  rw [UInt32.toNat_sub_of_le, h.num]
  rw [UInt32.le_iff_toNat_le, h.num]
  exact h.bound

/-- What one adapter, or the walk over several, has done: `ws` are the wrappers made. -/
structure Wrote (written : List Nat) (ctx : OpaeEnumerationContext) (s : Shell)
    (ws : List OpaeWrappedToken) (ctx' : OpaeEnumerationContext) (s' : Shell) : Prop where
  shell : ∃ log, s' = { grow s ws with log := log }
  filling : Filling (written ++ List.range' s.tokens.next ws.length) ctx'
  filters : ctx'.filters = ctx.filters
  max : ctx'.maxWrappedTokens = ctx.maxWrappedTokens
  owned : ∀ w ∈ ws, w.refCount = 1
  errors : ctx.errors ≤ ctx'.errors

theorem Wrote.trans {written : List Nat} {ctx ctx' ctx'' : OpaeEnumerationContext}
    {s s' s'' : Shell} {vs ws : List OpaeWrappedToken} (h : Wrote written ctx s vs ctx' s')
    (h' : Wrote (written ++ List.range' s.tokens.next vs.length) ctx' s' ws ctx'' s'') :
    Wrote written ctx s (vs ++ ws) ctx'' s'' := by
  obtain ⟨log, rfl⟩ := h.shell
  obtain ⟨log', hlog⟩ := h'.shell
  refine ⟨⟨log', ?_⟩, ?_, h'.filters.trans h.filters, h'.max.trans h.max, ?_,
    Nat.le_trans h.errors h'.errors⟩
  · rw [hlog, ← grow_append]
    rfl
  · have hf := h'.filling
    simp only [grow, Slots.next_allocAll] at hf
    rwa [List.append_assoc, List.range'_append_1, ← List.length_append] at hf
  · intro w hw
    obtain hv | hw := List.mem_append.mp hw
    · exact h.owned w hv
    · exact h'.owned w hw

/-- A plugin with the matches `ms` stores as many of them as there is space for and counts them all.
One without the function or that fails has none. -/
structure Reports (tables : Tables) (env : EnumerateEnv) (filters : List (FpgaProperties TokenPtr))
    (adapter : Nat) (ms : List Nat) : Prop where
  absent : tables adapter .fpgaEnumerate = false → ms = []
  failed : ∀ given max, (env.enumerate adapter filters given max).res ≠ .ok → ms = []
  count : ∀ given max, (env.enumerate adapter filters given max).res = .ok →
    (env.enumerate adapter filters given max).numMatches.toNat = ms.length
  tokens : ∀ max, (env.enumerate adapter filters true max).res = .ok →
    (env.enumerate adapter filters true max).tokens = ms.take max.toNat

def wraps (ms : Nat → List Nat) (adapter : Nat) : List OpaeWrappedToken :=
  (ms adapter).map fun t => ⟨some ⟨adapter, t⟩, 1, adapter⟩

/-- What is written compared with what the adapters report, and the count with theirs. -/
structure Faithful (env : EnumerateEnv) (reported : List OpaeWrappedToken) (space count : Nat)
    (ctx : OpaeEnumerationContext) (ws : List OpaeWrappedToken) (ctx' : OpaeEnumerationContext) :
    Prop where
  isPrefix : ws <+: reported.take space
  complete : ctx'.errors = ctx.errors ∨ (∀ k, env.tokenMalloc k = true) → ws = reported.take space
  count : ctx'.errors = ctx.errors → ctx'.numMatches = ctx.numMatches + UInt32.ofNat count

theorem Wrote.nothing {written : List Nat} {ctx ctx' : OpaeEnumerationContext} {s s' : Shell}
    (h : Filling written ctx) (hs : ∃ log, s' = { s with log := log })
    (hc : ∃ cells n, ctx.maxWrappedTokens.toNat ≤ cells.length ∧
      ctx' = { ctx with adapterTokens := some cells, errors := ctx.errors + n }) :
    Wrote written ctx s [] ctx' s' := by
  obtain ⟨log, rfl⟩ := hs
  obtain ⟨cells, n, hlen, rfl⟩ := hc
  refine ⟨⟨log, by rw [grow_nil]⟩, ?_, rfl, rfl, by simp, Nat.le_add_right _ _⟩
  exact ⟨by simpa using h.wrapped, by simpa using h.num, by simpa using h.bound, cells, rfl, hlen⟩

theorem le_length_overwrite {n : Nat} {cells : List (Option OpaePtr)} (h : n ≤ cells.length)
    (tokens : List OpaePtr) : n ≤ (overwrite cells tokens).length := by
  simp only [overwrite, List.length_append, List.length_map, List.length_drop]
  omega

theorem take_overwrite {n : Nat} {tokens : List OpaePtr} (h : n ≤ tokens.length)
    (cells : List (Option OpaePtr)) :
    (overwrite cells tokens).take n = (tokens.take n).map some := by
  rw [overwrite, List.take_append_of_le_length (by simpa using h), List.map_take]

theorem toNat_clip (space n : UInt32) :
    (if space > n then n else space).toNat = min space.toNat n.toNat := by
  by_cases h : space > n
  · have := UInt32.lt_iff_toNat_lt.mp h
    rw [if_pos h]
    omega
  · have := UInt32.le_iff_toNat_le.mp (UInt32.not_lt.mp h)
    rw [if_neg h]
    omega

theorem Filling.num_add {written : List Nat} {ctx : OpaeEnumerationContext}
    (h : Filling written ctx) {k : Nat} (hk : k ≤ ctx.maxWrappedTokens.toNat - written.length) :
    (ctx.numWrappedTokens + UInt32.ofNat k).toNat = written.length + k := by
  have hmax := ctx.maxWrappedTokens.toNat_lt
  have hbound := h.bound
  rw [UInt32.toNat_add, h.num, UInt32.toNat_ofNat']
  omega

theorem wrapped_take {tables : Tables} {env : EnumerateEnv} {adapter : Nat}
    {filters : List (FpgaProperties TokenPtr)} {ms : Nat → List Nat} {space : UInt32}
    (h : Reports tables env filters adapter (ms adapter))
    (hres : (env.enumerate adapter filters true space).res = .ok)
    (cells : List (Option OpaePtr)) {k : Nat} :
    let reply := env.enumerate adapter filters true space
    k ≤ min space.toNat reply.numMatches.toNat →
      ((overwrite cells (reply.tokens.map fun t => ⟨adapter, t⟩)).take k).map
        (fun t => ⟨t, 1, adapter⟩) = (wraps ms adapter).take k := by
  intro reply hk
  have htokens : reply.tokens = (ms adapter).take space.toNat := h.tokens space hres
  have hcount : reply.numMatches.toNat = (ms adapter).length := h.count true space hres
  have hlen : k ≤ (reply.tokens.map fun t => (⟨adapter, t⟩ : OpaePtr)).length := by
    rw [List.length_map, htokens, List.length_take, ← hcount]
    exact hk
  have hspace : k ≤ space.toNat := Nat.le_trans hk (Nat.min_le_left _ _)
  rw [take_overwrite hlen, ← List.map_take, htokens, List.take_take, Nat.min_eq_left hspace, wraps,
    ← List.map_take, List.map_map, List.map_map]
  rfl

theorem length_wraps (ms : Nat → List Nat) (adapter : Nat) :
    (wraps ms adapter).length = (ms adapter).length := List.length_map _

theorem opaeEnumerate_ok {tables : Tables} {env : EnumerateEnv} {adapter : Nat}
    {written : List Nat} {ctx : OpaeEnumerationContext} (h : Filling written ctx) (s : Shell)
    {cells cells' : List (Option OpaePtr)} (hcells : ctx.adapterTokens = some cells)
    (hfull : ctx.maxWrappedTokens - ctx.numWrappedTokens ≠ 0)
    (ht : tables adapter .fpgaEnumerate = true) {reply : EnumerateReply}
    (hreply : env.enumerate adapter ctx.filters true
      (ctx.maxWrappedTokens - ctx.numWrappedTokens) = reply) (hres : reply.res = .ok)
    (hcells' : overwrite cells (reply.tokens.map fun t => ⟨adapter, t⟩) = cells')
    (hlen : ctx.maxWrappedTokens.toNat ≤ cells'.length) {n : Nat}
    (hn : min (ctx.maxWrappedTokens.toNat - written.length) reply.numMatches.toNat = n) :
    ∃ k ok, k ≤ n ∧ (ok = true → k = n) ∧ (ok = false → ∃ j, env.tokenMalloc j = false) ∧
      opaeEnumerate tables env adapter (ctx, s) = some
        (!ok || decide (ctx.numWrappedTokens + UInt32.ofNat k = ctx.maxWrappedTokens),
        { ctx with
          wrappedTokens := some (written ++ List.range' s.tokens.next k)
          numMatches := ctx.numMatches + reply.numMatches
          adapterTokens := some cells'
          numWrappedTokens := ctx.numWrappedTokens + UInt32.ofNat k
          errors := if ok then ctx.errors else ctx.errors + 1 },
        grow (dispatch s adapter .fpgaEnumerate ((filterParents ctx.filters).map some))
          ((cells'.take k).map fun t => ⟨t, 1, adapter⟩)) := by
  obtain ⟨k, ok, hk, hok, hfail, he⟩ := wrapTokens_spec tables env adapter
    { ctx with
      wrappedTokens := some written
      numMatches := ctx.numMatches + reply.numMatches
      adapterTokens := some cells' } rfl
    (dispatch s adapter .fpgaEnumerate ((filterParents ctx.filters).map some)) (cells'.take n)
  rw [List.length_take, Nat.min_eq_left (by omega)] at hk hok
  refine ⟨k, ok, hk, hok, hfail, ?_⟩
  have hclip : (if ctx.maxWrappedTokens - ctx.numWrappedTokens > reply.numMatches
      then reply.numMatches else ctx.maxWrappedTokens - ctx.numWrappedTokens).toNat = n := by
    rw [toNat_clip, h.space, hn]
  simp only [opaeEnumerate, h.wrapped, hfull, ht, hcells, Option.isSome_some, hreply, hres,
    Option.map_some, hcells', hclip, he, Option.bind_eq_bind, Option.bind_some]
  cases ok <;> simp [List.take_take, Nat.min_eq_left hk, dispatch]

/-- What one adapter has done. The walk is stopped by a full array or by a wrapper that cannot be
allocated. -/
structure Visited (tables : Tables) (env : EnumerateEnv) (adapter : Nat) (written : List Nat)
    (ctx : OpaeEnumerationContext) (s : Shell) (stop : Bool) (ctx' : OpaeEnumerationContext)
    (s' : Shell) (ws : List OpaeWrappedToken) : Prop where
  wrote : Wrote written ctx s ws ctx' s'
  stopped : stop = true → written.length + ws.length = ctx.maxWrappedTokens.toNat ∨
    ctx.errors < ctx'.errors ∧ ∃ k, env.tokenMalloc k = false
  faithful : ∀ ms, Reports tables env ctx.filters adapter (ms adapter) →
    Faithful env (wraps ms adapter) (ctx.maxWrappedTokens.toNat - written.length)
      (if ctx.maxWrappedTokens.toNat - written.length = 0 then 0 else (ms adapter).length)
      ctx ws ctx'
  whole : ∀ ms, Reports tables env ctx.filters adapter (ms adapter) → stop = false →
    ws = wraps ms adapter

theorem Visited.nothing {tables : Tables} {env : EnumerateEnv} {adapter : Nat} {written : List Nat}
    {ctx ctx' : OpaeEnumerationContext} {s s' : Shell}
    (h : Wrote written ctx s [] ctx' s') (hnum : ctx'.numMatches = ctx.numMatches)
    (hms : ∀ ms : Nat → List Nat, Reports tables env ctx.filters adapter (ms adapter) →
      ms adapter = []) :
    Visited tables env adapter written ctx s false ctx' s' [] := by
  refine ⟨h, by simp, fun ms hr => ?_, fun ms hr _ => ?_⟩
  · rw [wraps, hms ms hr]
    exact ⟨by simp, by simp, fun _ => by simpa using hnum⟩
  · rw [wraps, hms ms hr]
    rfl

theorem visited_full {tables : Tables} {env : EnumerateEnv} {adapter : Nat} {written : List Nat}
    {ctx : OpaeEnumerationContext} {s : Shell} (h : Wrote written ctx s [] ctx s)
    (hfull : written.length = ctx.maxWrappedTokens.toNat) :
    Visited tables env adapter written ctx s true ctx s [] := by
  refine ⟨h, fun _ => .inl hfull, fun ms _ => ?_, by simp⟩
  rw [hfull, Nat.sub_self]
  exact ⟨by simp, by simp, by simp⟩

/-- A plugin of whose matches the first `k` are wrapped, all for which there is space unless a
wrapper cannot be allocated. -/
theorem faithful_take {env : EnumerateEnv} {reported : List OpaeWrappedToken} {space k : Nat}
    {ok : Bool} {ctx ctx' : OpaeEnumerationContext} (hspace : space ≠ 0) (hk : k ≤ space)
    (hok : ok = true → k = min space reported.length)
    (hfail : ok = false → ∃ j, env.tokenMalloc j = false)
    (herrors : ctx'.errors = if ok then ctx.errors else ctx.errors + 1)
    (hnum : ctx'.numMatches = ctx.numMatches + UInt32.ofNat reported.length) :
    Faithful env reported space (if space = 0 then 0 else reported.length) ctx (reported.take k)
      ctx' := by
  refine ⟨List.take_prefix_take_left hk, fun hdone => ?_, fun _ => by rw [hnum, if_neg hspace]⟩
  have hall : ok = true := by
    rw [← Bool.not_eq_false]
    intro hnot
    obtain ⟨j, hj⟩ := hfail hnot
    cases hdone with
    | inl hsame => simp [hnot, hsame] at herrors
    | inr halloc => exact nomatch hj.symm.trans (halloc j)
  rw [List.take_eq_take_iff, hok hall]
  omega

theorem visited_ok {tables : Tables} {env : EnumerateEnv} {adapter : Nat} {written : List Nat}
    {ctx : OpaeEnumerationContext} (h : Filling written ctx) (s : Shell)
    {cells : List (Option OpaePtr)} (hcells : ctx.adapterTokens = some cells)
    (hlen : ctx.maxWrappedTokens.toNat ≤ cells.length)
    (hfull : ctx.maxWrappedTokens - ctx.numWrappedTokens ≠ 0)
    (ht : tables adapter .fpgaEnumerate = true)
    (hres : (env.enumerate adapter ctx.filters true
      (ctx.maxWrappedTokens - ctx.numWrappedTokens)).res = .ok) :
    ∃ stop ctx' s' ws, opaeEnumerate tables env adapter (ctx, s) = some (stop, ctx', s') ∧
      Visited tables env adapter written ctx s stop ctx' s' ws := by
  obtain ⟨reply, hreply⟩ : ∃ reply, env.enumerate adapter ctx.filters true
    (ctx.maxWrappedTokens - ctx.numWrappedTokens) = reply := ⟨_, rfl⟩
  obtain ⟨cells', hcells'⟩ : ∃ cells', overwrite cells
    (reply.tokens.map fun t => (⟨adapter, t⟩ : OpaePtr)) = cells' := ⟨_, rfl⟩
  obtain ⟨n, hn⟩ : ∃ n, min (ctx.maxWrappedTokens.toNat - written.length)
    reply.numMatches.toNat = n := ⟨_, rfl⟩
  have hlen' : ctx.maxWrappedTokens.toNat ≤ cells'.length := hcells' ▸ le_length_overwrite hlen _
  obtain ⟨k, ok, hk, hok, hfail, he⟩ :=
    opaeEnumerate_ok h s hcells hfull ht hreply (hreply ▸ hres) hcells' hlen' hn
  obtain ⟨ws, hws⟩ : ∃ ws, (cells'.take k).map (fun t => (⟨t, 1, adapter⟩ : OpaeWrappedToken)) =
    ws := ⟨_, rfl⟩
  have hspace := h.space
  have hbound := h.bound
  have hnum := h.num_add (k := k) (by omega)
  have hwlen : ws.length = k := by
    rw [← hws, List.length_map, List.length_take]
    omega
  have howned : ∀ w ∈ ws, w.refCount = 1 := by
    intro w hw
    rw [← hws] at hw
    obtain ⟨t, -, rfl⟩ := List.mem_map.mp hw
    rfl
  have hcount : ∀ ms : Nat → List Nat, Reports tables env ctx.filters adapter (ms adapter) →
      reply.numMatches.toNat = (ms adapter).length := fun ms hr => hreply ▸ hr.count true _ hres
  have hwsr : ∀ ms, Reports tables env ctx.filters adapter (ms adapter) →
      ws = (wraps ms adapter).take k := by
    intro ms hr
    rw [← hws, ← hcells', ← hreply]
    exact wrapped_take hr hres cells (by rw [hreply, hspace, hn]; exact hk)
  rw [hws] at he
  refine ⟨_, _, _, ws, he,
    ⟨⟨⟨_, rfl⟩, ⟨by rw [hwlen], ?_, ?_, _, rfl, hlen'⟩, rfl, rfl, howned, ?_⟩, ?_, ?_, ?_⟩⟩
  · simpa [hwlen] using hnum
  · have hsum : written.length + k ≤ ctx.maxWrappedTokens.toNat := by omega
    simpa [hwlen] using hsum
  · cases ok <;> simp
  · cases ok with
    | false => exact fun _ => .inr ⟨by simp, hfail rfl⟩
    | true =>
      intro hstop
      have hmax : ctx.numWrappedTokens + UInt32.ofNat k = ctx.maxWrappedTokens := by
        simpa using hstop
      exact .inl (by rw [hwlen, ← hnum, hmax])
  · intro ms hr
    have hc := hcount ms hr
    have hpos : ctx.maxWrappedTokens.toNat - written.length ≠ 0 := by
      rw [← hspace]
      exact fun he => hfull (UInt32.toNat_inj.mp he)
    rw [← length_wraps ms adapter] at hc ⊢
    rw [hwsr ms hr]
    refine faithful_take hpos (by omega) (fun hall => ?_) hfail rfl ?_
    · rw [hok hall, ← hn, hc]
    · rw [← hc, UInt32.ofNat_toNat]
  · intro ms hr hgo
    simp only [Bool.or_eq_false_iff, Bool.not_eq_false', decide_eq_false_iff_not] at hgo
    have hc := hcount ms hr
    have hkn := hok hgo.1
    have hne : k ≠ ctx.maxWrappedTokens.toNat - written.length := fun he =>
      hgo.2 (UInt32.toNat_inj.mp (by omega))
    rw [hwsr ms hr, List.take_of_length_le]
    rw [length_wraps]
    omega

theorem opaeEnumerate_visits (tables : Tables) (env : EnumerateEnv) (adapter : Nat)
    {written : List Nat} {ctx : OpaeEnumerationContext} (h : Filling written ctx) (s : Shell) :
    ∃ stop ctx' s' ws, opaeEnumerate tables env adapter (ctx, s) = some (stop, ctx', s') ∧
      Visited tables env adapter written ctx s stop ctx' s' ws := by
  obtain ⟨cells, hcells, hlen⟩ := h.cells
  have hself : ctx = { ctx with adapterTokens := some cells, errors := ctx.errors + 0 } := by
    rw [← hcells, Nat.add_zero]
  have hsame : Wrote written ctx s [] ctx s :=
    Wrote.nothing h ⟨s.log, rfl⟩ ⟨cells, 0, hlen, hself⟩
  by_cases hfull : ctx.maxWrappedTokens - ctx.numWrappedTokens = 0
  · refine ⟨true, ctx, s, [], by simp [opaeEnumerate, h.wrapped, hfull], visited_full hsame ?_⟩
    have hspace := h.space
    have hbound := h.bound
    rw [hfull, UInt32.toNat_zero] at hspace
    omega
  · cases ht : tables adapter .fpgaEnumerate with
    | false =>
      exact ⟨false, ctx, s, [], by simp [opaeEnumerate, h.wrapped, hfull, ht],
        Visited.nothing hsame rfl fun ms hr => hr.absent ht⟩
    | true =>
      by_cases hres : (env.enumerate adapter ctx.filters true
          (ctx.maxWrappedTokens - ctx.numWrappedTokens)).res = .ok
      · exact visited_ok h s hcells hlen hfull ht hres
      · refine ⟨false, { ctx with
            adapterTokens := some (overwrite cells ((env.enumerate adapter ctx.filters true
              (ctx.maxWrappedTokens - ctx.numWrappedTokens)).tokens.map fun t => ⟨adapter, t⟩))
            errors := ctx.errors + 1 },
          dispatch s adapter .fpgaEnumerate ((filterParents ctx.filters).map some), [],
          by simp [opaeEnumerate, h.wrapped, hfull, ht, hcells, hres], Visited.nothing ?_ rfl
            fun ms hr => hr.failed true _ hres⟩
        exact Wrote.nothing h ⟨_, rfl⟩ ⟨_, 1, le_length_overwrite hlen _, rfl⟩

/-- The number reported by a walk that ends when the array is full. -/
def counted (ms : Nat → List Nat) : Nat → List Nat → Nat
  | _, [] => 0
  | space, a :: rest =>
    if space = 0 then 0 else (ms a).length + counted ms (space - (ms a).length) rest

@[simp] theorem counted_zero (ms : Nat → List Nat) (adapters : List Nat) :
    counted ms 0 adapters = 0 := by
  cases adapters <;> simp [counted]

theorem Faithful.stop {env : EnumerateEnv} {ms : Nat → List Nat} {adapter space : Nat}
    {rest : List Nat} {ctx ctx' : OpaeEnumerationContext} {ws : List OpaeWrappedToken}
    (h : Faithful env (wraps ms adapter) space (if space = 0 then 0 else (ms adapter).length) ctx
      ws ctx')
    (hstop : ws.length = space ∨
      ctx.errors < ctx'.errors ∧ ∃ k, env.tokenMalloc k = false) :
    Faithful env ((adapter :: rest).flatMap (wraps ms)) space (counted ms space (adapter :: rest))
      ctx ws ctx' := by
  have hpre : ws <+: ((adapter :: rest).flatMap (wraps ms)).take space := by
    rw [List.flatMap_cons, List.take_append]
    exact h.isPrefix.trans (List.prefix_append _ _)
  have hfull : ctx'.errors = ctx.errors ∨ (∀ k, env.tokenMalloc k = true) → ws.length = space := by
    rintro hc
    obtain hfull | ⟨herr, k, hk⟩ := hstop
    · exact hfull
    · obtain hc | hc := hc
      · omega
      · simp [hc k] at hk
  refine ⟨hpre, fun hc => hpre.eq_of_length_le ?_, fun herr => ?_⟩
  · rw [hfull hc]
    exact List.length_take_le _ _
  · have hle := h.isPrefix.length_le
    rw [hfull (.inl herr), List.length_take, wraps, List.length_map] at hle
    have hz : space - (ms adapter).length = 0 := by omega
    rw [h.count herr, counted, hz, counted_zero, Nat.add_zero]

theorem Faithful.go {env : EnumerateEnv} {ms : Nat → List Nat} {adapter space : Nat}
    {rest : List Nat} {ctx ctx' ctx'' : OpaeEnumerationContext} {ws : List OpaeWrappedToken}
    (h : Faithful env (wraps ms adapter) space (if space = 0 then 0 else (ms adapter).length) ctx
      (wraps ms adapter) ctx') (hle : (ms adapter).length ≤ space)
    (he : ctx.errors ≤ ctx'.errors) (he' : ctx'.errors ≤ ctx''.errors)
    (h' : Faithful env (rest.flatMap (wraps ms)) (space - (ms adapter).length)
      (counted ms (space - (ms adapter).length) rest) ctx' ws ctx'') :
    Faithful env ((adapter :: rest).flatMap (wraps ms)) space (counted ms space (adapter :: rest))
      ctx (wraps ms adapter ++ ws) ctx'' := by
  have hlen : (wraps ms adapter).length = (ms adapter).length := List.length_map _
  have htake : ((adapter :: rest).flatMap (wraps ms)).take space =
      wraps ms adapter ++ (rest.flatMap (wraps ms)).take (space - (ms adapter).length) := by
    rw [List.flatMap_cons, List.take_append, hlen, List.take_of_length_le (by omega)]
  refine ⟨?_, fun hc => ?_, fun herr => ?_⟩
  · rw [htake]
    exact (List.prefix_append_right_inj _).mpr h'.isPrefix
  · rw [htake, ← h'.complete (hc.imp (fun herr => by omega) id)]
  · rw [h'.count (by omega), h.count (by omega), UInt32.add_assoc, ← UInt32.ofNat_add]
    by_cases hz : space = 0
    · have hms : (ms adapter).length = 0 := by omega
      simp [hz, hms]
    · simp [hz, counted]

theorem walk_array (tables : Tables) (env : EnumerateEnv) (adapters : List Nat)
    {written : List Nat} {ctx : OpaeEnumerationContext} (h : Filling written ctx) (s : Shell) :
    ∃ ctx' s' ws, opaePluginMgrForEachAdapter (opaeEnumerate tables env) adapters (ctx, s) =
        some (ctx', s') ∧ Wrote written ctx s ws ctx' s' ∧
      ∀ ms, (∀ a ∈ adapters, Reports tables env ctx.filters a (ms a)) →
        Faithful env (adapters.flatMap (wraps ms)) (ctx.maxWrappedTokens.toNat - written.length)
          (counted ms (ctx.maxWrappedTokens.toNat - written.length) adapters) ctx ws ctx' := by
  induction adapters generalizing written ctx s with
  | nil =>
    obtain ⟨cells, hcells, hlen⟩ := h.cells
    refine ⟨ctx, s, [], rfl, Wrote.nothing h ⟨s.log, rfl⟩ ⟨cells, 0, hlen, ?_⟩, fun ms _ => ?_⟩
    · rw [← hcells, Nat.add_zero]
    · exact ⟨by simp, by simp, by simp [counted]⟩
  | cons adapter rest ih =>
    obtain ⟨stop, ctx', s', ws, he, hv⟩ := opaeEnumerate_visits tables env adapter h s
    cases stop with
    | true =>
      refine ⟨ctx', s', ws, by simp [opaePluginMgrForEachAdapter, he], hv.wrote, fun ms hr => ?_⟩
      refine (hv.faithful ms (hr adapter List.mem_cons_self)).stop ((hv.stopped rfl).imp_left ?_)
      intro hfull
      omega
    | false =>
      obtain ⟨ctx'', s'', vs, he', hw, hf⟩ := ih hv.wrote.filling s'
      refine ⟨ctx'', s'', ws ++ vs, by simpa [opaePluginMgrForEachAdapter, he] using he',
        hv.wrote.trans hw, fun ms hr => ?_⟩
      have hra := hr adapter List.mem_cons_self
      obtain rfl := hv.whole ms hra rfl
      have hlen : (wraps ms adapter).length = (ms adapter).length := List.length_map _
      have hbound := hv.wrote.filling.bound
      have hf' := hf ms fun a ha => hv.wrote.filters ▸ hr a (List.mem_cons_of_mem _ ha)
      rw [hv.wrote.max, List.length_append, List.length_range', hlen] at hf' hbound
      rw [← Nat.sub_sub] at hf'
      exact (hv.faithful ms hra).go (by omega) hv.wrote.errors hw.errors hf'

theorem walk_null (tables : Tables) (env : EnumerateEnv) (adapters : List Nat)
    (ctx : OpaeEnumerationContext) (h : ctx.wrappedTokens = none) (ha : ctx.adapterTokens = none)
    (s : Shell) :
    ∃ ctx' log, opaePluginMgrForEachAdapter (opaeEnumerate tables env) adapters (ctx, s) =
        some (ctx', { s with log := log }) ∧ ctx'.wrappedTokens = none ∧ ctx.errors ≤ ctx'.errors ∧
      ∀ ms, (∀ a ∈ adapters, Reports tables env ctx.filters a (ms a)) →
        ctx'.errors = ctx.errors →
        ctx'.numMatches = ctx.numMatches + UInt32.ofNat (adapters.flatMap ms).length := by
  induction adapters generalizing ctx s with
  | nil => exact ⟨ctx, s.log, rfl, h, Nat.le_refl _, by simp⟩
  | cons adapter rest ih =>
    cases ht : tables adapter .fpgaEnumerate with
    | false =>
      obtain ⟨ctx', log, he, hw, herr, hf⟩ := ih ctx h ha s
      refine ⟨ctx', log, by simpa [opaePluginMgrForEachAdapter, opaeEnumerate, h, ht] using he, hw,
        herr, fun ms hr => ?_⟩
      rw [List.flatMap_cons, (hr adapter List.mem_cons_self).absent ht]
      exact hf ms fun a ha => hr a (List.mem_cons_of_mem _ ha)
    | true =>
      obtain ⟨reply, hreply⟩ : ∃ reply, env.enumerate adapter ctx.filters false
        (ctx.maxWrappedTokens - ctx.numWrappedTokens) = reply := ⟨_, rfl⟩
      by_cases hres : reply.res = .ok
      · obtain ⟨ctx', log, he, hw, herr, hf⟩ := ih
          { ctx with numMatches := ctx.numMatches + reply.numMatches } h ha
          (dispatch s adapter .fpgaEnumerate ((filterParents ctx.filters).map some))
        refine ⟨ctx', log, ?_, hw, herr, fun ms hr hc => ?_⟩
        · simpa [opaePluginMgrForEachAdapter, opaeEnumerate, dispatch, h, ha, ht, hreply, hres]
            using he
        · have hcount := (hr adapter List.mem_cons_self).count false _ (by rw [hreply, hres])
          rw [hreply] at hcount
          rw [hf ms (fun a ha => hr a (List.mem_cons_of_mem _ ha)) hc, List.flatMap_cons,
            List.length_append, UInt32.ofNat_add, ← hcount, UInt32.ofNat_toNat, UInt32.add_assoc]
      · obtain ⟨ctx', log, he, hw, herr, hf⟩ := ih
          { ctx with errors := ctx.errors + 1 } h ha
          (dispatch s adapter .fpgaEnumerate ((filterParents ctx.filters).map some))
        refine ⟨ctx', log, ?_, hw, Nat.le_trans (Nat.le_succ _) herr, fun ms hr hc => ?_⟩
        · simpa [opaePluginMgrForEachAdapter, opaeEnumerate, dispatch, h, ha, ht, hreply, hres]
            using he
        · simp only at herr
          omega

end OpaeLibs.OpaeC.EnumerateWalk
