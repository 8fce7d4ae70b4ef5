import OpaeLibs.OpaeC.DispatchOrigins

namespace OpaeLibs.OpaeC.DispatchRuns

open OpaeLibs.Lib.Heap OpaeLibs.Lib.Outcomes OpaeLibs.Lib.Runs
open OpaeLibs.OpaeC.Props OpaeLibs.OpaeC.ApiShell OpaeLibs.OpaeC.Enumerate
open OpaeLibs.OpaeC.EnumerateTokens OpaeLibs.OpaeC.Tokens OpaeLibs.OpaeC.Dispatch
open OpaeLibs.OpaeC.DispatchOrigins

/-- A plugin that succeeds has stored a token in each cell up to its count and the space it was
given. -/
def Fills (env : EnumerateEnv) : Prop :=
  ∀ a filters max, (env.enumerate a filters true max).res = .ok →
    min max.toNat (env.enumerate a filters true max).numMatches.toNat ≤
      (env.enumerate a filters true max).tokens.length

section

variable {Q : Dispatch → Prop} {s : Shell}

theorem unwrapParents_sourced (h : Sourced Q s) (env : EnumerateEnv)
    (ptfList : List ParentTokenFixup) (i : Nat) (filters : List (Option Nat)) :
    Ensures (unwrapParents env s ptfList i filters) fun r => Sourced Q r.2.2 := by
  induction filters generalizing s ptfList i with
  | nil => exact ensures_some.mpr h
  | cons f rest ih =>
    refine (validate_live s.props f).bind fun o _ => ?_
    cases o with
    | none => exact ensures_pure h
    | some x =>
      refine ensures_ite (fun _ => ?_) fun _ => ih h _ _
      refine (validateToken_live s x.2.parent).bind fun o _ => ?_
      cases o with
      | none => exact ensures_pure h
      | some y => exact ensures_ite (fun _ => ensures_pure h) fun _ => ih (h.withProps _) _ _

theorem restoreParents_sourced (h : Sourced Q s) (ptfList : List ParentTokenFixup) :
    Ensures (restoreParents s ptfList) (Sourced Q) := by
  induction ptfList generalizing s with
  | nil => exact ensures_some.mpr h
  | cons trash rest ih =>
    refine (validate_live s.props (some trash.prop)).bind fun o _ => ?_
    cases o with
    | none => exact ih h
    | some x => exact ih (h.withProps _)

theorem forEachAdapter_ensures {σ : Type} {callback : Nat → σ → Option (Bool × σ)} {I : σ → Prop}
    {adapters : List Nat}
    (hstep : ∀ a ∈ adapters, ∀ st, I st → Ensures (callback a st) fun r => I r.2) {st : σ}
    (h : I st) : Ensures (opaePluginMgrForEachAdapter callback adapters st) I := by
  induction adapters generalizing st with
  | nil => exact ensures_some.mpr h
  | cons a rest ih =>
    refine (hstep a List.mem_cons_self st h).bind fun r hr => ?_
    obtain ⟨stop, st'⟩ := r
    exact ensures_ite (fun _ => ensures_pure hr) fun _ =>
      ih (fun b hb => hstep b (List.mem_cons_of_mem _ hb)) hr

variable (hQ : ∀ d, Own d → Q d)

include hQ

theorem wrapTokens_sourced (h : Sourced Q s) (tables : Tables) (env : EnumerateEnv) (adapter : Nat)
    (ctx : OpaeEnumerationContext) {cells : List (Option OpaePtr)}
    (hc : ∀ c ∈ cells, From adapter c) :
    Ensures (wrapTokens tables env adapter ctx s cells) fun r =>
      Sourced Q r.2.2 ∧ r.2.1.filters = ctx.filters := by
  induction cells generalizing s ctx with
  | nil => exact ensures_some.mpr ⟨h, rfl⟩
  | cons token rest ih =>
    have hrest := fun c hc' => hc c (List.mem_cons_of_mem _ hc')
    refine (allocateToken_sourced h _ (hc token List.mem_cons_self)).bind fun r hr => ?_
    obtain ⟨wt, s'⟩ := r
    cases wt with
    | none => exact ensures_pure ⟨hr, rfl⟩
    | some wt =>
      cases ctx.wrappedTokens with
      | some written => exact ih hr _ hrest
      | none => exact (downref_sourced hQ hr tables .ok wt).bind fun r hr' => ih hr' _ hrest

omit hQ in
theorem from_overwrite {a n : Nat} {tokens : List Nat} {cells : List (Option OpaePtr)}
    (h : n ≤ (tokens.map fun t => (⟨a, t⟩ : OpaePtr)).length) :
    ∀ c ∈ (overwrite cells (tokens.map fun t => ⟨a, t⟩)).take n, From a c := by
  intro c hc
  rw [EnumerateWalk.take_overwrite h] at hc
  obtain ⟨p, hp, rfl⟩ := List.mem_map.mp hc
  obtain ⟨t, -, rfl⟩ := List.mem_map.mp (List.mem_of_mem_take hp)
  exact from_map a (some t)

theorem opaeEnumerate_sourced (tables : Tables) {env : EnumerateEnv} (hfill : Fills env)
    {filters : List (FpgaProperties TokenPtr)} {a : Nat}
    (ha : Q ⟨a, .fpgaEnumerate, (filterParents filters).map some⟩)
    (st : OpaeEnumerationContext × Shell) (h : Sourced Q st.2 ∧ st.1.filters = filters) :
    Ensures (opaeEnumerate tables env a st) fun r =>
      Sourced Q r.2.2 ∧ r.2.1.filters = filters := by
  obtain ⟨ctx, s⟩ := st
  obtain ⟨h, rfl⟩ := h
  refine ensures_ite (fun _ => ensures_some.mpr ⟨h, rfl⟩) fun _ => ?_
  refine ensures_ite (fun _ => ensures_some.mpr ⟨h, rfl⟩) fun _ => ?_
  have hd := h.dispatch ha
  refine ensures_ite (fun _ => ensures_some.mpr ⟨hd, rfl⟩) fun hres => ?_
  cases hcells : ctx.adapterTokens with
  | none => exact ensures_some.mpr ⟨hd, rfl⟩
  | some cells =>
    refine Ensures.bind (wrapTokens_sourced hQ hd tables env a _ ?_) fun r hr => ?_
    · rw [hcells, Option.isSome_some] at hres
      refine from_overwrite ?_
      rw [EnumerateWalk.toNat_clip, List.length_map]
      exact hfill a ctx.filters _ (not_not.mp hres)
    · obtain ⟨completed, ctx', s'⟩ := r
      exact ensures_ite (fun _ => ensures_pure hr) fun _ => ensures_pure hr

theorem fpgaEnumerate_sourced (h : Sourced Q s) (tables : Tables) {env : EnumerateEnv}
    (hfill : Fills env) {adapters : List Nat} {args : EnumerateArgs}
    (ha : ∀ a ∈ adapters,
      Q ⟨a, .fpgaEnumerate, (filterParents (unwrappedFilters env s args)).map some⟩) :
    Ensures (fpgaEnumerate tables env adapters s args) fun r => Sourced Q r.shell := by
  refine ensures_ite (fun _ => ensures_some.mpr h) fun _ => ?_
  refine ensures_ite (fun _ => ensures_some.mpr h) fun _ => ?_
  refine ensures_ite (fun _ => ensures_some.mpr h) fun _ => ?_
  refine ensures_ite (fun _ => ensures_some.mpr h) fun _ => ?_
  refine ensures_ite (fun _ => ensures_some.mpr h) fun _ => ?_
  refine Ensures.bind (P := fun r => unwrapParents env s [] 0 args.filterList = some r)
    (fun r hr => hr) fun r hu => ?_
  have hs' := unwrapParents_sourced h env [] 0 args.filterList r hu
  obtain ⟨res, ptfList, s'⟩ := r
  cases res with
  | error res => exact (restoreParents_sourced hs' ptfList).bind fun s'' hs'' => ensures_pure hs''
  | ok _ =>
    have hf : (enumerationContext s' args).filters = unwrappedFilters env s args := by
      simp [unwrappedFilters, hu]
    refine Ensures.bind (forEachAdapter_ensures (fun a hmem => opaeEnumerate_sourced hQ tables
      hfill (ha a hmem)) ⟨hs', hf⟩) fun r hr => ?_
    exact (restoreParents_sourced hr.1 ptfList).bind fun s'' hs'' => ensures_pure hs''

theorem handleCall_sourced (h : Sourced Q s) (fn : ApiFn) (pointers : Bool) (tables : Tables)
    (res : FpgaResult) (handle : Option Nat) :
    Ensures (handleCall fn pointers tables res s handle) fun r => Sourced Q r.2 := by
  refine (validate_live s.handles handle).bind fun o ho => ?_
  cases o with
  | none => exact ensures_pure h
  | some x =>
    refine ensures_ite (fun _ => ensures_pure h) fun _ => ?_
    refine ensures_ite (fun _ => ensures_pure h) fun _ => ?_
    exact ensures_pure (h.dispatchOne hQ fn (h.handles _ _ (ho x rfl).2))

theorem tokenCall_sourced (h : Sourced Q s) (fn : ApiFn) (pointers : Bool) (tables : Tables)
    (res : FpgaResult) (token : Option TokenPtr) :
    Ensures (tokenCall fn pointers tables res s token) fun r => Sourced Q r.2 := by
  refine (validateToken_live s token).bind fun o ho => ?_
  cases o with
  | none => exact ensures_pure h
  | some x =>
    refine ensures_ite (fun _ => ensures_pure h) fun _ => ?_
    refine ensures_ite (fun _ => ensures_pure h) fun _ => ?_
    exact ensures_pure (h.dispatchOne hQ fn (h.tokens _ _ (ho x rfl).2))

theorem objectCall_sourced (h : Sourced Q s) (fn : ApiFn) (pointers : Bool) (tables : Tables)
    (res : FpgaResult) (obj : Option Nat) :
    Ensures (objectCall fn pointers tables res s obj) fun r => Sourced Q r.2 := by
  refine (validate_live s.objects obj).bind fun o ho => ?_
  cases o with
  | none => exact ensures_pure h
  | some x =>
    refine ensures_ite (fun _ => ensures_pure h) fun _ => ?_
    refine ensures_ite (fun _ => ensures_pure h) fun _ => ?_
    exact ensures_pure (h.dispatchOne hQ fn (h.objects _ _ (ho x rfl).2))

theorem getObject_sourced (h : Sourced Q s) (fn : ApiFn) (pointers : Bool) (tables : Tables)
    (env : ObjectEnv) {adapter : Nat} {source : Option OpaePtr} (hs : From adapter source) :
    Sourced Q (getObject fn pointers tables env s adapter source).2.2 := by
  have hd := h.dispatchOne hQ fn hs
  simp only [getObject]
  split
  · exact h
  split
  · exact h
  split
  · exact h
  split
  · exact hd
  cases hm : env.malloc with
  | false =>
    simp only [opaeAllocateWrappedObject]
    exact hd.dispatchOne hQ _ (from_map adapter env.object)
  | true =>
    simp only [opaeAllocateWrappedObject]
    exact ⟨hd.tokens, hd.handles, hd.eventHandles, hd.objects.alloc (from_map adapter env.object),
      hd.log⟩

theorem fpgaTokenGetObject_sourced (h : Sourced Q s) (name object : Bool) (tables : Tables)
    (env : ObjectEnv) (token : Option TokenPtr) :
    Ensures (fpgaTokenGetObject name object tables env s token) fun r => Sourced Q r.2.2 := by
  refine (validateToken_live s token).bind fun o ho => ?_
  cases o with
  | none => exact ensures_pure h
  | some x =>
    exact ensures_pure (getObject_sourced hQ h _ _ tables env (h.tokens _ _ (ho x rfl).2))

theorem fpgaHandleGetObject_sourced (h : Sourced Q s) (name object : Bool) (tables : Tables)
    (env : ObjectEnv) (handle : Option Nat) :
    Ensures (fpgaHandleGetObject name object tables env s handle) fun r => Sourced Q r.2.2 := by
  refine (validate_live s.handles handle).bind fun o ho => ?_
  cases o with
  | none => exact ensures_pure h
  | some x =>
    exact ensures_pure (getObject_sourced hQ h _ _ tables env (h.handles _ _ (ho x rfl).2))

theorem fpgaObjectGetObjectAt_sourced (h : Sourced Q s) (object : Bool) (tables : Tables)
    (env : ObjectEnv) (parent : Option Nat) :
    Ensures (fpgaObjectGetObjectAt object tables env s parent) fun r => Sourced Q r.2.2 := by
  refine (validate_live s.objects parent).bind fun o ho => ?_
  cases o with
  | none => exact ensures_pure h
  | some x =>
    exact ensures_pure (getObject_sourced hQ h _ _ tables env (h.objects _ _ (ho x rfl).2))

theorem fpgaObjectGetObject_sourced (h : Sourced Q s) (name object : Bool) (tables : Tables)
    (env : ObjectEnv) (parent : Option Nat) :
    Ensures (fpgaObjectGetObject name object tables env s parent) fun r => Sourced Q r.2.2 := by
  refine (validate_live s.objects parent).bind fun o ho => ?_
  cases o with
  | none => exact ensures_pure h
  | some x =>
    exact ensures_pure (getObject_sourced hQ h _ _ tables env (h.objects _ _ (ho x rfl).2))

theorem fpgaDestroyObject_sourced (h : Sourced Q s) (tables : Tables) (res : FpgaResult)
    (obj : Option (Option Nat)) :
    Ensures (fpgaDestroyObject tables res s obj) fun r => Sourced Q r.2 := by
  refine (validate_live s.objects obj.join).bind fun o ho => ?_
  cases o with
  | none => exact ensures_pure h
  | some x =>
    have hd := h.dispatchOne hQ .fpgaDestroyObject (h.objects _ _ (ho x rfl).2)
    refine ensures_ite (fun _ => ensures_pure h) fun _ => ensures_pure ?_
    exact ⟨hd.tokens, hd.handles, hd.eventHandles, hd.objects.free x.1, hd.log⟩

omit hQ in
theorem fpgaCreateEventHandle_sourced (h : Sourced Q s) (malloc eventHandle : Bool) :
    Sourced Q (fpgaCreateEventHandle malloc eventHandle s).2.2 := by
  simp only [fpgaCreateEventHandle]
  split
  · exact h
  split
  · exact h
  · exact ⟨h.tokens, h.handles, h.eventHandles.alloc (fun he => by cases he), h.objects, h.log⟩

omit hQ in
theorem adapterOf_event (h : Sourced Q s) {id : Nat} {we : OpaeWrappedEventHandle}
    (hwe : s.eventHandles.get id = some we) (hc : we.created = true) :
    Ensures we.adapterTable fun a => we.adapterTable = some a ∧ From a we.opaeEventHandle := by
  obtain ⟨a, ha, hfrom⟩ := h.eventHandles id we hwe hc
  rw [ha]
  exact ensures_some.mpr ⟨rfl, hfrom⟩

theorem fpgaDestroyEventHandle_sourced (h : Sourced Q s) (tables : Tables) (res : FpgaResult)
    (eventHandle : Option (Option Nat)) :
    Ensures (fpgaDestroyEventHandle tables res s eventHandle) fun r => Sourced Q r.2 := by
  have hfree : ∀ {s'} id, Sourced Q s' →
      Sourced Q { s' with eventHandles := s'.eventHandles.free id } := fun id h =>
    ⟨h.tokens, h.handles, h.eventHandles.free id, h.objects, h.log⟩
  refine (validate_live s.eventHandles eventHandle.join).bind fun o ho => ?_
  cases o with
  | none => exact ensures_pure h
  | some x =>
    refine ensures_ite (fun hc => ?_) fun _ => ensures_pure (hfree x.1 h)
    refine (adapterOf_event h (ho x rfl).2 hc).bind fun a ha => ?_
    refine ensures_ite (fun _ => ensures_pure h) fun _ => ?_
    refine ensures_ite (fun _ => ensures_pure h) fun _ => ?_
    exact ensures_pure (hfree x.1 (h.dispatchOne hQ _ ha.2))

theorem fpgaGetOSObjectFromEventHandle_sourced (h : Sourced Q s) (fd : Bool) (tables : Tables)
    (res : FpgaResult) (eh : Option Nat) :
    Ensures (fpgaGetOSObjectFromEventHandle fd tables res s eh) fun r => Sourced Q r.2 := by
  refine (validate_live s.eventHandles eh).bind fun o ho => ?_
  cases o with
  | none => exact ensures_pure h
  | some x =>
    refine ensures_ite (fun _ => ensures_pure h) fun _ => ?_
    refine ensures_ite (fun _ => ensures_pure h) fun hc => ?_
    refine ensures_ite (fun _ => ensures_pure h) fun _ => ?_
    refine (adapterOf_event h (ho x rfl).2 (by simpa using hc)).bind fun a ha => ?_
    refine ensures_ite (fun _ => ensures_pure h) fun _ => ?_
    exact ensures_pure (h.dispatchOne hQ _ ha.2)

theorem createOnce_sourced (h : Sourced Q s) (tables : Tables) (env : EventEnv) (id : Nat)
    (we : OpaeWrappedEventHandle) (adapter : Nat) :
    Sourced Q (createOnce tables env s id we adapter).2 ∧
    ∀ we', (createOnce tables env s id we adapter).1 = .ok we' →
      we.created = true ∧ we' = we ∨
      we'.adapterTable = some adapter ∧ From adapter we'.opaeEventHandle := by
  simp only [createOnce]
  split
  · next hc => exact ⟨h, fun we' he => .inl ⟨hc, by cases he; rfl⟩⟩
  split
  · exact ⟨h, fun we' he => by cases he⟩
  have hd : Sourced Q (dispatch s adapter .fpgaCreateEventHandle []) :=
    h.dispatch (hQ _ fun p hp => by cases hp)
  split
  · exact ⟨hd, fun we' he => by cases he⟩
  · have hfrom := from_map adapter env.object
    refine ⟨⟨hd.tokens, hd.handles, hd.eventHandles.set id fun _ => ⟨adapter, rfl, hfrom⟩,
      hd.objects, hd.log⟩, fun we' he => ?_⟩
    cases he
    exact .inr ⟨rfl, hfrom⟩

omit hQ in
theorem own_pair {a : Nat} {f : ApiFn} {p q : Option OpaePtr} (hp : From a p) (hq : From a q) :
    Own ⟨a, f, [p, q]⟩ := by
  intro r hr
  obtain rfl | hr := List.mem_cons.mp hr
  · exact hp
  · rwa [List.mem_singleton.mp hr]

theorem fpgaRegisterEvent_sourced (h : Sourced Q s) (tables : Tables) (env : EventEnv)
    (handle eventHandle : Option Nat)
    (hmix : ∀ wh ∈ handle.bind s.handles.get, ∀ we ∈ eventHandle.bind s.eventHandles.get,
      we.created = true → ∀ a ∈ we.adapterTable,
        Q ⟨a, .fpgaRegisterEvent, [wh.opaeHandle, we.opaeEventHandle]⟩) :
    Ensures (fpgaRegisterEvent tables env s handle eventHandle) fun r => Sourced Q r.2 := by
  refine (validate_live s.handles handle).bind fun o ho => ?_
  refine (validate_live s.eventHandles eventHandle).bind fun o' ho' => ?_
  cases o with
  | none => exact ensures_pure h
  | some x =>
    cases o' with
    | none => exact ensures_pure h
    | some y =>
      obtain ⟨rfl, hwh⟩ := ho x rfl
      obtain ⟨rfl, hwe⟩ := ho' y rfl
      obtain ⟨hs, hown⟩ := createOnce_sourced hQ h tables env y.1 y.2 x.2.adapterTable
      obtain ⟨⟨made, s'⟩, hmade⟩ : ∃ r, createOnce tables env s y.1 y.2 x.2.adapterTable = r :=
        ⟨_, rfl⟩
      simp only [hmade] at hs hown ⊢
      cases made with
      | error res => exact ensures_pure hs
      | ok we =>
        refine ensures_ite (fun _ => ensures_pure hs) fun _ => ?_
        cases hadapter : we.adapterTable with
        | none => exact ensures_pure hs
        | some a =>
          refine ensures_ite (fun _ => ensures_pure hs) fun _ => ensures_pure (hs.dispatch ?_)
          obtain ⟨hc, rfl⟩ | ⟨ha, hfrom⟩ := hown we rfl
          · exact hmix x.2 hwh y.2 hwe hc a hadapter
          · obtain rfl : x.2.adapterTable = a := Option.some.inj (ha.symm.trans hadapter)
            exact hQ _ (own_pair (h.handles _ _ hwh) hfrom)

omit hQ in
theorem fpgaUnregisterEvent_sourced (h : Sourced Q s) (tables : Tables) (res : FpgaResult)
    (handle eventHandle : Option Nat)
    (hmix : ∀ wh ∈ handle.bind s.handles.get, ∀ we ∈ eventHandle.bind s.eventHandles.get,
      we.created = true → ∀ a ∈ we.adapterTable,
        Q ⟨a, .fpgaUnregisterEvent, [wh.opaeHandle, we.opaeEventHandle]⟩) :
    Ensures (fpgaUnregisterEvent tables res s handle eventHandle) fun r => Sourced Q r.2 := by
  refine (validate_live s.handles handle).bind fun o ho => ?_
  refine (validate_live s.eventHandles eventHandle).bind fun o' ho' => ?_
  cases o with
  | none => exact ensures_pure h
  | some x =>
    cases o' with
    | none => exact ensures_pure h
    | some y =>
      obtain ⟨rfl, hwh⟩ := ho x rfl
      obtain ⟨rfl, hwe⟩ := ho' y rfl
      refine ensures_ite (fun _ => ensures_pure h) fun hc => ?_
      have hc : y.2.created = true := by simpa using hc
      refine ensures_ite (fun _ => ensures_pure h) fun _ => ?_
      refine (adapterOf_event h hwe hc).bind fun a ha => ?_
      refine ensures_ite (fun _ => ensures_pure h) fun _ => ensures_pure (h.dispatch ?_)
      exact hmix x.2 hwh y.2 hwe hc a ha.1

omit hQ in
theorem interfaceCall_sourced (h : Sourced Q s) (fn : ApiFn) (tables : Tables) (res : FpgaResult)
    (fpga : Option Nat) (accelerator : Option TokenPtr)
    (hmix : ∀ wh ∈ fpga.bind s.handles.get,
      ∀ wt ∈ (TokenOwners.wrappedId accelerator).bind s.tokens.get,
        Q ⟨wh.adapterTable, fn, [wh.opaeHandle, wt.opaeToken]⟩) :
    Ensures (interfaceCall fn tables res s fpga accelerator) fun r => Sourced Q r.2 := by
  refine (validate_live s.handles fpga).bind fun o ho => ?_
  refine (validateToken_live s accelerator).bind fun o' ho' => ?_
  cases o with
  | none => exact ensures_pure h
  | some x =>
    cases o' with
    | none => exact ensures_pure h
    | some y =>
      obtain ⟨rfl, hwh⟩ := ho x rfl
      obtain ⟨rfl, hwt⟩ := ho' y rfl
      refine ensures_ite (fun _ => ensures_pure h) fun _ => ensures_pure (h.dispatch ?_)
      exact hmix x.2 hwh y.2 hwt

end

/-- All calls of the shell that can reach a plugin. `onHandle`, `onToken` and `onObject` are those
of one object. -/
inductive Call
  | tokens (call : TokenRuns.Call)
  | onHandle (fn : ApiFn) (pointers : Bool) (res : FpgaResult) (handle : Option Nat)
  | onToken (fn : ApiFn) (pointers : Bool) (res : FpgaResult) (token : Option TokenPtr)
  | onObject (fn : ApiFn) (pointers : Bool) (res : FpgaResult) (obj : Option Nat)
  | tokenGetObject (name object : Bool) (env : ObjectEnv) (token : Option TokenPtr)
  | handleGetObject (name object : Bool) (env : ObjectEnv) (handle : Option Nat)
  | objectGetObjectAt (object : Bool) (env : ObjectEnv) (parent : Option Nat)
  | objectGetObject (name object : Bool) (env : ObjectEnv) (parent : Option Nat)
  | destroyObject (res : FpgaResult) (obj : Option (Option Nat))
  | createEventHandle (malloc eventHandle : Bool)
  | destroyEventHandle (res : FpgaResult) (eventHandle : Option (Option Nat))
  | getOSObject (fd : Bool) (res : FpgaResult) (eh : Option Nat)
  | registerEvent (env : EventEnv) (handle eventHandle : Option Nat)
  | unregisterEvent (res : FpgaResult) (handle eventHandle : Option Nat)
  | assignToInterface (res : FpgaResult) (fpga : Option Nat) (accelerator : Option TokenPtr)
  | releaseFromInterface (res : FpgaResult) (fpga : Option Nat) (accelerator : Option TokenPtr)

def Call.apply (tables : Tables) (adapters : List Nat) (s : Shell) : Call → Option Shell
  | .tokens call =>
    (TokenRuns.step tables adapters (some ⟨[], s⟩) call).map TokenRuns.Client.shell
  | .onHandle fn pointers res handle =>
    (handleCall fn pointers tables res s handle).map Prod.snd
  | .onToken fn pointers res token => (tokenCall fn pointers tables res s token).map Prod.snd
  | .onObject fn pointers res obj => (objectCall fn pointers tables res s obj).map Prod.snd
  | .tokenGetObject name object env token =>
    (fpgaTokenGetObject name object tables env s token).map fun r => r.2.2
  | .handleGetObject name object env handle =>
    (fpgaHandleGetObject name object tables env s handle).map fun r => r.2.2
  | .objectGetObjectAt object env parent =>
    (fpgaObjectGetObjectAt object tables env s parent).map fun r => r.2.2
  | .objectGetObject name object env parent =>
    (fpgaObjectGetObject name object tables env s parent).map fun r => r.2.2
  | .destroyObject res obj => (fpgaDestroyObject tables res s obj).map Prod.snd
  | .createEventHandle malloc eventHandle =>
    some (fpgaCreateEventHandle malloc eventHandle s).2.2
  | .destroyEventHandle res eventHandle =>
    (fpgaDestroyEventHandle tables res s eventHandle).map Prod.snd
  | .getOSObject fd res eh => (fpgaGetOSObjectFromEventHandle fd tables res s eh).map Prod.snd
  | .registerEvent env handle eventHandle =>
    (fpgaRegisterEvent tables env s handle eventHandle).map Prod.snd
  | .unregisterEvent res handle eventHandle =>
    (fpgaUnregisterEvent tables res s handle eventHandle).map Prod.snd
  | .assignToInterface res fpga accelerator =>
    (fpgaAssignToInterface tables res s fpga accelerator).map Prod.snd
  | .releaseFromInterface res fpga accelerator =>
    (fpgaReleaseFromInterface tables res s fpga accelerator).map Prod.snd

/-- `none` is a shell that has read a freed object. -/
def step (tables : Tables) (adapters : List Nat) (s : Option Shell) (c : Call) : Option Shell :=
  s.bind fun s => c.apply tables adapters s

/-- The plugins fill the arrays that they say they fill. -/
def PluginsFill : Call → Prop
  | .tokens (.enumerate env _) => Fills env
  | _ => True

/-- The calls on objects of more than one wrapper may pass what `Q` allows. -/
def Allows (Q : Dispatch → Prop) (adapters : List Nat) (s : Shell) : Call → Prop
  | .tokens (.enumerate env args) => ∀ a ∈ adapters,
    Q ⟨a, .fpgaEnumerate, (filterParents (unwrappedFilters env s args)).map some⟩
  | .registerEvent _ handle eventHandle =>
    ∀ wh ∈ handle.bind s.handles.get, ∀ we ∈ eventHandle.bind s.eventHandles.get,
      we.created = true → ∀ a ∈ we.adapterTable,
        Q ⟨a, .fpgaRegisterEvent, [wh.opaeHandle, we.opaeEventHandle]⟩
  | .unregisterEvent _ handle eventHandle =>
    ∀ wh ∈ handle.bind s.handles.get, ∀ we ∈ eventHandle.bind s.eventHandles.get,
      we.created = true → ∀ a ∈ we.adapterTable,
        Q ⟨a, .fpgaUnregisterEvent, [wh.opaeHandle, we.opaeEventHandle]⟩
  | .assignToInterface _ fpga accelerator => ∀ wh ∈ fpga.bind s.handles.get,
    ∀ wt ∈ (TokenOwners.wrappedId accelerator).bind s.tokens.get,
      Q ⟨wh.adapterTable, .fpgaAssignToInterface, [wh.opaeHandle, wt.opaeToken]⟩
  | .releaseFromInterface _ fpga accelerator => ∀ wh ∈ fpga.bind s.handles.get,
    ∀ wt ∈ (TokenOwners.wrappedId accelerator).bind s.tokens.get,
      Q ⟨wh.adapterTable, .fpgaReleaseFromInterface, [wh.opaeHandle, wt.opaeToken]⟩
  | _ => True

section

variable {Q : Dispatch → Prop} (hQ : ∀ d, Own d → Q d) {s : Shell}

include hQ

theorem tokens_sourced (h : Sourced Q s) (tables : Tables) (adapters : List Nat)
    (call : TokenRuns.Call) (hfill : PluginsFill (.tokens call))
    (ha : Allows Q adapters s (.tokens call)) :
    Ensures (Call.apply tables adapters s (.tokens call)) (Sourced Q) := by
  have hmap : ∀ {α : Type} {o : Option α} {shell : α → Shell} {client : α → TokenRuns.Client},
      Ensures o (fun r => Sourced Q (shell r)) → (∀ r, (client r).shell = shell r) →
      Ensures ((o.map client).map TokenRuns.Client.shell) (Sourced Q) := fun ho hc =>
    Ensures.map (P := fun c : TokenRuns.Client => Sourced Q c.shell)
      (ho.map fun r hr => by rw [hc r]; exact hr) fun _ hc => hc
  cases call with
  | enumerate env args => exact hmap (fpgaEnumerate_sourced hQ h tables hfill ha) fun _ => rfl
  | cloneToken env src dst =>
    exact hmap (fpgaCloneToken_sourced hQ h tables env src dst) fun _ => rfl
  | destroyToken env token =>
    exact hmap (fpgaDestroyToken_sourced hQ h tables env token) fun _ => rfl
  | openToken env token handle =>
    exact hmap (fpgaOpen_sourced hQ h tables env token handle) fun _ => rfl
  | close env handle => exact hmap (fpgaClose_sourced hQ h tables env handle) fun _ => rfl
  | setParent env prop parent =>
    exact hmap (fpgaPropertiesSetParent_sourced hQ h tables env prop parent) fun _ => rfl
  | getParent prop parent => exact hmap (fun _ _ => h) fun _ => rfl
  | cloneProperties env src dst =>
    exact hmap (fpgaCloneProperties_sourced h env src dst) fun _ => rfl
  | clearProperties env props =>
    exact hmap (fpgaClearProperties_sourced hQ h tables env props) fun _ => rfl
  | destroyProperties env prop =>
    exact hmap (fpgaDestroyProperties_sourced hQ h tables env prop) fun _ => rfl
  | getProperties env token prop =>
    exact hmap (fpgaGetProperties_sourced hQ h tables env token prop) fun _ => rfl
  | getPropertiesFromHandle env handle prop =>
    exact hmap (fpgaGetPropertiesFromHandle_sourced hQ h tables env handle prop) fun _ => rfl
  | updateProperties env token prop =>
    exact hmap (fpgaUpdateProperties_sourced hQ h tables env token prop) fun _ => rfl

theorem apply_sourced (h : Sourced Q s) (tables : Tables) (adapters : List Nat) (call : Call)
    (hfill : PluginsFill call) (ha : Allows Q adapters s call) :
    Ensures (Call.apply tables adapters s call) (Sourced Q) := by
  have hmap : ∀ {α : Type} {o : Option α} {shell : α → Shell},
      Ensures o (fun r => Sourced Q (shell r)) → Ensures (o.map shell) (Sourced Q) := fun ho =>
    ho.map fun _ hr => hr
  cases call with
  | tokens call => exact tokens_sourced hQ h tables adapters call hfill ha
  | onHandle fn pointers res handle =>
    exact hmap (handleCall_sourced hQ h fn pointers tables res handle)
  | onToken fn pointers res token =>
    exact hmap (tokenCall_sourced hQ h fn pointers tables res token)
  | onObject fn pointers res obj =>
    exact hmap (objectCall_sourced hQ h fn pointers tables res obj)
  | tokenGetObject name object env token =>
    exact hmap (fpgaTokenGetObject_sourced hQ h name object tables env token)
  | handleGetObject name object env handle =>
    exact hmap (fpgaHandleGetObject_sourced hQ h name object tables env handle)
  | objectGetObjectAt object env parent =>
    exact hmap (fpgaObjectGetObjectAt_sourced hQ h object tables env parent)
  | objectGetObject name object env parent =>
    exact hmap (fpgaObjectGetObject_sourced hQ h name object tables env parent)
  | destroyObject res obj => exact hmap (fpgaDestroyObject_sourced hQ h tables res obj)
  | createEventHandle malloc eventHandle =>
    exact ensures_some.mpr (fpgaCreateEventHandle_sourced h malloc eventHandle)
  | destroyEventHandle res eventHandle =>
    exact hmap (fpgaDestroyEventHandle_sourced hQ h tables res eventHandle)
  | getOSObject fd res eh =>
    exact hmap (fpgaGetOSObjectFromEventHandle_sourced hQ h fd tables res eh)
  | registerEvent env handle eventHandle =>
    exact hmap (fpgaRegisterEvent_sourced hQ h tables env handle eventHandle ha)
  | unregisterEvent res handle eventHandle =>
    exact hmap (fpgaUnregisterEvent_sourced h tables res handle eventHandle ha)
  | assignToInterface res fpga accelerator =>
    exact hmap (interfaceCall_sourced h _ tables res fpga accelerator ha)
  | releaseFromInterface res fpga accelerator =>
    exact hmap (interfaceCall_sourced h _ tables res fpga accelerator ha)

end

/-- Own but for what the calls on several wrappers pass on unchecked. -/
def Excused (d : Dispatch) : Prop :=
  match d.fn with
  | .fpgaEnumerate => True
  | .fpgaRegisterEvent | .fpgaUnregisterEvent => ∀ p ∈ d.args.drop 1, From d.adapter p
  | .fpgaAssignToInterface | .fpgaReleaseFromInterface => ∀ p ∈ d.args.take 1, From d.adapter p
  | _ => Own d

theorem excused_of_own (d : Dispatch) (h : Own d) : Excused d := by
  unfold Excused
  split
  · trivial
  · exact fun p hp => h p (List.mem_of_mem_drop hp)
  · exact fun p hp => h p (List.mem_of_mem_drop hp)
  · exact fun p hp => h p (List.mem_of_mem_take hp)
  · exact fun p hp => h p (List.mem_of_mem_take hp)
  · exact h

section

variable {Q : Dispatch → Prop} {s : Shell}

theorem handle_from (h : Sourced Q s) {handle : Option Nat} {wh : OpaeWrappedHandle}
    (hwh : wh ∈ handle.bind s.handles.get) : From wh.adapterTable wh.opaeHandle := by
  obtain ⟨id, -, hid⟩ := Option.bind_eq_some_iff.mp hwh
  exact h.handles id wh hid

theorem token_from (h : Sourced Q s) {token : Option Nat} {wt : OpaeWrappedToken}
    (hwt : wt ∈ token.bind s.tokens.get) : From wt.adapterTable wt.opaeToken := by
  obtain ⟨id, -, hid⟩ := Option.bind_eq_some_iff.mp hwt
  exact h.tokens id wt hid

theorem eventHandle_from (h : Sourced Q s) {eventHandle : Option Nat}
    {we : OpaeWrappedEventHandle} (hwe : we ∈ eventHandle.bind s.eventHandles.get)
    (hc : we.created = true) {a : Nat} (ha : a ∈ we.adapterTable) :
    From a we.opaeEventHandle := by
  obtain ⟨id, -, hid⟩ := Option.bind_eq_some_iff.mp hwe
  obtain ⟨b, hb, hfrom⟩ := h.eventHandles id we hid hc
  obtain rfl : b = a := Option.some.inj (hb.symm.trans ha)
  exact hfrom

end

theorem allows_excused {Q : Dispatch → Prop} {s : Shell} (h : Sourced Q s) (adapters : List Nat)
    (call : Call) : Allows Excused adapters s call := by
  cases call with
  | tokens call =>
    cases call with
    | enumerate env args => exact fun _ _ => trivial
    | _ => trivial
  | registerEvent env handle eventHandle =>
    intro wh _ we hwe hc a ha p hp
    rw [List.mem_singleton.mp hp]
    exact eventHandle_from h hwe hc ha
  | unregisterEvent res handle eventHandle =>
    intro wh _ we hwe hc a ha p hp
    rw [List.mem_singleton.mp hp]
    exact eventHandle_from h hwe hc ha
  | assignToInterface res fpga accelerator =>
    intro wh hwh wt _ p hp
    rw [List.mem_singleton.mp hp]
    exact handle_from h hwh
  | releaseFromInterface res fpga accelerator =>
    intro wh hwh wt _ p hp
    rw [List.mem_singleton.mp hp]
    exact handle_from h hwh
  | _ => trivial

/-- The call is given objects of one adapter only, and parents of the adapters that it goes to. -/
def Unmixed (adapters : List Nat) (s : Shell) : Call → Prop
  | .tokens (.enumerate env args) =>
    ∀ p ∈ filterParents (unwrappedFilters env s args), ∀ a ∈ adapters, p.adapter = a
  | .registerEvent _ handle eventHandle | .unregisterEvent _ handle eventHandle =>
    ∀ wh ∈ handle.bind s.handles.get, ∀ we ∈ eventHandle.bind s.eventHandles.get,
      we.created = true → we.adapterTable = some wh.adapterTable
  | .assignToInterface _ fpga accelerator | .releaseFromInterface _ fpga accelerator =>
    ∀ wh ∈ fpga.bind s.handles.get,
      ∀ wt ∈ (TokenOwners.wrappedId accelerator).bind s.tokens.get,
        wt.adapterTable = wh.adapterTable
  | _ => True

theorem allows_own {Q : Dispatch → Prop} {s : Shell} (h : Sourced Q s) (adapters : List Nat)
    {call : Call} (hu : Unmixed adapters s call) : Allows Own adapters s call := by
  cases call with
  | tokens call =>
    cases call with
    | enumerate env args =>
      intro a ha p hp q hq
      obtain ⟨q', hq', rfl⟩ := List.mem_map.mp hp
      obtain rfl := Option.some.inj hq
      exact hu q' hq' a ha
    | _ => trivial
  | registerEvent env handle eventHandle =>
    intro wh hwh we hwe hc a ha
    obtain rfl := Option.some.inj ((hu wh hwh we hwe hc).symm.trans ha)
    exact own_pair (handle_from h hwh) (eventHandle_from h hwe hc ha)
  | unregisterEvent res handle eventHandle =>
    intro wh hwh we hwe hc a ha
    obtain rfl := Option.some.inj ((hu wh hwh we hwe hc).symm.trans ha)
    exact own_pair (handle_from h hwh) (eventHandle_from h hwe hc ha)
  | assignToInterface res fpga accelerator =>
    intro wh hwh wt hwt
    exact own_pair (handle_from h hwh) (hu wh hwh wt hwt ▸ token_from h hwt)
  | releaseFromInterface res fpga accelerator =>
    intro wh hwh wt hwt
    exact own_pair (handle_from h hwh) (hu wh hwh wt hwt ▸ token_from h hwt)
  | _ => trivial

/-- The calls on two wrappers that pass all checks, with what they dispatch. No check compares the
adapters of the two. -/
inductive PairCall (tables : Tables) (s : Shell) : Call → Dispatch → Prop
  | registerEvent {env : EventEnv} {handle eventHandle a : Nat} {wh : OpaeWrappedHandle}
      {p : OpaePtr} (hwh : s.handles.get handle = some wh)
      (hwe : s.eventHandles.get eventHandle = some ⟨true, some p, some a⟩)
      (ht : tables a .fpgaRegisterEvent = true) :
      PairCall tables s (.registerEvent env (some handle) (some eventHandle))
        ⟨a, .fpgaRegisterEvent, [wh.opaeHandle, some p]⟩
  | unregisterEvent {res : FpgaResult} {handle eventHandle a : Nat} {wh : OpaeWrappedHandle}
      {p : OpaePtr} (hwh : s.handles.get handle = some wh)
      (hwe : s.eventHandles.get eventHandle = some ⟨true, some p, some a⟩)
      (ht : tables a .fpgaUnregisterEvent = true) :
      PairCall tables s (.unregisterEvent res (some handle) (some eventHandle))
        ⟨a, .fpgaUnregisterEvent, [wh.opaeHandle, some p]⟩
  | assignToInterface {res : FpgaResult} {fpga accelerator : Nat} {wh : OpaeWrappedHandle}
      {wt : OpaeWrappedToken} (hwh : s.handles.get fpga = some wh)
      (hwt : s.tokens.get accelerator = some wt)
      (ht : tables wh.adapterTable .fpgaAssignToInterface = true) :
      PairCall tables s (.assignToInterface res (some fpga) (some (.wrapped accelerator)))
        ⟨wh.adapterTable, .fpgaAssignToInterface, [wh.opaeHandle, wt.opaeToken]⟩
  | releaseFromInterface {res : FpgaResult} {fpga accelerator : Nat} {wh : OpaeWrappedHandle}
      {wt : OpaeWrappedToken} (hwh : s.handles.get fpga = some wh)
      (hwt : s.tokens.get accelerator = some wt)
      (ht : tables wh.adapterTable .fpgaReleaseFromInterface = true) :
      PairCall tables s (.releaseFromInterface res (some fpga) (some (.wrapped accelerator)))
        ⟨wh.adapterTable, .fpgaReleaseFromInterface, [wh.opaeHandle, wt.opaeToken]⟩

theorem validate_get {α : Type} {objects : Slots α} {id : Nat} {a : α}
    (h : objects.get id = some a) : validate objects (some id) = some (some (id, a)) := by
  rw [validate, h, Option.map_some]

theorem interfaceCall_live {tables : Tables} {s : Shell} {fn : ApiFn} {fpga accelerator : Nat}
    {wh : OpaeWrappedHandle} {wt : OpaeWrappedToken} (hwh : s.handles.get fpga = some wh)
    (hwt : s.tokens.get accelerator = some wt) (ht : tables wh.adapterTable fn = true)
    (res : FpgaResult) :
    interfaceCall fn tables res s (some fpga) (some (.wrapped accelerator)) =
      some (res, dispatch s wh.adapterTable fn [wh.opaeHandle, wt.opaeToken]) := by
  rw [interfaceCall, validate_get hwh, opaeValidateWrappedToken, validate_get hwt]
  simp only [Option.bind_eq_bind, Option.bind_some, ht]
  rfl

theorem pairCall_dispatched {tables : Tables} {s : Shell} {call : Call} {d : Dispatch}
    (h : PairCall tables s call d) (adapters : List Nat) :
    step tables adapters (some s) call = some (dispatch s d.adapter d.fn d.args) := by
  cases h with
  | registerEvent hwh hwe ht =>
    rw [step, Option.bind_some, Call.apply, fpgaRegisterEvent, validate_get hwh, validate_get hwe]
    simp [createOnce, ht]
  | unregisterEvent hwh hwe ht =>
    rw [step, Option.bind_some, Call.apply, fpgaUnregisterEvent, validate_get hwh,
      validate_get hwe]
    simp [ht]
  | assignToInterface hwh hwt ht =>
    exact congrArg (Option.map Prod.snd) (interfaceCall_live hwh hwt ht _)
  | releaseFromInterface hwh hwt ht =>
    exact congrArg (Option.map Prod.snd) (interfaceCall_live hwh hwt ht _)

def GivenParents (env : EnumerateEnv) (s : Shell) (args : EnumerateArgs) (d : Dispatch) : Prop :=
  d.fn = .fpgaEnumerate ∧ d.args = (filterParents (unwrappedFilters env s args)).map some

theorem fpgaEnumerate_dispatches {Q : Dispatch → Prop} {s : Shell} (h : Sourced Q s)
    (tables : Tables) {env : EnumerateEnv} (hfill : Fills env) (adapters : List Nat)
    (args : EnumerateArgs) :
    Ensures (fpgaEnumerate tables env adapters s args) fun r =>
      ∀ d ∈ r.shell.log, d ∈ s.log ∨ Own d ∨ GivenParents env s args d := by
  have hs : Sourced (fun d => d ∈ s.log ∨ Own d ∨ GivenParents env s args d) s :=
    ⟨h.tokens, h.handles, h.eventHandles, h.objects, fun d hd => .inl hd⟩
  exact (fpgaEnumerate_sourced (fun d hd => .inr (.inl hd)) hs tables hfill
    fun a _ => .inr (.inr ⟨rfl, rfl⟩)).imp fun r hr => hr.log

/-- A plugin is given pointers that it has not made only where the client passes two wrappers of
different adapters, or a parent of another adapter in a filter: no call is turned down for that. -/
theorem run_dispatch_origins (tables : Tables) (adapters : List Nat) (calls : List Call)
    (hfill : ∀ call ∈ calls, PluginsFill call) {s : Shell}
    (hs : run (step tables adapters) (some start) calls = some s) :
    (∀ d ∈ s.log, Excused d) ∧
    (Along (step tables adapters) (fun s call => ∀ s' ∈ s, Unmixed adapters s' call) (some start)
      calls → ∀ d ∈ s.log, Own d) ∧
    (∀ call d, PairCall tables s call d →
      step tables adapters (some s) call = some (dispatch s d.adapter d.fn d.args)) ∧
    ∀ env args r, Fills env → fpgaEnumerate tables env adapters s args = some r →
      ∀ d ∈ r.shell.log, d ∈ s.log ∨ Own d ∨ GivenParents env s args d := by
  have hfills := along_of_forall (step tables adapters) (P := fun _ call => PluginsFill call)
    (fun call hcall _ => hfill call hcall) (some start)
  have hexcused : Ensures (run (step tables adapters) (some start) calls) (Sourced Excused) := by
    refine run_invariant (I := fun o => Ensures o (Sourced Excused)) (fun o call ho hc => ?_)
      (ensures_some.mpr (sourced_start _)) hfills
    exact ho.bind fun s hs => apply_sourced excused_of_own hs tables adapters call hc
      (allows_excused hs adapters call)
  have hsourced := hexcused s hs
  refine ⟨hsourced.log, fun hunmixed => ?_, fun call d hd => pairCall_dispatched hd adapters,
    fun env args r henv => fpgaEnumerate_dispatches hsourced tables henv adapters args r⟩
  have hown : Ensures (run (step tables adapters) (some start) calls) (Sourced Own) := by
    refine run_invariant (I := fun o => Ensures o (Sourced Own)) (fun o call ho hc => ?_)
      (ensures_some.mpr (sourced_start _)) ((along_and _ _ _ _ _).mpr ⟨hfills, hunmixed⟩)
    refine Ensures.bind (P := fun s => s ∈ o ∧ Sourced Own s) (fun s hs => ⟨hs, ho s hs⟩)
      fun s hs => ?_
    exact apply_sourced (fun d hd => hd) hs.2 tables adapters call hc.1
      (allows_own hs.2 adapters (hc.2 s hs.1))
  exact (hown s hs).log

def sampleEvent : EventEnv := ⟨.ok, some 20, .ok⟩

/-- Tokens of the adapters 0 and 1 are opened, and an event handle that is registered with the first
handle is then registered with the second. -/
def mixedCalls : List Call :=
  [.tokens (.enumerate sampleEnv (sampleArgs 2)),
    .tokens (.openToken TokenRuns.sampleCall (some (.wrapped 0)) true),
    .tokens (.openToken TokenRuns.sampleCall (some (.wrapped 1)) true),
    .createEventHandle true true,
    .registerEvent sampleEvent (some 0) (some 0),
    .registerEvent sampleEvent (some 1) (some 0)]

theorem mixed_fill : ∀ call ∈ mixedCalls, PluginsFill call := by
  intro call hcall
  simp only [mixedCalls, List.mem_cons, List.not_mem_nil, or_false] at hcall
  obtain rfl | rfl | rfl | rfl | rfl | rfl := hcall
  · intro a filters max _
    simp only [sampleEnv, sampleMatches, if_true, List.length_take]
    exact Nat.le_refl _
  all_goals trivial

theorem run_dispatch_origins_sample :
    ∃ s, run (step (fun _ _ => true) [0, 1]) (some start) mixedCalls = some s ∧
      ∀ d ∈ s.log, Excused d := by
  obtain ⟨s, hs⟩ : ∃ s, run (step (fun _ _ => true) [0, 1]) (some start) mixedCalls = some s :=
    Option.isSome_iff_exists.mp (by decide)
  exact ⟨s, hs, (run_dispatch_origins _ _ _ mixed_fill hs).1⟩

/-- Adapter 0 is given the handle of adapter 1. -/
theorem mixed_event_handle_dispatched :
    (∀ call ∈ mixedCalls, PluginsFill call) ∧
    (run (step (fun _ _ => true) [0, 1]) (some start) mixedCalls).bind (fun s => s.log.getLast?) =
      some ⟨0, .fpgaRegisterEvent, [some ⟨1, 7⟩, some ⟨0, 20⟩]⟩ ∧
    ¬ Own ⟨0, .fpgaRegisterEvent, [some ⟨1, 7⟩, some ⟨0, 20⟩]⟩ := by
  refine ⟨mixed_fill, by decide, fun h => ?_⟩
  have hcross := h (some ⟨1, 7⟩) List.mem_cons_self ⟨1, 7⟩ rfl
  cases hcross

end OpaeLibs.OpaeC.DispatchRuns
