import OpaeLibs.Lib.Outcomes
import OpaeLibs.OpaeC.Dispatch
import OpaeLibs.OpaeC.TokenRuns

namespace OpaeLibs.OpaeC.DispatchOrigins

open OpaeLibs.Lib.Heap OpaeLibs.Lib.Outcomes OpaeLibs.Lib.Runs
open OpaeLibs.OpaeC.Props OpaeLibs.OpaeC.ApiShell OpaeLibs.OpaeC.Enumerate
open OpaeLibs.OpaeC.EnumerateTokens OpaeLibs.OpaeC.Tokens OpaeLibs.OpaeC.Dispatch

/-- The plugin pointer, if there is one, comes from the adapter `a`. -/
def From (a : Nat) (p : Option OpaePtr) : Prop := ∀ q ∈ p, q.adapter = a

theorem from_map (a : Nat) (o : Option Nat) : From a (o.map fun ptr => ⟨a, ptr⟩) := by
  intro q hq
  obtain ⟨ptr, -, rfl⟩ := Option.map_eq_some_iff.mp hq
  rfl

/-- All that the call passes comes from the adapter that is called. -/
def Own (d : Dispatch) : Prop := ∀ p ∈ d.args, From d.adapter p

/-- Every wrapper holds a pointer of its own adapter, and `Q` holds of every call made. -/
structure Sourced (Q : Dispatch → Prop) (s : Shell) : Prop where
  tokens : s.tokens.All fun wt => From wt.adapterTable wt.opaeToken
  handles : s.handles.All fun wh => From wh.adapterTable wh.opaeHandle
  eventHandles : s.eventHandles.All fun we => we.created = true →
    ∃ a, we.adapterTable = some a ∧ From a we.opaeEventHandle
  objects : s.objects.All fun wo => From wo.adapterTable wo.opaeObject
  log : ∀ d ∈ s.log, Q d

theorem sourced_start (Q : Dispatch → Prop) : Sourced Q start :=
  ⟨Slots.all_empty _, Slots.all_empty _, Slots.all_empty _, Slots.all_empty _,
    fun d hd => by cases hd⟩

section

variable {Q : Dispatch → Prop} {s : Shell}

theorem Sourced.withProps (h : Sourced Q s) (ps : Slots (FpgaProperties TokenPtr)) :
    Sourced Q { s with props := ps } := ⟨h.tokens, h.handles, h.eventHandles, h.objects, h.log⟩

theorem Sourced.dispatch (h : Sourced Q s) {a : Nat} {f : ApiFn} {args : List (Option OpaePtr)}
    (hq : Q ⟨a, f, args⟩) : Sourced Q (dispatch s a f args) := by
  refine ⟨h.tokens, h.handles, h.eventHandles, h.objects, fun d hd => ?_⟩
  obtain hd | hd := List.mem_append.mp hd
  · exact h.log d hd
  · rwa [List.mem_singleton.mp hd]

theorem validate_live {α : Type} (objects : Slots α) (id : Option Nat) :
    Ensures (validate objects id) fun o =>
      ∀ x ∈ o, id = some x.1 ∧ objects.get x.1 = some x.2 := by
  cases id with
  | none => exact ensures_some.mpr fun x hx => by cases hx
  | some id =>
    cases ha : objects.get id with
    | none => simp [validate, ha]
    | some a => simp [validate, ha]

theorem validateToken_live (s : Shell) (token : Option TokenPtr) :
    Ensures (opaeValidateWrappedToken s token) fun o =>
      ∀ x ∈ o, token = some (.wrapped x.1) ∧ s.tokens.get x.1 = some x.2 := by
  match token with
  | none => exact ensures_some.mpr fun x hx => by cases hx
  | some (.opae q) => exact ensures_some.mpr fun x hx => by cases hx
  | some (.wrapped t) =>
    exact (validate_live s.tokens (some t)).imp fun o ho x hx =>
      ⟨by rw [Option.some.inj (ho x hx).1], (ho x hx).2⟩

theorem upref_sourced (h : Sourced Q s) (id : Nat) :
    Ensures (opaeUprefWrappedToken s id) (Sourced Q) := by
  intro s' hs'
  simp only [opaeUprefWrappedToken, Option.bind_eq_bind, Option.mem_def,
    Option.bind_eq_some_iff] at hs'
  obtain ⟨wt, hwt, hs'⟩ := hs'
  have htokens :=
    h.tokens.set id (a := { wt with refCount := wt.refCount + 1 }) (h.tokens id wt hwt)
  split at hs'
  · cases hs'
    exact ⟨htokens, h.handles, h.eventHandles, h.objects, h.log⟩
  · cases hs'
    exact ⟨htokens, h.handles, h.eventHandles, h.objects, h.log⟩

theorem allocateToken_sourced (h : Sourced Q s) (malloc : Bool) {token : Option OpaePtr}
    {adapter : Nat} (ht : From adapter token) :
    Ensures (opaeAllocateWrappedToken malloc s token adapter) fun r => Sourced Q r.2 := by
  cases malloc with
  | false => exact ensures_some.mpr h
  | true =>
    have hs : Sourced Q { s with tokens := s.tokens.alloc ⟨token, 0, adapter⟩ } :=
      ⟨h.tokens.alloc ht, h.handles, h.eventHandles, h.objects, h.log⟩
    exact (upref_sourced hs _).bind fun s' hs' => ensures_pure hs'

theorem allocateHandle_sourced (h : Sourced Q s) (malloc : Bool) (wt : Nat)
    {opaeHandle : Option OpaePtr} {adapter : Nat} (ho : From adapter opaeHandle) :
    Ensures (opaeAllocateWrappedHandle malloc s wt opaeHandle adapter) fun r => Sourced Q r.2 := by
  cases malloc with
  | false => exact ensures_some.mpr h
  | true =>
    have hs : Sourced Q { s with handles := s.handles.alloc ⟨wt, opaeHandle, adapter⟩ } :=
      ⟨h.tokens, h.handles.alloc ho, h.eventHandles, h.objects, h.log⟩
    exact (upref_sourced hs _).bind fun s' hs' => ensures_pure hs'

variable (hQ : ∀ d, Own d → Q d)

include hQ

theorem Sourced.dispatchOne (h : Sourced Q s) {a : Nat} (f : ApiFn) {p : Option OpaePtr}
    (hp : From a p) : Sourced Q (ApiShell.dispatch s a f [p]) :=
  h.dispatch (hQ _ fun q hq => by rwa [List.mem_singleton.mp hq])

theorem downref_sourced (h : Sourced Q s) (tables : Tables) (destroyed : FpgaResult) (id : Nat) :
    Ensures (opaeDownrefWrappedToken tables destroyed s id) fun r => Sourced Q r.2 := by
  intro r hr
  simp only [opaeDownrefWrappedToken, Option.bind_eq_bind, Option.mem_def,
    Option.bind_eq_some_iff] at hr
  obtain ⟨wt, hwt, hr⟩ := hr
  have hown := h.tokens id wt hwt
  split at hr
  · have hs : Sourced Q { s with tokenList := s.tokenList.erase id, tokens := s.tokens.free id } :=
      ⟨h.tokens.free id, h.handles, h.eventHandles, h.objects, h.log⟩
    split at hr
    · cases hr
      exact hs.dispatchOne hQ _ hown
    · cases hr
      exact hs
  · cases hr
    exact ⟨h.tokens.set id hown, h.handles, h.eventHandles, h.objects, h.log⟩

theorem releaseParent_sourced (h : Sourced Q s) (tables : Tables) (env : CallEnv)
    (p : FpgaProperties TokenPtr) : Ensures (releaseParent tables env s p) (Sourced Q) := by
  refine ensures_ite (fun _ => ?_) fun _ => ensures_pure h
  refine (validateToken_live s p.parent).bind fun o _ => ?_
  cases o with
  | none => exact ensures_pure h
  | some x => exact (downref_sourced hQ h tables env.destroyed x.1).bind fun r hr => ensures_pure hr

theorem findParent_sourced (h : Sourced Q s) (tables : Tables) (env : ParentEnv)
    (address : UInt16 × UInt8 × UInt8) (candidates : List Nat) :
    Ensures (findParent tables env address s candidates) fun r => Sourced Q r.2 := by
  induction candidates generalizing s with
  | nil => exact ensures_some.mpr h
  | cons p rest ih =>
    intro r hr
    simp only [findParent, Option.bind_eq_bind, Option.mem_def, Option.bind_eq_some_iff] at hr
    obtain ⟨wt, hwt, hr⟩ := hr
    have hd := h.dispatchOne hQ .fpgaUpdateProperties (h.tokens p wt hwt)
    split at hr
    · exact ih h r hr
    · split at hr
      · split at hr
        · obtain ⟨s', hs', hr⟩ := Option.bind_eq_some_iff.mp hr
          cases hr
          exact upref_sourced hd p s' hs'
        · exact ih hd r hr
      · cases hr
        exact hd

theorem getParentToken_sourced (h : Sourced Q s) (tables : Tables) (env : ParentEnv)
    (child : Nat) : Ensures (opaeGetParentToken tables env s child) fun r => Sourced Q r.2 := by
  cases hwt : s.tokens.get child with
  | none => simp [opaeGetParentToken, hwt]
  | some wt =>
    have hd := h.dispatchOne hQ .fpgaUpdateProperties (h.tokens child wt hwt)
    obtain he | he | ⟨address, -, he⟩ := TokenOwners.opaeGetParentToken_cases tables env hwt
    · rw [he]
      exact ensures_some.mpr h
    · rw [he]
      exact ensures_some.mpr hd
    · rw [he]
      exact findParent_sourced hQ hd tables env address s.tokenList

theorem fpgaOpen_sourced (h : Sourced Q s) (tables : Tables) (env : CallEnv)
    (token : Option TokenPtr) (handle : Bool) :
    Ensures (fpgaOpen tables env s token handle) fun r => Sourced Q r.2.2 := by
  refine (validateToken_live s token).bind fun o ho => ?_
  cases o with
  | none => exact ensures_pure h
  | some x =>
    have hd := h.dispatchOne hQ .fpgaOpen (h.tokens _ _ (ho x rfl).2)
    refine ensures_ite (fun _ => ensures_pure h) fun _ => ?_
    refine ensures_ite (fun _ => ensures_pure h) fun _ => ?_
    refine ensures_ite (fun _ => ensures_pure h) fun _ => ?_
    refine ensures_ite (fun _ => ensures_pure hd) fun _ => ?_
    refine (allocateHandle_sourced hd env.malloc x.1 (from_map _ env.object)).bind fun r hr => ?_
    obtain ⟨wh, s'⟩ := r
    cases wh with
    | none => exact ensures_pure (hr.dispatchOne hQ _ (from_map _ env.object))
    | some wh => exact ensures_pure hr

theorem fpgaClose_sourced (h : Sourced Q s) (tables : Tables) (env : CallEnv)
    (handle : Option Nat) :
    Ensures (fpgaClose tables env s handle) fun r => Sourced Q r.2 := by
  refine (validate_live s.handles handle).bind fun o ho => ?_
  cases o with
  | none => exact ensures_pure h
  | some x =>
    have hd := h.dispatchOne hQ .fpgaClose (h.handles _ _ (ho x rfl).2)
    refine ensures_ite (fun _ => ensures_pure h) fun _ => ?_
    refine Ensures.bind (P := Sourced Q) ?_ fun s' hs' => ensures_pure hs'
    refine (downref_sourced hQ hd tables env.destroyed x.2.wrappedToken).bind fun r hr => ?_
    exact ensures_pure ⟨hr.tokens, hr.handles.free x.1, hr.eventHandles, hr.objects, hr.log⟩

theorem fpgaCloneToken_sourced (h : Sourced Q s) (tables : Tables) (env : CallEnv)
    (src : Option TokenPtr) (dst : Bool) :
    Ensures (fpgaCloneToken tables env s src dst) fun r => Sourced Q r.2.2 := by
  refine (validateToken_live s src).bind fun o ho => ?_
  cases o with
  | none => exact ensures_pure h
  | some x =>
    have hd := h.dispatchOne hQ .fpgaCloneToken (h.tokens _ _ (ho x rfl).2)
    refine ensures_ite (fun _ => ensures_pure h) fun _ => ?_
    refine ensures_ite (fun _ => ensures_pure h) fun _ => ?_
    refine ensures_ite (fun _ => ensures_pure h) fun _ => ?_
    refine ensures_ite (fun _ => ensures_pure hd) fun _ => ?_
    refine (allocateToken_sourced hd env.malloc (from_map _ env.object)).bind fun r hr => ?_
    obtain ⟨t, s'⟩ := r
    cases t with
    | none => exact ensures_pure (hr.dispatchOne hQ _ (from_map _ env.object))
    | some t => exact ensures_pure hr

theorem fpgaDestroyToken_sourced (h : Sourced Q s) (tables : Tables) (env : CallEnv)
    (token : Option (Option TokenPtr)) :
    Ensures (fpgaDestroyToken tables env s token) fun r => Sourced Q r.2 := by
  cases token with
  | none => exact ensures_some.mpr h
  | some token =>
    refine (validateToken_live s token).bind fun o _ => ?_
    cases o with
    | none => exact ensures_pure h
    | some x => exact downref_sourced hQ h tables env.destroyed x.1

theorem fpgaDestroyProperties_sourced (h : Sourced Q s) (tables : Tables) (env : CallEnv)
    (prop : Option (Option Nat)) :
    Ensures (fpgaDestroyProperties tables env s prop) fun r => Sourced Q r.2 := by
  cases prop with
  | none => exact ensures_some.mpr h
  | some prop =>
    refine (validate_live s.props prop).bind fun o _ => ?_
    cases o with
    | none => exact ensures_pure h
    | some x =>
      exact (releaseParent_sourced hQ h tables env x.2).bind fun s' hs' =>
        ensures_pure (hs'.withProps _)

omit hQ in
theorem fpgaCloneProperties_sourced (h : Sourced Q s) (env : CallEnv) (src : Option Nat)
    (dst : Bool) : Ensures (fpgaCloneProperties env s src dst) fun r => Sourced Q r.2.2 := by
  refine ensures_ite (fun _ => ensures_some.mpr h) fun _ => ?_
  refine (validate_live s.props src).bind fun o _ => ?_
  cases o with
  | none => exact ensures_pure h
  | some x =>
    have hs := h.withProps (s.props.alloc x.2)
    refine ensures_ite (fun _ => ensures_pure h) fun _ => ?_
    refine ensures_ite (fun _ => ?_) fun _ => ensures_pure hs
    refine (validateToken_live _ x.2.parent).bind fun o _ => ?_
    cases o with
    | none => exact ensures_pure hs
    | some y => exact (upref_sourced hs y.1).bind fun s' hs' => ensures_pure hs'

theorem fpgaClearProperties_sourced (h : Sourced Q s) (tables : Tables) (env : CallEnv)
    (props : Option Nat) :
    Ensures (fpgaClearProperties tables env s props) fun r => Sourced Q r.2 := by
  refine (validate_live s.props props).bind fun o _ => ?_
  cases o with
  | none => exact ensures_pure h
  | some x =>
    refine ensures_ite (fun _ => ?_) fun _ => ensures_pure (h.withProps _)
    refine (validateToken_live s x.2.parent).bind fun o _ => ?_
    cases o with
    | none => exact ensures_pure (h.withProps _)
    | some y =>
      exact (downref_sourced hQ h tables env.destroyed y.1).bind fun r hr =>
        ensures_pure (hr.withProps _)

theorem fpgaPropertiesSetParent_sourced (h : Sourced Q s) (tables : Tables) (env : CallEnv)
    (prop : Option Nat) (parent : Option TokenPtr) :
    Ensures (fpgaPropertiesSetParent tables env s prop parent) fun r => Sourced Q r.2 := by
  cases parent with
  | none => exact ensures_some.mpr h
  | some parent =>
    refine (validate_live s.props prop).bind fun o _ => ?_
    cases o with
    | none => exact ensures_pure h
    | some x =>
      refine (releaseParent_sourced hQ h tables env x.2).bind fun s' hs' => ?_
      refine (validateToken_live s' (some parent)).bind fun o _ => ?_
      cases o with
      | none => exact ensures_pure (hs'.withProps _)
      | some y =>
        exact (upref_sourced hs' y.1).bind fun s'' hs'' => ensures_pure (hs''.withProps _)

theorem storeParentToken_sourced (h : Sourced Q s) (tables : Tables) (env : PropertiesEnv)
    (token prop : Nat) (q : FpgaProperties TokenPtr) :
    Ensures (storeParentToken tables env s token prop q) (Sourced Q) :=
  (getParentToken_sourced hQ h tables env.parent token).bind fun _ hr =>
    ensures_pure (hr.withProps _)

theorem receiveProperties_sourced (h : Sourced Q s) (tables : Tables) (env : PropertiesEnv)
    (token : Nat) : Ensures (receiveProperties tables env s token) fun r => Sourced Q r.2.2 := by
  refine ensures_ite (fun _ => ensures_some.mpr h) fun _ => ?_
  cases env.props with
  | none => exact ensures_some.mpr h
  | some q =>
    exact (storeParentToken_sourced hQ (h.withProps _) tables env token _ _).bind fun s' hs' =>
      ensures_pure hs'

theorem fpgaGetPropertiesFromHandle_sourced (h : Sourced Q s) (tables : Tables)
    (env : PropertiesEnv) (handle : Option Nat) (prop : Bool) :
    Ensures (fpgaGetPropertiesFromHandle tables env s handle prop) fun r => Sourced Q r.2.2 := by
  refine (validate_live s.handles handle).bind fun o ho => ?_
  cases o with
  | none => exact ensures_pure h
  | some x =>
    refine ensures_ite (fun _ => ensures_pure h) fun _ => ?_
    refine ensures_ite (fun _ => ensures_pure h) fun _ => ?_
    exact receiveProperties_sourced hQ (h.dispatchOne hQ _ (h.handles _ _ (ho x rfl).2)) tables
      env _

theorem fpgaGetProperties_sourced (h : Sourced Q s) (tables : Tables) (env : PropertiesEnv)
    (token : Option TokenPtr) (prop : Bool) :
    Ensures (fpgaGetProperties tables env s token prop) fun r => Sourced Q r.2.2 := by
  refine (validateToken_live s token).bind fun o ho => ?_
  refine ensures_ite (fun _ => ensures_pure h) fun _ => ?_
  refine ensures_ite (fun _ => ?_) fun _ => ?_
  · exact ensures_ite (fun _ => ensures_pure h) fun _ => ensures_pure (h.withProps _)
  · cases o with
    | none => exact ensures_pure h
    | some x =>
      refine ensures_ite (fun _ => ensures_pure h) fun _ => ?_
      exact receiveProperties_sourced hQ (h.dispatchOne hQ _ (h.tokens _ _ (ho x rfl).2)) tables
        env _

theorem fpgaUpdateProperties_sourced (h : Sourced Q s) (tables : Tables) (env : PropertiesEnv)
    (token : Option TokenPtr) (prop : Option Nat) :
    Ensures (fpgaUpdateProperties tables env s token prop) fun r => Sourced Q r.2 := by
  refine (validateToken_live s token).bind fun o _ => ?_
  cases o with
  | none => exact ensures_pure h
  | some x =>
    refine ensures_ite (fun _ => ensures_pure h) fun _ => ?_
    refine (validate_live s.props prop).bind fun o _ => ?_
    cases o with
    | none => exact ensures_pure h
    | some y =>
      refine (releaseParent_sourced hQ h tables _ y.2).bind fun s' hs' => ?_
      refine Ensures.bind (P := fun wt => s'.tokens.get x.1 = some wt) (fun wt hwt => hwt)
        fun wt hwt => ?_
      have hd := (hs'.dispatchOne hQ .fpgaUpdateProperties (hs'.tokens _ _ hwt)).withProps
        (s'.props.set y.1 ((env.props.map fromPlugin).getD (dropParent y.2)))
      refine ensures_ite (fun _ => ensures_pure hd) fun _ => ?_
      exact (storeParentToken_sourced hQ hd tables env _ _ _).bind fun s'' hs'' =>
        ensures_pure hs''

end

end OpaeLibs.OpaeC.DispatchOrigins
