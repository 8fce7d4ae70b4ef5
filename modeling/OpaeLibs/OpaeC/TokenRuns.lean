import OpaeLibs.OpaeC.TokenOwners

namespace OpaeLibs.OpaeC.TokenRuns

open OpaeLibs.Lib.Bits OpaeLibs.Lib.Heap OpaeLibs.Lib.Refs OpaeLibs.Lib.Runs
open OpaeLibs.OpaeC.Props OpaeLibs.OpaeC.ApiShell OpaeLibs.OpaeC.Enumerate
open OpaeLibs.OpaeC.EnumerateWalk OpaeLibs.OpaeC.EnumerateTokens OpaeLibs.OpaeC.Tokens
open OpaeLibs.OpaeC.TokenOwners

/-- The shell and the tokens that the client has been given and has not destroyed. -/
structure Client where
  held : List Nat
  shell : Shell
deriving DecidableEq, Repr

inductive Call
  | enumerate (env : EnumerateEnv) (args : EnumerateArgs)
  | cloneToken (env : CallEnv) (src : Option TokenPtr) (dst : Bool)
  | destroyToken (env : CallEnv) (token : Option (Option TokenPtr))
  | openToken (env : CallEnv) (token : Option TokenPtr) (handle : Bool)
  | close (env : CallEnv) (handle : Option Nat)
  | setParent (env : CallEnv) (prop : Option Nat) (parent : Option TokenPtr)
  | getParent (prop : Option Nat) (parent : Bool)
  | cloneProperties (env : CallEnv) (src : Option Nat) (dst : Bool)
  | clearProperties (env : CallEnv) (props : Option Nat)
  | destroyProperties (env : CallEnv) (prop : Option (Option Nat))
  | getProperties (env : PropertiesEnv) (token : Option TokenPtr) (prop : Bool)
  | getPropertiesFromHandle (env : PropertiesEnv) (handle : Option Nat) (prop : Bool)
  | updateProperties (env : PropertiesEnv) (token : Option TokenPtr) (prop : Option Nat)

def Client.withShell (c : Client) (s : Shell) : Client := { c with shell := s }

def Client.receive (c : Client) (r : Stored) : Client :=
  ⟨c.held ++ r.2.1.join.toList, r.2.2⟩

def Client.giveUp (c : Client) : Option (Option TokenPtr) → Client
  | some (some (.wrapped t)) => { c with held := c.held.erase t }
  | _ => c

/-- `none` is a client whose shell has read a freed object. -/
def step (tables : Tables) (adapters : List Nat) : Option Client → Call → Option Client
  | none, _ => none
  | some c, .enumerate env args =>
    (fpgaEnumerate tables env adapters c.shell args).map fun r => ⟨c.held ++ r.tokens, r.shell⟩
  | some c, .cloneToken env src dst => (fpgaCloneToken tables env c.shell src dst).map c.receive
  | some c, .destroyToken env token =>
    (fpgaDestroyToken tables env c.shell token).map fun r => (c.giveUp token).withShell r.2
  | some c, .openToken env token handle =>
    (fpgaOpen tables env c.shell token handle).map fun r => c.withShell r.2.2
  | some c, .close env handle =>
    (fpgaClose tables env c.shell handle).map fun r => c.withShell r.2
  | some c, .setParent env prop parent =>
    (fpgaPropertiesSetParent tables env c.shell prop parent).map fun r => c.withShell r.2
  | some c, .getParent prop parent =>
    (Tokens.fpgaPropertiesGetParent c.shell prop parent).map fun _ => c
  | some c, .cloneProperties env src dst =>
    (fpgaCloneProperties env c.shell src dst).map fun r => c.withShell r.2.2
  | some c, .clearProperties env props =>
    (fpgaClearProperties tables env c.shell props).map fun r => c.withShell r.2
  | some c, .destroyProperties env prop =>
    (fpgaDestroyProperties tables env c.shell prop).map fun r => c.withShell r.2
  | some c, .getProperties env token prop =>
    (fpgaGetProperties tables env c.shell token prop).map fun r => c.withShell r.2.2
  | some c, .getPropertiesFromHandle env handle prop =>
    (fpgaGetPropertiesFromHandle tables env c.shell handle prop).map fun r => c.withShell r.2.2
  | some c, .updateProperties env token prop =>
    (fpgaUpdateProperties tables env c.shell token prop).map fun r => c.withShell r.2

/-- A token in the client's hands, or the parent of one of its properties objects. -/
def Usable (c : Client) (token : Option TokenPtr) : Prop :=
  ∀ t ∈ wrappedId token,
    0 < c.held.count t + c.shell.props.count (fun p => wrappedParent p = some t)

instance (c : Client) (token : Option TokenPtr) : Decidable (Usable c token) :=
  inferInstanceAs (Decidable (∀ t ∈ wrappedId token, _))

def LiveProps (c : Client) (prop : Option Nat) : Prop := ∀ id ∈ prop, (c.shell.props.get id).isSome

instance (c : Client) (prop : Option Nat) : Decidable (LiveProps c prop) :=
  inferInstanceAs (Decidable (∀ id ∈ prop, _))

def LiveHandle (c : Client) (handle : Option Nat) : Prop :=
  ∀ id ∈ handle, (c.shell.handles.get id).isSome

instance (c : Client) (handle : Option Nat) : Decidable (LiveHandle c handle) :=
  inferInstanceAs (Decidable (∀ id ∈ handle, _))

/-- The client uses only what it owns. -/
def Uses (c : Client) : Call → Prop
  | .enumerate _ args => ∀ f ∈ args.filterList, LiveProps c f
  | .cloneToken _ src _ => Usable c src
  | .destroyToken _ token => ∀ t ∈ wrappedId token.join, t ∈ c.held
  | .openToken _ token _ => Usable c token
  | .close _ handle => LiveHandle c handle
  | .setParent _ prop parent => LiveProps c prop ∧ Usable c parent
  | .getParent prop _ => LiveProps c prop
  | .cloneProperties _ src _ => LiveProps c src
  | .clearProperties _ props => LiveProps c props
  | .destroyProperties _ prop => LiveProps c prop.join
  | .getProperties _ token _ => Usable c token
  | .getPropertiesFromHandle _ handle _ => LiveHandle c handle
  | .updateProperties _ token prop => Usable c token ∧ LiveProps c prop

instance decidableUses (c : Client) : ∀ a, Decidable (Uses c a)
  | .enumerate _ args => inferInstanceAs (Decidable (∀ f ∈ args.filterList, LiveProps c f))
  | .cloneToken _ src _ => inferInstanceAs (Decidable (Usable c src))
  | .destroyToken _ token => inferInstanceAs (Decidable (∀ t ∈ wrappedId token.join, t ∈ c.held))
  | .openToken _ token _ => inferInstanceAs (Decidable (Usable c token))
  | .close _ handle => inferInstanceAs (Decidable (LiveHandle c handle))
  | .setParent _ prop parent => inferInstanceAs (Decidable (LiveProps c prop ∧ Usable c parent))
  | .getParent prop _ => inferInstanceAs (Decidable (LiveProps c prop))
  | .cloneProperties _ src _ => inferInstanceAs (Decidable (LiveProps c src))
  | .clearProperties _ props => inferInstanceAs (Decidable (LiveProps c props))
  | .destroyProperties _ prop => inferInstanceAs (Decidable (LiveProps c prop.join))
  | .getProperties _ token _ => inferInstanceAs (Decidable (Usable c token))
  | .getPropertiesFromHandle _ handle _ => inferInstanceAs (Decidable (LiveHandle c handle))
  | .updateProperties _ token prop =>
    inferInstanceAs (Decidable (Usable c token ∧ LiveProps c prop))

/-- The tokens of which `get_parent_token` may raise the count can take one owner more. -/
def ParentsCount (c : Client) (env : ParentEnv) (ow : Nat → Nat) : Prop :=
  ∀ t ∈ c.shell.tokenList, isParent env t → ow t + 1 < 2 ^ 32

instance (c : Client) (env : ParentEnv) (ow : Nat → Nat) : Decidable (ParentsCount c env ow) :=
  inferInstanceAs (Decidable (∀ t ∈ c.shell.tokenList, _))

/-- The plugin that a token is wrapped for has a function. -/
def Serves (tables : Tables) (c : Client) (token : Option TokenPtr) (f : ApiFn) : Prop :=
  ∃ t ∈ wrappedId token, ∃ wt ∈ c.shell.tokens.get t, tables wt.adapterTable f = true

instance (tables : Tables) (c : Client) (token : Option TokenPtr) (f : ApiFn) :
    Decidable (Serves tables c token f) :=
  inferInstanceAs (Decidable (∃ t ∈ wrappedId token, _))

def HandleServes (tables : Tables) (c : Client) (handle : Option Nat) (f : ApiFn) : Prop :=
  ∃ wh ∈ handle.bind c.shell.handles.get, tables wh.adapterTable f = true

instance (tables : Tables) (c : Client) (handle : Option Nat) (f : ApiFn) :
    Decidable (HandleServes tables c handle f) :=
  inferInstanceAs (Decidable (∃ wh ∈ handle.bind c.shell.handles.get, _))

/-- What the counting needs, of a call that gets there: a token whose count is raised has fewer than
`2^32 - 1` owners, and one that is given together with a properties object has an owner besides that
object. -/
def Counts (tables : Tables) (c : Client) : Call → Prop
  | .openToken env token handle =>
    handle = true ∧ env.res = .ok ∧ env.malloc = true ∧ Serves tables c token .fpgaOpen ∧
      Serves tables c token .fpgaClose →
    ∀ t ∈ wrappedId token, owners c.held c.shell t + 1 < 2 ^ 32
  | .setParent _ prop parent => ∀ id ∈ prop, ∀ t ∈ wrappedId parent,
    0 < others c.held c.shell id t ∧ others c.held c.shell id t + 1 < 2 ^ 32
  | .cloneProperties env src dst => dst = true ∧ env.malloc = true →
    ∀ t ∈ (src.bind c.shell.props.get).bind wrappedParent, owners c.held c.shell t + 1 < 2 ^ 32
  | .getProperties env token prop =>
    prop = true ∧ env.res = .ok ∧ env.props.isSome ∧ Serves tables c token .fpgaGetProperties →
    ParentsCount c env.parent (owners c.held c.shell)
  | .getPropertiesFromHandle env handle prop =>
    prop = true ∧ env.res = .ok ∧ env.props.isSome ∧
      HandleServes tables c handle .fpgaGetPropertiesFromHandle →
    ParentsCount c env.parent (owners c.held c.shell)
  | .updateProperties env token prop => Serves tables c token .fpgaUpdateProperties →
    ∀ id ∈ prop, (∀ t ∈ wrappedId token, 0 < others c.held c.shell id t) ∧
      (env.res = .ok → ParentsCount c env.parent (others c.held c.shell id))
  | _ => True

instance decidableCounts (tables : Tables) (c : Client) : ∀ a, Decidable (Counts tables c a)
  | .openToken _ _ _ => inferInstanceAs (Decidable (_ → _))
  | .setParent _ prop _ => inferInstanceAs (Decidable (∀ id ∈ prop, _))
  | .cloneProperties _ _ _ => inferInstanceAs (Decidable (_ → _))
  | .getProperties _ _ _ => inferInstanceAs (Decidable (_ → _))
  | .getPropertiesFromHandle _ _ _ => inferInstanceAs (Decidable (_ → _))
  | .updateProperties _ _ _ => inferInstanceAs (Decidable (_ → _))
  | .enumerate .. | .cloneToken .. | .destroyToken .. | .close .. | .getParent ..
  | .clearProperties .. | .destroyProperties .. => isTrue trivial

def Client.Owned (c : Client) : Prop := TokenOwners.Owned c.held c.shell

section

variable {c : Client} (tables : Tables)

theorem Usable.live (h : c.Owned) {token : Option TokenPtr} (hu : Usable c token) :
    ∀ t ∈ wrappedId token, ∃ wt, c.shell.tokens.get t = some wt := by
  intro t ht
  apply Holds.live h
  have := hu t ht
  simp only [owners]
  omega

theorem ParentsCount.room (h : c.Owned) {env : ParentEnv} {ow : Nat → Nat}
    (hp : ParentsCount c env ow) {t : Nat} (ht : 0 < owners c.held c.shell t)
    (hparent : isParent env t) : ow t + 1 < 2 ^ 32 := by
  apply hp t _ hparent
  rwa [Counted.mem_iff h, Counted.isSome_iff h]

theorem validate_props (prop : Option Nat) (h : LiveProps c prop) :
    (prop = none ∧ validate c.shell.props prop = some none) ∨
    ∃ id p, prop = some id ∧ c.shell.props.get id = some p ∧
      validate c.shell.props prop = some (some (id, p)) := by
  cases prop with
  | none => exact .inl ⟨rfl, rfl⟩
  | some id =>
    obtain ⟨p, hp⟩ := Option.isSome_iff_exists.mp (h id rfl)
    exact .inr ⟨id, p, rfl, hp, by simp [validate, hp]⟩

theorem validate_handle (handle : Option Nat) (h : LiveHandle c handle) :
    (handle = none ∧ validate c.shell.handles handle = some none) ∨
    ∃ id wh, handle = some id ∧ c.shell.handles.get id = some wh ∧
      validate c.shell.handles handle = some (some (id, wh)) := by
  cases handle with
  | none => exact .inl ⟨rfl, rfl⟩
  | some id =>
    obtain ⟨wh, hwh⟩ := Option.isSome_iff_exists.mp (h id rfl)
    exact .inr ⟨id, wh, rfl, hwh, by simp [validate, hwh]⟩

theorem owned_kept {held : List Nat} {s s' : Shell} (hk : Kept s s')
    (h : Holds s' (owners held s)) : Owned held s' := by
  rwa [Owned, hk.owners]

theorem owned_dispatch {held : List Nat} {s : Shell} (h : Owned held s) (a : Nat) (f : ApiFn)
    (args : List (Option OpaePtr)) : Owned held (dispatch s a f args) :=
  owned_kept (kept_dispatch ..) h

theorem opaeAllocateWrappedHandle_owned {held : List Nat} {s : Shell} (h : Owned held s) {t : Nat}
    (ht : 0 < owners held s t) (malloc : Bool)
    (hroom : malloc = true → owners held s t + 1 < 2 ^ 32) (opaeHandle : Option OpaePtr) (a : Nat) :
    ∃ wh s', opaeAllocateWrappedHandle malloc s t opaeHandle a = some (wh, s') ∧ Owned held s' := by
  cases malloc with
  | false => exact ⟨none, s, rfl, h⟩
  | true =>
    obtain ⟨s', he, hk, hh⟩ := upref_spec
      (s := { s with handles := s.handles.alloc ⟨t, opaeHandle, a⟩ }) h ht (hroom rfl)
    refine ⟨_, s', by simp [opaeAllocateWrappedHandle, he]; rfl, ?_⟩
    rw [Owned, hk.owners]
    exact Counted.congr hh (owners_handles_alloc ⟨t, opaeHandle, a⟩)

theorem fpgaOpen_owned (h : c.Owned) (env : CallEnv) {token : Option TokenPtr} (handle : Bool)
    (hu : Usable c token) (hc : Counts tables c (.openToken env token handle)) :
    ∃ r, fpgaOpen tables env c.shell token handle = some r ∧ (c.withShell r.2.2).Owned := by
  obtain ⟨t, wt, rfl, hwt, he⟩ | ⟨-, he⟩ := validateToken_cases _ (hu.live h)
  swap
  · exact ⟨(.invalidParam, none, c.shell), by simp [fpgaOpen, he], h⟩
  have hpos : 0 < owners c.held c.shell t := (Counted.isSome_iff h t).mp (by simp [hwt])
  have hd := owned_dispatch h wt.adapterTable .fpgaOpen [wt.opaeToken]
  simp only [fpgaOpen, he, Option.bind_eq_bind, Option.bind_some]
  split
  · exact ⟨_, rfl, h⟩
  next hhandle =>
  split
  · exact ⟨_, rfl, h⟩
  next hopen =>
  split
  · exact ⟨_, rfl, h⟩
  next hclose =>
  split
  · exact ⟨_, rfl, hd⟩
  next hres =>
  have hroom : env.malloc = true → owners c.held c.shell t + 1 < 2 ^ 32 := fun hmalloc =>
    hc ⟨by simpa using hhandle, not_not.mp hres, hmalloc, ⟨t, rfl, wt, hwt, by simpa using hopen⟩,
      ⟨t, rfl, wt, hwt, by simpa using hclose⟩⟩ t rfl
  obtain ⟨wh, s, ha, hs⟩ := opaeAllocateWrappedHandle_owned hd hpos env.malloc hroom
    (env.object.map fun o => ⟨wt.adapterTable, o⟩) wt.adapterTable
  rw [ha]
  cases wh with
  | none => exact ⟨_, rfl, owned_dispatch hs ..⟩
  | some wh => exact ⟨_, rfl, hs⟩

theorem fpgaClose_owned (h : c.Owned) (env : CallEnv) {handle : Option Nat}
    (hu : LiveHandle c handle) :
    ∃ r, fpgaClose tables env c.shell handle = some r ∧ (c.withShell r.2).Owned := by
  obtain ⟨-, he⟩ | ⟨id, wh, -, hwh, he⟩ := validate_handle handle hu
  · exact ⟨(.invalidParam, c.shell), by simp [fpgaClose, he], h⟩
  cases hf : tables wh.adapterTable .fpgaClose with
  | false => exact ⟨(.notSupported, c.shell), by simp [fpgaClose, he, hf], h⟩
  | true =>
    have hd : Holds (dispatch c.shell wh.adapterTable .fpgaClose [wh.opaeHandle]) fun j =>
        owners c.held { c.shell with handles := c.shell.handles.free id } j +
          one wh.wrappedToken j :=
      Counted.congr h fun j => (owners_handles_free hwh j).symm
    obtain ⟨res, s, hs, hk, hh⟩ := downref_spec tables env.destroyed hd
    refine ⟨(env.res, { s with handles := s.handles.free id }),
      by simp [fpgaClose, he, hf, opaeDestroyWrappedHandle, hs], ?_⟩
    refine Counted.congr hh fun j => ?_
    simp only [Client.withShell, owners, hk.handles, hk.props, dispatch_handles, dispatch_props]

theorem fpgaCloneToken_owned (h : c.Owned) (env : CallEnv) {src : Option TokenPtr} (dst : Bool)
    (hu : Usable c src) :
    ∃ r, fpgaCloneToken tables env c.shell src dst = some r ∧ (c.receive r).Owned := by
  have hsame : ∀ {res n s}, Owned c.held s → (c.receive (res, n, s)).held = c.held →
      (c.receive (res, n, s)).Owned := fun hs hheld => by
    rw [Client.Owned, hheld]
    exact hs
  obtain ⟨t, wt, rfl, hwt, he⟩ | ⟨-, he⟩ := validateToken_cases _ (hu.live h)
  swap
  · exact ⟨(.invalidParam, none, c.shell), by simp [fpgaCloneToken, he],
      hsame h (List.append_nil _)⟩
  have hd := owned_dispatch h wt.adapterTable .fpgaCloneToken [wt.opaeToken]
  obtain ⟨t, s, ha, hk, hh⟩ := opaeAllocateWrappedToken_spec env.malloc
    (env.object.map fun o => ⟨wt.adapterTable, o⟩) wt.adapterTable hd
  simp only [fpgaCloneToken, he, ha, Option.bind_eq_bind, Option.bind_some]
  split
  · exact ⟨_, rfl, hsame h (List.append_nil _)⟩
  split
  · exact ⟨_, rfl, hsame h (List.append_nil _)⟩
  split
  · exact ⟨_, rfl, hsame h (List.append_nil _)⟩
  split
  · exact ⟨_, rfl, hsame hd (List.append_nil _)⟩
  cases t with
  | none => exact ⟨_, rfl, hsame (owned_dispatch (owned_kept hk hh) ..) (List.append_nil _)⟩
  | some t =>
    refine ⟨_, rfl, Counted.congr hh fun j => ?_⟩
    rw [← hk.owners, Client.receive, owners_held_append]
    simp [count_singleton]

theorem fpgaDestroyToken_owned (h : c.Owned) (env : CallEnv) {token : Option (Option TokenPtr)}
    (hu : ∀ t ∈ wrappedId token.join, t ∈ c.held) :
    ∃ r, fpgaDestroyToken tables env c.shell token = some r ∧
      ((c.giveUp token).withShell r.2).Owned := by
  match token with
  | none => exact ⟨_, rfl, h⟩
  | some none => exact ⟨_, rfl, h⟩
  | some (some (.opae q)) => exact ⟨_, rfl, h⟩
  | some (some (.wrapped t)) =>
    have ht := hu t rfl
    have hd : Holds c.shell fun j => owners (c.held.erase t) c.shell j + one t j :=
      Counted.congr h fun j => (owners_held_erase ht j).symm
    obtain ⟨wt, hwt⟩ := hd.live (t := t) (by simp)
    obtain ⟨res, s, hs, hk, hh⟩ := downref_spec tables env.destroyed hd
    refine ⟨(res, s), ?_, owned_kept hk hh⟩
    simp [fpgaDestroyToken, opaeValidateWrappedToken, validate, hwt, opaeDestroyWrappedToken, hs]

/-- The parent that is released is one of the owners counted, all others stay. -/
theorem releaseParent_others (h : c.Owned) (env : CallEnv) {id : Nat}
    {p : FpgaProperties TokenPtr} (hp : c.shell.props.get id = some p) :
    ∃ s, releaseParent tables env c.shell p = some s ∧ Kept c.shell s ∧
      Holds s (others c.held c.shell id) :=
  releaseParent_spec tables env p (Counted.congr h fun j => (owners_props_get hp j).symm)

theorem owned_props_set {s : Shell} (hk : Kept c.shell s) {id : Nat} {p : FpgaProperties TokenPtr}
    (hp : c.shell.props.get id = some p) (q : FpgaProperties TokenPtr)
    (h : Holds s fun j => others c.held c.shell id j + oneOf (wrappedParent q) j) :
    (c.withShell { s with props := s.props.set id q }).Owned := by
  refine Counted.congr h fun j => ?_
  rw [← owners_props_set c.held hp q j]
  simp only [Client.withShell, owners, hk.handles, hk.props]

theorem fpgaDestroyProperties_owned (h : c.Owned) (env : CallEnv) {prop : Option (Option Nat)}
    (hu : LiveProps c prop.join) :
    ∃ r, fpgaDestroyProperties tables env c.shell prop = some r ∧ (c.withShell r.2).Owned := by
  match prop with
  | none => exact ⟨_, rfl, h⟩
  | some prop =>
    obtain ⟨-, he⟩ | ⟨id, p, -, hp, he⟩ := validate_props prop hu
    · exact ⟨(.invalidParam, c.shell), by simp [fpgaDestroyProperties, he], h⟩
    · obtain ⟨s, hs, hk, hh⟩ := releaseParent_others tables h env hp
      refine ⟨(.ok, { s with props := s.props.free id }),
        by simp [fpgaDestroyProperties, he, hs], Counted.congr hh fun j => ?_⟩
      simp only [Client.withShell, others, owners, hk.handles, hk.props]

theorem wrappedParent_clearProperties (wrapped : Bool) (p : FpgaProperties TokenPtr) :
    wrappedParent (clearProperties wrapped p) = none :=
  wrappedParent_none_of_invalid (not_hasBit_zero (by decide))

theorem fpgaClearProperties_eq (env : CallEnv) {s : Shell} {props : Option Nat} {id : Nat}
    {p : FpgaProperties TokenPtr} (hp : validate s.props props = some (some (id, p))) :
    ∃ wrapped, fpgaClearProperties tables env s props =
      (releaseParent tables env s p).map fun s =>
        (.ok, { s with props := s.props.set id (clearProperties wrapped p) }) := by
  simp only [fpgaClearProperties, releaseParent, hp, Option.bind_eq_bind, Option.bind_some]
  split
  · cases hv : opaeValidateWrappedToken s p.parent with
    | none => exact ⟨true, rfl⟩
    | some wt =>
      cases wt with
      | none => exact ⟨false, rfl⟩
      | some wt =>
        refine ⟨true, ?_⟩
        simp only [Option.bind_some, opaeDestroyWrappedToken]
        cases opaeDownrefWrappedToken tables env.destroyed s wt.1 <;> rfl
  · exact ⟨false, rfl⟩

theorem fpgaClearProperties_owned (h : c.Owned) (env : CallEnv) {props : Option Nat}
    (hu : LiveProps c props) :
    ∃ r, fpgaClearProperties tables env c.shell props = some r ∧ (c.withShell r.2).Owned := by
  obtain ⟨-, he⟩ | ⟨id, p, -, hp, he⟩ := validate_props props hu
  · exact ⟨(.invalidParam, c.shell), by simp [fpgaClearProperties, he], h⟩
  · obtain ⟨s, hs, hk, hh⟩ := releaseParent_others tables h env hp
    obtain ⟨wrapped, hclear⟩ := fpgaClearProperties_eq tables env he
    refine ⟨_, by rw [hclear, hs, Option.map_some], owned_props_set hk hp _ ?_⟩
    rw [wrappedParent_clearProperties]
    exact hh

theorem fpgaCloneProperties_owned (h : c.Owned) (env : CallEnv) {src : Option Nat} (dst : Bool)
    (hu : LiveProps c src) (hc : Counts tables c (.cloneProperties env src dst)) :
    ∃ r, fpgaCloneProperties env c.shell src dst = some r ∧ (c.withShell r.2.2).Owned := by
  cases dst with
  | false => exact ⟨(.invalidParam, none, c.shell), rfl, h⟩
  | true =>
    obtain ⟨-, he⟩ | ⟨id, p, rfl, hp, he⟩ := validate_props src hu
    · exact ⟨(.invalidParam, none, c.shell), by simp [fpgaCloneProperties, he], h⟩
    cases hm : env.malloc with
    | false => exact ⟨(.exception, none, c.shell), by simp [fpgaCloneProperties, he, hm], h⟩
    | true =>
      obtain ⟨s, hs⟩ : ∃ s, { c.shell with props := c.shell.props.alloc p } = s := ⟨_, rfl⟩
      have hh : Holds s (owners c.held c.shell) := hs ▸ h
      have hown : ∀ j, owners c.held s j = owners c.held c.shell j + oneOf (wrappedParent p) j :=
        fun j => by rw [← hs, owners_props_alloc]
      have hpos : ∀ t, wrappedParent p = some t → 0 < owners c.held c.shell t := fun t ht => by
        rw [owners_props_get hp, ht]
        simp
      simp only [fpgaCloneProperties, he, hm, hs, Option.bind_eq_bind, Option.bind_some]
      by_cases hv : fieldValid p fpgaPropertyParent
      · obtain ⟨t, wt, hpar, -, hval⟩ | ⟨hpar, hval⟩ := validateToken_cases (s := s)
          p.parent fun t ht => hh.live (hpos t (by rwa [wrappedParent_of_valid hv]))
        · have hw : wrappedParent p = some t := by rw [wrappedParent_of_valid hv, hpar]; rfl
          obtain ⟨s', hup, hk, hh'⟩ := upref_spec hh (hpos t hw)
            (hc ⟨rfl, hm⟩ t (by simp [hp, hw]))
          refine ⟨(.ok, some (some c.shell.props.next), s'), by simp [hv, hval, hup],
            owned_kept hk (Counted.congr hh' fun j => (hown j).trans ?_)⟩
          rw [hw, oneOf_some]
        · refine ⟨(.ok, some (some c.shell.props.next), s), by simp [hv, hval],
            Counted.congr hh fun j => (hown j).trans ?_⟩
          rw [wrappedParent_none hpar, oneOf_none, Nat.add_zero]
      · refine ⟨(.ok, some (some c.shell.props.next), s), by simp [hv],
          Counted.congr hh fun j => (hown j).trans ?_⟩
        rw [wrappedParent_none_of_invalid hv, oneOf_none, Nat.add_zero]

theorem fieldValid_storeParent (p : FpgaProperties TokenPtr) (parent : TokenPtr) :
    fieldValid (storeParent p parent) fpgaPropertyParent :=
  (hasBit_setBit (by decide)).mpr (.inl rfl)

theorem fpgaPropertiesSetParent_owned (h : c.Owned) (env : CallEnv) {prop : Option Nat}
    {parent : Option TokenPtr} (hu : LiveProps c prop)
    (hc : Counts tables c (.setParent env prop parent)) :
    ∃ r, fpgaPropertiesSetParent tables env c.shell prop parent = some r ∧
      (c.withShell r.2).Owned := by
  cases parent with
  | none => exact ⟨(.invalidParam, c.shell), rfl, h⟩
  | some parent =>
    obtain ⟨-, he⟩ | ⟨id, p, rfl, hp, he⟩ := validate_props prop hu
    · exact ⟨(.invalidParam, c.shell), by simp [fpgaPropertiesSetParent, he], h⟩
    obtain ⟨s, hs, hk, hh⟩ := releaseParent_others tables h env hp
    obtain ⟨t, wt, hpar, -, hval⟩ | ⟨hpar, hval⟩ := validateToken_cases (s := s)
      (some parent) fun t ht => hh.live (hc id rfl t ht).1
    · obtain rfl := Option.some.inj hpar
      obtain ⟨hpos, hroom⟩ := hc id rfl t rfl
      obtain ⟨s', hup, hk', hh'⟩ := upref_spec hh hpos hroom
      exact ⟨(.ok, { s' with props := s'.props.set id (storeParent p (.wrapped t)) }),
        by simp [fpgaPropertiesSetParent, he, hs, hval, hup],
        owned_props_set (hk.trans hk') hp _
          (by rw [wrappedParent_of_valid (fieldValid_storeParent p _)]; exact hh')⟩
    · exact ⟨(.ok, { s with props := s.props.set id (storeParent p parent) }),
        by simp [fpgaPropertiesSetParent, he, hs, hval],
        owned_props_set hk hp _ (by rwa [wrappedParent_none hpar])⟩

theorem fieldValid_takeParent (p : FpgaProperties TokenPtr) (parent : TokenPtr) :
    fieldValid (takeParent (some parent) p) fpgaPropertyParent :=
  (hasBit_setBit (by decide)).mpr (.inl rfl)

/-- The object's old parent goes first: if nothing else owns it, the new one is already freed. -/
theorem fpgaPropertiesSetParent_sole_owner (h : c.Owned) (env : CallEnv) {id t : Nat}
    {p : FpgaProperties TokenPtr} (hp : c.shell.props.get id = some p)
    (ht : others c.held c.shell id t = 0) :
    fpgaPropertiesSetParent tables env c.shell (some id) (some (.wrapped t)) = none := by
  obtain ⟨s, hs, -, hh⟩ := releaseParent_others tables h env hp
  have hfreed : s.tokens.get t = none := by
    rw [← Option.not_isSome_iff_eq_none, Counted.isSome_iff hh]
    omega
  simp [fpgaPropertiesSetParent, validate, hp, hs, opaeValidateWrappedToken, hfreed]

theorem wrappedParent_takeParent {q : FpgaProperties TokenPtr} (hq : wrappedParent q = none)
    (parent : Option Nat) : wrappedParent (takeParent (parent.map .wrapped) q) = parent := by
  cases parent with
  | none => exact hq
  | some t => exact wrappedParent_of_valid (fieldValid_takeParent q _)

theorem receiveProperties_owned (env : PropertiesEnv) {s : Shell} (h : Owned c.held s) {t : Nat}
    (ht : 0 < owners c.held s t)
    (hc : env.res = .ok → env.props.isSome →
      ∀ t, 0 < owners c.held s t → isParent env.parent t → owners c.held s t + 1 < 2 ^ 32) :
    ∃ r, receiveProperties tables env s t = some r ∧ (c.withShell r.2.2).Owned := by
  by_cases hres : env.res = .ok
  swap
  · exact ⟨(env.res, none, s), by simp [receiveProperties, hres], h⟩
  cases hp : env.props with
  | none => exact ⟨(.invalidParam, none, s), by simp [receiveProperties, hres, hp], h⟩
  | some q =>
    obtain ⟨parent, s', he, hk, hh⟩ := opaeGetParentToken_spec tables env.parent
      (s := { s with props := s.props.alloc (fromPlugin q) }) h ht (hc hres (by simp [hp]))
    refine ⟨(.ok, some (some s.props.next), { s' with
      props := s'.props.set s.props.next (takeParent (parent.map .wrapped) (fromPlugin q)) }),
      by simp [receiveProperties, storeParentToken, hres, hp, he], Counted.congr hh fun j => ?_⟩
    simp only [Client.withShell, owners, hk.handles, hk.props, Slots.set_alloc_next,
      Slots.count_alloc, toNat_decide_oneOf, wrappedParent_takeParent (wrappedParent_fromPlugin q)]
    omega

theorem fpgaGetPropertiesFromHandle_owned (h : c.Owned) (env : PropertiesEnv)
    {handle : Option Nat} (prop : Bool) (hu : LiveHandle c handle)
    (hc : Counts tables c (.getPropertiesFromHandle env handle prop)) :
    ∃ r, fpgaGetPropertiesFromHandle tables env c.shell handle prop = some r ∧
      (c.withShell r.2.2).Owned := by
  obtain ⟨-, he⟩ | ⟨id, wh, rfl, hwh, he⟩ := validate_handle handle hu
  · exact ⟨(.invalidParam, none, c.shell), by simp [fpgaGetPropertiesFromHandle, he], h⟩
  have hpos : 0 < owners c.held c.shell wh.wrappedToken := by
    rw [owners_handles_free hwh]
    simp
  simp only [fpgaGetPropertiesFromHandle, he, Option.bind_eq_bind, Option.bind_some]
  split
  · exact ⟨_, rfl, h⟩
  next hprop =>
  split
  · exact ⟨_, rfl, h⟩
  next hserves =>
  exact receiveProperties_owned tables env
    (owned_dispatch h wh.adapterTable .fpgaGetPropertiesFromHandle [wh.opaeHandle]) hpos
    fun hres hsome t => (hc ⟨by simpa using hprop, hres, hsome,
      ⟨wh, hwh, by simpa using hserves⟩⟩).room h

theorem fpgaGetProperties_owned (h : c.Owned) (env : PropertiesEnv) {token : Option TokenPtr}
    (prop : Bool) (hu : Usable c token) (hc : Counts tables c (.getProperties env token prop)) :
    ∃ r, fpgaGetProperties tables env c.shell token prop = some r ∧
      (c.withShell r.2.2).Owned := by
  have hnew : (c.withShell { c.shell with
      props := c.shell.props.alloc opaePropertiesCreate }).Owned := by
    refine Counted.congr h fun j => (owners_props_alloc _ j).trans ?_
    rw [wrappedParent_none rfl, oneOf_none, Nat.add_zero]
    rfl
  obtain ⟨t, wt, rfl, hwt, he⟩ | ⟨-, he⟩ := validateToken_cases _ (hu.live h)
  · have hpos : 0 < owners c.held c.shell t := (Counted.isSome_iff h t).mp (by simp [hwt])
    simp only [fpgaGetProperties, he, Option.bind_eq_bind, Option.bind_some]
    split
    · exact ⟨_, rfl, h⟩
    next hprop =>
    split
    · next hnone => simp at hnone
    split
    · exact ⟨_, rfl, h⟩
    next hserves =>
    exact receiveProperties_owned tables env
      (owned_dispatch h wt.adapterTable .fpgaGetProperties [wt.opaeToken]) hpos
      fun hres hsome t => (hc ⟨by simpa using hprop, hres, hsome,
        ⟨_, rfl, wt, hwt, by simpa using hserves⟩⟩).room h
  · simp only [fpgaGetProperties, he, Option.bind_eq_bind, Option.bind_some]
    split
    · exact ⟨_, rfl, h⟩
    split
    · split
      · exact ⟨_, rfl, h⟩
      · exact ⟨_, rfl, hnew⟩
    · exact ⟨_, rfl, h⟩

theorem wrappedParent_dropParent (p : FpgaProperties TokenPtr) :
    wrappedParent (dropParent p) = none := by
  rw [dropParent]
  split
  · exact wrappedParent_none rfl
  · next hv => exact wrappedParent_none_of_invalid hv

theorem wrappedParent_updated (env : PropertiesEnv) (p : FpgaProperties TokenPtr) :
    wrappedParent ((env.props.map fromPlugin).getD (dropParent p)) = none := by
  cases env.props with
  | none => exact wrappedParent_dropParent p
  | some q => exact wrappedParent_fromPlugin q

theorem storeParentToken_owned (env : PropertiesEnv) {s : Shell} (hk : Kept c.shell s) {id t : Nat}
    {p q : FpgaProperties TokenPtr} (hp : c.shell.props.get id = some p)
    (hq : wrappedParent q = none) (h : Holds s (others c.held c.shell id))
    (ht : 0 < others c.held c.shell id t)
    (hroom : ∀ t, 0 < others c.held c.shell id t → isParent env.parent t →
      others c.held c.shell id t + 1 < 2 ^ 32) :
    ∃ s', storeParentToken tables env { s with props := s.props.set id q } t id q = some s' ∧
      (c.withShell s').Owned := by
  obtain ⟨parent, s', he, hk', hh⟩ := opaeGetParentToken_spec tables env.parent
    (s := { s with props := s.props.set id q }) h ht hroom
  refine ⟨{ s' with props := s'.props.set id (takeParent (parent.map .wrapped) q) },
    by simp [storeParentToken, he], Counted.congr hh fun j => ?_⟩
  have hset := owners_props_set c.held hp (takeParent (parent.map .wrapped) q) j
  rw [wrappedParent_takeParent hq] at hset
  rw [← hset]
  simp only [Client.withShell, owners, hk'.handles, hk'.props, hk.handles, hk.props, Slots.set_set]

/-- The token looked up first outlives the object's old parent. -/
theorem fpgaUpdateProperties_owned (h : c.Owned) (env : PropertiesEnv) {token : Option TokenPtr}
    {prop : Option Nat} (hu : Usable c token) (hp : LiveProps c prop)
    (hc : Counts tables c (.updateProperties env token prop)) :
    ∃ r, fpgaUpdateProperties tables env c.shell token prop = some r ∧
      (c.withShell r.2).Owned := by
  obtain ⟨t, wt, rfl, hwt, he⟩ | ⟨-, he⟩ := validateToken_cases _ (hu.live h)
  swap
  · exact ⟨(.invalidParam, c.shell), by simp [fpgaUpdateProperties, he], h⟩
  cases hf : tables wt.adapterTable .fpgaUpdateProperties with
  | false => exact ⟨(.notSupported, c.shell), by simp [fpgaUpdateProperties, he, hf], h⟩
  | true =>
    obtain ⟨-, hv⟩ | ⟨id, p, rfl, hp, hv⟩ := validate_props prop hp
    · exact ⟨(.invalidParam, c.shell), by simp [fpgaUpdateProperties, he, hf, hv], h⟩
    obtain ⟨s, hs, hk, hh⟩ := releaseParent_others tables h ⟨.ok, none, true, env.destroyed⟩ hp
    obtain ⟨htoken, hparents⟩ := hc ⟨t, rfl, wt, hwt, hf⟩ id rfl
    have hroom : env.res = .ok → ∀ t, 0 < others c.held c.shell id t → isParent env.parent t →
        others c.held c.shell id t + 1 < 2 ^ 32 := fun hres t ht =>
      (hparents hres).room h (by rw [owners_props_get hp]; omega)
    obtain ⟨wt', hwt'⟩ := hh.live (htoken t rfl)
    have hq := wrappedParent_updated env p
    have hd := hh.dispatch wt'.adapterTable .fpgaUpdateProperties [wt'.opaeToken]
    have hkd := hk.trans (kept_dispatch s wt'.adapterTable .fpgaUpdateProperties
      [wt'.opaeToken])
    simp only [fpgaUpdateProperties, he, hf, hv, hs, hwt', Option.bind_eq_bind, Option.bind_some]
    by_cases hres : env.res = .ok
    · obtain ⟨s', hs', ho⟩ := storeParentToken_owned tables env hkd hp hq hd (htoken t rfl)
        (hroom hres)
      refine ⟨(.ok, s'), ?_, ho⟩
      rw [hs']
      simp [hres]
    · refine ⟨(env.res, _), by simp [hres]; rfl, owned_props_set hkd hp _ ?_⟩
      rw [hq]
      exact hd

theorem fpgaUpdateProperties_sole_owner (h : c.Owned) (env : PropertiesEnv) {id t : Nat}
    {p : FpgaProperties TokenPtr} {wt : OpaeWrappedToken} (hp : c.shell.props.get id = some p)
    (hwt : c.shell.tokens.get t = some wt)
    (hf : tables wt.adapterTable .fpgaUpdateProperties = true)
    (ht : others c.held c.shell id t = 0) :
    fpgaUpdateProperties tables env c.shell (some (.wrapped t)) (some id) = none := by
  obtain ⟨s, hs, -, hh⟩ := releaseParent_others tables h ⟨.ok, none, true, env.destroyed⟩ hp
  have hfreed : s.tokens.get t = none := by
    rw [← Option.not_isSome_iff_eq_none, Counted.isSome_iff hh]
    omega
  simp [fpgaUpdateProperties, opaeValidateWrappedToken, validate, hwt, hf, hp, hs, hfreed]

theorem holds_grow {s : Shell} {ow : Nat → Nat} (h : Holds s ow) {ws : List OpaeWrappedToken}
    (hw : ∀ w ∈ ws, w.refCount = 1) :
    Holds (grow s ws) fun j => ow j + (List.range' s.tokens.next ws.length).count j := by
  induction ws generalizing s ow with
  | nil =>
    rw [grow_nil]
    exact h
  | cons w rest ih =>
    have h1 : Holds (grow s [w]) fun j => ow j + one s.tokens.next j := by
      refine Counted.alloc h (a := w) ?_ fun _ => rfl
      rw [hw w List.mem_cons_self]
      rfl
    have hrest := ih h1 fun w' hw' => hw w' (List.mem_cons_of_mem _ hw')
    rw [grow_append] at hrest
    refine Counted.congr hrest fun j => ?_
    rw [List.length_cons, List.range'_succ, ← List.singleton_append, List.count_append,
      count_singleton, ← Nat.add_assoc]
    simp [grow]

theorem filtersLive_of_owned (h : c.Owned) {filters : List (Option Nat)}
    (hu : ∀ f ∈ filters, LiveProps c f) : FiltersLive c.shell filters := by
  intro id hid
  obtain ⟨p, hp⟩ := Option.isSome_iff_exists.mp (hu _ hid id rfl)
  refine ⟨p, hp, fun hv t ht => Holds.live h ?_⟩
  rw [owners_props_get hp, wrappedParent_of_valid hv, ht]
  simp [wrappedId]

theorem fpgaEnumerate_owned (h : c.Owned) (env : EnumerateEnv) (adapters : List Nat)
    {args : EnumerateArgs} (hu : ∀ f ∈ args.filterList, LiveProps c f) :
    ∃ r, fpgaEnumerate tables env adapters c.shell args = some r ∧
      Client.Owned ⟨c.held ++ r.tokens, r.shell⟩ := by
  obtain ⟨r, ws, he, henum, -⟩ := fpgaEnumerate_spec tables env adapters (filtersLive_of_owned h hu)
  obtain ⟨log, hs⟩ := henum.shell
  refine ⟨r, he, ?_⟩
  rw [henum.tokens, hs]
  refine Counted.congr (holds_grow h henum.owned) fun j => ?_
  exact owners_held_append _ j

theorem fpgaPropertiesGetParent_returns {prop : Option Nat} (hu : LiveProps c prop)
    (parent : Bool) : ∃ r, Tokens.fpgaPropertiesGetParent c.shell prop parent = some r := by
  cases parent with
  | false => exact ⟨_, rfl⟩
  | true =>
    obtain ⟨-, he⟩ | ⟨id, p, -, -, he⟩ := validate_props prop hu
    · exact ⟨(.invalidParam, none), by simp [Tokens.fpgaPropertiesGetParent, he]⟩
    · cases hp : Props.fpgaPropertiesGetParent p with
      | ok parent => exact ⟨(.ok, some parent), by simp [Tokens.fpgaPropertiesGetParent, he, hp]⟩
      | error res => exact ⟨(res, none), by simp [Tokens.fpgaPropertiesGetParent, he, hp]⟩

theorem step_owned (adapters : List Nat) (h : c.Owned) {a : Call} (hu : Uses c a)
    (hc : Counts tables c a) : ∃ c', step tables adapters (some c) a = some c' ∧ c'.Owned := by
  have hmap : ∀ {α : Type} {o : Option α} {f : α → Client},
      (∃ r, o = some r ∧ (f r).Owned) → ∃ c', o.map f = some c' ∧ c'.Owned := by
    rintro α o f ⟨r, rfl, hr⟩
    exact ⟨f r, rfl, hr⟩
  cases a with
  | enumerate env args => exact hmap (fpgaEnumerate_owned tables h env adapters hu)
  | cloneToken env src dst => exact hmap (fpgaCloneToken_owned tables h env dst hu)
  | destroyToken env token => exact hmap (fpgaDestroyToken_owned tables h env hu)
  | openToken env token handle => exact hmap (fpgaOpen_owned tables h env handle hu hc)
  | close env handle => exact hmap (fpgaClose_owned tables h env hu)
  | setParent env prop parent => exact hmap (fpgaPropertiesSetParent_owned tables h env hu.1 hc)
  | getParent prop parent =>
    obtain ⟨r, hr⟩ := fpgaPropertiesGetParent_returns hu parent
    exact ⟨c, by simp [step, hr], h⟩
  | cloneProperties env src dst => exact hmap (fpgaCloneProperties_owned tables h env dst hu hc)
  | clearProperties env props => exact hmap (fpgaClearProperties_owned tables h env hu)
  | destroyProperties env prop => exact hmap (fpgaDestroyProperties_owned tables h env hu)
  | getProperties env token prop => exact hmap (fpgaGetProperties_owned tables h env prop hu hc)
  | getPropertiesFromHandle env handle prop =>
    exact hmap (fpgaGetPropertiesFromHandle_owned tables h env prop hu hc)
  | updateProperties env token prop =>
    exact hmap (fpgaUpdateProperties_owned tables h env hu.1 hu.2 hc)

/-- The reference counts are the numbers of owners, and a token is allocated and listed, once,
exactly as long as it has one. -/
structure TokensOwned (c : Client) : Prop where
  refCount : ∀ t wt, c.shell.tokens.get t = some wt →
    wt.refCount.toNat = owners c.held c.shell t
  live : ∀ t, (c.shell.tokens.get t).isSome ↔ 0 < owners c.held c.shell t
  listed : ∀ t, t ∈ c.shell.tokenList ↔ 0 < owners c.held c.shell t
  nodup : c.shell.tokenList.Nodup

theorem Client.Owned.tokensOwned (h : c.Owned) : TokensOwned c :=
  ⟨fun t wt ht => (Counted.live h t wt ht).1, Counted.isSome_iff h,
    fun t => (Counted.mem_iff h t).trans (Counted.isSome_iff h t), Counted.nodup h⟩

def initial : Option Client := some ⟨[], start⟩

theorem run_owned (adapters : List Nat) (calls : List Call)
    (h : Along (step tables adapters) (fun s a => ∀ c ∈ s, Uses c a ∧ Counts tables c a) initial
      calls) :
    ∃ c, run (step tables adapters) initial calls = some c ∧ c.Owned := by
  have hinv := run_invariant
    (I := fun s => ∃ c, s = some c ∧ c.Owned)
    (G := fun s a => ∀ c ∈ s, Uses c a ∧ Counts tables c a)
    (by
      rintro _ a ⟨c, rfl, hc⟩ hg
      exact step_owned tables adapters hc (hg c rfl).1 (hg c rfl).2)
    ⟨_, rfl, Counted.congr (counted_empty _) fun _ => rfl⟩ h
  exact hinv

/-- A client that uses only what it owns never makes the shell touch a freed token, as long as each
call leaves a token enough owners and the count enough room. -/
theorem run_tokens_owned (adapters : List Nat) (calls : List Call)
    (h : Along (step tables adapters) (fun s a => ∀ c ∈ s, Uses c a ∧ Counts tables c a) initial
      calls) :
    ∃ c, run (step tables adapters) initial calls = some c ∧ TokensOwned c := by
  obtain ⟨c, hrun, hc⟩ := run_owned tables adapters calls h
  exact ⟨c, hrun, hc.tokensOwned⟩

end

def sampleCall : CallEnv := ⟨.ok, some 7, true, .ok⟩

def sampleCalls : List Call :=
  [.enumerate sampleEnv (sampleArgs 1),
    .getProperties ⟨.ok, none, true, .ok, ⟨true, true, true, (.exception, opaePropertiesCreate),
      fun _ => (.exception, opaePropertiesCreate)⟩⟩ none true,
    .setParent sampleCall (some 0) (some (.wrapped 0)),
    .destroyToken sampleCall (some (some (.wrapped 0)))]

theorem run_tokens_owned_sample :
    ∃ c, run (step (fun _ _ => true) [0]) initial sampleCalls = some c ∧ TokensOwned c :=
  run_tokens_owned (fun _ _ => true) [0] sampleCalls (by decide)

/-- The parent that the object already has is set again: the object is its only owner. -/
theorem set_same_parent_reads_freed :
    Along (step (fun _ _ => true) [0]) (fun s a => ∀ c ∈ s, Uses c a) initial
      (sampleCalls ++ [.setParent sampleCall (some 0) (some (.wrapped 0))]) ∧
    run (step (fun _ _ => true) [0]) initial
      (sampleCalls ++ [.setParent sampleCall (some 0) (some (.wrapped 0))]) = none := by
  constructor
  · decide
  · decide

end OpaeLibs.OpaeC.TokenRuns
