import OpaeLibs.OpaeC.TokenRuns
import OpaeLibs.OpaeC.TypeFields

namespace OpaeLibs.OpaeC.UpdateAtomicity

open OpaeLibs.Lib.Bits OpaeLibs.Lib.Heap OpaeLibs.Lib.Outcomes OpaeLibs.Lib.Refs
open OpaeLibs.Lib.Runs
open OpaeLibs.OpaeC.Props OpaeLibs.OpaeC.ApiShell OpaeLibs.OpaeC.Tokens
open OpaeLibs.OpaeC.TokenOwners OpaeLibs.OpaeC.TokenRuns
open OpaeLibs.OpaeC.TypeFields (PluginUpdate)
open OpaeLibs.PluginXfpga.Properties OpaeLibs.PluginVfio.Properties

section Plugins

variable {τ : Type}

/-- All that the update of an xfpga token needs is there to be read. -/
structure Legible (t : TokenView) : Prop where
  magic : t.magic = true
  vendor : ∃ vendor, t.vendor = .ok vendor
  device : ∃ device, t.device = .ok device
  separator : t.separator = true
  fme : ∀ v ∈ t.fme,
    (∃ id, v.interfaceId = .ok id) ∧ v.numSlots.isSome ∧ v.bitstreamId.isSome
  sbdf : ∃ sbdf, t.sbdf = .ok sbdf
  lock : t.lock = true

def Readable : PluginUpdate → Prop
  | .xfpga t => Legible t
  | .vfio t => t.isSome

theorem readIds_ok {t : TokenView} {p : FpgaProperties τ} :
    (∃ q, readIds t p = .ok q) ↔ (∃ vendor, t.vendor = .ok vendor) ∧
      (∃ device, t.device = .ok device) ∧ t.separator = true := by
  constructor
  · rintro ⟨q, h⟩
    obtain ⟨vendor, hvendor, h⟩ := except_bind_ok.mp h
    obtain ⟨device, hdevice, h⟩ := except_bind_ok.mp h
    refine ⟨⟨vendor, hvendor⟩, ⟨device, hdevice⟩, ?_⟩
    by_contra hseparator
    rw [if_neg hseparator] at h
    exact nomatch h
  · rintro ⟨⟨vendor, hvendor⟩, ⟨device, hdevice⟩, hseparator⟩
    rw [readIds, hvendor, hdevice, hseparator]
    exact ⟨_, rfl⟩

theorem readObject_ok {t : TokenView} {p : FpgaProperties τ} :
    (∃ q, readObject t p = .ok q) ↔ ∀ v ∈ t.fme,
      (∃ id, v.interfaceId = .ok id) ∧ v.numSlots.isSome ∧ v.bitstreamId.isSome := by
  rw [readObject]
  cases hfme : t.fme with
  | none => exact iff_of_true ⟨_, rfl⟩ fun v hv => by cases hv
  | some v =>
    constructor
    · rintro ⟨q, h⟩ v' hv
      obtain rfl := Option.some.inj hv
      obtain ⟨id, hid, h⟩ := except_bind_ok.mp h
      refine ⟨⟨id, hid⟩, ?_⟩
      cases hslots : v.numSlots with
      | none =>
        rw [hslots] at h
        cases h
      | some slots =>
        cases hbitstream : v.bitstreamId with
        | none =>
          rw [hslots, hbitstream] at h
          cases h
        | some bitstream => exact ⟨rfl, rfl⟩
    · intro h
      obtain ⟨⟨id, hid⟩, hslots, hbitstream⟩ := h v rfl
      obtain ⟨slots, hslots⟩ := Option.isSome_iff_exists.mp hslots
      obtain ⟨bitstream, hbitstream⟩ := Option.isSome_iff_exists.mp hbitstream
      dsimp only
      rw [readFme, hid, hslots, hbitstream]
      exact ⟨_, rfl⟩

theorem readAddress_ok {t : TokenView} {p : FpgaProperties τ} :
    (∃ q, readAddress t p = .ok q) ↔ ∃ sbdf, t.sbdf = .ok sbdf := by
  constructor
  · rintro ⟨q, h⟩
    obtain ⟨sbdf, hsbdf, -⟩ := except_bind_ok.mp h
    exact ⟨sbdf, hsbdf⟩
  · rintro ⟨sbdf, hsbdf⟩
    rw [readAddress, hsbdf]
    exact ⟨_, rfl⟩

theorem readProperties_ok {t : TokenView} :
    (∃ q : FpgaProperties τ, PluginXfpga.Properties.readProperties t = .ok q) ↔
      ((∃ vendor, t.vendor = .ok vendor) ∧ (∃ device, t.device = .ok device) ∧
        t.separator = true) ∧
      (∀ v ∈ t.fme,
        (∃ id, v.interfaceId = .ok id) ∧ v.numSlots.isSome ∧ v.bitstreamId.isSome) ∧
      ∃ sbdf, t.sbdf = .ok sbdf := by
  constructor
  · rintro ⟨q, h⟩
    obtain ⟨p₁, h₁, h⟩ := except_bind_ok.mp h
    obtain ⟨p₂, h₂, h₃⟩ := except_bind_ok.mp h
    exact ⟨readIds_ok.mp ⟨p₁, h₁⟩, readObject_ok.mp ⟨p₂, h₂⟩, readAddress_ok.mp ⟨q, h₃⟩⟩
  · rintro ⟨hids, hobject, haddress⟩
    obtain ⟨p₁, h₁⟩ := readIds_ok.mpr hids
    obtain ⟨p₂, h₂⟩ := readObject_ok.mpr hobject
    obtain ⟨p₃, h₃⟩ := readAddress_ok.mpr haddress
    exact ⟨p₃, except_bind_ok.mpr ⟨p₁, h₁, except_bind_ok.mpr ⟨p₂, h₂, h₃⟩⟩⟩

theorem xfpgaFpgaUpdateProperties_ok {t : TokenView} {p : FpgaProperties τ} :
    (xfpgaFpgaUpdateProperties t p).1 = .ok ↔ t.magic = true ∧ t.lock = true ∧
      ∃ q : FpgaProperties τ, PluginXfpga.Properties.readProperties t = .ok q := by
  rw [xfpgaFpgaUpdateProperties]
  cases t.magic with
  | false => exact ⟨(fun h => by cases h), fun h => by cases h.1⟩
  | true =>
    rw [if_neg (by decide)]
    cases PluginXfpga.Properties.readProperties (τ := τ) t with
    | error e =>
      refine ⟨fun h => absurd h e.2, ?_⟩
      rintro ⟨-, -, q, ⟨⟩⟩
    | ok q =>
      cases t.lock with
      | false => exact ⟨(fun h => by cases h), fun h => by cases h.2.1⟩
      | true => exact ⟨fun _ => ⟨rfl, rfl, q, rfl⟩, fun _ => rfl⟩

theorem apply_ok_iff (u : PluginUpdate) (p : FpgaProperties τ) :
    (u.apply p).1 = .ok ↔ Readable u := by
  cases u with
  | xfpga t =>
    rw [PluginUpdate.apply, xfpgaFpgaUpdateProperties_ok, readProperties_ok]
    constructor
    · rintro ⟨hmagic, hlock, ⟨hvendor, hdevice, hseparator⟩, hfme, hsbdf⟩
      exact ⟨hmagic, hvendor, hdevice, hseparator, hfme, hsbdf, hlock⟩
    · rintro ⟨hmagic, hvendor, hdevice, hseparator, hfme, hsbdf, hlock⟩
      exact ⟨hmagic, hlock, ⟨hvendor, hdevice, hseparator⟩, hfme, hsbdf⟩
  | vfio t =>
    cases t with
    | none => exact iff_of_false (fun h => by cases h) fun h => by cases h
    | some t =>
      refine iff_of_true ?_ rfl
      rw [PluginUpdate.apply, vfioFpgaUpdateProperties]
      split <;> rfl

theorem apply_error (u : PluginUpdate) {p : FpgaProperties τ}
    (h : (u.apply p).1 ≠ .ok) : (u.apply p).2 = p := by
  cases u with
  | xfpga t =>
    rw [PluginUpdate.apply, Ne, xfpgaFpgaUpdateProperties_ok] at h
    rw [PluginUpdate.apply, xfpgaFpgaUpdateProperties]
    cases hmagic : t.magic with
    | false => rfl
    | true =>
      rw [if_neg (by decide)]
      cases hread : PluginXfpga.Properties.readProperties (τ := τ) t with
      | error e => rfl
      | ok q =>
        cases hlock : t.lock with
        | false => rfl
        | true => exact absurd ⟨hmagic, hlock, q, hread⟩ h
  | vfio t =>
    cases t with
    | none => rfl
    | some t => exact absurd ((apply_ok_iff (.vfio (some t)) p).mpr rfl) h

end Plugins

section Shell

/-- The plugin's update starts from the object without its parent. -/
def Answers (u : PluginUpdate) (p : FpgaProperties TokenPtr) (env : PropertiesEnv) : Prop :=
  env.res = (u.apply (dropParent p)).1 ∧ (env.res ≠ .ok →
    (env.props.map fromPlugin).getD (dropParent p) = (u.apply (dropParent p)).2)

/-- The properties objects and the tokens with their reference counts are as they were. -/
structure Untouched (s s' : Shell) : Prop where
  props : s'.props = s.props
  tokens : s'.tokens = s.tokens
  tokenList : s'.tokenList = s.tokenList

/-- The call returns, and unless it returns `FPGA_OK` it has changed nothing. -/
def Atomic (tables : Tables) (env : PropertiesEnv) (s : Shell) (token : Option TokenPtr)
    (prop : Option Nat) : Prop :=
  ∃ r s', fpgaUpdateProperties tables env s token prop = some (r, s') ∧ (r ≠ .ok → Untouched s s')

/-- The parent of an object is given up only for an update that succeeds, and it is not all that
keeps the token itself. -/
def ParentSpared (tables : Tables) (u : PluginUpdate) (c : Client) (token : Option TokenPtr)
    (prop : Option Nat) : Prop :=
  ∀ t wt id p, token = some (.wrapped t) → c.shell.tokens.get t = some wt →
    tables wt.adapterTable .fpgaUpdateProperties = true → prop = some id →
    c.shell.props.get id = some p → fieldValid p fpgaPropertyParent →
    Readable u ∧ 0 < others c.held c.shell id t

variable {tables : Tables}

theorem opaeUprefWrappedToken_returns {s : Shell} {t : Nat} {wt : OpaeWrappedToken}
    (hwt : s.tokens.get t = some wt) : ∃ s', opaeUprefWrappedToken s t = some s' := by
  simp only [opaeUprefWrappedToken, hwt, Option.bind_eq_bind, Option.bind_some]
  split <;> exact ⟨_, rfl⟩

theorem findParent_returns (env : ParentEnv) (address : UInt16 × UInt8 × UInt8) {s : Shell}
    {candidates : List Nat} (hlive : ∀ t ∈ candidates, ∃ wt, s.tokens.get t = some wt) :
    ∃ r, findParent tables env address s candidates = some r := by
  induction candidates generalizing s with
  | nil => exact ⟨_, rfl⟩
  | cons t rest ih =>
    obtain ⟨wt, hwt⟩ := hlive t List.mem_cons_self
    have hrest : ∀ t ∈ rest, ∃ wt, s.tokens.get t = some wt :=
      fun t' ht => hlive t' (List.mem_cons_of_mem t ht)
    rw [findParent, hwt, Option.bind_eq_bind, Option.bind_some]
    split
    · exact ih hrest
    · dsimp only
      split
      · split
        · obtain ⟨s', hs'⟩ := opaeUprefWrappedToken_returns
            (s := dispatch s wt.adapterTable .fpgaUpdateProperties [wt.opaeToken]) hwt
          rw [hs']
          exact ⟨_, rfl⟩
        · exact ih hrest
      · exact ⟨_, rfl⟩

theorem opaeGetParentToken_returns (tables : Tables) (env : ParentEnv) {s : Shell}
    {ow : Nat → Nat} (h : Holds s ow) {child : Nat} (hchild : 0 < ow child) :
    ∃ r, opaeGetParentToken tables env s child = some r := by
  obtain ⟨wt, hwt⟩ := h.live hchild
  obtain he | he | ⟨address, -, he⟩ := opaeGetParentToken_cases tables env hwt
  · exact ⟨_, he⟩
  · exact ⟨_, he⟩
  · rw [he]
    apply findParent_returns
    intro t ht
    apply h.live
    rwa [← Counted.isSome_iff h, ← Counted.mem_iff h]

theorem fpgaUpdateProperties_released (env : PropertiesEnv) {s s₀ : Shell} {t id : Nat}
    {wt wt' : OpaeWrappedToken} {p : FpgaProperties TokenPtr} (hwt : s.tokens.get t = some wt)
    (hf : tables wt.adapterTable .fpgaUpdateProperties = true) (hp : s.props.get id = some p)
    (hs : releaseParent tables ⟨.ok, none, true, env.destroyed⟩ s p = some s₀)
    (hwt' : s₀.tokens.get t = some wt') :
    fpgaUpdateProperties tables env s (some (.wrapped t)) (some id) =
      let q := (env.props.map fromPlugin).getD (dropParent p)
      let s' := { dispatch s₀ wt'.adapterTable .fpgaUpdateProperties [wt'.opaeToken] with
        props := s₀.props.set id q }
      if env.res ≠ .ok then some (env.res, s')
      else (storeParentToken tables env s' t id q).map fun s => (.ok, s) := by
  have htoken : opaeValidateWrappedToken s (some (.wrapped t)) = some (some (t, wt)) := by
    simp [opaeValidateWrappedToken, validate, hwt]
  have hprop : validate s.props (some id) = some (some (id, p)) := by simp [validate, hp]
  simp only [fpgaUpdateProperties, htoken, hf, hprop, hs, hwt', Option.bind_eq_bind,
    Option.bind_some, Bool.not_true, Bool.false_eq_true, if_false]
  split
  · rfl
  · exact Option.map_eq_bind.symm

theorem dropParent_of_invalid {p : FpgaProperties TokenPtr}
    (h : ¬fieldValid p fpgaPropertyParent) : dropParent p = p := if_neg h

theorem not_fieldValid_dropParent (p : FpgaProperties TokenPtr) :
    ¬fieldValid (dropParent p) fpgaPropertyParent := by
  rw [dropParent]
  split
  · intro h
    exact ((fieldValid_of_clear rfl).mp h).1 rfl
  · next h => exact h

theorem atomic_of_error {env : PropertiesEnv} {s : Shell} {token : Option TokenPtr}
    {prop : Option Nat} {r : FpgaResult}
    (h : fpgaUpdateProperties tables env s token prop = some (r, s)) :
    Atomic tables env s token prop := ⟨r, s, h, fun _ => ⟨rfl, rfl, rfl⟩⟩

section Reached

variable {c : Client} {u : PluginUpdate} {env : PropertiesEnv} {t id : Nat}
  {wt : OpaeWrappedToken} {p : FpgaProperties TokenPtr} (h : c.Owned)
  (hwt : c.shell.tokens.get t = some wt)
  (hf : tables wt.adapterTable .fpgaUpdateProperties = true)
  (hp : c.shell.props.get id = some p) (hu : Answers u p env)
include h hwt hf hp hu

theorem atomic_of_readable (hread : Readable u) (ht : 0 < others c.held c.shell id t) :
    Atomic tables env c.shell (some (.wrapped t)) (some id) := by
  obtain ⟨s, hs, -, hh⟩ := releaseParent_others tables h ⟨.ok, none, true, env.destroyed⟩ hp
  obtain ⟨wt', hwt'⟩ := hh.live ht
  have hcall := fpgaUpdateProperties_released env hwt hf hp hs hwt'
  have hok : env.res = .ok := hu.1.trans ((apply_ok_iff u _).mpr hread)
  dsimp only at hcall
  rw [if_neg (not_not_intro hok)] at hcall
  obtain ⟨r, hr⟩ := opaeGetParentToken_returns tables env.parent
    (s := { dispatch s wt'.adapterTable .fpgaUpdateProperties [wt'.opaeToken] with
      props := s.props.set id ((env.props.map fromPlugin).getD (dropParent p)) }) hh ht
  rw [storeParentToken, hr] at hcall
  exact ⟨.ok, _, hcall, fun hne => absurd rfl hne⟩

theorem atomic_of_no_parent (hparent : ¬fieldValid p fpgaPropertyParent) :
    Atomic tables env c.shell (some (.wrapped t)) (some id) := by
  have hs : releaseParent tables ⟨.ok, none, true, env.destroyed⟩ c.shell p = some c.shell :=
    if_neg hparent
  have ht : 0 < others c.held c.shell id t := by
    have howned := (Counted.isSome_iff h t).mp (Option.isSome_of_eq_some hwt)
    rwa [owners_props_get hp, wrappedParent_none_of_invalid hparent] at howned
  by_cases hread : Readable u
  · exact atomic_of_readable h hwt hf hp hu hread ht
  · have hcall := fpgaUpdateProperties_released env hwt hf hp hs hwt
    have hne : env.res ≠ .ok := fun hok => hread ((apply_ok_iff u _).mp (hu.1.symm.trans hok))
    have hq := (hu.2 hne).trans (apply_error u (hu.1 ▸ hne))
    rw [dropParent_of_invalid hparent] at hq hcall
    dsimp only at hcall
    rw [if_pos hne, hq, Slots.set_of_get hp] at hcall
    exact ⟨env.res, _, hcall, fun _ => ⟨rfl, rfl, rfl⟩⟩

theorem readable_of_atomic (hatomic : Atomic tables env c.shell (some (.wrapped t)) (some id))
    (hparent : fieldValid p fpgaPropertyParent) :
    Readable u ∧ 0 < others c.held c.shell id t := by
  obtain ⟨r, s', hcall, huntouched⟩ := hatomic
  have ht : 0 < others c.held c.shell id t := by
    by_contra hzero
    have hnone := fpgaUpdateProperties_sole_owner tables h env hp hwt hf
      (Nat.eq_zero_of_not_pos hzero)
    exact nomatch hnone.symm.trans hcall
  refine ⟨?_, ht⟩
  by_contra hread
  have hne : env.res ≠ .ok := fun hok => hread ((apply_ok_iff u _).mp (hu.1.symm.trans hok))
  obtain ⟨s, hs, hk, hh⟩ := releaseParent_others tables h ⟨.ok, none, true, env.destroyed⟩ hp
  obtain ⟨wt', hwt'⟩ := hh.live ht
  have hreleased := fpgaUpdateProperties_released env hwt hf hp hs hwt'
  dsimp only at hreleased
  rw [if_pos hne, hcall] at hreleased
  obtain ⟨rfl, rfl⟩ := Prod.mk.inj (Option.some.inj hreleased)
  have hq := (hu.2 hne).trans (apply_error u (hu.1 ▸ hne))
  have hprops := (huntouched hne).props
  rw [hq, hk.props] at hprops
  -- the object has lost the bit of its parent
  have hget := congrArg (fun props => props.get id) hprops
  dsimp only at hget
  rw [Slots.get_set hp, if_pos rfl, hp] at hget
  rw [← Option.some.inj hget] at hparent
  exact not_fieldValid_dropParent p hparent

end Reached

/-- An update is atomic unless it gives up a parent in vain. -/
theorem update_atomic_iff (tables : Tables) {c : Client} (h : c.Owned) {token : Option TokenPtr}
    {prop : Option Nat} (htoken : Usable c token) (hprop : LiveProps c prop) (u : PluginUpdate)
    {env : PropertiesEnv}
    (hu : ∀ id p, prop = some id → c.shell.props.get id = some p → Answers u p env) :
    Atomic tables env c.shell token prop ↔ ParentSpared tables u c token prop := by
  obtain ⟨t, wt, rfl, hwt, he⟩ | ⟨hnone, he⟩ := validateToken_cases _ (htoken.live h)
  swap
  · apply iff_of_true
    · exact atomic_of_error (r := .invalidParam) (by simp [fpgaUpdateProperties, he])
    · rintro t wt id p rfl
      cases hnone
  cases hf : tables wt.adapterTable .fpgaUpdateProperties with
  | false =>
    apply iff_of_true
    · exact atomic_of_error (r := .notSupported) (by simp [fpgaUpdateProperties, he, hf])
    · rintro t' wt' id p ht hwt' hf'
      obtain rfl := TokenPtr.wrapped.inj (Option.some.inj ht)
      obtain rfl := Option.some.inj (hwt.symm.trans hwt')
      cases hf.symm.trans hf'
  | true =>
    obtain ⟨rfl, hv⟩ | ⟨id, p, rfl, hp, hv⟩ := validate_props prop hprop
    · apply iff_of_true
      · exact atomic_of_error (r := .invalidParam) (by simp [fpgaUpdateProperties, he, hf, hv])
      · rintro t' wt' id p ht hwt' hf' hid
        cases hid
    · have hanswers := hu id p rfl hp
      constructor
      · rintro hatomic t' wt' id' p' ht - - hid hp' hparent
        obtain rfl := TokenPtr.wrapped.inj (Option.some.inj ht)
        obtain rfl := Option.some.inj hid
        obtain rfl := Option.some.inj (hp.symm.trans hp')
        exact readable_of_atomic h hwt hf hp hanswers hatomic hparent
      · intro hspared
        by_cases hparent : fieldValid p fpgaPropertyParent
        · obtain ⟨hread, ht⟩ := hspared t wt id p rfl hwt hf rfl hp hparent
          exact atomic_of_readable h hwt hf hp hanswers hread ht
        · exact atomic_of_no_parent h hwt hf hp hanswers hparent

end Shell

section Sample

def sampleCalls : List TokenRuns.Call := TokenRuns.sampleCalls.take 3

def sampleObject : FpgaProperties TokenPtr := storeParent opaePropertiesCreate (.wrapped 0)

def sampleClient : Client :=
  ⟨[0], { start with
    tokens := ⟨[some ⟨some ⟨0, 10⟩, 2, 0⟩]⟩
    tokenList := [0]
    props := ⟨[some sampleObject]⟩
    log := [⟨0, .fpgaEnumerate, []⟩] }⟩

theorem owned_sampleClient : sampleClient.Owned := by
  have hrun : run (step (fun _ _ => true) [0]) initial sampleCalls = some sampleClient := by decide
  obtain ⟨c, hc, howned⟩ := run_owned (fun _ _ => true) [0] sampleCalls (by decide)
  obtain rfl := Option.some.inj (hc.symm.trans hrun)
  exact howned

def sampleView : TokenView :=
  ⟨true, .error ⟨.notFound, FpgaResult.notFound_ne_ok⟩, .ok 0x09c4, true, none, none,
    .ok (0, 0x3b, 0, 0), none, none, 0, true⟩

def sampleEnv : PropertiesEnv :=
  ⟨.notFound, none, true, .ok, ⟨true, true, true, (.exception, opaePropertiesCreate),
    fun _ => (.exception, opaePropertiesCreate)⟩⟩

theorem update_atomic_sample :
    ¬ Atomic (fun _ _ => true) sampleEnv sampleClient.shell (some (.wrapped 0)) (some 0) := by
  have hiff : Atomic (fun _ _ => true) sampleEnv sampleClient.shell (some (.wrapped 0)) (some 0) ↔
      ParentSpared (fun _ _ => true) (.xfpga sampleView) sampleClient (some (.wrapped 0))
        (some 0) := by
    apply update_atomic_iff
    · exact owned_sampleClient
    · decide
    · decide
    · rintro id p - -
      exact ⟨rfl, fun _ => rfl⟩
  intro h
  obtain ⟨hread, -⟩ := hiff.mp h 0 _ 0 sampleObject rfl rfl rfl rfl rfl (by decide)
  obtain ⟨vendor, hvendor⟩ := hread.vendor
  exact nomatch hvendor

/-- The update fails, the object has lost its parent and the token an owner. -/
theorem failed_update_drops_parent :
    sampleClient.Owned ∧ Usable sampleClient (some (.wrapped 0)) ∧
    Answers (.xfpga sampleView) sampleObject sampleEnv ∧
    ∃ s', fpgaUpdateProperties (fun _ _ => true) sampleEnv sampleClient.shell (some (.wrapped 0))
        (some 0) = some (.notFound, s') ∧
      s'.props.get 0 = some opaePropertiesCreate ∧
      (s'.tokens.get 0).map (·.refCount) = some 1 ∧ ¬ Untouched sampleClient.shell s' := by
  refine ⟨owned_sampleClient, by decide, ⟨rfl, fun _ => rfl⟩, _, rfl, by decide, by decide, ?_⟩
  intro h
  have hprops := congrArg (fun props => props.get 0) h.props
  revert hprops
  decide

end Sample

end OpaeLibs.OpaeC.UpdateAtomicity
