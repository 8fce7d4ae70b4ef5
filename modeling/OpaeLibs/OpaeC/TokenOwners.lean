import OpaeLibs.Lib.Runs
import OpaeLibs.OpaeC.EnumerateTokens
import OpaeLibs.OpaeC.Tokens

namespace OpaeLibs.OpaeC.TokenOwners

open OpaeLibs.Lib.Heap OpaeLibs.Lib.Refs OpaeLibs.Lib.Runs
open OpaeLibs.OpaeC.Props OpaeLibs.OpaeC.ApiShell OpaeLibs.OpaeC.Enumerate
open OpaeLibs.OpaeC.EnumerateWalk OpaeLibs.OpaeC.EnumerateTokens OpaeLibs.OpaeC.Tokens

def wrappedId : Option TokenPtr → Option Nat
  | some (.wrapped t) => some t
  | _ => none

def wrappedParent (p : FpgaProperties TokenPtr) : Option Nat :=
  if fieldValid p fpgaPropertyParent then wrappedId p.parent else none

def owners (held : List Nat) (s : Shell) (t : Nat) : Nat :=
  held.count t + s.handles.count (fun h => h.wrappedToken = t) +
    s.props.count (fun p => wrappedParent p = some t)

/-- The reference counts and the token list are those of the owners `ow`. -/
def Holds (s : Shell) (ow : Nat → Nat) : Prop :=
  Counted (fun wt : OpaeWrappedToken => wt.refCount.toNat) ow s.tokens s.tokenList

/-- Nothing but the tokens and the log has changed. -/
structure Kept (s s' : Shell) : Prop where
  handles : s'.handles = s.handles
  props : s'.props = s.props

theorem kept_refl (s : Shell) : Kept s s := ⟨rfl, rfl⟩

theorem kept_dispatch (s : Shell) (a : Nat) (f : ApiFn) (args : List (Option OpaePtr)) :
    Kept s (dispatch s a f args) := ⟨rfl, rfl⟩

theorem Kept.trans {s s' s'' : Shell} (h : Kept s s') (h' : Kept s' s'') : Kept s s'' :=
  ⟨h'.handles.trans h.handles, h'.props.trans h.props⟩

theorem wrappedParent_none {p : FpgaProperties TokenPtr} (h : wrappedId p.parent = none) :
    wrappedParent p = none := by
  rw [wrappedParent, h, ite_self]

theorem wrappedParent_none_of_invalid {p : FpgaProperties TokenPtr}
    (h : ¬fieldValid p fpgaPropertyParent) : wrappedParent p = none := if_neg h

theorem wrappedParent_of_valid {p : FpgaProperties TokenPtr} (h : fieldValid p fpgaPropertyParent) :
    wrappedParent p = wrappedId p.parent := if_pos h

theorem validateToken_cases {s : Shell} (token : Option TokenPtr)
    (h : ∀ t ∈ wrappedId token, ∃ wt, s.tokens.get t = some wt) :
    (∃ t wt, token = some (.wrapped t) ∧ s.tokens.get t = some wt ∧
      opaeValidateWrappedToken s token = some (some (t, wt))) ∨
    (wrappedId token = none ∧ opaeValidateWrappedToken s token = some none) := by
  match token with
  | none => exact .inr ⟨rfl, rfl⟩
  | some (.opae q) => exact .inr ⟨rfl, rfl⟩
  | some (.wrapped t) =>
    obtain ⟨wt, hwt⟩ := h t rfl
    exact .inl ⟨t, wt, rfl, hwt, by simp [opaeValidateWrappedToken, validate, hwt]⟩

section

variable {s : Shell} {ow : Nat → Nat}

theorem Holds.dispatch (h : Holds s ow) (a : Nat) (f : ApiFn) (args : List (Option OpaePtr)) :
    Holds (dispatch s a f args) ow := h

theorem Holds.live (h : Holds s ow) {t : Nat} (ht : 0 < ow t) : ∃ wt, s.tokens.get t = some wt :=
  h.exists_of_owned ht

theorem upref_spec (h : Holds s ow) {t : Nat} (ht : 0 < ow t) (hroom : ow t + 1 < 2 ^ 32) :
    ∃ s', opaeUprefWrappedToken s t = some s' ∧ Kept s s' ∧ Holds s' fun j => ow j + one t j := by
  obtain ⟨wt, hwt⟩ := h.live ht
  obtain ⟨hrefs, -⟩ := Counted.live h t wt hwt
  have hnat : (wt.refCount + 1).toNat = wt.refCount.toNat + 1 := by
    rw [UInt32.toNat_add]
    simp only [UInt32.toNat_one]
    omega
  have hne : wt.refCount ≠ 0 := fun he => by
    simp only [he, UInt32.toNat_zero] at hrefs
    omega
  refine ⟨{ s with tokens := s.tokens.set t { wt with refCount := wt.refCount + 1 } }, ?_,
    ⟨rfl, rfl⟩, Counted.retain h hwt hnat fun _ => rfl⟩
  simp [opaeUprefWrappedToken, hwt, hne]

theorem downref_spec (tables : Tables) (destroyed : FpgaResult) {t : Nat}
    (h : Holds s fun j => ow j + one t j) :
    ∃ res s', opaeDownrefWrappedToken tables destroyed s t = some (res, s') ∧ Kept s s' ∧
      Holds s' ow := by
  obtain ⟨wt, hwt⟩ := h.live (t := t) (by simp)
  obtain ⟨hrefs, hpos⟩ := Counted.live h t wt hwt
  rw [one_self] at hrefs hpos
  have hnat : (wt.refCount - 1).toNat = wt.refCount.toNat - 1 := by
    have hle : 1 ≤ wt.refCount := by
      rw [UInt32.le_iff_toNat_le, UInt32.toNat_one]
      omega
    rw [UInt32.toNat_sub_of_le _ _ hle]
    rfl
  by_cases hlast : wt.refCount - 1 = 0
  · rw [hlast, UInt32.toNat_zero] at hnat
    have hd := Counted.drop h hwt (by omega) fun _ => rfl
    obtain ⟨freed, hfreed⟩ : ∃ freed, { s with
      tokenList := s.tokenList.erase t, tokens := s.tokens.free t } = freed := ⟨_, rfl⟩
    have hh : Holds freed ow := hfreed ▸ hd
    have hk : Kept s freed := hfreed ▸ ⟨rfl, rfl⟩
    cases hf : tables wt.adapterTable .fpgaDestroyToken with
    | false =>
      refine ⟨.notSupported, freed, ?_, hk, hh⟩
      simp [opaeDownrefWrappedToken, hwt, hlast, hf, hfreed]
    | true =>
      refine ⟨destroyed, dispatch freed wt.adapterTable .fpgaDestroyToken [wt.opaeToken], ?_,
        hk.trans (kept_dispatch ..), hh⟩
      simp [opaeDownrefWrappedToken, hwt, hlast, hf, hfreed]
  · have hpos' : 0 < (wt.refCount - 1).toNat := by
      rw [Nat.pos_iff_ne_zero]
      exact fun he => hlast (UInt32.toNat_inj.mp he)
    refine ⟨.ok, { s with tokens := s.tokens.set t { wt with refCount := wt.refCount - 1 } }, ?_,
      ⟨rfl, rfl⟩, Counted.release h hwt ?_ hpos' fun _ => rfl⟩
    · simp [opaeDownrefWrappedToken, hwt, hlast]
    · simp only
      omega

theorem releaseParent_spec (tables : Tables) (env : CallEnv) (p : FpgaProperties TokenPtr)
    (h : Holds s fun j => ow j + oneOf (wrappedParent p) j) :
    ∃ s', releaseParent tables env s p = some s' ∧ Kept s s' ∧ Holds s' ow := by
  by_cases hv : fieldValid p fpgaPropertyParent
  · obtain ⟨t, wt, hp, hwt, he⟩ | ⟨hp, he⟩ := validateToken_cases p.parent
      fun t hp => h.live (t := t) (by simp [wrappedParent_of_valid hv, Option.mem_def.mp hp])
    · rw [wrappedParent_of_valid hv, hp] at h
      obtain ⟨res, s', hd, hk, hh⟩ := downref_spec tables env.destroyed h
      exact ⟨s', by simp [releaseParent, hv, he, opaeDestroyWrappedToken, hd], hk, hh⟩
    · rw [wrappedParent_none hp] at h
      exact ⟨s, by simp [releaseParent, hv, he], kept_refl s, h⟩
  · refine ⟨s, by simp [releaseParent, hv], kept_refl s, ?_⟩
    rw [wrappedParent_none_of_invalid hv] at h
    exact h

theorem opaeAllocateWrappedToken_spec (malloc : Bool) (token : Option OpaePtr) (adapter : Nat)
    (h : Holds s ow) :
    ∃ t s', opaeAllocateWrappedToken malloc s token adapter = some (t, s') ∧ Kept s s' ∧
      Holds s' fun j => ow j + oneOf t j := by
  cases malloc with
  | false => exact ⟨none, s, rfl, kept_refl s, h⟩
  | true =>
    exact ⟨_, _, opaeAllocateWrappedToken_true s token adapter, ⟨rfl, rfl⟩,
      Counted.alloc h (a := ⟨token, 1, adapter⟩) rfl fun _ => rfl⟩

/-- The plugins' answers make the token `t` the device that the child belongs to. -/
def isParent (env : ParentEnv) (t : Nat) : Bool :=
  match addressAndType env.child.2 with
  | some (address, .accelerator) => addressAndType (env.candidates t).2 = some (address, .device)
  | _ => false

theorem findParent_spec (tables : Tables) (env : ParentEnv) (address : UInt16 × UInt8 × UInt8)
    (h : Holds s ow) {candidates : List Nat} (hc : ∀ t ∈ candidates, 0 < ow t)
    (hroom : ∀ t ∈ candidates, addressAndType (env.candidates t).2 = some (address, .device) →
      ow t + 1 < 2 ^ 32) :
    ∃ parent s', findParent tables env address s candidates = some (parent, s') ∧ Kept s s' ∧
      Holds s' fun j => ow j + oneOf parent j := by
  induction candidates generalizing s with
  | nil => exact ⟨none, s, rfl, kept_refl s, h⟩
  | cons p rest ih =>
    obtain ⟨wt, hwt⟩ := h.live (hc p List.mem_cons_self)
    have hrest : ∀ t ∈ rest, 0 < ow t := fun t ht => hc t (List.mem_cons_of_mem _ ht)
    have hroom' := fun t ht => hroom t (List.mem_cons_of_mem p ht)
    cases hf : tables wt.adapterTable .fpgaUpdateProperties with
    | false =>
      obtain ⟨parent, s', he, hk, hh⟩ := ih h hrest hroom'
      exact ⟨parent, s', by simpa [findParent, hwt, hf] using he, hk, hh⟩
    | true =>
      have hd := h.dispatch wt.adapterTable .fpgaUpdateProperties [wt.opaeToken]
      obtain ⟨⟨res, props⟩, hprops⟩ : ∃ answer, env.candidates p = answer := ⟨_, rfl⟩
      by_cases hok : res = .ok
      · subst hok
        by_cases hdev : addressAndType props = some (address, .device)
        · obtain ⟨s', he, hk, hh⟩ := upref_spec hd (hc p List.mem_cons_self)
            (hroom p List.mem_cons_self (by rw [hprops, hdev]))
          refine ⟨some p, s', ?_, (kept_dispatch ..).trans hk, hh⟩
          simp [findParent, hwt, hf, hprops, hdev, he]
        · obtain ⟨parent, s', he, hk, hh⟩ := ih hd hrest hroom'
          refine ⟨parent, s', ?_, (kept_dispatch ..).trans hk, hh⟩
          simpa [findParent, hwt, hf, hprops, hdev] using he
      · refine ⟨none, _, ?_, kept_dispatch .., hd⟩
        simp [findParent, hwt, hf, hprops, hok]

theorem opaeGetParentToken_cases (tables : Tables) (env : ParentEnv) {s : Shell} {child : Nat}
    {wt : OpaeWrappedToken} (hwt : s.tokens.get child = some wt) :
    opaeGetParentToken tables env s child = some (none, s) ∨
    opaeGetParentToken tables env s child =
      some (none, dispatch s wt.adapterTable .fpgaUpdateProperties [wt.opaeToken]) ∨
    ∃ address, addressAndType env.child.2 = some (address, .accelerator) ∧
      opaeGetParentToken tables env s child = findParent tables env address
        (dispatch s wt.adapterTable .fpgaUpdateProperties [wt.opaeToken]) s.tokenList := by
  simp only [opaeGetParentToken, hwt, Option.bind_eq_bind, Option.bind_some]
  split
  · exact .inl rfl
  split
  · exact .inl rfl
  split
  · next props hprops =>
    split
    · next address hacc =>
      split
      · exact .inr (.inr ⟨address, by rw [hprops, hacc], rfl⟩)
      · exact .inr (.inl rfl)
    · exact .inr (.inl rfl)
  · exact .inr (.inl rfl)

theorem opaeGetParentToken_spec (tables : Tables) (env : ParentEnv) (h : Holds s ow) {child : Nat}
    (hc : 0 < ow child) (hroom : ∀ t, 0 < ow t → isParent env t → ow t + 1 < 2 ^ 32) :
    ∃ parent s', opaeGetParentToken tables env s child = some (parent, s') ∧ Kept s s' ∧
      Holds s' fun j => ow j + oneOf parent j := by
  obtain ⟨wt, hwt⟩ := h.live hc
  have hd := h.dispatch wt.adapterTable .fpgaUpdateProperties [wt.opaeToken]
  obtain he | he | ⟨address, hacc, he⟩ := opaeGetParentToken_cases tables env hwt
  · exact ⟨none, s, he, kept_refl s, h⟩
  · exact ⟨none, _, he, kept_dispatch .., hd⟩
  · have hlive : ∀ t ∈ s.tokenList, 0 < ow t := fun t ht => by
      rwa [← Counted.isSome_iff h, ← Counted.mem_iff h]
    obtain ⟨parent, s', hf, hk, hh⟩ := findParent_spec tables env address hd hlive
      fun t ht hdev => hroom t (hlive t ht) (by simpa [isParent, hacc] using hdev)
    exact ⟨parent, s', he.trans hf, (kept_dispatch ..).trans hk, hh⟩

end

/-- The client's tokens, the open handles and the properties objects are all the owners. -/
def Owned (held : List Nat) (s : Shell) : Prop := Holds s (owners held s)

/-- The owners of a token other than the properties object `id`. -/
def others (held : List Nat) (s : Shell) (id : Nat) : Nat → Nat :=
  owners held { s with props := s.props.free id }

theorem toNat_decide_one (i j : Nat) : (decide (i = j)).toNat = one i j := by
  by_cases h : j = i
  · simp [h]
  · simp [one_of_ne h, Ne.symm h]

theorem toNat_decide_oneOf (t : Option Nat) (j : Nat) :
    (decide (t = some j)).toNat = oneOf t j := by
  cases t with
  | none => rfl
  | some t => simpa using toNat_decide_one t j

section

variable {held : List Nat} {s s' : Shell}

theorem Kept.owners (h : Kept s s') (held : List Nat) : owners held s' = owners held s := by
  funext j
  simp only [TokenOwners.owners, h.handles, h.props]

theorem owners_props_alloc (p : FpgaProperties TokenPtr) (j : Nat) :
    owners held { s with props := s.props.alloc p } j =
      owners held s j + oneOf (wrappedParent p) j := by
  simp only [owners, Slots.count_alloc, toNat_decide_oneOf]
  omega

theorem owners_props_get {id : Nat} {p : FpgaProperties TokenPtr} (hp : s.props.get id = some p)
    (j : Nat) : owners held s j = others held s id j + oneOf (wrappedParent p) j := by
  have := Slots.count_free hp fun p => wrappedParent p = some j
  simp only [others, owners, toNat_decide_oneOf] at this ⊢
  omega

theorem owners_props_set (held : List Nat) {id : Nat} {p : FpgaProperties TokenPtr}
    (hp : s.props.get id = some p) (q : FpgaProperties TokenPtr) (j : Nat) :
    owners held { s with props := s.props.set id q } j =
      others held s id j + oneOf (wrappedParent q) j := by
  have h := Slots.count_free hp fun p => wrappedParent p = some j
  have h' := Slots.count_set hp (fun p => wrappedParent p = some j) q
  simp only [others, owners, toNat_decide_oneOf] at h h' ⊢
  omega

theorem owners_handles_alloc (wh : OpaeWrappedHandle) (j : Nat) :
    owners held { s with handles := s.handles.alloc wh } j =
      owners held s j + one wh.wrappedToken j := by
  simp only [owners, Slots.count_alloc, toNat_decide_one]
  omega

theorem owners_handles_free {id : Nat} {wh : OpaeWrappedHandle} (h : s.handles.get id = some wh)
    (j : Nat) : owners held s j =
      owners held { s with handles := s.handles.free id } j + one wh.wrappedToken j := by
  have := Slots.count_free h fun wh => wh.wrappedToken = j
  simp only [owners, toNat_decide_one] at this ⊢
  omega

theorem owners_held_append (ts : List Nat) (j : Nat) :
    owners (held ++ ts) s j = owners held s j + ts.count j := by
  simp only [owners, List.count_append]
  omega

theorem owners_held_erase {t : Nat} (h : t ∈ held) (j : Nat) :
    owners held s j = owners (held.erase t) s j + one t j := by
  have hpos := List.count_pos_iff.mpr h
  simp only [owners, List.count_erase]
  by_cases hj : j = t
  · subst hj
    simp
    omega
  · simp [one_of_ne hj, Ne.symm hj]

theorem wrappedParent_fromPlugin (q : FpgaProperties OpaePtr) :
    wrappedParent (fromPlugin q) = none :=
  wrappedParent_none (by cases hp : q.parent <;> simp [fromPlugin, hp, wrappedId])

end

end OpaeLibs.OpaeC.TokenOwners
