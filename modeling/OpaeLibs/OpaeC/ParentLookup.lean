import OpaeLibs.OpaeC.UpdateAtomicity

namespace OpaeLibs.OpaeC.ParentLookup

open OpaeLibs.Lib.Bits OpaeLibs.Lib.Heap OpaeLibs.Lib.Refs
open OpaeLibs.OpaeC.Props OpaeLibs.OpaeC.ApiShell OpaeLibs.OpaeC.TokenOwners
open OpaeLibs.OpaeC.TypeFields (PluginUpdate)
open OpaeLibs.OpaeC.UpdateAtomicity (apply_ok_iff)

section Lists

variable {α : Type} {p q : α → Bool}

theorem find?_filter_eq_iff (hpq : ∀ a, p a = true → q a = true) {l : List α} :
    (l.find? q).filter p = l.find? p ↔ ∀ before a after, l = before ++ a :: after → p a = true →
      (∀ b ∈ before, ¬p b = true) → ∀ b ∈ before, ¬q b = true := by
  constructor
  · rintro h before a after rfl ha hbefore
    induction before with
    | nil => exact fun b hb => nomatch hb
    | cons b before ih =>
      obtain ⟨hb, hbefore⟩ := List.forall_mem_cons.mp hbefore
      have hfound : ((b :: before ++ a :: after).find? p).isSome :=
        List.find?_isSome.mpr ⟨a, by simp, ha⟩
      have hqb : ¬q b = true := by
        intro hqb
        rw [← h, List.cons_append, List.find?_cons_of_pos hqb] at hfound
        simp [Option.filter, hb] at hfound
      rw [List.cons_append, List.find?_cons_of_neg hqb, List.find?_cons_of_neg hb] at h
      exact List.forall_mem_cons.mpr ⟨hqb, ih h hbefore⟩
  · intro h
    cases hp : l.find? p with
    | none =>
      rw [Option.filter_eq_none_iff]
      intro a ha hpa
      exact List.find?_eq_none.mp hp a (List.mem_of_find?_eq_some ha) hpa
    | some a =>
      obtain ⟨ha, before, after, hl, hbefore⟩ := List.find?_eq_some_iff_append.mp hp
      have hq : l.find? q = some a := by
        rw [List.find?_eq_some_iff_append]
        refine ⟨hpq a ha, before, after, hl, ?_⟩
        intro b hb
        have hqb := h before a after hl ha (fun b hb => by simpa using hbefore b hb) b hb
        simpa using hqb
      rw [hq, Option.filter_some, if_pos ha]

end Lists

/-- A plugin's update of one token: whether it succeeds, and what it then says of the address and
the type, does not depend on what the object held before. -/
structure Updater where
  apply : FpgaProperties OpaePtr → FpgaResult × FpgaProperties OpaePtr
  overwrites : ∀ p q, (apply p).1 = .ok →
    (apply q).1 = .ok ∧ addressAndType (apply q).2 = addressAndType (apply p).2

theorem addressAndType_xfpga {t : PluginXfpga.Properties.TokenView} {p q : FpgaProperties OpaePtr}
    (hp : (PluginXfpga.Properties.xfpgaFpgaUpdateProperties t p).1 = .ok) :
    (PluginXfpga.Properties.xfpgaFpgaUpdateProperties t q).2 =
      (PluginXfpga.Properties.xfpgaFpgaUpdateProperties t p).2 := by
  obtain ⟨hmagic, hlock, r, hr⟩ := UpdateAtomicity.xfpgaFpgaUpdateProperties_ok.mp hp
  have hrun : ∀ p : FpgaProperties OpaePtr,
      PluginXfpga.Properties.xfpgaFpgaUpdateProperties t p = (.ok, r) := by
    intro p
    rw [PluginXfpga.Properties.xfpgaFpgaUpdateProperties, hmagic, hr, hlock]
    rfl
  rw [hrun p, hrun q]

section Vfio

open OpaeLibs.PluginVfio.Properties

theorem addressAndType_eq {p : FpgaProperties OpaePtr} (hsegment : fieldValid p fpgaPropertySegment)
    (hbus : fieldValid p fpgaPropertyBus) (hdevice : fieldValid p fpgaPropertyDevice)
    (hobjtype : fieldValid p fpgaPropertyObjtype) :
    addressAndType p = some ((p.segment, p.bus, p.device), p.objtype) := by
  rw [addressAndType, fpgaPropertiesGetSegment, fpgaPropertiesGetBus, fpgaPropertiesGetDevice,
    fpgaPropertiesGetObjectType, getField, if_pos hsegment, getField, if_pos hbus, getField,
    if_pos hdevice, getField, if_pos hobjtype]

theorem addressAndType_vfio (t : VfioToken) (p : FpgaProperties OpaePtr) :
    addressAndType (vfioFpgaUpdateProperties (some t) p).2 = some ((t.device.bdf.segment,
      t.device.bdf.bus, UInt8.ofBitVec (t.device.bdf.device.setWidth 8)), t.type) := by
  rw [vfioFpgaUpdateProperties]
  split <;> next htype =>
    rw [addressAndType_eq]
    · rfl
    all_goals
      simp [updateAccelerator, updateDevice, updateAddress, fieldValid_assign,
        fieldValid_clearFieldValid, fieldValid_withoutParent]

def ofPlugin (u : PluginUpdate) : Updater where
  apply := u.apply
  overwrites := by
    intro p q hp
    have hq := (apply_ok_iff u q).mpr ((apply_ok_iff u p).mp hp)
    refine ⟨hq, ?_⟩
    cases u with
    | xfpga t => exact congrArg addressAndType (addressAndType_xfpga hp)
    | vfio t =>
      cases t with
      | none => exact nomatch hp
      | some t => exact (addressAndType_vfio t q).trans (addressAndType_vfio t p).symm

end Vfio

section Lookup

variable (tables : Tables) (updates : Nat → Updater) (s : Shell)

def hasUpdate (t : Nat) : Bool :=
  (s.tokens.get t).any fun wt => tables wt.adapterTable .fpgaUpdateProperties

/-- What the plugin says of the token `t` when asked about it alone. -/
def ask (t : Nat) : FpgaResult × FpgaProperties OpaePtr := (updates t).apply opaePropertiesCreate

def isDeviceAt (address : UInt16 × UInt8 × UInt8) (t : Nat) : Bool :=
  hasUpdate tables s t && (ask updates t).1 = .ok &&
    addressAndType (ask updates t).2 = some (address, .device)

def stopsAt (address : UInt16 × UInt8 × UInt8) (t : Nat) : Bool :=
  hasUpdate tables s t && ((ask updates t).1 ≠ .ok ||
    addressAndType (ask updates t).2 = some (address, .device))

/-- The plugins' answers along the list, where all updates fill the one object `parent_props`. -/
def answers (p : FpgaProperties OpaePtr) : List Nat → Nat → FpgaResult × FpgaProperties OpaePtr
  | [], _ => (.exception, p)
  | t :: rest, i =>
    if i = t then (updates t).apply p
    else answers (if hasUpdate tables s t then ((updates t).apply p).2 else p) rest i

def parentEnv (childProps parentProps lock : Bool) (child : Nat) : ParentEnv :=
  ⟨childProps, parentProps, lock, ask updates child,
    answers tables updates s opaePropertiesCreate s.tokenList⟩

/-- The tokens are those of `s`, but for one more reference to the one returned. -/
structure Raised (parent : Option Nat) (s' : Shell) : Prop where
  tokenList : s'.tokenList = s.tokenList
  tokens : ∀ t, s'.tokens.get t = (s.tokens.get t).map fun wt =>
    if parent = some t then { wt with refCount := wt.refCount + 1 } else wt

/-- The lookup returns the first device at the address, with one more reference, or nothing if there
is none. -/
def Complete (env : ParentEnv) (child : Nat) (address : UInt16 × UInt8 × UInt8) : Prop :=
  ∃ s', opaeGetParentToken tables env s child =
      some (s.tokenList.find? (isDeviceAt tables updates s address), s') ∧
    Raised s (s.tokenList.find? (isDeviceAt tables updates s address)) s'

/-- Nothing keeps the lookup from the first device at the address: the allocations and the lock
succeed, and no token before it fails to be read. -/
def Unobstructed (childProps parentProps lock : Bool) (address : UInt16 × UInt8 × UInt8) : Prop :=
  ∀ before t after, s.tokenList = before ++ t :: after → isDeviceAt tables updates s address t →
    (∀ t' ∈ before, ¬isDeviceAt tables updates s address t') →
      childProps ∧ parentProps ∧ lock ∧
        ∀ t' ∈ before, hasUpdate tables s t' → (ask updates t').1 = .ok

variable {tables updates s} {address : UInt16 × UInt8 × UInt8}

theorem ask_ok_iff (t : Nat) (p : FpgaProperties OpaePtr) :
    (ask updates t).1 = .ok ↔ ((updates t).apply p).1 = .ok :=
  ⟨fun h => ((updates t).overwrites _ p h).1, fun h => ((updates t).overwrites p _ h).1⟩

theorem raised_none {s' : Shell} (htokens : s'.tokens = s.tokens)
    (hlist : s'.tokenList = s.tokenList) : Raised s none s' := by
  refine ⟨hlist, fun t => ?_⟩
  rw [htokens]
  simp

theorem opaeUprefWrappedToken_raised (s' : Shell) {t : Nat} {wt : OpaeWrappedToken}
    (hwt : s.tokens.get t = some wt) (hne : wt.refCount ≠ 0) (htokens : s'.tokens = s.tokens)
    (hlist : s'.tokenList = s.tokenList) :
    ∃ s'', opaeUprefWrappedToken s' t = some s'' ∧ Raised s (some t) s'' := by
  refine ⟨{ s' with tokens := s'.tokens.set t { wt with refCount := wt.refCount + 1 } }, ?_,
    hlist, ?_⟩
  · simp [opaeUprefWrappedToken, htokens, hwt, hne]
  · intro i
    rw [htokens, Slots.get_set hwt]
    by_cases hi : i = t
    · subst hi
      simp [hwt]
    · simp [hi, Ne.symm hi]

theorem findParent_eq {env : ParentEnv} {tokens : List Nat} (hnodup : tokens.Nodup)
    (hlive : ∀ t ∈ tokens, ∃ wt, s.tokens.get t = some wt ∧ wt.refCount ≠ 0)
    {p : FpgaProperties OpaePtr}
    (henv : ∀ t ∈ tokens, env.candidates t = answers tables updates s p tokens t) (s' : Shell)
    (htokens : s'.tokens = s.tokens) (hlist : s'.tokenList = s.tokenList) :
    ∃ s'', findParent tables env address s' tokens =
        some ((tokens.find? (stopsAt tables updates s address)).filter
          (isDeviceAt tables updates s address), s'') ∧
      Raised s ((tokens.find? (stopsAt tables updates s address)).filter
        (isDeviceAt tables updates s address)) s'' := by
  induction tokens generalizing p s' with
  | nil => exact ⟨s', rfl, raised_none htokens hlist⟩
  | cons t rest ih =>
    obtain ⟨hfresh, hnodup⟩ := List.nodup_cons.mp hnodup
    obtain ⟨⟨wt, hwt, hne⟩, hlive⟩ := List.forall_mem_cons.mp hlive
    obtain ⟨hhead, htail⟩ := List.forall_mem_cons.mp henv
    rw [answers, if_pos rfl] at hhead
    have hrest : ∀ i ∈ rest, env.candidates i = answers tables updates s
        (if hasUpdate tables s t then ((updates t).apply p).2 else p) rest i := by
      intro i hi
      rw [htail i hi, answers, if_neg]
      rintro rfl
      exact hfresh hi
    have hentry : hasUpdate tables s t = tables wt.adapterTable .fpgaUpdateProperties := by
      rw [hasUpdate, hwt, Option.any_some]
    rw [findParent, htokens, hwt, Option.bind_eq_bind, Option.bind_some]
    cases hf : tables wt.adapterTable .fpgaUpdateProperties with
    | false =>
      have hstop : ¬stopsAt tables updates s address t = true := by
        simp [stopsAt, hentry, hf]
      rw [List.find?_cons_of_neg hstop]
      exact ih hnodup hlive hrest s' htokens hlist
    | true =>
      obtain ⟨⟨res, props⟩, hanswer⟩ : ∃ answer, (updates t).apply p = answer := ⟨_, rfl⟩
      have hover := (updates t).overwrites p opaePropertiesCreate
      have hread : (ask updates t).1 = .ok ↔ ((updates t).apply p).1 = .ok := ask_ok_iff t p
      rw [hanswer] at hhead hread hover
      rw [if_neg (by decide), hhead]
      by_cases hok : res = .ok
      · subst hok
        have haddress : addressAndType (ask updates t).2 = addressAndType props := (hover rfl).2
        by_cases hdevice : addressAndType props = some (address, .device)
        · have hstop : stopsAt tables updates s address t = true := by
            simp [stopsAt, hentry, hf, haddress, hdevice]
          have hfound : isDeviceAt tables updates s address t = true := by
            simp [isDeviceAt, hentry, hf, hread, haddress, hdevice]
          obtain ⟨s'', hs'', hraised⟩ := opaeUprefWrappedToken_raised
            (dispatch s' wt.adapterTable .fpgaUpdateProperties [wt.opaeToken]) hwt hne htokens hlist
          rw [List.find?_cons_of_pos hstop, Option.filter_some, if_pos hfound]
          exact ⟨s'', by simp [hdevice, hs''], hraised⟩
        · have hstop : ¬stopsAt tables updates s address t = true := by
            simp [stopsAt, hentry, hf, hread, haddress, hdevice]
          obtain ⟨s'', hs'', hraised⟩ := ih hnodup hlive hrest
            (dispatch s' wt.adapterTable .fpgaUpdateProperties [wt.opaeToken]) htokens hlist
          rw [List.find?_cons_of_neg hstop]
          exact ⟨s'', by simp [hdevice, hs''], hraised⟩
      · have hstop : stopsAt tables updates s address t = true := by
          simp [stopsAt, hentry, hf, mt hread.mp hok]
        have hnot : ¬isDeviceAt tables updates s address t = true := by
          simp [isDeviceAt, mt hread.mp hok]
        rw [List.find?_cons_of_pos hstop, Option.filter_some, if_neg hnot]
        exact ⟨dispatch s' wt.adapterTable .fpgaUpdateProperties [wt.opaeToken], by simp [hok],
          raised_none htokens hlist⟩

theorem isDeviceAt_stops {t : Nat} (h : isDeviceAt tables updates s address t = true) :
    stopsAt tables updates s address t = true := by
  rw [isDeviceAt, Bool.and_eq_true, Bool.and_eq_true] at h
  obtain ⟨⟨hentry, -⟩, haddress⟩ := h
  rw [stopsAt, hentry, haddress, Bool.or_true, Bool.and_true]

theorem not_stopsAt_iff {t : Nat} (h : ¬isDeviceAt tables updates s address t = true) :
    ¬stopsAt tables updates s address t = true ↔
      (hasUpdate tables s t = true → (ask updates t).1 = .ok) := by
  rw [isDeviceAt] at h
  rw [stopsAt]
  by_cases hentry : hasUpdate tables s t = true <;> by_cases hok : (ask updates t).1 = .ok
  all_goals simp_all

theorem opaeGetParentToken_none (updates : Nat → Updater) {childProps parentProps lock : Bool}
    {child : Nat}
    (hentry : hasUpdate tables s child = true)
    (henv : ¬(childProps = true ∧ parentProps = true ∧ lock = true)) :
    ∃ s', opaeGetParentToken tables (parentEnv tables updates s childProps parentProps lock child)
        s child = some (none, s') ∧ Raised s none s' := by
  obtain ⟨wt, hwt, hf⟩ := (Option.any_eq_true _ _).mp hentry
  by_cases hprops : childProps = true ∧ parentProps = true
  · obtain ⟨rfl, rfl⟩ := hprops
    have hlock : lock = false := by simpa using henv
    refine ⟨dispatch s wt.adapterTable .fpgaUpdateProperties [wt.opaeToken], ?_,
      raised_none rfl rfl⟩
    simp only [opaeGetParentToken, hwt, hf, parentEnv, hlock, Option.bind_eq_bind,
      Option.bind_some, Bool.not_true, Bool.or_false, Bool.false_eq_true, if_false]
    split
    · split <;> rfl
    · rfl
  · refine ⟨s, ?_, raised_none rfl rfl⟩
    have hnot : (!childProps || !parentProps) = true := by
      revert hprops
      cases childProps <;> cases parentProps <;> simp
    simp [opaeGetParentToken, hwt, parentEnv, hnot]

variable {ow : Nat → Nat} (h : Holds s ow)
include h

theorem opaeGetParentToken_eq {child : Nat} (hentry : hasUpdate tables s child = true)
    (hok : (ask updates child).1 = .ok)
    (haddress : addressAndType (ask updates child).2 = some (address, .accelerator)) :
    ∃ s', opaeGetParentToken tables (parentEnv tables updates s true true true child) s child =
        some ((s.tokenList.find? (stopsAt tables updates s address)).filter
          (isDeviceAt tables updates s address), s') ∧
      Raised s ((s.tokenList.find? (stopsAt tables updates s address)).filter
        (isDeviceAt tables updates s address)) s' := by
  obtain ⟨wt, hwt, hf⟩ := (Option.any_eq_true _ _).mp hentry
  obtain ⟨⟨res, props⟩, hask⟩ : ∃ answer, ask updates child = answer := ⟨_, rfl⟩
  rw [hask] at hok haddress
  subst hok
  have hlive : ∀ t ∈ s.tokenList, ∃ wt, s.tokens.get t = some wt ∧ wt.refCount ≠ 0 := by
    intro t ht
    obtain ⟨wt, hwt⟩ := Option.isSome_iff_exists.mp ((Counted.mem_iff h t).mp ht)
    obtain ⟨hrefs, hpos⟩ := Counted.live h t wt hwt
    refine ⟨wt, hwt, ?_⟩
    intro hzero
    rw [hzero, UInt32.toNat_zero] at hrefs
    omega
  have henv : ∀ t ∈ s.tokenList, (parentEnv tables updates s true true true child).candidates t =
      answers tables updates s opaePropertiesCreate s.tokenList t := fun t _ => rfl
  obtain ⟨s', hs', hraised⟩ := findParent_eq (Counted.nodup h) hlive henv
    (dispatch s wt.adapterTable .fpgaUpdateProperties [wt.opaeToken]) rfl rfl
  refine ⟨s', ?_, hraised⟩
  simpa [opaeGetParentToken, hwt, hf, parentEnv, hask, haddress] using hs'

/-- The lookup is complete unless a token that cannot be read stands before the parent. -/
theorem parent_lookup_iff (childProps parentProps lock : Bool) {child : Nat}
    (hentry : hasUpdate tables s child = true) (hok : (ask updates child).1 = .ok)
    (haddress : addressAndType (ask updates child).2 = some (address, .accelerator)) :
    Complete tables updates s (parentEnv tables updates s childProps parentProps lock child) child
        address ↔
      Unobstructed tables updates s childProps parentProps lock address := by
  have hlists := find?_filter_eq_iff (p := isDeviceAt tables updates s address)
    (q := stopsAt tables updates s address) (fun t => isDeviceAt_stops) (l := s.tokenList)
  by_cases henv : childProps = true ∧ parentProps = true ∧ lock = true
  · obtain ⟨rfl, rfl, rfl⟩ := henv
    obtain ⟨s', hs', hraised⟩ := opaeGetParentToken_eq h hentry hok haddress
    constructor
    · rintro ⟨s'', hs'', -⟩ before t after hl ht hbefore
      have hfound := (Prod.mk.inj (Option.some.inj (hs'.symm.trans hs''))).1
      have hstops := hlists.mp hfound before t after hl ht hbefore
      exact ⟨rfl, rfl, rfl, fun t' ht' => (not_stopsAt_iff (hbefore t' ht')).mp (hstops t' ht')⟩
    · intro hclear
      have hfound := hlists.mpr fun before t after hl ht hbefore t' ht' =>
        (not_stopsAt_iff (hbefore t' ht')).mpr ((hclear before t after hl ht hbefore).2.2.2 t' ht')
      rw [hfound] at hs' hraised
      exact ⟨s', hs', hraised⟩
  · obtain ⟨s', hs', hraised⟩ := opaeGetParentToken_none updates hentry henv
    constructor
    · rintro ⟨s'', hs'', -⟩ before t after hl ht hbefore
      have hfound := (Prod.mk.inj (Option.some.inj (hs'.symm.trans hs''))).1
      exact absurd ht (List.find?_eq_none.mp hfound.symm t (by simp [hl]))
    · intro hclear
      have hnone : s.tokenList.find? (isDeviceAt tables updates s address) = none := by
        by_contra hsome
        obtain ⟨t, ht⟩ := Option.ne_none_iff_exists'.mp hsome
        obtain ⟨ht, before, after, hl, hbefore⟩ := List.find?_eq_some_iff_append.mp ht
        obtain ⟨hc, hp, hlk, -⟩ := hclear before t after hl ht fun t' ht' => by
          simpa using hbefore t' ht'
        exact henv ⟨hc, hp, hlk⟩
      rw [Complete, hnone]
      exact ⟨s', hs', hraised⟩

end Lookup

section Sample

open OpaeLibs.PluginVfio.Properties (VfioToken)

def sampleTables : Tables := fun _ _ => true

def sampleShell : Shell :=
  { start with
    tokens := ((Slots.empty.alloc ⟨some ⟨0, 10⟩, 1, 0⟩).alloc ⟨some ⟨0, 11⟩, 1, 0⟩).alloc
      ⟨some ⟨0, 12⟩, 1, 0⟩
    tokenList := [2, 1, 0] }

def sampleToken (type : FpgaObjtype) : VfioToken :=
  ⟨Vector.replicate 16 0, Vector.replicate 16 0,
    ⟨"0000:3b:00.0", ⟨0, 0x3b, 0, 0⟩, 0x8086, 0xbcce, 0⟩, 0, 1, 0, 1, type⟩

def sampleUpdates (gone t : Nat) : Updater :=
  if t = gone then ofPlugin (.xfpga UpdateAtomicity.sampleView)
  else if t = 2 then ofPlugin (.vfio (some (sampleToken .accelerator)))
  else ofPlugin (.vfio (some (sampleToken .device)))

theorem holds_sampleShell : Holds sampleShell fun j => 0 + one 0 j + one 1 j + one 2 j := by
  have hempty := counted_empty fun wt : OpaeWrappedToken => wt.refCount.toNat
  have hfirst := hempty.alloc (a := ⟨some ⟨0, 10⟩, 1, 0⟩) rfl fun _ => rfl
  have hsecond := hfirst.alloc (a := ⟨some ⟨0, 11⟩, 1, 0⟩) rfl fun _ => rfl
  exact hsecond.alloc (a := ⟨some ⟨0, 12⟩, 1, 0⟩) rfl fun _ => rfl

theorem parent_lookup_sample :
    Complete sampleTables (sampleUpdates 0) sampleShell
      (parentEnv sampleTables (sampleUpdates 0) sampleShell true true true 2) 2 (0, 0x3b, 0) := by
  refine (parent_lookup_iff holds_sampleShell true true true (by decide) (by decide)
    (by decide)).mpr ?_
  intro before t after hl _ hbefore
  refine ⟨rfl, rfl, rfl, ?_⟩
  rcases before with _ | ⟨a, _ | ⟨b, before⟩⟩
  · exact fun t' ht' => nomatch ht'
  · obtain ⟨rfl, -⟩ := List.cons.inj hl
    decide
  · obtain ⟨rfl, hrest⟩ := List.cons.inj hl
    obtain ⟨rfl, -⟩ := List.cons.inj hrest
    exact absurd (by decide) (hbefore 1 (by simp))

/-- The token that has gone stands before the device, which is then not found. -/
theorem gone_token_hides_parent :
    Holds sampleShell (fun j => 0 + one 0 j + one 1 j + one 2 j) ∧
    (ask (sampleUpdates 1) 2).1 = .ok ∧
    addressAndType (ask (sampleUpdates 1) 2).2 = some ((0, 0x3b, 0), .accelerator) ∧
    0 ∈ sampleShell.tokenList ∧
    isDeviceAt sampleTables (sampleUpdates 1) sampleShell (0, 0x3b, 0) 0 = true ∧
    ∃ s', opaeGetParentToken sampleTables
      (parentEnv sampleTables (sampleUpdates 1) sampleShell true true true 2) sampleShell 2 =
        some (none, s') :=
  ⟨holds_sampleShell, by decide, by decide, by decide, by decide, _, rfl⟩

end Sample

end OpaeLibs.OpaeC.ParentLookup
