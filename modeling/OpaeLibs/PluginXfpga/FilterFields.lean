import OpaeLibs.PluginXfpga.Enumerate

namespace OpaeLibs.PluginXfpga.FilterFields

open OpaeLibs.Lib.Bits OpaeLibs.OpaeC.Props OpaeLibs.PluginXfpga.Properties
  OpaeLibs.PluginXfpga.Enumerate

section Reading

variable {τ : Type} {t : TokenView} {p q : FpgaProperties τ}

theorem passes_iff {f : Nat} {same : Bool} :
    passes p f same = true ↔ (fieldValid p f → same = true) := by
  rw [passes, Bool.or_eq_true, Bool.not_eq_true', decide_eq_false_iff_not, imp_iff_not_or]

theorem fieldValid_assign {f g : Nat} (hf : f < 64) {w : FpgaProperties τ → FpgaProperties τ}
    (hw : (w p).validFields = p.validFields) :
    fieldValid (assign f w p) g ↔ f = g ∨ fieldValid p g := by
  rw [fieldValid_of_set (p := w p) hf rfl, fieldValid, hw]
  rfl

theorem fieldValid_readAfuGuid {v : AfuView} {f : Nat} (hf : fpgaPropertyGuid ≠ f) :
    fieldValid (readAfuGuid p v) f ↔ fieldValid p f := by
  rw [readAfuGuid]
  split
  · rw [fieldValid_of_set (p := { p with guid := v.guid.2 }) (by decide) rfl]
    exact or_iff_right hf
  · rw [fieldValid_of_clear (p := { p with guid := v.guid.2 }) rfl]
    exact and_iff_right hf

theorem fieldValid_storeAfu {v : AfuView} {f : Nat}
    (hf : f ≠ fpgaPropertyParent ∧ f ≠ fpgaPropertyObjtype ∧ f ≠ fpgaPropertyGuid) :
    fieldValid (storeAfu p v) f ↔ fieldValid p f := by
  obtain ⟨hparent, htype, hguid⟩ := hf
  have hset : fieldValid (storeAfu p v) f ↔ fpgaPropertyObjtype = f ∨
      fieldValid (clearFieldValid (readAfuGuid p v) fpgaPropertyParent) f :=
    fieldValid_of_set (by decide) rfl
  rw [hset, or_iff_right htype.symm, fieldValid_of_clear rfl, and_iff_right hparent.symm,
    fieldValid_readAfuGuid hguid.symm]

theorem readIds_ok (h : readIds t p = .ok q) : ∃ vendor device,
    t.vendor = .ok vendor ∧ t.device = .ok device ∧
    q = assign fpgaPropertyDeviceid (fun p => { p with deviceId := device.toUInt16 })
      (assign fpgaPropertyVendorid (fun p => { p with vendorId := vendor.toUInt16 }) p) := by
  rw [readIds] at h
  cases hv : t.vendor with
  | error res =>
    rw [hv] at h
    exact nomatch h
  | ok vendor =>
    cases hd : t.device with
    | error res =>
      rw [hv, hd] at h
      exact nomatch h
    | ok device =>
      rw [hv, hd] at h
      cases hsep : t.separator with
      | false =>
        rw [hsep] at h
        exact nomatch h
      | true =>
        rw [hsep] at h
        exact ⟨vendor, device, rfl, rfl, (Except.ok.inj h).symm⟩

theorem readFme_ok {v : FmeView} (h : readFme p v = .ok q) : ∃ id slots bbs,
    v.interfaceId = .ok id ∧ v.numSlots = some slots ∧ v.bitstreamId = some bbs ∧
    q = storeFme p id slots bbs := by
  rw [readFme] at h
  cases hid : v.interfaceId with
  | error res =>
    rw [hid] at h
    exact nomatch h
  | ok id =>
    cases hslots : v.numSlots with
    | none =>
      rw [hid, hslots] at h
      exact nomatch h
    | some slots =>
      cases hbbs : v.bitstreamId with
      | none =>
        rw [hid, hslots, hbbs] at h
        exact nomatch h
      | some bbs =>
        rw [hid, hslots, hbbs] at h
        exact ⟨id, slots, bbs, rfl, rfl, rfl, (Except.ok.inj h).symm⟩

theorem readAddress_ok (h : readAddress t p = .ok q) : ∃ s b d f, t.sbdf = .ok (s, b, d, f) ∧
    q = assign fpgaPropertyNumErrors (fun p => { p with numErrors := t.numErrors })
      (readObjectId t (readSocketId t
        (assign fpgaPropertyFunction (fun p => { p with function := UInt8.ofInt f })
          (assign fpgaPropertyDevice (fun p => { p with device := UInt8.ofInt d })
            (assign fpgaPropertyBus (fun p => { p with bus := UInt8.ofInt b })
              (assign fpgaPropertySegment (fun p => { p with segment := UInt16.ofInt s })
                p)))))) := by
  rw [readAddress] at h
  cases hsbdf : t.sbdf with
  | error res =>
    rw [hsbdf] at h
    exact nomatch h
  | ok addr =>
    rw [hsbdf] at h
    exact ⟨_, _, _, _, rfl, (Except.ok.inj h).symm⟩

theorem readProperties_ok (h : readProperties t = .ok q) : ∃ p r : FpgaProperties τ,
    readIds t opaePropertiesCreate = .ok p ∧ readObject t p = .ok r ∧
    readAddress t r = .ok q := by
  rw [readProperties] at h
  cases hids : readIds t (opaePropertiesCreate : FpgaProperties τ) with
  | error res =>
    rw [hids] at h
    exact nomatch h
  | ok p =>
    rw [hids] at h
    change (readObject t p >>= readAddress t) = .ok q at h
    cases hobj : readObject t p with
    | error res =>
      rw [hobj] at h
      exact nomatch h
    | ok r =>
      rw [hobj] at h
      exact ⟨p, r, rfl, hobj, h⟩

theorem not_fieldValid_readObject (hids : readIds t opaePropertiesCreate = .ok p)
    (hobj : readObject t p = .ok q) : ¬fieldValid q fpgaPropertySocketid := by
  have hp : ¬fieldValid p fpgaPropertySocketid := by
    obtain ⟨vendor, device, -, -, rfl⟩ := readIds_ok hids
    rw [fieldValid_assign (by decide) rfl, fieldValid_assign (by decide) rfl, not_or, not_or]
    exact ⟨by decide, by decide, not_hasBit_zero (by decide)⟩
  have hafu (v : AfuView) : ¬fieldValid (readAfu p v) fpgaPropertySocketid := by
    have hstore := (fieldValid_storeAfu (v := v) (by decide)).not.mpr hp
    rw [readAfu]
    rcases v.port with - | - | info
    · rw [assignU, fieldValid_assign (by decide) rfl, or_iff_right (by decide)]
      exact hstore
    · dsimp only
      rw [assignU, fieldValid_assign (by decide) rfl, or_iff_right (by decide)]
      exact hstore
    · dsimp only
      rw [assignU, fieldValid_assign (by decide) rfl, or_iff_right (by decide), readPort]
      split
      · rw [assignU, fieldValid_assign (by decide) rfl, or_iff_right (by decide), assignU,
          fieldValid_assign (by decide) rfl, or_iff_right (by decide)]
        exact hstore
      · rw [assignU, fieldValid_assign (by decide) rfl, or_iff_right (by decide)]
        exact hstore
  have hfme {r : FpgaProperties τ} (v : FmeView) (hr : readFme r v = .ok q)
      (h : ¬fieldValid r fpgaPropertySocketid) : ¬fieldValid q fpgaPropertySocketid := by
    obtain ⟨id, slots, bbs, -, -, -, rfl⟩ := readFme_ok hr
    rw [storeFme, assignU, assignU, assignU]
    iterate 5 rw [fieldValid_assign (by decide) rfl, or_iff_right (by decide)]
    exact h
  rw [readObject] at hobj
  cases ha : t.afu <;> cases hf : t.fme <;> rw [ha, hf] at hobj
  · exact Except.ok.inj hobj ▸ hp
  · exact hfme _ hobj hp
  · exact Except.ok.inj hobj ▸ hafu _
  · exact hfme _ hobj (hafu _)

theorem socketId_readProperties (hp : readProperties t = .ok q) {x : UInt8} :
    (fieldValid q fpgaPropertySocketid → q.socketId = x) ↔
      ∀ v, t.socketId = some v → v.toUInt8 = x := by
  obtain ⟨p, r, hids, hobj, haddr⟩ := readProperties_ok hp
  have hr := not_fieldValid_readObject hids hobj
  obtain ⟨s, b, d, f, -, rfl⟩ := readAddress_ok haddr
  have hobject (p : FpgaProperties τ) :
      (fieldValid (readObjectId t p) fpgaPropertySocketid ↔ fieldValid p fpgaPropertySocketid) ∧
        (readObjectId t p).socketId = p.socketId := by
    rw [readObjectId]
    split
    · exact ⟨(fieldValid_assign (by decide) rfl).trans (or_iff_right (by decide)), rfl⟩
    · exact ⟨.rfl, rfl⟩
  obtain ⟨a, ha⟩ : ∃ a, a = assign fpgaPropertyFunction
      (fun p => { p with function := UInt8.ofInt f })
      (assign fpgaPropertyDevice (fun p => { p with device := UInt8.ofInt d })
        (assign fpgaPropertyBus (fun p => { p with bus := UInt8.ofInt b })
          (assign fpgaPropertySegment (fun p => { p with segment := UInt16.ofInt s }) r))) :=
    ⟨_, rfl⟩
  have hfalse : ¬fieldValid a fpgaPropertySocketid := by
    rw [ha]
    iterate 4 rw [fieldValid_assign (by decide) rfl, or_iff_right (by decide)]
    exact hr
  rw [← ha, fieldValid_assign (by decide) rfl, or_iff_right (by decide), (hobject _).1]
  change (_ → (readObjectId t (readSocketId t a)).socketId = _) ↔ _
  rw [(hobject _).2, readSocketId]
  cases hs : t.socketId with
  | none => exact iff_of_true (fun h => absurd h hfalse) nofun
  | some v =>
    have hvalid : fieldValid (assign fpgaPropertySocketid
        (fun p => { p with socketId := v.toUInt8 }) a) fpgaPropertySocketid :=
      (fieldValid_assign (by decide) rfl).mpr (.inl rfl)
    dsimp only
    rw [forall_prop_of_true hvalid]
    exact ⟨fun h w hw => Option.some_inj.mp hw ▸ h, fun h => h v rfl⟩

end Reading

section Matching

variable {π δ : Type} [DecidableEq π] (env : EnumEnv π δ)

/-- What an update finds and what enumeration has found are the same for any object. -/
structure Same (n : DevList π δ) (t : TokenView) : Prop where
  vendor : ∀ v, t.vendor = .ok v → n.vendorId = v.toUInt16
  device : ∀ v, t.device = .ok v → n.deviceId = v.toUInt16
  sbdf : ∀ s b d f, t.sbdf = .ok (s, b, d, f) → n.segment = UInt16.ofInt s ∧
    n.bus = UInt8.ofInt b ∧ n.device = UInt8.ofInt d ∧ n.function = UInt8.ofInt f
  objectId : ∀ o, t.objectId = some o → n.sysfspath.bind env.objectidFromPath = some o
  numErrors : (n.sysfspath.elim false fun path => env.countErrorFiles path == t.numErrors) = true

structure SameAfu (n : DevList π δ) (v : AfuView) : Prop where
  objtype : n.objtype = .accelerator
  guid : v.guid.1 = true → n.guid = v.guid.2
  state : n.acceleratorState =
    if v.port.isNone then fpgaAcceleratorAssigned else fpgaAcceleratorUnassigned
  numMmios : ∀ info, v.port = some (some info) → n.acceleratorNumMmios = info.numRegions
  numIrqs : ∀ info, v.port = some (some info) → info.uafuIrqs = true →
    n.acceleratorNumIrqs = info.numUafuIrqs

structure SameFme (n : DevList π δ) (v : FmeView) : Prop where
  objtype : n.objtype = .device
  guid : ∀ g, v.interfaceId = .ok g → n.guid = g
  numSlots : ∀ s, v.numSlots = some s → n.fpgaNumSlots = s.toUInt32
  bitstreamId : ∀ b, v.bitstreamId = some b → n.fpgaBitstreamId = b ∧
    n.fpgaBbsVersion = ⟨fpgaBbsVerMajor b, fpgaBbsVerMinor b, fpgaBbsVerPatch b⟩

/-- What a filter asks of a node by the number of a field, other than the socket id; the fields of
the union are those of the type of the node. -/
def Check (n : DevList π δ) (p : FpgaProperties (FpgaToken π δ)) : Nat → Prop
  | 0 => matchesParent env n p = true
  | 1 => p.objtype = n.objtype
  | 2 => p.segment = n.segment
  | 3 => p.bus = n.bus
  | 4 => p.device = n.device
  | 5 => p.function = n.function
  | 7 => p.vendorId = n.vendorId
  | 8 => p.deviceId = n.deviceId
  | 9 => n.guid = p.guid
  | 10 => n.sysfspath.bind env.objectidFromPath = some p.objectId
  | 11 =>
    (n.sysfspath.elim false fun path => env.countErrorFiles path == p.numErrors) = true
  | 32 =>
    match n.objtype with
    | .device => n.fpgaNumSlots = p.u.numSlots
    | .accelerator => n.acceleratorState = p.u.state
  | 33 =>
    match n.objtype with
    | .device => n.fpgaBitstreamId = p.u.bbsId
    | .accelerator => n.acceleratorNumMmios = p.u.numMmio
  | 34 =>
    match n.objtype with
    | .device => n.fpgaBbsVersion = p.u.bbsVersion
    | .accelerator => n.acceleratorNumIrqs = p.u.numInterrupts
  | _ => True

/-- The filter accepts the node but for its socket id. -/
def Agrees (n : DevList π δ) (p : FpgaProperties (FpgaToken π δ)) : Prop :=
  ∀ f, fieldValid p f → Check env n p f

variable {env} {n : DevList π δ} {t : TokenView} {p q : FpgaProperties (FpgaToken π δ)}

theorem matchesObject_of_agrees (h : Agrees env n p) : matchesObject n p = true := by
  have h1 := h fpgaPropertyObjtype
  have h32 := h 32
  have h33 := h 33
  have h34 := h 34
  rw [matchesObject]
  split
  · next hvalid =>
    have htype : p.objtype = n.objtype := h1 hvalid
    rw [htype]
    cases hn : n.objtype with
    | device =>
      simp only [Check, hn] at h32 h33 h34
      simpa [matchesDevice, passes_iff, hn] using ⟨⟨h32, h33⟩, h34⟩
    | accelerator =>
      simp only [Check, hn] at h32 h33 h34
      simpa [matchesAccelerator, passes_iff, hn] using ⟨⟨h32, h33⟩, h34⟩
  · rfl

theorem matchesFilter_of_agrees (h : Agrees env n p) : matchesFilter env n ⟨true, p⟩ = true ↔
    (fieldValid p fpgaPropertySocketid → p.socketId = n.socketId) := by
  simp only [matchesFilter, Bool.and_eq_true, passes_iff, beq_iff_eq]
  constructor
  · rintro ⟨⟨⟨⟨⟨⟨⟨-, hsocket⟩, -⟩, -⟩, -⟩, -⟩, -⟩, -⟩
    exact hsocket
  · intro hsocket
    exact ⟨⟨⟨⟨⟨⟨⟨⟨⟨⟨⟨⟨⟨trivial, h 0⟩, h 1⟩, h 2⟩, h 3⟩, h 4⟩, h 5⟩, hsocket⟩, h 9⟩, h 10⟩, h 7⟩,
      h 8⟩, h 11⟩, matchesObject_of_agrees h⟩

theorem agrees_create : Agrees env n opaePropertiesCreate :=
  fun _ hf => absurd hf (not_hasBit_zero (by decide))

theorem Agrees.assign (h : Agrees env n p) {f : Nat} (hf : f < 64)
    {w : FpgaProperties (FpgaToken π δ) → FpgaProperties (FpgaToken π δ)}
    (hvalid : (w p).validFields = p.validFields)
    (hsame : ∀ g, g ≠ f → Check env n p g → Check env n (w p) g) (hcheck : Check env n (w p) f) :
    Agrees env n (assign f w p) := by
  intro g hg
  rw [fieldValid_assign hf hvalid] at hg
  change Check env n (w p) g
  by_cases hgf : g = f
  · rw [hgf]
    exact hcheck
  · exact hsame g hgf (h g (hg.resolve_left (Ne.symm hgf)))

theorem Agrees.readIds (h : Agrees env n p) (hs : Same env n t) (hp : readIds t p = .ok q) :
    Agrees env n q := by
  obtain ⟨vendor, device, hv, hd, rfl⟩ := readIds_ok hp
  refine (h.assign (by decide) rfl (fun g hg hc => ?_) ?_).assign (by decide) rfl
    (fun g hg hc => ?_) ?_
  · unfold Check at hc ⊢
    split at hc <;> first | exact absurd rfl hg | exact hc
  · exact (hs.vendor vendor hv).symm
  · unfold Check at hc ⊢
    split at hc <;> first | exact absurd rfl hg | exact hc
  · exact (hs.device device hd).symm

theorem Agrees.readSocketId (h : Agrees env n p) : Agrees env n (readSocketId t p) := by
  rw [Properties.readSocketId]
  split
  · refine h.assign (by decide) rfl (fun g hg hc => ?_) trivial
    unfold Check at hc ⊢
    split at hc <;> exact hc
  · exact h

theorem Agrees.readObjectId (h : Agrees env n p) (hs : Same env n t) :
    Agrees env n (readObjectId t p) := by
  rw [Properties.readObjectId]
  cases ho : t.objectId with
  | none => exact h
  | some o =>
    refine h.assign (by decide) rfl (fun g hg hc => ?_) (hs.objectId o ho)
    unfold Check at hc ⊢
    split at hc <;> first | exact absurd rfl hg | exact hc

theorem Agrees.readAddress (h : Agrees env n p) (hs : Same env n t)
    (hp : readAddress t p = .ok q) : Agrees env n q := by
  obtain ⟨s, b, d, f, hsbdf, rfl⟩ := readAddress_ok hp
  obtain ⟨hseg, hbus, hdev, hfun⟩ := hs.sbdf s b d f hsbdf
  refine Agrees.assign (Agrees.readObjectId (Agrees.readSocketId ?_) hs) (by decide) rfl
    (fun g hg hc => ?_) hs.numErrors
  · refine ((((h.assign (by decide) rfl (fun g hg hc => ?_) ?_).assign (by decide) rfl
      (fun g hg hc => ?_) ?_).assign (by decide) rfl (fun g hg hc => ?_) ?_).assign (by decide) rfl
      (fun g hg hc => ?_) ?_)
    · unfold Check at hc ⊢
      split at hc <;> first | exact absurd rfl hg | exact hc
    · exact hseg.symm
    · unfold Check at hc ⊢
      split at hc <;> first | exact absurd rfl hg | exact hc
    · exact hbus.symm
    · unfold Check at hc ⊢
      split at hc <;> first | exact absurd rfl hg | exact hc
    · exact hdev.symm
    · unfold Check at hc ⊢
      split at hc <;> first | exact absurd rfl hg | exact hc
    · exact hfun.symm
  · unfold Check at hc ⊢
    split at hc <;> first | exact absurd rfl hg | exact hc

theorem Agrees.assignU (h : Agrees env n p) {f : Nat} (hf : f < 64)
    {write : ObjectSpecific → ObjectSpecific}
    (hsame : ∀ g, g ≠ f → Check env n p g → Check env n { p with u := write p.u } g)
    (hcheck : Check env n { p with u := write p.u } f) : Agrees env n (assignU f write p) :=
  h.assign hf rfl hsame hcheck

theorem Agrees.objtype (h : Agrees env n p) : Agrees env n
    (OpaeC.Props.assign fpgaPropertyObjtype (fun p => { p with objtype := n.objtype }) p) := by
  refine h.assign (by decide) rfl (fun g hg hc => ?_) ?_
  · unfold Check at hc ⊢
    split at hc <;> first | exact absurd rfl hg | exact hc
  · rfl

theorem Agrees.guid (h : Agrees env n p) : Agrees env n
    (OpaeC.Props.assign fpgaPropertyGuid (fun p => { p with guid := n.guid }) p) := by
  refine h.assign (by decide) rfl (fun g hg hc => ?_) ?_
  · unfold Check at hc ⊢
    split at hc <;> first | exact absurd rfl hg | exact hc
  · rfl

theorem Agrees.numSlots (h : Agrees env n p) (hn : n.objtype = .device) : Agrees env n
    (Properties.assignU fpgaPropertyNumSlots (fun u => u.setNumSlots n.fpgaNumSlots) p) := by
  refine h.assignU (by decide) (fun g hg hc => ?_) ?_
  · simp only [Check, hn] at hc ⊢
    split at hc <;> first | exact absurd rfl hg | exact hc
  · simp only [Check, hn]
    rfl

theorem Agrees.bbsId (h : Agrees env n p) (hn : n.objtype = .device) : Agrees env n
    (Properties.assignU fpgaPropertyBbsid (fun u => u.setBbsId n.fpgaBitstreamId) p) := by
  refine h.assignU (by decide) (fun g hg hc => ?_) ?_
  · simp only [Check, hn] at hc ⊢
    split at hc <;> first | exact absurd rfl hg | exact hc
  · simp only [Check, hn, ObjectSpecific.bbsId_setBbsId]

theorem Agrees.bbsVersion (h : Agrees env n p) (hn : n.objtype = .device)
    (hid : p.u.bbsId = n.fpgaBitstreamId) (hver : n.fpgaBbsVersion =
      ⟨fpgaBbsVerMajor n.fpgaBitstreamId, fpgaBbsVerMinor n.fpgaBitstreamId,
        fpgaBbsVerPatch n.fpgaBitstreamId⟩) :
    Agrees env n (Properties.assignU fpgaPropertyBbsversion (fun u => u.setBbsVersion
      ⟨fpgaBbsVerMajor u.bbsId, fpgaBbsVerMinor u.bbsId, fpgaBbsVerPatch u.bbsId⟩) p) := by
  refine h.assignU (by decide) (fun g hg hc => ?_) ?_
  · simp only [Check, hn] at hc ⊢
    split at hc <;> first | exact absurd rfl hg | exact hc
  · simp only [Check, hn, hver, hid]
    rfl

theorem Agrees.readFme (h : Agrees env n p) {v : FmeView} (hs : SameFme n v)
    (hp : readFme p v = .ok q) : Agrees env n q := by
  obtain ⟨id, slots, bbs, hid, hslots, hbbs, rfl⟩ := readFme_ok hp
  obtain ⟨hbid, hver⟩ := hs.bitstreamId bbs hbbs
  have hn := hs.objtype
  rw [storeFme, ← hn, ← hs.guid id hid, ← hs.numSlots slots hslots, ← hbid]
  refine ((h.objtype.guid.numSlots hn).bbsId hn).bbsVersion hn ?_ (hbid ▸ hver)
  exact ObjectSpecific.bbsId_setBbsId _ _

theorem Agrees.numMmio (h : Agrees env n p) (hn : n.objtype = .accelerator) : Agrees env n
    (Properties.assignU fpgaPropertyNumMmio (fun u => u.setNumMmio n.acceleratorNumMmios) p) := by
  refine h.assignU (by decide) (fun g hg hc => ?_) ?_
  · simp only [Check, hn] at hc ⊢
    split at hc <;> first | exact absurd rfl hg | exact hc
  · simp only [Check, hn]
    rfl

theorem Agrees.numInterrupts (h : Agrees env n p) (hn : n.objtype = .accelerator) : Agrees env n
    (Properties.assignU fpgaPropertyNumInterrupts
      (fun u => u.setNumInterrupts n.acceleratorNumIrqs) p) := by
  refine h.assignU (by decide) (fun g hg hc => ?_) ?_
  · simp only [Check, hn] at hc ⊢
    split at hc <;> first | exact absurd rfl hg | exact hc
  · simp only [Check, hn]
    rfl

theorem Agrees.state (h : Agrees env n p) (hn : n.objtype = .accelerator) : Agrees env n
    (Properties.assignU fpgaPropertyAcceleratorState (fun u => u.setState n.acceleratorState)
      p) := by
  refine h.assignU (by decide) (fun g hg hc => ?_) ?_
  · simp only [Check, hn] at hc ⊢
    split at hc <;> first | exact absurd rfl hg | exact hc
  · simp only [Check, hn]
    rfl

theorem Agrees.readAfuGuid (h : Agrees env n p) {v : AfuView} (hs : SameAfu n v) :
    Agrees env n (readAfuGuid p v) := by
  rw [Properties.readAfuGuid]
  cases hread : v.guid.1 with
  | true =>
    rw [if_pos rfl, ← hs.guid hread]
    exact h.guid
  | false =>
    rw [if_neg Bool.false_ne_true]
    intro g hg
    obtain ⟨hne, hg⟩ := (fieldValid_of_clear rfl).mp hg
    have hc := h g hg
    unfold Check at hc ⊢
    split at hc <;> first | exact absurd rfl hne | exact hc

theorem Agrees.dropParent (h : Agrees env n p) :
    Agrees env n (clearFieldValid { p with parent := none } fpgaPropertyParent) := by
  intro g hg
  obtain ⟨hne, hg⟩ := (fieldValid_of_clear rfl).mp hg
  have hc := h g hg
  unfold Check at hc ⊢
  split at hc <;> first | exact absurd rfl hne | exact hc

theorem Agrees.clearNumbers (h : Agrees env n p) (hn : n.objtype = .accelerator)
    (hmmio : ¬fieldValid p fpgaPropertyNumMmio) (hirqs : ¬fieldValid p fpgaPropertyNumInterrupts) :
    Agrees env n { p with u := (p.u.setNumMmio 0).setNumInterrupts 0 } := by
  intro g hg
  have hc := h g hg
  simp only [Check, hn] at hc ⊢
  split at hc <;> first | exact absurd hg hmmio | exact absurd hg hirqs | exact hc

theorem Agrees.storeAfu (h : Agrees env n p) {v : AfuView} (hs : SameAfu n v)
    (hmmio : ¬fieldValid p fpgaPropertyNumMmio) (hirqs : ¬fieldValid p fpgaPropertyNumInterrupts) :
    Agrees env n (storeAfu p v) := by
  have hn := hs.objtype
  have hm := (fieldValid_storeAfu (v := v) (by decide)).not.mpr hmmio
  have hi := (fieldValid_storeAfu (v := v) (by decide)).not.mpr hirqs
  rw [Properties.storeAfu, ← hn] at hm hi ⊢
  exact (h.readAfuGuid hs).dropParent.objtype.clearNumbers hn hm hi

theorem Agrees.readAfu (h : Agrees env n p) {v : AfuView} (hs : SameAfu n v)
    (hmmio : ¬fieldValid p fpgaPropertyNumMmio) (hirqs : ¬fieldValid p fpgaPropertyNumInterrupts) :
    Agrees env n (readAfu p v) := by
  have hn := hs.objtype
  have hstate := hs.state
  have hstore := h.storeAfu hs hmmio hirqs
  rw [Properties.readAfu]
  cases hport : v.port with
  | none =>
    rw [hport] at hstate
    rw [show fpgaAcceleratorAssigned = n.acceleratorState from hstate.symm]
    exact hstore.state hn
  | some info =>
    rw [hport] at hstate
    dsimp only
    rw [show fpgaAcceleratorUnassigned = n.acceleratorState from hstate.symm]
    refine Agrees.state ?_ hn
    cases info with
    | none => exact hstore
    | some info =>
      rw [readPort, ← hs.numMmios info hport]
      cases hirq : info.uafuIrqs with
      | false => exact hstore.numMmio hn
      | true =>
        rw [if_pos rfl, ← hs.numIrqs info hport hirq]
        exact (hstore.numMmio hn).numInterrupts hn

theorem agrees_afu (hs : Same env n t) {v : AfuView} (hafu : t.afu = some v) (hfme : t.fme = none)
    (hv : SameAfu n v) (hp : readProperties t = .ok q) : Agrees env n q := by
  obtain ⟨p, r, hids, hobj, haddr⟩ := readProperties_ok hp
  have hnone (f : Nat) (hvendor : fpgaPropertyVendorid ≠ f) (hdevice : fpgaPropertyDeviceid ≠ f) :
      ¬fieldValid p f := by
    obtain ⟨vendor, device, -, -, rfl⟩ := readIds_ok hids
    rw [fieldValid_assign (by decide) rfl, fieldValid_assign (by decide) rfl, not_or, not_or]
    exact ⟨hdevice, hvendor, not_hasBit_zero (by decide)⟩
  rw [readObject, hafu, hfme] at hobj
  obtain rfl := Except.ok.inj hobj
  refine Agrees.readAddress (Agrees.readAfu (agrees_create.readIds hs hids) hv ?_ ?_) hs haddr
  · exact hnone _ (by decide) (by decide)
  · exact hnone _ (by decide) (by decide)

theorem agrees_fme (hs : Same env n t) {v : FmeView} (hafu : t.afu = none) (hfme : t.fme = some v)
    (hv : SameFme n v) (hp : readProperties t = .ok q) : Agrees env n q := by
  obtain ⟨p, r, hids, hobj, haddr⟩ := readProperties_ok hp
  rw [readObject, hafu, hfme] at hobj
  exact ((agrees_create.readIds hs hids).readFme hv hobj).readAddress hs haddr

end Matching

end OpaeLibs.PluginXfpga.FilterFields
