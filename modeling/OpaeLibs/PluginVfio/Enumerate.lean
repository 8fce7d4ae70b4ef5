import OpaeLibs.PluginVfio.Properties

namespace OpaeLibs.PluginVfio.Enumerate

open OpaeLibs.OpaeC.Props OpaeLibs.PluginVfio.Properties

/-- A token on a device's list, with what is read of its parent. -/
structure KnownToken extends VfioToken where
  parent : Option VfioToken
deriving DecidableEq, Repr

/-- A device with the tokens that its walk leaves on its list. -/
structure KnownDevice where
  device : PciDevice
  tokens : List KnownToken
  owned : ∀ t ∈ tokens, t.device = device

/-- A filter's parent is a token of the plugin wherever it is valid. -/
structure Filter where
  props : FpgaProperties VfioToken
  parent_isSome : fieldValid props fpgaPropertyParent → props.parent.isSome

def pciMatchesFilter (filter : Filter) (dev : PciDevice) : Bool :=
  let p := filter.props
  if fieldValid p fpgaPropertySegment ∧ p.segment ≠ dev.bdf.segment then false
  else if fieldValid p fpgaPropertyBus ∧ p.bus ≠ dev.bdf.bus then false
  else if fieldValid p fpgaPropertyDevice ∧
      p.device ≠ UInt8.ofBitVec (dev.bdf.device.setWidth 8) then false
  else if fieldValid p fpgaPropertyFunction ∧
      p.function ≠ UInt8.ofBitVec (dev.bdf.function.setWidth 8) then false
  else if fieldValid p fpgaPropertySocketid ∧ p.socketId.toUInt32 ≠ dev.numaNode then false
  else true

def pciMatchesFilters (filters : Option (List Filter)) (dev : PciDevice) : Bool :=
  match filters with
  | none => true
  | some fs => fs.any fun f => pciMatchesFilter f dev

def parentMatches (p : FpgaProperties VfioToken) (t : KnownToken) : Bool :=
  match t.type, t.parent, p.parent with
  | .accelerator, some tParent, some fParent =>
    tParent.device.bdf.bdf = fParent.device.bdf.bdf && tParent.region = fParent.region
  | _, _, _ => false

def matchesFilter (filter : Filter) (t : KnownToken) : Bool :=
  let p := filter.props
  if fieldValid p fpgaPropertyParent ∧ !parentMatches p t then false
  else if fieldValid p fpgaPropertyObjtype ∧ p.objtype ≠ t.type then false
  else if fieldValid p fpgaPropertyGuid ∧ p.guid ≠ t.guid then false
  else true

def matchesFilters (filters : Option (List Filter)) (t : KnownToken) : Bool :=
  match filters with
  | none => true
  | some fs => fs.any fun f => matchesFilter f t

/-- What has been stored through `tokens` and how many tokens have matched. No process holds `2^32`
of them. -/
structure Found where
  tokens : List (Option KnownToken)
  numMatches : Nat
deriving DecidableEq, Repr

section

variable (clone : Nat → KnownToken → Option KnownToken) (filters : Option (List Filter))
  (maxTokens : UInt32)

/-- `clone` is `clone_token`, which is `NULL` if it runs out of memory. -/
def visitToken (found : Found) (t : KnownToken) : Found :=
  if matchesFilters filters t then
    if found.numMatches < maxTokens.toNat then
      ⟨found.tokens ++ [clone found.numMatches t], found.numMatches + 1⟩
    else { found with numMatches := found.numMatches + 1 }
  else found

def visitDevice (found : Found) (dev : KnownDevice) : Found :=
  if pciMatchesFilters filters dev.device then
    dev.tokens.foldl (visitToken clone filters maxTokens) found
  else found

def vfioFpgaEnumerate (devices : List KnownDevice) : List (Option KnownToken) × UInt32 :=
  let found := devices.foldl (visitDevice clone filters maxTokens) ⟨[], 0⟩
  (found.tokens, UInt32.ofNat found.numMatches)

end

/-- The tokens that pass both scans, in the order of the lists. -/
def reports (filters : Option (List Filter)) (devices : List KnownDevice) : List KnownToken :=
  devices.flatMap fun dev =>
    if pciMatchesFilters filters dev.device then
      dev.tokens.filter fun t => matchesFilters filters t
    else []

section

variable {clone : Nat → KnownToken → Option KnownToken} {filters : Option (List Filter)}
  {maxTokens : UInt32}

/-- `ts` are the tokens that have matched so far. -/
structure Stores (clone : Nat → KnownToken → Option KnownToken) (maxTokens : UInt32)
    (ts : List KnownToken) (found : Found) : Prop where
  numMatches : found.numMatches = ts.length
  tokens : found.tokens = (ts.take maxTokens.toNat).mapIdx clone

theorem Stores.visitToken {ts : List KnownToken} {found : Found}
    (h : Stores clone maxTokens ts found) (t : KnownToken) :
    Stores clone maxTokens (ts ++ [t].filter fun t => matchesFilters filters t)
      (visitToken clone filters maxTokens found t) := by
  rw [Enumerate.visitToken]
  by_cases hm : matchesFilters filters t = true
  · rw [if_pos hm, List.filter_cons_of_pos hm, List.filter_nil]
    by_cases hlt : found.numMatches < maxTokens.toNat
    · rw [if_pos hlt]
      have hlen : ts.length < maxTokens.toNat := h.numMatches ▸ hlt
      refine ⟨by simp [h.numMatches], ?_⟩
      rw [h.tokens, h.numMatches, List.take_of_length_le (by omega),
        List.take_of_length_le (by simp; omega), List.mapIdx_append]
      simp
    · rw [if_neg hlt]
      have hlen : maxTokens.toNat ≤ ts.length := h.numMatches ▸ Nat.not_lt.mp hlt
      exact ⟨by simp [h.numMatches], by rw [h.tokens, List.take_append_of_le_length hlen]⟩
  · rw [if_neg hm, List.filter_cons_of_neg hm, List.filter_nil, List.append_nil]
    exact h

theorem Stores.visitTokens {ts : List KnownToken} {found : Found}
    (h : Stores clone maxTokens ts found) (tokens : List KnownToken) :
    Stores clone maxTokens (ts ++ tokens.filter fun t => matchesFilters filters t)
      (tokens.foldl (Enumerate.visitToken clone filters maxTokens) found) := by
  induction tokens generalizing ts found with
  | nil => simpa using h
  | cons t rest ih =>
    have hstep : Stores clone maxTokens (ts ++ [t].filter fun t => matchesFilters filters t)
        (Enumerate.visitToken clone filters maxTokens found t) := h.visitToken t
    have hrest := ih hstep
    rwa [List.append_assoc, ← List.filter_append] at hrest

theorem Stores.visitDevices {ts : List KnownToken} {found : Found}
    (h : Stores clone maxTokens ts found) (devices : List KnownDevice) :
    Stores clone maxTokens (ts ++ reports filters devices)
      (devices.foldl (visitDevice clone filters maxTokens) found) := by
  induction devices generalizing ts found with
  | nil => simpa [reports] using h
  | cons dev rest ih =>
    rw [List.foldl_cons, reports, List.flatMap_cons, ← List.append_assoc]
    refine ih ?_
    rw [visitDevice]
    split
    · exact h.visitTokens dev.tokens
    · simpa using h

end

theorem vfioFpgaEnumerate_eq (clone : Nat → KnownToken → Option KnownToken)
    (filters : Option (List Filter)) (maxTokens : UInt32) (devices : List KnownDevice) :
    vfioFpgaEnumerate clone filters maxTokens devices =
      (((reports filters devices).take maxTokens.toNat).mapIdx clone,
        UInt32.ofNat (reports filters devices).length) := by
  have h : Stores clone maxTokens ([] ++ reports filters devices)
      (devices.foldl (visitDevice clone filters maxTokens) ⟨[], 0⟩) :=
    Stores.visitDevices ⟨rfl, by simp⟩ devices
  rw [List.nil_append] at h
  rw [vfioFpgaEnumerate, h.tokens, h.numMatches]

theorem mem_reports {filters : Option (List Filter)} {devices : List KnownDevice}
    {dev : KnownDevice} (hdev : dev ∈ devices) {t : KnownToken} (ht : t ∈ dev.tokens) :
    t ∈ reports filters devices ↔
      pciMatchesFilters filters t.device = true ∧ matchesFilters filters t = true := by
  rw [reports, List.mem_flatMap]
  constructor
  · rintro ⟨dev', -, hmem⟩
    split at hmem
    · next hpci =>
      obtain ⟨ht', hm⟩ := List.mem_filter.mp hmem
      exact ⟨dev'.owned t ht' ▸ hpci, hm⟩
    · cases hmem
  · rintro ⟨hpci, hm⟩
    rw [dev.owned t ht] at hpci
    exact ⟨dev, hdev, by rw [if_pos hpci]; exact List.mem_filter.mpr ⟨ht, hm⟩⟩

end OpaeLibs.PluginVfio.Enumerate
