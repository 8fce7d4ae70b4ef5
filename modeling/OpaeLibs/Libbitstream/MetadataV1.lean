import OpaeLibs.Lib.JsonC
import OpaeLibs.Lib.Ownership
import OpaeLibs.OpaeC.Props

namespace OpaeLibs.Libbitstream.MetadataV1

open OpaeLibs.Lib.CStrings OpaeLibs.Lib.Heap OpaeLibs.Lib.JsonC OpaeLibs.Lib.Ownership
open OpaeLibs.OpaeC.Props

abbrev Alloc := Prog (List UInt8)

/-- A pointer to a block, or `NULL`. -/
abbrev Ptr := Option Nat

structure AcceleratorCluster where
  totalContexts : Int
  name : Ptr
  acceleratorTypeUuid : Ptr

/-- The array of the clusters is a block, with its entries. -/
structure AfuImage (δ : Type) where
  clockFrequencyHigh : δ
  clockFrequencyLow : δ
  power : δ
  interfaceUuid : Ptr
  magicNo : Int
  numClusters : Int
  acceleratorClusters : Option (Nat × List AcceleratorCluster)

/-- `self` is the block of the structure. -/
structure Metadata (δ : Type) where
  self : Nat
  version : Int
  afuImage : AfuImage δ
  platformName : Ptr

def clusterInit : AcceleratorCluster := ⟨0, none, none⟩

def imageInit {δ : Type} (zero : δ) : AfuImage δ := ⟨zero, zero, zero, none, 0, 0, none⟩

def opaeLegacyBitstreamMagic : Int := 0x1d1f8680

def keyTotalContexts : CString := ⟨ascii "total-contexts", by decide⟩
def keyName : CString := ⟨ascii "name", by decide⟩
def keyAcceleratorTypeUuid : CString := ⟨ascii "accelerator-type-uuid", by decide⟩
def keyClockFrequencyHigh : CString := ⟨ascii "clock-frequency-high", by decide⟩
def keyClockFrequencyLow : CString := ⟨ascii "clock-frequency-low", by decide⟩
def keyPower : CString := ⟨ascii "power", by decide⟩
def keyMagicNo : CString := ⟨ascii "magic-no", by decide⟩
def keyInterfaceUuid : CString := ⟨ascii "interface-uuid", by decide⟩
def keyAcceleratorClusters : CString := ⟨ascii "accelerator-clusters", by decide⟩
def keyPlatformName : CString := ⟨ascii "platform-name", by decide⟩
def keyAfuImage : CString := ⟨ascii "afu-image", by decide⟩

section Code

variable {δ : Type} (mem : Nat → Bool)

/-- The result, and the value that is then in `*value`. -/
def opaeBitstreamGetJsonInt (parent : Json δ) (name : CString) (value : Int) : FpgaResult × Int :=
  match parent.objectGetEx name with
  | some (.int n) => (.ok, Json.clampInt n)
  | _ => (.exception, value)

def opaeBitstreamGetJsonDouble (parent : Json δ) (name : CString) (value : δ) : FpgaResult × δ :=
  match parent.objectGetEx name with
  | some (.double d) => (.ok, d)
  | _ => (.exception, value)

def opaeBitstreamGetJsonString (parent : Json δ) (name : CString) (value : Ptr) :
    Alloc (FpgaResult × Ptr) :=
  match parent.objectGetEx name with
  | some (.string s) => do
    let p ← malloc mem (cText s).val
    pure (if p.isNone then .noMemory else .ok, p)
  | _ => pure (.exception, value)

/-- A number that may be missing, in one of the three fields that are read in this way. -/
def getNumber (ofInt : Int → δ) (parent : Json δ) (name : CString) (value : δ) : δ :=
  match opaeBitstreamGetJsonDouble parent name value with
  | (.ok, d) => d
  | _ => ofInt (opaeBitstreamGetJsonInt parent name 0).2

def freeName (cluster : AcceleratorCluster) (res : FpgaResult) :
    Alloc (FpgaResult × AcceleratorCluster) := do
  free cluster.name
  pure (res, { cluster with name := none })

def opaeBitstreamParseAcceleratorClusterV1 (jCluster : Json δ) (cluster : AcceleratorCluster) :
    Alloc (FpgaResult × AcceleratorCluster) := do
  let contexts := opaeBitstreamGetJsonInt jCluster keyTotalContexts cluster.totalContexts
  let cluster := { cluster with totalContexts := contexts.2 }
  if contexts.1 ≠ .ok then pure (contexts.1, cluster)
  else
    let name ← opaeBitstreamGetJsonString mem jCluster keyName cluster.name
    let cluster := { cluster with name := name.2 }
    if name.1 ≠ .ok then freeName cluster name.1
    else
      let uuid ← opaeBitstreamGetJsonString mem jCluster keyAcceleratorTypeUuid
        cluster.acceleratorTypeUuid
      let cluster := { cluster with acceleratorTypeUuid := uuid.2 }
      if uuid.1 ≠ .ok then freeName cluster uuid.1 else pure (.ok, cluster)

/-- Rounds of the loop, from an index on. The result, the index and the array. -/
def parseClusters (jClusters : Json δ) :
    Nat → Nat → List AcceleratorCluster → Alloc (FpgaResult × Nat × List AcceleratorCluster)
  | 0, i, clusters => pure (.ok, i, clusters)
  | n + 1, i, clusters => do
    let r ← opaeBitstreamParseAcceleratorClusterV1 mem (jClusters.arrayGetIdx i)
      (clusters.getD i clusterInit)
    let clusters := clusters.set i r.2
    if r.1 ≠ .ok then pure (r.1, i, clusters) else parseClusters jClusters n (i + 1) clusters

/-- The strings of clusters, in the order in which they are freed. -/
def strings (clusters : List AcceleratorCluster) : List Ptr :=
  clusters.flatMap fun cluster => [cluster.name, cluster.acceleratorTypeUuid]

def freeImage (img : AfuImage δ) (i : Nat) (res : FpgaResult) (id : FpgaGuid) :
    Alloc (FpgaResult × AfuImage δ × FpgaGuid) := do
  free img.interfaceUuid
  let img := { img with interfaceUuid := none }
  match img.acceleratorClusters with
  | none => pure (res, img, id)
  | some (p, clusters) =>
    freeAll (strings (clusters.take i))
    free (some p)
    pure (res, { img with acceleratorClusters := none }, id)

/-- `calloc`; a negative number is one that is too large. -/
def callocClusters (numClusters : Int) : Alloc Ptr :=
  if numClusters < 0 then pure none else malloc mem []

/-- From the array of the clusters on. -/
def parseClusterArray (jClusters : Json δ) (elems : List (Json δ)) (img : AfuImage δ)
    (id : FpgaGuid) : Alloc (FpgaResult × AfuImage δ × FpgaGuid) := do
  let img := { img with numClusters := (Int32.ofNat elems.length).toInt }
  match (← callocClusters mem img.numClusters) with
  | none => freeImage img 0 .noMemory id
  | some p =>
    let n := img.numClusters.toNat
    let r ← parseClusters mem jClusters n 0 (List.replicate n clusterInit)
    let img := { img with acceleratorClusters := some (p, r.2.2) }
    if r.1 ≠ .ok then freeImage img r.2.1 r.1 id else pure (.ok, img, id)

/-- `uuidParse` is given the text of a block. -/
def opaeBitstreamParseAfuImageV1 (ofInt : Int → δ) (uuidParse : List UInt8 → Option FpgaGuid)
    (jAfuImage : Json δ) (img : AfuImage δ) (id : FpgaGuid) :
    Alloc (FpgaResult × AfuImage δ × FpgaGuid) := do
  let magic := opaeBitstreamGetJsonInt jAfuImage keyMagicNo img.magicNo
  let img := { img with
    clockFrequencyHigh := getNumber ofInt jAfuImage keyClockFrequencyHigh img.clockFrequencyHigh
    clockFrequencyLow := getNumber ofInt jAfuImage keyClockFrequencyLow img.clockFrequencyLow
    power := getNumber ofInt jAfuImage keyPower img.power
    magicNo := magic.2 }
  if magic.1 ≠ .ok then pure (magic.1, img, id)
  else if img.magicNo ≠ opaeLegacyBitstreamMagic then freeImage img 0 .exception id
  else
    let uuid ← opaeBitstreamGetJsonString mem jAfuImage keyInterfaceUuid img.interfaceUuid
    let img := { img with interfaceUuid := uuid.2 }
    if uuid.1 ≠ .ok then freeImage img 0 uuid.1 id
    else
      let text ← read img.interfaceUuid
      match uuidParse text with
      | none => freeImage img 0 .exception id
      | some id =>
        match jAfuImage.objectGetEx keyAcceleratorClusters with
        | some (.array elems) => parseClusterArray mem (.array elems) elems img id
        | _ => freeImage img 0 .exception id

def freeMetadata (md : Metadata δ) (id : FpgaGuid) : Alloc (Option (Metadata δ) × FpgaGuid) := do
  free md.platformName
  free (some md.self)
  pure (none, id)

def opaeBitstreamParseMetadataV1 (ofInt : Int → δ) (uuidParse : List UInt8 → Option FpgaGuid)
    (root : Json δ) (id : FpgaGuid) : Alloc (Option (Metadata δ) × FpgaGuid) := do
  match (← malloc mem []) with
  | none => pure (none, id)
  | some self =>
    let name ← opaeBitstreamGetJsonString mem root keyPlatformName none
    let md : Metadata δ := ⟨self, 1, imageInit (ofInt 0), name.2⟩
    match root.objectGetEx keyAfuImage with
    | none => freeMetadata md id
    | some jAfuImage =>
      let r ← opaeBitstreamParseAfuImageV1 mem ofInt uuidParse jAfuImage md.afuImage id
      let md := { md with afuImage := r.2.1 }
      if r.1 ≠ .ok then freeMetadata md r.2.2 else pure (some md, r.2.2)

def opaeBitstreamReleaseMetadataV1 (md : Metadata δ) : Alloc Unit := do
  match md.afuImage.acceleratorClusters with
  | none => pure ()
  | some (p, clusters) =>
    freeAll (strings (clusters.take md.afuImage.numClusters.toNat))
    free (some p)
  free md.afuImage.interfaceUuid
  free md.platformName
  free (some md.self)

end Code

section Rules

variable {δ : Type} {base : Slots (List UInt8)} {s : Store (List UInt8)} {ids : List Nat}

def stringBlocks (clusters : List AcceleratorCluster) : List Nat :=
  (strings clusters).flatMap Option.toList

/-- The blocks of an image, of whose clusters the first `i` have strings. -/
def imageBlocks (img : AfuImage δ) (i : Nat) : List Nat :=
  img.interfaceUuid.toList ++ match img.acceleratorClusters with
    | none => []
    | some (p, clusters) => stringBlocks (clusters.take i) ++ [p]

def metadataBlocks (md : Metadata δ) : List Nat :=
  imageBlocks md.afuImage md.afuImage.numClusters.toNat ++ (md.platformName.toList ++ [md.self])

theorem stringBlocks_append (clusters clusters' : List AcceleratorCluster) :
    stringBlocks (clusters ++ clusters') = stringBlocks clusters ++ stringBlocks clusters' := by
  rw [stringBlocks, strings, List.flatMap_append, List.flatMap_append]
  rfl

theorem stringBlocks_singleton (cluster : AcceleratorCluster) :
    stringBlocks [cluster] = cluster.name.toList ++ cluster.acceleratorTypeUuid.toList := by
  simp [stringBlocks, strings]

theorem imageBlocks_none {img : AfuImage δ} (h : img.acceleratorClusters = none) (i : Nat) :
    imageBlocks img i = img.interfaceUuid.toList := by
  rw [imageBlocks, h]
  exact List.append_nil _

theorem imageBlocks_some {img : AfuImage δ} {p : Nat} {clusters : List AcceleratorCluster}
    (h : img.acceleratorClusters = some (p, clusters)) (i : Nat) :
    imageBlocks img i = img.interfaceUuid.toList ++ (stringBlocks (clusters.take i) ++ [p]) := by
  rw [imageBlocks, h]

theorem perm_blocks (uuid names array ids : List Nat) :
    (uuid ++ (names ++ array) ++ ids).Perm (names ++ (array ++ (uuid ++ ids))) := by
  rw [List.append_assoc, List.append_assoc]
  exact (List.perm_append_comm_assoc _ _ _).trans
    ((List.perm_append_comm_assoc _ _ _).append_left names)

theorem runs_getJsonString (mem : Nat → Bool) (parent : Json δ) (name : CString)
    (h : Owns base s ids) :
    Runs (opaeBitstreamGetJsonString mem parent name none) s fun r s' =>
      Owns base s' (r.2.toList ++ ids) ∧ (r.1 = .ok ↔ r.2.isSome) := by
  rw [opaeBitstreamGetJsonString]
  split
  · refine (runs_malloc mem _ h).bind fun p s' h' => .pure ⟨h', ?_⟩
    cases p <;> simp
  · exact .pure ⟨h, nofun, nofun⟩

theorem runs_freeName (cluster : AcceleratorCluster) (res : FpgaResult)
    (h : Owns base s (cluster.name.toList ++ ids)) :
    Runs (freeName cluster res) s fun r s' =>
      r = (res, { cluster with name := none }) ∧ Owns base s' ids :=
  (runs_free h).bind fun _ _ h' => .pure ⟨rfl, h'⟩

theorem runs_parseAcceleratorClusterV1 (mem : Nat → Bool) (jCluster : Json δ)
    (h : Owns base s ids) :
    Runs (opaeBitstreamParseAcceleratorClusterV1 mem jCluster clusterInit) s fun r s' =>
      Owns base s' (stringBlocks [r.2] ++ ids) ∧ (r.1 ≠ .ok → stringBlocks [r.2] = []) := by
  rw [opaeBitstreamParseAcceleratorClusterV1]
  split
  · exact .pure ⟨h, fun _ => rfl⟩
  · refine (runs_getJsonString mem jCluster keyName h).bind fun name s₁ h₁ => ?_
    split
    · refine (runs_freeName _ _ h₁.1).imp fun r s₂ h₂ => ?_
      rw [h₂.1]
      exact ⟨h₂.2, fun _ => rfl⟩
    · refine (runs_getJsonString mem jCluster keyAcceleratorTypeUuid h₁.1).bind fun uuid s₂ h₂ => ?_
      split
      · next hne =>
        have huuid : uuid.2 = none :=
          Option.not_isSome_iff_eq_none.mp fun hsome => hne (h₂.2.mpr hsome)
        have howns := h₂.1
        rw [huuid] at howns
        refine (runs_freeName _ _ howns).imp fun r s₃ h₃ => ?_
        rw [h₃.1, huuid]
        exact ⟨h₃.2, fun _ => rfl⟩
      · refine .pure ⟨?_, fun hne => absurd rfl hne⟩
        rw [stringBlocks_singleton, List.append_assoc]
        exact h₂.1.perm (List.perm_append_comm_assoc _ _ _)

theorem runs_parseClusters (mem : Nat → Bool) (jClusters : Json δ) (n : Nat)
    (done : List AcceleratorCluster) (h : Owns base s (stringBlocks done ++ ids)) :
    Runs (parseClusters mem jClusters n done.length (done ++ List.replicate n clusterInit)) s
      fun r s' => Owns base s' (stringBlocks (r.2.2.take r.2.1) ++ ids) ∧
        (r.1 = .ok → r.2.1 = done.length + n) := by
  induction n generalizing s done with
  | zero =>
    rw [List.replicate_zero, List.append_nil]
    refine .pure ⟨?_, fun _ => rfl⟩
    rw [List.take_length]
    exact h
  | succ n ih =>
    rw [parseClusters, List.replicate_succ, List.getD_eq_getElem?_getD,
      List.getElem?_append_right (Nat.le_refl _), Nat.sub_self, List.getElem?_cons_zero,
      Option.getD_some]
    refine (runs_parseAcceleratorClusterV1 mem _ h).bind fun r s' h' => ?_
    have hset : (done ++ clusterInit :: List.replicate n clusterInit).set done.length r.2 =
        (done ++ [r.2]) ++ List.replicate n clusterInit := by
      rw [List.set_append_right _ _ (Nat.le_refl _), Nat.sub_self, List.set_cons_zero,
        List.append_cons]
    rw [hset]
    split
    · next hne =>
      refine .pure ⟨?_, fun hok => absurd hok hne⟩
      have howns := h'.1
      rw [h'.2 hne, List.nil_append] at howns
      rw [List.append_assoc, List.take_left]
      exact howns
    · have hlen : (done ++ [r.2]).length = done.length + 1 := List.length_append
      have hdone : Owns base s' (stringBlocks (done ++ [r.2]) ++ ids) := by
        rw [stringBlocks_append, List.append_assoc]
        exact h'.1.perm (List.perm_append_comm_assoc _ _ _)
      have hrest := ih _ hdone
      rw [hlen] at hrest
      refine hrest.imp fun r s'' h'' => ⟨h''.1, fun hok => ?_⟩
      rw [h''.2 hok]
      omega

theorem runs_freeImage (img : AfuImage δ) (i : Nat) (res : FpgaResult) (id : FpgaGuid)
    (h : Owns base s (imageBlocks img i ++ ids)) :
    Runs (freeImage img i res id) s fun r s' => r.1 = res ∧ Owns base s' ids := by
  rw [freeImage]
  cases harray : img.acceleratorClusters with
  | none =>
    rw [imageBlocks_none harray] at h
    exact (runs_free h).bind fun _ _ h₁ => .pure ⟨rfl, h₁⟩
  | some array =>
    rw [imageBlocks_some harray, List.append_assoc, List.append_assoc] at h
    refine (runs_free h).bind fun _ s₁ h₁ => ?_
    refine (runs_freeAll h₁).bind fun _ s₂ h₂ => ?_
    exact (runs_free h₂).bind fun _ s₃ h₃ => .pure ⟨rfl, h₃⟩

/-- The blocks of an image that is parsed are left, and none of one that is refused. -/
def ImageOwns (base : Slots (List UInt8)) (ids : List Nat)
    (r : FpgaResult × AfuImage δ × FpgaGuid) (s : Store (List UInt8)) : Prop :=
  Owns base s ((if r.1 = .ok then imageBlocks r.2.1 r.2.1.numClusters.toNat else []) ++ ids)

theorem runs_freeImage_owns (img : AfuImage δ) (i : Nat) {res : FpgaResult} (id : FpgaGuid)
    (hres : res ≠ .ok) (h : Owns base s (imageBlocks img i ++ ids)) :
    Runs (freeImage img i res id) s (ImageOwns base ids) := by
  refine (runs_freeImage img i res id h).imp fun r s' h' => ?_
  rw [ImageOwns, h'.1, if_neg hres]
  exact h'.2

theorem runs_parseClusterArray (mem : Nat → Bool) (jClusters : Json δ) (elems : List (Json δ))
    (img : AfuImage δ) (id : FpgaGuid) (harray : img.acceleratorClusters = none)
    (h : Owns base s (img.interfaceUuid.toList ++ ids)) :
    Runs (parseClusterArray mem jClusters elems img id) s (ImageOwns base ids) := by
  have hcalloc : Runs (callocClusters mem (Int32.ofNat elems.length).toInt) s fun p s' =>
      Owns base s' (p.toList ++ (img.interfaceUuid.toList ++ ids)) := by
    rw [callocClusters]
    split
    · exact .pure h
    · exact runs_malloc mem _ h
  refine hcalloc.bind fun p s₁ h₁ => ?_
  cases p with
  | none =>
    refine runs_freeImage_owns _ 0 id nofun ?_
    rw [imageBlocks_none]
    · exact h₁
    · exact harray
  | some p =>
    refine (runs_parseClusters mem jClusters _ [] h₁).bind fun r s₂ h₂ => ?_
    have howns : Owns base s₂ (imageBlocks { img with
        numClusters := (Int32.ofNat elems.length).toInt
        acceleratorClusters := some (p, r.2.2) } r.2.1 ++ ids) := by
      refine h₂.1.perm ?_
      rw [imageBlocks_some rfl]
      exact (perm_blocks img.interfaceUuid.toList _ [p] ids).symm
    split
    · next hne => exact runs_freeImage_owns _ _ id hne howns
    · next hok =>
      have hlen := h₂.2 (Decidable.not_not.mp hok)
      rw [List.length_nil, Nat.zero_add] at hlen
      rw [hlen] at howns
      exact .pure howns

theorem runs_parseAfuImageV1 (mem : Nat → Bool) (ofInt : Int → δ)
    (uuidParse : List UInt8 → Option FpgaGuid) (jAfuImage : Json δ) (id : FpgaGuid)
    (h : Owns base s ids) :
    Runs (opaeBitstreamParseAfuImageV1 mem ofInt uuidParse jAfuImage (imageInit (ofInt 0)) id) s
      (ImageOwns base ids) := by
  rw [opaeBitstreamParseAfuImageV1]
  split
  · next hne =>
    refine .pure ?_
    rw [ImageOwns, if_neg hne]
    exact h
  · split
    · exact runs_freeImage_owns _ 0 id nofun h
    · refine (runs_getJsonString mem jAfuImage keyInterfaceUuid h).bind fun uuid s₁ h₁ => ?_
      split
      · next hne =>
        refine runs_freeImage_owns _ 0 id hne ?_
        rw [imageBlocks_none rfl]
        exact h₁.1
      · next hok =>
        obtain ⟨i, hi⟩ := Option.isSome_iff_exists.mp (h₁.2.mp (Decidable.not_not.mp hok))
        have howns := h₁.1
        rw [hi] at howns ⊢
        refine (runs_read howns List.mem_cons_self).bind fun text s₂ h₂ => ?_
        subst h₂
        split
        · exact runs_freeImage_owns _ 0 id nofun howns
        · split
          · exact runs_parseClusterArray mem _ _ _ _ rfl howns
          · exact runs_freeImage_owns _ 0 _ nofun howns

theorem runs_freeMetadata (md : Metadata δ) (id : FpgaGuid)
    (h : Owns base s (md.platformName.toList ++ [md.self])) :
    Runs (freeMetadata md id) s fun r s' => r.1 = none ∧ Owns base s' [] :=
  (runs_free h).bind fun _ _ h₁ => (runs_free h₁).bind fun _ _ h₂ => .pure ⟨rfl, h₂⟩

theorem runs_parseMetadataV1 (mem : Nat → Bool) (ofInt : Int → δ)
    (uuidParse : List UInt8 → Option FpgaGuid) (root : Json δ) (id : FpgaGuid)
    (h : Owns base s []) :
    Runs (opaeBitstreamParseMetadataV1 mem ofInt uuidParse root id) s fun r s' =>
      Owns base s' (match r.1 with
        | none => []
        | some md => metadataBlocks md) := by
  refine (runs_malloc mem [] h).bind fun p s₁ h₁ => ?_
  cases p with
  | none => exact .pure h₁
  | some self =>
    refine (runs_getJsonString mem root keyPlatformName h₁).bind fun name s₂ h₂ => ?_
    dsimp only
    split
    · exact (runs_freeMetadata _ id h₂.1).imp fun r s₃ h₃ => by rw [h₃.1]; exact h₃.2
    · refine (runs_parseAfuImageV1 mem ofInt uuidParse _ id h₂.1).bind fun r s₃ h₃ => ?_
      rw [ImageOwns] at h₃
      split
      · next hne =>
        rw [if_neg hne] at h₃
        exact (runs_freeMetadata _ _ h₃).imp fun r s₄ h₄ => by rw [h₄.1]; exact h₄.2
      · next hok =>
        rw [if_pos (Decidable.not_not.mp hok)] at h₃
        exact .pure h₃

theorem runs_releaseMetadataV1 (md : Metadata δ) (h : Owns base s (metadataBlocks md)) :
    Runs (opaeBitstreamReleaseMetadataV1 md) s fun _ s' => Owns base s' [] := by
  rw [metadataBlocks] at h
  have hrest : ∀ s' : Store (List UInt8), Owns base s'
      (md.afuImage.interfaceUuid.toList ++ (md.platformName.toList ++ [md.self])) →
      Runs (do
        free md.afuImage.interfaceUuid
        free md.platformName
        free (some md.self)) s' fun _ s' => Owns base s' [] := fun s' h =>
    (runs_free h).bind fun _ _ h₁ => (runs_free h₁).bind fun _ _ h₂ => runs_free h₂
  rw [opaeBitstreamReleaseMetadataV1]
  cases harray : md.afuImage.acceleratorClusters with
  | none =>
    rw [imageBlocks_none harray] at h
    exact hrest _ h
  | some array =>
    rw [imageBlocks_some harray] at h
    refine (runs_freeAll (h.perm (perm_blocks _ _ _ _))).bind fun _ s₁ h₁ => ?_
    exact (runs_free h₁).bind fun _ s₂ h₂ => hrest s₂ h₂

end Rules

/-- Parsing that gives no metadata leaves no block behind, and where it gives metadata, their
release does. -/
theorem opaeBitstreamParseMetadataV1_released {δ : Type} (mem : Nat → Bool) (ofInt : Int → δ)
    (uuidParse : List UInt8 → Option FpgaGuid) (root : Json δ) (id : FpgaGuid)
    (s : Store (List UInt8)) :
    Runs (opaeBitstreamParseMetadataV1 mem ofInt uuidParse root id) s fun r s' =>
      match r.1 with
      | none => Released s.heap s'
      | some md => Runs (opaeBitstreamReleaseMetadataV1 md) s' fun _ s'' =>
          Released s.heap s'' := by
  refine (runs_parseMetadataV1 mem ofInt uuidParse root id (owns_self s)).imp fun r s' h => ?_
  split
  · next hnone =>
    rw [hnone] at h
    exact h.released
  · next md hsome =>
    rw [hsome] at h
    exact (runs_releaseMetadataV1 md h).imp fun _ _ h' => h'.released

end OpaeLibs.Libbitstream.MetadataV1
