import OpaeLibs.Lib.Copies
import OpaeLibs.Lib.JsonC
import OpaeLibs.PluginXfpga.InterfaceIds

namespace OpaeLibs.PluginXfpga.GbsDecoding

open OpaeLibs.Lib.CStrings OpaeLibs.Lib.Copies OpaeLibs.Lib.JsonC OpaeLibs.Lib.Probes
open OpaeLibs.OpaeC.Props
open OpaeLibs.PluginXfpga.Bitstream (Bits CharPtr Libs guidLen metadataGuidLen metadataMaxLen
  readBytes readJsonLen checkBitstreamGuid)
open OpaeLibs.PluginXfpga.InterfaceIds (metadata)
open OpaeLibs.PluginXfpga.ReconfBounds (jsonLen)

def afuNameLen : Nat := 512

structure AfuClustersContent where
  name : Vector UInt8 afuNameLen
  totalContexts : Int32
  afuUuid : Vector UInt8 (guidLen + 1)

structure AfuImageContent where
  magicNum : UInt64
  interfaceUuid : Vector UInt8 (guidLen + 1)
  clockFrequencyHigh : Int32
  clockFrequencyLow : Int32
  power : Int32
  afuClusters : AfuClustersContent

structure GbsMetadata (δ : Type) where
  version : δ
  afuImage : AfuImageContent

def keyVersion : CString := ⟨ascii "version", fun h => absurd h (by decide)⟩
def keyAfuImage : CString := ⟨ascii "afu-image", fun h => absurd h (by decide)⟩
def keyMagicNo : CString := ⟨ascii "magic-no", fun h => absurd h (by decide)⟩
def keyInterfaceUuid : CString := ⟨ascii "interface-uuid", fun h => absurd h (by decide)⟩
def keyClockFrequencyHigh : CString := ⟨ascii "clock-frequency-high", fun h => absurd h (by decide)⟩
def keyClockFrequencyLow : CString := ⟨ascii "clock-frequency-low", fun h => absurd h (by decide)⟩
def keyPower : CString := ⟨ascii "power", fun h => absurd h (by decide)⟩
def keyAcceleratorClusters : CString := ⟨ascii "accelerator-clusters", fun h => absurd h (by decide)⟩
def keyName : CString := ⟨ascii "name", fun h => absurd h (by decide)⟩
def keyAcceleratorTypeUuid : CString := ⟨ascii "accelerator-type-uuid", fun h => absurd h (by decide)⟩
def keyTotalContexts : CString := ⟨ascii "total-contexts", fun h => absurd h (by decide)⟩

/-- The libraries, the conversions of an object of any type to a number, and the memory behind the
strings. -/
structure Env (δ : Type) where
  json : JsonLib δ
  getInt : Json δ → Int32
  getInt64 : Json δ → Int64
  getDouble : Json δ → δ
  uuidParse : CharPtr → Option FpgaGuid
  beyond : Memory

/-- What a function returns, what it leaves in the structure, and what it copied, also where this
is more than there is room for. -/
structure Stored (α : Type) where
  result : FpgaResult
  value : α
  copies : List Copy

section Code

variable {δ : Type} (env : Env δ)

/-- `json_object_get_string`, of which nothing can be read if it is `NULL`. -/
def getString (j : Json δ) : Source :=
  match env.json.getString j with
  | none => ⟨0, env.beyond⟩
  | some s => .ofText s env.beyond

/-- A number that is not there leaves the field as it is. -/
def storeInt {α : Type} (parent : Json δ) (name : CString) (convert : Int64 → α) (field : α) : α :=
  match parent.objectGetEx name with
  | none => field
  | some j => convert (env.getInt64 j)

def copyUuid (field : Vector UInt8 (guidLen + 1)) (src : Source) : Vector UInt8 (guidLen + 1) :=
  (memcpy field src guidLen).set guidLen 0

def uuidCopy (src : Source) : Copy := ⟨guidLen, src.readable, guidLen + 1⟩

def readAfuImage (afuImage : Json δ) (img : AfuImageContent) : Stored AfuImageContent :=
  let img := { img with
    magicNum := storeInt env afuImage keyMagicNo Int64.toUInt64 img.magicNum }
  match afuImage.objectGetEx keyInterfaceUuid with
  | none => ⟨.invalidParam, img, []⟩
  | some interfaceId =>
    let src := getString env interfaceId
    ⟨.ok,
      { img with
        interfaceUuid := copyUuid img.interfaceUuid src
        clockFrequencyHigh :=
          storeInt env afuImage keyClockFrequencyHigh Int64.toInt32 img.clockFrequencyHigh
        clockFrequencyLow :=
          storeInt env afuImage keyClockFrequencyLow Int64.toInt32 img.clockFrequencyLow
        power := storeInt env afuImage keyPower Int64.toInt32 img.power },
      [uuidCopy src]⟩

/-- As many bytes are copied as the string has, and none of what is not a string. -/
def readName (cluster : Json δ) (name : Vector UInt8 afuNameLen) :
    Vector UInt8 afuNameLen × List Copy :=
  match cluster.objectGetEx keyName with
  | none => (name, [])
  | some j =>
    let src := getString env j
    (memcpy name src j.getStringLen, [⟨j.getStringLen, src.readable, afuNameLen⟩])

def readCluster (cluster : Json δ) (content : AfuClustersContent) : Stored AfuClustersContent :=
  match cluster.objectGetEx keyAcceleratorTypeUuid with
  | none => ⟨.invalidParam, content, []⟩
  | some uuid =>
    let src := getString env uuid
    let name := readName env cluster content.name
    ⟨.ok,
      { name := name.1
        totalContexts :=
          storeInt env cluster keyTotalContexts Int64.toInt32 content.totalContexts
        afuUuid := copyUuid content.afuUuid src },
      uuidCopy src :: name.2⟩

/-- The image is looked up twice, with the same outcome. -/
def storeMetadata (root : Option (Json δ)) (md : GbsMetadata δ) : Stored (GbsMetadata δ) :=
  match root with
  | none => ⟨.invalidParam, md, []⟩
  | some root =>
    match root.objectGetEx keyVersion with
    | none => ⟨.invalidParam, md, []⟩
    | some version =>
      let md := { md with version := env.getDouble version }
      match root.objectGetEx keyAfuImage with
      | none => ⟨.invalidParam, md, []⟩
      | some afuImage =>
        let img := readAfuImage env afuImage md.afuImage
        let md := { md with afuImage := img.value }
        if img.result ≠ .ok then ⟨img.result, md, img.copies⟩
        else
          match afuImage.objectGetEx keyAcceleratorClusters with
          | none => ⟨.invalidParam, md, img.copies⟩
          | some clusters =>
            let content := readCluster env (clusters.arrayGetIdx 0) md.afuImage.afuClusters
            ⟨content.result,
              { md with afuImage := { md.afuImage with afuClusters := content.value } },
              img.copies ++ content.copies⟩

def toPtr : Json δ → Option (Json δ)
  | .null => none
  | j => some j

/-- The libraries, as they are seen where the strings are memory. -/
abbrev libsOf : Libs where
  Json := Json δ
  Double := δ
  uuidParse := env.uuidParse
  tokenerParse := fun text => (env.json.tokenerParse text).bind toPtr
  objectGetEx := fun o name => ((o.getD .null).objectGetEx (cText (ascii name))).map toPtr
  arrayGetIdx := fun o i => toPtr ((o.getD .null).arrayGetIdx i)
  getString := fun o => (getString env (o.getD .null)).bytes
  getStringLen := fun o => (o.getD .null).getStringLen
  getInt := fun o => env.getInt (o.getD .null)
  getInt64 := fun o => env.getInt64 (o.getD .null)
  getDouble := fun o => env.getDouble (o.getD .null)

def readGbsMetadata (mem : Bool) (md : GbsMetadata δ) : Bits (Stored (GbsMetadata δ)) := do
  if (← checkBitstreamGuid (libsOf env)) ≠ .ok then return ⟨.invalidParam, md, []⟩
  let jsonLen ← readJsonLen
  if jsonLen = 0 ∨ jsonLen ≥ metadataMaxLen then return ⟨.invalidParam, md, []⟩
  if !mem then return ⟨.noMemory, md, []⟩
  let jsonMetadata ← readBytes (metadataGuidLen + 4) jsonLen.toNat
  return storeMetadata env (env.json.tokenerParse (jsonMetadata ++ [0])) md

end Code

section Exactness

variable {δ : Type}

def interfaceUuidOf (root : Json δ) : Option (Json δ) :=
  (root.objectGetEx keyAfuImage).bind (Json.objectGetEx keyInterfaceUuid)

def clusterOf (root : Json δ) : Option (Json δ) :=
  ((root.objectGetEx keyAfuImage).bind (Json.objectGetEx keyAcceleratorClusters)).map
    (Json.arrayGetIdx 0)

def acceleratorUuidOf (root : Json δ) : Option (Json δ) :=
  (clusterOf root).bind (Json.objectGetEx keyAcceleratorTypeUuid)

def nameOf (root : Json δ) : Option (Json δ) := (clusterOf root).bind (Json.objectGetEx keyName)

/-- The field has the string, which it is one. -/
def HoldsString {n : Nat} (field : Vector UInt8 n) (j : Json δ) : Prop :=
  ∃ s, j = .string s ∧ Terminated field s

/-- Nothing is copied from beyond a string or to beyond a field, and the fields have the strings. -/
structure Decoded (root : Json δ) (r : Stored (GbsMetadata δ)) : Prop where
  inside : ∀ c ∈ r.copies, c.Inside
  interfaceUuid : ∀ j, interfaceUuidOf root = some j →
    HoldsString r.value.afuImage.interfaceUuid j
  acceleratorUuid : ∀ j, acceleratorUuidOf root = some j →
    HoldsString r.value.afuImage.afuClusters.afuUuid j
  name : ∀ j, nameOf root = some j → HoldsString r.value.afuImage.afuClusters.name j

/-- A string that has the length of a UUID, or one less, and no `NUL`. -/
def UuidFits (j : Json δ) : Prop :=
  ∃ s, j = .string s ∧ 0 ∉ s ∧ 35 ≤ s.length ∧ s.length ≤ 36

/-- A string without a `NUL`, behind which the field has one already. -/
def NameFits (field : Vector UInt8 afuNameLen) (j : Json δ) : Prop :=
  ∃ s, j = .string s ∧ 0 ∉ s ∧ field[s.length]? = some 0

structure Fits (root : Json δ) (md : GbsMetadata δ) : Prop where
  interfaceUuid : ∀ j, interfaceUuidOf root = some j → UuidFits j
  acceleratorUuid : ∀ j, acceleratorUuidOf root = some j → UuidFits j
  name : ∀ j, nameOf root = some j → NameFits md.afuImage.afuClusters.name j

variable (env : Env δ)

theorem getString_string (s : List UInt8) :
    getString env (.string s) = .ofText s env.beyond := rfl

theorem uuid_iff (field : Vector UInt8 (guidLen + 1)) (j : Json δ) :
    (uuidCopy (getString env j)).Inside ∧ HoldsString (copyUuid field (getString env j)) j ↔
      UuidFits j := by
  constructor
  · rintro ⟨hinside, s, rfl, hterm⟩
    rw [getString_string, copyUuid, terminated_set_memcpy] at hterm
    exact ⟨s, rfl, hterm.1, Nat.le_of_succ_le_succ hinside.1, hterm.2⟩
  · rintro ⟨s, rfl, hnul, hmin, hmax⟩
    rw [getString_string, copyUuid]
    exact ⟨⟨Nat.succ_le_succ hmin, Nat.le_succ guidLen⟩, s, rfl,
      terminated_set_memcpy.mpr ⟨hnul, hmax⟩⟩

theorem name_iff (field : Vector UInt8 afuNameLen) (cluster : Json δ) :
    (∀ c ∈ (readName env cluster field).2, c.Inside) ∧
      (∀ j, cluster.objectGetEx keyName = some j →
        HoldsString (readName env cluster field).1 j) ↔
      ∀ j, cluster.objectGetEx keyName = some j → NameFits field j := by
  rw [readName]
  cases cluster.objectGetEx keyName with
  | none => exact iff_of_true ⟨nofun, nofun⟩ nofun
  | some j =>
    dsimp only
    constructor
    · rintro ⟨-, hholds⟩ _ ⟨⟩
      obtain ⟨s, rfl, hterm⟩ := hholds _ rfl
      exact ⟨s, rfl, terminated_memcpy.mp hterm⟩
    · intro h
      obtain ⟨s, rfl, hfits⟩ := h _ rfl
      have hlt := (Vector.getElem?_eq_some_iff.mp hfits.2).1
      refine ⟨fun c hc => ?_, ?_⟩
      · rw [List.mem_singleton.mp hc]
        exact ⟨Nat.le_succ s.length, Nat.le_of_lt hlt⟩
      · rintro _ ⟨⟩
        exact ⟨s, rfl, terminated_memcpy.mpr hfits⟩

/-- What is copied from metadata that are accepted. -/
structure Accepted (root : Json δ) (md : GbsMetadata δ) (r : Stored (GbsMetadata δ))
    (interfaceId cluster uuid : Json δ) : Prop where
  interfaceId_eq : interfaceUuidOf root = some interfaceId
  cluster_eq : clusterOf root = some cluster
  uuid_eq : cluster.objectGetEx keyAcceleratorTypeUuid = some uuid
  interfaceUuid : r.value.afuImage.interfaceUuid =
    copyUuid md.afuImage.interfaceUuid (getString env interfaceId)
  afuUuid : r.value.afuImage.afuClusters.afuUuid =
    copyUuid md.afuImage.afuClusters.afuUuid (getString env uuid)
  name : r.value.afuImage.afuClusters.name =
    (readName env cluster md.afuImage.afuClusters.name).1
  copies : r.copies = uuidCopy (getString env interfaceId) :: uuidCopy (getString env uuid) ::
    (readName env cluster md.afuImage.afuClusters.name).2

theorem readAfuImage_ok {afuImage : Json δ} {img : AfuImageContent}
    (h : (readAfuImage env afuImage img).result = .ok) :
    ∃ interfaceId, afuImage.objectGetEx keyInterfaceUuid = some interfaceId ∧
      (readAfuImage env afuImage img).value.interfaceUuid =
        copyUuid img.interfaceUuid (getString env interfaceId) ∧
      (readAfuImage env afuImage img).value.afuClusters = img.afuClusters ∧
      (readAfuImage env afuImage img).copies = [uuidCopy (getString env interfaceId)] := by
  rw [readAfuImage] at h ⊢
  cases hfound : afuImage.objectGetEx keyInterfaceUuid with
  | none =>
    rw [hfound] at h
    exact nomatch h
  | some interfaceId => exact ⟨interfaceId, rfl, rfl, rfl, rfl⟩

theorem readCluster_ok {cluster : Json δ} {content : AfuClustersContent}
    (h : (readCluster env cluster content).result = .ok) :
    ∃ uuid, cluster.objectGetEx keyAcceleratorTypeUuid = some uuid ∧
      (readCluster env cluster content).value.afuUuid =
        copyUuid content.afuUuid (getString env uuid) ∧
      (readCluster env cluster content).value.name = (readName env cluster content.name).1 ∧
      (readCluster env cluster content).copies =
        uuidCopy (getString env uuid) :: (readName env cluster content.name).2 := by
  rw [readCluster] at h ⊢
  cases hfound : cluster.objectGetEx keyAcceleratorTypeUuid with
  | none =>
    rw [hfound] at h
    exact nomatch h
  | some uuid => exact ⟨uuid, rfl, rfl, rfl, rfl⟩

theorem storeMetadata_ok {root : Option (Json δ)} {md : GbsMetadata δ}
    (h : (storeMetadata env root md).result = .ok) :
    ∃ root' interfaceId cluster uuid, root = some root' ∧
      Accepted env root' md (storeMetadata env root md) interfaceId cluster uuid := by
  cases root with
  | none => exact nomatch h
  | some root =>
    rw [storeMetadata] at h ⊢
    cases hversion : root.objectGetEx keyVersion with
    | none =>
      rw [hversion] at h
      exact nomatch h
    | some version =>
      rw [hversion] at h
      cases himage : root.objectGetEx keyAfuImage with
      | none =>
        rw [himage] at h
        exact nomatch h
      | some afuImage =>
        rw [himage] at h
        dsimp only at h ⊢
        split at h
        · next hne => exact absurd h hne
        · next hok =>
          cases hclusters : afuImage.objectGetEx keyAcceleratorClusters with
          | none =>
            rw [hclusters] at h
            exact nomatch h
          | some clusters =>
            rw [hclusters] at h
            obtain ⟨interfaceId, hid, hfield, hsame, hcopies⟩ :=
              readAfuImage_ok env (Decidable.not_not.mp hok)
            obtain ⟨uuid, huuid, hafu, hname, hrest⟩ := readCluster_ok env h
            rw [if_neg hok]
            refine ⟨root, interfaceId, clusters.arrayGetIdx 0, uuid, rfl, ?_, ?_, huuid, hfield, ?_,
              ?_, ?_⟩
            · rw [interfaceUuidOf, himage]
              exact hid
            · rw [clusterOf, himage, Option.bind_some, hclusters]
              rfl
            · exact hafu.trans (by rw [hsame])
            · exact hname.trans (by rw [hsame])
            · dsimp only
              rw [hcopies, hrest, hsame]
              rfl

theorem decoded_iff {root : Json δ} {md : GbsMetadata δ} {r : Stored (GbsMetadata δ)}
    {interfaceId cluster uuid : Json δ} (h : Accepted env root md r interfaceId cluster uuid) :
    Decoded root r ↔ Fits root md := by
  have hinterface := uuid_iff env md.afuImage.interfaceUuid interfaceId
  have huuid := uuid_iff env md.afuImage.afuClusters.afuUuid uuid
  have hname := name_iff env md.afuImage.afuClusters.name cluster
  have huuidOf : acceleratorUuidOf root = some uuid := by
    rw [acceleratorUuidOf, h.cluster_eq]
    exact h.uuid_eq
  have hnameOf : nameOf root = cluster.objectGetEx keyName := by
    rw [nameOf, h.cluster_eq]
    rfl
  rw [← h.interfaceUuid] at hinterface
  rw [← h.afuUuid] at huuid
  rw [← h.name] at hname
  constructor
  · intro hdec
    have hinside := hdec.inside
    rw [h.copies, List.forall_mem_cons, List.forall_mem_cons] at hinside
    refine ⟨?_, ?_, ?_⟩
    · intro j hj
      obtain rfl := Option.some.inj (h.interfaceId_eq.symm.trans hj)
      exact hinterface.mp ⟨hinside.1, hdec.interfaceUuid _ hj⟩
    · intro j hj
      obtain rfl := Option.some.inj (huuidOf.symm.trans hj)
      exact huuid.mp ⟨hinside.2.1, hdec.acceleratorUuid _ hj⟩
    · intro j hj
      exact hname.mp ⟨hinside.2.2, fun j hj => hdec.name j (hnameOf.trans hj)⟩ j
        (hnameOf.symm.trans hj)
  · intro hfits
    have hi := hinterface.mpr (hfits.interfaceUuid _ h.interfaceId_eq)
    have hu := huuid.mpr (hfits.acceleratorUuid _ huuidOf)
    have hn := hname.mpr fun j hj => hfits.name j (hnameOf.trans hj)
    refine ⟨?_, ?_, ?_, ?_⟩
    · rw [h.copies, List.forall_mem_cons, List.forall_mem_cons]
      exact ⟨hi.1, hu.1, hn.1⟩
    · intro j hj
      exact Option.some.inj (h.interfaceId_eq.symm.trans hj) ▸ hi.2
    · intro j hj
      exact Option.some.inj (huuidOf.symm.trans hj) ▸ hu.2
    · exact fun j hj => hn.2 j (hnameOf.symm.trans hj)

end Exactness

section Pointers

variable {δ : Type} (env : Env δ)

theorem getD_toPtr (j : Json δ) : (toPtr j).getD .null = j := by cases j <;> rfl

theorem isNone_toPtr (j : Json δ) : (toPtr j).isNone ↔ j = .null := by
  cases j <;> simp [toPtr]

theorem objectGetEx_libsOf (j : Json δ) {name : String} (key : CString)
    (hkey : cText (ascii name) = key) :
    (libsOf env).objectGetEx (toPtr j) name = (j.objectGetEx key).map toPtr := by
  rw [← hkey]
  exact congrArg (fun j : Json δ => (j.objectGetEx (cText (ascii name))).map toPtr) (getD_toPtr j)

theorem readClusters_ok_iff (cluster : Json δ) (content : AfuClustersContent) :
    (∃ c, Bitstream.readClusters (libsOf env) (toPtr cluster) = .ok c) ↔
      (readCluster env cluster content).result = .ok := by
  rw [Bitstream.readClusters, readCluster,
    objectGetEx_libsOf env cluster keyAcceleratorTypeUuid (by decide)]
  cases cluster.objectGetEx keyAcceleratorTypeUuid with
  | none => exact iff_of_false nofun nofun
  | some uuid => exact iff_of_true ⟨_, rfl⟩ rfl

theorem parseMetadata_ok_iff (root : Option (Json δ)) (md : GbsMetadata δ) :
    (∃ content, Bitstream.parseMetadata (libsOf env) (root.bind toPtr) = .ok content) ↔
      (storeMetadata env root md).result = .ok := by
  cases root with
  | none => exact iff_of_false nofun nofun
  | some root =>
    rw [Option.bind_some, Bitstream.parseMetadata, storeMetadata]
    split
    · next hnull =>
      rw [(isNone_toPtr root).mp hnull]
      exact iff_of_false nofun nofun
    · rw [objectGetEx_libsOf env root keyVersion (by decide),
        objectGetEx_libsOf env root keyAfuImage (by decide)]
      cases root.objectGetEx keyVersion with
      | none => exact iff_of_false nofun nofun
      | some version =>
        cases root.objectGetEx keyAfuImage with
        | none => exact iff_of_false nofun nofun
        | some afuImage =>
          have hinterface : cText (ascii "interface-uuid") = keyInterfaceUuid := by decide
          have hclusters : cText (ascii "accelerator-clusters") = keyAcceleratorClusters := by
            decide
          dsimp only [Option.map_some]
          rw [getD_toPtr, hinterface, hclusters, readAfuImage]
          cases afuImage.objectGetEx keyInterfaceUuid with
          | none => exact iff_of_false nofun nofun
          | some interfaceId =>
            cases afuImage.objectGetEx keyAcceleratorClusters with
            | none => exact iff_of_false nofun nofun
            | some clusters =>
              dsimp only [Option.map_some]
              rw [getD_toPtr, if_neg (by decide),
                ← readClusters_ok_iff env (clusters.arrayGetIdx 0) md.afuImage.afuClusters]
              cases Bitstream.readClusters (libsOf env) (toPtr (clusters.arrayGetIdx 0)) with
              | error result => exact iff_of_false nofun nofun
              | ok content => exact iff_of_true ⟨_, rfl⟩ ⟨_, rfl⟩

end Pointers

section Read

variable {δ : Type} {env : Env δ} {mem : Bool} {m : Nat → UInt8} {md : GbsMetadata δ}

theorem readGbsMetadata_eq (hguid : (checkBitstreamGuid (libsOf env)).value m = .ok)
    (hpos : jsonLen m ≠ 0) (hmax : jsonLen m < metadataMaxLen) :
    (readGbsMetadata env true md).value m =
      storeMetadata env (env.json.tokenerParse (metadata m ++ [0])) md := by
  have hlen : ¬(jsonLen m = 0 ∨ jsonLen m ≥ metadataMaxLen) := fun h =>
    h.elim hpos (UInt32.not_le.mpr hmax)
  rw [jsonLen] at hlen
  simp only [readGbsMetadata, Probe.value_bind, Probe.value_ite, Probe.value_pure, readBytes,
    value_readAll]
  rw [if_neg (not_not.mpr hguid), if_neg hlen, if_neg (by decide)]
  rfl

theorem value_readGbsMetadata (h : ((readGbsMetadata env mem md).value m).result = .ok) :
    (readGbsMetadata env mem md).value m =
      storeMetadata env (env.json.tokenerParse (metadata m ++ [0])) md := by
  revert h
  simp only [readGbsMetadata, Probe.value_bind, Probe.value_ite, Probe.value_pure, readBytes,
    value_readAll]
  split
  · intro h
    cases h
  split
  · intro h
    cases h
  split
  · intro h
    cases h
  · exact fun _ => rfl

end Read

/-- Metadata that are accepted are decoded as they are exactly if each string fits its field. -/
theorem readGbsMetadata_decoded_iff {δ : Type} (env : Env δ) (mem : Bool) (m : Nat → UInt8)
    (md : GbsMetadata δ) (hok : ((readGbsMetadata env mem md).value m).result = .ok) :
    ∃ root, env.json.tokenerParse (metadata m ++ [0]) = some root ∧
      (Decoded root ((readGbsMetadata env mem md).value m) ↔ Fits root md) := by
  have hvalue := value_readGbsMetadata hok
  rw [hvalue] at hok ⊢
  obtain ⟨root, interfaceId, cluster, uuid, hroot, haccepted⟩ := storeMetadata_ok env hok
  exact ⟨root, hroot, decoded_iff env haccepted⟩

section Samples

open OpaeLibs.Lib.Bytes OpaeLibs.PluginXfpga.InterfaceIds

def guidText : List UInt8 := ascii "58656F6E-4650-4741-B747-425376303031"

def gbsText (uuid : List UInt8) : List UInt8 :=
  ascii "\x7b\"version\":1,\"afu-image\":\x7b\"interface-uuid\":\"" ++ uuid ++
    ascii "\",\"accelerator-clusters\":[\x7b\"accelerator-type-uuid\":\"" ++ guidText ++
    ascii "\",\"name\":\"a\"\x7d]\x7d\x7d"

def gbsRoot (uuid : List UInt8) : Json Unit :=
  .object
    [(keyVersion, .int 1),
      (keyAfuImage, .object
        [(keyInterfaceUuid, .string uuid),
          (keyAcceleratorClusters, .array
            [.object [(keyAcceleratorTypeUuid, .string guidText),
              (keyName, .string (ascii "a"))]])])]

def gbsEnv (uuid : List UInt8) : Env Unit where
  json :=
    { nonzero := fun _ => false
      write := fun _ _ => none
      tokenerParse := fun text => if text = gbsText uuid ++ [0] then some (gbsRoot uuid) else none
      arrayLength_lt := by
        intro text root key l hroot h
        split at hroot
        · obtain rfl := Option.some.inj hroot
          simp only [gbsRoot, Json.objectGetEx, List.lookup] at h
          split at h
          · exact nomatch h
          · split at h
            · exact nomatch h
            · exact nomatch h
        · exact nomatch hroot }
  getInt := fun _ => 1
  getInt64 := fun _ => 1
  getDouble := fun _ => ()
  uuidParse := parseUuid
  beyond := fun _ => 0xff

def gbsMem (uuid : List UInt8) (i : Nat) : UInt8 :=
  (metadataGuidBytes.toList ++ toLe 4 (gbsText uuid).length ++ gbsText uuid)[i]?.getD 0

def zeroMetadata : GbsMetadata Unit :=
  ⟨(), ⟨0, .replicate 37 0, 0, 0, 0, ⟨.replicate 512 0, 0, .replicate 37 0⟩⟩⟩

theorem tokenerParse_gbsEnv (uuid text : List UInt8) :
    (gbsEnv uuid).json.tokenerParse text =
      if text = gbsText uuid ++ [0] then some (gbsRoot uuid) else none := rfl

theorem value_gbs {uuid : List UInt8}
    (h : 0 < (gbsText uuid).length ∧ (gbsText uuid).length < metadataMaxLen.toNat) :
    (readGbsMetadata (gbsEnv uuid) true zeroMetadata).value (gbsMem uuid) =
      storeMetadata (gbsEnv uuid) (some (gbsRoot uuid)) zeroMetadata := by
  obtain ⟨hguid, hjson, htext⟩ : (List.range' 0 16).map (gbsMem uuid) = _ ∧
      (jsonLen (gbsMem uuid)).toNat = _ ∧ (List.range' 20 _).map (gbsMem uuid) = gbsText uuid :=
    ReconfBounds.reads_file rfl (Nat.lt_trans h.2 (by decide))
  have hparses : InterfaceIds.UuidParses (libsOf (gbsEnv uuid)) := fun _ _ => parseUuid_eq_some
  have hpos : jsonLen (gbsMem uuid) ≠ 0 := fun hzero => by
    rw [hzero] at hjson
    exact absurd h.1 (Nat.not_lt.mpr (Nat.le_of_eq hjson.symm))
  have hmax : jsonLen (gbsMem uuid) < metadataMaxLen :=
    UInt32.lt_iff_toNat_lt.mpr (hjson.symm ▸ h.2)
  have hroot : (gbsEnv uuid).json.tokenerParse (metadata (gbsMem uuid) ++ [0]) =
      some (gbsRoot uuid) := by
    rw [metadata, hjson, htext, tokenerParse_gbsEnv, if_pos rfl]
  rw [readGbsMetadata_eq ((checkBitstreamGuid_ok_iff hparses).mpr hguid) hpos hmax, hroot]

theorem value_guidText :
    (readGbsMetadata (gbsEnv guidText) true zeroMetadata).value (gbsMem guidText) =
      storeMetadata (gbsEnv guidText) (some (gbsRoot guidText)) zeroMetadata :=
  value_gbs (by decide +kernel)

theorem value_emptyUuid :
    (readGbsMetadata (gbsEnv []) true zeroMetadata).value (gbsMem []) =
      storeMetadata (gbsEnv []) (some (gbsRoot [])) zeroMetadata :=
  value_gbs (by decide +kernel)

theorem gbs_accepted :
    ((readGbsMetadata (gbsEnv guidText) true zeroMetadata).value (gbsMem guidText)).result =
      .ok := by
  rw [value_guidText]
  decide +kernel

theorem readGbsMetadata_decoded_iff_sample :
    ∃ root, (gbsEnv guidText).json.tokenerParse (metadata (gbsMem guidText) ++ [0]) = some root ∧
      (Decoded root
          ((readGbsMetadata (gbsEnv guidText) true zeroMetadata).value (gbsMem guidText)) ↔
        Fits root zeroMetadata) :=
  readGbsMetadata_decoded_iff (gbsEnv guidText) true (gbsMem guidText) zeroMetadata gbs_accepted

/-- Of an empty interface id, 36 bytes are copied. -/
theorem emptyUuid_overread :
    ¬ (((readGbsMetadata (gbsEnv []) true zeroMetadata).value (gbsMem [])).result = .ok →
      ∃ root, (gbsEnv []).json.tokenerParse (metadata (gbsMem []) ++ [0]) = some root ∧
        Decoded root ((readGbsMetadata (gbsEnv []) true zeroMetadata).value (gbsMem []))) := by
  rw [value_emptyUuid]
  intro h
  obtain ⟨root, -, hdec⟩ := h (by decide +kernel)
  exact absurd (hdec.inside ⟨36, 1, 37⟩ (by decide +kernel)).1 (by decide)

end Samples

end OpaeLibs.PluginXfpga.GbsDecoding
