import OpaeLibs.PluginXfpga.Reconf

namespace OpaeLibs.PluginXfpga.ReconfBounds

open OpaeLibs.Lib.Bytes OpaeLibs.Lib.Probes
open OpaeLibs.OpaeC.Props OpaeLibs.PluginXfpga.Bitstream OpaeLibs.PluginXfpga.Reconf

theorem toInt_toInt32 {u : UInt32} (h : u.toNat < 2 ^ 31) : u.toInt32.toInt = u.toNat := by
  have hlt : 2 * u.toInt32.toBitVec.toNat < 2 ^ 32 := by
    have hsame : u.toInt32.toBitVec.toNat = u.toNat := rfl
    omega
  exact BitVec.toInt_eq_toNat_of_lt hlt

theorem toNat_extend {n : Int32} (h : 0 ≤ n.toInt) : ((extend n).toNat : Int) = n.toInt := by
  rw [← Int32.toInt_toInt64] at h ⊢
  have hcond := BitVec.toInt_eq_toNat_cond n.toInt64.toBitVec
  change n.toInt64.toInt = _ at hcond
  change (n.toInt64.toBitVec.toNat : Int) = _
  have hlt := n.toInt64.toBitVec.isLt
  split at hcond <;> omega

def jsonLen (m : Nat → UInt8) : UInt32 := readJsonLen.value m

section

variable {κ : Type} {libs : Libs} {m : Nat → UInt8} {i : Nat}

@[simp] theorem places_readBytes (m : Nat → UInt8) (offset n : Nat) :
    (readBytes offset n).places m = List.range' offset n := places_readAll m _

@[simp] theorem places_readJsonLen (m : Nat → UInt8) :
    readJsonLen.places m = List.range' 16 4 := by
  simp [readJsonLen, readIntFromBitstream, metadataGuidLen]

@[simp] theorem places_checkBitstreamGuid (libs : Libs) (m : Nat → UInt8) :
    (checkBitstreamGuid libs).places m = List.range' 0 16 := by
  rw [checkBitstreamGuid, Probe.places_bind, places_readBytes]
  split <;> exact List.append_nil _

@[simp] theorem places_readJson (libs : Libs) (m : Nat → UInt8) (n : UInt32) :
    (readJson libs n).places m = List.range' 20 n.toNat := by
  simp [readJson, metadataGuidLen]

theorem lt_of_validateBitstreamMetadata {v : IdView} {mem : Bool}
    (hi : i ∈ (validateBitstreamMetadata libs v mem).places m) : i < 20 + (jsonLen m).toNat := by
  rw [jsonLen]
  simp [validateBitstreamMetadata] at hi
  omega

theorem lt_of_readGbsMetadata {mem : Bool} (hi : i ∈ (readGbsMetadata libs mem).places m) :
    i < 20 + (jsonLen m).toNat := by
  rw [jsonLen]
  simp [readGbsMetadata] at hi
  omega

theorem places_getBitstreamHeaderLen (hi : i ∈ (getBitstreamHeaderLen libs).places m) :
    i < 20 := by
  simp [getBitstreamHeaderLen] at hi
  omega

theorem lt_of_validateBitstream {env : ReconfEnv κ} {bitstream bitstreamLen : UInt64}
    (hi : i ∈ (validateBitstream libs env bitstream bitstreamLen).places m) :
    i < 20 + (jsonLen m).toNat := by
  simp [validateBitstream] at hi
  obtain ⟨-, -, hguid | ⟨-, hheader | ⟨-, hmeta⟩⟩⟩ := hi
  · omega
  · have hlt := places_getBitstreamHeaderLen hheader
    omega
  · exact lt_of_validateBitstreamMetadata hmeta

theorem jsonLen_of_metadata {v : IdView} {mem : Bool}
    (hok : (validateBitstreamMetadata libs v mem).value m = .ok) :
    (checkBitstreamGuid libs).value m = .ok ∧ (jsonLen m).toNat < 8192 := by
  simp only [validateBitstreamMetadata, Probe.value_bind, Probe.value_ite, Probe.value_pure] at hok
  split at hok
  · exact nomatch hok
  case isFalse hguid =>
  refine ⟨not_not.mp hguid, ?_⟩
  split at hok
  case isTrue hzero =>
    rw [jsonLen, hzero]
    decide
  split at hok
  · exact nomatch hok
  case isFalse hmax => exact UInt32.lt_iff_toNat_lt.mp (UInt32.not_le.mp hmax)

theorem validate_ok {env : ReconfEnv κ} {bitstream bitstreamLen : UInt64}
    (hok : ((validateBitstream libs env bitstream bitstreamLen).value m).1 = .ok) :
    20 < bitstreamLen.toNat ∧ (jsonLen m).toNat < 8192 ∧
      (headerLenOf libs env bitstream m bitstreamLen).toInt = 20 + (jsonLen m).toNat := by
  rw [headerLenOf]
  revert hok
  simp only [validateBitstream, Probe.value_bind, Probe.value_ite, Probe.value_pure]
  split
  · exact nofun
  split
  · exact nofun
  case isFalse hlen =>
  split
  swap
  · exact nofun
  split
  · exact nofun
  split
  · exact nofun
  case isFalse hmeta =>
  intro _
  obtain ⟨hguid, hmax⟩ := jsonLen_of_metadata (not_not.mp hmeta)
  refine ⟨UInt64.lt_iff_toNat_lt.mp (UInt64.not_le.mp fun h => hlen (.inr h)), hmax, ?_⟩
  have hheader : (getBitstreamHeaderLen libs).value m =
      (UInt64.ofNat metadataGuidLen + 4 + (jsonLen m).toUInt64).toUInt32.toInt32 := by
    simp only [getBitstreamHeaderLen, Probe.value_bind, Probe.value_ite, Probe.value_pure]
    rw [if_neg (not_not.mpr hguid)]
    rfl
  have hsum : (UInt64.ofNat metadataGuidLen + 4 + (jsonLen m).toUInt64).toUInt32.toNat =
      20 + (jsonLen m).toNat := by
    simp [metadataGuidLen]
    omega
  dsimp only
  rw [hheader, toInt_toInt32 (by omega), hsum]
  rfl

end

/-- The reads stay inside the bitstream, and what goes to the device is what follows the header. -/
structure StaysInside {κ : Type} (libs : Libs) (env : ReconfEnv κ) (slot : UInt32)
    (bitstream : UInt64) (m : Nat → UInt8) (bitstreamLen : UInt64) (flags : Int32) : Prop where
  header : 0 ≤ (headerLenOf libs env bitstream m bitstreamLen).toInt ∧
    (headerLenOf libs env bitstream m bitstreamLen).toInt ≤ bitstreamLen.toNat
  validate : ∀ i ∈ (validateBitstream libs env bitstream bitstreamLen).places m,
    i < bitstreamLen.toNat
  metadata : ∀ v mem, ∀ i ∈ (validateBitstreamMetadata libs v mem).places m, i < bitstreamLen.toNat
  gbsMetadata : ∀ mem, ∀ i ∈ (readGbsMetadata libs mem).places m, i < bitstreamLen.toNat
  handed : ∀ portId bufferSize bufferAddress,
    .portPr portId bufferSize bufferAddress ∈
      (xfpgaFpgaReconfigureSlot libs env slot bitstream m bitstreamLen flags).2 →
    bufferAddress = bitstream + extend (headerLenOf libs env bitstream m bitstreamLen) ∧
      (bufferSize.toNat : Int) =
        bitstreamLen.toNat - (headerLenOf libs env bitstream m bitstreamLen).toInt

/-- The bitstream is as long as its header says, and what follows the header is not too long for
32 bits if the call gets as far as the device. -/
structure Fits {κ : Type} (libs : Libs) (env : ReconfEnv κ) (bitstream : UInt64)
    (m : Nat → UInt8) (bitstreamLen : UInt64) (flags : Int32) : Prop where
  header : 20 + (jsonLen m).toNat ≤ bitstreamLen.toNat
  size : Reaches libs env bitstream m bitstreamLen flags →
    bitstreamLen.toNat - (20 + (jsonLen m).toNat) < 2 ^ 32

section

variable {κ : Type} {libs : Libs} {env : ReconfEnv κ} {slot : UInt32} {bitstream : UInt64}
  {m : Nat → UInt8} {bitstreamLen : UInt64} {flags : Int32}

theorem portPr_mem_bracket {accel : Option κ} {middle : List (Event κ)}
    {portId bufferSize : UInt32} {bufferAddress : UInt64} :
    .portPr portId bufferSize bufferAddress ∈ bracket accel middle ↔
      .portPr portId bufferSize bufferAddress ∈ middle := by
  cases accel <;> simp [bracket, closing]

theorem portPr_mem_session {accel : Option κ} {rest : List (Event κ)}
    {portId bufferSize : UInt32} {bufferAddress : UInt64} :
    .portPr portId bufferSize bufferAddress ∈ session accel rest ↔
      .portPr portId bufferSize bufferAddress ∈ rest := by
  cases accel <;> simp [session, opening]

theorem portPr_mem_iff {portId bufferSize : UInt32} {bufferAddress : UInt64} :
    .portPr portId bufferSize bufferAddress ∈
        (xfpgaFpgaReconfigureSlot libs env slot bitstream m bitstreamLen flags).2 ↔
      Reaches libs env bitstream m bitstreamLen flags ∧
        (.portPr portId bufferSize bufferAddress : Event κ) = portPrOf slot bitstream bitstreamLen
          (headerLenOf libs env bitstream m bitstreamLen) := by
  obtain ⟨hreach, hev⟩ | ⟨hno, hev | hev | ⟨accel, hev⟩⟩ :=
    reconfigureSlot_cases libs env slot bitstream m bitstreamLen flags
  · rw [hev, portPr_mem_bracket, portPr_mem_session, List.mem_singleton, and_iff_right hreach]
  · rw [hev]
    exact iff_of_false List.not_mem_nil fun h => hno h.1
  · rw [hev, portPr_mem_bracket]
    exact iff_of_false List.not_mem_nil fun h => hno h.1
  · rw [hev, portPr_mem_bracket, portPr_mem_session]
    exact iff_of_false List.not_mem_nil fun h => hno h.1

theorem portPrOf_inj {portId bufferSize : UInt32} {bufferAddress : UInt64} {headerLen : Int32} :
    (.portPr portId bufferSize bufferAddress : Event κ) =
        portPrOf slot bitstream bitstreamLen headerLen ↔
      portId = slot ∧ bufferSize = (bitstreamLen - extend headerLen).toUInt32 ∧
        bufferAddress = bitstream + extend headerLen := by
  simp [portPrOf]

theorem size_iff {headerLen : Int32} (hpos : 0 ≤ headerLen.toInt)
    (hle : headerLen.toInt ≤ bitstreamLen.toNat) :
    ((bitstreamLen - extend headerLen).toUInt32.toNat : Int) =
        bitstreamLen.toNat - headerLen.toInt ↔
      (bitstreamLen.toNat : Int) - headerLen.toInt < 2 ^ 32 := by
  have hext := toNat_extend hpos
  have hle' : extend headerLen ≤ bitstreamLen := by
    rw [UInt64.le_iff_toNat_le]
    omega
  rw [UInt64.toNat_toUInt32, UInt64.toNat_sub_of_le _ _ hle']
  omega

/-- The bitstreams that are taken stay inside iff they are as long as they say. -/
theorem stays_inside_iff
    (hok : ((validateBitstream libs env bitstream bitstreamLen).value m).1 = .ok) :
    StaysInside libs env slot bitstream m bitstreamLen flags ↔
      Fits libs env bitstream m bitstreamLen flags := by
  obtain ⟨-, -, hheader⟩ := validate_ok hok
  constructor
  · intro hs
    have hle := hs.header.2
    refine ⟨by omega, fun hreach => ?_⟩
    have hmem : portPrOf slot bitstream bitstreamLen
        (headerLenOf libs env bitstream m bitstreamLen) ∈
          (xfpgaFpgaReconfigureSlot libs env slot bitstream m bitstreamLen flags).2 :=
      portPr_mem_iff.mpr ⟨hreach, rfl⟩
    have hsize := (size_iff hs.header.1 hle).mp (hs.handed _ _ _ hmem).2
    omega
  · intro hf
    have hlen := hf.header
    have hpos : 0 ≤ (headerLenOf libs env bitstream m bitstreamLen).toInt := by omega
    have hle : (headerLenOf libs env bitstream m bitstreamLen).toInt ≤ bitstreamLen.toNat := by
      omega
    refine ⟨⟨hpos, hle⟩, fun i hi => ?_, fun v mem i hi => ?_, fun mem i hi => ?_, ?_⟩
    · exact Nat.lt_of_lt_of_le (lt_of_validateBitstream hi) hlen
    · exact Nat.lt_of_lt_of_le (lt_of_validateBitstreamMetadata hi) hlen
    · exact Nat.lt_of_lt_of_le (lt_of_readGbsMetadata hi) hlen
    · intro portId bufferSize bufferAddress hmem
      obtain ⟨hreach, heq⟩ := portPr_mem_iff.mp hmem
      obtain ⟨-, rfl, rfl⟩ := portPrOf_inj.mp heq
      have hfits := hf.size hreach
      exact ⟨rfl, (size_iff hpos hle).mpr (by omega)⟩

end

theorem reads_file {guid : FpgaGuid} {text : List UInt8} {m : Nat → UInt8}
    (hm : m = fun i => (guid.toList ++ toLe 4 text.length ++ text)[i]?.getD 0)
    (hlen : text.length < 2 ^ 32) :
    (List.range' 0 16).map m = guid.toList ∧ (jsonLen m).toNat = text.length ∧
      (List.range' 20 text.length).map m = text := by
  have hguid : guid.toList.length = 16 := guid.length_toList
  have hsize : (toLe 4 text.length).length = 4 := toLe_length 4 _
  have hfront := map_range'_getD [] guid.toList (toLe 4 text.length ++ text)
    (List.append_assoc guid.toList (toLe 4 text.length) text)
  have hlength := map_range'_getD guid.toList (toLe 4 text.length) text (List.append_assoc _ _ _)
  have htext := map_range'_getD (guid.toList ++ toLe 4 text.length) text []
    (congrArg _ (List.append_nil _).symm)
  rw [← hm, hguid] at hfront
  rw [← hm, hguid, hsize] at hlength
  rw [← hm, List.length_append, hguid, hsize] at htext
  have hvalue : jsonLen m = (UInt64.ofNat (ofLe ((List.range' 16 4).map m))).toUInt32 := by
    simp only [jsonLen, readJsonLen, readIntFromBitstream, readBytes, Probe.value_bind,
      Probe.value_ite, Probe.value_pure, value_readAll]
    rfl
  refine ⟨hfront, ?_, htext⟩
  rw [hvalue, hlength, ofLe_toLe, UInt64.toNat_toUInt32, UInt64.toNat_ofNat']
  omega

def sampleText : List UInt8 :=
  ("\x7b\"afu-image\":\x7b\"magic-no\":488605312," ++
    "\"interface-uuid\":\"58656F6E-4650-4741-B747-425376303031\"\x7d\x7d").toList.map
    fun c => UInt8.ofNat c.toNat

inductive SampleNode
  | root
  | afuImage
  | magicNo
  | interfaceId

def sampleGuid : FpgaGuid :=
  #v[0x58, 0x65, 0x6f, 0x6e, 0x46, 0x50, 0x47, 0x41, 0xb7, 0x47, 0x42, 0x53, 0x76, 0x30, 0x30, 0x31]

def sampleLibs : Libs where
  Json := SampleNode
  Double := Unit
  uuidParse := fun s =>
    if copyString s 37 = copyString metadataGuid 37 then some sampleGuid else none
  tokenerParse := fun text => if text = sampleText ++ [0] then some .root else none
  objectGetEx := fun
    | some .root, "afu-image" => some (some .afuImage)
    | some .afuImage, "magic-no" => some (some .magicNo)
    | some .afuImage, "interface-uuid" => some (some .interfaceId)
    | _, _ => none
  arrayGetIdx := fun _ _ => none
  getString := fun _ => metadataGuid
  getStringLen := fun _ => 36
  getInt := fun _ => 488605312
  getInt64 := fun _ => 488605312
  getDouble := fun _ => ()

def sampleFile : List UInt8 := sampleGuid.toList ++ toLe 4 sampleText.length ++ sampleText

def sampleMem (i : Nat) : UInt8 := (sampleFile[i]?).getD 0

def sampleEnv : ReconfEnv Unit where
  lock := true
  magic := true
  fddev := 3
  id := ⟨some true, .ok sampleGuid⟩
  validateMem := true
  getProperties := .ok
  setParent := .ok
  enumerate := .ok
  children := [()]
  openChild := fun _ => .ok
  destroyProperties := .ok
  readMem := true
  setUserclock := fun _ _ => .ok
  ioPtr := some .dfl
  ioctl := ⟨true, 0⟩
  errno := .other
  closeChild := fun _ => .ok

theorem length_sampleText : sampleText.length = 92 := by decide +kernel

theorem jsonLen_sampleMem : (jsonLen sampleMem).toNat = 92 :=
  (reads_file rfl (length_sampleText ▸ by decide)).2.1.trans length_sampleText

theorem sample_valid :
    ((validateBitstream sampleLibs sampleEnv 0x1000 64).value sampleMem).1 = .ok := by
  decide +kernel

theorem stays_inside_iff_sample :
    StaysInside sampleLibs sampleEnv 0 0x1000 sampleMem 64 0 ↔
      Fits sampleLibs sampleEnv 0x1000 sampleMem 64 0 :=
  stays_inside_iff sample_valid

/-- Of the bitstream only 64 bytes are passed, and its metadata alone has more. -/
theorem not_forall_stays_inside : ¬ ∀ (libs : Libs) (env : ReconfEnv Unit) (slot : UInt32)
    (bitstream : UInt64) (m : Nat → UInt8) (bitstreamLen : UInt64) (flags : Int32),
    ((validateBitstream libs env bitstream bitstreamLen).value m).1 = .ok →
      StaysInside libs env slot bitstream m bitstreamLen flags := by
  intro hall
  have hs := hall sampleLibs sampleEnv 0 0x1000 sampleMem 64 0 sample_valid
  obtain ⟨-, -, hheader⟩ := validate_ok sample_valid
  have hle := hs.header.2
  have hlong := jsonLen_sampleMem
  have hshort : (64 : UInt64).toNat = 64 := rfl
  omega

end OpaeLibs.PluginXfpga.ReconfBounds
