import OpaeLibs.Lib.Swaps
import OpaeLibs.PluginXfpga.ReconfBounds

namespace OpaeLibs.PluginXfpga.InterfaceIds

open OpaeLibs.Lib.Bytes OpaeLibs.Lib.Probes OpaeLibs.Lib.Swaps
open OpaeLibs.OpaeC.Props OpaeLibs.PluginXfpga.Bitstream OpaeLibs.PluginXfpga.ReconfBounds

section Swap

/-- The step of `int64_be_to_le` as it is written there, on a signed number. -/
def swapPairsInt64 (mask : UInt64) (n : Int64) (val : Int64) : Int64 :=
  (((val <<< n).toUInt64 &&& (mask <<< n.toUInt64)) ||| ((val >>> n).toUInt64 &&& mask)).toInt64

def int64BeToLeInt64 (val : Int64) : Int64 :=
  let val := swapPairsInt64 0x00FF00FF00FF00FF 8 val
  let val := swapPairsInt64 0x0000FFFF0000FFFF 16 val
  ((val <<< 32).toUInt64 ||| ((val >>> 32).toUInt64 &&& 0xFFFFFFFF)).toInt64

theorem splits_bytes : Splits 0x00FF00FF00FF00FF#64 8 := by decide

theorem splits_words : Splits 0x0000FFFF0000FFFF#64 16 := by decide

theorem splits_halves : Splits 0xFFFFFFFF#64 32 := by decide

theorem swap_halves (v : BitVec 64) :
    swap 0xFFFFFFFF#64 32 v = (v <<< 32) ||| ((v >>> 32) &&& 0xFFFFFFFF#64) := by
  have hhigh : (v <<< 32) &&& (0xFFFFFFFF#64 <<< 32) = v <<< 32 := by
    have hones : (0xFFFFFFFF#64 : BitVec 64) <<< 32 = BitVec.allOnes 64 <<< 32 := by decide
    rw [hones, ← BitVec.shiftLeft_and_distrib, BitVec.and_allOnes]
  rw [swap, hhigh]

theorem toBitVec_int64BeToLe (val : UInt64) :
    (int64BeToLe val).toBitVec = swap 0xFFFFFFFF#64 32 (swap 0x0000FFFF0000FFFF#64 16
      (swap 0x00FF00FF00FF00FF#64 8 val.toBitVec)) := by
  rw [swap_halves]
  rfl

theorem toBitVec_swapPairsInt64_8 (mask : UInt64) (h : Splits mask.toBitVec 8) (val : Int64) :
    (swapPairsInt64 mask 8 val).toBitVec = swap mask.toBitVec 8 val.toBitVec := by
  rw [swap, ← sshiftRight_and h]
  rfl

theorem toBitVec_swapPairsInt64_16 (mask : UInt64) (h : Splits mask.toBitVec 16) (val : Int64) :
    (swapPairsInt64 mask 16 val).toBitVec = swap mask.toBitVec 16 val.toBitVec := by
  rw [swap, ← sshiftRight_and h]
  rfl

theorem int64BeToLeInt64_eq (val : UInt64) :
    (int64BeToLeInt64 val.toInt64).toUInt64 = int64BeToLe val := by
  apply UInt64.toBitVec_inj.mp
  have hbytes := toBitVec_swapPairsInt64_8 0x00FF00FF00FF00FF splits_bytes val.toInt64
  have hwords := toBitVec_swapPairsInt64_16 0x0000FFFF0000FFFF splits_words
    (swapPairsInt64 0x00FF00FF00FF00FF 8 val.toInt64)
  rw [hbytes] at hwords
  rw [toBitVec_int64BeToLe, swap_halves, ← sshiftRight_and splits_halves]
  exact congrArg (fun v : BitVec 64 => (v <<< 32) ||| (v.sshiftRight 32 &&& 0xFFFFFFFF#64)) hwords

theorem int64BeToLe_inj {val val' : UInt64} (h : int64BeToLe val = int64BeToLe val') :
    val = val' := by
  have hbits := congrArg UInt64.toBitVec h
  rw [toBitVec_int64BeToLe, toBitVec_int64BeToLe] at hbits
  have hwords := congrArg (swap 0xFFFFFFFF#64 32) hbits
  rw [swap_swap splits_halves, swap_swap splits_halves] at hwords
  have hbytes := congrArg (swap 0x0000FFFF0000FFFF#64 16) hwords
  rw [swap_swap splits_words, swap_swap splits_words] at hbytes
  have hval := congrArg (swap 0x00FF00FF00FF00FF#64 8) hbytes
  rw [swap_swap splits_bytes, swap_swap splits_bytes] at hval
  exact UInt64.toBitVec_inj.mp hval

theorem bytes_inj {bs bs' : List UInt8} (hlen : bs.length = 8) (hlen' : bs'.length = 8)
    (h : int64BeToLe (UInt64.ofNat (ofLe bs)) = int64BeToLe (UInt64.ofNat (ofLe bs'))) :
    bs = bs' := by
  have hnat := congrArg UInt64.toNat (int64BeToLe_inj h)
  have hlt := ofLe_lt bs
  have hlt' := ofLe_lt bs'
  rw [hlen] at hlt
  rw [hlen'] at hlt'
  rw [UInt64.toNat_ofNat_of_lt' hlt, UInt64.toNat_ofNat_of_lt' hlt'] at hnat
  rw [← toLe_ofLe bs, ← toLe_ofLe bs', hlen, hlen', hnat]

theorem halves_inj {guid guid' : FpgaGuid} : halves guid = halves guid' ↔ guid = guid' := by
  refine ⟨fun h => ?_, congrArg halves⟩
  have hlen : ∀ g : FpgaGuid, (g.toList.take 8).length = 8 ∧ (g.toList.drop 8).length = 8 := by
    intro g
    rw [List.length_take, List.length_drop, Vector.length_toList]
    exact ⟨rfl, rfl⟩
  have hhigh := bytes_inj (hlen guid).1 (hlen guid').1 (congrArg Prod.fst h)
  have hlow := bytes_inj (hlen guid).2 (hlen guid').2 (congrArg Prod.snd h)
  have hlist : guid.toList = guid'.toList := by
    rw [← List.take_append_drop 8 guid.toList, hhigh, hlow, List.take_append_drop]
  exact Vector.toList_inj.mp hlist

end Swap

section Text

def hexDigit (c : UInt8) : Option UInt8 :=
  if 48 ≤ c ∧ c ≤ 57 then some (c - 48)
  else if 65 ≤ c ∧ c ≤ 70 then some (c - 55)
  else if 97 ≤ c ∧ c ≤ 102 then some (c - 87)
  else none

/-- The place of the first digit of a byte in the text of a UUID, which has four dashes. -/
def bytePlace (k : Nat) : Nat :=
  2 * k + if k < 4 then 0 else if k < 6 then 1 else if k < 8 then 2 else if k < 10 then 3 else 4

def byteAt (s : CharPtr) (k : Nat) : Option UInt8 := do
  let high ← hexDigit (s (bytePlace k))
  let low ← hexDigit (s (bytePlace k + 1))
  return 16 * high + low

/-- The text of a UUID, digits of either case, and the bytes that it stands for. -/
structure Denotes (s : CharPtr) (guid : FpgaGuid) : Prop where
  dashes : ∀ i ∈ [8, 13, 18, 23], s i = 45
  bytes : ∀ k (hk : k < 16), byteAt s k = some guid[k]
  length : s 36 = 0

/-- `uuid_parse` accepts the texts of the UUIDs. -/
def UuidParses (libs : Libs) : Prop := ∀ s guid, libs.uuidParse s = some guid ↔ Denotes s guid

def metadataGuidBytes : FpgaGuid :=
  ⟨#[0x58, 0x65, 0x6f, 0x6e, 0x46, 0x50, 0x47, 0x41, 0xb7, 0x47, 0x42, 0x53, 0x76, 0x30, 0x30,
    0x31], by decide⟩

theorem denotes_metadataGuid : Denotes metadataGuid metadataGuidBytes where
  dashes := by decide +kernel
  bytes := by decide +kernel
  length := by decide +kernel

end Text

section Gate

variable {libs : Libs} {m : Nat → UInt8} {id : FpgaGuid}

def deviceOf (id : FpgaGuid) : IdView := ⟨some true, .ok id⟩

/-- The metadata have an image with the magic number and an interface id, which is that of the
device. -/
def Matches (libs : Libs) (root : libs.Json) (id : FpgaGuid) : Prop :=
  ∃ afuImage magicNo interfaceId,
    libs.objectGetEx (some root) "afu-image" = some afuImage ∧
    libs.objectGetEx afuImage "magic-no" = some (some magicNo) ∧
    libs.objectGetEx afuImage "interface-uuid" = some (some interfaceId) ∧
    (libs.getInt (some magicNo)).toUInt32 = fpgaGbs630Magic ∧
    Denotes (libs.getString (some interfaceId)) id

def metadata (m : Nat → UInt8) : List UInt8 := (List.range' 20 (jsonLen m).toNat).map m

theorem checkInterfaceId_ok_iff (bitstreamMagicNo : UInt32) (guid : FpgaGuid) :
    checkInterfaceId (deviceOf id) bitstreamMagicNo (halves guid) = .ok ↔
      bitstreamMagicNo = fpgaGbs630Magic ∧ guid = id := by
  have hid : getInterfaceId (deviceOf id) = .ok (halves id) := rfl
  rw [checkInterfaceId]
  by_cases hmagic : bitstreamMagicNo = fpgaGbs630Magic
  · rw [if_neg (not_not.mpr hmagic), hid, ← halves_inj, Prod.ext_iff, and_iff_right hmagic,
      and_comm]
    dsimp only
    split
    · next hne => exact iff_of_false nofun fun heq => hne.elim (· heq.1) (· heq.2)
    · next hne => exact iff_of_true rfl (not_or.mp hne |>.imp not_not.mp not_not.mp)
  · rw [if_pos hmagic]
    exact iff_of_false nofun fun h => hmagic h.1

theorem fieldOf_eq_some {parent : Option libs.Json} {name : String} {o : libs.Json} :
    fieldOf libs parent name = some o ↔ libs.objectGetEx parent name = some (some o) := by
  rw [fieldOf]
  cases libs.objectGetEx parent name with
  | none => exact iff_of_false nofun nofun
  | some o' => rw [Option.getD_some, Option.some.injEq]

theorem checkMetadata_ok_iff (huuid : UuidParses libs) (root : libs.Json) :
    checkMetadata libs (deviceOf id) (some root) = .ok ↔ Matches libs root id := by
  rw [checkMetadata, Matches]
  cases himage : libs.objectGetEx (some root) "afu-image" with
  | none => exact iff_of_false nofun fun ⟨_, _, _, h, _⟩ => nomatch h
  | some afuImage =>
    dsimp only
    cases hmagic : fieldOf libs afuImage "magic-no" with
    | none =>
      refine iff_of_false nofun ?_
      rintro ⟨_, magicNo, _, ⟨⟩, h, -⟩
      exact nomatch hmagic.symm.trans (fieldOf_eq_some.mpr h)
    | some magicNo =>
      cases hinterface : fieldOf libs afuImage "interface-uuid" with
      | none =>
        refine iff_of_false nofun ?_
        rintro ⟨_, _, interfaceId, ⟨⟩, -, h, -⟩
        exact nomatch hinterface.symm.trans (fieldOf_eq_some.mpr h)
      | some interfaceId =>
        have hfields : (∃ afuImage' magicNo' interfaceId', some afuImage = some afuImage' ∧
            libs.objectGetEx afuImage' "magic-no" = some (some magicNo') ∧
            libs.objectGetEx afuImage' "interface-uuid" = some (some interfaceId') ∧
            (libs.getInt (some magicNo')).toUInt32 = fpgaGbs630Magic ∧
            Denotes (libs.getString (some interfaceId')) id) ↔
            (libs.getInt (some magicNo)).toUInt32 = fpgaGbs630Magic ∧
              Denotes (libs.getString (some interfaceId)) id := by
          constructor
          · rintro ⟨_, _, _, ⟨⟩, hmagic', hinterface', h⟩
            obtain rfl := Option.some.inj (hmagic.symm.trans (fieldOf_eq_some.mpr hmagic'))
            obtain rfl := Option.some.inj (hinterface.symm.trans (fieldOf_eq_some.mpr hinterface'))
            exact h
          · intro h
            exact ⟨_, _, _, rfl, fieldOf_eq_some.mp hmagic, fieldOf_eq_some.mp hinterface, h⟩
        have hdenotes := huuid (libs.getString (some interfaceId)) id
        rw [hfields, ← hdenotes, if_neg (by simp), stringToGuid]
        cases libs.uuidParse (libs.getString (some interfaceId)) with
        | none => exact iff_of_false nofun fun h => nomatch h.2
        | some guid =>
          rw [Option.some.injEq]
          exact checkInterfaceId_ok_iff _ guid

theorem checkBitstreamGuid_ok_iff (huuid : UuidParses libs) :
    (checkBitstreamGuid libs).value m = .ok ↔
      (List.range' 0 16).map m = metadataGuidBytes.toList := by
  have hguid := (huuid metadataGuid metadataGuidBytes).mpr denotes_metadataGuid
  rw [checkBitstreamGuid, Probe.value_bind, stringToGuid, hguid, readBytes, value_readAll]
  dsimp only
  rw [Probe.value_pure]
  split
  · next hne => exact iff_of_false (fun h => by cases h) hne
  · next heq => exact iff_of_true rfl (not_not.mp heq)

end Gate

/-- A bitstream with metadata is accepted if it has the GUID, its metadata are JSON, and these
match the device. Memory that is refused is an error of its own. -/
theorem validateBitstreamMetadata_ok_iff (libs : Libs) (m : Nat → UInt8) (id : FpgaGuid)
    (mem : Bool) (huuid : UuidParses libs) (hpos : 0 < jsonLen m)
    (hmax : jsonLen m < metadataMaxLen) :
    (validateBitstreamMetadata libs (deviceOf id) mem).value m = .ok ↔
      mem = true ∧ (List.range' 0 16).map m = metadataGuidBytes.toList ∧
        ∃ root, libs.tokenerParse (metadata m ++ [0]) = some root ∧ Matches libs root id := by
  have hjson : (readJson libs (jsonLen m)).value m = libs.tokenerParse (metadata m ++ [0]) := by
    rw [readJson, Probe.value_bind, readBytes, value_readAll]
    rfl
  have hne : jsonLen m ≠ 0 := fun h => absurd (h ▸ hpos) (by decide)
  rw [← checkBitstreamGuid_ok_iff huuid]
  rw [jsonLen] at hne hmax hjson
  simp only [validateBitstreamMetadata, Probe.value_bind, Probe.value_ite, Probe.value_pure]
  rw [if_neg hne, if_neg (UInt32.not_le.mpr hmax), hjson]
  by_cases hguid : (checkBitstreamGuid libs).value m = .ok
  · rw [if_neg (not_not.mpr hguid), and_iff_right hguid]
    cases mem with
    | false => exact iff_of_false (fun h => by cases h) fun h => by cases h.1
    | true =>
      cases libs.tokenerParse (metadata m ++ [0]) with
      | none =>
        refine iff_of_false (fun h => by cases h) ?_
        rintro ⟨-, root, hroot, -⟩
        cases hroot
      | some root =>
        rw [if_neg (by decide), checkMetadata_ok_iff huuid]
        refine ⟨fun h => ⟨rfl, root, rfl, h⟩, ?_⟩
        rintro ⟨-, _, ⟨⟩, h⟩
        exact h
  · rw [if_pos hguid]
    exact iff_of_false (fun h => by cases h) fun h => hguid h.2.1

section Sample

/-- The bytes of a UUID, if it is the text of one. -/
def parseUuid (s : CharPtr) : Option FpgaGuid :=
  if [8, 13, 18, 23].all (s · == 45) && (List.range 16).all (byteAt s · |>.isSome) && s 36 == 0 then
    some (Vector.ofFn fun k => (byteAt s k).getD 0)
  else none

theorem parseUuid_eq_some {s : CharPtr} {guid : FpgaGuid} :
    parseUuid s = some guid ↔ Denotes s guid := by
  have htext : ([8, 13, 18, 23].all (s · == 45) && (List.range 16).all (byteAt s · |>.isSome) &&
      s 36 == 0) = true ↔
        (∀ i ∈ [8, 13, 18, 23], s i = 45) ∧ (∀ k < 16, (byteAt s k).isSome) ∧ s 36 = 0 := by
    simp only [Bool.and_eq_true, List.all_eq_true, List.mem_range, beq_iff_eq, and_assoc]
  rw [parseUuid]
  split
  · next hs =>
    obtain ⟨hdashes, hbytes, hend⟩ := htext.mp hs
    rw [Option.some.injEq]
    constructor
    · rintro rfl
      refine ⟨hdashes, fun k hk => ?_, hend⟩
      obtain ⟨b, hb⟩ := Option.isSome_iff_exists.mp (hbytes k hk)
      rw [Vector.getElem_ofFn, hb, Option.getD_some]
    · intro h
      ext k hk
      rw [Vector.getElem_ofFn, h.bytes k hk, Option.getD_some]
  · next hs =>
    refine iff_of_false nofun fun h => hs (htext.mpr ⟨h.dashes, fun k hk => ?_, h.length⟩)
    rw [h.bytes k hk, Option.isSome_some]

def uuidLibs : Libs := { sampleLibs with uuidParse := parseUuid }

/-- The sample has the id of its own GUID. -/
theorem validateBitstreamMetadata_ok_iff_sample :
    (validateBitstreamMetadata uuidLibs (deviceOf sampleGuid) true).value sampleMem = .ok ↔
      true = true ∧ (List.range' 0 16).map sampleMem = metadataGuidBytes.toList ∧
        ∃ json, uuidLibs.tokenerParse (metadata sampleMem ++ [0]) = some json ∧
          Matches uuidLibs json sampleGuid :=
  validateBitstreamMetadata_ok_iff uuidLibs sampleMem sampleGuid true
    (fun _ _ => parseUuid_eq_some)
    (UInt32.lt_iff_toNat_lt.mpr (jsonLen_sampleMem.symm ▸ by decide))
    (UInt32.lt_iff_toNat_lt.mpr (jsonLen_sampleMem.symm ▸ by decide))

end Sample

end OpaeLibs.PluginXfpga.InterfaceIds
