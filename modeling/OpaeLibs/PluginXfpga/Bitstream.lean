import OpaeLibs.Lib.Bytes
import OpaeLibs.Lib.Probes
import OpaeLibs.OpaeC.Props

namespace OpaeLibs.PluginXfpga.Bitstream

open OpaeLibs.Lib.Bytes OpaeLibs.Lib.Probes
open OpaeLibs.OpaeC.Props

/-- Reads of the bitstream, by offset. -/
abbrev Bits := Probe Nat UInt8

/-- A string of C, as the memory at its address. -/
abbrev CharPtr := Nat → UInt8

/-- `libuuid` and `json-c`, of which an object can be `NULL`. The look-up of a field fails, or gives
the object of the field. -/
structure Libs where
  Json : Type
  Double : Type
  uuidParse : CharPtr → Option FpgaGuid
  tokenerParse : List UInt8 → Option Json
  objectGetEx : Option Json → String → Option (Option Json)
  arrayGetIdx : Option Json → Nat → Option Json
  getString : Option Json → CharPtr
  getStringLen : Option Json → Nat
  getInt : Option Json → Int32
  getInt64 : Option Json → Int64
  getDouble : Option Json → Double

def metadataGuidLen : Nat := 16
def metadataMaxLen : UInt32 := 8192
def fpgaGbs630Magic : UInt32 := 0x1d1f8680
def guidLen : Nat := 36

/-- A string literal, with the `NUL` behind it. -/
def literal (s : String) : CharPtr := fun i => (s.toUTF8.data[i]?).getD 0

def metadataGuid : CharPtr := literal "58656F6E-4650-4741-B747-425376303031"

def readBytes (offset n : Nat) : Bits (List UInt8) := readAll (List.range' offset n)

def stringToGuid (libs : Libs) (guid : CharPtr) : Except FpgaResult FpgaGuid :=
  match libs.uuidParse guid with
  | none => .error .invalidParam
  | some result => .ok result

def readIntFromBitstream (offset size : Nat) : Bits UInt64 :=
  if size = 1 ∨ size = 2 ∨ size = 4 ∨ size = 8 then do
    let bytes ← readBytes offset size
    return UInt64.ofNat (ofLe bytes)
  else return 0

def swapPairs (mask : UInt64) (n : UInt64) (val : UInt64) : UInt64 :=
  ((val <<< n) &&& (mask <<< n)) ||| ((val >>> n) &&& mask)

def int64BeToLe (val : UInt64) : UInt64 :=
  let val := swapPairs 0x00FF00FF00FF00FF 8 val
  let val := swapPairs 0x0000FFFF0000FFFF 16 val
  (val <<< 32) ||| ((val >>> 32) &&& 0xFFFFFFFF)

def halves (guid : FpgaGuid) : UInt64 × UInt64 :=
  (int64BeToLe (UInt64.ofNat (ofLe (guid.toList.take 8))),
    int64BeToLe (UInt64.ofNat (ofLe (guid.toList.drop 8))))

/-- The handle, as the check of the interface id sees it: its token, if it has one, with the
validity of its magic, and the id that sysfs has. -/
structure IdView where
  token : Option Bool
  interfaceId : Except FpgaError FpgaGuid

def getInterfaceId (v : IdView) : Except FpgaResult (UInt64 × UInt64) :=
  match v.token with
  | none => .error .invalidParam
  | some false => .error .invalidParam
  | some true =>
    match v.interfaceId with
    | .error _ => .error .exception
    | .ok guid => .ok (halves guid)

def checkInterfaceId (v : IdView) (bitstreamMagicNo : UInt32) (ifid : UInt64 × UInt64) :
    FpgaResult :=
  if bitstreamMagicNo ≠ fpgaGbs630Magic then .notFound
  else
    match getInterfaceId v with
    | .error _ => .notFound
    | .ok intfcId => if ifid.2 ≠ intfcId.2 ∨ ifid.1 ≠ intfcId.1 then .notFound else .ok

def checkBitstreamGuid (libs : Libs) : Bits FpgaResult := do
  let bitstreamGuid ← readBytes 0 16
  match stringToGuid libs metadataGuid with
  | .error _ => return .invalidParam
  | .ok expectedGuid =>
    return if bitstreamGuid ≠ expectedGuid.toList then .invalidParam else .ok

/-- The 32-bit length behind the GUID. -/
def readJsonLen : Bits UInt32 := do
  let jsonLen ← readIntFromBitstream metadataGuidLen 4
  return jsonLen.toUInt32

/-- The sum is one of `size_t` that is returned as an `int`. -/
def getBitstreamHeaderLen (libs : Libs) : Bits Int32 := do
  if (← checkBitstreamGuid libs) ≠ .ok then return -1
  let jsonLen ← readJsonLen
  return (UInt64.ofNat metadataGuidLen + 4 + jsonLen.toUInt64).toUInt32.toInt32

def getBitstreamJsonLen (libs : Libs) : Bits Int32 := do
  if (← checkBitstreamGuid libs) ≠ .ok then return -1
  let jsonLen ← readJsonLen
  return jsonLen.toInt32

def fieldOf (libs : Libs) (parent : Option libs.Json) (name : String) : Option libs.Json :=
  (libs.objectGetEx parent name).getD none

/-- The checks of the parsed metadata. What the parser rejects is left with the result that the
function starts from. -/
def checkMetadata (libs : Libs) (v : IdView) : Option libs.Json → FpgaResult
  | none => .exception
  | some root =>
    match libs.objectGetEx (some root) "afu-image" with
    | none => .invalidParam
    | some afuImage =>
      let magicNo := fieldOf libs afuImage "magic-no"
      let interfaceId := fieldOf libs afuImage "interface-uuid"
      if magicNo.isNone ∨ interfaceId.isNone then .invalidParam
      else
        match stringToGuid libs (libs.getString interfaceId) with
        | .error result => result
        | .ok guid => checkInterfaceId v (libs.getInt magicNo).toUInt32 (halves guid)

/-- The metadata, as it is copied and parsed. -/
def readJson (libs : Libs) (jsonLen : UInt32) : Bits (Option libs.Json) := do
  let jsonMetadata ← readBytes (metadataGuidLen + 4) jsonLen.toNat
  return libs.tokenerParse (jsonMetadata ++ [0])

/-- `mem` is the outcome of the `malloc` of the copy. -/
def validateBitstreamMetadata (libs : Libs) (v : IdView) (mem : Bool) : Bits FpgaResult := do
  if (← checkBitstreamGuid libs) ≠ .ok then return .exception
  let jsonLen ← readJsonLen
  if jsonLen = 0 then return .ok
  if jsonLen ≥ metadataMaxLen then return .exception
  if !mem then return .noMemory
  return checkMetadata libs v (← readJson libs jsonLen)

structure AfuClustersContent where
  name : List UInt8
  totalContexts : Int32
  afuUuid : List UInt8

structure AfuImageContent where
  magicNum : UInt64
  interfaceUuid : List UInt8
  clockFrequencyHigh : Int32
  clockFrequencyLow : Int32
  power : Int32
  afuClusters : AfuClustersContent

structure GbsMetadata (libs : Libs) where
  version : libs.Double
  afuImage : AfuImageContent

/-- `memcpy` of `n` bytes of a string. -/
def copyString (s : CharPtr) (n : Nat) : List UInt8 := (List.range n).map s

/-- A field that is an integer keeps the zero that the caller has put there if it is missing. -/
def intField (libs : Libs) (parent : Option libs.Json) (name : String) : Int64 :=
  match libs.objectGetEx parent name with
  | none => 0
  | some o => libs.getInt64 o

def readClusters (libs : Libs) (cluster : Option libs.Json) :
    Except FpgaResult AfuClustersContent :=
  match libs.objectGetEx cluster "accelerator-type-uuid" with
  | none => .error .invalidParam
  | some uuid =>
    .ok
      { name :=
          match libs.objectGetEx cluster "name" with
          | none => []
          | some name => copyString (libs.getString name) (libs.getStringLen name)
        totalContexts := (intField libs cluster "total-contexts").toInt32
        afuUuid := copyString (libs.getString uuid) guidLen }

def parseMetadata (libs : Libs) (root : Option libs.Json) :
    Except FpgaResult (GbsMetadata libs) :=
  if root.isNone then .error .invalidParam
  else
    match libs.objectGetEx root "version" with
    | none => .error .invalidParam
    | some version =>
      match libs.objectGetEx root "afu-image" with
      | none => .error .invalidParam
      | some afuImage =>
        match libs.objectGetEx afuImage "interface-uuid" with
        | none => .error .invalidParam
        | some interfaceId =>
          match libs.objectGetEx afuImage "accelerator-clusters" with
          | none => .error .invalidParam
          | some acceleratorClusters =>
            match readClusters libs (libs.arrayGetIdx acceleratorClusters 0) with
            | .error result => .error result
            | .ok afuClusters =>
              .ok
                { version := libs.getDouble version
                  afuImage :=
                    { magicNum := (intField libs afuImage "magic-no").toUInt64
                      interfaceUuid := copyString (libs.getString interfaceId) guidLen
                      clockFrequencyHigh := (intField libs afuImage "clock-frequency-high").toInt32
                      clockFrequencyLow := (intField libs afuImage "clock-frequency-low").toInt32
                      power := (intField libs afuImage "power").toInt32
                      afuClusters := afuClusters } }

def readGbsMetadata (libs : Libs) (mem : Bool) : Bits (Except FpgaResult (GbsMetadata libs)) := do
  if (← checkBitstreamGuid libs) ≠ .ok then return .error .invalidParam
  let jsonLen ← readJsonLen
  if jsonLen = 0 ∨ jsonLen ≥ metadataMaxLen then return .error .invalidParam
  if !mem then return .error .noMemory
  return parseMetadata libs (← readJson libs jsonLen)

end OpaeLibs.PluginXfpga.Bitstream
