import OpaeLibs.Lib.Bytes
import OpaeLibs.OpaeC.Props

namespace OpaeLibs.Libbitstream.Bitstream

open OpaeLibs.Lib.Bytes OpaeLibs.OpaeC.Props

/-- What the calls of stdio and `malloc` give: `ftell` the position at the end, unless it is
negative, and `fread` the bytes that were read. -/
structure FileEnv where
  fopen : Bool
  seekEnd : Bool
  ftell : Option Nat
  mem : Bool
  seekSet : Bool
  fread : List UInt8
  ferror : Bool

def opaeBitstreamReadFile (env : FileEnv) : Except FpgaResult (List UInt8) :=
  if !env.fopen then .error .exception
  else if !env.seekEnd then .error .exception
  else
    match env.ftell with
    | none => .error .exception
    | some len =>
      if !env.mem then .error .noMemory
      else if !env.seekSet then .error .exception
      else if env.ferror then .error .exception
      else if env.fread.length ≠ len then .error .exception
      else .ok env.fread

/-- `rbfData` is an offset in `data`, of which `data_len` is the length. -/
structure OpaeBitstreamInfo (μ : Type) where
  filename : Option String
  data : List UInt8
  rbfData : Option Nat
  rbfLen : Nat
  prInterfaceId : FpgaGuid
  metadataVersion : Int32
  parsedMetadata : Option μ

def infoInit {μ : Type} : OpaeBitstreamInfo μ where
  filename := none
  data := []
  rbfData := none
  rbfLen := 0
  prInterfaceId := Vector.replicate 16 0
  metadataVersion := 0
  parsedMetadata := none

def sizeofLegacyHeader : Nat := 20
def sizeofHeader : Nat := 21
def sizeofGuid : Nat := 16

def opaeLegacyBitstreamMagic : Nat := 0x1d1f8680

def opaeIsLegacyBitstream (data : List UInt8) : Bool :=
  if data.length < sizeofLegacyHeader then false
  else ofLe (data.take 4) == opaeLegacyBitstreamMagic

/-- The id is stored backwards behind the magic. -/
def opaeResolveLegacyBitstream {μ : Type} (info : OpaeBitstreamInfo μ) : OpaeBitstreamInfo μ :=
  { info with
    prInterfaceId := Vector.ofFn fun i : Fin 16 => info.data.getD (4 + (15 - i.val)) 0
    rbfData := some sizeofLegacyHeader
    rbfLen := info.data.length - sizeofLegacyHeader }

/-- The JSON library, as far as the version of the metadata is concerned, and the parser of
version 1 with the interface id that it stores. -/
structure MetadataParser (μ ρ : Type) where
  tokener : List UInt8 → Option ρ
  version : ρ → Option Int32
  parseV1 : ρ → FpgaGuid → Option μ × FpgaGuid

/-- The parsed metadata, the interface id and the version. The version is stored before it is
looked at. -/
def opaeBitstreamParseMetadata {μ ρ : Type} (parser : MetadataParser μ ρ) (metadata : List UInt8)
    (prInterfaceId : FpgaGuid) (version : Int32) : Option μ × FpgaGuid × Int32 :=
  match parser.tokener metadata with
  | none => (none, prInterfaceId, version)
  | some root =>
    match parser.version root with
    | none => (none, prInterfaceId, version)
    | some version =>
      if version = 650 ∨ version = 640 ∨ version = 1 then
        let (parsed, prInterfaceId) := parser.parseV1 root prInterfaceId
        (parsed, prInterfaceId, 1)
      else (none, prInterfaceId, version)

def validGbsGuid : List UInt8 :=
  [0x58, 0x65, 0x6f, 0x6e, 0x46, 0x50, 0x47, 0x41, 0xb7, 0x47, 0x42, 0x53, 0x76, 0x30, 0x30, 0x31]

def metadataLength (data : List UInt8) : UInt32 :=
  UInt32.ofNat (ofLe ((data.drop sizeofGuid).take 4))

/-- `memcpy` of `len` bytes at `src` into a buffer, and a `NUL` behind them: `none` where this
leaves the data or the buffer. -/
def copyMetadata (bufSize : Nat) (data : List UInt8) (src len : Nat) : Option (List UInt8) :=
  if src + len ≤ data.length ∧ len < bufSize then some ((data.drop src).take len ++ [0]) else none

/-- `passed` is what the JSON parser was given. -/
structure Loaded (μ : Type) where
  result : FpgaResult
  info : OpaeBitstreamInfo μ
  passed : Option (List UInt8)

def expandMetadata {μ ρ : Type} (parser : MetadataParser μ ρ) (info : OpaeBitstreamInfo μ)
    (buf : List UInt8) : Loaded μ :=
  let (parsed, prInterfaceId, version) :=
    opaeBitstreamParseMetadata parser buf info.prInterfaceId info.metadataVersion
  ⟨if parsed.isSome then .ok else .exception,
    { info with
      parsedMetadata := parsed
      prInterfaceId := prInterfaceId
      metadataVersion := version },
    some buf⟩

/-- `mem` is the outcome of the `malloc` of the metadata, whose size is computed in 32 bits. -/
def opaeResolveBitstream {μ ρ : Type} (parser : MetadataParser μ ρ) (mem : Bool)
    (info : OpaeBitstreamInfo μ) : Option (Loaded μ) :=
  if info.data.length < sizeofHeader then some ⟨.invalidParam, info, none⟩
  else if info.data.take sizeofGuid ≠ validGbsGuid then some ⟨.invalidParam, info, none⟩
  else
    let len := metadataLength info.data
    let sz := sizeofGuid + 4 + len.toNat
    if sz > info.data.length then some ⟨.invalidParam, info, none⟩
    else
      let info := { info with rbfData := some sz, rbfLen := info.data.length - sz }
      if !mem then some ⟨.noMemory, info, none⟩
      else
        (copyMetadata (len + 1).toNat info.data (sizeofGuid + 4) len.toNat).map
          (expandMetadata parser info)

/-- `pathIsValid` is what `opae_bitstream_path_is_valid` says of the path. -/
structure LoadEnv where
  pathIsValid : Bool
  file : FileEnv
  mem : Bool

/-- `none` is a fault; `info` is what its caller passes in. -/
def opaeLoadBitstream {μ ρ : Type} (parser : MetadataParser μ ρ) (env : LoadEnv)
    (file : Option String) (info : Option (OpaeBitstreamInfo μ)) : Option (Loaded μ) :=
  match file, info with
  | some name, some info =>
    if !env.pathIsValid then some ⟨.invalidParam, info, none⟩
    else
      match opaeBitstreamReadFile env.file with
      | .error result => some ⟨result, infoInit, none⟩
      | .ok data =>
        let info := { infoInit with filename := some name, data := data }
        if opaeIsLegacyBitstream data then some ⟨.ok, opaeResolveLegacyBitstream info, none⟩
        else opaeResolveBitstream parser env.mem info
  | _, info => some ⟨.invalidParam, info.getD infoInit, none⟩

end OpaeLibs.Libbitstream.Bitstream
