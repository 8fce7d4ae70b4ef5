import OpaeLibs.Lib.Frames
import OpaeLibs.Libbitstream.Bitstream

namespace OpaeLibs.Libbitstream.GbsFormat

open OpaeLibs.Lib.Bytes OpaeLibs.Lib.Frames OpaeLibs.OpaeC.Props
open OpaeLibs.Libbitstream.Bitstream

/-- A GBS file: the GUID, the length of the metadata, the metadata and the body. -/
def gbsFile (metadata body : List UInt8) : List UInt8 := frame validGbsGuid 4 metadata body

def legacyFile (id : FpgaGuid) (body : List UInt8) : List UInt8 :=
  toLe 4 opaeLegacyBitstreamMagic ++ (id.toList ++ body)

/-- The file opens and reads as these bytes. -/
structure Reads (env : FileEnv) (file : List UInt8) : Prop where
  fopen : env.fopen = true
  seekEnd : env.seekEnd = true
  ftell : env.ftell = some file.length
  mem : env.mem = true
  seekSet : env.seekSet = true
  fread : env.fread = file
  ferror : env.ferror = false

theorem Reads.readFile_eq {env : FileEnv} {file : List UInt8} (h : Reads env file) :
    opaeBitstreamReadFile env = .ok file := by
  simp [opaeBitstreamReadFile, h.fopen, h.seekEnd, h.ftell, h.mem, h.seekSet, h.fread, h.ferror]

/-- The bytes that the loader reports as the body. -/
def rbf {μ : Type} (info : OpaeBitstreamInfo μ) : Option (List UInt8) :=
  info.rbfData.map fun x => (info.data.drop x).take info.rbfLen

section Legacy

variable {file : List UInt8}

theorem legacyFile_length (id : FpgaGuid) (body : List UInt8) :
    (legacyFile id body).length = 20 + body.length := by
  simp only [legacyFile, List.length_append, toLe_length, Vector.length_toList]
  omega

theorem isLegacy_legacyFile (id : FpgaGuid) (body : List UInt8) :
    opaeIsLegacyBitstream (legacyFile id body) = true := by
  have hlen : ¬ (legacyFile id body).length < sizeofLegacyHeader := by
    rw [legacyFile_length, sizeofLegacyHeader]
    omega
  have htake : (legacyFile id body).take 4 = toLe 4 opaeLegacyBitstreamMagic :=
    List.take_left' (toLe_length _ _)
  rw [opaeIsLegacyBitstream, if_neg hlen, htake, ofLe_toLe]
  decide

theorem exists_legacyFile (h : opaeIsLegacyBitstream file = true) :
    ∃ id body, file = legacyFile id body := by
  rw [opaeIsLegacyBitstream] at h
  split at h
  case isTrue => exact absurd h Bool.false_ne_true
  case isFalse hlen =>
    rw [Nat.not_lt, sizeofLegacyHeader] at hlen
    have hmagic := eq_of_beq h
    have htake : (file.take 4).length = 4 := by
      rw [List.length_take]
      omega
    have hid : ((file.drop 4).take 16).length = 16 := by
      rw [List.length_take, List.length_drop]
      omega
    refine ⟨⟨((file.drop 4).take 16).toArray, by simpa using hid⟩, file.drop 20, ?_⟩
    have hsame := toLe_ofLe (file.take 4)
    rw [htake, hmagic] at hsame
    have hdrop : file.drop 20 = (file.drop 4).drop 16 := by rw [List.drop_drop]
    rw [legacyFile, hsame, hdrop, Vector.toList_mk, List.take_append_drop, List.take_append_drop]

theorem drop_legacyFile (id : FpgaGuid) (body : List UInt8) :
    (legacyFile id body).drop 4 = id.toList ++ body := List.drop_left' (toLe_length _ _)

theorem getD_legacyFile (id : FpgaGuid) (body : List UInt8) {k : Nat} (hk : k < 16) :
    (legacyFile id body).getD (4 + k) 0 = id[k] := by
  have hget : (legacyFile id body)[4 + k]? = id.toList[k]? := by
    rw [← List.getElem?_drop, drop_legacyFile, List.getElem?_append_left (by simpa using hk)]
  rw [List.getD_eq_getElem?_getD, hget]
  simp [hk]

section Resolve

variable {μ : Type} {info : OpaeBitstreamInfo μ} {id : FpgaGuid} {body : List UInt8}

theorem rbf_resolveLegacy (h : info.data = legacyFile id body) :
    rbf (opaeResolveLegacyBitstream info) = some body := by
  have hdrop : (legacyFile id body).drop 20 = body := by
    have hsplit : (legacyFile id body).drop 20 = ((legacyFile id body).drop 4).drop 16 := by
      rw [List.drop_drop]
    rw [hsplit, drop_legacyFile, List.drop_left' (by simp)]
  have hlen : (legacyFile id body).length - sizeofLegacyHeader = body.length := by
    rw [legacyFile_length, sizeofLegacyHeader, Nat.add_sub_cancel_left]
  simp only [rbf, opaeResolveLegacyBitstream, Option.map_some, h, sizeofLegacyHeader] at hlen ⊢
  rw [hlen, hdrop, List.take_length]

theorem prInterfaceId_resolveLegacy (h : info.data = legacyFile id body) :
    (opaeResolveLegacyBitstream info).prInterfaceId = id.reverse := by
  ext i hi
  rw [opaeResolveLegacyBitstream, h]
  simp only [Vector.getElem_ofFn, Vector.getElem_reverse]
  rw [getD_legacyFile id body (by omega)]

end Resolve

end Legacy

section Gbs

variable {file metadata body : List UInt8}

/-- The checks of a GBS file. -/
structure IsGbs (file : List UInt8) : Prop where
  header : 21 ≤ file.length
  guid : file.take 16 = validGbsGuid
  length : 20 + (metadataLength file).toNat ≤ file.length

theorem toNat_metadataLength (file : List UInt8) :
    (metadataLength file).toNat = lengthField 16 4 file := by
  have hlt := ofLe_lt ((file.drop 16).take 4)
  have hle : ((file.drop 16).take 4).length ≤ 4 := by
    rw [List.length_take]
    exact Nat.min_le_left _ _
  have hpow := Nat.pow_le_pow_right (n := 256) (by decide) hle
  rw [metadataLength, lengthField, UInt32.toNat_ofNat', sizeofGuid]
  exact Nat.mod_eq_of_lt (Nat.lt_of_lt_of_le hlt hpow)

theorem metadataLength_gbsFile (body : List UInt8) (h : metadata.length < 2 ^ 32) :
    (metadataLength (gbsFile metadata body)).toNat = metadata.length := by
  rw [toNat_metadataLength]
  exact lengthField_frame validGbsGuid 4 metadata body h

theorem gbsFile_length : (gbsFile metadata body).length = 20 + metadata.length + body.length := by
  rw [gbsFile, frame_length]
  rfl

theorem isGbs_gbsFile (h : metadata.length < 2 ^ 32) (hne : 1 ≤ metadata.length + body.length) :
    IsGbs (gbsFile metadata body) := by
  refine ⟨?_, take_frame validGbsGuid 4 metadata body, ?_⟩
  · rw [gbsFile_length]
    omega
  · rw [metadataLength_gbsFile body h, gbsFile_length]
    omega

theorem IsGbs.exists_gbsFile (h : IsGbs file) :
    ∃ metadata body, metadata.length < 2 ^ 32 ∧ 1 ≤ metadata.length + body.length ∧
      file = gbsFile metadata body := by
  have hlength := h.length
  have hlt := (metadataLength file).toNat_lt
  rw [toNat_metadataLength] at hlength hlt
  have hframe := eq_frame (t := 16) 4 hlength
  rw [h.guid] at hframe
  have htotal := congrArg List.length hframe
  rw [frame_length] at htotal
  have hguid : validGbsGuid.length = 16 := rfl
  have hheader := h.header
  refine ⟨_, _, ?_, ?_, hframe⟩
  · rw [List.length_take]
    omega
  · omega

theorem not_legacy_gbsFile : opaeIsLegacyBitstream (gbsFile metadata body) = false := by
  have hlen : ¬ (gbsFile metadata body).length < sizeofLegacyHeader := by
    rw [gbsFile_length, sizeofLegacyHeader]
    omega
  rw [opaeIsLegacyBitstream, if_neg hlen]
  rfl

end Gbs

section Resolve

variable {μ ρ : Type} {parser : MetadataParser μ ρ} {info : OpaeBitstreamInfo μ} {mem : Bool}

theorem resolve_rejects (h : ¬ IsGbs info.data) :
    opaeResolveBitstream parser mem info = some ⟨.invalidParam, info, none⟩ := by
  rw [opaeResolveBitstream]
  by_cases hheader : info.data.length < sizeofHeader
  · rw [if_pos hheader]
  · rw [if_neg hheader]
    by_cases hguid : info.data.take sizeofGuid ≠ validGbsGuid
    · rw [if_pos hguid]
    · rw [if_neg hguid]
      have hlength : sizeofGuid + 4 + (metadataLength info.data).toNat > info.data.length := by
        rw [gt_iff_lt, ← Nat.not_le]
        exact fun hle => h ⟨Nat.not_lt.mp hheader, not_not.mp hguid, hle⟩
      exact if_pos hlength

theorem copyMetadata_gbsFile {metadata body : List UInt8} (hlt : metadata.length < 2 ^ 32 - 1) :
    copyMetadata (metadataLength (gbsFile metadata body) + 1).toNat (gbsFile metadata body)
      (sizeofGuid + 4) (metadataLength (gbsFile metadata body)).toNat = some (metadata ++ [0]) := by
  have hlen : (metadataLength (gbsFile metadata body)).toNat = metadata.length :=
    metadataLength_gbsFile body (by omega)
  have hbuf : (metadataLength (gbsFile metadata body) + 1).toNat = metadata.length + 1 := by
    rw [UInt32.toNat_add, hlen, UInt32.toNat_one]
    omega
  have htotal : (gbsFile metadata body).length = 20 + metadata.length + body.length :=
    gbsFile_length
  rw [hbuf, hlen, copyMetadata, if_pos]
  · exact congrArg (fun m => some (m ++ [0])) (payload_frame validGbsGuid 4 metadata body)
  · rw [htotal, sizeofGuid]
    omega

theorem copyMetadata_overflow {metadata body : List UInt8} (h : metadata.length = 2 ^ 32 - 1) :
    copyMetadata (metadataLength (gbsFile metadata body) + 1).toNat (gbsFile metadata body)
      (sizeofGuid + 4) (metadataLength (gbsFile metadata body)).toNat = none := by
  have hlen : (metadataLength (gbsFile metadata body)).toNat = metadata.length :=
    metadataLength_gbsFile body (by omega)
  have hbuf : (metadataLength (gbsFile metadata body) + 1).toNat = 0 := by
    rw [UInt32.toNat_add, hlen, UInt32.toNat_one, h]
    decide
  rw [hbuf, copyMetadata, if_neg fun hc => Nat.not_lt_zero _ hc.2]

/-- What the loader has found out of a GBS file before it looks at the metadata. -/
def split (info : OpaeBitstreamInfo μ) (metadata body : List UInt8) : OpaeBitstreamInfo μ :=
  { info with rbfData := some (20 + metadata.length), rbfLen := body.length }

theorem resolve_gbs {metadata body : List UInt8} (hdata : info.data = gbsFile metadata body)
    (hlt : metadata.length < 2 ^ 32) (hne : 1 ≤ metadata.length + body.length) :
    opaeResolveBitstream parser mem info =
      if !mem then some ⟨.noMemory, split info metadata body, none⟩
      else if metadata.length = 2 ^ 32 - 1 then none
      else some (expandMetadata parser (split info metadata body) (metadata ++ [0])) := by
  have hgbs := isGbs_gbsFile hlt hne
  rw [← hdata] at hgbs
  have hheader : ¬ info.data.length < sizeofHeader := Nat.not_lt.mpr hgbs.header
  have hguid : ¬ info.data.take sizeofGuid ≠ validGbsGuid := not_not.mpr hgbs.guid
  have hlength : ¬ sizeofGuid + 4 + (metadataLength info.data).toNat > info.data.length :=
    Nat.not_lt.mpr hgbs.length
  have hlen := metadataLength_gbsFile body hlt
  have hsz : sizeofGuid + 4 + (metadataLength info.data).toNat = 20 + metadata.length := by
    rw [hdata, hlen]
    rfl
  have hbody : info.data.length - (20 + metadata.length) = body.length := by
    rw [hdata, gbsFile_length, Nat.add_sub_cancel_left]
  rw [opaeResolveBitstream, if_neg hheader, if_neg hguid]
  dsimp only
  rw [if_neg hlength, hsz, hbody]
  cases mem with
  | false => rfl
  | true =>
    by_cases hmax : metadata.length = 2 ^ 32 - 1
    · rw [hdata, copyMetadata_overflow hmax, if_pos hmax]
      rfl
    · rw [hdata, copyMetadata_gbsFile (by omega), if_neg hmax, ← hdata]
      rfl

theorem rbf_split {metadata body : List UInt8} (hdata : info.data = gbsFile metadata body) :
    rbf (split info metadata body) = some body := by
  have hrest : (gbsFile metadata body).drop (20 + metadata.length) = body :=
    rest_frame validGbsGuid 4 metadata body
  rw [rbf, split, Option.map_some, hdata, hrest, List.take_length]

theorem expandMetadata_ok_iff (parser : MetadataParser μ ρ) (info : OpaeBitstreamInfo μ)
    (buf : List UInt8) : (expandMetadata parser info buf).result = .ok ↔
      (opaeBitstreamParseMetadata parser buf info.prInterfaceId info.metadataVersion).1.isSome := by
  rw [expandMetadata]
  dsimp only
  split
  case isTrue h => exact iff_of_true rfl h
  case isFalse h => exact iff_of_false nofun h

theorem rbf_expandMetadata (parser : MetadataParser μ ρ) (info : OpaeBitstreamInfo μ)
    (buf : List UInt8) : rbf (expandMetadata parser info buf).info = rbf info := rfl

end Resolve

section Load

variable {μ ρ : Type} {parser : MetadataParser μ ρ} {env : LoadEnv} {file : List UInt8}
  {name : String} {info : OpaeBitstreamInfo μ}

/-- What is known of a file that has been read. -/
def readInfo (μ : Type) (name : String) (file : List UInt8) : OpaeBitstreamInfo μ :=
  { infoInit with filename := some name, data := file }

theorem load_of_readFile (hpath : env.pathIsValid = true)
    (hread : opaeBitstreamReadFile env.file = .ok file) :
    opaeLoadBitstream parser env (some name) (some info) =
      if opaeIsLegacyBitstream file then
        some ⟨.ok, opaeResolveLegacyBitstream (readInfo μ name file), none⟩
      else opaeResolveBitstream parser env.mem (readInfo μ name file) := by
  rw [opaeLoadBitstream, hpath, hread]
  rfl

theorem load_eq (hpath : env.pathIsValid = true) (hreads : Reads env.file file) :
    opaeLoadBitstream parser env (some name) (some info) =
      if opaeIsLegacyBitstream file then
        some ⟨.ok, opaeResolveLegacyBitstream (readInfo μ name file), none⟩
      else opaeResolveBitstream parser env.mem (readInfo μ name file) :=
  load_of_readFile hpath hreads.readFile_eq

theorem load_legacy {id : FpgaGuid} {body : List UInt8} (hpath : env.pathIsValid = true)
    (hreads : Reads env.file (legacyFile id body)) :
    opaeLoadBitstream parser env (some name) (some info) =
      some ⟨.ok, opaeResolveLegacyBitstream (readInfo μ name (legacyFile id body)), none⟩ := by
  rw [load_eq hpath hreads, if_pos (isLegacy_legacyFile id body)]

theorem load_gbs (parser : MetadataParser μ ρ) (name : String) (info : OpaeBitstreamInfo μ)
    {metadata body : List UInt8} (hpath : env.pathIsValid = true)
    (hreads : Reads env.file (gbsFile metadata body)) (hlt : metadata.length < 2 ^ 32)
    (hne : 1 ≤ metadata.length + body.length) :
    opaeLoadBitstream parser env (some name) (some info) =
      let info := split (readInfo μ name (gbsFile metadata body)) metadata body
      if !env.mem then some ⟨.noMemory, info, none⟩
      else if metadata.length = 2 ^ 32 - 1 then none
      else some (expandMetadata parser info (metadata ++ [0])) := by
  rw [load_eq hpath hreads, not_legacy_gbsFile, if_neg Bool.false_ne_true,
    resolve_gbs rfl hlt hne]

end Load

/-- A GBS file gives its metadata to the parser and its body as it is, a legacy file its body and
its id, no other file is accepted, and what is accepted is one of the two. -/
theorem bitstreams_decoded {μ ρ : Type} (parser : MetadataParser μ ρ) (env : LoadEnv)
    (file : List UInt8) (name : String) (info : OpaeBitstreamInfo μ)
    (hpath : env.pathIsValid = true) (hreads : Reads env.file file) :
    (∀ metadata body, file = gbsFile metadata body → metadata.length < 2 ^ 32 - 1 →
      1 ≤ metadata.length + body.length → env.mem = true →
        ∃ l, opaeLoadBitstream parser env (some name) (some info) = some l ∧
          l.passed = some (metadata ++ [0]) ∧
          (l.result = .ok ↔ (opaeBitstreamParseMetadata parser (metadata ++ [0])
            (Vector.replicate 16 0) 0).1.isSome) ∧
          (l.result = .ok → rbf l.info = some body)) ∧
    (∀ id body, file = legacyFile id body →
      ∃ l, opaeLoadBitstream parser env (some name) (some info) = some l ∧ l.result = .ok ∧
        rbf l.info = some body ∧ l.info.prInterfaceId = id.reverse) ∧
    ((∀ metadata body, metadata.length < 2 ^ 32 → 1 ≤ metadata.length + body.length →
        file ≠ gbsFile metadata body) →
      (∀ id body, file ≠ legacyFile id body) →
        ∃ l, opaeLoadBitstream parser env (some name) (some info) = some l ∧
          l.result = .invalidParam) ∧
    (∀ l, opaeLoadBitstream parser env (some name) (some info) = some l → l.result = .ok →
      (∃ metadata body, file = gbsFile metadata body ∧ l.passed = some (metadata ++ [0]) ∧
        rbf l.info = some body) ∨
      ∃ id body, file = legacyFile id body ∧ rbf l.info = some body) := by
  refine ⟨?_, ?_, ?_, ?_⟩
  · rintro metadata body rfl hlt hne hmem
    have hload := load_gbs parser name info hpath hreads (Nat.lt_of_lt_pred hlt) hne
    have hmax : metadata.length ≠ 2 ^ 32 - 1 := Nat.ne_of_lt hlt
    rw [hmem, if_neg (by decide), if_neg hmax] at hload
    exact ⟨_, hload, rfl, expandMetadata_ok_iff _ _ _,
      fun _ => (rbf_expandMetadata _ _ _).trans (rbf_split rfl)⟩
  · rintro id body rfl
    exact ⟨_, load_legacy hpath hreads, rfl, rbf_resolveLegacy rfl,
      prInterfaceId_resolveLegacy rfl⟩
  · intro hgbs hlegacy
    have hnotLegacy : ¬ opaeIsLegacyBitstream file = true := by
      intro hl
      obtain ⟨id, body, hfile⟩ := exists_legacyFile hl
      exact hlegacy id body hfile
    have hnotGbs : ¬ IsGbs file := by
      intro hg
      obtain ⟨metadata, body, hlt, hne, hfile⟩ := hg.exists_gbsFile
      exact hgbs metadata body hlt hne hfile
    exact ⟨_, by rw [load_eq hpath hreads, if_neg hnotLegacy, resolve_rejects hnotGbs], rfl⟩
  · intro l hl hok
    by_cases hlegacy : opaeIsLegacyBitstream file = true
    · obtain ⟨id, body, rfl⟩ := exists_legacyFile hlegacy
      rw [load_legacy hpath hreads, Option.some.injEq] at hl
      subst hl
      exact .inr ⟨id, body, rfl, rbf_resolveLegacy rfl⟩
    · by_cases hgbs : IsGbs file
      · obtain ⟨metadata, body, hlt, hne, rfl⟩ := hgbs.exists_gbsFile
        rw [load_gbs parser name info hpath hreads hlt hne] at hl
        split_ifs at hl with hmem hmax
        · rw [← Option.some.inj hl] at hok
          exact absurd hok nofun
        · obtain rfl := Option.some.inj hl
          exact .inl ⟨metadata, body, rfl, rfl, rbf_split rfl⟩
      · rw [load_eq hpath hreads, if_neg hlegacy, resolve_rejects hgbs, Option.some.injEq] at hl
        rw [← hl] at hok
        exact absurd hok nofun

def emptyObject : MetadataParser Unit Unit where
  tokener bs := if bs = [0x7b, 0x7d, 0] then some () else none
  version _ := some 1
  parseV1 _ id := (some (), id)

def sampleGbs : List UInt8 := validGbsGuid ++ [2, 0, 0, 0, 0x7b, 0x7d, 1, 2, 3]

theorem bitstreams_decoded_sample :
    ∃ l, opaeLoadBitstream emptyObject
        ⟨true, ⟨true, true, some 25, true, true, sampleGbs, false⟩, true⟩ (some "afu.gbs")
        (some infoInit) = some l ∧
      l.result = .ok ∧ l.passed = some [0x7b, 0x7d, 0] ∧ rbf l.info = some [1, 2, 3] := by
  have hreads : Reads ⟨true, true, some 25, true, true, sampleGbs, false⟩ sampleGbs :=
    ⟨rfl, rfl, rfl, rfl, rfl, rfl, rfl⟩
  obtain ⟨hgbs, -⟩ := bitstreams_decoded emptyObject
    ⟨true, ⟨true, true, some 25, true, true, sampleGbs, false⟩, true⟩ sampleGbs "afu.gbs" infoInit
    rfl hreads
  obtain ⟨l, hload, hpassed, hok, hrbf⟩ := hgbs [0x7b, 0x7d] [1, 2, 3] rfl (by decide) (by decide)
    rfl
  have hres := hok.mpr rfl
  exact ⟨l, hload, hres, hpassed, hrbf hres⟩

end OpaeLibs.Libbitstream.GbsFormat
