import OpaeLibs.Libbitstream.GbsFormat

namespace OpaeLibs.Libbitstream.LoadBounds

open OpaeLibs.Lib.Bytes OpaeLibs.OpaeC.Props
open OpaeLibs.Libbitstream.Bitstream OpaeLibs.Libbitstream.GbsFormat

/-- The buffer of the metadata has the bytes that its length field says and one more, and the body
ends where the data end. -/
structure WithinData {μ : Type} (loaded : Loaded μ) : Prop where
  buffer : ∀ buf, loaded.passed = some buf →
    buf.length = (metadataLength loaded.info.data).toNat + 1
  body : loaded.passed.isSome ∨ loaded.result = .ok → ∃ rbf, loaded.info.rbfData = some rbf ∧
    rbf + loaded.info.rbfLen = loaded.info.data.length

/-- The loader does not leave the data of the file, nor a buffer. -/
def StaysInBounds {μ ρ : Type} (parser : MetadataParser μ ρ) (env : LoadEnv)
    (file : Option String) (info : Option (OpaeBitstreamInfo μ)) : Prop :=
  ∃ loaded, opaeLoadBitstream parser env file info = some loaded ∧ WithinData loaded

/-- Metadata of the largest length are copied. -/
structure Longest (env : LoadEnv) (data : List UInt8) : Prop where
  pathIsValid : env.pathIsValid = true
  readFile : opaeBitstreamReadFile env.file = .ok data
  isGbs : IsGbs data
  length : metadataLength data = 0xffffffff
  mem : env.mem = true

section Resolve

variable {μ ρ : Type} {parser : MetadataParser μ ρ} {info : OpaeBitstreamInfo μ} {mem : Bool}

theorem withinData_of_failed {result : FpgaResult} (hne : result ≠ .ok)
    (info : OpaeBitstreamInfo μ) : WithinData ⟨result, info, none⟩ where
  buffer := nofun
  body := fun h => h.elim nofun fun hok => absurd hok hne

theorem withinData_legacy (h : opaeIsLegacyBitstream info.data = true) :
    WithinData ⟨.ok, opaeResolveLegacyBitstream info, none⟩ where
  buffer := nofun
  body := fun _ => by
    obtain ⟨id, body, hdata⟩ := exists_legacyFile h
    refine ⟨sizeofLegacyHeader, rfl, ?_⟩
    have hlen := legacyFile_length id body
    rw [← hdata] at hlen
    exact Nat.add_sub_of_le (hlen ▸ Nat.le_add_right _ _)

theorem withinData_expand {metadata body : List UInt8} (hlt : metadata.length < 2 ^ 32)
    (hdata : info.data = gbsFile metadata body) :
    WithinData (expandMetadata parser (split info metadata body) (metadata ++ [0])) where
  buffer := fun buf hbuf => by
    have hlen := metadataLength_gbsFile body hlt
    rw [← Option.some.inj hbuf, List.length_append]
    exact congrArg (· + 1) (hdata ▸ hlen).symm
  body := fun _ => by
    refine ⟨20 + metadata.length, rfl, ?_⟩
    exact (hdata ▸ gbsFile_length).symm

theorem resolve_inBounds_iff (hgbs : IsGbs info.data) :
    (∃ loaded, opaeResolveBitstream parser mem info = some loaded ∧ WithinData loaded) ↔
      ¬ (metadataLength info.data = 0xffffffff ∧ mem = true) := by
  obtain ⟨metadata, body, hlt, hne, hdata⟩ := hgbs.exists_gbsFile
  have hlen : metadataLength info.data = 0xffffffff ↔ metadata.length = 2 ^ 32 - 1 := by
    rw [hdata, ← UInt32.toNat_inj, metadataLength_gbsFile body hlt]
    rfl
  rw [resolve_gbs hdata hlt hne, hlen]
  cases mem with
  | false => exact iff_of_true ⟨_, rfl, withinData_of_failed (by nofun) _⟩ nofun
  | true =>
    by_cases hmax : metadata.length = 2 ^ 32 - 1
    · rw [if_neg (by decide), if_pos hmax]
      exact iff_of_false nofun fun hnot => hnot ⟨hmax, rfl⟩
    · rw [if_neg (by decide), if_neg hmax]
      exact iff_of_true ⟨_, rfl, withinData_expand hlt hdata⟩ fun h => hmax h.1

end Resolve

theorem readFile_ne_ok {env : FileEnv} {result : FpgaResult}
    (h : opaeBitstreamReadFile env = .error result) : result ≠ .ok := by
  revert h
  fun_cases opaeBitstreamReadFile env <;> rintro ⟨⟩ <;> nofun

section Load

variable {μ ρ : Type} {parser : MetadataParser μ ρ} {env : LoadEnv} {data : List UInt8}
  {name : String} {info : OpaeBitstreamInfo μ}

theorem exists_longest_iff (hpath : env.pathIsValid = true)
    (hread : opaeBitstreamReadFile env.file = .ok data) :
    (∃ data, Longest env data) ↔
      IsGbs data ∧ metadataLength data = 0xffffffff ∧ env.mem = true := by
  constructor
  · rintro ⟨data', h⟩
    obtain rfl := Except.ok.inj (hread.symm.trans h.readFile)
    exact ⟨h.isGbs, h.length, h.mem⟩
  · rintro ⟨hgbs, hlen, hmem⟩
    exact ⟨data, hpath, hread, hgbs, hlen, hmem⟩

theorem staysInBounds_of_readFile (hpath : env.pathIsValid = true)
    (hread : opaeBitstreamReadFile env.file = .ok data) :
    StaysInBounds parser env (some name) (some info) ↔
      ¬ (IsGbs data ∧ metadataLength data = 0xffffffff ∧ env.mem = true) := by
  rw [StaysInBounds, load_of_readFile hpath hread]
  by_cases hgbs : IsGbs data
  · obtain ⟨metadata, body, hlt, hne, hdata⟩ := hgbs.exists_gbsFile
    have hlegacy : ¬ opaeIsLegacyBitstream data = true := by
      rw [hdata, not_legacy_gbsFile]
      exact Bool.false_ne_true
    rw [if_neg hlegacy, and_iff_right hgbs]
    exact resolve_inBounds_iff hgbs
  · refine iff_of_true ?_ fun h => hgbs h.1
    split
    · next hlegacy => exact ⟨_, rfl, withinData_legacy hlegacy⟩
    · rw [resolve_rejects hgbs]
      exact ⟨_, rfl, withinData_of_failed (by nofun) _⟩

end Load

/-- The loader leaves its buffer when it copies metadata of the largest length, and then only. -/
theorem staysInBounds_iff {μ ρ : Type} (parser : MetadataParser μ ρ) (env : LoadEnv)
    (file : Option String) (info : Option (OpaeBitstreamInfo μ)) :
    StaysInBounds parser env file info ↔
      ¬ (file.isSome ∧ info.isSome ∧ ∃ data, Longest env data) := by
  have hfailed : ∀ (result : FpgaResult) (info' : OpaeBitstreamInfo μ), result ≠ .ok →
      opaeLoadBitstream parser env file info = some ⟨result, info', none⟩ →
      StaysInBounds parser env file info := fun _ _ hne h => ⟨_, h, withinData_of_failed hne _⟩
  cases file with
  | none =>
    exact iff_of_true (hfailed .invalidParam _ FpgaResult.invalidParam_ne_ok rfl)
      fun h => by cases h.1
  | some name =>
    cases info with
    | none =>
      exact iff_of_true (hfailed .invalidParam _ FpgaResult.invalidParam_ne_ok rfl)
        fun h => by cases h.2.1
    | some info =>
      cases hpath : env.pathIsValid with
      | false =>
        refine iff_of_true (hfailed .invalidParam info FpgaResult.invalidParam_ne_ok ?_) ?_
        · rw [opaeLoadBitstream, hpath]
          rfl
        · rintro ⟨-, -, data, h⟩
          exact absurd h.pathIsValid (hpath ▸ Bool.false_ne_true)
      | true =>
        cases hread : opaeBitstreamReadFile env.file with
        | error result =>
          refine iff_of_true (hfailed result infoInit (readFile_ne_ok hread) ?_) ?_
          · rw [opaeLoadBitstream, hpath, hread]
            rfl
          · rintro ⟨-, -, data, h⟩
            cases hread.symm.trans h.readFile
        | ok data =>
          rw [staysInBounds_of_readFile hpath hread, exists_longest_iff hpath hread]
          simp only [Option.isSome_some, true_and]

/-- A GBS whose metadata are as long as its length field can say, and nothing else. -/
def longestGbs : List UInt8 := gbsFile (List.replicate (2 ^ 32 - 1) 0x20) []

def longestEnv : LoadEnv :=
  ⟨true, ⟨true, true, some longestGbs.length, true, true, longestGbs, false⟩, true⟩

/-- Four gigabytes are copied into a buffer of no bytes. -/
theorem longestGbs_overflows :
    ¬ ∀ env : LoadEnv, StaysInBounds emptyObject env (some "afu.gbs") (some infoInit) := by
  intro h
  obtain ⟨loaded, hload, -⟩ := h longestEnv
  have hlen : (List.replicate (2 ^ 32 - 1) (0x20 : UInt8)).length = 2 ^ 32 - 1 :=
    List.length_replicate
  have hreads : Reads longestEnv.file longestGbs := ⟨rfl, rfl, rfl, rfl, rfl, rfl, rfl⟩
  rw [load_gbs emptyObject "afu.gbs" infoInit rfl hreads (by omega) (by omega)] at hload
  dsimp only at hload
  rw [if_pos hlen] at hload
  exact nomatch hload

end OpaeLibs.Libbitstream.LoadBounds
