import OpaeLibs.Lib.CStrings
import OpaeLibs.Lib.RegexSearch
import OpaeLibs.Opaevfio.Open

namespace OpaeLibs.Opaevfio.VfToken

open RegularExpression
open OpaeLibs.Lib.CStrings OpaeLibs.Lib.RegexSearch OpaeLibs.Opaevfio.Open

abbrev dash : UInt8 := 45

def between (lo hi : Char) : List UInt8 :=
  (List.range' lo.toNat (hi.toNat + 1 - lo.toNat)).map UInt8.ofNat

def hex : List UInt8 := between '0' '9' ++ between 'a' 'f' ++ between 'A' 'F'

def guidRePattern : RegularExpression UInt8 :=
  anyOf hex ^ 8 * (char dash * (anyOf hex ^ 4 * (char dash * (anyOf hex ^ 4 * (char dash *
    (anyOf hex ^ 4 * (char dash * anyOf hex ^ 12)))))))

/-- What is written of a text, but for the terminator. -/
def snprintf (size : Nat) (text : List UInt8) : List UInt8 := text.take (size - 1)

def vfToken : List UInt8 := ascii " vf_token="

def sizeofArg : Nat := 256

/-- `arg`, for a device that is opened with a token. -/
def deviceArg (pciaddr token : CString) : List UInt8 :=
  snprintf sizeofArg (pciaddr.val ++ vfToken ++ token.val)

/-- Every call up to `VFIO_GROUP_GET_DEVICE_FD` succeeds. -/
def asks (env : InitEnv) : Bool :=
  env.attrInit && env.attrSettype && env.mutexInit && env.contFd && env.apiVersion &&
    env.checkExtension && env.group.ready && env.setContainer && env.setIommu && env.device.arg

/-- The result, whether `opae_vfio_init` is called, and what `VFIO_GROUP_GET_DEVICE_FD` is given. -/
structure SecureOpen where
  result : Nat × OpaeVfio
  opens : Bool
  deviceArgs : List (List UInt8)

/-- `regcomp` says whether the pattern is compiled. -/
def secureOpen (regcomp : Bool) (env : InitEnv) (pciaddr token : CString) : SecureOpen :=
  let regexec := search guidRePattern token.val
  let opens := regcomp && regexec
  { result := opaeVfioSecureOpen ⟨regcomp, regexec, env⟩
    opens := opens
    deviceArgs := if opens && asks env then [deviceArg pciaddr token] else [] }

def isXDigit (b : UInt8) : Bool :=
  (48 ≤ b && b ≤ 57) || (97 ≤ b && b ≤ 102) || (65 ≤ b && b ≤ 70)

def Digits (n : Nat) (s : List UInt8) : Prop := s.length = n ∧ ∀ b ∈ s, isXDigit b = true

def IsGuid (s : List UInt8) : Prop :=
  ∃ a b c d e, Digits 8 a ∧ Digits 4 b ∧ Digits 4 c ∧ Digits 4 d ∧ Digits 12 e ∧
    s = a ++ dash :: (b ++ dash :: (c ++ dash :: (d ++ dash :: e)))

/-- Only a GUID is accepted, and the kernel gets it as it is. -/
structure TakesGuid (run : SecureOpen) (pciaddr token : CString) : Prop where
  opens_iff : run.opens = true ↔ IsGuid token.val
  arg_eq : ∀ arg ∈ run.deviceArgs, arg = pciaddr.val ++ vfToken ++ token.val

section Pattern

theorem mem_between {lo hi : Char} (hhi : hi.toNat < 256) {b : UInt8} :
    b ∈ between lo hi ↔ lo.toNat ≤ b.toNat ∧ b.toNat ≤ hi.toNat := by
  simp only [between, List.mem_map, List.mem_range'_1]
  constructor
  · rintro ⟨n, hn, rfl⟩
    rw [UInt8.toNat_ofNat', Nat.mod_eq_of_lt (by omega)]
    omega
  · rintro ⟨hle, hge⟩
    exact ⟨b.toNat, by omega, UInt8.ofNat_toNat⟩

theorem mem_hex {b : UInt8} : b ∈ hex ↔ isXDigit b = true := by
  rw [hex, List.mem_append, List.mem_append, mem_between (by decide), mem_between (by decide),
    mem_between (by decide)]
  simp only [isXDigit, Bool.or_eq_true, Bool.and_eq_true, decide_eq_true_eq, UInt8.le_iff_toNat_le]
  rfl

theorem digits_iff {n : Nat} {s : List UInt8} : s ∈ (anyOf hex ^ n).matches' ↔ Digits n s := by
  simp only [mem_anyOf_pow, mem_hex, Digits]

theorem mem_digits_dash {n : Nat} {r : RegularExpression UInt8} {s : List UInt8} :
    s ∈ (anyOf hex ^ n * (char dash * r)).matches' ↔
      ∃ a t, Digits n a ∧ t ∈ r.matches' ∧ s = a ++ dash :: t := by
  rw [mem_matches_mul]
  constructor
  · rintro ⟨a, ha, u, hu, rfl⟩
    obtain ⟨x, hx, t, ht, rfl⟩ := mem_matches_mul.mp hu
    obtain rfl := mem_matches_char.mp hx
    exact ⟨a, t, digits_iff.mp ha, ht, rfl⟩
  · rintro ⟨a, t, ha, ht, rfl⟩
    exact ⟨a, digits_iff.mpr ha, dash :: t,
      mem_matches_mul.mpr ⟨[dash], mem_matches_char.mpr rfl, t, ht, rfl⟩, rfl⟩

theorem guidRePattern_iff {s : List UInt8} : s ∈ guidRePattern.matches' ↔ IsGuid s := by
  rw [guidRePattern, IsGuid, mem_digits_dash]
  constructor
  · rintro ⟨a, t, ha, ht, rfl⟩
    obtain ⟨b, u, hb, hu, rfl⟩ := mem_digits_dash.mp ht
    obtain ⟨c, v, hc, hv, rfl⟩ := mem_digits_dash.mp hu
    obtain ⟨d, e, hd, he, rfl⟩ := mem_digits_dash.mp hv
    exact ⟨a, b, c, d, e, ha, hb, hc, hd, digits_iff.mp he, rfl⟩
  · rintro ⟨a, b, c, d, e, ha, hb, hc, hd, he, rfl⟩
    have hv := mem_digits_dash.mpr ⟨d, e, hd, digits_iff.mpr he, rfl⟩
    have hu := mem_digits_dash.mpr ⟨c, _, hc, hv, rfl⟩
    exact ⟨a, _, ha, mem_digits_dash.mpr ⟨b, _, hb, hu, rfl⟩, rfl⟩

theorem IsGuid.length {s : List UInt8} (h : IsGuid s) : s.length = 36 := by
  obtain ⟨a, b, c, d, e, ha, hb, hc, hd, he, rfl⟩ := h
  simp only [List.length_append, List.length_cons, ha.1, hb.1, hc.1, hd.1, he.1]

theorem search_guidRePattern {s : List UInt8} :
    search guidRePattern s = true ↔ ∃ g, g <:+: s ∧ IsGuid g := by
  simp only [search_iff, guidRePattern_iff]

end Pattern

section Argument

variable {pciaddr token : CString}

theorem deviceArg_eq_iff : deviceArg pciaddr token = pciaddr.val ++ vfToken ++ token.val ↔
    pciaddr.val.length + token.val.length ≤ 245 := by
  have hlen : vfToken.length = 10 := rfl
  rw [deviceArg, snprintf, List.take_eq_self_iff, sizeofArg, List.length_append,
    List.length_append, hlen]
  omega

theorem deviceArgs_of_opened {regcomp : Bool} {env : InitEnv}
    (h : (secureOpen regcomp env pciaddr token).result.1 = 0) :
    (secureOpen regcomp env pciaddr token).deviceArgs = [deviceArg pciaddr token] := by
  have hends := opaeVfioSecureOpen_ends ⟨regcomp, search guidRePattern token.val, env⟩
  rw [secureOpen] at h
  have hopens : SecureEnv.opens ⟨regcomp, search guidRePattern token.val, env⟩ = true := by
    cases hrun : opaeVfioSecureOpen ⟨regcomp, search guidRePattern token.val, env⟩ with
    | mk res v =>
      rw [hrun] at h hends
      cases hends with
      | opened ho _ _ => exact ho
      | stranded _ _ hne _ => exact absurd h hne
      | failed _ _ hne => exact absurd h hne
  simp only [SecureEnv.opens, InitEnv.opens, InitEnv.completes, DeviceEnv.ready,
    Bool.and_eq_true, Bool.or_eq_true, Bool.not_true, Bool.false_eq_true, false_or] at hopens
  simp [secureOpen, asks, hopens]

theorem secureOpen_opens {env : InitEnv} : (secureOpen true env pciaddr token).opens = true ↔
    ∃ g, g <:+: token.val ∧ IsGuid g := by
  rw [secureOpen, Bool.true_and, search_guidRePattern]

theorem secureOpen_deviceArgs {env : InitEnv} :
    (secureOpen true env pciaddr token).deviceArgs =
      if search guidRePattern token.val && asks env then [deviceArg pciaddr token] else [] := by
  rw [secureOpen, Bool.true_and]

end Argument

/-- A token that is accepted has no more than the GUID, and the address has room beside it. -/
theorem takesGuid_iff {regcomp : Bool} (hregcomp : regcomp = true) (env : InitEnv)
    (pciaddr token : CString) :
    TakesGuid (secureOpen regcomp env pciaddr token) pciaddr token ↔
      ((∃ g, g <:+: token.val ∧ IsGuid g) → IsGuid token.val) ∧
        (IsGuid token.val → asks env = true → pciaddr.val.length ≤ 209) := by
  subst hregcomp
  have hself : IsGuid token.val → ∃ g, g <:+: token.val ∧ IsGuid g :=
    fun h => ⟨token.val, List.infix_rfl, h⟩
  constructor
  · rintro ⟨hiff, harg⟩
    refine ⟨fun h => hiff.mp (secureOpen_opens.mpr h), fun hguid hasks => ?_⟩
    have hsearch := search_guidRePattern.mpr (hself hguid)
    rw [secureOpen_deviceArgs, hsearch, hasks] at harg
    have heq := deviceArg_eq_iff.mp (harg _ List.mem_cons_self)
    have hlen := hguid.length
    omega
  · rintro ⟨honly, hroom⟩
    refine ⟨secureOpen_opens.trans ⟨honly, hself⟩, fun arg harg => ?_⟩
    rw [secureOpen_deviceArgs] at harg
    split at harg
    case isTrue h =>
      rw [Bool.and_eq_true] at h
      have hguid := honly (search_guidRePattern.mp h.1)
      have hlen := hguid.length
      have hle := hroom hguid h.2
      obtain rfl := List.mem_singleton.mp harg
      exact deviceArg_eq_iff.mpr (by omega)
    case isFalse => exact absurd harg List.not_mem_nil

section Samples

def sampleAddr : CString := ⟨ascii "0000:00:00.0", by decide⟩

def sampleGuid : List UInt8 := ascii "00f5b231-7d1c-49a7-bd69-f54c5d41b9A4"

def groupReady : GroupEnv := ⟨true, true, true, true⟩

def deviceReady : DeviceEnv := ⟨true, true, true, true, true, [], []⟩

def initReady : InitEnv :=
  ⟨true, true, true, true, true, true, true, true, groupReady, true, true, deviceReady, 0, 0, true⟩

theorem isGuid_sample : IsGuid sampleGuid :=
  ⟨ascii "00f5b231", ascii "7d1c", ascii "49a7", ascii "bd69", ascii "f54c5d41b9A4",
    by unfold Digits; decide +kernel, by unfold Digits; decide +kernel,
    by unfold Digits; decide +kernel, by unfold Digits; decide +kernel,
    by unfold Digits; decide +kernel, by decide⟩

theorem takesGuid_sample :
    TakesGuid (secureOpen true initReady sampleAddr ⟨sampleGuid, by decide⟩) sampleAddr
      ⟨sampleGuid, by decide⟩ :=
  (takesGuid_iff rfl initReady sampleAddr ⟨sampleGuid, by decide⟩).mpr
    ⟨fun _ => isGuid_sample, fun _ _ => by decide⟩

def longToken : CString := ⟨sampleGuid ++ ascii " junk", by decide⟩

theorem longToken_taken : ¬TakesGuid (secureOpen true initReady sampleAddr longToken) sampleAddr
    longToken := by
  intro h
  have hinfix : sampleGuid <:+: longToken.val := ⟨[], ascii " junk", rfl⟩
  have hopens : (secureOpen true initReady sampleAddr longToken).opens = true :=
    secureOpen_opens.mpr ⟨sampleGuid, hinfix, isGuid_sample⟩
  have hlen := (h.opens_iff.mp hopens).length
  exact absurd hlen (by decide)

end Samples

end OpaeLibs.Opaevfio.VfToken
