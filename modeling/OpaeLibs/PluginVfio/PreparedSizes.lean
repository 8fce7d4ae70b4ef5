import OpaeLibs.Opaevfio.BufferSizes
import OpaeLibs.PluginVfio.Buffers

namespace OpaeLibs.PluginVfio.PreparedSizes

open OpaeLibs.Lib.Rounding
open OpaeLibs.Opaemem.Allocator
open OpaeLibs.Opaevfio.Buffers OpaeLibs.Opaevfio.BufferSizes
open OpaeLibs.PluginVfio.Buffers

/-- A size that will do for a buffer of `len` bytes, in huge pages where there are such. -/
structure Serves (pageSize len size : UInt64) : Prop where
  suits : Suits pageSize len size
  huge2m : 4096 < len.toNat → 2 ^ 21 ∣ size.toNat
  huge1g : 2 ^ 21 < len.toNat → 2 ^ 30 ∣ size.toNat

section

variable (pageSize : UInt64) (env : PrepareEnv) (p : Plugin) (h : Nat) (len : UInt64)
  (ptrs : Bool)

structure PrepareLaw : Prop where
  success : (vfioFpgaPrepareBuffer pageSize env p h len ptrs).result = .ok →
    ∃ v v' size, p.devices h = some v ∧
      (vfioFpgaPrepareBuffer pageSize env p h len ptrs).plugin.devices h = some v' ∧
      Serves pageSize len size ∧ Reserved v v' size
  refusal : (∀ size, ¬Serves pageSize len size) →
    (vfioFpgaPrepareBuffer pageSize env p h len ptrs).result ≠ .ok ∧
      ∀ v, p.devices h = some v →
        ∃ v', (vfioFpgaPrepareBuffer pageSize env p h len ptrs).plugin.devices h = some v' ∧
          v'.iovaAlloc = v.iovaAlloc

end

/-- The size of the pages that the request is rounded to, as a power of two. -/
def pageBits (len : UInt64) : Nat :=
  if len > huge2m then 30 else if len > 4096 then 21 else 12

section

variable {pageSize len : UInt64}

theorem gt_huge2m : len > huge2m ↔ 2 ^ 21 < len.toNat := UInt64.lt_iff_toNat_lt

theorem gt_4096 : len > 4096 ↔ 4096 < len.toNat := UInt64.lt_iff_toNat_lt

theorem pageBits_cases (len : UInt64) : 2 ^ 21 < len.toNat ∧ pageBits len = 30 ∨
    4096 < len.toNat ∧ len.toNat ≤ 2 ^ 21 ∧ pageBits len = 21 ∨
    len.toNat ≤ 4096 ∧ pageBits len = 12 := by
  simp only [pageBits, gt_huge2m, gt_4096]
  by_cases h1 : 2 ^ 21 < len.toNat
  · exact .inl ⟨h1, if_pos h1⟩
  · rw [if_neg h1]
    by_cases h2 : 4096 < len.toNat
    · exact .inr (.inl ⟨h2, Nat.le_of_not_lt h1, if_pos h2⟩)
    · exact .inr (.inr ⟨Nat.le_of_not_lt h2, if_neg h2⟩)

theorem toNat_prepareSize (hlen : len ≠ 0) :
    (prepareSize len).toNat = ceil (2 ^ pageBits len) len.toNat % 2 ^ 64 := by
  have hpos := toNat_pos hlen
  rw [prepareSize, pageBits]
  by_cases h1 : len > huge2m
  · rw [if_pos h1, if_pos h1]
    exact toNat_add_pred_and_neg (by decide) (by decide) len
  · rw [if_neg h1, if_neg h1]
    by_cases h2 : len > 4096
    · rw [if_pos h2, if_pos h2]
      exact toNat_add_pred_and_neg (by decide) (by decide) len
    · have hsmall : ceil (2 ^ 12) len.toNat = 2 ^ 12 :=
        ceil_eq_unit hpos (Nat.le_of_not_lt (mt gt_4096.mpr h2))
      rw [if_neg h2, if_neg h2, hsmall]
      decide

theorem pageBits_dvd (len : UInt64) : 2 ^ pageBits len ∣ 2 ^ 64 := by
  apply Nat.pow_dvd_pow
  obtain ⟨-, hb⟩ | ⟨-, -, hb⟩ | ⟨-, hb⟩ := pageBits_cases len <;> rw [hb] <;> decide

theorem prepareSize_eq_zero_iff (hlen : len ≠ 0) :
    prepareSize len = 0 ↔ 2 ^ 64 < len.toNat + 2 ^ pageBits len :=
  word_eq_zero_iff (toNat_prepareSize hlen) (pageBits_dvd len) (toNat_pos hlen) len.toNat_lt.le

theorem toNat_prepareSize_of_ne (hlen : len ≠ 0) (h : prepareSize len ≠ 0) :
    (prepareSize len).toNat = ceil (2 ^ pageBits len) len.toNat := by
  rw [Ne, prepareSize_eq_zero_iff hlen, Nat.not_lt] at h
  exact toNat_word (toNat_prepareSize hlen) (pageBits_dvd len) h

theorem Serves.pageBits_dvd {size : UInt64} (h : Serves pageSize len size)
    (hlarge : 4096 < len.toNat) : 2 ^ pageBits len ∣ size.toNat := by
  obtain ⟨hlen, hb⟩ | ⟨-, -, hb⟩ | ⟨hle, -⟩ := pageBits_cases len
  · rw [hb]
    exact h.huge1g hlen
  · rw [hb]
    exact h.huge2m hlarge
  · exact absurd hlarge (Nat.not_lt.mpr hle)

theorem serves_roundUp (hp : IsPageSize pageSize) (hlen : len ≠ 0) (hsize : prepareSize len ≠ 0)
    (hround : roundUp pageSize (prepareSize len) ≠ 0) :
    Serves pageSize len (roundUp pageSize (prepareSize len)) := by
  have hprepared := toNat_prepareSize_of_ne hlen hsize
  have hle : len.toNat ≤ (prepareSize len).toNat := by
    rw [hprepared]
    exact le_ceil (Nat.two_pow_pos _) _
  have hbits : 2 ^ pageBits len ∣ (roundUp pageSize (prepareSize len)).toNat := by
    rw [toNat_roundUp_of_ne hp hsize hround]
    obtain ⟨k, -, hk⟩ := hp
    rw [hk]
    apply two_pow_dvd_ceil
    rw [hprepared]
    exact dvd_ceil _ _
  have hsuits := suits_roundUp hp hsize hround
  refine ⟨⟨hle.trans hsuits.1, hsuits.2⟩, fun hlarge => ?_, fun hlarge => ?_⟩
  · refine Dvd.dvd.trans (Nat.pow_dvd_pow 2 ?_) hbits
    obtain ⟨-, hb⟩ | ⟨-, -, hb⟩ | ⟨hsmall, -⟩ := pageBits_cases len
    · rw [hb]
      decide
    · rw [hb]
    · exact absurd hlarge (Nat.not_lt.mpr hsmall)
  · obtain ⟨-, hb⟩ | ⟨-, hsmall, -⟩ | ⟨hsmall, -⟩ := pageBits_cases len
    · rwa [hb] at hbits
    · exact absurd hlarge (Nat.not_lt.mpr hsmall)
    · exact absurd (hlarge.trans_le hsmall) (by decide)

/-- The second rounding wraps where the first has not: a page larger than 1 GiB, and a length that
only whole pages of 1 GiB could cover. -/
theorem wraps_iff (hp : IsPageSize pageSize) (hlen : len ≠ 0) :
    prepareSize len ≠ 0 ∧ roundUp pageSize (prepareSize len) = 0 ↔
      2 ^ 30 < pageSize.toNat ∧ 2 ^ 64 < len.toNat + pageSize.toNat ∧
        len.toNat + 2 ^ 30 ≤ 2 ^ 64 := by
  have hcases := pageBits_cases len
  have hhalf := hp.le_half
  constructor
  · rintro ⟨hsize, hwraps⟩
    rw [roundUp_eq_zero_iff hp hsize, toNat_prepareSize_of_ne hlen hsize] at hwraps
    rw [Ne, prepareSize_eq_zero_iff hlen, Nat.not_lt] at hsize
    obtain ⟨hlarge, hb⟩ | ⟨-, hsmall, hb⟩ | ⟨hsmall, hb⟩ := hcases
    · rw [hb] at hwraps hsize
      have hceil : ceil (2 ^ 30) len.toNat < 2 ^ 64 :=
        (ceil_lt_iff (by decide) (by decide)).mpr hsize
      obtain ⟨q, hq⟩ := dvd_ceil (2 ^ 30) len.toNat
      have hpage : 2 ^ 30 < pageSize.toNat := by omega
      refine ⟨hpage, ?_, hsize⟩
      -- below the last whole page the first rounding stays below it
      by_contra hle
      have hdvd : 2 ^ 30 ∣ 2 ^ 64 - pageSize.toNat := by
        obtain ⟨k, -, hk⟩ := hp
        rw [hk] at hpage ⊢
        have hk30 : 30 ≤ k := ((Nat.pow_lt_pow_iff_right (by decide)).mp hpage).le
        exact Nat.dvd_sub (by decide) (Nat.pow_dvd_pow 2 hk30)
      have hbelow := (ceil_le_iff (n := len.toNat) (by decide) hdvd).mpr (by omega)
      omega
    all_goals
      rw [hb] at hwraps
      have hceil := ceil_lt (Nat.two_pow_pos (pageBits len)) len.toNat
      rw [hb] at hceil
      omega
  · rintro ⟨hpage, hlast, hfits⟩
    have hb : pageBits len = 30 := by
      obtain ⟨-, hb⟩ | ⟨-, hsmall, -⟩ | ⟨hsmall, -⟩ := hcases
      · exact hb
      · omega
      · omega
    have hsize : prepareSize len ≠ 0 := by
      rw [Ne, prepareSize_eq_zero_iff hlen, hb]
      omega
    refine ⟨hsize, ?_⟩
    rw [roundUp_eq_zero_iff hp hsize, toNat_prepareSize_of_ne hlen hsize]
    have hle := le_ceil (Nat.two_pow_pos (pageBits len)) len.toNat
    omega

theorem not_serves (hp : IsPageSize pageSize) (hlen : len ≠ 0)
    (h : prepareSize len = 0 ∨ roundUp pageSize (prepareSize len) = 0) (size : UInt64) :
    ¬Serves pageSize len size := by
  intro hserves
  have hlarge : 4096 < len.toNat := by
    by_contra hsmall
    have hb : pageBits len = 12 := by
      obtain ⟨hlen, -⟩ | ⟨hlen, -, -⟩ | ⟨-, hb⟩ := pageBits_cases len
      · omega
      · exact absurd hlen hsmall
      · exact hb
    have hsize : prepareSize len ≠ 0 := by
      rw [Ne, prepareSize_eq_zero_iff hlen, hb]
      omega
    have hwraps := h.resolve_left hsize
    rw [roundUp_eq_zero_iff hp hsize, toNat_prepareSize_of_ne hlen hsize, hb] at hwraps
    have hceil := ceil_lt (Nat.two_pow_pos 12) len.toNat
    have hhalf := hp.le_half
    omega
  -- the least size that the huge pages allow is not above one that serves
  have hbelow := (ceil_le_iff (Nat.two_pow_pos _) (hserves.pageBits_dvd hlarge)).mpr
    hserves.suits.1
  have hsize : prepareSize len ≠ 0 := by
    rw [Ne, prepareSize_eq_zero_iff hlen, Nat.not_lt]
    exact (ceil_lt_iff (Nat.two_pow_pos _) (pageBits_dvd len)).mp (hbelow.trans_lt size.toNat_lt)
  rw [← toNat_prepareSize_of_ne hlen hsize] at hbelow
  have hnone : ¬∃ size, Suits pageSize (prepareSize len) size :=
    fun hsome => (exists_suits_iff hp hsize).mp hsome (h.resolve_left hsize)
  exact hnone ⟨size, hbelow, hserves.suits.2⟩

end

section

variable {pageSize : UInt64} {env : PrepareEnv} {p : Plugin} {h : Nat} {len : UInt64}
  {ptrs : Bool}

def request (pageSize : UInt64) (env : PrepareEnv) (v : OpaeVfio) (len : UInt64) :
    AllocateResult :=
  opaeVfioBufferAllocate pageSize env.allocate v (some (prepareSize len))

theorem prepare_ok (hok : (vfioFpgaPrepareBuffer pageSize env p h len ptrs).result = .ok) :
    ∃ v, p.devices h = some v ∧ (request pageSize env v len).res = 0 ∧
      (vfioFpgaPrepareBuffer pageSize env p h len ptrs).plugin.devices h =
        some (request pageSize env v len).vfio := by
  rw [vfioFpgaPrepareBuffer] at hok ⊢
  cases ptrs with
  | false => exact nomatch hok
  | true =>
    cases hv : p.devices h with
    | none =>
      rw [hv] at hok
      exact nomatch hok
    | some v =>
      rw [hv] at hok
      refine ⟨v, rfl, ?_⟩
      dsimp only at hok ⊢
      by_cases hres : (request pageSize env v len).res = 0
      · have hnot := not_not.mpr hres
        rw [request] at hnot
        simp only [Bool.not_true, Bool.false_eq_true, if_false, if_neg hnot] at hok ⊢
        cases hmem : env.mem with
        | false =>
          rw [hmem] at hok
          exact nomatch hok
        | true => exact ⟨hres, by simp [setDevice, request]⟩
      · rw [request] at hres
        simp only [Bool.not_true, Bool.false_eq_true, if_false, if_pos hres] at hok
        exact nomatch hok

/-- Where the request fails, so does the preparation, and its device is as the request leaves it. -/
theorem prepare_failed {v : OpaeVfio} (hptrs : ptrs = true) (hv : p.devices h = some v)
    (hres : (request pageSize env v len).res ≠ 0) :
    (vfioFpgaPrepareBuffer pageSize env p h len ptrs).result ≠ .ok ∧
      (vfioFpgaPrepareBuffer pageSize env p h len ptrs).plugin.devices h =
        some (request pageSize env v len).vfio := by
  rw [request] at hres
  simp [vfioFpgaPrepareBuffer, hptrs, hv, hres, setDevice, request]

theorem prepare_invalid (pageSize : UInt64) (env : PrepareEnv) (len : UInt64)
    (hinvalid : ptrs = false ∨ p.devices h = none) :
    (vfioFpgaPrepareBuffer pageSize env p h len ptrs).result ≠ .ok ∧
      (vfioFpgaPrepareBuffer pageSize env p h len ptrs).plugin = p := by
  rw [vfioFpgaPrepareBuffer]
  cases ptrs with
  | false => exact ⟨nofun, rfl⟩
  | true =>
    rw [hinvalid.resolve_left nofun]
    exact ⟨nofun, rfl⟩

/-- The allocator of the device is asked, and can spare a block of no size. -/
def Spares (env : PrepareEnv) (p : Plugin) (h : Nat) (ptrs : Bool) : Prop :=
  ptrs = true ∧ env.allocate.lock = true ∧
    ∃ v, p.devices h = some v ∧ GrantsEmpty env.allocate.reserveMalloc v.iovaAlloc

theorem request_zero (pageSize : UInt64) (env : PrepareEnv) (v : OpaeVfio)
    (hsize : prepareSize len = 0) :
    (request pageSize env v len).res ≠ 0 ∧ (request pageSize env v len).vfio = v := by
  rw [request, hsize]
  exact ⟨nofun, rfl⟩

theorem prepare_success (hp : IsPageSize pageSize) (hlen : len ≠ 0)
    (hok : (vfioFpgaPrepareBuffer pageSize env p h len ptrs).result = .ok) :
    ∃ v v' size, p.devices h = some v ∧
      (vfioFpgaPrepareBuffer pageSize env p h len ptrs).plugin.devices h = some v' ∧
      Serves pageSize len size ∧ Reserved v v' size := by
  obtain ⟨v, hv, hres, hv'⟩ := prepare_ok hok
  obtain ⟨hsize, hround, -, hreserved⟩ := allocate_success hres
  exact ⟨v, _, _, hv, hv', serves_roundUp hp hlen hsize hround, hreserved⟩

/-- A request that no size serves fails, and leaves the allocator alone unless it gets through to it
with a size that has wrapped. -/
theorem request_refused (hp : IsPageSize pageSize) (hlen : len ≠ 0) {v : OpaeVfio}
    (hnone : ∀ size, ¬Serves pageSize len size)
    (hcond : ¬(prepareSize len ≠ 0 ∧ roundUp pageSize (prepareSize len) = 0) ∨
      ¬(env.allocate.lock = true ∧ GrantsEmpty env.allocate.reserveMalloc v.iovaAlloc)) :
    (request pageSize env v len).res ≠ 0 ∧
      (request pageSize env v len).vfio.iovaAlloc = v.iovaAlloc := by
  by_cases hsize : prepareSize len = 0
  · obtain ⟨hres, hsame⟩ := request_zero pageSize env v hsize
    exact ⟨hres, by rw [hsame]⟩
  · have hwraps : roundUp pageSize (prepareSize len) = 0 := by
      by_contra hround
      exact hnone _ (serves_roundUp hp hlen hsize hround)
    obtain ⟨hres, halloc⟩ := allocate_wrapped env.allocate v hsize hwraps
    exact ⟨hres, halloc.mpr (hcond.resolve_left (fun hnot => hnot ⟨hsize, hwraps⟩))⟩

theorem prepareLaw_iff (hp : IsPageSize pageSize) (hlen : len ≠ 0) :
    PrepareLaw pageSize env p h len ptrs ↔ pageSize.toNat ≤ 2 ^ 30 ∨
      len.toNat + pageSize.toNat ≤ 2 ^ 64 ∨ 2 ^ 64 < len.toNat + 2 ^ 30 ∨
        ¬Spares env p h ptrs := by
  have hnumbers : (pageSize.toNat ≤ 2 ^ 30 ∨ len.toNat + pageSize.toNat ≤ 2 ^ 64 ∨
      2 ^ 64 < len.toNat + 2 ^ 30) ↔
      ¬(prepareSize len ≠ 0 ∧ roundUp pageSize (prepareSize len) = 0) := by
    rw [wraps_iff hp hlen]
    omega
  rw [← or_assoc, ← or_assoc, or_assoc (a := pageSize.toNat ≤ 2 ^ 30), hnumbers]
  constructor
  · intro hlaw
    by_contra hcond
    rw [not_or, not_not, not_not] at hcond
    obtain ⟨⟨hsize, hwraps⟩, hptrs, hlock, v, hv, hgrants⟩ := hcond
    obtain ⟨hres, halloc⟩ := allocate_wrapped env.allocate v hsize hwraps
    obtain ⟨-, hplugin⟩ := prepare_failed hptrs hv hres
    obtain ⟨-, huntouched⟩ := hlaw.refusal (not_serves hp hlen (.inr hwraps))
    obtain ⟨v', hv', hsame⟩ := huntouched v hv
    obtain rfl := Option.some.inj (hplugin.symm.trans hv')
    exact halloc.mp hsame ⟨hlock, hgrants⟩
  · intro hcond
    refine ⟨prepare_success hp hlen, fun hnone => ?_⟩
    by_cases hinvalid : ptrs = false ∨ p.devices h = none
    · obtain ⟨hresult, hplugin⟩ := prepare_invalid pageSize env len hinvalid
      refine ⟨hresult, fun v hv => ⟨v, ?_, rfl⟩⟩
      rw [hplugin, hv]
    rw [not_or, Bool.not_eq_false] at hinvalid
    obtain ⟨hptrs, hopen⟩ := hinvalid
    obtain ⟨v, hv⟩ := Option.ne_none_iff_exists'.mp hopen
    have hspares : ¬Spares env p h ptrs →
        ¬(env.allocate.lock = true ∧ GrantsEmpty env.allocate.reserveMalloc v.iovaAlloc) :=
      fun hnot hall => hnot ⟨hptrs, hall.1, v, hv, hall.2⟩
    obtain ⟨hres, hsame⟩ := request_refused hp hlen hnone (hcond.imp_right hspares)
    obtain ⟨hresult, hplugin⟩ := prepare_failed hptrs hv hres
    refine ⟨hresult, fun v' hv' => ⟨_, hplugin, ?_⟩⟩
    obtain rfl := Option.some.inj (hv.symm.trans hv')
    exact hsame

/-- The rounding in the library wraps unnoticed. That in the plugin guards against it wherever pages
are no larger than 1 GiB. -/
theorem buffer_sizes_iff {allocateEnv : AllocateEnv} {v : OpaeVfio} {n : UInt64}
    (hp : IsPageSize pageSize) (hn : n ≠ 0) (hlen : len ≠ 0) :
    AllocateLaw pageSize allocateEnv v n ∧ PrepareLaw pageSize env p h len ptrs ↔
      (n.toNat + pageSize.toNat ≤ 2 ^ 64 ∨
        ¬(allocateEnv.lock = true ∧ GrantsEmpty allocateEnv.reserveMalloc v.iovaAlloc)) ∧
      (pageSize.toNat ≤ 2 ^ 30 ∨ len.toNat + pageSize.toNat ≤ 2 ^ 64 ∨
        2 ^ 64 < len.toNat + 2 ^ 30 ∨ ¬Spares env p h ptrs) :=
  and_congr (allocateLaw_iff hp hn) (prepareLaw_iff hp hlen)

end

def sampleEnv : AllocateEnv where
  lock := true
  reserveMalloc := true
  mmap := fun _ => some 0x7f0000000000
  mapDma := true
  bufferMalloc := true

def sampleVfio : OpaeVfio := ⟨[⟨0x1000, 0xffff⟩], ⟨[⟨0x1000, 0xf000⟩], []⟩, []⟩

def samplePlugin : Plugin := ⟨[], fun h => if h = 0 then some sampleVfio else none⟩

theorem isPageSize_4096 : IsPageSize 4096 := ⟨12, by decide, rfl⟩

theorem buffer_sizes_sample :
    AllocateLaw 4096 sampleEnv sampleVfio 5000 ∧
      PrepareLaw 4096 ⟨sampleEnv, true, ⟨true, true⟩⟩ samplePlugin 0 5000 true :=
  (buffer_sizes_iff isPageSize_4096 (by decide) (by decide)).mpr
    ⟨.inl (by decide), .inl (by decide)⟩

/-- The largest request there is takes a block of no size from the allocator, and fails. -/
theorem largest_request_wraps :
    IsPageSize 4096 ∧
      opaeVfioBufferAllocate 4096 sampleEnv sampleVfio (some 0xffffffffffffffff) =
        ⟨5, some 0, none, { sampleVfio with
          iovaAlloc := ⟨[⟨0x1000, 0xf000⟩], [⟨0x1000, 0⟩]⟩ }⟩ ∧
      ¬AllocateLaw 4096 sampleEnv sampleVfio 0xffffffffffffffff := by
  refine ⟨isPageSize_4096, by decide, fun hlaw => ?_⟩
  have hnone : ∀ size, ¬Suits 4096 0xffffffffffffffff size := by
    rintro size ⟨hle, hdvd⟩
    have hlt := size.toNat_lt
    have hmax : UInt64.toNat 0xffffffffffffffff = 2 ^ 64 - 1 := rfl
    have hpage : UInt64.toNat 4096 = 4096 := rfl
    rw [hmax] at hle
    rw [hpage] at hdvd
    omega
  obtain ⟨-, hsame⟩ := hlaw.refusal hnone
  revert hsame
  decide

end OpaeLibs.PluginVfio.PreparedSizes
