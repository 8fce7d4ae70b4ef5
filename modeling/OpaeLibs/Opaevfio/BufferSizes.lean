import OpaeLibs.Lib.Rounding
import OpaeLibs.Opaevfio.Buffers

namespace OpaeLibs.Opaevfio.BufferSizes

open OpaeLibs.Lib.Rounding
open OpaeLibs.Opaemem.Allocator OpaeLibs.Opaemem.FreeList OpaeLibs.Opaemem.Invariant
open OpaeLibs.Opaevfio.Buffers

/-- Page sizes are powers of two. -/
def IsPageSize (pageSize : UInt64) : Prop := ∃ k < 64, pageSize.toNat = 2 ^ k

def Reserved (v v' : OpaeVfio) (size : UInt64) : Prop :=
  ∃ iova virt, v'.iovaAlloc.allocated = v.iovaAlloc.allocated ++ [⟨iova, size⟩] ∧
    v'.contBuffers = ⟨virt, size, iova⟩ :: v.contBuffers

/-- A size that will do for a request of `n` bytes. -/
def Suits (pageSize n size : UInt64) : Prop :=
  n.toNat ≤ size.toNat ∧ pageSize.toNat ∣ size.toNat

/-- What is promised of a request: a success reserves and maps enough whole pages, and one that no
size will do for leaves the allocator alone. -/
structure AllocateLaw (pageSize : UInt64) (env : AllocateEnv) (v : OpaeVfio) (n : UInt64) :
    Prop where
  success : (opaeVfioBufferAllocate pageSize env v (some n)).res = 0 →
    ∃ size, Suits pageSize n size ∧
      Reserved v (opaeVfioBufferAllocate pageSize env v (some n)).vfio size
  refusal : (∀ size, ¬Suits pageSize n size) →
    (opaeVfioBufferAllocate pageSize env v (some n)).res ≠ 0 ∧
      (opaeVfioBufferAllocate pageSize env v (some n)).vfio.iovaAlloc = v.iovaAlloc

/-- The allocator can spare a block of no size: the first free one is such, or there is memory for
the record of another. -/
def GrantsEmpty (malloc : Bool) (m : MemAlloc) : Prop :=
  ∃ p rest, m.free = p :: rest ∧ (p.size = 0 ∨ malloc = true)

theorem memAllocGet_zero {malloc : Bool} {m : MemAlloc} :
    (∃ a m', memAllocGet malloc m 0 = (.ok a, m')) ↔ GrantsEmpty malloc m := by
  rw [memAllocGet, GrantsEmpty]
  cases m.free with
  | nil =>
    constructor
    · rintro ⟨a, m', h⟩
      cases (Prod.mk.inj h).1
    · rintro ⟨p, rest, h, -⟩
      cases h
  | cons p rest =>
    rw [firstFit, if_pos UInt64.zero_le, memAllocAllocateNode]
    by_cases hsize : p.size = 0
    · rw [if_pos hsize]
      exact ⟨fun _ => ⟨p, rest, rfl, .inl hsize⟩, fun _ => ⟨_, _, rfl⟩⟩
    · rw [if_neg hsize]
      cases malloc with
      | true => exact ⟨fun _ => ⟨p, rest, rfl, .inr rfl⟩, fun _ => ⟨_, _, rfl⟩⟩
      | false =>
        constructor
        · rintro ⟨a, m', h⟩
          cases (Prod.mk.inj h).1
        · rintro ⟨q, rest', hq, hgrants⟩
          obtain ⟨rfl, -⟩ := List.cons.inj hq
          exact absurd hgrants (by simp [hsize])

section

variable {pageSize n : UInt64}

theorem IsPageSize.pos (hp : IsPageSize pageSize) : 0 < pageSize.toNat := by
  obtain ⟨k, -, hk⟩ := hp
  rw [hk]
  exact Nat.two_pow_pos k

theorem IsPageSize.dvd_top (hp : IsPageSize pageSize) : pageSize.toNat ∣ 2 ^ 64 := by
  obtain ⟨k, hlt, hk⟩ := hp
  rw [hk]
  exact Nat.pow_dvd_pow 2 hlt.le

theorem IsPageSize.le_half (hp : IsPageSize pageSize) : pageSize.toNat ≤ 2 ^ 63 := by
  obtain ⟨k, hlt, hk⟩ := hp
  rw [hk]
  exact Nat.pow_le_pow_right (by decide) (Nat.le_of_lt_succ hlt)

theorem toNat_pos (hn : n ≠ 0) : 0 < n.toNat :=
  Nat.pos_of_ne_zero fun h => hn (UInt64.toNat_inj.mp h)

theorem toNat_roundUp (hp : IsPageSize pageSize) (hn : n ≠ 0) :
    (roundUp pageSize n).toNat = ceil pageSize.toNat n.toNat % 2 ^ 64 := by
  obtain ⟨k, hlt, hk⟩ := hp
  rw [roundUp, toNat_add_and_not_pred hlt hk hn, hk]

theorem roundUp_eq_zero_iff (hp : IsPageSize pageSize) (hn : n ≠ 0) :
    roundUp pageSize n = 0 ↔ 2 ^ 64 < n.toNat + pageSize.toNat :=
  word_eq_zero_iff (toNat_roundUp hp hn) hp.dvd_top (toNat_pos hn) n.toNat_lt.le

theorem toNat_roundUp_of_ne (hp : IsPageSize pageSize) (hn : n ≠ 0) (h : roundUp pageSize n ≠ 0) :
    (roundUp pageSize n).toNat = ceil pageSize.toNat n.toNat := by
  rw [Ne, roundUp_eq_zero_iff hp hn, Nat.not_lt] at h
  exact toNat_word (toNat_roundUp hp hn) hp.dvd_top h

theorem suits_roundUp (hp : IsPageSize pageSize) (hn : n ≠ 0) (h : roundUp pageSize n ≠ 0) :
    Suits pageSize n (roundUp pageSize n) := by
  rw [Suits, toNat_roundUp_of_ne hp hn h]
  exact ⟨le_ceil hp.pos _, dvd_ceil _ _⟩

theorem exists_suits_iff (hp : IsPageSize pageSize) (hn : n ≠ 0) :
    (∃ size, Suits pageSize n size) ↔ roundUp pageSize n ≠ 0 := by
  constructor
  · rintro ⟨size, hle, hdvd⟩
    have hlt := ((ceil_le_iff hp.pos hdvd).mpr hle).trans_lt size.toNat_lt
    rw [Ne, roundUp_eq_zero_iff hp hn, Nat.not_lt]
    exact (ceil_lt_iff hp.pos hp.dvd_top).mp hlt
  · intro h
    exact ⟨_, suits_roundUp hp hn h⟩

end

section

variable {pageSize : UInt64} {env : AllocateEnv} {v : OpaeVfio} {n : UInt64}

theorem allocate_success (h : (opaeVfioBufferAllocate pageSize env v (some n)).res = 0) :
    n ≠ 0 ∧ roundUp pageSize n ≠ 0 ∧
      (opaeVfioBufferAllocate pageSize env v (some n)).size = some (roundUp pageSize n) ∧
      Reserved v (opaeVfioBufferAllocate pageSize env v (some n)).vfio (roundUp pageSize n) := by
  obtain ⟨hne, -⟩ | ⟨n', a, alloc, hn', hn0, -, hget, ⟨-, hne, -⟩ | ⟨virt, hr, -, -, -, heq⟩⟩ :=
    opaeVfioBufferAllocate_cases pageSize env v (some n)
  · exact absurd h hne
  · exact absurd h hne
  · obtain rfl := Option.some.inj hn'
    rw [heq]
    exact ⟨hn0, hr, rfl, a, virt, memAllocGet_allocated hget, rfl⟩

/-- A request that wraps fails, but not before it has asked the allocator for a block of no size. -/
theorem allocate_wrapped (env : AllocateEnv) (v : OpaeVfio) (hn : n ≠ 0) (hwraps : roundUp pageSize n = 0) :
    (opaeVfioBufferAllocate pageSize env v (some n)).res ≠ 0 ∧
      ((opaeVfioBufferAllocate pageSize env v (some n)).vfio.iovaAlloc = v.iovaAlloc ↔
        ¬(env.lock = true ∧ GrantsEmpty env.reserveMalloc v.iovaAlloc)) := by
  rw [← memAllocGet_zero]
  obtain ⟨hne, hv, hrefused⟩ |
    ⟨n', a, alloc, hn', -, hlock, hget, ⟨-, hne, hv⟩ | ⟨virt, hr, -⟩⟩ :=
    opaeVfioBufferAllocate_cases pageSize env v (some n)
  · refine ⟨hne, ?_⟩
    rw [hv]
    refine ⟨fun _ => ?_, fun _ => rfl⟩
    rintro ⟨hlock, a, m', hget⟩
    obtain ⟨e, he⟩ := hrefused n rfl hn hlock
    rw [hwraps, hget] at he
    exact nomatch he
  · obtain rfl := Option.some.inj hn'
    refine ⟨hne, ?_⟩
    rw [hwraps] at hget
    rw [hv]
    exact ⟨fun he => absurd he (memAllocGet_ne hget), fun h => absurd ⟨hlock, a, alloc, hget⟩ h⟩
  · obtain rfl := Option.some.inj hn'
    exact absurd hwraps hr

theorem allocateLaw_iff (hp : IsPageSize pageSize) (hn : n ≠ 0) :
    AllocateLaw pageSize env v n ↔ n.toNat + pageSize.toNat ≤ 2 ^ 64 ∨
      ¬(env.lock = true ∧ GrantsEmpty env.reserveMalloc v.iovaAlloc) := by
  have hsuccess : (opaeVfioBufferAllocate pageSize env v (some n)).res = 0 →
      ∃ size, Suits pageSize n size ∧
        Reserved v (opaeVfioBufferAllocate pageSize env v (some n)).vfio size := by
    intro h
    obtain ⟨-, hr, -, hreserved⟩ := allocate_success h
    exact ⟨_, suits_roundUp hp hn hr, hreserved⟩
  have hsuits := exists_suits_iff hp hn
  rw [← Nat.not_lt, ← roundUp_eq_zero_iff hp hn]
  by_cases hwraps : roundUp pageSize n = 0
  · have hnone : ∀ size, ¬Suits pageSize n size := fun size h => hsuits.mp ⟨size, h⟩ hwraps
    obtain ⟨hres, halloc⟩ := allocate_wrapped env v hn hwraps
    constructor
    · intro h
      exact .inr (halloc.mp (h.refusal hnone).2)
    · intro h
      exact ⟨hsuccess, fun _ => ⟨hres, halloc.mpr (h.resolve_left (fun h => h hwraps))⟩⟩
  · obtain ⟨size, hsize⟩ := hsuits.mpr hwraps
    exact ⟨fun _ => .inl hwraps, fun _ => ⟨hsuccess, fun hnone => absurd hsize (hnone size)⟩⟩

end

end OpaeLibs.Opaevfio.BufferSizes
