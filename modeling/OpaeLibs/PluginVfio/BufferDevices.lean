import OpaeLibs.Lib.Chains
import OpaeLibs.PluginVfio.Buffers

namespace OpaeLibs.PluginVfio.BufferDevices

open OpaeLibs.OpaeC.Props OpaeLibs.Lib.Runs
open OpaeLibs.Opaevfio.Buffers OpaeLibs.PluginVfio.Buffers

def buffersAt (addr : UInt64) (v : OpaeVfio) : List OpaeVfioBuffer :=
  v.contBuffers.filter fun b => b.bufferPtr = addr

def heldAt (p : Plugin) (h : Nat) (addr : UInt64) : Option (List OpaeVfioBuffer) :=
  (p.devices h).map (buffersAt addr)

/-- The record's device is open and has exactly one buffer at the record's address, the one that
was allocated for it. -/
def Backed (p : Plugin) (r : VfioBuffer) : Prop :=
  heldAt p r.vfioDevice r.virtual = some [⟨r.virtual, r.size, r.iova⟩]

structure Keeps (pageSize : UInt64) (p : Plugin) (call : Call) : Prop where
  backed : ∀ r ∈ (step pageSize p call).vfioBuffers, Backed (step pageSize p call) r
  removed : ∀ env h wsid r, call = .release env h wsid →
    (vfioFpgaReleaseBuffer env p h wsid).1 = .ok →
    p.vfioBuffers.find? (fun ptr => ptr.wsid == wsid) = some r →
      heldAt (step pageSize p call) r.vfioDevice r.virtual = some []
  closed : ∀ h, call = .close h → (p.devices h).isSome →
    ∀ r ∈ (step pageSize p call).vfioBuffers, r.vfioDevice ≠ h

/-- `mmap` returns no address at which a buffer is still mapped. -/
def MmapFresh (p : Plugin) : Call → Prop
  | .prepare env _ _ _ => ∀ flags addr, env.allocate.mmap flags = some addr →
      ∀ h v, p.devices h = some v → buffersAt addr v = []
  | .release _ _ _ => True
  | .getIOAddress _ => True
  | .close _ => True

/-- A release names the handle that the buffer was prepared on, whose lock is granted, and a
handle is closed when all its buffers are released. -/
def Guard (p : Plugin) : Call → Prop
  | .prepare _ _ _ _ => True
  | .release env h wsid => (p.devices h).isSome →
      ∀ r, p.vfioBuffers.find? (fun ptr => ptr.wsid == wsid) = some r →
        r.vfioDevice = h ∧ env.lock = true
  | .getIOAddress _ => True
  | .close h => (p.devices h).isSome → ∀ r ∈ p.vfioBuffers, r.vfioDevice ≠ h

structure Inv (p : Plugin) : Prop where
  backed : ∀ r ∈ p.vfioBuffers, Backed p r
  nodup : (p.vfioBuffers.map VfioBuffer.virtual).Nodup

theorem findBuffer_eq (buf : UInt64) (prev bs : List OpaeVfioBuffer) :
    findBuffer buf prev bs = (bs.find? fun b => b.bufferPtr = buf).map fun b =>
      (b, prev.reverse ++ bs.eraseP fun b => b.bufferPtr = buf) := by
  induction bs generalizing prev with
  | nil => rfl
  | cons b next ih =>
    rw [findBuffer]
    by_cases hb : b.bufferPtr = buf
    · simp [hb]
    · rw [if_neg hb, ih]
      simp [hb]

theorem free_contBuffers (env : FreeEnv) (v : OpaeVfio) (buf : UInt64) :
    (opaeVfioBufferFree env v buf).2.contBuffers =
      if env.lock then v.contBuffers.eraseP fun b => b.bufferPtr = buf else v.contBuffers := by
  rw [opaeVfioBufferFree, findBuffer_eq]
  cases env.lock with
  | false => rfl
  | true =>
    cases hf : v.contBuffers.find? fun b => b.bufferPtr = buf with
    | none =>
      have herase : (v.contBuffers.eraseP fun b => b.bufferPtr = buf) = v.contBuffers := by
        rw [List.eraseP_eq_self_iff]
        exact fun b hb => List.find?_eq_none.mp hf b hb
      rw [if_pos rfl, herase]
      rfl
    | some b => rfl

theorem buffersAt_free (env : FreeEnv) (v : OpaeVfio) (buf addr : UInt64) :
    buffersAt addr (opaeVfioBufferFree env v buf).2 =
      if env.lock = true ∧ addr = buf then (buffersAt buf v).tail else buffersAt addr v := by
  rw [buffersAt, free_contBuffers]
  cases env.lock with
  | false => simp [buffersAt]
  | true =>
    rw [if_pos rfl, Lib.Chains.filter_eraseP]
    simp only [true_and, buffersAt]

theorem buffersAt_push (addr : UInt64) (v : OpaeVfio) (alloc : Opaemem.Allocator.MemAlloc)
    (b : OpaeVfioBuffer) :
    buffersAt addr { v with iovaAlloc := alloc, contBuffers := b :: v.contBuffers } =
      if b.bufferPtr = addr then b :: buffersAt addr v else buffersAt addr v := by
  rw [buffersAt, List.filter_cons]
  simp only [decide_eq_true_eq, buffersAt]

theorem allocate_failed {pageSize : UInt64} {env : AllocateEnv} {v : OpaeVfio}
    {size : Option UInt64} (h : (opaeVfioBufferAllocate pageSize env v size).res ≠ 0) :
    (opaeVfioBufferAllocate pageSize env v size).vfio.contBuffers = v.contBuffers := by
  obtain ⟨-, hv, -⟩ | ⟨n, a, alloc, -, -, -, -, ⟨-, -, hv⟩ | ⟨virt, -, -, -, -, heq⟩⟩ :=
    opaeVfioBufferAllocate_cases pageSize env v size
  · rw [hv]
  · rw [hv]
  · rw [heq] at h
    exact absurd rfl h

theorem heldAt_setDevice (p : Plugin) (h : Nat) (v : OpaeVfio) (h' : Nat) (addr : UInt64) :
    heldAt (setDevice p h v) h' addr =
      if h' = h then some (buffersAt addr v) else heldAt p h' addr := by
  rw [heldAt, setDevice]
  by_cases hh : h' = h
  · subst hh
    simp [Function.update_self]
  · simp [hh, heldAt]

theorem heldAt_setDevice_same {p : Plugin} {h : Nat} {v v' : OpaeVfio} {addr : UInt64}
    (hv : p.devices h = some v) (hsame : buffersAt addr v' = buffersAt addr v) (h' : Nat) :
    heldAt (setDevice p h v') h' addr = heldAt p h' addr := by
  rw [heldAt_setDevice]
  split
  case isTrue hh => rw [hh, heldAt, hv, hsame, Option.map_some]
  case isFalse => rfl

/-- What a prepare can do: leave the records alone and at most change its device at an address
that `mmap` returned, or add a record with the buffer just allocated. -/
theorem prepare_cases (pageSize : UInt64) (env : PrepareEnv) (p : Plugin) (h : Nat) (len : UInt64)
    (ptrs : Bool) :
    ((vfioFpgaPrepareBuffer pageSize env p h len ptrs).plugin.vfioBuffers = p.vfioBuffers ∧
      ∀ addr, (∀ flags, env.allocate.mmap flags ≠ some addr) → ∀ h',
        heldAt (vfioFpgaPrepareBuffer pageSize env p h len ptrs).plugin h' addr =
          heldAt p h' addr) ∨
    ∃ v n a virt alloc flags, p.devices h = some v ∧ env.allocate.mmap flags = some virt ∧
      (vfioFpgaPrepareBuffer pageSize env p h len ptrs).plugin =
        { setDevice p h
            { v with iovaAlloc := alloc, contBuffers := ⟨virt, n, a⟩ :: v.contBuffers } with
          vfioBuffers := ⟨h, virt, a, n, nextWsid p.vfioBuffers⟩ :: p.vfioBuffers } := by
  rw [vfioFpgaPrepareBuffer]
  cases ptrs with
  | false => exact .inl ⟨rfl, fun _ _ _ => rfl⟩
  | true =>
    cases hv : p.devices h with
    | none => exact .inl ⟨rfl, fun _ _ _ => rfl⟩
    | some v =>
      dsimp only
      by_cases hres :
          (opaeVfioBufferAllocate pageSize env.allocate v (some (prepareSize len))).res = 0
      · obtain ⟨n, a, virt, alloc, hmmap, heq⟩ := allocate_ok hres
        rw [heq]
        cases hmem : env.mem with
        | false =>
          left
          refine ⟨rfl, fun addr haddr h' => ?_⟩
          have hne : virt ≠ addr := fun he => haddr _ (he ▸ hmmap)
          have hfree : buffersAt addr (opaeVfioBufferFree env.free
              { v with iovaAlloc := alloc, contBuffers := ⟨virt, n, a⟩ :: v.contBuffers } virt).2 =
                buffersAt addr v := by
            rw [buffersAt_free, if_neg (fun hc => hne hc.2.symm), buffersAt_push, if_neg hne]
          exact heldAt_setDevice_same hv hfree h'
        | true => exact .inr ⟨v, n, a, virt, alloc, _, rfl, hmmap, rfl⟩
      · left
        rw [if_pos hres]
        refine ⟨rfl, fun addr _ h' => heldAt_setDevice_same hv ?_ h'⟩
        rw [buffersAt, allocate_failed hres, buffersAt]

variable {pageSize : UInt64} {p : Plugin}

theorem Backed.of_heldAt {p' : Plugin} {r : VfioBuffer} (h : Backed p r)
    (hsame : heldAt p' r.vfioDevice r.virtual = heldAt p r.vfioDevice r.virtual) : Backed p' r :=
  hsame.trans h

theorem Backed.not_mmap {r : VfioBuffer} (h : Backed p r) {env : PrepareEnv} {hd : Nat}
    {len : UInt64} {ptrs : Bool} (hfresh : MmapFresh p (.prepare env hd len ptrs)) :
    ∀ flags, env.allocate.mmap flags ≠ some r.virtual := by
  intro flags hm
  rw [Backed, heldAt, Option.map_eq_some_iff] at h
  obtain ⟨v, hv, hbuf⟩ := h
  rw [hfresh flags r.virtual hm r.vfioDevice v hv] at hbuf
  exact absurd hbuf nofun

theorem inv_prepare (h : Inv p) (env : PrepareEnv) (hd : Nat) (len : UInt64) (ptrs : Bool)
    (hfresh : MmapFresh p (.prepare env hd len ptrs)) :
    Inv (step pageSize p (.prepare env hd len ptrs)) := by
  rw [step]
  obtain ⟨hsame, hothers⟩ | ⟨v, n, a, virt, alloc, flags, hv, hm, heq⟩ :=
    prepare_cases pageSize env p hd len ptrs
  · refine ⟨fun r hr => ?_, by rw [hsame]; exact h.nodup⟩
    have hb := h.backed r (hsame ▸ hr)
    exact hb.of_heldAt (hothers _ (hb.not_mmap hfresh) _)
  · have hne : ∀ r ∈ p.vfioBuffers, virt ≠ r.virtual := by
      rintro r hr rfl
      exact (h.backed r hr).not_mmap hfresh flags hm
    rw [heq]
    constructor
    · rw [List.forall_mem_cons]
      constructor
      · have hnew : heldAt (setDevice p hd
            { v with iovaAlloc := alloc, contBuffers := ⟨virt, n, a⟩ :: v.contBuffers }) hd virt =
              some [⟨virt, n, a⟩] := by
          rw [heldAt_setDevice, if_pos rfl, buffersAt_push, if_pos rfl,
            hfresh flags virt hm hd v hv]
        exact hnew
      · intro r hr
        refine (h.backed r hr).of_heldAt (heldAt_setDevice_same hv ?_ _)
        rw [buffersAt_push, if_neg (hne r hr)]
    · rw [List.map_cons, List.nodup_cons, List.mem_map]
      refine ⟨?_, h.nodup⟩
      rintro ⟨r, hr, he⟩
      exact hne r hr he.symm

/-- What a release can do: nothing, or drop the record and free the address on the device of the
handle that was passed. -/
theorem release_cases (env : FreeEnv) (p : Plugin) (h : Nat) (wsid : UInt64) :
    ((vfioFpgaReleaseBuffer env p h wsid).1 ≠ .ok ∧
      (vfioFpgaReleaseBuffer env p h wsid).2 = p ∧
      (p.vfioBuffers.find? (fun ptr => ptr.wsid == wsid) = none ∨ p.devices h = none)) ∨
    ∃ v r before after, p.devices h = some v ∧
      p.vfioBuffers.find? (fun ptr => ptr.wsid == wsid) = some r ∧
      p.vfioBuffers = before ++ r :: after ∧
      vfioFpgaReleaseBuffer env p h wsid =
        (.ok, { setDevice p h (opaeVfioBufferFree env v r.virtual).2 with
          vfioBuffers := before ++ after }) := by
  rw [vfioFpgaReleaseBuffer]
  cases hv : p.devices h with
  | none => exact .inl ⟨nofun, rfl, .inr rfl⟩
  | some v =>
    cases hf : p.vfioBuffers.find? fun ptr => ptr.wsid == wsid with
    | none => exact .inl ⟨nofun, rfl, .inl rfl⟩
    | some r =>
      obtain ⟨hr, before, after, hlist, hbefore⟩ := List.find?_eq_some_iff_append.mp hf
      have herase : (p.vfioBuffers.eraseP fun ptr => ptr.wsid == wsid) = before ++ after := by
        have hnone : ∀ b ∈ before, ¬ (b.wsid == wsid) = true := by
          intro b hb
          simpa using hbefore b hb
        rw [hlist, List.eraseP_append_right _ hnone, List.eraseP_cons, hr, cond_true]
      right
      exact ⟨v, r, before, after, rfl, rfl, hlist, by rw [herase]⟩

theorem heldAt_release (env : FreeEnv) (h : Nat) (v : OpaeVfio) (r : VfioBuffer)
    (hb : Backed p r) (hv : p.devices h = some v) :
    heldAt (setDevice p h (opaeVfioBufferFree env v r.virtual).2) r.vfioDevice r.virtual = some [] ↔
      r.vfioDevice = h ∧ env.lock = true := by
  have hheld : heldAt p r.vfioDevice r.virtual = some [⟨r.virtual, r.size, r.iova⟩] := hb
  rw [heldAt_setDevice]
  by_cases hd : r.vfioDevice = h
  · rw [hd, heldAt, hv, Option.map_some, Option.some.injEq] at hheld
    rw [if_pos hd, buffersAt_free]
    cases env.lock with
    | false => simp [hheld]
    | true => simp [hheld, hd]
  · rw [if_neg hd, hheld]
    simp [hd]

theorem inv_release (h : Inv p) (env : FreeEnv) {hd : Nat} {v : OpaeVfio} {r : VfioBuffer}
    {before after : List VfioBuffer} (hv : p.devices hd = some v)
    (hlist : p.vfioBuffers = before ++ r :: after) :
    Inv { setDevice p hd (opaeVfioBufferFree env v r.virtual).2 with
      vfioBuffers := before ++ after } := by
  have hperm : p.vfioBuffers.Perm (r :: (before ++ after)) := hlist ▸ List.perm_middle
  have hnodup := (hperm.map VfioBuffer.virtual).nodup_iff.mp h.nodup
  rw [List.map_cons, List.nodup_cons] at hnodup
  refine ⟨fun r' hr' => ?_, hnodup.2⟩
  have hne : r'.virtual ≠ r.virtual := by
    intro he
    apply hnodup.1
    rw [← he]
    exact List.mem_map_of_mem hr'
  have hb := h.backed r' (hperm.mem_iff.mpr (List.mem_cons_of_mem _ hr'))
  apply hb.of_heldAt
  exact heldAt_setDevice_same hv (by rw [buffersAt_free, if_neg fun hc => hne hc.2]) _

theorem keeps_release_iff (h : Inv p) (env : FreeEnv) (hd : Nat) (wsid : UInt64) :
    (Keeps pageSize p (.release env hd wsid) ↔ Guard p (.release env hd wsid)) ∧
      (Guard p (.release env hd wsid) → Inv (step pageSize p (.release env hd wsid))) := by
  rw [Guard]
  obtain ⟨hres, hsame, hnone⟩ | ⟨v, r, before, after, hv, hf, hlist, heq⟩ :=
    release_cases env p hd wsid
  · have hguard : (p.devices hd).isSome →
        ∀ r, p.vfioBuffers.find? (fun ptr => ptr.wsid == wsid) = some r →
          r.vfioDevice = hd ∧ env.lock = true := by
      intro hopen r hr
      rcases hnone with hnone | hnone
      · rw [hnone] at hr
        exact absurd hr nofun
      · rw [hnone] at hopen
        exact absurd hopen nofun
    have hstep : step pageSize p (.release env hd wsid) = p := hsame
    have hkeeps : Keeps pageSize p (.release env hd wsid) := by
      refine ⟨by rw [hstep]; exact h.backed, ?_, nofun⟩
      rintro _ _ _ _ ⟨⟩ hok
      exact absurd hok hres
    exact ⟨⟨fun _ => hguard, fun _ => hkeeps⟩, fun _ => by rw [hstep]; exact h⟩
  · have hr : r ∈ p.vfioBuffers := hlist ▸ List.mem_append_right _ List.mem_cons_self
    have hstep : step pageSize p (.release env hd wsid) =
        { setDevice p hd (opaeVfioBufferFree env v r.virtual).2 with
          vfioBuffers := before ++ after } := by rw [step, heq]
    have hheld := heldAt_release env hd v r (h.backed r hr) hv
    have hinv : Inv (step pageSize p (.release env hd wsid)) := by
      rw [hstep]
      exact inv_release h env hv hlist
    have hguard : ((p.devices hd).isSome →
        ∀ r, p.vfioBuffers.find? (fun ptr => ptr.wsid == wsid) = some r →
          r.vfioDevice = hd ∧ env.lock = true) ↔ r.vfioDevice = hd ∧ env.lock = true := by
      simp [hv, hf]
    rw [hguard]
    refine ⟨⟨fun hk => ?_, fun hg => ⟨hinv.backed, ?_, nofun⟩⟩, fun _ => hinv⟩
    · have hrem := hk.removed env hd wsid r rfl (by rw [heq]) hf
      rw [hstep] at hrem
      exact hheld.mp hrem
    · rintro _ _ _ r' ⟨⟩ - hf'
      obtain rfl : r = r' := Option.some.inj (hf.symm.trans hf')
      rw [hstep]
      exact hheld.mpr hg

theorem heldAt_close {h h' : Nat} (hne : h' ≠ h) (addr : UInt64) :
    heldAt { p with devices := Function.update p.devices h none } h' addr = heldAt p h' addr := by
  rw [heldAt, heldAt]
  dsimp only
  rw [Function.update_of_ne hne]

theorem keeps_close_iff (h : Inv p) (hd : Nat) :
    (Keeps pageSize p (.close hd) ↔ Guard p (.close hd)) ∧
      (Guard p (.close hd) → Inv (step pageSize p (.close hd))) := by
  rw [Guard]
  cases hv : p.devices hd with
  | none =>
    have hstep : step pageSize p (.close hd) = p := by rw [step, vfioFpgaClose, hv]
    have hkeeps : Keeps pageSize p (.close hd) := by
      refine ⟨by rw [hstep]; exact h.backed, (fun _ _ _ _ h => by cases h), ?_⟩
      rintro _ ⟨⟩ hopen
      rw [hv] at hopen
      exact by cases hopen
    exact ⟨⟨(fun _ h => by cases h), fun _ => hkeeps⟩, fun _ => by rw [hstep]; exact h⟩
  | some v =>
    have hstep : step pageSize p (.close hd) =
        { p with devices := Function.update p.devices hd none } := by rw [step, vfioFpgaClose, hv]
    have hinv : (∀ r ∈ p.vfioBuffers, r.vfioDevice ≠ hd) →
        Inv (step pageSize p (.close hd)) := by
      intro hg
      rw [hstep]
      exact ⟨fun r hr => (h.backed r hr).of_heldAt (heldAt_close (hg r hr) _), h.nodup⟩
    refine ⟨⟨fun hk _ r hr => ?_, fun hg => ?_⟩, fun hg => hinv (hg rfl)⟩
    · exact hk.closed hd rfl (by rw [hv]; rfl) r (by rw [hstep]; exact hr)
    · refine ⟨(hinv (hg rfl)).backed, (fun _ _ _ _ h => by cases h), ?_⟩
      rintro _ ⟨⟩ - r hr
      rw [hstep] at hr
      exact hg rfl r hr

theorem keeps_iff (h : Inv p) (call : Call) (hfresh : MmapFresh p call) :
    (Keeps pageSize p call ↔ Guard p call) ∧ (Guard p call → Inv (step pageSize p call)) := by
  cases call with
  | prepare env hd len ptrs =>
    have hinv : Inv (step pageSize p (.prepare env hd len ptrs)) :=
      inv_prepare h env hd len ptrs hfresh
    exact ⟨⟨fun _ => trivial, fun _ => ⟨hinv.backed, nofun, nofun⟩⟩, fun _ => hinv⟩
  | release env hd wsid => exact keeps_release_iff h env hd wsid
  | getIOAddress wsid =>
    exact ⟨⟨fun _ => trivial, fun _ => ⟨h.backed, nofun, nofun⟩⟩, fun _ => h⟩
  | close hd => exact keeps_close_iff h hd

def opened (devices : Nat → Option OpaeVfio) : Plugin := ⟨[], devices⟩

theorem inv_opened (devices : Nat → Option OpaeVfio) : Inv (opened devices) :=
  ⟨nofun, List.nodup_nil⟩

theorem records_match_devices_iff (pageSize : UInt64) (devices : Nat → Option OpaeVfio)
    (calls : List Call) (hfresh : Along (step pageSize) MmapFresh (opened devices) calls) :
    Along (step pageSize) (Keeps pageSize) (opened devices) calls ↔
      Along (step pageSize) Guard (opened devices) calls := by
  have hiff : Along (step pageSize) (fun p call => MmapFresh p call ∧ Keeps pageSize p call)
      (opened devices) calls ↔
        Along (step pageSize) (fun p call => MmapFresh p call ∧ Guard p call)
          (opened devices) calls :=
    along_iff (fun p call hi hg => (keeps_iff hi call hg.1).2 hg.2)
      (fun p call hi => and_congr_right fun hf => (keeps_iff hi call hf).1) calls
      (inv_opened devices)
  rw [along_and, along_and] at hiff
  exact ⟨fun hk => (hiff.mp ⟨hfresh, hk⟩).2, fun hg => (hiff.mpr ⟨hfresh, hg⟩).2⟩

def twoDevices (h : Nat) : Option OpaeVfio :=
  if h = 1 ∨ h = 2 then some ⟨[], ⟨[⟨0x100000, 0x100000⟩], []⟩, []⟩ else none

def preparePage (h : Nat) : Call :=
  .prepare ⟨⟨true, true, fun _ => some 0x7000, true, true⟩, true, ⟨true, true⟩⟩ h 4096 true

def releaseFirst (h : Nat) : Call := .release ⟨true, true⟩ h 0

theorem opened_fresh (h : Nat) (calls : List Call)
    (hrest : Along (step 4096) MmapFresh (step 4096 (opened twoDevices) (preparePage h)) calls) :
    Along (step 4096) MmapFresh (opened twoDevices) (preparePage h :: calls) := by
  refine ⟨fun _ addr _ h' v hv => ?_, hrest⟩
  simp only [opened, twoDevices] at hv
  split at hv
  · rw [← Option.some.inj hv]
    rfl
  · exact absurd hv nofun

theorem records_match_devices_iff_sample :
    Along (step 4096) MmapFresh (opened twoDevices)
      [preparePage 1, releaseFirst 1, .close 1, .close 2] ∧
    Along (step 4096) (Keeps 4096) (opened twoDevices)
      [preparePage 1, releaseFirst 1, .close 1, .close 2] := by
  have hfresh :=
    opened_fresh 1 [releaseFirst 1, .close 1, .close 2] ⟨trivial, trivial, trivial, trivial⟩
  refine ⟨hfresh, ?_⟩
  rw [records_match_devices_iff 4096 twoDevices _ hfresh]
  refine ⟨trivial, fun _ r hr => ?_, nofun, nofun, trivial⟩
  obtain rfl : (⟨1, 0x7000, 0x100000, 4096, 0⟩ : VfioBuffer) = r := Option.some.inj hr
  exact ⟨rfl, rfl⟩

/-- Released through the other handle, the buffer stays on its device; after the close of its
device the record stays on the list. -/
theorem records_left_behind :
    ((vfioFpgaReleaseBuffer ⟨true, true⟩ (step 4096 (opened twoDevices) (preparePage 1)) 2 0).1 =
        .ok ∧
      heldAt (run (step 4096) (opened twoDevices) [preparePage 1, releaseFirst 2]) 1 0x7000 =
        some [⟨0x7000, 4096, 0x100000⟩]) ∧
    (run (step 4096) (opened twoDevices) [preparePage 1, .close 1]).vfioBuffers =
      [⟨1, 0x7000, 0x100000, 4096, 0⟩] ∧
    ¬ Along (step 4096) (Keeps 4096) (opened twoDevices) [preparePage 1, releaseFirst 2] ∧
    ¬ Along (step 4096) (Keeps 4096) (opened twoDevices) [preparePage 1, .close 1] := by
  refine ⟨⟨rfl, rfl⟩, rfl, ?_, ?_⟩
  · rintro ⟨-, hk, -⟩
    have hheld := hk.removed ⟨true, true⟩ 2 0 ⟨1, 0x7000, 0x100000, 4096, 0⟩ rfl rfl rfl
    exact absurd (Option.some.inj hheld) nofun
  · rintro ⟨-, hk, -⟩
    exact hk.closed 1 rfl rfl ⟨1, 0x7000, 0x100000, 4096, 0⟩ List.mem_cons_self rfl

end OpaeLibs.PluginVfio.BufferDevices
