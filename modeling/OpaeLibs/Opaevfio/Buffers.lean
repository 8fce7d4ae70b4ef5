import OpaeLibs.Opaemem.Invariant

namespace OpaeLibs.Opaevfio.Buffers

open OpaeLibs.Lib.Spans
open OpaeLibs.Opaemem.Allocator OpaeLibs.Opaemem.FreeList OpaeLibs.Opaemem.Invariant

/-- `struct opae_vfio_iova_range`; `last` is its field `end`, the last offset of the range. -/
structure OpaeVfioIovaRange where
  start : UInt64
  last : UInt64
deriving DecidableEq, Repr

structure OpaeVfioBuffer where
  bufferPtr : UInt64
  bufferSize : UInt64
  bufferIova : UInt64
deriving DecidableEq, Repr

structure OpaeVfio where
  contRanges : List OpaeVfioIovaRange
  iovaAlloc : MemAlloc
  contBuffers : List OpaeVfioBuffer
deriving DecidableEq, Repr

/-- A range the kernel reports, with the outcomes of the `malloc` calls made on its account. -/
structure ReportedRange where
  range : OpaeVfioIovaRange
  nodeMalloc : Bool
  addMalloc : Bool
deriving DecidableEq, Repr

def discoverRange (v : OpaeVfio) (r : ReportedRange) : OpaeVfio :=
  if r.nodeMalloc then
    { v with
      contRanges := v.contRanges ++ [r.range]
      iovaAlloc := (memAllocAddFree r.addMalloc v.iovaAlloc r.range.start
        (r.range.last + 1 - r.range.start)).2 }
  else v

/-- What `opae_vfio_init` leaves in the three fields: an initialised allocator that
`opae_vfio_iova_discover` has filled with the reported ranges. -/
def opaeVfioIovaDiscover (reported : List ReportedRange) : OpaeVfio :=
  reported.foldl discoverRange ⟨[], memAllocInit, []⟩

inductive MapFlags
  | flags4K
  | flags2M
  | flags1G
deriving DecidableEq, Repr

def mapFlags (size : UInt64) : MapFlags :=
  if size > 2 * 1024 * 1024 then .flags1G else if size > 4096 then .flags2M else .flags4K

structure AllocateEnv where
  lock : Bool
  reserveMalloc : Bool
  mmap : MapFlags → Option UInt64
  mapDma : Bool
  bufferMalloc : Bool

/-- `mmap` refuses a mapping of length 0 whatever the flags. -/
def mmapBuffer (env : AllocateEnv) (size : UInt64) : Option UInt64 :=
  if size = 0 then none else env.mmap (mapFlags size)

def roundUp (pageSize size : UInt64) : UInt64 :=
  pageSize + ((size - 1) &&& ~~~(pageSize - 1))

/-- Also returns the rounded value left in `*size`. -/
def opaeVfioIovaReserve (pageSize : UInt64) (malloc : Bool) (v : OpaeVfio) (size : UInt64) :
    UInt64 × Except Int UInt64 × OpaeVfio :=
  let size := roundUp pageSize size
  let (iova, alloc) := memAllocGet malloc v.iovaAlloc size
  (size, iova, { v with iovaAlloc := alloc })

def opaeVfioCreateBuffer (malloc : Bool) (vaddr size iova : UInt64) : Option OpaeVfioBuffer :=
  if malloc then some ⟨vaddr, size, iova⟩ else none

/-- `size` is what `*size` holds on return, `out` the values stored in `*buf` and `*iova`. -/
structure AllocateResult where
  res : Int
  size : Option UInt64
  out : Option (UInt64 × UInt64)
  vfio : OpaeVfio
deriving DecidableEq, Repr

/-- A missing `size` is the NULL pointer. -/
def opaeVfioBufferAllocate (pageSize : UInt64) (env : AllocateEnv) (v : OpaeVfio)
    (size : Option UInt64) : AllocateResult :=
  match size with
  | none => ⟨1, none, none, v⟩
  | some requested =>
    if requested = 0 then ⟨2, size, none, v⟩
    else if !env.lock then ⟨3, size, none, v⟩
    else
      match opaeVfioIovaReserve pageSize env.reserveMalloc v requested with
      | (rounded, .error _, v) => ⟨4, some rounded, none, v⟩
      | (rounded, .ok ioaddr, v) =>
        match mmapBuffer env rounded with
        | none => ⟨5, some rounded, none, v⟩
        | some vaddr =>
          if !env.mapDma then ⟨5, some rounded, none, v⟩
          else
            match opaeVfioCreateBuffer env.bufferMalloc vaddr rounded ioaddr with
            | none => ⟨6, some rounded, none, v⟩
            | some node =>
              ⟨0, some rounded, some (vaddr, ioaddr), { v with contBuffers := node :: v.contBuffers }⟩

/-- Walks a chain of buffers. The outcomes of the unmap ioctl and of `munmap` are only logged;
`malloc` says whether `mem_alloc_put` gets its node. -/
def opaeVfioDestroyBuffer (malloc : OpaeVfioBuffer → Bool) (v : OpaeVfio)
    (buffers : List OpaeVfioBuffer) : OpaeVfio :=
  buffers.foldl (fun v b =>
    { v with iovaAlloc := (memAllocPut (malloc b) v.iovaAlloc b.bufferIova).2 }) v

def findBuffer (buf : UInt64) (prev : List OpaeVfioBuffer) :
    List OpaeVfioBuffer → Option (OpaeVfioBuffer × List OpaeVfioBuffer)
  | [] => none
  | b :: next =>
    if b.bufferPtr = buf then some (b, prev.reverse ++ next) else findBuffer buf (b :: prev) next

structure FreeEnv where
  lock : Bool
  putMalloc : Bool
deriving DecidableEq, Repr

def opaeVfioBufferFree (env : FreeEnv) (v : OpaeVfio) (buf : UInt64) : Int × OpaeVfio :=
  if !env.lock then (2, v)
  else
    match findBuffer buf [] v.contBuffers with
    | none => (3, v)
    | some (b, rest) =>
      (0, opaeVfioDestroyBuffer (fun _ => env.putMalloc) { v with contBuffers := rest } [b])

/-- What an allocation can do: be refused with no effect, reserve a range and then give up without
returning it, or complete. -/
theorem opaeVfioBufferAllocate_cases (pageSize : UInt64) (env : AllocateEnv) (v : OpaeVfio)
    (size : Option UInt64) :
    ((opaeVfioBufferAllocate pageSize env v size).res ≠ 0 ∧
      (opaeVfioBufferAllocate pageSize env v size).vfio = v ∧
      ∀ n, size = some n → n ≠ 0 → env.lock = true →
        ∃ e, (memAllocGet env.reserveMalloc v.iovaAlloc (roundUp pageSize n)).1 = .error e) ∨
    ∃ n a alloc, size = some n ∧ n ≠ 0 ∧ env.lock = true ∧
      memAllocGet env.reserveMalloc v.iovaAlloc (roundUp pageSize n) = (.ok a, alloc) ∧
      ((¬((mmapBuffer env (roundUp pageSize n)).isSome ∧ env.mapDma = true ∧
          env.bufferMalloc = true) ∧
        (opaeVfioBufferAllocate pageSize env v size).res ≠ 0 ∧
        (opaeVfioBufferAllocate pageSize env v size).vfio = { v with iovaAlloc := alloc }) ∨
      ∃ p, roundUp pageSize n ≠ 0 ∧ mmapBuffer env (roundUp pageSize n) = some p ∧
        env.mapDma = true ∧ env.bufferMalloc = true ∧
        opaeVfioBufferAllocate pageSize env v size =
          ⟨0, some (roundUp pageSize n), some (p, a), { v with
            iovaAlloc := alloc
            contBuffers := ⟨p, roundUp pageSize n, a⟩ :: v.contBuffers }⟩) := by
  cases size with
  | none => exact .inl ⟨by simp [opaeVfioBufferAllocate], rfl, by simp⟩
  | some n =>
    by_cases hn : n = 0
    · exact .inl ⟨by simp [opaeVfioBufferAllocate, hn], by simp [opaeVfioBufferAllocate, hn],
        fun k hk hk0 => absurd (Option.some.inj hk ▸ hn) hk0⟩
    by_cases hl : env.lock = true
    case neg =>
      exact .inl ⟨by simp [opaeVfioBufferAllocate, hn, hl],
        by simp [opaeVfioBufferAllocate, hn, hl], fun _ _ _ h => absurd h hl⟩
    cases hg : memAllocGet env.reserveMalloc v.iovaAlloc (roundUp pageSize n) with
    | mk r alloc =>
      cases r with
      | error e =>
        have halloc := memAllocGet_error hg
        refine .inl ⟨?_, ?_, fun k hk _ _ => ⟨e, by rw [← Option.some.inj hk, hg]⟩⟩
        · simp [opaeVfioBufferAllocate, opaeVfioIovaReserve, hn, hl, hg]
        · simp [opaeVfioBufferAllocate, opaeVfioIovaReserve, hn, hl, hg, halloc]
      | ok a =>
        refine .inr ⟨n, a, alloc, rfl, hn, hl, hg, ?_⟩
        cases hm : mmapBuffer env (roundUp pageSize n) with
        | none =>
          refine .inl ⟨by simp, ?_, ?_⟩ <;>
            simp [opaeVfioBufferAllocate, opaeVfioIovaReserve, hn, hl, hg, hm]
        | some p =>
          have h0 : roundUp pageSize n ≠ 0 := fun h0 => by simp [mmapBuffer, h0] at hm
          by_cases hd : env.mapDma = true
          case neg =>
            refine .inl ⟨by simp [hd], ?_, ?_⟩ <;>
              simp [opaeVfioBufferAllocate, opaeVfioIovaReserve, hn, hl, hg, hm, hd]
          by_cases hb : env.bufferMalloc = true
          case neg =>
            refine .inl ⟨by simp [hb], ?_, ?_⟩ <;>
              simp [opaeVfioBufferAllocate, opaeVfioIovaReserve, opaeVfioCreateBuffer, hn, hl, hg,
                hm, hd, hb]
          refine .inr ⟨p, h0, rfl, hd, hb, ?_⟩
          simp [opaeVfioBufferAllocate, opaeVfioIovaReserve, opaeVfioCreateBuffer, hn, hl, hg, hm,
            hd, hb]

theorem opaeVfioBufferAllocate_out {pageSize : UInt64} {env : AllocateEnv} {v : OpaeVfio}
    {size : Option UInt64} {x : UInt64 × UInt64}
    (h : (opaeVfioBufferAllocate pageSize env v size).out = some x) :
    (opaeVfioBufferAllocate pageSize env v size).res = 0 := by
  cases size with
  | none => simp [opaeVfioBufferAllocate] at h
  | some n =>
    rw [opaeVfioBufferAllocate] at h ⊢
    -- only the last of the seven ways out stores to `*buf` and `*iova`
    repeat' split
    all_goals simp_all

theorem findBuffer_some {buf : UInt64} {prev bs rest : List OpaeVfioBuffer} {b : OpaeVfioBuffer}
    (h : findBuffer buf prev bs = some (b, rest)) :
    ∃ before after, bs = before ++ b :: after ∧ rest = prev.reverse ++ before ++ after := by
  induction bs generalizing prev with
  | nil => simp [findBuffer] at h
  | cons c next ih =>
    rw [findBuffer] at h
    split at h
    · obtain ⟨rfl, rfl⟩ := Prod.mk.inj (Option.some.inj h)
      exact ⟨[], next, rfl, by simp⟩
    · obtain ⟨before, after, rfl, rfl⟩ := ih h
      exact ⟨c :: before, after, rfl, by simp⟩

/-- What a release can do: nothing, or take one buffer off the list and put its range. -/
theorem opaeVfioBufferFree_cases (env : FreeEnv) (v : OpaeVfio) (buf : UInt64) :
    (opaeVfioBufferFree env v buf).2 = v ∨
      ∃ before b after, v.contBuffers = before ++ b :: after ∧
        (opaeVfioBufferFree env v buf).2 = { v with
          iovaAlloc := (memAllocPut env.putMalloc v.iovaAlloc b.bufferIova).2
          contBuffers := before ++ after } := by
  rw [opaeVfioBufferFree]
  split
  · exact .inl rfl
  · split
    · exact .inl rfl
    · next b rest h =>
      obtain ⟨before, after, hbs, rfl⟩ := findBuffer_some h
      exact .inr ⟨before, b, after, hbs, rfl⟩

end OpaeLibs.Opaevfio.Buffers
