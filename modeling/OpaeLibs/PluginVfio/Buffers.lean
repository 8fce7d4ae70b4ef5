import OpaeLibs.Lib.Runs
import OpaeLibs.OpaeC.Props
import OpaeLibs.Opaevfio.Buffers

namespace OpaeLibs.PluginVfio.Buffers

open OpaeLibs.OpaeC.Props OpaeLibs.Lib.Runs
open OpaeLibs.Opaevfio.Buffers

/-- `vfioDevice` is the handle whose `opae_vfio` the buffer was allocated from: every handle opens
one of its own. -/
structure VfioBuffer where
  vfioDevice : Nat
  virtual : UInt64
  iova : UInt64
  size : UInt64
  wsid : UInt64
deriving DecidableEq, Repr

/-- The list `_vfio_buffers`, and the `opae_vfio` of each handle that is open. -/
structure Plugin where
  vfioBuffers : List VfioBuffer
  devices : Nat → Option OpaeVfio

def huge1g : UInt64 := 1 * 1024 * 1024 * 1024
def huge2m : UInt64 := 2 * 1024 * 1024

def roundUpTo (n m : UInt64) : UInt64 := (n + m - 1) &&& -m

def prepareSize (len : UInt64) : UInt64 :=
  if len > huge2m then roundUpTo len huge1g
  else if len > 4096 then roundUpTo len huge2m
  else 4096

/-- `mem` is the outcome of the `malloc` of the record. -/
structure PrepareEnv where
  allocate : AllocateEnv
  mem : Bool
  free : FreeEnv

/-- `out` is what is stored in `*buf_addr` and `*wsid`. -/
structure Prepared where
  result : FpgaResult
  plugin : Plugin
  out : Option (UInt64 × UInt64)

def setDevice (p : Plugin) (h : Nat) (v : OpaeVfio) : Plugin :=
  { p with devices := Function.update p.devices h (some v) }

def nextWsid : List VfioBuffer → UInt64
  | [] => 0
  | next :: _ => next.wsid + 1

/-- `ptrs` says that neither `buf_addr` nor `wsid` is `NULL`. -/
def vfioFpgaPrepareBuffer (pageSize : UInt64) (env : PrepareEnv) (p : Plugin) (h : Nat)
    (len : UInt64) (ptrs : Bool) : Prepared :=
  if !ptrs then ⟨.invalidParam, p, none⟩
  else
    match p.devices h with
    | none => ⟨.invalidParam, p, none⟩
    | some v =>
      let r := opaeVfioBufferAllocate pageSize env.allocate v (some (prepareSize len))
      if r.res ≠ 0 then ⟨.exception, setDevice p h r.vfio, none⟩
      else
        let (virt, iova) := r.out.getD (0, 0)
        let sz := r.size.getD 0
        if !env.mem then
          ⟨.noMemory, setDevice p h (opaeVfioBufferFree env.free r.vfio virt).2, none⟩
        else
          let buffer := ⟨h, virt, iova, sz, nextWsid p.vfioBuffers⟩
          ⟨.ok, { setDevice p h r.vfio with vfioBuffers := buffer :: p.vfioBuffers },
            some (virt, buffer.wsid)⟩

/-- The device is the one of the handle passed; whether it had the buffer is only logged. -/
def vfioFpgaReleaseBuffer (env : FreeEnv) (p : Plugin) (h : Nat) (wsid : UInt64) :
    FpgaResult × Plugin :=
  match p.devices h with
  | none => (.invalidParam, p)
  | some v =>
    match p.vfioBuffers.find? fun ptr => ptr.wsid == wsid with
    | none => (.notFound, p)
    | some ptr =>
      (.ok, { setDevice p h (opaeVfioBufferFree env v ptr.virtual).2 with
        vfioBuffers := p.vfioBuffers.eraseP fun ptr => ptr.wsid == wsid })

/-- The result and what is stored in `*ioaddr`; the handle is not looked at. -/
def vfioFpgaGetIOAddress (p : Plugin) (wsid : UInt64) : FpgaResult × Option UInt64 :=
  match p.vfioBuffers.find? fun ptr => ptr.wsid == wsid with
  | none => (.notFound, none)
  | some ptr => (.ok, some ptr.iova)

/-- `opae_vfio_destroy` frees every buffer of the device; the records are left alone. -/
def vfioFpgaClose (p : Plugin) (h : Nat) : FpgaResult × Plugin :=
  match p.devices h with
  | none => (.invalidParam, p)
  | some _ => (.ok, { p with devices := Function.update p.devices h none })

inductive Call where
  | prepare (env : PrepareEnv) (h : Nat) (len : UInt64) (ptrs : Bool)
  | release (env : FreeEnv) (h : Nat) (wsid : UInt64)
  | getIOAddress (wsid : UInt64)
  | close (h : Nat)

def step (pageSize : UInt64) (p : Plugin) : Call → Plugin
  | .prepare env h len ptrs => (vfioFpgaPrepareBuffer pageSize env p h len ptrs).plugin
  | .release env h wsid => (vfioFpgaReleaseBuffer env p h wsid).2
  | .getIOAddress _ => p
  | .close h => (vfioFpgaClose p h).2

theorem allocate_ok {pageSize : UInt64} {env : AllocateEnv} {v : OpaeVfio} {size : Option UInt64}
    (h : (opaeVfioBufferAllocate pageSize env v size).res = 0) :
    ∃ n a virt alloc, env.mmap (mapFlags n) = some virt ∧
      opaeVfioBufferAllocate pageSize env v size = ⟨0, some n, some (virt, a),
        { v with iovaAlloc := alloc, contBuffers := ⟨virt, n, a⟩ :: v.contBuffers }⟩ := by
  obtain ⟨hne, -⟩ | ⟨n, a, alloc, -, -, -, -, ⟨-, hne, -⟩ | ⟨virt, hn, hm, -, -, heq⟩⟩ :=
    opaeVfioBufferAllocate_cases pageSize env v size
  · exact absurd h hne
  · exact absurd h hne
  · rw [mmapBuffer, if_neg hn] at hm
    exact ⟨roundUp pageSize n, a, virt, alloc, hm, heq⟩

end OpaeLibs.PluginVfio.Buffers
