import OpaeLibs.OpaeC.Props
import OpaeLibs.PluginXfpga.WsidList

namespace OpaeLibs.PluginXfpga.Buffer

open OpaeLibs.OpaeC.Props OpaeLibs.Lib.Runs
open OpaeLibs.PluginXfpga.WsidList

abbrev fpgaBufPreallocated : UInt32 := 1
abbrev fpgaBufQuiet : UInt32 := 2
abbrev fpgaBufReadOnly : UInt32 := 4

def hasFlag (flags : Int32) (mask : UInt32) : Bool := flags.toUInt32 &&& mask != 0

def kb : UInt64 := 1024
def mb : UInt64 := 1024 * kb
def gb : UInt64 := 1024 * mb

/-- The pages that `mmap` is asked for. -/
inductive Pages
  | flags4k
  | flags2m
  | flags1g
deriving DecidableEq, Repr

inductive MmapOutcome
  | mapped (addr : UInt64)
  | noMemory
  | failed
deriving DecidableEq, Repr

/-- One handle: its tracker, and the IOVAs of the DMA mappings that the driver holds for it. -/
structure Port where
  wsidRoot : WsidTracker
  mapped : List UInt64

/-- What `xfpga_fpgaPrepareBuffer` meets: the check of the handle, the page size, the outcomes of
`mmap`, of the map ioctl and of `malloc`, and the id that `wsid_gen` returns. -/
structure PrepareEnv where
  check : FpgaResult
  pageSize : UInt64
  mmap : UInt64 → Pages → MmapOutcome
  portMap : UInt64 → UInt64 → Bool → Option UInt64
  wsidGen : UInt64
  mem : Bool

/-- What `xfpga_fpgaReleaseBuffer` meets; `munmap` and `portUnmap` say if the calls succeed. -/
structure ReleaseEnv where
  check : FpgaResult
  munmap : UInt64 → UInt64 → Bool
  portUnmap : UInt64 → Bool

def bufferAllocate (mmap : UInt64 → Pages → MmapOutcome) (len : UInt64) :
    Except FpgaResult UInt64 :=
  let addr := mmap len
    (if len > 2 * mb then .flags1g else if len > 4 * kb then .flags2m else .flags4k)
  match addr with
  | .mapped addr => .ok addr
  | .noMemory => .error .noMemory
  | .failed => .error .invalidParam

def bufferRelease (munmap : UInt64 → UInt64 → Bool) (addr len : UInt64) : FpgaResult :=
  let len :=
    if len > 2 * mb then (len + (1 * gb - 1)) &&& ~~~(1 * gb - 1)
    else if len > 4 * kb then 2 * mb
    else len
  if munmap addr len then .ok else .invalidParam

/-- The result, the handle, and what is stored in `*buf_addr` and `*wsid`. -/
structure Prepared where
  result : FpgaResult
  port : Port
  bufAddr : Option UInt64
  wsid : Option UInt64

/-- The map ioctl and what follows it. Where a buffer was allocated and the call fails, it is
unmapped from the process again. -/
def mapAndRecord (env : PrepareEnv) (p : Port) (bufAddr : Option UInt64) (addr len : UInt64)
    (flags : Int32) : Prepared :=
  match env.portMap addr len (hasFlag flags fpgaBufReadOnly) with
  | none => ⟨.invalidParam, p, bufAddr, none⟩
  | some ioAddr =>
    let p := { p with mapped := ioAddr :: p.mapped }
    let wsid := env.wsidGen
    match wsidAdd env.mem p.wsidRoot wsid addr ioAddr len 0 0 flags with
    -- the mapping in the driver stays
    | (false, root) => ⟨.noMemory, { p with wsidRoot := root }, bufAddr, some wsid⟩
    | (true, root) => ⟨.ok, { p with wsidRoot := root }, some addr, some wsid⟩

/-- The buffer to map and its length, or the result that the call ends with. `bufAddr` is
`*buf_addr`, or `none` for a `NULL` pointer. -/
def bufferToMap (env : PrepareEnv) (len : UInt64) (bufAddr : Option UInt64) (flags : Int32) :
    Except FpgaResult (UInt64 × UInt64) :=
  if hasFlag flags fpgaBufPreallocated then
    match bufAddr with
    -- a special case: with no address and no length it tells that the flag is supported
    | none => if len = 0 then .error .ok else .error .invalidParam
    | some addr =>
      if addr = 0 then .error .invalidParam
      else if len = 0 ∨ len &&& (env.pageSize - 1) ≠ 0 then .error .invalidParam
      else .ok (addr, len)
  else
    match bufAddr with
    | none => .error .invalidParam
    | some _ =>
      if len = 0 then .error .invalidParam
      else
        let len :=
          if len &&& (env.pageSize - 1) ≠ 0 then env.pageSize + (len &&& ~~~(env.pageSize - 1))
          else len
        match bufferAllocate env.mmap len with
        | .error result => .error result
        | .ok addr => .ok (addr, len)

/-- `wsid` is false for a `NULL` pointer. -/
def xfpgaFpgaPrepareBuffer (env : PrepareEnv) (p : Port) (len : UInt64)
    (bufAddr : Option UInt64) (wsid : Bool) (flags : Int32) : Prepared :=
  if env.check ≠ .ok then ⟨env.check, p, bufAddr, none⟩
  else if !wsid then ⟨.invalidParam, p, bufAddr, none⟩
  else if hasFlag flags (~~~(fpgaBufPreallocated ||| fpgaBufQuiet ||| fpgaBufReadOnly)) then
    ⟨.invalidParam, p, bufAddr, none⟩
  else
    match bufferToMap env len bufAddr flags with
    | .error result => ⟨result, p, bufAddr, none⟩
    | .ok (addr, len) => mapAndRecord env p bufAddr addr len flags

def wsFree (p : Port) (wsid : UInt64) : Port :=
  { p with wsidRoot := (wsidDel p.wsidRoot wsid).2 }

def xfpgaFpgaReleaseBuffer (env : ReleaseEnv) (p : Port) (wsid : UInt64) : FpgaResult × Port :=
  if env.check ≠ .ok then (env.check, p)
  else
    match wsidFind p.wsidRoot wsid with
    | none => (.invalidParam, p)
    | some wm =>
      if !env.portUnmap wm.phys then (.invalidParam, wsFree p wsid)
      else
        let p := { p with mapped := p.mapped.erase wm.phys }
        if hasFlag wm.flags fpgaBufPreallocated then (.ok, wsFree p wsid)
        else (bufferRelease env.munmap wm.addr wm.len, wsFree p wsid)

end OpaeLibs.PluginXfpga.Buffer
