import OpaeLibs.OpaeC.Props

namespace OpaeLibs.PluginXfpga.Umsg

open OpaeLibs.OpaeC.Props

/-- An address in the process, `none` for `NULL`. -/
abbrev Pointer := Option UInt64

structure Mapping where
  ioAddr : UInt64
  addr : UInt64
deriving DecidableEq

/-- What the driver holds of the UMsgs of a port. `most` is the number of the mappings there have
been at a time, `refused` that of the unmaps that failed. -/
structure Driver where
  mapped : List Mapping
  base : UInt64
  enabled : Bool
  most : Nat
  refused : Nat

structure Handle where
  fddev : Int32
  umsgVirt : Pointer
  umsgSize : UInt64
  umsgIova : UInt64

/-- The handle, the driver, and the buffers that are allocated. -/
structure Port where
  handle : Handle
  driver : Driver
  allocated : List UInt64

/-- What `xfpga_fpgaGetUmsgPtr` meets: the check of the handle, the page size, and the outcomes of
the allocation and of the ioctls. -/
structure GetEnv where
  check : FpgaResult
  pageSize : UInt64
  portInfo : Except FpgaError UInt32
  alloc : UInt64 → Pointer
  portMap : UInt64 → UInt64 → Except FpgaError UInt64
  setBase : FpgaResult
  enable : FpgaResult
  unmap : FpgaResult

structure FreeEnv where
  check : FpgaResult
  disable : FpgaResult
  setBase : FpgaResult
  unmap : FpgaResult

structure TriggerEnv where
  check : FpgaResult
  get : GetEnv

namespace Driver

variable (d : Driver)

def map (m : Mapping) : Driver :=
  { d with mapped := m :: d.mapped, most := max d.most (d.mapped.length + 1) }

def setBase (result : FpgaResult) (ioAddr : UInt64) : Driver :=
  { d with base := if result = .ok then ioAddr else d.base }

def enable (result : FpgaResult) : Driver :=
  { d with enabled := if result = .ok then true else d.enabled }

def disable (result : FpgaResult) : Driver :=
  { d with enabled := if result = .ok then false else d.enabled }

def unmap (result : FpgaResult) (ioAddr : UInt64) : Driver :=
  { d with
    mapped := if result = .ok then d.mapped.eraseP (·.ioAddr = ioAddr) else d.mapped
    refused := if result = .ok then d.refused else d.refused + 1 }

end Driver

section Code

/-- The result, what is stored at `umsg_ptr`, and the port. -/
structure Got where
  result : FpgaResult
  umsgPtr : Option Pointer
  port : Port

def freeBuffer (p : Port) (addr : UInt64) : Port := { p with allocated := p.allocated.erase addr }

/-- What follows the map ioctl. The result of the cleanup is that of the unmap. -/
def enableMapped (env : GetEnv) (p : Port) (old : Pointer) (umsgVirt umsgSize ioAddr : UInt64) :
    Got :=
  let p := { p with driver := p.driver.map ⟨ioAddr, umsgVirt⟩ }
  let umsgMapExit (p : Port) : Got :=
    let p := { p with driver := p.driver.unmap env.unmap ioAddr }
    ⟨env.unmap, some old, freeBuffer p umsgVirt⟩
  let p := { p with driver := p.driver.setBase env.setBase ioAddr }
  if env.setBase ≠ .ok then umsgMapExit p
  else
    let p := { p with driver := p.driver.enable env.enable }
    if env.enable ≠ .ok then umsgMapExit p
    else
      let handle := { p.handle with
        umsgIova := ioAddr
        umsgVirt := some umsgVirt
        umsgSize := umsgSize }
      ⟨.ok, some (some umsgVirt), { p with handle := handle }⟩

/-- `umsgPtr` is the memory that `umsg_ptr` points to, `none` for a `NULL` pointer. -/
def xfpgaFpgaGetUmsgPtr (env : GetEnv) (p : Port) (umsgPtr : Option Pointer) : Got :=
  match umsgPtr with
  | none => ⟨.invalidParam, none, p⟩
  | some old =>
    if env.check ≠ .ok then ⟨env.check, some old, p⟩
    else if p.handle.fddev < 0 then ⟨.invalidParam, some old, p⟩
    else if p.handle.umsgIova ≠ 0 then ⟨.ok, some p.handle.umsgVirt, p⟩
    else
      match env.portInfo with
      | .error e => ⟨e.val, some old, p⟩
      | .ok umsgCount =>
        let umsgSize := umsgCount.toUInt64 * env.pageSize
        match env.alloc umsgSize with
        | none => ⟨.noMemory, some old, p⟩
        | some umsgVirt =>
          let p := { p with allocated := umsgVirt :: p.allocated }
          match env.portMap umsgVirt umsgSize with
          | .error e => ⟨e.val, some old, freeBuffer p umsgVirt⟩
          | .ok ioAddr => enableMapped env p old umsgVirt umsgSize ioAddr

/-- The result and the port. The outcomes of the ioctls are only logged. -/
def freeUmsgBuffer (env : FreeEnv) (p : Port) : FpgaResult × Port :=
  if env.check ≠ .ok then (env.check, p)
  else
    match p.handle.umsgVirt with
    | none => (.ok, p)
    | some umsgVirt =>
      let driver := ((p.driver.disable env.disable).setBase env.setBase 0).unmap env.unmap
        p.handle.umsgIova
      let p := freeBuffer { p with driver := driver } umsgVirt
      (.ok, { p with handle := { p.handle with umsgVirt := none, umsgSize := 0, umsgIova := 0 } })

/-- The result, the port, and the place and the value of the store if there is one. -/
structure Triggered where
  result : FpgaResult
  port : Port
  stored : Option (Pointer × UInt64)

def xfpgaFpgaTriggerUmsg (env : TriggerEnv) (p : Port) (value : UInt64) : Triggered :=
  if env.check ≠ .ok then ⟨env.check, p, none⟩
  else if p.handle.fddev < 0 then ⟨.invalidParam, p, none⟩
  else
    let got := xfpgaFpgaGetUmsgPtr env.get p (some none)
    if got.result ≠ .ok then ⟨got.result, got.port, none⟩
    else ⟨.ok, got.port, some (got.umsgPtr.join, value)⟩

end Code

end OpaeLibs.PluginXfpga.Umsg
