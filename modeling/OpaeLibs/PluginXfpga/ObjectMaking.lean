import OpaeLibs.PluginXfpga.ObjectBlocks
import OpaeLibs.PluginXfpga.ObjectReads

namespace OpaeLibs.PluginXfpga.ObjectMaking

open OpaeLibs.Lib.CStrings OpaeLibs.Lib.Ownership OpaeLibs.OpaeC.Props
  OpaeLibs.PluginXfpga.ObjectBlocks
open OpaeLibs.PluginXfpga.ObjectReads (SyncOutcome)
open OpaeLibs.PluginXfpga.SysfsGlob (LookupFlags maxSysobjectGlob)
open OpaeLibs.PluginXfpga.SysfsObject (ObjectFlags filePerm)

structure Names where
  path : CString
  name : CString

/-- Which of the three allocations of `alloc_fpga_object` succeed. -/
structure Allocs where
  object : Bool
  path : Bool
  name : Bool

/-- What the file system answers about a path: an error of `stat`; a file, with whether its buffer
is allocated, whether anyone may read and write it, and what comes of opening and reading it; a
directory that cannot be scanned; or one with its entries, the last one first, and whether an array
for them is allocated. -/
inductive Node
  | missing (e : FpgaError)
  | file (names : Names) (allocs : Allocs) (buffer readable writable : Bool) (sync : SyncOutcome)
  | unreadable (e : FpgaError)
  | dir (names : Names) (allocs : Allocs) (array : Bool) (entries : List Node)

/-- A path that `glob` finds; whether there is a slash in it. -/
structure Element where
  slash : Bool
  node : Node

inductive Globbed
  | fails (e : FpgaError)
  | found (names : Names) (allocs : Allocs) (array : Bool) (elements : List Element)
    (fits : elements.length ≤ maxSysobjectGlob)

structure Answer where
  node : Node
  globbed : Globbed

/-- A directory with its entries, as `make_sysfs_group` finds it, the last one first. -/
structure Directory where
  names : Names
  allocs : Allocs
  array : Bool
  entries : List Answer

abbrev Made (η : Type) := FpgaResult × Option (Obj η)

section Code

variable {η : Type} (handle : Option η) (pageSize : Nat)

def allocObject (names : Names) (allocs : Allocs) : Blocks (Option (Header η)) := do
  let h : Option (Header η) ← allocFpgaObject (fun _ => allocs.object) (fun _ => allocs.path)
    (fun _ => allocs.name) (some names.path) (some names.name)
  pure (h.map fun h => { h with handle := handle })

/-- The size that is read. A path or a buffer that is `NULL` is an error of the system call, but
nothing can be read into no buffer. -/
def syncObject (sync : SyncOutcome) (path buffer : Ptr) : Option Nat :=
  match sync with
  | .reads text =>
    if path.isNone || buffer.isNone && !text.isEmpty then none else some (min text.length pageSize)
  | _ => none

/-- The object is stored before it is read. -/
def makeFile (names : Names) (allocs : Allocs) (buffer readable writable : Bool)
    (sync : SyncOutcome) : Blocks (Made η) := do
  match (← allocObject handle names allocs) with
  | none => pure (.noMemory, none)
  | some h => do
    let h := { h with perm := filePerm handle readable writable }
    let b ← malloc (fun _ => buffer) (List.replicate pageSize 0)
    if h.perm = .wronly then pure (.ok, some (.file h b 0 pageSize))
    else
      match syncObject pageSize sync h.path b with
      | some size => pure (.ok, some (.file h b size pageSize))
      | none => pure (.exception, some (.file h b 0 pageSize))

def fillGroup : List (Blocks (Made η)) → List (Obj η) → Blocks (List (Obj η))
  | [], objects => pure objects
  | child :: children, objects => do
    let r ← child
    fillGroup children (if r.1 = .ok then objects ++ r.2.toList else objects)

def makeGroup (recurse : Bool) (names : Names) (allocs : Allocs) (array : Bool)
    (children : List (Blocks (Made η))) : Blocks (Made η) :=
  if children.isEmpty then pure (.exception, none)
  else do
    match (← allocObject handle names allocs) with
    | none => pure (.noMemory, none)
    | some h => do
      if recurse then do
        match (← malloc (fun _ => array) []) with
        | none => do
          destroyFpgaObject (.bare h .dir)
          pure (.noMemory, none)
        | some p => do
          let objects ← fillGroup children []
          pure (.ok, some (.container h .dir p objects))
      else pure (.ok, some (.bare h .dir))

def recurses (flags : ObjectFlags) : Bool := flags.recurseOne || flags.recurseAll

def below (flags : ObjectFlags) : ObjectFlags := { flags with recurseOne := false }

mutual

def makeNode (flags : ObjectFlags) : Node → Blocks (Made η)
  | .missing e => pure (e.val, none)
  | .file names allocs buffer readable writable sync =>
    makeFile handle pageSize names allocs buffer readable writable sync
  | .unreadable e => pure (e.val, none)
  | .dir names allocs array entries =>
    makeGroup handle (recurses flags) names allocs array
      (makeNodes (below flags) entries)

def makeNodes (flags : ObjectFlags) : List Node → List (Blocks (Made η))
  | [] => []
  | n :: ns => makeNode flags n :: makeNodes flags ns

end

/-- The slots of the array when it ends; those behind are still `NULL`. -/
def makeElements (flags : ObjectFlags) :
    List Element → Blocks (FpgaResult × List (Option (Obj η)))
  | [] => pure (.ok, [])
  | x :: xs =>
    if !x.slash then pure (.exception, none :: xs.map fun _ => none)
    else do
      let r ← makeNode handle pageSize flags x.node
      if r.1 ≠ .ok then pure (r.1, r.2 :: xs.map fun _ => none)
      else do
        let q ← makeElements flags xs
        pure (q.1, r.2 :: q.2)

/-- The size of an array is set before its slots are. -/
def destroySlots : List (Option (Obj η)) → Blocks Unit
  | [] => pure ()
  | none :: slots => do
    destroySlots slots
    fault
  | some o :: slots => do
    destroySlots slots
    destroyFpgaObject o

/-- `destroy_fpga_object` of an array that is not complete. -/
def destroyArray (h : Header η) (array : Nat) (slots : List (Option (Obj η))) : Blocks Unit := do
  free h.path
  free h.name
  destroySlots slots
  free (some array)
  free (some h.self)

def makeSysfsArray (flags : ObjectFlags) (names : Names) (allocs : Allocs) (array : Bool)
    (elements : List Element) : Blocks (Made η) := do
  match (← allocObject handle names allocs) with
  | none => pure (.noMemory, none)
  | some h => do
    match (← malloc (fun _ => array) []) with
    | none => do
      destroyFpgaObject (.bare h .list)
      pure (.noMemory, none)
    | some p => do
      let q ← makeElements handle pageSize flags elements
      if q.1 ≠ .ok then do
        destroyArray h p q.2
        pure (q.1, none)
      else pure (.ok, some (.container h .list p q.2.reduceOption))

def makeSysfsObject (flags : LookupFlags) (a : Answer) : Blocks (Made η) :=
  if flags.glob then
    match a.globbed with
    | .fails e => pure (e.val, none)
    | .found names allocs array elements _ =>
      match elements with
      | [x] => makeNode handle pageSize flags.toObjectFlags x.node
      | elements => makeSysfsArray handle pageSize flags.toObjectFlags names allocs array elements
  else makeNode handle pageSize flags.toObjectFlags a.node

/-- A group that is asked for by itself; its pattern is resolved first if the flags say so, and they
are handed to its children. -/
def makeSysfsGroup (flags : LookupFlags) (globbed : Except FpgaError Unit)
    (scanned : Except FpgaError Directory) : Blocks (Made η) :=
  match flags.glob, globbed with
  | true, .error e => pure (e.val, none)
  | _, _ =>
    match scanned with
    | .error e => pure (e.val, none)
    | .ok d =>
      makeGroup handle (recurses flags.toObjectFlags) d.names d.allocs d.array
        (d.entries.map (makeSysfsObject handle pageSize
          { flags with toObjectFlags := below flags.toObjectFlags }))

end Code

end OpaeLibs.PluginXfpga.ObjectMaking
