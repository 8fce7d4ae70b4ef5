import OpaeLibs.Lib.CStrings
import OpaeLibs.OpaeC.Props

namespace OpaeLibs.PluginXfpga.SysfsObject

open OpaeLibs.Lib.CStrings OpaeLibs.OpaeC.Props

abbrev slash : UInt8 := 47
abbrev dot : UInt8 := 46

inductive Errno
  | enoent
  | enomem
  | eacces
  | other
deriving DecidableEq

/-- What `stat` finds; of a file, whether anyone may read it and whether anyone may write it. -/
inductive FileStat
  | dir
  | file (readable writable : Bool)
deriving DecidableEq

inductive FpgaSysfsType
  | dir
  | list
  | file
deriving DecidableEq

inductive Perm
  | rdonly
  | wronly
  | rdwr
deriving DecidableEq

/-- `struct _fpga_object` without its lock; `η` stands for handles. -/
inductive FpgaObject (η : Type)
  | mk (type : FpgaSysfsType) (path name : List UInt8) (handle : Option η) (perm : Perm)
      (size maxSize : Nat) (buffer : List UInt8) (objects : List (FpgaObject η))

namespace FpgaObject

variable {η : Type}

def path : FpgaObject η → List UInt8
  | mk _ path _ _ _ _ _ _ _ => path

def name : FpgaObject η → List UInt8
  | mk _ _ name _ _ _ _ _ _ => name

def objects : FpgaObject η → List (FpgaObject η)
  | mk _ _ _ _ _ _ _ _ objects => objects

end FpgaObject

/-- The flags but for `FPGA_OBJECT_GLOB`, which is cleared once the path is resolved. -/
structure ObjectFlags where
  recurseOne : Bool
  recurseAll : Bool

/-- The file system by path, `SYSFS_PATH_MAX` and the size of a page, and whether the allocation of
the object of a path and of the array of its children succeeds. `entries` are those of a directory
in any order, and `read` is what opening and reading a file gives. At most `limit` bytes of the
memory that holds a path are read. -/
structure ObjectEnv where
  pathMax : Nat
  pathMax_lt : pathMax + 1 < 2 ^ 64
  limit : Nat
  le_limit : pathMax + 2 ≤ limit
  pageSize : Nat
  stat : List UInt8 → Except Errno FileStat
  entries : List UInt8 → Except Errno (List CString)
  nodup : ∀ p names, entries p = .ok names → names.Nodup
  noSlash : ∀ p names, entries p = .ok names → ∀ n ∈ names, slash ∉ n.val
  alphasort : CString → CString → Bool
  read : List UInt8 → Perm → Option (List UInt8)
  allocObject : List UInt8 → Bool
  allocObjects : List UInt8 → Bool

def sysfsFilter (name : CString) : Bool := name.val.head? != some dot

section

variable {η : Type} (env : ObjectEnv) (handle : Option η)

/-- The path is at the beginning of the memory. -/
def pathAt (mem : Memory) : List UInt8 := textAt mem env.limit 0

def statError : Errno → FpgaError
  | .enoent => ⟨.notFound, FpgaResult.notFound_ne_ok⟩
  | .enomem => ⟨.noMemory, FpgaResult.noMemory_ne_ok⟩
  | .eacces => ⟨.noAccess, FpgaResult.noAccess_ne_ok⟩
  | .other => ⟨.exception, FpgaResult.exception_ne_ok⟩

def scandirError : Errno → FpgaError
  | .enomem => ⟨.noMemory, FpgaResult.noMemory_ne_ok⟩
  | .enoent => ⟨.notFound, FpgaResult.notFound_ne_ok⟩
  | _ => ⟨.exception, FpgaResult.exception_ne_ok⟩

def scandir (p : List UInt8) : Except Errno (List CString) :=
  (env.entries p).map fun names => (names.filter sysfsFilter).mergeSort env.alphasort

/-- The last argument of `strncpy`, a `size_t`; it leaves room for two bytes too many. -/
def nameCount (pathlen : Nat) : Nat := (env.pathMax + 1 + 2 ^ 64 - pathlen) % 2 ^ 64

/-- One after the other the names are put behind the path; a child that cannot be made is left
out. -/
def makeChildren
    (make : Memory → CString → Option (Except FpgaError (FpgaObject η) × Memory))
    (pathlen : Nat) : List CString → Memory → Option (List (FpgaObject η) × Memory)
  | [], mem => some ([], mem)
  | name :: rest, mem => do
    let (res, mem) ← make (strncpy mem (pathlen + 1) (nameCount env pathlen) name) name
    let (objects, mem) ← makeChildren make pathlen rest mem
    match res with
    | .ok object => return (object :: objects, mem)
    | .error _ => return (objects, mem)

def makeSysfsGroup
    (make : ObjectFlags → Memory → CString → Option (Except FpgaError (FpgaObject η) × Memory))
    (flags : ObjectFlags) (mem : Memory) (name : CString) :
    Option (Except FpgaError (FpgaObject η) × Memory) :=
  let path := pathAt env mem
  match scandir env path with
  | .error errno => some (.error (scandirError errno), mem)
  | .ok namelist =>
    if namelist.isEmpty then some (.error ⟨.exception, FpgaResult.exception_ne_ok⟩, mem)
    else if !env.allocObject path then some (.error ⟨.noMemory, FpgaResult.noMemory_ne_ok⟩, mem)
    else if flags.recurseOne || flags.recurseAll then
      let mem := Function.update mem path.length slash
      if !env.allocObjects path then some (.error ⟨.noMemory, FpgaResult.noMemory_ne_ok⟩, mem)
      else do
        let (objects, mem) ← makeChildren env (make { flags with recurseOne := false })
          path.length namelist.reverse mem
        return (.ok (.mk .dir path name.val handle .rdonly objects.length 0 [] objects), mem)
    else some (.ok (.mk .dir path name.val handle .rdonly 0 0 [] []), mem)

def filePerm (readable writable : Bool) : Perm :=
  if handle.isSome && writable then if readable then .rdwr else .wronly else .rdonly

/-- A file, with its contents unless it can only be written. -/
def makeSysfsFile (path : List UInt8) (readable writable : Bool) (name : CString) :
    Except FpgaError (FpgaObject η) :=
  if !env.allocObject path then .error ⟨.noMemory, FpgaResult.noMemory_ne_ok⟩
  else
    let perm := filePerm handle readable writable
    if perm = .wronly then .ok (.mk .file path name.val handle perm 0 env.pageSize [] [])
    else
      match env.read path perm with
      | some contents =>
        .ok (.mk .file path name.val handle perm contents.length env.pageSize contents [])
      | none => .error ⟨.exception, FpgaResult.exception_ne_ok⟩

/-- The first argument bounds the depth of the recursion; `none` is a recursion that is deeper. The
path is in the buffer, which is shared by all levels. -/
def makeSysfsObject : Nat → ObjectFlags → Memory → CString →
    Option (Except FpgaError (FpgaObject η) × Memory)
  | 0, _, _, _ => none
  | depth + 1, flags, mem, name =>
    match env.stat (pathAt env mem) with
    | .error errno => some (.error (statError errno), mem)
    | .ok .dir => makeSysfsGroup env handle (makeSysfsObject depth) flags mem name
    | .ok (.file readable writable) =>
      some (makeSysfsFile env handle (pathAt env mem) readable writable name, mem)

end

end OpaeLibs.PluginXfpga.SysfsObject
