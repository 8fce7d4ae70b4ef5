import OpaeLibs.Lib.Glob
import OpaeLibs.PluginXfpga.SysfsObject

namespace OpaeLibs.PluginXfpga.SysfsGlob

open OpaeLibs.Lib.CStrings OpaeLibs.Lib.Glob OpaeLibs.OpaeC.Props OpaeLibs.PluginXfpga.SysfsObject

def sysfsPathMax : Nat := 256

def pathMax : Nat := 4096

def maxSysobjectGlob : Nat := 128

inductive GlobError
  | noSpace
  | noMatch
  | other

structure LookupFlags extends ObjectFlags where
  glob : Bool

def cut (n : Nat) (s : CString) : CString :=
  ⟨s.val.take (n - 1), fun h => s.property (List.mem_of_mem_take h)⟩

/-- The file system, and what `glob` finds in it. The entries of a directory may change from one
call to the next, which the first argument of `glob` tells apart. `dup` is whether there is memory
for a copy of a path. -/
structure Tree (brackets : Brackets) where
  objects : ObjectEnv
  pathMax_eq : objects.pathMax = sysfsPathMax
  glob : Nat → CString → Except GlobError (List CString)
  found : ∀ call pattern paths, glob call pattern = .ok paths →
    paths ≠ [] ∧ paths.Nodup ∧ ∀ p ∈ paths, Globs brackets pattern.val p.val
  dup : CString → Bool

def strstr (pattern : List UInt8) : List UInt8 → Option Nat
  | [] => if pattern.isEmpty then some 0 else none
  | b :: s => if pattern.isPrefixOf (b :: s) then some 0 else (strstr pattern s).map (· + 1)

def strrchr (p : CString) : Option CString :=
  if slash ∈ p.val then
    some ⟨(p.val.reverse.takeWhile (· ≠ slash)).reverse, fun h =>
      p.property (List.mem_reverse.mp
        ((List.takeWhile_sublist _).subset (List.mem_reverse.mp h)))⟩
  else none

def globError : GlobError → FpgaError
  | .noSpace => ⟨.noMemory, FpgaResult.noMemory_ne_ok⟩
  | .noMatch => ⟨.notFound, FpgaResult.notFound_ne_ok⟩
  | .other => ⟨.exception, FpgaResult.exception_ne_ok⟩

section

variable {brackets : Brackets} (tree : Tree brackets)

/-- The number of paths is told if any are found, also if they cannot be copied. -/
def opaeGlobPaths (call : Nat) (path : CString) (numFound : Nat) :
    Nat × Except FpgaError (List CString) :=
  match tree.glob call path with
  | .ok paths =>
    let toCopy := paths.take maxSysobjectGlob
    (paths.length,
      if toCopy.all tree.dup then .ok (toCopy.map (cut pathMax))
      else .error ⟨.exception, FpgaResult.exception_ne_ok⟩)
  | .error e => (numFound, .error (globError e))

def anyDepth : List UInt8 := [slash, 42, 42, slash]

/-- The pattern for a depth, where the text `anyDepth` is at the index `i` of the path. -/
def depthPattern (path : CString) (i depth : Nat) : CString :=
  cut sysfsPathMax ⟨path.val.take i ++ (List.replicate depth [42, slash]).flatten ++
    path.val.drop (i + 4), by
      have hstars : 0 ∉ (List.replicate depth [(42 : UInt8), slash]).flatten := by
        rw [List.mem_flatten]
        rintro ⟨l, hl, h⟩
        rw [List.eq_of_mem_replicate hl] at h
        exact absurd h (by decide)
      rw [List.mem_append, List.mem_append, not_or, not_or]
      exact ⟨⟨fun h => path.property (List.mem_of_mem_take h), hstars⟩,
        fun h => path.property (List.mem_of_mem_drop h)⟩⟩

/-- One depth after the other is tried. -/
def findAtDepths (path : CString) (i : Nat) :
    List Nat → Nat → Except FpgaError CString → Nat × Except FpgaError CString
  | [], found, res => (found, res)
  | depth :: depths, found, _ =>
    match opaeGlobPaths tree depth (depthPattern path i depth) found with
    | (found, .ok (p :: _)) => (found, .ok (cut sysfsPathMax p))
    | (found, .ok []) => findAtDepths path i depths found (.ok ⟨[], nul_notMem_nil⟩)
    | (found, .error e) => findAtDepths path i depths found (.error e)

/-- `none` if more is freed than there can be. -/
def findGlobPath (sysfspath : CString) : Option (Except FpgaError CString) :=
  match strstr anyDepth sysfspath.val with
  | none => some (.error ⟨.notFound, FpgaResult.notFound_ne_ok⟩)
  | some i =>
    if (strstr anyDepth (sysfspath.val.drop (i + 1))).isSome then
      some (.error ⟨.invalidParam, FpgaResult.invalidParam_ne_ok⟩)
    else
      let (found, res) :=
        findAtDepths tree sysfspath i [1, 2, 3, 4, 5] 0 (.ok ⟨[], nul_notMem_nil⟩)
      if maxSysobjectGlob < found then none else some res

variable {η : Type} (handle : Option η)

/-- The file system for a buffer that holds the path. -/
def Tree.reading (path : CString) : ObjectEnv :=
  { tree.objects with
    limit := max (tree.objects.pathMax + 2) path.val.length
    le_limit := Nat.le_max_left _ _ }

/-- What was in the buffer before the path stays behind it. -/
def makeFrom (depth : Nat) (flags : ObjectFlags) (mem : Memory) (path name : CString) :
    Option (Except FpgaError (FpgaObject η)) :=
  (makeSysfsObject (tree.reading path) handle depth flags
    (strncpy mem 0 (path.val.length + 1) path) name).map Prod.fst

/-- The object of a file is in its slot before the file is read, and stays there if that fails. -/
def leavesObject (path : CString) : Bool :=
  match tree.objects.stat path.val with
  | .ok (.file _ _) => tree.objects.allocObject path.val
  | _ => false

/-- The first object that cannot be made ends it. `destroy_fpga_object` then goes through all slots
from the last one on, and crashes where one is `NULL`: this is `none` as well. -/
def makeElements (depth : Nat) (flags : ObjectFlags) (mem : Memory) :
    List CString → Option (Except FpgaError (List (FpgaObject η)))
  | [] => some (.ok [])
  | path :: paths =>
    match strrchr path with
    | none => none
    | some oname =>
      match makeFrom tree handle depth flags mem path oname with
      | none => none
      | some (.error e) => if paths.isEmpty && leavesObject tree path then some (.error e) else none
      | some (.ok object) =>
        (makeElements depth flags mem paths).map (Except.map (object :: ·))

def makeSysfsArray (depth : Nat) (flags : ObjectFlags) (mem : Memory) (path name : CString)
    (objects : List CString) : Option (Except FpgaError (FpgaObject η)) :=
  if !tree.objects.allocObject path.val then some (.error ⟨.noMemory, FpgaResult.noMemory_ne_ok⟩)
  else if !tree.objects.allocObjects path.val then
    some (.error ⟨.noMemory, FpgaResult.noMemory_ne_ok⟩)
  else (makeElements tree handle depth flags mem objects).map (Except.map fun elements =>
    .mk .list path.val name.val handle .rdonly objects.length 0 [] elements)

/-- The part of `make_sysfs_object` that resolves a path. `none` if it does not return, uses more
found paths than there can be, or destroys an array with a slot that is `NULL`. -/
def makeSysfsObjectGlob (depth : Nat) (flags : ObjectFlags) (mem : Memory) (path name : CString) :
    Option (Except FpgaError (FpgaObject η)) :=
  let full := if (strstr anyDepth path.val).isSome then findGlobPath tree path else some (.ok path)
  match full with
  | none => none
  | some (.error e) => some (.error e)
  | some (.ok path) =>
    match opaeGlobPaths tree 0 path 0 with
    | (_, .error e) => some (.error e)
    | (found, .ok objectPaths) =>
      match objectPaths with
      | [p] => makeFrom tree handle depth flags mem (cut sysfsPathMax p) name
      | _ =>
        if maxSysobjectGlob < found then none
        else makeSysfsArray tree handle depth flags mem path name objectPaths

def makeObject (depth : Nat) (flags : LookupFlags) (mem : Memory) (path name : CString) :
    Option (Except FpgaError (FpgaObject η)) :=
  if flags.glob then makeSysfsObjectGlob tree handle depth flags.toObjectFlags mem path name
  else makeFrom tree handle depth flags.toObjectFlags mem path name

end

def validateName (name : CString) : Bool :=
  decide (name.val.head? ≠ some dot) && decide (name.val.head? ≠ some slash) &&
    (strstr [dot, dot] name.val).isNone

def catTokenSysfsPath (token path : CString) : CString :=
  cut sysfsPathMax ⟨token.val ++ slash :: path.val, by
    rw [List.mem_append, List.mem_cons, not_or, not_or]
    exact ⟨token.property, by decide, path.property⟩⟩

section

variable {brackets : Brackets} (tree : Tree brackets) {η : Type}

/-- A token is its path in sysfs. -/
def xfpgaFpgaTokenGetObject (depth : Nat) (mem : Memory) (token name : CString)
    (flags : LookupFlags) : Option (Except FpgaError (FpgaObject η)) :=
  if validateName name then
    makeObject tree none depth flags mem (catTokenSysfsPath token name) name
  else some (.error ⟨.invalidParam, FpgaResult.invalidParam_ne_ok⟩)

def xfpgaFpgaHandleGetObject (token : η → CString) (depth : Nat) (mem : Memory) (handle : η)
    (name : CString) (flags : LookupFlags) : Option (Except FpgaError (FpgaObject η)) :=
  if validateName name then
    makeObject tree (some handle) depth flags mem (catTokenSysfsPath (token handle) name) name
  else some (.error ⟨.invalidParam, FpgaResult.invalidParam_ne_ok⟩)

end

end OpaeLibs.PluginXfpga.SysfsGlob
