import OpaeLibs.Lib.CStrings
import OpaeLibs.Lib.LinkedLists
import OpaeLibs.OpaeC.Props

namespace OpaeLibs.PluginXfpga.ErrorList

open OpaeLibs.Lib.CStrings OpaeLibs.Lib.LinkedLists OpaeLibs.OpaeC.Props

def filenameMax : Nat := 4096

def sysfsPathMax : Nat := 256

def fpgaErrorNameMax : Nat := 64

abbrev slash : UInt8 := 47
abbrev dot : UInt8 := 46

/-- A name as `readdir` has it in `d_name`. -/
structure Name where
  text : List UInt8
  noNul : 0 ∉ text
  ne_nil : text ≠ []
  fits : text.length < 256
deriving DecidableEq

inductive Kind
  | file | link | missing
deriving DecidableEq

/-- The entries of a directory in the order they are read, and those of the directories below it
that can be opened. -/
inductive Listing
  | nil
  | other (name : Name) (kind : Kind) (rest : Listing)
  | dir (name : Name) (opens : Bool) (below rest : Listing)

/-- `lstat` finds the name in the directory. -/
def Listing.has (text : List UInt8) : Listing → Bool
  | .nil => false
  | .other name kind rest => (name.text = text && kind ≠ .missing) || rest.has text
  | .dir name _ _ rest => name.text = text || rest.has text

structure FpgaErrorInfo where
  name : List UInt8
  canClear : Bool
deriving DecidableEq, Inhabited

structure ErrorEntry where
  info : FpgaErrorInfo
  errorFile : List UInt8
  clearFile : List UInt8
deriving DecidableEq, Inhabited

def errorsExclude : List (List UInt8) :=
  [ascii "revision", ascii "uevent", ascii "power", ascii "clear"]

def errorsClearable : List (List UInt8) :=
  [ascii "pcie0_errors", ascii "pcie1_errors", ascii "warning_errors", ascii "inject_error",
    ascii "fme_errors", ascii "errors"]

/-- `mem` is which of the allocations succeed, and `classPath` whether there is
`FPGA_SYSFS_CLASS_PATH_INTEL`. -/
structure ErrorEnv where
  mem : Nat → Bool
  classPath : Bool

section Building

variable (env : ErrorEnv)

def skips (name : Name) : Bool := name.text.head? = some dot || errorsExclude.contains name.text

/-- Puts a name with its terminator behind the slash in `basedir`; `none` if that writes past the
end. -/
def copyName (base name : List UInt8) : Option (List UInt8) :=
  if base.length + (name.length + 1) ≤ filenameMax then some (base ++ name) else none

/-- What is filled in of a file. Its own path still leads to it when it is tried. -/
def newEntry (dir : Listing) (base : List UInt8) (name : Name) (basedir : List UInt8) :
    Option ErrorEntry :=
  let infoName := name.text.take (fpgaErrorNameMax - 1)
  let errorFile := basedir.take (sysfsPathMax - 1)
  let blen := errorFile.length
  if name.text = ascii "errors" ∧ env.classPath then
    (copyName base (ascii "clear")).map fun basedir =>
      if dir.has (ascii "clear") then ⟨⟨infoName, true⟩, errorFile, basedir.take blen⟩
      else ⟨⟨infoName, false⟩, errorFile, []⟩
  else if errorsClearable.contains name.text then
    (copyName base (name.text.take (fpgaErrorNameMax - 1))).map fun basedir =>
      ⟨⟨infoName, true⟩, errorFile, basedir.take blen⟩
  else some ⟨⟨infoName, false⟩, errorFile, []⟩

/-- The directory is read if its path leaves room for a name and it can be opened. -/
def opened {β : Type} (path : List UInt8) (opens : Bool) (closed : β) (read : List UInt8 → β) : β :=
  if filenameMax < min path.length (filenameMax - 1) + 3 then closed
  else if !opens then closed
  else read (path ++ [slash])

def readEntries (dir : Listing) (base : List UInt8) :
    Listing → Option Link → UInt32 → CellLists ErrorEntry → Option (UInt32 × CellLists ErrorEntry)
  | .nil, _, n, m => some (n, m)
  | .other name kind rest, el, n, m =>
    if skips name then readEntries dir base rest el n m
    else if filenameMax < base.length + name.text.length then readEntries dir base rest el n m
    else
      (copyName base name.text).bind fun basedir =>
        match kind, el with
        | .file, none => readEntries dir base rest none (n + 1) m
        | .file, some l =>
          match m.malloc env.mem default with
          | (none, m) => some (n + 1 - 1, m)
          | (some i, m) =>
            (newEntry env dir base name basedir).bind fun entry =>
              (((m.fill i entry).store (.next i) none).append l i).bind fun m =>
                readEntries dir base rest (some (.next i)) (n + 1) m
        | _, el => readEntries dir base rest el n m
  | .dir name opens below rest, el, n, m =>
    if skips name then readEntries dir base rest el n m
    else if filenameMax < base.length + name.text.length then readEntries dir base rest el n m
    else
      (copyName base name.text).bind fun basedir =>
        (opened basedir opens (some (0, m)) fun base' =>
          readEntries below base' below el 0 m).bind fun (added, m) =>
            readEntries dir base rest el (n + added) m

/-- `none` if it writes outside of its buffer. -/
def buildErrorList (path : List UInt8) (opens : Bool) (entries : Listing) (list : Option Link)
    (m : CellLists ErrorEntry) : Option (UInt32 × CellLists ErrorEntry) :=
  opened path opens (some (0, m)) fun base => readEntries env entries base entries list 0 m

def countErrorFiles (path : List UInt8) (opens : Bool) (entries : Listing)
    (m : CellLists ErrorEntry) : Option UInt32 :=
  (buildErrorList env path opens entries none m).map Prod.fst

end Building

section Cloning

/-- The cells of the source one after the other; the clone is in the variable. What has been cloned
is freed if there is no memory for another cell. -/
def cloneCells (mem : Nat → Bool) :
    Nat → Option Nat → Link → CellLists ErrorEntry → Option (Option Nat × CellLists ErrorEntry)
  | _, none, _, m => some (m.links .var, m)
  | 0, some _, _, _ => none
  | fuel + 1, some i, plist, m =>
    match m.malloc mem default with
    | (none, m) => (freeCells (m.heap.next + 1) (m.links .var) m).map fun m => (none, m)
    | (some p, m) =>
      (m.heap.get i).bind fun entry =>
        cloneCells mem fuel (m.links (.next i)) (.next p)
          (((m.fill p entry).store (.next p) none).store plist (some p))

def cloneErrorList (mem : Nat → Bool) (src : Option Nat) (m : CellLists ErrorEntry) :
    Option (Option Nat × CellLists ErrorEntry) :=
  cloneCells mem (m.heap.next + 1) src .var (m.store .var none)

end Cloning

section Acting

def fpgaTokenMagic : UInt64 := 0x46504741544f4b4e

structure ErrorToken where
  magic : UInt64
  errors : List ErrorEntry

structure Files (σ : Type) where
  stat : σ → List UInt8 → Bool
  readU64 : σ → List UInt8 → FpgaResult × UInt64
  writeU64 : σ → List UInt8 → UInt64 → FpgaResult × σ

/-- The entry with a number, and how many are before it. They are counted from `i` on. -/
def errorFrom (num : UInt32) : List ErrorEntry → UInt32 → Nat → Option (Nat × ErrorEntry)
  | [], _, _ => none
  | p :: errors, i, k => if i = num then some (k, p) else errorFrom num errors (i + 1) (k + 1)

def errorAt (errors : List ErrorEntry) (num : UInt32) : Option (Nat × ErrorEntry) :=
  errorFrom num errors 0 0

variable {σ : Type} (files : Files σ)

def checked {β : Type} (token : Option ErrorToken) (refused : FpgaResult → β)
    (act : List ErrorEntry → β) : β :=
  match token with
  | none => refused .invalidParam
  | some token => if token.magic ≠ fpgaTokenMagic then refused .invalidParam else act token.errors

def readEntry (s : σ) (p : ErrorEntry) : FpgaResult × Option UInt64 :=
  if !files.stat s p.errorFile then (.exception, none)
  else
    let (res, value) := files.readU64 s p.errorFile
    if res ≠ .ok then (res, none) else (.ok, some value)

def xfpgaFpgaReadError (token : Option ErrorToken) (num : UInt32) (s : σ) :
    FpgaResult × Option UInt64 :=
  checked token (·, none) fun errors =>
    match errorAt errors num with
    | none => (.notFound, none)
    | some (_, p) => readEntry files s p

def injectError : List UInt8 := ascii "inject_error"

def clearEntry (s : σ) (p : ErrorEntry) (read : FpgaResult × Option UInt64) : FpgaResult × σ :=
  if !p.info.canClear then (.notSupported, s)
  else
    let (res, value) := if p.info.name = injectError then (.ok, some 0) else read
    if res ≠ .ok then (res, s)
    else if !files.stat s p.clearFile then (.exception, s)
    else files.writeU64 s p.clearFile (value.getD 0)

def xfpgaFpgaClearError (token : Option ErrorToken) (num : UInt32) (s : σ) : FpgaResult × σ :=
  checked token (·, s) fun errors =>
    match errorAt errors num with
    | none => (.notFound, s)
    | some (_, p) => clearEntry files s p (xfpgaFpgaReadError files token num s)

def clearFrom (token : Option ErrorToken) : List ErrorEntry → UInt32 → σ → FpgaResult × σ
  | [], _, s => (.ok, s)
  | p :: errors, i, s =>
    if p.info.canClear then
      let (res, s) := xfpgaFpgaClearError files token i s
      if res ≠ .ok then (res, s) else clearFrom token errors (i + 1) s
    else clearFrom token errors (i + 1) s

def xfpgaFpgaClearAllErrors (token : Option ErrorToken) (s : σ) : FpgaResult × σ :=
  checked token (·, s) fun errors => clearFrom files token errors 0 s

def xfpgaFpgaGetErrorInfo (token : Option ErrorToken) (num : UInt32) (errorInfo : Bool) :
    FpgaResult × Option FpgaErrorInfo :=
  if !errorInfo then (.invalidParam, none)
  else
    checked token (·, none) fun errors =>
      match errorAt errors num with
      | none => (.notFound, none)
      | some (_, p) => (.ok, some p.info)

end Acting

end OpaeLibs.PluginXfpga.ErrorList
