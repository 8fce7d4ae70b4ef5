import OpaeLibs.PluginXfpga.Enumerate

namespace OpaeLibs.PluginXfpga.Sysfs

open OpaeLibs.OpaeC.Props OpaeLibs.PluginXfpga.Properties OpaeLibs.PluginXfpga.Enumerate

abbrev Name := List Char

/-- A path, or the text of a link, by the names between its slashes. -/
abbrev Path := List Name

section Text

def hex : Nat → Nat → Name
  | 0, _ => []
  | w + 1, n => hex w (n / 16) ++ [(n % 16).digitChar]

def digitValue (c : Char) : Option Nat :=
  if '0' ≤ c ∧ c ≤ '9' then some (c.toNat - '0'.toNat)
  else if 'a' ≤ c ∧ c ≤ 'f' then some (c.toNat - 'a'.toNat + 10)
  else if 'A' ≤ c ∧ c ≤ 'F' then some (c.toNat - 'A'.toNat + 10)
  else none

def isHex (c : Char) : Bool := (digitValue c).isSome

def digitsFrom (base n : Nat) : Name → Nat
  | [] => n
  | c :: s =>
    match digitValue c with
    | some d => if d < base then digitsFrom base (n * base + d) s else n
    | none => n

/-- The texts that are read here have no spaces, sign or base in front. -/
def strtoul (base : Nat) (s : Name) : Nat := min (digitsFrom base 0 s) (2 ^ 64 - 1)

def number (s : Name) : Option Nat := if s.all Char.isDigit then some (strtoul 10 s) else none

/-- No slash is looked for. -/
def strstr (p : Path) (s : Name) : Bool := p.any fun c => decide (s <:+: c)

def dirname (p : Path) : Path := p.dropLast

end Text

section Links

structure PciAddress where
  segment : UInt16
  bus : UInt8
  device : UInt8
  function : Fin 8

def PciAddress.name (a : PciAddress) : Name :=
  hex 4 a.segment.toNat ++ ':' :: hex 2 a.bus.toNat ++ ':' :: hex 2 a.device.toNat ++
    ['.', a.function.val.digitChar]

def pcieMatch : Name → Option (Nat × Nat × Nat × Nat)
  | [a, b, c, d, ':', e, f, ':', g, h, '.', i] =>
    if [a, b, c, d, e, f, g, h].all isHex && i.isDigit then
      some (strtoul 16 [a, b, c, d], strtoul 16 [e, f], strtoul 16 [g, h], strtoul 10 [i])
    else none
  | _ => none

/-- The case of letters does not matter. -/
def startsWithFpga (c : Name) : Bool := (c.take 4).map Char.toLower == "fpga".toList

/-- The first match of the pattern, whose only slash is the one before `fpga`. -/
def parsePcieInfo : Path → Option (Nat × Nat × Nat × Nat)
  | c :: c' :: rest =>
    match if startsWithFpga c' then pcieMatch (c.drop (c.length - 12)) else none with
    | some r => some r
    | none => parsePcieInfo (c' :: rest)
  | _ => none

/-- The third name from the end, which is cut at fixed places. -/
def sysfsSbdfFromPath (link : Path) : Except FpgaError (Int × Int × Int × Int) :=
  if link.length < 4 then .error ⟨.noDriver, FpgaResult.noDriver_ne_ok⟩
  else
    let p := (link.reverse[2]?).getD []
    .ok (strtoul 16 (p.take 4), strtoul 16 ((p.take 7).drop 5), strtoul 16 ((p.take 10).drop 8),
      strtoul 16 (p.drop 11))

end Links

section Files

inductive Driver
  | dfl
  | intel
deriving DecidableEq

/-- The formats of a driver: the directory of the class, the directory in that of a PCI function,
and what the names of devices and of regions begin with. -/
structure Formats where
  classPath : Path
  pcidrvFpga : Name
  device : Name
  fme : Name
  port : Name

def Driver.formats : Driver → Formats
  | .dfl => ⟨["sys".toList, "class".toList, "fpga_region".toList], "fpga_region".toList,
      "region".toList, "dfl-fme.".toList, "dfl-port.".toList⟩
  | .intel => ⟨["sys".toList, "class".toList, "fpga".toList], "fpga".toList,
      "intel-fpga-dev.".toList, "intel-fpga-fme.".toList, "intel-fpga-port.".toList⟩

/-- An entry of the class directory: its number, the PCI function that it links to, behind a root
and bridges, and the numbers of the regions in it. -/
structure Entry where
  number : Nat
  root : UInt16 × UInt8
  bridges : List PciAddress
  address : PciAddress
  fme : Option Nat
  port : Option Nat

def digits (n : Nat) : Name := Nat.toDigits 10 n

variable (drv : Driver)

def Entry.name (e : Entry) : Name := drv.formats.device ++ digits e.number

def Entry.path (e : Entry) : Path := drv.formats.classPath ++ [e.name drv]

def Entry.link (e : Entry) : Path :=
  ["..".toList, "..".toList, "devices".toList,
      "pci".toList ++ hex 4 e.root.1.toNat ++ ':' :: hex 2 e.root.2.toNat] ++
    e.bridges.map PciAddress.name ++ [e.address.name, drv.formats.pcidrvFpga, e.name drv]

inductive IdFile
  | vendor
  | device

inductive AttributeFile
  | absent
  | unreadable
  | holds (value : UInt64)

def AttributeFile.value : AttributeFile → Option UInt64
  | .holds value => some value
  | _ => none

def AttributeFile.isValid : AttributeFile → Bool
  | .absent => false
  | _ => true

/-- Where a directory `fpga*` is looked for, beside a region. -/
inductive FpgaGlob
  | physfn
  | device

/-- What is found by path. `ids` are the numbers in the files of the PCI function, and
`endsInNewline` whether their texts end as `sysfs_read_u32` requires. -/
structure SysfsTree where
  driver : Driver
  entries : List Entry
  nodup : (entries.map fun e => e.path driver).Nodup
  ids : Path → IdFile → Option UInt64
  endsInNewline : Path → IdFile → Bool
  isDir : Path → Bool
  isChr : Name → Bool
  interfaceId : Path → Except FpgaError FpgaGuid
  afuGuid : Path → Option FpgaGuid
  attributeFile : Path → Attribute → AttributeFile
  openPort : Name → Option (Option OpaePortInfo)
  globFpga : Path → FpgaGlob → Except FpgaError Path
  globFme : Path → Except FpgaError Path
  realpath : Path → Option Path
  objectId : Path → Option UInt64
  countErrorFiles : Path → UInt32

variable (fs : SysfsTree)

def readlink (p : Path) : Option Path :=
  (fs.entries.find? fun e => e.path fs.driver == p).map (Entry.link fs.driver)

/-- Where a virtual function has a physical one, its directory comes first. -/
def sysfsGetFmePath (port : Path) : Except FpgaError Path := do
  let dir ← match fs.globFpga port .physfn with
    | .error ⟨.notFound, _⟩ => fs.globFpga port .device
    | found => found
  let fme ← fs.globFme dir
  match fs.realpath fme with
  | some path => return path
  | none => throw ⟨.exception, FpgaResult.exception_ne_ok⟩

def sysfsReadU32 (p : Path) (f : IdFile) : Except FpgaError UInt32 :=
  match fs.ids p f with
  | some value =>
    if fs.endsInNewline p f then .ok value.toUInt32
    else .error ⟨.notFound, FpgaResult.notFound_ne_ok⟩
  | none => .error ⟨.notFound, FpgaResult.notFound_ne_ok⟩

def makeRegion (dir : Path) (start : Name) (number : Nat) : SysfsFpgaRegion Path Name :=
  ⟨dir ++ [start ++ digits number], start ++ digits number⟩

def makeDevice (e : Entry) : Option (SysfsFpgaDevice Path Name) := do
  let path := e.path fs.driver
  let link ← readlink fs path
  let (segment, bus, device, function) ← parsePcieInfo link
  let deviceId ← fs.ids path .device
  let vendorId ← fs.ids path .vendor
  if e.fme.isNone && e.port.isNone then none
  else
    return {
      sysfsPath := path
      fme := e.fme.map (makeRegion path fs.driver.formats.fme)
      port := e.port.map (makeRegion path fs.driver.formats.port)
      segment := UInt32.ofNat segment
      bus := UInt8.ofNat bus
      device := UInt8.ofNat device
      function := UInt8.ofNat function
      deviceId := deviceId.toUInt32
      vendorId := vendorId.toUInt32 }

def devices : List (SysfsFpgaDevice Path Name) := fs.entries.filterMap (makeDevice fs)

/-- The name after `fpga_region`. -/
def afterFpgaRegion : Path → Option Name
  | c :: c' :: rest => if c = "fpga_region".toList then some c' else afterFpgaRegion (c' :: rest)
  | _ => none

/-- The number after `region`, else the one after the first dot. -/
def deviceInstance (p : Path) : Option Nat :=
  match afterFpgaRegion p with
  | some c => number (c.drop 6)
  | none =>
    (p.dropLast.find? (·.contains '.')).bind fun c => number ((c.dropWhile (· ≠ '.')).drop 1)

/-- The number after the last dot. -/
def subdevInstance (p : Path) : Option Nat :=
  p.getLast?.bind fun c =>
    if c.contains '.' then number (c.reverse.takeWhile (· ≠ '.')).reverse else none

def instances (p : Path) : Option (UInt32 × UInt32) := do
  return (UInt32.ofNat (← deviceInstance p), UInt32.ofNat (← subdevInstance p))

def enumEnv : EnumEnv Path Name where
  isDir := fs.isDir
  isChr := fs.isChr
  interfaceId p := (fs.interfaceId p).toOption
  afuGuid := fs.afuGuid
  pathIsValid p a := (fs.attributeFile p a).isValid
  parseAttribute64 p a := (fs.attributeFile p a).value
  openPort := fs.openPort
  getFmePath p := (sysfsGetFmePath fs p).toOption
  realpath := fs.realpath
  objectidFromPath := fs.objectId
  countErrorFiles := fs.countErrorFiles
  instances := instances

def tokenView (t : FpgaToken Path Name) (lock : Bool) : TokenView where
  magic := true
  vendor := sysfsReadU32 fs (dirname t.sysfspath) .vendor
  device := sysfsReadU32 fs (dirname t.sysfspath) .device
  separator := !t.sysfspath.isEmpty
  afu :=
    if strstr t.sysfspath "port".toList then
      some ⟨match fs.afuGuid t.sysfspath with
        | some guid => (true, guid)
        | none => (false, Vector.replicate 16 0), fs.openPort t.devpath⟩
    else none
  fme :=
    if strstr t.sysfspath "fme".toList then
      some ⟨fs.interfaceId t.sysfspath, (fs.attributeFile t.sysfspath .numSlots).value,
        (fs.attributeFile t.sysfspath .bitstreamId).value⟩
    else none
  sbdf :=
    match readlink fs (dirname t.sysfspath) with
    | some link => sysfsSbdfFromPath link
    | none => .error ⟨.noDriver, FpgaResult.noDriver_ne_ok⟩
  socketId := (sysfsGetFmePath fs t.sysfspath).toOption.bind fun fme =>
    (fs.attributeFile fme .socketId).value
  objectId := fs.objectId t.sysfspath
  numErrors := fs.countErrorFiles t.sysfspath
  lock := lock

end Files

end OpaeLibs.PluginXfpga.Sysfs
