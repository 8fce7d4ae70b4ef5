import OpaeLibs.PluginXfpga.Sysfs

namespace OpaeLibs.PluginXfpga.SysfsInit

open OpaeLibs.OpaeC.Props OpaeLibs.PluginXfpga.Sysfs

/-- A name of a directory entry, of which `d_name` has room for 255 bytes. -/
abbrev DirName := { name : Name // name.length ≤ 255 }

def sysfsPathMax : Nat := 256

def sysfsMaxDevices : Nat := 128

structure SysfsFpgaRegion where
  sysfsPath : Name
  sysfsName : Name
  type : FpgaObjtype
  number : Int
deriving DecidableEq

structure SysfsFpgaDevice where
  sysfsPath : Name
  sysfsName : Name
  number : Int
  fme : Option SysfsFpgaRegion
  port : Option SysfsFpgaRegion
  segment : UInt32
  bus : UInt8
  device : UInt8
  function : UInt8
  deviceId : UInt32
  vendorId : UInt32
deriving DecidableEq

inductive StatResult
  | found
  | enoent
  | other
deriving DecidableEq

/-- The class directories of the drivers, and what is found by path: the text of a link, the numbers
in the files of a device and the entries of its directory, in their order. `allocRegion` is whether
there is memory for the region of a name. -/
structure InitEnv where
  statClass : Driver → StatResult
  openClass : Driver → Bool
  readlink : Name → Option Name
  parseAttribute64 : Name → IdFile → Option UInt64
  opendir : Name → Option (List Name)
  allocRegion : Name → Name → Bool

def joined (dir name : Name) : Name := (dir ++ '/' :: name).take (sysfsPathMax - 1)

def classPath (drv : Driver) : Name := drv.formats.classPath.flatMap ('/' :: ·)

section Match

/-- The text behind the first place where a text is followed by a digit. -/
def findNumber (start : Name) : Name → Option Name
  | [] => none
  | c :: s =>
    if start.isPrefixOf (c :: s) && (((c :: s).drop start.length).head?.any Char.isDigit) then
      some ((c :: s).drop start.length)
    else findNumber start s

/-- A group that is repeated captures its last repetition. -/
def lastDigit (s : Name) : Name := s.drop ((s.takeWhile Char.isDigit).length - 1)

/-- `strtoul` for an `int`, which sets `errno` if the number is too long. -/
def parseNumber (s : Name) : Except FpgaError Int :=
  if 2 ^ 64 ≤ digitsFrom 10 0 s then .error ⟨.exception, FpgaResult.exception_ne_ok⟩
  else .ok ((digitsFrom 10 0 s : Int).bmod (2 ^ 32))

def reMatchDevice (drv : Driver) (name : Name) : Except FpgaError Int :=
  match findNumber drv.formats.device name with
  | none => .error ⟨.notFound, FpgaResult.notFound_ne_ok⟩
  | some digits =>
    match drv with
    | .dfl => parseNumber (lastDigit digits)
    | .intel => parseNumber digits

/-- The region that a text begins with. -/
def regionAt (drv : Driver) (s : Name) : Option (FpgaObjtype × Name) :=
  if drv.formats.fme.isPrefixOf s && (s.drop drv.formats.fme.length).head?.any Char.isDigit then
    some (.device, s.drop drv.formats.fme.length)
  else if drv.formats.port.isPrefixOf s &&
      (s.drop drv.formats.port.length).head?.any Char.isDigit then
    some (.accelerator, s.drop drv.formats.port.length)
  else none

def findRegion (drv : Driver) : Name → Option (FpgaObjtype × Name)
  | [] => none
  | c :: s =>
    match regionAt drv (c :: s) with
    | some region => some region
    | none => findRegion drv s

def reMatchRegion (drv : Driver) (name : Name) : Except FpgaError (FpgaObjtype × Int) :=
  match findRegion drv name with
  | none => .error ⟨.notFound, FpgaResult.notFound_ne_ok⟩
  | some (type, digits) => (parseNumber digits).map (type, ·)

end Match

def isDots (name : Name) : Bool := name == ['.'] || name == ['.', '.']

section Devices

variable (env : InitEnv) (drv : Driver)

def makeRegion (path name : Name) (num : Int) (type : FpgaObjtype) : Option SysfsFpgaRegion :=
  if env.allocRegion path name then
    some ⟨joined path name, name.take (sysfsPathMax - 1), type, num⟩
  else none

/-- The loop over the entries of the device. Its regions take the place of what was there. -/
def scanRegions : List Name → SysfsFpgaDevice → SysfsFpgaDevice × FpgaResult
  | [], dev => (dev, .ok)
  | name :: names, dev =>
    if isDots name then scanRegions names dev
    else
      match reMatchRegion drv name with
      | .ok (.device, num) =>
        scanRegions names { dev with fme := makeRegion env dev.sysfsPath name num .device }
      | .ok (.accelerator, num) =>
        scanRegions names { dev with port := makeRegion env dev.sysfsPath name num .accelerator }
      | .error ⟨.notFound, _⟩ => scanRegions names dev
      | .error e => (dev, e.val)

def findRegions (dev : SysfsFpgaDevice) : SysfsFpgaDevice × FpgaResult :=
  match env.opendir dev.sysfsPath with
  | none => (dev, .exception)
  | some names =>
    let (dev, res) := scanRegions env drv names dev
    if dev.fme.isNone && dev.port.isNone then (dev, .notFound) else (dev, res)

/-- Fills a slot of the table, which may hold anything. -/
def makeDevice (dev : SysfsFpgaDevice) (dirName : Name) (num : Int) :
    SysfsFpgaDevice × FpgaResult :=
  let dev := { dev with
    sysfsPath := joined (classPath drv) dirName
    sysfsName := dirName.take (sysfsPathMax - 1) }
  match env.readlink dev.sysfsPath with
  | none => (dev, .exception)
  | some buffer =>
    let dev := { dev with number := num }
    match parsePcieInfo (buffer.splitOn '/') with
    | none => (dev, .exception)
    | some (segment, bus, device, function) =>
      let dev := { dev with
        segment := UInt32.ofNat segment
        bus := UInt8.ofNat bus
        device := UInt8.ofNat device
        function := UInt8.ofNat function }
      match env.parseAttribute64 dev.sysfsPath .device with
      | none => (dev, .exception)
      | some deviceId =>
        let dev := { dev with deviceId := deviceId.toUInt32 }
        match env.parseAttribute64 dev.sysfsPath .vendor with
        | none => (dev, .exception)
        | some vendorId => findRegions env drv { dev with vendorId := vendorId.toUInt32 }

/-- The table of devices, how many there are, and the result so far. -/
structure InitState where
  table : Nat → SysfsFpgaDevice
  count : Nat
  res : FpgaResult

/-- One entry of the class directory. `none` if a slot behind the table is used. -/
def initStep (s : InitState) (name : DirName) : Option InitState :=
  if isDots name.val then some s
  else
    match reMatchDevice drv name.val with
    | .error e => some { s with res := e.val }
    | .ok num =>
      if sysfsMaxDevices ≤ s.count then none
      else
        let (dev, res) := makeDevice env drv (s.table s.count) name.val num
        -- the mutex leaves its own result
        some ⟨Function.update s.table s.count dev, if res = .ok then s.count + 1 else s.count, .ok⟩

def initLoop : List DirName → InitState → Option InitState
  | [], s => some s
  | name :: names, s => (initStep env drv s name).bind (initLoop names)

end Devices

/-- The first driver that has a class directory. -/
def findDriver (env : InitEnv) : Except FpgaError Driver :=
  match env.statClass .dfl with
  | .found => .ok .dfl
  | .other => .error ⟨.exception, FpgaResult.exception_ne_ok⟩
  | .enoent =>
    match env.statClass .intel with
    | .found => .ok .intel
    | .other => .error ⟨.exception, FpgaResult.exception_ne_ok⟩
    | .enoent => .error ⟨.noDriver, FpgaResult.noDriver_ne_ok⟩

def openDriver (env : InitEnv) : Except FpgaError Driver := do
  let drv ← findDriver env
  if env.openClass drv then return drv else throw ⟨.exception, FpgaResult.exception_ne_ok⟩

/-- The result with the devices that are built, for the entries of the class directory in the order
in which they are read. -/
def sysfsInitialize (env : InitEnv) (table : Nat → SysfsFpgaDevice) (entries : List DirName) :
    Option (FpgaResult × List SysfsFpgaDevice × (Nat → SysfsFpgaDevice)) :=
  match openDriver env with
  | .error e => some (e.val, [], table)
  | .ok drv => (initLoop env drv entries ⟨table, 0, .ok⟩).map fun s =>
      (if s.count = 0 then .noDriver else s.res, (List.range s.count).map s.table, s.table)

/-- The regions of the devices are freed. -/
def sysfsFinalize (table : Nat → SysfsFpgaDevice) (count : Nat) : Nat → SysfsFpgaDevice := fun i =>
  if i < count then { table i with fme := none, port := none } else table i

end OpaeLibs.PluginXfpga.SysfsInit
