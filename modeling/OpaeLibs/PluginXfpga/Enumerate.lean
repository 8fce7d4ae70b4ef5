import OpaeLibs.PluginXfpga.Properties

namespace OpaeLibs.PluginXfpga.Enumerate

open OpaeLibs.OpaeC.Props OpaeLibs.PluginXfpga.Properties

/-- `π` stands for the paths of sysfs and `δ` for those of device nodes. -/
structure SysfsFpgaRegion (π δ : Type) where
  sysfsPath : π
  devPath : δ

structure SysfsFpgaDevice (π δ : Type) where
  sysfsPath : π
  fme : Option (SysfsFpgaRegion π δ)
  port : Option (SysfsFpgaRegion π δ)
  segment : UInt32
  bus : UInt8
  device : UInt8
  function : UInt8
  deviceId : UInt32
  vendorId : UInt32

/-- A token without its magic number and its list of errors. -/
structure FpgaToken (π δ : Type) where
  deviceInstance : UInt32
  subdevInstance : UInt32
  sysfspath : π
  devpath : δ
deriving DecidableEq

inductive Attribute
  | socketId
  | numSlots
  | bitstreamId

/-- Sysfs and the devices. `interfaceId` and `afuGuid` are the ids that can be read, `openPort` is
what opening a port gives, and `instances` are the numbers that a path contains. -/
structure EnumEnv (π δ : Type) where
  isDir : π → Bool
  isChr : δ → Bool
  interfaceId : π → Option FpgaGuid
  afuGuid : π → Option FpgaGuid
  pathIsValid : π → Attribute → Bool
  parseAttribute64 : π → Attribute → Option UInt64
  openPort : δ → Option (Option OpaePortInfo)
  getFmePath : π → Option π
  realpath : π → Option π
  objectidFromPath : π → Option UInt64
  countErrorFiles : π → UInt32
  instances : π → Option (UInt32 × UInt32)

/-- A node of the list. A path is `none` where it is empty, and `parent` and `fme` are the addresses
of nodes. -/
structure DevList (π δ : Type) where
  sysfspath : Option π
  devpath : Option δ
  objtype : FpgaObjtype
  guid : FpgaGuid
  segment : UInt16
  bus : UInt8
  device : UInt8
  function : UInt8
  socketId : UInt8
  vendorId : UInt16
  deviceId : UInt16
  fpgaNumSlots : UInt32
  fpgaBitstreamId : UInt64
  fpgaBbsVersion : FpgaVersion
  acceleratorState : UInt32
  acceleratorNumMmios : UInt32
  acceleratorNumIrqs : UInt32
  parent : Nat
  fme : Option Nat

def cleared {π δ : Type} : DevList π δ :=
  ⟨none, none, .device, Vector.replicate 16 0, 0, 0, 0, 0, 0, 0, 0, 0, 0, ⟨0, 0, 0⟩, 0, 0, 0, 0,
    none⟩

/-- The nodes by address, their addresses in the order of the links, the head first, and the address
of the next node to be allocated. -/
structure Nodes (π δ : Type) where
  nodeAt : Nat → DevList π δ
  order : List Nat
  count : Nat

structure Filter (π δ : Type) where
  lock : Bool
  props : FpgaProperties (FpgaToken π δ)

section

variable {π δ : Type} [DecidableEq π] (env : EnumEnv π δ)

/-- A field of a filter that is not set does not reject anything. -/
def passes {τ : Type} (p : FpgaProperties τ) (f : Nat) (same : Bool) : Bool :=
  !decide (fieldValid p f) || same

def matchesParent (attr : DevList π δ) (p : FpgaProperties (FpgaToken π δ)) : Bool :=
  match attr.objtype, p.parent with
  | .device, _ => false
  | .accelerator, none => false
  | .accelerator, some parentTok =>
    match attr.sysfspath.bind env.getFmePath, env.realpath parentTok.sysfspath with
    | some spath, some buffer => spath == buffer
    | _, _ => false

def matchesDevice (attr : DevList π δ) (p : FpgaProperties (FpgaToken π δ)) : Bool :=
  passes p fpgaPropertyNumSlots
    (attr.objtype == .device && attr.fpgaNumSlots == p.u.numSlots) &&
  passes p fpgaPropertyBbsid
    (attr.objtype == .device && attr.fpgaBitstreamId == p.u.bbsId) &&
  passes p fpgaPropertyBbsversion
    (attr.objtype == .device && attr.fpgaBbsVersion == p.u.bbsVersion)

def matchesAccelerator (attr : DevList π δ) (p : FpgaProperties (FpgaToken π δ)) : Bool :=
  passes p fpgaPropertyAcceleratorState
    (attr.objtype == .accelerator && attr.acceleratorState == p.u.state) &&
  passes p fpgaPropertyNumMmio
    (attr.objtype == .accelerator && attr.acceleratorNumMmios == p.u.numMmio) &&
  passes p fpgaPropertyNumInterrupts
    (attr.objtype == .accelerator && attr.acceleratorNumIrqs == p.u.numInterrupts)

/-- The fields of the union are looked at only if the filter has a type. -/
def matchesObject (attr : DevList π δ) (p : FpgaProperties (FpgaToken π δ)) : Bool :=
  if fieldValid p fpgaPropertyObjtype then
    match p.objtype with
    | .device => matchesDevice attr p
    | .accelerator => matchesAccelerator attr p
  else true

def matchesFilter (attr : DevList π δ) (filter : Filter π δ) : Bool :=
  let p := filter.props
  filter.lock &&
  passes p fpgaPropertyParent (matchesParent env attr p) &&
  passes p fpgaPropertyObjtype (p.objtype == attr.objtype) &&
  passes p fpgaPropertySegment (p.segment == attr.segment) &&
  passes p fpgaPropertyBus (p.bus == attr.bus) &&
  passes p fpgaPropertyDevice (p.device == attr.device) &&
  passes p fpgaPropertyFunction (p.function == attr.function) &&
  passes p fpgaPropertySocketid (p.socketId == attr.socketId) &&
  passes p fpgaPropertyGuid (attr.guid == p.guid) &&
  passes p fpgaPropertyObjectid
    (attr.sysfspath.bind env.objectidFromPath == some p.objectId) &&
  passes p fpgaPropertyVendorid (p.vendorId == attr.vendorId) &&
  passes p fpgaPropertyDeviceid (p.deviceId == attr.deviceId) &&
  passes p fpgaPropertyNumErrors
    (attr.sysfspath.elim false fun path => env.countErrorFiles path == p.numErrors) &&
  matchesObject attr p

def matchesFilters (attr : DevList π δ) (filters : List (Filter π δ)) : Bool :=
  if filters.isEmpty then true else filters.any (matchesFilter env attr)

end

section

variable {π δ : Type}

def Nodes.set (s : Nodes π δ) (i : Nat) (n : DevList π δ) : Nodes π δ :=
  { s with nodeAt := Function.update s.nodeAt i n }

def insertAfter (parent new : Nat) : List Nat → List Nat
  | [] => []
  | i :: rest => if i = parent then i :: new :: rest else i :: insertAfter parent new rest

def addDev (sysfspath : π) (devpath : Option δ) (parent : Nat) (s : Nodes π δ) :
    Nat × Nodes π δ :=
  (s.count,
    { nodeAt := Function.update s.nodeAt s.count
        { (cleared : DevList π δ) with
          sysfspath := some sysfspath
          devpath := devpath
          parent := parent }
      order := insertAfter parent s.count s.order
      count := s.count + 1 })

/-- What a management engine and a port take over from the node of the device. -/
def inherit (parent pdev : DevList π δ) : DevList π δ :=
  { pdev with
    segment := parent.segment
    bus := parent.bus
    device := parent.device
    function := parent.function
    vendorId := parent.vendorId
    deviceId := parent.deviceId }

def enumFme (r : SysfsFpgaRegion π δ) (parent : Nat) (s : Nodes π δ) : Nodes π δ :=
  let (pdev, s) := addDev r.sysfsPath (some r.devPath) parent s
  let s := s.set pdev { inherit (s.nodeAt parent) (s.nodeAt pdev) with objtype := .device }
  let s := s.set pdev { s.nodeAt pdev with fme := some pdev }
  s.set parent { s.nodeAt parent with fme := some pdev }

def enumAfu (r : SysfsFpgaRegion π δ) (parent : Nat) (s : Nodes π δ) : Nodes π δ :=
  let (pdev, s) := addDev r.sysfsPath (some r.devPath) parent s
  s.set pdev
    { inherit (s.nodeAt parent) (s.nodeAt pdev) with
      objtype := .accelerator
      fme := (s.nodeAt parent).fme }

def last (s : Nodes π δ) : Nat := s.order.getLastD 0

/-- The node of the device itself, which has no device path. -/
def addContainer (d : SysfsFpgaDevice π δ) (s : Nodes π δ) : Nat × Nodes π δ :=
  let (pdev, s) := addDev d.sysfsPath none (last s) s
  (pdev, s.set pdev
    { s.nodeAt pdev with
      function := d.function
      segment := d.segment.toUInt16
      bus := d.bus
      device := d.device
      deviceId := d.deviceId.toUInt16
      vendorId := d.vendorId.toUInt16 })

def addFme (d : SysfsFpgaDevice π δ) (pdev : Nat) (s : Nodes π δ) : Nodes π δ :=
  match d.fme with
  | some r => enumFme r pdev s
  | none => s

def addPort (includePort : Bool) (d : SysfsFpgaDevice π δ) (s : Nodes π δ) : Nodes π δ :=
  match d.port with
  | some r => if includePort then enumAfu r (last s) s else s
  | none => s

def enumRegions (includePort : Bool) (s : Nodes π δ) (d : SysfsFpgaDevice π δ) : Nodes π δ :=
  let (pdev, s) := addContainer d s
  addPort includePort d (addFme d pdev s)

def emptyNodes : Nodes π δ := ⟨fun _ => cleared, [0], 1⟩

/-- `init` is what `sysfs_initialize` returns with the devices. -/
def enumFpgaRegionResources (init : FpgaResult) (devices : List (SysfsFpgaDevice π δ))
    (includePort : Bool) : FpgaResult × Nodes π δ :=
  if init ≠ .ok then (init, emptyNodes)
  else (.ok, devices.foldl (enumRegions includePort) emptyNodes)

def isPresent (env : EnumEnv π δ) (n : DevList π δ) : Bool :=
  n.sysfspath.any env.isDir && n.devpath.any env.isChr

/-- An attribute that is there, else 0. -/
def attributeOf (env : EnumEnv π δ) (n : DevList π δ) (a : Attribute) : UInt64 :=
  match n.sysfspath with
  | none => 0
  | some path => if env.pathIsValid path a then (env.parseAttribute64 path a).getD 0 else 0

def syncedFme (env : EnumEnv π δ) (n : DevList π δ) : DevList π δ :=
  let n := { n with guid := (n.sysfspath.bind env.interfaceId).getD n.guid }
  let n := { n with socketId := (attributeOf env n .socketId).toUInt8 }
  let n := { n with fpgaNumSlots := (attributeOf env n .numSlots).toUInt32 }
  if n.sysfspath.any fun path => env.pathIsValid path .bitstreamId then
    let id := (n.sysfspath.bind fun path => env.parseAttribute64 path .bitstreamId).getD
      n.fpgaBitstreamId
    { n with
      fpgaBitstreamId := id
      fpgaBbsVersion := ⟨fpgaBbsVerMajor id, fpgaBbsVerMinor id, fpgaBbsVerPatch id⟩ }
  else n

/-- The socket id goes to the parent as well. -/
def syncFme (env : EnumEnv π δ) (i : Nat) (s : Nodes π δ) : Option (Nodes π δ) :=
  let n := s.nodeAt i
  if isPresent env n then
    let parent := s.nodeAt n.parent
    let s := s.set n.parent { parent with socketId := (syncedFme env n).socketId }
    some (s.set i (syncedFme env n))
  else none

def syncedAfu (env : EnumEnv π δ) (n : DevList π δ) : DevList π δ :=
  let n := { n with acceleratorNumMmios := 0, acceleratorNumIrqs := 0 }
  let n := match n.devpath.bind env.openPort with
    | none => { n with acceleratorState := fpgaAcceleratorAssigned }
    | some info =>
      let n := match info with
        | none => n
        | some info =>
          { n with
            acceleratorNumMmios := info.numRegions
            acceleratorNumIrqs := if info.uafuIrqs then info.numUafuIrqs else 0 }
      { n with acceleratorState := fpgaAcceleratorUnassigned }
  { n with guid := (n.sysfspath.bind env.afuGuid).getD n.guid }

def syncAfu (env : EnumEnv π δ) (i : Nat) (s : Nodes π δ) : Option (Nodes π δ) :=
  let n := s.nodeAt i
  if isPresent env n then
    let n := match n.fme with
      | some fme => { n with socketId := (s.nodeAt fme).socketId }
      | none => n
    some (s.set i (syncedAfu env n))
  else none

def sync (env : EnumEnv π δ) (i : Nat) (s : Nodes π δ) : Option (Nodes π δ) :=
  match (s.nodeAt i).objtype with
  | .device => syncFme env i s
  | .accelerator => syncAfu env i s

end

section

variable {π δ : Type} [DecidableEq π]

/-- Whether reading filters requires the ports. -/
def includeAfu (filters : List (Filter π δ)) : Bool :=
  if filters.isEmpty then true
  else
    filters.any fun f =>
      !decide (fieldValid f.props fpgaPropertyObjtype) || f.props.objtype == .accelerator

structure Found (π δ : Type) where
  tokens : List (FpgaToken π δ)
  numMatches : Nat

variable (env : EnumEnv π δ) (filters : List (Filter π δ)) (maxTokens : Nat)

def tokenAdd (sysfspath : π) (devpath : δ) : Option (FpgaToken π δ) :=
  (env.instances sysfspath).map fun n => ⟨n.1, n.2, sysfspath, devpath⟩

/-- A node that matches. Where its token cannot be made, everything is taken back. -/
def report (n : DevList π δ) (acc : Found π δ) : Option (Found π δ) :=
  if acc.numMatches < maxTokens then
    match n.sysfspath, n.devpath with
    | some sysfspath, some devpath =>
      (tokenAdd env sysfspath devpath).map fun t => ⟨acc.tokens ++ [t], acc.numMatches + 1⟩
    | _, _ => none
  else some { acc with numMatches := acc.numMatches + 1 }

def consider (acc : Found π δ) (n : DevList π δ) : Option (Found π δ) :=
  if matchesFilters env n filters then report env maxTokens n acc else some acc

def walk : List Nat → Nodes π δ → Found π δ → FpgaResult × Found π δ
  | [], _, acc => (.ok, acc)
  | i :: rest, s, acc =>
    if (s.nodeAt i).devpath.isNone then walk rest s acc
    else
      match sync env i s with
      | none => walk rest s acc
      | some s =>
        match consider env filters maxTokens acc (s.nodeAt i) with
        | none => (.noMemory, ⟨[], 0⟩)
        | some acc => walk rest s acc

def enumerateWith (includePort : Bool) (init : FpgaResult)
    (devices : List (SysfsFpgaDevice π δ)) : FpgaResult × Found π δ :=
  match enumFpgaRegionResources init devices includePort with
  | (.ok, s) => walk env filters maxTokens s.order.tail s ⟨[], 0⟩
  | (result, _) => (result, ⟨[], 0⟩)

end

structure EnumArgs (π δ : Type) where
  filters : Option (List (Filter π δ))
  numFilters : Nat
  tokens : Bool
  maxTokens : Nat
  numMatches : Bool

/-- `includePort` decides whether ports are listed; nothing is stored where an argument is
wrong. -/
def enumerateArgs {π δ : Type} [DecidableEq π] (includePort : List (Filter π δ) → Bool)
    (env : EnumEnv π δ) (init : FpgaResult) (devices : List (SysfsFpgaDevice π δ))
    (args : EnumArgs π δ) : FpgaResult × Option (Found π δ) :=
  if !args.numMatches then (.invalidParam, none)
  else if args.maxTokens > 0 ∧ !args.tokens then (.invalidParam, none)
  else if args.numFilters > 0 ∧ args.filters.isNone then (.invalidParam, none)
  else if args.numFilters = 0 ∧ args.filters.isSome then (.invalidParam, none)
  else
    let filters := (args.filters.getD []).take args.numFilters
    let (result, found) :=
      enumerateWith env filters args.maxTokens (includePort filters) init devices
    (result, some found)

def xfpgaFpgaEnumerate {π δ : Type} [DecidableEq π] (env : EnumEnv π δ) (init : FpgaResult)
    (devices : List (SysfsFpgaDevice π δ)) (args : EnumArgs π δ) :
    FpgaResult × Option (Found π δ) :=
  enumerateArgs includeAfu env init devices args

end OpaeLibs.PluginXfpga.Enumerate
