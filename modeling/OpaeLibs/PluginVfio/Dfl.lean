import OpaeLibs.Lib.Bytes
import OpaeLibs.Lib.Loops
import OpaeLibs.PluginVfio.Properties

namespace OpaeLibs.PluginVfio.Dfl

open OpaeLibs.Lib.Bytes OpaeLibs.Lib.Loops
open OpaeLibs.OpaeC.Props OpaeLibs.PluginVfio.Properties

/-- A mapped BAR and what its bytes read as, by their offset. -/
structure Bar where
  size : Nat
  size_lt : size < 2 ^ 64
  byte : Nat → UInt8

structure Mmio where
  bar : Bar
  off : Nat

def Mmio.shift (m : Mmio) (n : Nat) : Mmio := ⟨m.bar, m.off + n⟩

/-- `none` is a fault: the register does not lie in the BAR. -/
def Mmio.read64 (m : Mmio) : Option (BitVec 64) :=
  if m.off + 8 ≤ m.bar.size then
    some (BitVec.ofNat 64 (ofLe ((List.range 8).map fun k => m.bar.byte (m.off + k))))
  else none

/-- What `get_guid` makes of two registers, the lower one first: their bytes backwards. -/
def guidOf (lo hi : BitVec 64) : FpgaGuid :=
  Vector.ofFn fun i : Fin 16 => UInt8.ofBitVec ((hi ++ lo).extractLsb' (8 * (15 - i.val)) 8)

def getGuid (h : Mmio) : Option FpgaGuid := do
  let lo ← h.read64
  let hi ← (h.shift 8).read64
  some (guidOf lo hi)

abbrev Dfh := BitVec 64

def Dfh.id (h : Dfh) : BitVec 12 := h.extractLsb' 0 12
def Dfh.next (h : Dfh) : BitVec 24 := h.extractLsb' 16 24
def Dfh.eol (h : Dfh) : Bool := h.getLsbD 40

abbrev PortOffset := BitVec 64

def PortOffset.offset (r : PortOffset) : BitVec 24 := r.extractLsb' 0 24
def PortOffset.bar (r : PortOffset) : BitVec 3 := r.extractLsb' 32 3
def PortOffset.implemented (r : PortOffset) : Bool := r.getLsbD 60

def portAfuDfhOffset (r : BitVec 64) : BitVec 24 := r.extractLsb' 0 24
def portMmioSize (r : BitVec 64) : BitVec 16 := r.extractLsb' 8 16
def fabNumPorts (r : BitVec 64) : BitVec 3 := r.extractLsb' 17 3

def prFeatureId : BitVec 12 := 0x5
def prIntfcIdLo : Nat := 0xA8
def portStpId : BitVec 12 := 0x13
def bitstreamIdReg : Nat := 0x60
def bitstreamMd : Nat := 0x68
def portControl : Nat := 0x38
def portNextAfu : Nat := 0x18
def fabCapability : Nat := 0x30
def portCapability : Nat := 0x30
def fmePorts : List Nat := [0x38, 0x40, 0x48, 0x50]

inductive VfioOpsReset
  | legacyPortReset
  | vfioReset
deriving DecidableEq, Repr

structure TokenNode extends VfioToken where
  addr : Nat
  mmioSize : UInt32
  userMmio : Vector UInt32 8
  bitstreamMdata : UInt64
  parent : Option Nat
  reset : Option VfioOpsReset
deriving DecidableEq, Repr

def findToken (tokens : List TokenNode) (region : UInt32) : Option TokenNode :=
  tokens.find? fun t => t.region = region

/-- The address of the token and the list after the call. `mem` are the outcomes of the `malloc`s;
each token is at an address of its own. `none` is the fault that a `NULL` leads to in every
caller. -/
def getToken (mem : Nat → Bool) (p : PciDevice) (region : UInt32) (type : FpgaObjtype)
    (tokens : List TokenNode) : Option (Nat × List TokenNode) :=
  match findToken tokens region with
  | some t => some (t.addr, tokens)
  | none =>
    if mem tokens.length then
      let t : TokenNode :=
        { guid := Vector.replicate 16 0
          compatId := Vector.replicate 16 0
          device := p
          region := region
          userMmioCount := 0
          bitstreamId := 0
          numPorts := 0
          type := type
          addr := tokens.length
          mmioSize := 0
          userMmio := Vector.replicate 8 0
          bitstreamMdata := 0
          parent := none
          reset := none }
      some (t.addr, t :: tokens)
    else none

/-- An assignment to members of the token at an address. -/
def setToken (addr : Nat) (f : TokenNode → TokenNode) (tokens : List TokenNode) :
    List TokenNode :=
  tokens.map fun t => if t.addr = addr then f t else t

def nextDfh (h : Mmio) (r : Dfh) : Option Mmio :=
  if r.next ≠ 0 ∧ !r.eol then some (h.shift r.next.toNat) else none

/-- A round of `for_each_dfh`, whose body gives `true` to break. -/
def dfhRound {σ : Type} (body : Mmio → Dfh → σ → Option (Bool × σ)) :
    Mmio × σ → Option ((Mmio × σ) ⊕ σ)
  | (h, s) => do
    let r ← h.read64
    let (stop, s) ← body h r s
    if stop then some (.inr s)
    else
      match nextDfh h r with
      | none => some (.inr s)
      | some h => some (.inl (h, s))

/-- No list has more headers than its BAR has bytes. -/
def forEachDfh {σ : Type} (body : Mmio → Dfh → σ → Option (Bool × σ)) (h : Mmio) (s : σ) :
    Option σ :=
  loop (dfhRound body) (h.bar.size + 1) (h, s)

def stpBody (h : Mmio) (r : Dfh) (stp : Option Mmio) : Option (Bool × Option Mmio) :=
  if r.id = portStpId then some (true, some h) else some (false, stp)

def compatBody (h : Mmio) (r : Dfh) (compatId : Option FpgaGuid) :
    Option (Bool × Option FpgaGuid) :=
  if r.id = prFeatureId then do
    let guid ← getGuid (h.shift prIntfcIdLo)
    some (false, some guid)
  else some (false, compatId)

/-- Its registers read the same after the reset, and its result is only logged. -/
def legacyPortReset (portBase : Mmio) : Option Unit := do
  let _ ← (portBase.shift portControl).read64
  some ()

/-- What `walk_port` reads of a port: where its AFU is and its GUID, and the STP if it has one. -/
structure PortRegisters where
  afuOffset : BitVec 24
  mmioSize : BitVec 16
  guid : FpgaGuid
  stp : Option Mmio

/-- The port is reset before any AFU register is read. -/
def readPort (mmio : Mmio) : Option PortRegisters := do
  let nextAfu ← (mmio.shift portNextAfu).read64
  let cap ← (mmio.shift portCapability).read64
  legacyPortReset mmio
  let guid ← getGuid ((mmio.shift (portAfuDfhOffset nextAfu).toNat).shift 8)
  let stp ← forEachDfh stpBody mmio none
  some ⟨portAfuDfhOffset nextAfu, portMmioSize cap, guid, stp⟩

def assignPort (parent : Nat) (mmio : Mmio) (r : PortRegisters) (t : TokenNode) : TokenNode :=
  let userMmio := t.userMmio.set 0 (UInt32.ofNat r.afuOffset.toNat)
  let t :=
    { t with
      parent := some parent
      mmioSize := UInt32.ofNat r.mmioSize.toNat
      userMmioCount := 1
      userMmio := userMmio
      reset := some .legacyPortReset
      guid := r.guid }
  match r.stp with
  | none => t
  | some h =>
    { t with
      userMmioCount := 2
      userMmio := userMmio.set 1 (UInt32.ofNat (h.off - mmio.off)) }

/-- `parent` is the address of a token of `p`. -/
def walkPort (mem : Nat → Bool) (p : PciDevice) (parent : Nat) (region : UInt32) (mmio : Mmio)
    (tokens : List TokenNode) : Option (List TokenNode) := do
  let (port, tokens) ← getToken mem p region .accelerator tokens
  let r ← readPort mmio
  some (setToken port (assignPort parent mmio r) tokens)

abbrev Regions := UInt32 → Option Bar

def walkFmePort (mem : Nat → Bool) (p : PciDevice) (v : Regions) (mmio : Mmio) (fme : Nat)
    (tokens : List TokenNode) (fmePort : Nat) : Option (List TokenNode) := do
  let r ← (mmio.shift fmePort).read64
  if !PortOffset.implemented r then some tokens
  else
    let bar := UInt32.ofNat (PortOffset.bar r).toNat
    match v bar with
    | none => some tokens
    | some portBar =>
      walkPort mem p fme bar (Mmio.shift ⟨portBar, 0⟩ (PortOffset.offset r).toNat) tokens

structure FmeRegisters where
  guid : FpgaGuid
  bitstreamId : BitVec 64
  bitstreamMdata : BitVec 64
  numPorts : BitVec 3
  compatId : Option FpgaGuid

def readFme (mmio : Mmio) : Option FmeRegisters := do
  let guid ← getGuid (mmio.shift 8)
  let bitstreamId ← (mmio.shift bitstreamIdReg).read64
  let bitstreamMdata ← (mmio.shift bitstreamMd).read64
  let cap ← (mmio.shift fabCapability).read64
  let compatId ← forEachDfh compatBody mmio none
  some ⟨guid, bitstreamId, bitstreamMdata, fabNumPorts cap, compatId⟩

/-- Without a PR feature the token keeps its interface id. -/
def assignFme (r : FmeRegisters) (t : TokenNode) : TokenNode :=
  { t with
    guid := r.guid
    bitstreamId := UInt64.ofBitVec r.bitstreamId
    bitstreamMdata := UInt64.ofBitVec r.bitstreamMdata
    numPorts := UInt8.ofNat r.numPorts.toNat
    compatId := r.compatId.getD t.compatId }

def walkFme (mem : Nat → Bool) (p : PciDevice) (v : Regions) (mmio : Mmio) (region : UInt32)
    (tokens : List TokenNode) : Option (List TokenNode) := do
  let (fme, tokens) ← getToken mem p region .device tokens
  let r ← readFme mmio
  fmePorts.foldlM (walkFmePort mem p v mmio fme) (setToken fme (assignFme r) tokens)

/-- The list `fme_drivers`, each string as `uuid_parse` reads it. -/
def fmeDrivers : List FpgaGuid :=
  [#v[0xbf, 0xaf, 0x2a, 0xe9, 0x4a, 0x52, 0x46, 0xe3, 0x82, 0xfe, 0x38, 0xf0, 0xf9, 0xe1, 0x77,
    0x64]]

def barMax : Nat := 6

/-- All of BAR 0 as one accelerator. -/
def walkBar0 (mem : Nat → Bool) (p : PciDevice) (bar : Bar) (tokens : List TokenNode) :
    Option (List TokenNode) := do
  let (t, tokens) ← getToken mem p 0 .accelerator tokens
  let guid ← getGuid ⟨bar, 8⟩
  some <| setToken t (fun t =>
    { t with
      mmioSize := UInt32.ofNat bar.size
      userMmioCount := 1
      userMmio := t.userMmio.set 0 0
      reset := some .vfioReset
      guid := guid }) tokens

/-- BARs without an AFU are passed over. -/
def walkBar (mem : Nat → Bool) (p : PciDevice) (v : Regions) (tokens : List TokenNode) (i : Nat) :
    Option (List TokenNode) := do
  let region := UInt32.ofNat i
  match v region with
  | none => some tokens
  | some bar =>
    let hdr ← Mmio.read64 ⟨bar, 0⟩
    if hdr = 0 then some tokens
    else
      let lo ← Mmio.read64 ⟨bar, 8⟩
      if lo = 0 then some tokens
      else
        let (t, tokens) ← getToken mem p region .accelerator tokens
        let guid ← getGuid ⟨bar, 8⟩
        some <| setToken t (fun t =>
          { t with
            guid := guid
            mmioSize := UInt32.ofNat bar.size
            userMmioCount := 1
            userMmio := t.userMmio.set 0 0 }) tokens

/-- The result and the list after the walk; `opened` are the BARs of the pair that
`open_vfio_pair` gives. -/
def vfioWalk (mem : Nat → Bool) (opened : Option Regions) (p : PciDevice)
    (tokens : List TokenNode) : Option (Nat × List TokenNode) :=
  match opened with
  | none => some (1, tokens)
  | some v =>
    match v 0 with
    | none => some (2, tokens)
    | some bar0 => do
      let b0Guid ← getGuid ⟨bar0, 8⟩
      if b0Guid ∈ fmeDrivers then
        let tokens ← walkFme mem p v ⟨bar0, 0⟩ 0 tokens
        some (0, tokens)
      else
        let tokens ← walkBar0 mem p bar0 tokens
        let tokens ← ((List.range barMax).drop 1).foldlM (walkBar mem p v) tokens
        some (0, tokens)

inductive Clone
  | mk (token : TokenNode) (parent : Option Clone)

/-- At most `fuel` nested calls, of which the first makes the `n`th `malloc`: `none` if they are not
enough, and `some none` where the source returns `NULL`. -/
def cloneToken (mem : Nat → Bool) (tokens : List TokenNode) :
    Nat → Nat → Nat → Option (Option Clone)
  | 0, _, _ => none
  | fuel + 1, n, src =>
    match tokens.find? fun t => t.addr = src with
    | none => some none
    | some t =>
      if mem n then
        match t.parent with
        | none => some (some (.mk t none))
        | some parent => (cloneToken mem tokens fuel (n + 1) parent).map fun c => some (.mk t c)
      else some none

end OpaeLibs.PluginVfio.Dfl
