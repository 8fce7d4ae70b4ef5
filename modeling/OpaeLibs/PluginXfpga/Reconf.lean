import OpaeLibs.PluginXfpga.Bitstream

namespace OpaeLibs.PluginXfpga.Reconf

open OpaeLibs.Lib.Probes
open OpaeLibs.OpaeC.Props OpaeLibs.PluginXfpga.Bitstream

def fpgaReconfForce : Int32 := 1
def fpgaReconfSkipUsrclk : Int32 := 2

/-- `sizeof(struct bitstream_header)`, which is packed. -/
def sizeofBitstreamHeader : UInt64 := 20

/-- What a call does to the handle's lock, to accelerators and to the device, and that the bitstream
is found to be valid. An accelerator is opened without `FPGA_OPEN_SHARED`. -/
inductive Event (κ : Type)
  | lock
  | unlock
  | valid
  | open (accel : κ)
  | close (accel : κ)
  | portPr (portId bufferSize : UInt32) (bufferAddress : UInt64)

inductive Errno
  | einval
  | efault
  | enotsup
  | other
deriving DecidableEq

/-- The two drivers, of which the second has a status. -/
inductive Driver
  | dfl
  | intel
deriving DecidableEq

structure IoctlOutcome where
  ret : Bool
  status : UInt64

/-- What the steps of a call meet. `children` are the accelerators that enumerate as children of
the device of the handle, and `ioPtr` is the driver that was found. -/
structure ReconfEnv (κ : Type) where
  lock : Bool
  magic : Bool
  fddev : Int32
  id : IdView
  validateMem : Bool
  getProperties : FpgaResult
  setParent : FpgaResult
  enumerate : FpgaResult
  children : List κ
  openChild : κ → FpgaResult
  destroyProperties : FpgaResult
  readMem : Bool
  setUserclock : UInt64 → UInt64 → FpgaResult
  ioPtr : Option Driver
  ioctl : IoctlOutcome
  errno : Errno
  closeChild : κ → FpgaResult

section

variable {κ : Type} (libs : Libs) (env : ReconfEnv κ)

def handleCheckAndLock : FpgaResult × List (Event κ) :=
  if !env.lock then (.exception, [])
  else if !env.magic then (.invalidParam, [.lock, .unlock])
  else (.ok, [.lock])

/-- The result with the header's length, which is stored only once the GUID is known to be
right. The pointer is compared with `NULL`. -/
def validateBitstream (bitstream bitstreamLen : UInt64) : Bits (FpgaResult × Int32) := do
  if bitstream = 0 then return (.invalidParam, 0)
  if bitstreamLen ≤ 0 ∨ bitstreamLen ≤ sizeofBitstreamHeader then return (.invalidParam, 0)
  if (← checkBitstreamGuid libs) = .ok then
    let headerLen ← getBitstreamHeaderLen libs
    if headerLen < 0 then return (.exception, headerLen)
    if (← validateBitstreamMetadata libs env.id env.validateMem) ≠ .ok then
      return (.exception, headerLen)
    return (.ok, headerLen)
  else return (.invalidParam, 0)

/-- The enumeration asks for one token. The result of the last clean-up step decides where every
step before succeeded. -/
def openAccel : FpgaResult × Option κ × List (Event κ) :=
  if env.id.token.isNone then (.invalidParam, none, [])
  else if env.getProperties ≠ .ok then (env.getProperties, none, [])
  else
    let freeProps (result : FpgaResult) := if result ≠ .ok then result else env.destroyProperties
    if env.setParent ≠ .ok then (freeProps env.setParent, none, [])
    else if env.enumerate ≠ .ok then (freeProps env.enumerate, none, [])
    else
      match env.children with
      | [] => (freeProps .busy, none, [])
      | token :: _ =>
        if env.openChild token ≠ .ok then (freeProps (env.openChild token), none, [])
        else (freeProps .ok, some token, [.open token])

def extend (n : Int32) : UInt64 := n.toInt64.toUInt64

def opaeIoctl : FpgaResult :=
  if env.ioctl.ret then .ok
  else
    match env.errno with
    | .einval => .invalidParam
    | .enotsup => .notSupported
    | _ => .exception

def opaeFmePortPr (portId sz : UInt32) (addr : UInt64) : FpgaResult × UInt64 × List (Event κ) :=
  match env.ioPtr with
  | none => (.exception, 0, [])
  | some .dfl => (opaeIoctl env, 0, [.portPr portId sz addr])
  | some .intel => (opaeIoctl env, env.ioctl.status, [.portPr portId sz addr])

def reconfErrors : UInt64 := 0x7f

def applyMetadata (m : Nat → UInt8) (flags : Int32) : FpgaResult :=
  if (getBitstreamJsonLen libs).value m > 0 then
    match (readGbsMetadata libs env.readMem).value m with
    | .error result => result
    | .ok metadata =>
      let high := metadata.afuImage.clockFrequencyHigh
      let low := metadata.afuImage.clockFrequencyLow
      if flags &&& fpgaReconfSkipUsrclk = 0 ∧ (high > 0 ∨ low > 0) then
        env.setUserclock (extend high) (extend low)
      else .ok
  else .ok

/-- The bytes behind the header go to the device. The size is computed in 64 bits and passed in
32. -/
def reconfigure (slot : UInt32) (bitstream bitstreamLen : UInt64) (headerLen : Int32) :
    FpgaResult × List (Event κ) :=
  match opaeFmePortPr env slot (bitstreamLen - extend headerLen).toUInt32
      (bitstream + extend headerLen) with
  | (result, error, events) =>
    let result :=
      if result = .ok then .ok
      else if env.errno = .einval ∨ env.errno = .efault then .invalidParam
      else .exception
    (if error &&& reconfErrors ≠ 0 then .reconfError else result, events)

/-- The steps after the accelerator is opened. That the port's errors could not be cleared is only
logged. -/
def program (slot : UInt32) (bitstream : UInt64) (m : Nat → UInt8) (bitstreamLen : UInt64)
    (flags : Int32) (headerLen : Int32) : FpgaResult × List (Event κ) :=
  if applyMetadata libs env m flags ≠ .ok then (applyMetadata libs env m flags, [])
  else reconfigure env slot bitstream bitstreamLen headerLen

def underLock (slot : UInt32) (bitstream : UInt64) (m : Nat → UInt8) (bitstreamLen : UInt64)
    (flags : Int32) : FpgaResult × Option κ × List (Event κ) :=
  if env.fddev < 0 then (.invalidParam, none, [])
  else
    match (validateBitstream libs env bitstream bitstreamLen).value m with
    | (.ok, headerLen) =>
      if flags &&& fpgaReconfForce = 0 then
        match openAccel env with
        | (.ok, accel, opened) =>
          let (result, events) := program libs env slot bitstream m bitstreamLen flags headerLen
          (result, accel, .valid :: (opened ++ events))
        | (result, accel, opened) => (result, accel, .valid :: opened)
      else
        let (result, events) := program libs env slot bitstream m bitstreamLen flags headerLen
        (result, none, .valid :: events)
    | _ => (.invalidParam, none, [])

def xfpgaFpgaReconfigureSlot (slot : UInt32) (bitstream : UInt64) (m : Nat → UInt8)
    (bitstreamLen : UInt64) (flags : Int32) : FpgaResult × List (Event κ) :=
  match handleCheckAndLock env with
  | (.ok, locked) =>
    match underLock libs env slot bitstream m bitstreamLen flags with
    | (result, none, events) => (result, locked ++ events ++ [.unlock])
    | (result, some accel, events) =>
      (if env.closeChild accel ≠ .ok then .reconfError else result,
        locked ++ events ++ [.close accel, .unlock])
  | (result, locked) => (result, locked)

end

section

variable {κ : Type} {libs : Libs} {env : ReconfEnv κ}

theorem openAccel_cases (env : ReconfEnv κ) :
    ((openAccel env).1 ≠ .ok ∧ (openAccel env).2 = (none, [])) ∨
    ∃ token rest, env.children = token :: rest ∧
      (openAccel env).2 = (some token, [.open token]) := by
  rw [openAccel]
  split
  · exact .inl ⟨nofun, rfl⟩
  split
  case isTrue _ hprops => exact .inl ⟨hprops, rfl⟩
  dsimp only
  split
  case isTrue _ _ hset => exact .inl ⟨hset, rfl⟩
  split
  case isTrue _ _ _ henum => exact .inl ⟨henum, rfl⟩
  cases env.children with
  | nil => exact .inl ⟨nofun, rfl⟩
  | cons token rest =>
    dsimp only
    split
    case isTrue hopen => exact .inl ⟨hopen, rfl⟩
    case isFalse => exact .inr ⟨token, rest, rfl, rfl⟩

def portPrOf (slot : UInt32) (bitstream bitstreamLen : UInt64) (headerLen : Int32) : Event κ :=
  .portPr slot (bitstreamLen - extend headerLen).toUInt32 (bitstream + extend headerLen)

theorem reconfigure_events (env : ReconfEnv κ) (slot : UInt32) (bitstream bitstreamLen : UInt64)
    (headerLen : Int32) :
    (reconfigure env slot bitstream bitstreamLen headerLen).2 =
      if env.ioPtr.isSome then [portPrOf slot bitstream bitstreamLen headerLen] else [] := by
  rw [reconfigure, opaeFmePortPr]
  cases env.ioPtr with
  | none => rfl
  | some driver => cases driver <;> rfl

structure Ready (libs : Libs) (env : ReconfEnv κ) (bitstream : UInt64) (m : Nat → UInt8)
    (bitstreamLen : UInt64) (flags : Int32) : Prop where
  fddev : ¬ env.fddev < 0
  valid : ((validateBitstream libs env bitstream bitstreamLen).value m).1 = .ok
  accel : flags &&& fpgaReconfForce = 0 → (openAccel env).1 = .ok
  metadata : applyMetadata libs env m flags = .ok
  driver : env.ioPtr.isSome = true

structure Reaches (libs : Libs) (env : ReconfEnv κ) (bitstream : UInt64) (m : Nat → UInt8)
    (bitstreamLen : UInt64) (flags : Int32) : Prop where
  lock : env.lock = true
  magic : env.magic = true
  ready : Ready libs env bitstream m bitstreamLen flags

def held (env : ReconfEnv κ) (flags : Int32) : Option κ :=
  if flags &&& fpgaReconfForce = 0 then env.children.head? else none

def opening (accel : Option κ) : List (Event κ) := (accel.map Event.open).toList

def closing (accel : Option κ) : List (Event κ) := (accel.map Event.close).toList

/-- The events of a call that does `middle` between taking the lock and releasing it, with `accel`
left to be closed. -/
def bracket (accel : Option κ) (middle : List (Event κ)) : List (Event κ) :=
  .lock :: (middle ++ (closing accel ++ [.unlock]))

def session (accel : Option κ) (rest : List (Event κ)) : List (Event κ) :=
  .valid :: (opening accel ++ rest)

variable (slot : UInt32) (bitstream : UInt64) (m : Nat → UInt8) (bitstreamLen : UInt64)
  (flags : Int32)

abbrev headerLenOf (libs : Libs) (env : ReconfEnv κ) (bitstream : UInt64) (m : Nat → UInt8)
    (bitstreamLen : UInt64) : Int32 :=
  ((validateBitstream libs env bitstream bitstreamLen).value m).2

variable (libs env)

theorem program_cases (headerLen : Int32) :
    (applyMetadata libs env m flags = .ok ∧ env.ioPtr.isSome = true ∧
      (program libs env slot bitstream m bitstreamLen flags headerLen).2 =
        [portPrOf slot bitstream bitstreamLen headerLen]) ∨
    (¬ (applyMetadata libs env m flags = .ok ∧ env.ioPtr.isSome = true) ∧
      (program libs env slot bitstream m bitstreamLen flags headerLen).2 = []) := by
  rw [program]
  split
  case isTrue hmeta => exact .inr ⟨fun hr => hmeta hr.1, rfl⟩
  case isFalse hmeta =>
    rw [reconfigure_events]
    cases hio : env.ioPtr.isSome with
    | true => exact .inl ⟨not_not.mp hmeta, rfl, rfl⟩
    | false => exact .inr ⟨fun hr => absurd hr.2 nofun, rfl⟩

theorem underLock_cases :
    (Ready libs env bitstream m bitstreamLen flags ∧
      (underLock libs env slot bitstream m bitstreamLen flags).2 =
        (held env flags, session (held env flags) [portPrOf slot bitstream bitstreamLen
          (headerLenOf libs env bitstream m bitstreamLen)])) ∨
    (¬ Ready libs env bitstream m bitstreamLen flags ∧
      ((underLock libs env slot bitstream m bitstreamLen flags).2 = (none, []) ∨
        ∃ accel, (underLock libs env slot bitstream m bitstreamLen flags).2 =
          (accel, session accel []))) := by
  rw [underLock]
  by_cases hfd : env.fddev < 0
  · rw [if_pos hfd]
    exact .inr ⟨fun hr => hr.fddev hfd, .inl rfl⟩
  rw [if_neg hfd]
  by_cases hvalid : ((validateBitstream libs env bitstream bitstreamLen).value m).1 = .ok
  swap
  · refine .inr ⟨fun hr => hvalid hr.valid, .inl ?_⟩
    generalize (validateBitstream libs env bitstream bitstreamLen).value m = v at hvalid
    obtain ⟨result, headerLen⟩ := v
    cases result with
    | ok => exact absurd rfl hvalid
    | _ => rfl
  have hval : (validateBitstream libs env bitstream bitstreamLen).value m =
      (.ok, headerLenOf libs env bitstream m bitstreamLen) := Prod.ext hvalid rfl
  rw [hval]
  dsimp only
  have hprogram := program_cases libs env slot bitstream m bitstreamLen flags
    (headerLenOf libs env bitstream m bitstreamLen)
  by_cases hforce : flags &&& fpgaReconfForce = 0
  swap
  · rw [if_neg hforce, held, if_neg hforce]
    obtain ⟨hmeta, hio, hev⟩ | ⟨hno, hev⟩ := hprogram
    · refine .inl ⟨⟨hfd, hvalid, fun h => absurd h hforce, hmeta, hio⟩, ?_⟩
      exact congrArg (fun evs => (none, Event.valid :: evs)) hev
    · refine .inr ⟨fun hr => hno ⟨hr.metadata, hr.driver⟩, .inr ⟨none, ?_⟩⟩
      exact congrArg (fun evs => (none, Event.valid :: evs)) hev
  rw [if_pos hforce, held, if_pos hforce]
  obtain ⟨hno, hnone⟩ | ⟨token, rest, hchildren, hopen⟩ := openAccel_cases env
  · refine .inr ⟨fun hr => hno (hr.accel hforce), .inr ⟨none, ?_⟩⟩
    generalize openAccel env = o at hno hnone
    obtain ⟨result, o⟩ := o
    obtain rfl : o = (none, []) := hnone
    cases result with
    | ok => exact absurd rfl hno
    | _ => rfl
  by_cases hopened : (openAccel env).1 = .ok
  swap
  · refine .inr ⟨fun hr => hopened (hr.accel hforce), .inr ⟨some token, ?_⟩⟩
    generalize openAccel env = o at hopened hopen
    obtain ⟨result, o⟩ := o
    obtain rfl : o = (some token, [.open token]) := hopen
    cases result with
    | ok => exact absurd rfl hopened
    | _ => rfl
  have hacc : openAccel env = (.ok, some token, [.open token]) := Prod.ext hopened hopen
  rw [hacc, hchildren]
  obtain ⟨hmeta, hio, hev⟩ | ⟨hno, hev⟩ := hprogram
  · refine .inl ⟨⟨hfd, hvalid, fun _ => hopened, hmeta, hio⟩, ?_⟩
    exact congrArg (fun evs => (some token, Event.valid :: ([Event.open token] ++ evs))) hev
  · refine .inr ⟨fun hr => hno ⟨hr.metadata, hr.driver⟩, .inr ⟨some token, ?_⟩⟩
    exact congrArg (fun evs => (some token, Event.valid :: ([Event.open token] ++ evs))) hev

theorem reconfigureSlot_events (hlock : env.lock = true) (hmagic : env.magic = true)
    {accel : Option κ} {middle : List (Event κ)}
    (hunder : (underLock libs env slot bitstream m bitstreamLen flags).2 = (accel, middle)) :
    (xfpgaFpgaReconfigureSlot libs env slot bitstream m bitstreamLen flags).2 =
      bracket accel middle := by
  rw [xfpgaFpgaReconfigureSlot, handleCheckAndLock, hlock, hmagic]
  generalize underLock libs env slot bitstream m bitstreamLen flags = u at hunder
  obtain ⟨result, u⟩ := u
  obtain rfl : u = (accel, middle) := hunder
  cases accel <;> rfl

theorem reconfigureSlot_cases :
    (Reaches libs env bitstream m bitstreamLen flags ∧
      (xfpgaFpgaReconfigureSlot libs env slot bitstream m bitstreamLen flags).2 =
        bracket (held env flags) (session (held env flags) [portPrOf slot bitstream bitstreamLen
          (headerLenOf libs env bitstream m bitstreamLen)])) ∨
    (¬ Reaches libs env bitstream m bitstreamLen flags ∧
      ((xfpgaFpgaReconfigureSlot libs env slot bitstream m bitstreamLen flags).2 = [] ∨
        (xfpgaFpgaReconfigureSlot libs env slot bitstream m bitstreamLen flags).2 =
          bracket none [] ∨
        ∃ accel, (xfpgaFpgaReconfigureSlot libs env slot bitstream m bitstreamLen flags).2 =
          bracket accel (session accel []))) := by
  cases hlock : env.lock with
  | false =>
    refine .inr ⟨fun hr => absurd (hlock.symm.trans hr.lock) nofun, .inl ?_⟩
    rw [xfpgaFpgaReconfigureSlot, handleCheckAndLock, hlock]
    rfl
  | true =>
    cases hmagic : env.magic with
    | false =>
      refine .inr ⟨fun hr => absurd (hmagic.symm.trans hr.magic) nofun, .inr (.inl ?_)⟩
      rw [xfpgaFpgaReconfigureSlot, handleCheckAndLock, hlock, hmagic]
      rfl
    | true =>
      have hevents : ∀ {accel middle}, _ → _ = bracket accel middle := fun hunder =>
        reconfigureSlot_events libs env slot bitstream m bitstreamLen flags hlock hmagic hunder
      obtain ⟨hready, hunder⟩ | ⟨hno, hunder | ⟨accel, hunder⟩⟩ :=
        underLock_cases libs env slot bitstream m bitstreamLen flags
      · exact .inl ⟨⟨hlock, hmagic, hready⟩, hevents hunder⟩
      · exact .inr ⟨fun hr => hno hr.ready, .inr (.inl (hevents hunder))⟩
      · exact .inr ⟨fun hr => hno hr.ready, .inr (.inr ⟨accel, hevents hunder⟩)⟩

end

end OpaeLibs.PluginXfpga.Reconf
