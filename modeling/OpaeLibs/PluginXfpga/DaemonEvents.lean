import OpaeLibs.Lib.Refs
import OpaeLibs.PluginXfpga.Events
import OpaeLibs.PluginXfpga.WsidList

namespace OpaeLibs.PluginXfpga.DaemonEvents

open OpaeLibs.Lib.Heap OpaeLibs.Lib.Refs
open OpaeLibs.OpaeC.Props OpaeLibs.PluginXfpga OpaeLibs.PluginXfpga.WsidList
open OpaeLibs.PluginXfpga.Events (FpgaEventType FpgaToken FpgaHandle FpgaEventHandle Plugin Driver
  Ends PropsEnv DaemonEnv EventEnv checkAndLock driverRegisterEvent driverUnregisterEvent)

inductive RequestType
  | registerEvent
  | unregisterEvent
deriving DecidableEq, Repr

structure EventRequest where
  type : RequestType
  event : FpgaEventType
  objectId : UInt64
deriving DecidableEq, Repr

/-- What the daemon gets: a request, and with one to register a file descriptor. -/
structure Message where
  request : EventRequest
  fd : Option Nat
deriving DecidableEq, Repr

/-- What an open file descriptor is of. A socket has a number for its connection once it is
connected. -/
inductive File
  | device
  | eventfd
  | socket (conn : Option Nat)
deriving DecidableEq, Repr

/-- The open file descriptors, how many connections there have been, and the messages that went
out, each with its connection. -/
structure Files where
  objects : Nat → Option File
  conns : Nat
  log : List (Nat × Message)

def Files.create (f : Files) (fd : Nat) (o : File) : Files :=
  { f with objects := Function.update f.objects fd (some o) }

/-- To close a file descriptor that is not open is a fault, as it may be someone else's by then. -/
def Files.close (f : Files) (fd : Nat) : Option Files :=
  (f.objects fd).map fun _ => { f with objects := Function.update f.objects fd none }

def Files.connect (f : Files) (fd : Nat) : Files :=
  { f with
    objects := Function.update f.objects fd (some (.socket (some f.conns)))
    conns := f.conns + 1 }

def Files.send (f : Files) (fd : Nat) (m : Message) : Option Files :=
  match f.objects fd with
  | some (.socket (some conn)) => some { f with log := f.log ++ [(conn, m)] }
  | _ => none

/-- `send` tells whether the message goes out, here and below. -/
def sendEventRequest (send : Bool) (connSocket fd : Nat) (req : EventRequest) (f : Files) :
    Option (FpgaResult × Files) :=
  if send then (f.send connSocket ⟨req, some fd⟩).map fun f => (.ok, f)
  else some (.exception, f)

/-- The object ID of the handle, or with what result the call goes to `out_close_conn`. -/
def requestorId (env : PropsEnv) : Except FpgaResult UInt64 :=
  match env.props with
  | .error res => .error res.1
  | .ok prop =>
    match fpgaPropertiesGetObjectID prop with
    | .error res => .error res
    | .ok objectId => if env.destroyed ≠ .ok then .error env.destroyed else .ok objectId

def outCloseConn (result : FpgaResult) (fd : Nat) (h : FpgaHandle) (f : Files) :
    Option (FpgaResult × FpgaHandle × Files) :=
  (f.close fd).map fun f => (result, { h with fdfpgad := none }, f)

/-- The part that the two requests share. -/
def requestDaemon (props : PropsEnv) (send : UInt64 → Files → Option (FpgaResult × Files))
    (fd : Nat) (h : FpgaHandle) (f : Files) : Option (FpgaResult × FpgaHandle × Files) :=
  match requestorId props with
  | .error result => outCloseConn result fd h f
  | .ok objectId => do
    let (result, f) ← send objectId f
    if result ≠ .ok then outCloseConn result fd h f else some (.ok, h, f)

def daemonRegisterEvent (env : DaemonEnv) (eventType : FpgaEventType) (eh : FpgaEventHandle)
    (h : FpgaHandle) (f : Files) : Option (FpgaResult × FpgaHandle × Files) :=
  let register := fun fd => requestDaemon env.props
    (fun objectId => sendEventRequest env.send fd eh.fd ⟨.registerEvent, eventType, objectId⟩) fd
  match h.fdfpgad with
  | some fd => register fd h f
  | none =>
    match env.socket with
    | none => some (.exception, h, f)
    | some fd =>
      let h := { h with fdfpgad := some fd }
      let f := f.create fd (.socket none)
      if !env.connect then outCloseConn .noDaemon fd h f else register fd h (f.connect fd)

def daemonUnregisterEvent (env : DaemonEnv) (eventType : FpgaEventType) (h : FpgaHandle)
    (f : Files) : Option (FpgaResult × FpgaHandle × Files) :=
  match h.fdfpgad with
  | none => some (.invalidParam, h, f)
  | some fd => requestDaemon env.props (fun objectId f =>
      if env.send then
        (f.send fd ⟨⟨.unregisterEvent, eventType, objectId⟩, none⟩).map fun f => (.ok, f)
      else some (.exception, f)) fd h f

/-- The plugin's objects, the file descriptor of the device that each handle has, and the open file
descriptors. -/
structure Process where
  plugin : Plugin
  fddev : Nat → Nat
  files : Files

/-- As `Events.eventCall`, with the file descriptors. -/
def eventCall (driver : Ends → Option (FpgaResult × Ends))
    (daemon : FpgaHandle → FpgaEventHandle → Files → Option (FpgaResult × FpgaHandle × Files))
    (s : Process) (handle : Option Nat) (eventType : FpgaEventType) (eventHandle : Option Nat) :
    Option (FpgaResult × Process) :=
  match checkAndLock s.plugin.handles handle, checkAndLock s.plugin.eventHandles eventHandle with
  | some (handle, h), some (eventHandle, eh) => do
    if !h.token.magic then return (.invalidParam, s)
    else if eventType = .interrupt ∧ ¬['p', 'o', 'r', 't'] <:+: h.token.devpath then
      return (.invalidParam, s)
    else
      let (res, x) ← driver ⟨h, eh, s.plugin.driver⟩
      let (res, h, files) ← if res = .notSupported then daemon x.handle x.eventHandle s.files
        else some (res, x.handle, s.files)
      return (res, { s with
        plugin := ⟨s.plugin.handles.set handle h,
          s.plugin.eventHandles.set eventHandle x.eventHandle, x.driver⟩
        files := files })
  | _, _ => some (.invalidParam, s)

def fpgaRegisterEvent (env : EventEnv) (s : Process) (handle : Option Nat)
    (eventType : FpgaEventType) (eventHandle : Option Nat) (flags : UInt32) :
    Option (FpgaResult × Process) :=
  eventCall (driverRegisterEvent env eventType flags)
    (fun h eh => daemonRegisterEvent env.daemon eventType eh h) s handle eventType eventHandle

def fpgaUnregisterEvent (env : EventEnv) (s : Process) (handle : Option Nat)
    (eventType : FpgaEventType) (eventHandle : Option Nat) : Option (FpgaResult × Process) :=
  eventCall (driverUnregisterEvent env eventType)
    (fun h _ => daemonUnregisterEvent env.daemon eventType h) s handle eventType eventHandle

/-- `open` fails with an error number, of which two are told from the others. -/
inductive OpenError
  | acces
  | busy
  | other
deriving DecidableEq, Repr

/-- `open` is asked for a path, and whether exclusively. -/
structure OpenEnv where
  malloc : Bool
  mmioMem : Bool × Bool
  wsidMem : Bool × Bool
  openFile : List Char → Bool → Except OpenError Nat
  mutexattr : Bool
  mutex : Bool

abbrev fpgaOpenShared : UInt32 := 1

def fpgaOpen (env : OpenEnv) (s : Process) (token : Option FpgaToken) (handle : Bool)
    (flags : UInt32) : Option (FpgaResult × Process) :=
  match token with
  | none => some (.invalidParam, s)
  | some token =>
    if !handle then some (.invalidParam, s)
    else if flags &&& ~~~fpgaOpenShared ≠ 0 then some (.invalidParam, s)
    else if !token.magic then some (.invalidParam, s)
    else if !env.malloc then some (.noMemory, s)
    else if (wsidTrackerInit env.mmioMem 4).isNone then some (.noMemory, s)
    else if (wsidTrackerInit env.wsidMem 16384).isNone then some (.noMemory, s)
    else
      match env.openFile token.devpath (flags &&& fpgaOpenShared = 0) with
      | .error .acces => some (.noAccess, s)
      | .error .busy => some (.busy, s)
      | .error .other => some (.noDriver, s)
      | .ok fddev => do
        let files := s.files.create fddev .device
        -- what fails from here on goes through `out_free`, which closes the device again
        if !env.mutexattr || !env.mutex then
          let files ← files.close fddev
          return (.exception, { s with files := files })
        else
          return (.ok, { s with
            plugin := { s.plugin with handles := s.plugin.handles.alloc ⟨token, none, 0, 0⟩ }
            fddev := Function.update s.fddev s.plugin.handles.next fddev
            files := files })

def fpgaClose (s : Process) (handle : Option Nat) : Option (FpgaResult × Process) :=
  match checkAndLock s.plugin.handles handle with
  | none => some (.invalidParam, s)
  | some (id, h) => do
    let files ← s.files.close (s.fddev id)
    let files ← match h.fdfpgad with
      | none => some files
      | some fd => files.close fd
    return (.ok, { s with
      plugin := { s.plugin with handles := s.plugin.handles.free id }
      files := files })

/-- The flags of a new event handle are whatever is in memory. -/
structure CreateEnv where
  malloc : Bool
  eventfd : Option Nat
  mutexattr : Bool
  mutex : Bool
  flags : UInt32

def fpgaCreateEventHandle (env : CreateEnv) (s : Process) (eventHandle : Bool) :
    Option (FpgaResult × Process) :=
  if !eventHandle then some (.invalidParam, s)
  else if !env.malloc then some (.noMemory, s)
  else
    match env.eventfd with
    | none => some (.exception, s)
    | some fd =>
      let files := s.files.create fd .eventfd
      -- neither `out_free` nor `out_attr_destroy` closes the descriptor
      if !env.mutexattr || !env.mutex then some (.exception, { s with files := files })
      else some (.ok, { s with
        plugin := { s.plugin with
          eventHandles := s.plugin.eventHandles.alloc ⟨fd, env.flags⟩ }
        files := files })

def fpgaDestroyEventHandle (s : Process) (eventHandle : Option Nat) :
    Option (FpgaResult × Process) :=
  match checkAndLock s.plugin.eventHandles eventHandle with
  | none => some (.invalidParam, s)
  | some (id, eh) => do
    let files ← s.files.close eh.fd
    return (.ok, { s with
      plugin := { s.plugin with eventHandles := s.plugin.eventHandles.free id }
      files := files })

theorem close_eq {f : Files} {fd : Nat} {o : File} (hfd : f.objects fd = some o) :
    f.close fd = some { f with objects := Function.update f.objects fd none } := by
  rw [Files.close, hfd]
  rfl

section Daemon

variable {env : DaemonEnv} {eventType : FpgaEventType} {eh : FpgaEventHandle} {h : FpgaHandle}
variable {f : Files} {fd conn : Nat}

/-- Everything that a request to the daemon can come to; `message` is what an object ID is sent
in. -/
inductive Talks (props : PropsEnv) (message : UInt64 → Message) (h : FpgaHandle) (f : Files) :
    FpgaResult → FpgaHandle → Files → Prop
  | kept {res : FpgaResult} (hfd : h.fdfpgad = none) (hres : res ≠ .ok) :
      Talks props message h f res h f
  | refused {res : FpgaResult} {conns : Nat} (hfd : h.fdfpgad = none) (hres : res ≠ .ok)
      (hconns : f.conns ≤ conns) : Talks props message h f res h { f with conns := conns }
  | closed {res : FpgaResult} {fd : Nat} (hfd : h.fdfpgad = some fd) (hres : res ≠ .ok) :
      Talks props message h f res { h with fdfpgad := none }
        { f with objects := Function.update f.objects fd none }
  | sent {objectId : UInt64} {fd conn : Nat} (hid : requestorId props = .ok objectId)
      (hfd : h.fdfpgad = some fd) (hconn : f.objects fd = some (.socket (some conn))) :
      Talks props message h f .ok h { f with log := f.log ++ [(conn, message objectId)] }
  | connected {objectId : UInt64} {fd : Nat} (hid : requestorId props = .ok objectId)
      (hfd : h.fdfpgad = none) (hnew : f.objects fd = none) :
      Talks props message h f .ok { h with fdfpgad := some fd }
        ⟨Function.update f.objects fd (some (.socket (some f.conns))), f.conns + 1,
          f.log ++ [(f.conns, message objectId)]⟩

theorem requestorId_ne_ok {props : PropsEnv} {res : FpgaResult}
    (h : requestorId props = .error res) : res ≠ .ok := by
  unfold requestorId at h
  split at h
  · next e he =>
    cases h
    exact e.2
  · split at h
    · next prop hprop e he =>
      cases h
      unfold fpgaPropertiesGetObjectID getField at he
      split at he <;> cases he
      exact FpgaResult.notFound_ne_ok
    · split at h <;> cases h
      assumption

theorem events_requestDaemon_eq (env : DaemonEnv) (h : FpgaHandle) :
    Events.requestDaemon env h = match requestorId env.props with
      | .error res => (res, { h with fdfpgad := none })
      | .ok _ => if env.send then (.ok, h) else (.exception, { h with fdfpgad := none }) := by
  unfold Events.requestDaemon requestorId
  cases env.props.props with
  | error res => rfl
  | ok prop =>
    dsimp only
    cases fpgaPropertiesGetObjectID prop with
    | error res => rfl
    | ok objectId =>
      by_cases hdestroyed : env.props.destroyed = .ok
      · cases hsend : env.send <;> simp [hdestroyed]
      · simp [hdestroyed]

theorem requestDaemon_talks (env : DaemonEnv) (message : UInt64 → Message)
    {out : UInt64 → Files → Option (FpgaResult × Files)}
    (hout : ∀ objectId f, out objectId f = if env.send then
      (f.send fd (message objectId)).map fun f => (.ok, f) else some (.exception, f))
    (hh : h.fdfpgad = some fd) (hfd : f.objects fd = some (.socket (some conn))) :
    let r := Events.requestDaemon env h
    ∃ f', requestDaemon env.props out fd h f = some (r.1, r.2, f') ∧
      Talks env.props message h f r.1 r.2 f' := by
  have hclose : ∀ res, outCloseConn res fd h f = some (res, { h with fdfpgad := none },
      { f with objects := Function.update f.objects fd none }) := by
    intro res
    simp [outCloseConn, Files.close, hfd]
  rw [events_requestDaemon_eq, requestDaemon]
  cases hid : requestorId env.props with
  | error res => exact ⟨_, hclose res, .closed hh (requestorId_ne_ok hid)⟩
  | ok objectId =>
    cases hsend : env.send with
    | false =>
      refine ⟨_, ?_, .closed hh FpgaResult.exception_ne_ok⟩
      simp [hout, hsend, hclose]
    | true =>
      refine ⟨_, ?_, .sent hid hh hfd⟩
      simp [hout, hsend, Files.send, hfd]

/-- What a handle has to its name for the daemon is a connected socket. -/
def Connected (h : FpgaHandle) (f : Files) : Prop :=
  ∀ fd, h.fdfpgad = some fd → ∃ conn, f.objects fd = some (.socket (some conn))

theorem set_fdfpgad_none (hh : h.fdfpgad = none) (o : Option Nat) :
    ({ { h with fdfpgad := o } with fdfpgad := none } : FpgaHandle) = h := by
  rw [← hh]

theorem Talks.of_connect {props : PropsEnv} {message : UInt64 → Message} {res : FpgaResult}
    {h' : FpgaHandle} {f' : Files} (hh : h.fdfpgad = none) (hnew : f.objects fd = none)
    (ht : Talks props message { h with fdfpgad := some fd }
      ((f.create fd (.socket none)).connect fd) res h' f') : Talks props message h f res h' f' := by
  have hself : Function.update f.objects fd none = f.objects :=
    Function.update_eq_self_iff.mpr hnew.symm
  cases ht with
  | kept hsome => cases hsome
  | refused hsome => cases hsome
  | connected _ hsome => cases hsome
  | closed hsome hres =>
    obtain rfl := Option.some.inj hsome
    rw [set_fdfpgad_none hh]
    have hrefused : Talks props message h f res h { f with conns := f.conns + 1 } :=
      .refused hh hres (Nat.le_succ f.conns)
    simpa [Files.create, Files.connect, hself] using hrefused
  | sent hid hsome hconn =>
    obtain rfl := Option.some.inj hsome
    simp only [Files.connect, Function.update_self, Option.some.injEq, File.socket.injEq] at hconn
    subst hconn
    have hconnected : Talks props message h f .ok _ _ := .connected hid hh hnew
    simpa [Files.create, Files.connect] using hconnected

theorem daemonRegisterEvent_talks (eventType : FpgaEventType) (eh : FpgaEventHandle)
    (hh : Connected h f) (hsocket : ∀ fd, env.socket = some fd → f.objects fd = none) :
    let r := Events.daemonRegisterEvent env h
    ∃ f', daemonRegisterEvent env eventType eh h f = some (r.1, r.2, f') ∧
      Talks env.props (fun objectId => ⟨⟨.registerEvent, eventType, objectId⟩, some eh.fd⟩) h f
        r.1 r.2 f' := by
  unfold daemonRegisterEvent Events.daemonRegisterEvent
  cases hfd : h.fdfpgad with
  | some fd =>
    obtain ⟨conn, hconn⟩ := hh fd hfd
    exact requestDaemon_talks env _ (fun objectId f => rfl) hfd hconn
  | none =>
    cases hs : env.socket with
    | none => exact ⟨f, rfl, .kept hfd FpgaResult.exception_ne_ok⟩
    | some fd =>
      have hnew := hsocket fd hs
      cases hconnect : env.connect with
      | false =>
        have hself : Function.update f.objects fd none = f.objects :=
          Function.update_eq_self_iff.mpr hnew.symm
        have hres : FpgaResult.noDaemon ≠ .ok := by decide
        refine ⟨_, ?_, .refused hfd hres (Nat.le_refl f.conns)⟩
        simp [outCloseConn, Files.close, Files.create, hself, ← hfd]
      | true =>
        obtain ⟨f', hr, ht⟩ := requestDaemon_talks env
          (fun objectId => ⟨⟨.registerEvent, eventType, objectId⟩, some eh.fd⟩)
          (h := { h with fdfpgad := some fd }) (f := (f.create fd (.socket none)).connect fd)
          (fun objectId f => rfl) rfl (Function.update_self ..)
        exact ⟨f', hr, ht.of_connect hfd hnew⟩

theorem daemonUnregisterEvent_talks (eventType : FpgaEventType) (hh : Connected h f) :
    let r := Events.daemonUnregisterEvent env h
    ∃ f', daemonUnregisterEvent env eventType h f = some (r.1, r.2, f') ∧
      Talks env.props (fun objectId => ⟨⟨.unregisterEvent, eventType, objectId⟩, none⟩) h f
        r.1 r.2 f' := by
  unfold daemonUnregisterEvent Events.daemonUnregisterEvent
  cases hfd : h.fdfpgad with
  | none => exact ⟨f, rfl, .kept hfd FpgaResult.invalidParam_ne_ok⟩
  | some fd =>
    obtain ⟨conn, hconn⟩ := hh fd hfd
    exact requestDaemon_talks env _ (fun objectId f => rfl) hfd hconn

end Daemon

section Driver

/-- What the daemon is asked with is not touched by the driver. -/
structure SameEnds (x x' : Ends) : Prop where
  fdfpgad : x'.handle.fdfpgad = x.handle.fdfpgad
  fd : x'.eventHandle.fd = x.eventHandle.fd

theorem sameEnds_refl (x : Ends) : SameEnds x x := ⟨rfl, rfl⟩

theorem sendErrEventRequest_sameEnds {set : FpgaResult → Option Nat → Ends → FpgaResult × Ends}
    (hset : ∀ res fd x, SameEnds x (set res fd x).2) (env : EventEnv) (x : Ends) :
    SameEnds x (Events.sendErrEventRequest set env x).2 := by
  unfold Events.sendErrEventRequest
  split
  · exact sameEnds_refl x
  · split
    · exact hset ..
    · exact sameEnds_refl x

theorem sendFmeEventRequest_sameEnds (env : EventEnv) (op : Events.IrqOperation) (x : Ends) :
    SameEnds x (Events.sendFmeEventRequest env op x).2 := by
  refine sendErrEventRequest_sameEnds (fun res fd x => ?_) env x
  unfold Events.opaeDflFmeSetErrIrq
  split <;> exact ⟨rfl, rfl⟩

theorem sendPortEventRequest_sameEnds (env : EventEnv) (op : Events.IrqOperation) (x : Ends) :
    SameEnds x (Events.sendPortEventRequest env op x).2 := by
  refine sendErrEventRequest_sameEnds (fun res fd x => ?_) env x
  unfold Events.opaeDflPortSetErrIrq
  split <;> exact ⟨rfl, rfl⟩

theorem queryNumIrqs_fdfpgad {env : EventEnv} {h h' : FpgaHandle}
    (hq : Events.queryNumIrqs env h = .ok h') : h'.fdfpgad = h.fdfpgad := by
  unfold Events.queryNumIrqs at hq
  repeat' split at hq
  all_goals
    cases hq
    try rfl

theorem setUserIrq_sameEnds (env : EventEnv) (flags : UInt32) (data : Option Nat) (x : Ends) :
    SameEnds x (Events.setUserIrq env flags data x).2 := by
  by_cases hset : env.setIrq = .ok
  · simp only [Events.setUserIrq, Events.opaeDflPortSetUserIrq, if_pos hset]
    exact ⟨rfl, rfl⟩
  · simp only [Events.setUserIrq, Events.opaeDflPortSetUserIrq, if_neg hset]
    exact ⟨rfl, rfl⟩

theorem sendUafuEventRequest_sameEnds {env : EventEnv} {op : Events.IrqOperation} {flags : UInt32}
    {x x' : Ends} {res : FpgaResult}
    (h : Events.sendUafuEventRequest env op flags x = some (res, x')) : SameEnds x x' := by
  unfold Events.sendUafuEventRequest at h
  cases hq : Events.queryNumIrqs env x.handle with
  | error e =>
    rw [hq] at h
    cases h
    exact sameEnds_refl x
  | ok h₁ =>
    have hfd := queryNumIrqs_fdfpgad hq
    rw [hq] at h
    cases op with
    | assign =>
      dsimp only at h
      split at h
      · cases h
        exact ⟨hfd, rfl⟩
      · obtain ⟨mask, -, h⟩ := Option.bind_eq_some_iff.mp h
        split at h
        · cases h
          exact ⟨hfd, rfl⟩
        · obtain ⟨hset, hset'⟩ := setUserIrq_sameEnds env flags (some x.eventHandle.fd)
            ⟨{ h₁ with irqSet := h₁.irqSet ||| mask }, { x.eventHandle with flags := flags },
              x.driver⟩
          cases h
          exact ⟨hset.trans hfd, hset'⟩
    | deassign =>
      obtain ⟨mask, -, h⟩ := Option.bind_eq_some_iff.mp h
      split at h
      · cases h
        exact ⟨hfd, rfl⟩
      · obtain ⟨hset, hset'⟩ := setUserIrq_sameEnds env x.eventHandle.flags none
          ⟨{ h₁ with irqSet := h₁.irqSet &&& ~~~mask }, x.eventHandle, x.driver⟩
        cases h
        exact ⟨hset.trans hfd, hset'⟩

theorem driverEvent_sameEnds {op : Events.IrqOperation} {env : EventEnv}
    {eventType : FpgaEventType} {flags : UInt32} {x x' : Ends} {res : FpgaResult}
    (h : Events.driverEvent op env eventType flags x = some (res, x')) : SameEnds x x' := by
  unfold Events.driverEvent at h
  cases eventType with
  | error =>
    dsimp only at h
    split at h
    · have hsame := sendFmeEventRequest_sameEnds env op x
      rwa [Option.some.inj h] at hsame
    · have hsame := sendPortEventRequest_sameEnds env op x
      rwa [Option.some.inj h] at hsame
    · cases h
      exact sameEnds_refl x
  | interrupt =>
    dsimp only at h
    split at h
    · cases h
      exact sameEnds_refl x
    · split at h
      · cases h
        exact sameEnds_refl x
      · exact sendUafuEventRequest_sameEnds h
  | powerThermal =>
    cases h
    exact sameEnds_refl x
  | unknown =>
    cases h
    exact sameEnds_refl x

end Driver

/-- The handle that a call asks the daemon for, and what it asks, if it does. -/
def asked (driver : Ends → Option (FpgaResult × Ends)) (props : PropsEnv)
    (message : FpgaEventHandle → UInt64 → Message) (p : Plugin) (handle : Option Nat)
    (eventType : FpgaEventType) (eventHandle : Option Nat) : Option (Nat × Message) :=
  match checkAndLock p.handles handle, checkAndLock p.eventHandles eventHandle with
  | some (id, h), some (_, eh) =>
    if h.token.magic ∧ (eventType = .interrupt → ['p', 'o', 'r', 't'] <:+: h.token.devpath) then
      match driver ⟨h, eh, p.driver⟩, requestorId props with
      | some (.notSupported, _), .ok objectId => some (id, message eh objectId)
      | _, _ => none
    else none
  | _, _ => none

def daemonFd (p : Plugin) (id : Nat) : Option (Option Nat) :=
  (p.handles.get id).map FpgaHandle.fdfpgad

def eventFd (p : Plugin) (id : Nat) : Option Nat :=
  (p.eventHandles.get id).map FpgaEventHandle.fd

/-- What a call does to the file descriptors: nothing, or what comes of talking to the daemon on
behalf of one handle. -/
inductive Answers (props : PropsEnv) (ask : Option (Nat × Message)) (s : Process) :
    FpgaResult → Plugin → Files → Prop
  | quiet {res : FpgaResult} {p : Plugin} (hdaemon : ∀ id, daemonFd p id = daemonFd s.plugin id)
      (hevent : ∀ id, eventFd p id = eventFd s.plugin id) (hask : res = .ok → ask = none) :
      Answers props ask s res p s.files
  | talks {res : FpgaResult} {p : Plugin} {files : Files} {id : Nat} {h h' : FpgaHandle}
      {message : UInt64 → Message} (hid : daemonFd s.plugin id = some h.fdfpgad)
      (hdaemon : daemonFd p = Function.update (daemonFd s.plugin) id (some h'.fdfpgad))
      (hevent : ∀ id, eventFd p id = eventFd s.plugin id)
      (hask : ∀ objectId, requestorId props = .ok objectId → ask = some (id, message objectId))
      (htalks : Talks props message h s.files res h' files) : Answers props ask s res p files

theorem checkAndLock_get {α : Type} {objects : Slots α} {id : Option Nat} {i : Nat} {a : α}
    (h : checkAndLock objects id = some (i, a)) : objects.get i = some a := by
  obtain ⟨j, -, hj⟩ := Option.bind_eq_some_iff.mp h
  obtain ⟨b, hb, he⟩ := Option.map_eq_some_iff.mp hj
  cases he
  exact hb

theorem daemonFd_set {handles : Slots FpgaHandle} {id : Nat} {h : FpgaHandle}
    (hid : handles.get id = some h) (h' : FpgaHandle) (eventHandles : Slots FpgaEventHandle)
    (driver : Driver) (p : Plugin) (hp : p.handles = handles) :
    daemonFd ⟨handles.set id h', eventHandles, driver⟩ =
      Function.update (daemonFd p) id (some h'.fdfpgad) := by
  subst hp
  funext j
  rw [daemonFd, Slots.get_set hid]
  by_cases hj : j = id
  · subst hj
    simp
  · simp [hj, daemonFd]

theorem eventFd_set {p : Plugin} {id : Nat} {eh eh' : FpgaEventHandle}
    (hid : p.eventHandles.get id = some eh) (hfd : eh'.fd = eh.fd) (handles : Slots FpgaHandle)
    (driver : Driver) (j : Nat) :
    eventFd ⟨handles, p.eventHandles.set id eh', driver⟩ j = eventFd p j := by
  rw [eventFd, Slots.get_set hid]
  by_cases hj : j = id
  · subst hj
    simp [eventFd, hid, hfd]
  · simp [hj, eventFd]

section Answers

variable {s : Process} {props : PropsEnv} {ask : Option (Nat × Message)} {id eid : Nat}
  {h h' : FpgaHandle} {eh : FpgaEventHandle} {x : Ends} {res : FpgaResult} {files : Files}
  {message : UInt64 → Message}

theorem Answers.refused : Answers props ask s .invalidParam s.plugin s.files :=
  .quiet (fun _ => rfl) (fun _ => rfl) fun hres => absurd hres FpgaResult.invalidParam_ne_ok

theorem Answers.of_driver (hid : s.plugin.handles.get id = some h)
    (heid : s.plugin.eventHandles.get eid = some eh) (hx : SameEnds ⟨h, eh, s.plugin.driver⟩ x)
    (hask : ask = none) :
    Answers props ask s res ⟨s.plugin.handles.set id x.handle,
      s.plugin.eventHandles.set eid x.eventHandle, x.driver⟩ s.files := by
  refine .quiet (fun j => ?_) (eventFd_set heid hx.fd _ _) fun _ => hask
  rw [daemonFd_set hid _ _ _ _ rfl, hx.fdfpgad]
  by_cases hj : j = id
  · subst hj
    simp [daemonFd, hid]
  · rw [Function.update_of_ne hj]

theorem Answers.of_daemon (hid : s.plugin.handles.get id = some h)
    (heid : s.plugin.eventHandles.get eid = some eh) (hx : SameEnds ⟨h, eh, s.plugin.driver⟩ x)
    (hask : ∀ objectId, requestorId props = .ok objectId → ask = some (id, message objectId))
    (htalks : Talks props message x.handle s.files res h' files) :
    Answers props ask s res ⟨s.plugin.handles.set id h',
      s.plugin.eventHandles.set eid x.eventHandle, x.driver⟩ files := by
  refine .talks ?_ (daemonFd_set hid _ _ _ _ rfl) (eventFd_set heid hx.fd _ _) hask htalks
  rw [daemonFd, hid, hx.fdfpgad]
  rfl

end Answers

theorem eventCall_answers (driver : Ends → Option (FpgaResult × Ends))
    (events : FpgaHandle → FpgaResult × FpgaHandle) (props : PropsEnv)
    (message : FpgaEventHandle → UInt64 → Message)
    {daemon : FpgaHandle → FpgaEventHandle → Files → Option (FpgaResult × FpgaHandle × Files)}
    {s : Process}
    (hdriver : ∀ x res x', driver x = some (res, x') → SameEnds x x')
    (hdaemon : ∀ h eh, Connected h s.files → ∃ f,
      daemon h eh s.files = some ((events h).1, (events h).2, f) ∧
        Talks props (message eh) h s.files (events h).1 (events h).2 f)
    (hmessage : ∀ eh eh' : FpgaEventHandle, eh.fd = eh'.fd → message eh = message eh')
    (hconnected : ∀ id h, s.plugin.handles.get id = some h → Connected h s.files)
    (handle : Option Nat) (eventType : FpgaEventType) (eventHandle : Option Nat) :
    (Events.eventCall driver events s.plugin handle eventType eventHandle = none ∧
      eventCall driver daemon s handle eventType eventHandle = none) ∨
    ∃ res p files, Events.eventCall driver events s.plugin handle eventType eventHandle =
        some (res, p) ∧
      eventCall driver daemon s handle eventType eventHandle =
        some (res, { s with plugin := p, files := files }) ∧
      Answers props (asked driver props message s.plugin handle eventType eventHandle) s
        res p files := by
  unfold Events.eventCall eventCall asked
  cases hh : checkAndLock s.plugin.handles handle with
  | none => exact .inr ⟨_, _, _, rfl, rfl, .refused⟩
  | some r =>
    obtain ⟨id, h⟩ := r
    cases he : checkAndLock s.plugin.eventHandles eventHandle with
    | none => exact .inr ⟨_, _, _, rfl, rfl, .refused⟩
    | some r =>
      obtain ⟨eid, eh⟩ := r
      have hid := checkAndLock_get hh
      have heid := checkAndLock_get he
      by_cases hmagic : h.token.magic
      · by_cases hport : eventType = .interrupt ∧ ¬['p', 'o', 'r', 't'] <:+: h.token.devpath
        · refine .inr ⟨.invalidParam, s.plugin, s.files, ?_, ?_, .refused⟩
          · simp only [hmagic, if_pos hport]
            rfl
          · simp only [hmagic, if_pos hport]
            rfl
        · have hasks : h.token.magic = true ∧
              (eventType = .interrupt → ['p', 'o', 'r', 't'] <:+: h.token.devpath) :=
            ⟨hmagic, not_and_not_right.mp hport⟩
          simp only [hmagic, Bool.not_true, Bool.false_eq_true, if_false, if_neg hport,
            Option.pure_def, Option.bind_eq_bind]
          cases hd : driver ⟨h, eh, s.plugin.driver⟩ with
          | none => exact .inl ⟨rfl, rfl⟩
          | some r =>
            obtain ⟨res, x⟩ := r
            have hx := hdriver _ _ _ hd
            by_cases hres : res = .notSupported
            · subst hres
              have hconn : Connected x.handle s.files := by
                intro fd hfd
                exact hconnected id h hid fd (hx.fdfpgad.symm.trans hfd)
              obtain ⟨files, hcall, htalks⟩ := hdaemon x.handle x.eventHandle hconn
              rw [hmessage x.eventHandle eh hx.fd] at htalks
              refine .inr ⟨(events x.handle).1, ⟨s.plugin.handles.set id (events x.handle).2,
                s.plugin.eventHandles.set eid x.eventHandle, x.driver⟩, files, ?_, ?_,
                .of_daemon hid heid hx ?_ htalks⟩
              · simp
              · simp [hcall]
              · intro objectId hobject
                simp only [true_and, if_pos hasks.2, hobject]
            · refine .inr ⟨res, ⟨s.plugin.handles.set id x.handle,
                s.plugin.eventHandles.set eid x.eventHandle, x.driver⟩, s.files, ?_, ?_,
                .of_driver hid heid hx ?_⟩
              · simp [hres]
              · simp [hres]
              · simp only [true_and, if_pos hasks.2]
                split
                · next heq _ => exact absurd (Prod.mk.inj (Option.some.inj heq)).1 hres
                · rfl
      · refine .inr ⟨.invalidParam, s.plugin, s.files, ?_, ?_, .refused⟩
        · simp only [hmagic]
          rfl
        · simp only [hmagic]
          rfl

inductive Call
  | openHandle (env : OpenEnv) (token : Option FpgaToken) (handle : Bool) (flags : UInt32)
  | close (handle : Option Nat)
  | create (env : CreateEnv) (eventHandle : Bool)
  | destroy (eventHandle : Option Nat)
  | register (env : EventEnv) (handle : Option Nat) (eventType : FpgaEventType)
      (eventHandle : Option Nat) (flags : UInt32)
  | unregister (env : EventEnv) (handle : Option Nat) (eventType : FpgaEventType)
      (eventHandle : Option Nat)

def step (s : Process) : Call → Option (FpgaResult × Process)
  | .openHandle env token handle flags => fpgaOpen env s token handle flags
  | .close handle => fpgaClose s handle
  | .create env eventHandle => fpgaCreateEventHandle env s eventHandle
  | .destroy eventHandle => fpgaDestroyEventHandle s eventHandle
  | .register env handle eventType eventHandle flags =>
    fpgaRegisterEvent env s handle eventType eventHandle flags
  | .unregister env handle eventType eventHandle =>
    fpgaUnregisterEvent env s handle eventType eventHandle

def run (s : Process) : List Call → Option (List FpgaResult × Process)
  | [] => some ([], s)
  | c :: cs => do
    let (res, s) ← step s c
    let (results, s) ← run s cs
    some (res :: results, s)

/-- A file descriptor that a call is given by the system is not open before. -/
def Unused (f : Files) : Call → Prop
  | .openHandle env _ _ _ =>
    ∀ path excl fd, env.openFile path excl = .ok fd → f.objects fd = none
  | .create env _ => ∀ fd, env.eventfd = some fd → f.objects fd = none
  | .register env _ _ _ _ => ∀ fd, env.daemon.socket = some fd → f.objects fd = none
  | _ => True

/-- The calls on events that C does not define, which is for the shift of the interrupt's bit. -/
def Undefined (p : Plugin) : Call → Prop
  | .register env handle eventType eventHandle flags =>
    Events.fpgaRegisterEvent env p handle eventType eventHandle flags = none
  | .unregister env handle eventType eventHandle =>
    Events.fpgaUnregisterEvent env p handle eventType eventHandle = none
  | _ => False

/-- The descriptor of an event handle that could not be made complete. -/
def lostBy : Call → Option Nat
  | .create env eventHandle =>
    if eventHandle && env.malloc && (!env.mutexattr || !env.mutex) then env.eventfd else none
  | _ => none

/-- Whom a call speaks to the daemon for, and what it says. -/
def asks (p : Plugin) : Call → Option (Nat × Message)
  | .register env handle eventType eventHandle flags =>
    asked (driverRegisterEvent env eventType flags) env.daemon.props
      (fun eh objectId => ⟨⟨.registerEvent, eventType, objectId⟩, some eh.fd⟩) p handle eventType
      eventHandle
  | .unregister env handle eventType eventHandle =>
    asked (driverUnregisterEvent env eventType) env.daemon.props
      (fun _ objectId => ⟨⟨.unregisterEvent, eventType, objectId⟩, none⟩) p handle eventType
      eventHandle
  | _ => none

/-- Who has an open file descriptor: a handle for its device or for the daemon, an event handle,
or nobody any more. -/
inductive Holder
  | device (id : Nat)
  | daemon (id : Nat)
  | event (id : Nat)
  | lost (i : Nat)
deriving DecidableEq

def holds (p : Plugin) (fddev : Nat → Nat) (lost : List Nat) : Holder → Option Nat
  | .device id => (daemonFd p id).map fun _ => fddev id
  | .daemon id => (daemonFd p id).join
  | .event id => eventFd p id
  | .lost i => lost[i]?

def Fits : Holder → File → Prop
  | .device _, .device => True
  | .daemon _, .socket (some _) => True
  | .event _, .eventfd => True
  | .lost _, .eventfd => True
  | _, _ => False

abbrev Held (s : Process) (lost : List Nat) : Prop :=
  Sole Fits (holds s.plugin s.fddev lost) s.files.objects

section Steps

variable {s s' : Process} {lost : List Nat} {c : Call} {res : FpgaResult}

theorem Held.connected (hs : Held s lost) {id : Nat} {h : FpgaHandle}
    (hid : s.plugin.handles.get id = some h) : Connected h s.files := by
  intro fd hfd
  have hholds : holds s.plugin s.fddev lost (.daemon id) = some fd := by
    simp [holds, daemonFd, hid, hfd]
  obtain ⟨file, hfile, hfits⟩ := hs.fits _ _ hholds
  cases file with
  | socket conn =>
    cases conn with
    | some conn => exact ⟨conn, hfile⟩
    | none => exact hfits.elim
  | device => exact hfits.elim
  | eventfd => exact hfits.elim

theorem holds_daemon {p p' : Plugin} {id : Nat} {o : Option Nat} (fddev : Nat → Nat)
    (lost : List Nat) (hid : (daemonFd p id).isSome)
    (hdaemon : daemonFd p' = Function.update (daemonFd p) id (some o))
    (hevent : ∀ id, eventFd p' id = eventFd p id) :
    holds p' fddev lost = Function.update (holds p fddev lost) (.daemon id) o := by
  funext x
  cases x with
  | device j =>
    rw [Function.update_of_ne (by simp)]
    by_cases hj : j = id
    · subst hj
      obtain ⟨o', ho'⟩ := Option.isSome_iff_exists.mp hid
      simp [holds, hdaemon, ho']
    · simp [holds, hdaemon, hj]
  | daemon j =>
    by_cases hj : j = id
    · subst hj
      simp [holds, hdaemon]
    · simp [holds, hdaemon, hj]
  | event j => simp [holds, hevent]
  | lost i => simp [holds]

theorem Held.answers {props : PropsEnv} {ask : Option (Nat × Message)} {p : Plugin} {files : Files}
    (hs : Held s lost) (ha : Answers props ask s res p files) :
    Held { s with plugin := p, files := files } lost := by
  cases ha with
  | quiet hdaemon hevent =>
    refine hs.congr (fun x => ?_) fun _ => rfl
    cases x <;> simp [holds, hdaemon, hevent]
  | @talks _ id h h' _ hid hdaemon hevent _ htalks =>
    have hholds := holds_daemon s.fddev lost (by rw [hid]; rfl) hdaemon hevent
    have hnow : holds s.plugin s.fddev lost (.daemon id) = h.fdfpgad := by
      rw [holds, hid]
      rfl
    have hsame : h'.fdfpgad = h.fdfpgad →
        holds p s.fddev lost = holds s.plugin s.fddev lost := by
      intro heq
      rw [hholds, heq, ← hnow, Function.update_eq_self]
    cases htalks with
    | kept => exact hs.congr (congrFun (hsame rfl)) fun _ => rfl
    | refused => exact hs.congr (congrFun (hsame rfl)) fun _ => rfl
    | sent => exact hs.congr (congrFun (hsame rfl)) fun _ => rfl
    | closed hfd =>
      refine Sole.congr (hs.lose (hnow.trans hfd)) (fun x => ?_) fun _ => rfl
      rw [hholds]
    | connected _ hfd hnew =>
      have hfits : Fits (.daemon id) (.socket (some s.files.conns)) := trivial
      refine Sole.congr (hs.gain (hnow.trans hfd) hnew hfits) (fun x => ?_) fun _ => rfl
      rw [hholds]

def Speaks (p : Plugin) (f : Files) (id conn : Nat) : Prop :=
  ∃ fd, daemonFd p id = some (some fd) ∧ f.objects fd = some (.socket (some conn))

/-- Nothing is said, and no handle gets a connection. -/
structure Mute (s s' : Process) : Prop where
  log : s'.files.log = s.files.log
  conns : s'.files.conns = s.files.conns
  speaks : ∀ id conn, Speaks s'.plugin s'.files id conn → Speaks s.plugin s.files id conn

theorem mute_refl (s : Process) : Mute s s := ⟨rfl, rfl, fun _ _ h => h⟩

theorem mute_of (s : Process) {p : Plugin} {objects : Nat → Option File} (fddev : Nat → Nat)
    (hdaemon : ∀ j fd, daemonFd p j = some (some fd) → daemonFd s.plugin j = some (some fd))
    (hobjects : ∀ fd conn, objects fd = some (.socket (some conn)) →
      s.files.objects fd = some (.socket (some conn))) :
    Mute s ⟨p, fddev, { s.files with objects := objects }⟩ := by
  refine ⟨rfl, rfl, ?_⟩
  rintro j conn ⟨fd, hj, hconn⟩
  exact ⟨fd, hdaemon j fd hj, hobjects fd conn hconn⟩

theorem socket_of_update {objects : Nat → Option File} {fd fd' conn : Nat} {o : Option File}
    (ho : o ≠ some (.socket (some conn)))
    (h : Function.update objects fd o fd' = some (.socket (some conn))) :
    objects fd' = some (.socket (some conn)) := by
  have hne : fd' ≠ fd := by
    rintro rfl
    rw [Function.update_self] at h
    exact ho h
  rwa [Function.update_of_ne hne] at h

theorem daemonFd_next (p : Plugin) : daemonFd p p.handles.next = none := by
  rw [daemonFd, Slots.get_of_le (Nat.le_refl _)]
  rfl

theorem daemonFd_alloc (p : Plugin) (h : FpgaHandle) (hh : h.fdfpgad = none) (j : Nat) :
    daemonFd { p with handles := p.handles.alloc h } j =
      if j = p.handles.next then some none else daemonFd p j := by
  rw [daemonFd, Slots.get_alloc]
  split
  · rw [Option.map_some, hh]
  · rfl

theorem daemonFd_free (p : Plugin) {id : Nat} {h : FpgaHandle} (hid : p.handles.get id = some h)
    (j : Nat) : daemonFd { p with handles := p.handles.free id } j =
      if j = id then none else daemonFd p j := by
  rw [daemonFd, Slots.get_free hid]
  split <;> rfl

theorem holds_open (p : Plugin) (fddev : Nat → Nat) (lost : List Nat) (h : FpgaHandle)
    (hh : h.fdfpgad = none) (fd : Nat) :
    holds { p with handles := p.handles.alloc h } (Function.update fddev p.handles.next fd) lost =
      Function.update (holds p fddev lost) (.device p.handles.next) (some fd) := by
  have halloc := daemonFd_alloc p h hh
  funext x
  cases x with
  | device j =>
    by_cases hj : j = p.handles.next
    · subst hj
      simp [holds, halloc]
    · simp [holds, halloc, hj]
  | daemon j =>
    by_cases hj : j = p.handles.next
    · subst hj
      simp [holds, halloc, daemonFd_next]
    · simp [holds, halloc, hj]
  | event j => rfl
  | lost i => rfl

theorem eventFd_next (p : Plugin) : eventFd p p.eventHandles.next = none := by
  rw [eventFd, Slots.get_of_le (Nat.le_refl _)]
  rfl

theorem close_create {f : Files} {fd : Nat} (hnew : f.objects fd = none) (o : File) :
    (f.create fd o).close fd = some f := by
  have hself : Function.update f.objects fd none = f.objects :=
    Function.update_eq_self_iff.mpr hnew.symm
  simp [Files.close, Files.create, hself]

theorem Held.open_step {env : OpenEnv} {token : Option FpgaToken} {handle : Bool} {flags : UInt32}
    (hs : Held s lost) (hc : Unused s.files (.openHandle env token handle flags)) :
    ∃ r, fpgaOpen env s token handle flags = some r ∧ Held r.2 lost ∧ Mute s r.2 := by
  unfold fpgaOpen
  cases token with
  | none => exact ⟨_, rfl, hs, mute_refl s⟩
  | some token =>
    dsimp only
    split
    · exact ⟨_, rfl, hs, mute_refl s⟩
    split
    · exact ⟨_, rfl, hs, mute_refl s⟩
    split
    · exact ⟨_, rfl, hs, mute_refl s⟩
    split
    · exact ⟨_, rfl, hs, mute_refl s⟩
    split
    · exact ⟨_, rfl, hs, mute_refl s⟩
    split
    · exact ⟨_, rfl, hs, mute_refl s⟩
    split
    · exact ⟨_, rfl, hs, mute_refl s⟩
    · exact ⟨_, rfl, hs, mute_refl s⟩
    · exact ⟨_, rfl, hs, mute_refl s⟩
    next fddev hopen =>
      have hnew := hc _ _ _ hopen
      split
      · rw [close_create hnew]
        exact ⟨_, rfl, hs, mute_refl s⟩
      · refine ⟨_, rfl, ?_, ?_⟩
        · have hnone : holds s.plugin s.fddev lost (.device s.plugin.handles.next) = none := by
            simp [holds, daemonFd_next]
          have hfits : Fits (.device s.plugin.handles.next) .device := trivial
          refine (hs.gain hnone hnew hfits).congr (fun x => ?_) fun _ => rfl
          exact congrFun (holds_open s.plugin s.fddev lost ⟨token, none, 0, 0⟩ rfl fddev) x
        · refine mute_of s _ (fun j fd hj => ?_) fun fd conn h => socket_of_update (by simp) h
          rw [daemonFd_alloc s.plugin ⟨token, none, 0, 0⟩ rfl] at hj
          split at hj
          · cases hj
          · exact hj

theorem holds_free (p : Plugin) (fddev : Nat → Nat) (lost : List Nat) {id : Nat} {h : FpgaHandle}
    (hid : p.handles.get id = some h) :
    holds { p with handles := p.handles.free id } fddev lost =
      Function.update (Function.update (holds p fddev lost) (.device id) none) (.daemon id)
        none := by
  have hfree := daemonFd_free p hid
  funext x
  cases x with
  | device j =>
    by_cases hj : j = id
    · subst hj
      simp [holds, hfree]
    · simp [holds, hfree, hj]
  | daemon j =>
    by_cases hj : j = id
    · subst hj
      simp [holds, hfree]
    · simp [holds, hfree, hj]
  | event j => rfl
  | lost i => rfl

theorem Held.close_step (hs : Held s lost) (handle : Option Nat) :
    ∃ r, fpgaClose s handle = some r ∧ Held r.2 lost ∧ Mute s r.2 := by
  unfold fpgaClose
  cases hh : checkAndLock s.plugin.handles handle with
  | none => exact ⟨_, rfl, hs, mute_refl s⟩
  | some r =>
    obtain ⟨id, h⟩ := r
    have hid := checkAndLock_get hh
    have hdevice : holds s.plugin s.fddev lost (.device id) = some (s.fddev id) := by
      simp [holds, daemonFd, hid]
    have hdaemon : holds s.plugin s.fddev lost (.daemon id) = h.fdfpgad := by
      simp [holds, daemonFd, hid]
    obtain ⟨file, hfile, -⟩ := hs.fits _ _ hdevice
    have hclose := close_eq hfile
    have hs₁ := hs.lose hdevice
    have hdaemon₁ : Function.update (holds s.plugin s.fddev lost) (.device id) none
        (.daemon id) = h.fdfpgad := by
      rw [Function.update_of_ne (by simp), hdaemon]
    have hholds := holds_free s.plugin s.fddev lost hid
    have hkept : ∀ j fd, daemonFd { s.plugin with handles := s.plugin.handles.free id } j =
        some (some fd) → daemonFd s.plugin j = some (some fd) := by
      intro j fd hj
      rw [daemonFd_free s.plugin hid] at hj
      split at hj
      · cases hj
      · exact hj
    cases hfd : h.fdfpgad with
    | none =>
      refine ⟨(.ok, { s with
        plugin := { s.plugin with handles := s.plugin.handles.free id }
        files := { s.files with
          objects := Function.update s.files.objects (s.fddev id) none } }), ?_, ?_, ?_⟩
      · simp [hclose, hfd]
      · refine hs₁.congr (fun x => ?_) fun _ => rfl
        rw [hholds, Function.update_eq_self_iff.mpr (hdaemon₁.trans hfd).symm]
      · exact mute_of s _ hkept fun fd conn h => socket_of_update (by simp) h
    | some fd =>
      have hs₂ := hs₁.lose (hdaemon₁.trans hfd)
      obtain ⟨file', hfile', -⟩ := hs₁.fits _ _ (hdaemon₁.trans hfd)
      refine ⟨(.ok, { s with
        plugin := { s.plugin with handles := s.plugin.handles.free id }
        files := { s.files with
          objects := Function.update (Function.update s.files.objects (s.fddev id) none) fd
            none } }), ?_, ?_, ?_⟩
      · have hclose' := close_eq (f := { s.files with
          objects := Function.update s.files.objects (s.fddev id) none }) hfile'
        simp [hclose, hfd, hclose']
      · refine hs₂.congr (fun x => ?_) fun _ => rfl
        rw [hholds]
      · refine mute_of s _ hkept fun fd conn h => ?_
        exact socket_of_update (by simp) (socket_of_update (by simp) h)

theorem holds_create (p : Plugin) (fddev : Nat → Nat) (lost : List Nat) (eh : FpgaEventHandle) :
    holds { p with eventHandles := p.eventHandles.alloc eh } fddev lost =
      Function.update (holds p fddev lost) (.event p.eventHandles.next) (some eh.fd) := by
  funext x
  cases x with
  | device j => rfl
  | daemon j => rfl
  | event j =>
    by_cases hj : j = p.eventHandles.next
    · subst hj
      simp [holds, eventFd, Slots.get_alloc]
    · simp [holds, eventFd, Slots.get_alloc, hj]
  | lost i => rfl

theorem holds_destroy (p : Plugin) (fddev : Nat → Nat) (lost : List Nat) {id : Nat}
    {eh : FpgaEventHandle} (hid : p.eventHandles.get id = some eh) :
    holds { p with eventHandles := p.eventHandles.free id } fddev lost =
      Function.update (holds p fddev lost) (.event id) none := by
  funext x
  cases x with
  | device j => rfl
  | daemon j => rfl
  | event j =>
    by_cases hj : j = id
    · subst hj
      simp [holds, eventFd, Slots.get_free hid]
    · simp [holds, eventFd, Slots.get_free hid, hj]
  | lost i => rfl

theorem holds_lost (p : Plugin) (fddev : Nat → Nat) (lost : List Nat) (fd : Nat) :
    holds p fddev (lost ++ [fd]) =
      Function.update (holds p fddev lost) (.lost lost.length) (some fd) := by
  funext x
  cases x with
  | device j => rfl
  | daemon j => rfl
  | event j => rfl
  | lost i =>
    by_cases hi : i = lost.length
    · subst hi
      simp [holds]
    · have hne : (Holder.lost i) ≠ .lost lost.length := by simpa using hi
      rw [Function.update_of_ne hne, holds, holds, List.getElem?_append]
      split
      · rfl
      · obtain ⟨k, hk⟩ : ∃ k, i - lost.length = k + 1 := ⟨i - lost.length - 1, by omega⟩
        rw [hk, List.getElem?_eq_none (by omega : lost.length ≤ i)]
        rfl

theorem Held.destroy_step (hs : Held s lost) (eventHandle : Option Nat) :
    ∃ r, fpgaDestroyEventHandle s eventHandle = some r ∧ Held r.2 lost ∧ Mute s r.2 := by
  unfold fpgaDestroyEventHandle
  cases hh : checkAndLock s.plugin.eventHandles eventHandle with
  | none => exact ⟨_, rfl, hs, mute_refl s⟩
  | some r =>
    obtain ⟨id, eh⟩ := r
    have hid := checkAndLock_get hh
    have hevent : holds s.plugin s.fddev lost (.event id) = some eh.fd := by
      simp [holds, eventFd, hid]
    obtain ⟨file, hfile, -⟩ := hs.fits _ _ hevent
    refine ⟨(.ok, { s with
      plugin := { s.plugin with eventHandles := s.plugin.eventHandles.free id }
      files := { s.files with
        objects := Function.update s.files.objects eh.fd none } }), ?_, ?_, ?_⟩
    · simp [close_eq hfile]
    · refine (hs.lose hevent).congr (fun x => ?_) fun _ => rfl
      rw [holds_destroy s.plugin s.fddev lost hid]
    · exact mute_of s _ (fun _ _ h => h) fun fd conn h => socket_of_update (by simp) h

theorem Held.create_step {env : CreateEnv} {eventHandle : Bool} (hs : Held s lost)
    (hc : Unused s.files (.create env eventHandle)) :
    ∃ r, fpgaCreateEventHandle env s eventHandle = some r ∧
      Held r.2 (lost ++ (lostBy (.create env eventHandle)).toList) ∧ Mute s r.2 := by
  unfold fpgaCreateEventHandle
  cases eventHandle with
  | false => exact ⟨_, rfl, by simpa [lostBy] using hs, mute_refl s⟩
  | true =>
    cases hmalloc : env.malloc with
    | false => exact ⟨_, rfl, by simpa [lostBy, hmalloc] using hs, mute_refl s⟩
    | true =>
      cases hfd : env.eventfd with
      | none => exact ⟨_, rfl, by simpa [lostBy, hmalloc, hfd] using hs, mute_refl s⟩
      | some fd =>
        have hnew := hc fd hfd
        by_cases hmutex : !env.mutexattr || !env.mutex
        · have hlost : lostBy (.create env true) = some fd := by simp [lostBy, hmalloc, hmutex, hfd]
          have hfits : Fits (.lost lost.length) .eventfd := trivial
          refine ⟨(.exception, { s with files := s.files.create fd .eventfd }), ?_, ?_, ?_⟩
          · simp [hmutex]
          · have hnone : holds s.plugin s.fddev lost (.lost lost.length) = none := by simp [holds]
            refine (hs.gain hnone hnew hfits).congr (fun x => ?_) fun _ => rfl
            rw [hlost, Option.toList_some, holds_lost]
          · exact mute_of s _ (fun _ _ h => h) fun fd conn h => socket_of_update (by simp) h
        · have hlost : lostBy (.create env true) = none := by
            rw [lostBy, if_neg]
            simpa [hmalloc] using hmutex
          have hfits : Fits (.event s.plugin.eventHandles.next) .eventfd := trivial
          refine ⟨(.ok, { s with
            plugin := { s.plugin with
              eventHandles := s.plugin.eventHandles.alloc ⟨fd, env.flags⟩ }
            files := s.files.create fd .eventfd }), ?_, ?_, ?_⟩
          · simp [hmutex]
          · have hnone : holds s.plugin s.fddev lost (.event s.plugin.eventHandles.next) = none :=
              eventFd_next s.plugin
            rw [hlost, Option.toList_none, List.append_nil]
            refine (hs.gain hnone hnew hfits).congr (fun x => ?_) fun _ => rfl
            rw [holds_create]
          · exact mute_of s _ (fun _ _ h => h) fun fd conn h => socket_of_update (by simp) h

/-- Every connection is numbered, and has one handle that ever speaks over it. -/
structure Owned (s : Process) (owner : Nat → Nat) : Prop where
  speaks : ∀ id conn, Speaks s.plugin s.files id conn →
    conn < s.files.conns ∧ owner conn = id
  log : ∀ e ∈ s.files.log, e.1 < s.files.conns

/-- What a call adds to the messages that went out: what it asks, if it succeeds, over a connection
of the handle that it asks for. -/
def Delivers (s : Process) (ask : Option (Nat × Message)) (owner : Nat → Nat) (res : FpgaResult)
    (s' : Process) : Prop :=
  ∃ owner', Owned s' owner' ∧ (∀ conn < s.files.conns, owner' conn = owner conn) ∧
    s.files.conns ≤ s'.files.conns ∧ ∃ sent, s'.files.log = s.files.log ++ sent ∧
      sent.map (fun e => (owner' e.1, e.2)) = if res = .ok then ask.toList else []

theorem delivers_nothing {owner : Nat → Nat} (ho : Owned s owner)
    (hspeaks : ∀ id conn, Speaks s'.plugin s'.files id conn → Speaks s.plugin s.files id conn)
    (hconns : s.files.conns ≤ s'.files.conns) (hlog : s'.files.log = s.files.log)
    {ask : Option (Nat × Message)} (hask : res = .ok → ask = none) :
    Delivers s ask owner res s' := by
  refine ⟨owner, ⟨fun id conn h => ?_, fun e he => ?_⟩, fun _ _ => rfl, hconns, [], ?_, ?_⟩
  · obtain ⟨hlt, howner⟩ := ho.speaks id conn (hspeaks id conn h)
    exact ⟨Nat.lt_of_lt_of_le hlt hconns, howner⟩
  · rw [hlog] at he
    exact Nat.lt_of_lt_of_le (ho.log e he) hconns
  · rw [hlog, List.append_nil]
  · split
    · next hres => rw [hask hres]; rfl
    · rfl

theorem delivers_sent {owner : Nat → Nat} (ho : Owned s owner) {ask : Option (Nat × Message)}
    {id conn : Nat} {message : Message} (hspeak : Speaks s.plugin s.files id conn)
    (hspeaks : ∀ j c, Speaks s'.plugin s'.files j c → Speaks s.plugin s.files j c)
    (hconns : s'.files.conns = s.files.conns)
    (hlog : s'.files.log = s.files.log ++ [(conn, message)]) (hask : ask = some (id, message)) :
    Delivers s ask owner .ok s' := by
  obtain ⟨hlt, howner⟩ := ho.speaks id conn hspeak
  refine ⟨owner, ⟨fun j c hj => ?_, fun e he => ?_⟩, fun _ _ => rfl, Nat.le_of_eq hconns.symm, _,
    hlog, ?_⟩
  · rw [hconns]
    exact ho.speaks j c (hspeaks j c hj)
  · rw [hconns]
    rw [hlog] at he
    obtain he | he := List.mem_append.mp he
    · exact ho.log e he
    · obtain rfl := List.mem_singleton.mp he
      exact hlt
  · rw [if_pos rfl, hask, List.map_singleton, howner]
    rfl

theorem delivers_connected {owner : Nat → Nat} (ho : Owned s owner) {ask : Option (Nat × Message)}
    {id : Nat} {message : Message}
    (hspeaks : ∀ j c, Speaks s'.plugin s'.files j c →
      j = id ∧ c = s.files.conns ∨ Speaks s.plugin s.files j c)
    (hconns : s'.files.conns = s.files.conns + 1)
    (hlog : s'.files.log = s.files.log ++ [(s.files.conns, message)])
    (hask : ask = some (id, message)) : Delivers s ask owner .ok s' := by
  refine ⟨Function.update owner s.files.conns id, ⟨fun j c hj => ?_, fun e he => ?_⟩,
    fun c hc => Function.update_of_ne (Nat.ne_of_lt hc) .., ?_, _, hlog, ?_⟩
  · rw [hconns]
    obtain ⟨rfl, rfl⟩ | hj := hspeaks j c hj
    · exact ⟨Nat.lt_succ_self _, Function.update_self ..⟩
    · obtain ⟨hlt, howner⟩ := ho.speaks j c hj
      exact ⟨Nat.lt_succ_of_lt hlt, by rwa [Function.update_of_ne (Nat.ne_of_lt hlt)]⟩
  · rw [hconns]
    rw [hlog] at he
    obtain he | he := List.mem_append.mp he
    · exact Nat.lt_succ_of_lt (ho.log e he)
    · obtain rfl := List.mem_singleton.mp he
      exact Nat.lt_succ_self _
  · rw [hconns]
    exact Nat.le_succ _
  · rw [if_pos rfl, hask, List.map_singleton, Function.update_self]
    rfl

theorem Held.delivers {props : PropsEnv} {ask : Option (Nat × Message)} {p : Plugin} {files : Files}
    {owner : Nat → Nat} (hs : Held s lost) (ho : Owned s owner)
    (ha : Answers props ask s res p files) :
    Delivers s ask owner res { s with plugin := p, files := files } := by
  cases ha with
  | quiet hdaemon hevent hask =>
    refine delivers_nothing ho (fun id conn h => ?_) ?_ ?_ hask
    · simpa [Speaks, hdaemon] using h
    · exact Nat.le_refl _
    · rfl
  | @talks _ id h h' message hid hdaemon hevent hask htalks =>
    have hother : ∀ j, j ≠ id → daemonFd p j = daemonFd s.plugin j := by
      intro j hj
      rw [hdaemon, Function.update_of_ne hj]
    have hself : daemonFd p id = some h'.fdfpgad := by rw [hdaemon, Function.update_self]
    have hsame : h'.fdfpgad = h.fdfpgad → daemonFd p = daemonFd s.plugin := by
      intro heq
      rw [hdaemon, heq, ← hid, Function.update_eq_self]
    cases htalks with
    | kept _ hres =>
      refine delivers_nothing ho (fun j conn hj => ?_) ?_ ?_ fun h => absurd h hres
      · simpa [Speaks, hsame rfl] using hj
      · exact Nat.le_refl _
      · rfl
    | refused _ hres hconns =>
      refine delivers_nothing ho (fun j conn hj => ?_) hconns ?_ fun h => absurd h hres
      · simpa [Speaks, hsame rfl] using hj
      · rfl
    | @closed _ fd hfd hres =>
      refine delivers_nothing ho ?_ ?_ ?_ fun h => absurd h hres
      · rintro j conn ⟨fd', hj, hconn⟩
        have hne : fd' ≠ fd := by
          rintro rfl
          simp at hconn
        have hji : j ≠ id := by
          rintro rfl
          rw [hself] at hj
          cases hj
        exact ⟨fd', (hother j hji).symm.trans hj, by simpa [hne] using hconn⟩
      · exact Nat.le_refl _
      · rfl
    | @sent objectId fd conn hobject hfd hconn =>
      have hspeak : Speaks s.plugin s.files id conn := ⟨fd, by rw [hid, hfd], hconn⟩
      refine delivers_sent ho hspeak (fun j c hj => ?_) rfl rfl (hask objectId hobject)
      simpa [Speaks, hsame rfl] using hj
    | @connected objectId fd hobject hfd hnew =>
      refine delivers_connected ho ?_ rfl rfl (hask objectId hobject)
      rintro j c ⟨fd', hj, hconn⟩
      by_cases hji : j = id
      · subst hji
        obtain rfl : fd = fd' := Option.some.inj (Option.some.inj (hself.symm.trans hj))
        exact .inl ⟨rfl, by simpa using hconn.symm⟩
      · have hj' := (hother j hji).symm.trans hj
        have hheld : holds s.plugin s.fddev lost (.daemon j) = some fd' := by
          rw [holds, hj']
          rfl
        have hne : fd' ≠ fd := by
          rintro rfl
          exact hs.not_held hnew _ hheld
        exact .inr ⟨fd', hj', by simpa [hne] using hconn⟩

/-- The calls on events answer as they do where the file descriptors are not followed. -/
def Agrees (p : Plugin) : Call → FpgaResult → Plugin → Prop
  | .register env handle eventType eventHandle flags, res, p' =>
    Events.fpgaRegisterEvent env p handle eventType eventHandle flags = some (res, p')
  | .unregister env handle eventType eventHandle, res, p' =>
    Events.fpgaUnregisterEvent env p handle eventType eventHandle = some (res, p')
  | _, _, _ => True

theorem Mute.delivers {owner : Nat → Nat} (ho : Owned s owner) (hm : Mute s s') :
    Delivers s none owner res s' :=
  delivers_nothing ho hm.speaks (Nat.le_of_eq hm.conns.symm) hm.log fun _ => rfl

/-- A call that C defines never closes what is not open. -/
theorem step_spec {owner : Nat → Nat} (hs : Held s lost) (ho : Owned s owner)
    (hu : Unused s.files c) (hdef : ¬Undefined s.plugin c) :
    ∃ res s', step s c = some (res, s') ∧ Held s' (lost ++ (lostBy c).toList) ∧
      Delivers s (asks s.plugin c) owner res s' ∧ Agrees s.plugin c res s'.plugin := by
  cases c with
  | openHandle env token handle flags =>
    obtain ⟨r, hstep, hs', hm⟩ := hs.open_step hu
    exact ⟨r.1, r.2, hstep, by simpa [lostBy] using hs', hm.delivers ho, trivial⟩
  | close handle =>
    obtain ⟨r, hstep, hs', hm⟩ := hs.close_step handle
    exact ⟨r.1, r.2, hstep, by simpa [lostBy] using hs', hm.delivers ho, trivial⟩
  | create env eventHandle =>
    obtain ⟨r, hstep, hs', hm⟩ := hs.create_step hu
    exact ⟨r.1, r.2, hstep, hs', hm.delivers ho, trivial⟩
  | destroy eventHandle =>
    obtain ⟨r, hstep, hs', hm⟩ := hs.destroy_step eventHandle
    exact ⟨r.1, r.2, hstep, by simpa [lostBy] using hs', hm.delivers ho, trivial⟩
  | register env handle eventType eventHandle flags =>
    obtain ⟨hnone, -⟩ | ⟨res, p, files, hevents, hstep, ha⟩ := eventCall_answers
      (driverRegisterEvent env eventType flags) (Events.daemonRegisterEvent env.daemon)
      env.daemon.props (fun eh objectId => ⟨⟨.registerEvent, eventType, objectId⟩, some eh.fd⟩)
      (fun _ _ _ h => driverEvent_sameEnds h)
      (fun h eh hh => daemonRegisterEvent_talks eventType eh hh hu)
      (fun _ _ h => by simp [h]) (fun _ _ hid => hs.connected hid) handle eventType eventHandle
    · exact absurd hnone hdef
    · exact ⟨res, _, hstep, by simpa [lostBy] using hs.answers ha, hs.delivers ho ha, hevents⟩
  | unregister env handle eventType eventHandle =>
    obtain ⟨hnone, -⟩ | ⟨res, p, files, hevents, hstep, ha⟩ := eventCall_answers
      (driverUnregisterEvent env eventType) (Events.daemonUnregisterEvent env.daemon)
      env.daemon.props (fun _ objectId => ⟨⟨.unregisterEvent, eventType, objectId⟩, none⟩)
      (fun _ _ _ h => driverEvent_sameEnds h)
      (fun h _ hh => daemonUnregisterEvent_talks eventType hh)
      (fun _ _ _ => rfl) (fun _ _ hid => hs.connected hid) handle eventType eventHandle
    · exact absurd hnone hdef
    · exact ⟨res, _, hstep, by simpa [lostBy] using hs.answers ha, hs.delivers ho ha, hevents⟩

end Steps

/-- Every call is one that C defines, and is given file descriptors that were not open. -/
def Allowed : Process → List Call → Prop
  | _, [] => True
  | s, c :: cs => Unused s.files c ∧ ¬Undefined s.plugin c ∧
      ∀ res s', step s c = some (res, s') → Allowed s' cs

/-- What the calls that succeed asked of the daemon, each with the handle it was for. -/
def asksOf : Process → List Call → List (Nat × Message)
  | _, [] => []
  | s, c :: cs =>
    match step s c with
    | none => []
    | some (res, s') => (if res = .ok then (asks s.plugin c).toList else []) ++ asksOf s' cs

theorem run_spec {s : Process} {lost : List Nat} {owner : Nat → Nat} {calls : List Call}
    (hs : Held s lost) (ho : Owned s owner) (hcalls : Allowed s calls) :
    ∃ results s' owner', run s calls = some (results, s') ∧
      Held s' (lost ++ calls.filterMap lostBy) ∧ Owned s' owner' ∧
      (∀ conn < s.files.conns, owner' conn = owner conn) ∧
      ∃ sent, s'.files.log = s.files.log ++ sent ∧
        sent.map (fun e => (owner' e.1, e.2)) = asksOf s calls := by
  induction calls generalizing s lost owner with
  | nil => exact ⟨[], s, owner, rfl, by simpa using hs, ho, fun _ _ => rfl, [], by simp, rfl⟩
  | cons c cs ih =>
    obtain ⟨hu, hdef, hrest⟩ := hcalls
    obtain ⟨res, s₁, hstep, hs₁, ⟨owner₁, ho₁, hsame₁, hconns, sent₁, hlog₁, hsent₁⟩, -⟩ :=
      step_spec hs ho hu hdef
    obtain ⟨results, s', owner', hrun, hs', ho', hsame', sent, hlog, hsent⟩ :=
      ih hs₁ ho₁ (hrest res s₁ hstep)
    refine ⟨res :: results, s', owner', ?_, ?_, ho', fun conn hconn => ?_, sent₁ ++ sent, ?_, ?_⟩
    · simp [run, hstep, hrun]
    · cases hlost : lostBy c with
      | none => simpa [hlost] using hs'
      | some fd => simpa [hlost] using hs'
    · rw [hsame' conn (Nat.lt_of_lt_of_le hconn hconns), hsame₁ conn hconn]
    · rw [hlog, hlog₁, List.append_assoc]
    · -- connections that there were before the rest of the run keep their owner
      have hold : sent₁.map (fun e => (owner' e.1, e.2)) =
          sent₁.map fun e => (owner₁ e.1, e.2) := by
        refine List.map_congr_left fun e he => ?_
        rw [hsame' e.1 (ho₁.log e (by rw [hlog₁]; exact List.mem_append_right _ he))]
      rw [List.map_append, hold, hsent₁, hsent, asksOf, hstep]

def start (driver : Driver) : Process :=
  ⟨⟨.empty, .empty, driver⟩, fun _ => 0, ⟨fun _ => none, 0, []⟩⟩

theorem start_held (driver : Driver) : Held (start driver) [] := by
  refine (sole_empty Fits).congr (fun x => ?_) fun _ => rfl
  cases x <;> simp [holds, daemonFd, eventFd, start]

theorem start_owned (driver : Driver) : Owned (start driver) fun _ => 0 := by
  refine ⟨?_, ?_⟩
  · rintro id conn ⟨fd, hfd, -⟩
    simp [daemonFd, start] at hfd
  · intro e he
    exact absurd he List.not_mem_nil

def idleDriver : Driver := fun _ => ⟨fun _ => none, none, none⟩

def sampleProps : PropsEnv := ⟨.ok (fpgaPropertiesSetObjectID opaePropertiesCreate 9).2, .ok⟩

def sampleCalls : List Call :=
  [.openHandle ⟨true, (true, true), (true, true), fun _ _ => .ok 3, true, true⟩
      (some ⟨true, ['p', 'o', 'r', 't', '0']⟩) true 0,
    .create ⟨true, some 4, true, true, 0⟩ true,
    .register ⟨.device, sampleProps, ⟨.ok, 0⟩, ⟨.ok, 0⟩, .ok, ⟨some 5, true, sampleProps, true⟩⟩
      (some 0) .powerThermal (some 0) 0]

theorem sampleCalls_allowed (driver : Driver) : Allowed (start driver) sampleCalls := by
  refine ⟨fun _ _ _ _ => rfl, id, fun res s hs => ?_⟩
  obtain ⟨rfl, rfl⟩ := Prod.mk.inj (Option.some.inj hs)
  refine ⟨fun fd hfd => ?_, id, fun res s hs => ?_⟩
  · obtain rfl : 4 = fd := Option.some.inj hfd
    rfl
  · obtain ⟨rfl, rfl⟩ := Prod.mk.inj (Option.some.inj hs)
    refine ⟨fun fd hfd => ?_, Option.some_ne_none _, fun _ _ _ => trivial⟩
    obtain rfl : 5 = fd := Option.some.inj hfd
    rfl

/-- In every run the file descriptors that are open are those that a handle or an event handle has,
each of one of them, and those of the event handles that could not be made complete. None is closed
that is not open. -/
theorem run_descriptors (driver : Driver) (calls : List Call)
    (hcalls : Allowed (start driver) calls) :
    ∃ results s, run (start driver) calls = some (results, s) ∧
      Sole Fits (holds s.plugin s.fddev (calls.filterMap lostBy)) s.files.objects := by
  obtain ⟨results, s, -, hrun, hs, -⟩ := run_spec (start_held driver) (start_owned driver) hcalls
  exact ⟨results, s, hrun, hs⟩

theorem run_descriptors_sample :
    ∃ results s, run (start idleDriver) sampleCalls = some (results, s) ∧
      Sole Fits (holds s.plugin s.fddev []) s.files.objects :=
  run_descriptors idleDriver sampleCalls (sampleCalls_allowed idleDriver)

/-- In every run the daemon has been sent what the calls that succeeded asked of it, in their
order, and never over one connection for two handles. -/
theorem run_messages (driver : Driver) (calls : List Call)
    (hcalls : Allowed (start driver) calls) :
    ∃ results s, ∃ owner : Nat → Nat, run (start driver) calls = some (results, s) ∧
      s.files.log.map (fun e => (owner e.1, e.2)) = asksOf (start driver) calls ∧
      ∀ id conn, Speaks s.plugin s.files id conn → owner conn = id := by
  obtain ⟨results, s, owner, hrun, -, ho, -, sent, hlog, hsent⟩ :=
    run_spec (start_held driver) (start_owned driver) hcalls
  refine ⟨results, s, owner, hrun, ?_, fun id conn h => (ho.speaks id conn h).2⟩
  rw [hlog]
  exact hsent

theorem run_messages_sample :
    ∃ results s, ∃ owner : Nat → Nat, run (start idleDriver) sampleCalls = some (results, s) ∧
      s.files.log.map (fun e => (owner e.1, e.2)) =
        [(0, ⟨⟨.registerEvent, .powerThermal, 9⟩, some 4⟩)] ∧
      ∀ id conn, Speaks s.plugin s.files id conn → owner conn = id :=
  run_messages idleDriver sampleCalls (sampleCalls_allowed idleDriver)

end OpaeLibs.PluginXfpga.DaemonEvents
