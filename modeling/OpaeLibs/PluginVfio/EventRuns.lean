import OpaeLibs.Lib.Runs
import OpaeLibs.PluginVfio.Events

namespace OpaeLibs.PluginVfio.EventRuns

open OpaeLibs.Lib.Heap OpaeLibs.Lib.Runs
open OpaeLibs.OpaeC.Props OpaeLibs.Opaevfio.Irqs OpaeLibs.PluginVfio.Events
open OpaeLibs.PluginXfpga.Events (FpgaEventType IrqOperation)

/-- A call of `vfio_fpgaRegisterEvent` or, where the operation is `deassign`, of
`vfio_fpgaUnregisterEvent`, which has no flags. -/
structure Call where
  op : IrqOperation
  ioctl : Int
  handle : Option Nat
  eventType : FpgaEventType
  eventHandle : Option Nat
  flags : UInt32

def apply (p : Plugin) (c : Call) : FpgaResult × Plugin :=
  match c.op with
  | .assign => vfioFpgaRegisterEvent c.ioctl p c.handle c.eventType c.eventHandle c.flags
  | .deassign => vfioFpgaUnregisterEvent c.ioctl p c.handle c.eventType c.eventHandle

/-- The vector that a call is about, and the eventfd that it is to have. -/
def request (c : Call) (eh : VfioEventHandle) : IrqRequest :=
  match c.op with
  | .assign => ⟨vfioPciMsixIrqIndex, c.flags, some eh.fd⟩
  | .deassign => ⟨vfioPciMsixIrqIndex, eh.flags, none⟩

structure Names (p : Plugin) (c : Call) (device eid : Nat) (eh : VfioEventHandle) : Prop where
  handle : c.handle.bind p.handles.get = some device
  eventHandle : c.eventHandle = some eid
  live : p.eventHandles.get eid = some eh

/-- The handle is valid, and the event handle is not `NULL` and not valid. -/
structure Stale (p : Plugin) (c : Call) : Prop where
  handle : (c.handle.bind p.handles.get).isSome = true
  eventHandle : ∃ eid, c.eventHandle = some eid ∧ p.eventHandles.get eid = none

/-- The device has the vector that the call is about, and the driver grants the request. -/
def Granted (p : Plugin) (c : Call) (device : Nat) (eh : VfioEventHandle) : Prop :=
  Grants c.ioctl (p.devices device) (request c eh).index (request c eh).subindex

/-- The event handle keeps the vector, whatever the driver says. -/
def remember (p : Plugin) (eid : Nat) (eh : VfioEventHandle) (r : IrqRequest) : Plugin :=
  { p with eventHandles := p.eventHandles.set eid { eh with flags := r.subindex } }

def grant (p : Plugin) (device : Nat) (r : IrqRequest) : Plugin :=
  let v := p.devices device
  { p with devices := Function.update p.devices device { v with granted := r :: v.granted } }

inductive Outcome (p : Plugin) (c : Call) : FpgaResult → Plugin → Prop
  | stale : Stale p c → Outcome p c .ok p
  | refused {res} : res ≠ .ok → ¬Stale p c →
      (∀ device eid eh, Names p c device eid eh → c.eventType ≠ .interrupt) → Outcome p c res p
  | granted {device eid eh} : Names p c device eid eh → c.eventType = .interrupt →
      Granted p c device eh →
      Outcome p c .ok (grant (remember p eid eh (request c eh)) device (request c eh))
  | denied {device eid eh} : Names p c device eid eh → c.eventType = .interrupt →
      ¬Granted p c device eh →
      Outcome p c .exception (remember p eid eh (request c eh))

/-- The two requests in one. -/
def serve (c : Call) (v : OpaeVfioDevice) (eh : VfioEventHandle) :
    FpgaResult × VfioEventHandle × OpaeVfioDevice :=
  match c.op with
  | .assign => registerEvent c.ioctl v c.eventType eh c.flags
  | .deassign => unregisterEvent c.ioctl v c.eventType eh

theorem apply_eq (p : Plugin) (c : Call) :
    apply p c = eventCall (serve c) p c.handle c.eventHandle := by
  unfold apply serve
  cases c.op <;> rfl

theorem serve_interrupt {c : Call} (hc : c.eventType = .interrupt) (v : OpaeVfioDevice)
    (eh : VfioEventHandle) : serve c v eh =
      (if (requestIrq c.ioctl v (request c eh)).1 ≠ 0 then .exception else .ok,
        { eh with flags := (request c eh).subindex },
        (requestIrq c.ioctl v (request c eh)).2) := by
  unfold serve request
  cases c.op <;> (rw [hc]; rfl)

theorem serve_other {c : Call} (hc : c.eventType ≠ .interrupt) (v : OpaeVfioDevice)
    (eh : VfioEventHandle) : ∃ res, res ≠ .ok ∧ serve c v eh = (res, eh, v) := by
  unfold serve registerEvent unregisterEvent
  cases htype : c.eventType with
  | interrupt => exact absurd htype hc
  | error => cases c.op <;> exact ⟨_, by decide, rfl⟩
  | powerThermal => cases c.op <;> exact ⟨_, by decide, rfl⟩
  | unknown => cases c.op <;> exact ⟨_, by decide, rfl⟩

theorem apply_names {p : Plugin} {c : Call} {device eid : Nat} {eh : VfioEventHandle}
    (hn : Names p c device eid eh) : apply p c = ((serve c (p.devices device) eh).1,
      { p with
        eventHandles := p.eventHandles.set eid (serve c (p.devices device) eh).2.1
        devices := Function.update p.devices device (serve c (p.devices device) eh).2.2 }) := by
  obtain ⟨id, hid, hdev⟩ := Option.bind_eq_some_iff.mp hn.handle
  simp [apply_eq, eventCall, hid, hn.eventHandle, hdev, hn.live]

theorem apply_outcome (p : Plugin) (c : Call) : Outcome p c (apply p c).1 (apply p c).2 := by
  by_cases hstale : Stale p c
  · obtain ⟨hhandle, eid, heid, hdead⟩ := hstale
    obtain ⟨device, hdevice⟩ := Option.isSome_iff_exists.mp hhandle
    obtain ⟨id, hid, hdev⟩ := Option.bind_eq_some_iff.mp hdevice
    have heq : apply p c = (.ok, p) := by simp [apply_eq, eventCall, hid, heid, hdev, hdead]
    rw [heq]
    exact .stale ⟨hhandle, eid, heid, hdead⟩
  · by_cases hnames : ∃ device eid eh, Names p c device eid eh
    · obtain ⟨device, eid, eh, hn⟩ := hnames
      rw [apply_names hn]
      by_cases htype : c.eventType = .interrupt
      · rw [serve_interrupt htype]
        obtain ⟨hgrants, hreq⟩ | ⟨hno, res, hres, hreq⟩ :=
          requestIrq_cases c.ioctl (p.devices device) (request c eh)
        · rw [hreq]
          exact .granted hn htype hgrants
        · rw [hreq, Function.update_eq_self, if_pos hres]
          exact .denied hn htype hno
      · obtain ⟨res, hres, hserve⟩ := serve_other htype (p.devices device) eh
        rw [hserve, Slots.set_of_get hn.live, Function.update_eq_self]
        exact .refused hres hstale fun _ _ _ _ => htype
    · have heq : apply p c = (.invalidParam, p) := by
        rw [apply_eq]
        unfold eventCall
        split
        · next id eid hid heid =>
          split
          · rfl
          · next device hdev =>
            have hdevice : c.handle.bind p.handles.get = some device := by rw [hid]; exact hdev
            split
            · next hdead => exact absurd ⟨by rw [hdevice]; rfl, eid, heid, hdead⟩ hstale
            · next eh hlive => exact absurd ⟨device, eid, eh, hdevice, heid, hlive⟩ hnames
        · rfl
      rw [heq]
      exact .refused nofun hstale fun device eid eh hn => absurd ⟨device, eid, eh, hn⟩ hnames

/-- A plugin, and what each event handle last registered successfully: a device and a vector. -/
structure Session where
  plugin : Plugin
  last : Nat → Option (Nat × UInt32)

def registered (s : Session) (c : Call) (res : FpgaResult) : Nat → Option (Nat × UInt32) :=
  match c.op, res, c.eventHandle with
  | .assign, .ok, some eid => Function.update s.last eid
      ((c.handle.bind s.plugin.handles.get).map fun device => (device, c.flags))
  | _, _, _ => s.last

def step (s : Session) (c : Call) : Session :=
  ⟨(apply s.plugin c).2, registered s c (apply s.plugin c).1⟩

/-- The result of a call is true of the vectors: a registered one is routed to the event handle's
eventfd, a failure to register leaves the vector that the event handle would disable, and what was
unregistered is the vector registered last. -/
structure Honest (s : Session) (c : Call) (res : FpgaResult) (p : Plugin) : Prop where
  routed : c.op = .assign → res = .ok → ∃ device eid eh, Names s.plugin c device eid eh ∧
    (p.devices device).trigger vfioPciMsixIrqIndex c.flags = some eh.fd
  kept : c.op = .assign → res ≠ .ok → p.eventHandles = s.plugin.eventHandles
  disabled : c.op = .deassign → res = .ok → ∃ eid device vector, c.eventHandle = some eid ∧
    s.last eid = some (device, vector) ∧ (p.devices device).granted =
      ⟨vfioPciMsixIrqIndex, vector, none⟩ :: (s.plugin.devices device).granted

/-- The event handle is valid; a vector that is not enabled is the one that the event handle has
already; and a vector is disabled on the device on which the event handle was registered last. -/
structure Sound (s : Session) (c : Call) : Prop where
  fresh : ¬Stale s.plugin c
  enabled : c.op = .assign → c.eventType = .interrupt → ∀ device eid eh,
    Names s.plugin c device eid eh → Granted s.plugin c device eh ∨ eh.flags = c.flags
  registered : c.op = .deassign → c.eventType = .interrupt → ∀ device eid eh,
    Names s.plugin c device eid eh → Granted s.plugin c device eh →
      ∃ vector, s.last eid = some (device, vector)

/-- The event handles know what they registered last. -/
def Remembers (s : Session) : Prop := ∀ eid device vector, s.last eid = some (device, vector) →
  ∀ eh, s.plugin.eventHandles.get eid = some eh → eh.flags = vector

section

variable {s : Session} {c : Call} {device device' eid eid' : Nat} {eh eh' : VfioEventHandle}

theorem Names.unique (h : Names s.plugin c device eid eh) (h' : Names s.plugin c device' eid' eh') :
    device = device' ∧ eid = eid' ∧ eh = eh' := by
  obtain rfl := Option.some.inj (h.handle.symm.trans h'.handle)
  obtain rfl := Option.some.inj (h.eventHandle.symm.trans h'.eventHandle)
  exact ⟨rfl, rfl, Option.some.inj (h.live.symm.trans h'.live)⟩

theorem Names.not_stale (h : Names s.plugin c device eid eh) : ¬Stale s.plugin c := by
  rintro ⟨-, eid', heid', hdead⟩
  obtain rfl := Option.some.inj (h.eventHandle.symm.trans heid')
  exact nomatch h.live.symm.trans hdead

theorem not_honest_of_stale (h : Stale s.plugin c) : ¬Honest s c .ok s.plugin := by
  intro hh
  cases hop : c.op with
  | assign =>
    obtain ⟨device, eid, eh, hn, -⟩ := hh.routed hop rfl
    exact hn.not_stale h
  | deassign =>
    obtain ⟨eid, device, vector, -, -, hgranted⟩ := hh.disabled hop rfl
    exact List.cons_ne_self _ _ hgranted.symm

theorem honest_of_refused {res : FpgaResult} (hres : res ≠ .ok) : Honest s c res s.plugin :=
  ⟨fun _ h => absurd h hres, fun _ _ => rfl, fun _ h => absurd h hres⟩

theorem sound_of_other (hfresh : ¬Stale s.plugin c)
    (h : ∀ device eid eh, Names s.plugin c device eid eh → c.eventType ≠ .interrupt) :
    Sound s c :=
  ⟨hfresh, fun _ htype _ _ _ hn => absurd htype (h _ _ _ hn),
    fun _ htype _ _ _ hn => absurd htype (h _ _ _ hn)⟩

theorem grant_trigger (p : Plugin) (device : Nat) (r : IrqRequest) :
    ((grant p device r).devices device).trigger r.index r.subindex = r.eventFd := by
  simp [grant]

theorem honest_granted_iff (hs : Remembers s) (hn : Names s.plugin c device eid eh)
    (htype : c.eventType = .interrupt) (hgranted : Granted s.plugin c device eh) :
    Honest s c .ok (grant (remember s.plugin eid eh (request c eh)) device (request c eh)) ↔
      Sound s c := by
  cases hop : c.op with
  | assign =>
    have hreq : request c eh = ⟨vfioPciMsixIrqIndex, c.flags, some eh.fd⟩ := by
      rw [request, hop]
    refine iff_of_true ⟨fun _ _ => ⟨device, eid, eh, hn, ?_⟩, fun _ h => absurd rfl h,
      (fun h => nomatch hop.symm.trans h)⟩ ⟨hn.not_stale, fun _ _ device' eid' eh' hn' => ?_,
      (fun h => nomatch hop.symm.trans h)⟩
    · have htrigger := grant_trigger (remember s.plugin eid eh (request c eh)) device (request c eh)
      rwa [hreq] at htrigger ⊢
    · obtain ⟨rfl, rfl, rfl⟩ := hn.unique hn'
      exact .inl hgranted
  | deassign =>
    have hreq : request c eh = ⟨vfioPciMsixIrqIndex, eh.flags, none⟩ := by rw [request, hop]
    constructor
    · intro hh
      refine ⟨hn.not_stale, (fun h => nomatch hop.symm.trans h), fun _ _ device' eid' eh' hn' _ => ?_⟩
      obtain ⟨rfl, rfl, rfl⟩ := hn.unique hn'
      obtain ⟨eid', device', vector, heid, hlast, hlog⟩ := hh.disabled hop rfl
      obtain rfl := Option.some.inj (hn.eventHandle.symm.trans heid)
      by_cases hdev : device' = device
      · exact ⟨vector, hdev ▸ hlast⟩
      · simp [grant, remember, hdev] at hlog
    · intro hsound
      refine ⟨(fun h => nomatch hop.symm.trans h), (fun h => nomatch hop.symm.trans h), fun _ _ => ?_⟩
      obtain ⟨vector, hlast⟩ := hsound.registered hop htype device eid eh hn hgranted
      have hflags := hs eid device vector hlast eh hn.live
      refine ⟨eid, device, vector, hn.eventHandle, hlast, ?_⟩
      simp [grant, remember, hreq, hflags]

theorem honest_denied_iff (hn : Names s.plugin c device eid eh)
    (htype : c.eventType = .interrupt) (hno : ¬Granted s.plugin c device eh) :
    Honest s c .exception (remember s.plugin eid eh (request c eh)) ↔ Sound s c := by
  have hother : FpgaResult.exception ≠ .ok := nofun
  cases hop : c.op with
  | assign =>
    have hreq : (request c eh).subindex = c.flags := by rw [request, hop]
    constructor
    · intro hh
      refine ⟨hn.not_stale, fun _ _ device' eid' eh' hn' => .inr ?_,
        (fun h => nomatch hop.symm.trans h)⟩
      obtain ⟨rfl, rfl, rfl⟩ := hn.unique hn'
      have hkept := congrArg (Slots.get · eid) (hh.kept hop hother)
      simp only [remember, Slots.get_set hn.live, if_true, hreq, hn.live] at hkept
      exact (congrArg VfioEventHandle.flags (Option.some.inj hkept)).symm
    · intro hsound
      refine ⟨fun _ h => absurd h hother, fun _ _ => ?_, fun _ h => absurd h hother⟩
      obtain hgranted | hflags := hsound.enabled hop htype device eid eh hn
      · exact absurd hgranted hno
      · rw [remember, hreq, ← hflags]
        exact Slots.set_of_get hn.live
  | deassign =>
    refine iff_of_true ⟨fun _ h => absurd h hother, (fun h => nomatch hop.symm.trans h),
      fun _ h => absurd h hother⟩ ⟨hn.not_stale, (fun h => nomatch hop.symm.trans h),
      fun _ _ device' eid' eh' hn' hgranted => ?_⟩
    obtain ⟨rfl, rfl, rfl⟩ := hn.unique hn'
    exact absurd hgranted hno

theorem honest_iff (hs : Remembers s) :
    Honest s c (apply s.plugin c).1 (apply s.plugin c).2 ↔ Sound s c := by
  have houtcome := apply_outcome s.plugin c
  revert houtcome
  generalize (apply s.plugin c).1 = res
  generalize (apply s.plugin c).2 = p
  intro houtcome
  cases houtcome with
  | stale h => exact iff_of_false (not_honest_of_stale h) fun hsound => hsound.fresh h
  | refused hres hfresh hother =>
    exact iff_of_true (honest_of_refused hres) (sound_of_other hfresh hother)
  | granted hn htype hgranted => exact honest_granted_iff hs hn htype hgranted
  | denied hn htype hno => exact honest_denied_iff hn htype hno

theorem registered_of_ne {res : FpgaResult} (h : c.op = .assign → res ≠ .ok) :
    registered s c res = s.last := by
  unfold registered
  split
  · next hop _ => exact absurd rfl (h hop)
  · rfl

theorem remember_self {p : Plugin} {r : IrqRequest} (hlive : p.eventHandles.get eid = some eh)
    (h : r.subindex = eh.flags) : remember p eid eh r = p := by
  rw [remember, h]
  exact congrArg (fun eventHandles => { p with eventHandles }) (Slots.set_of_get hlive)

theorem request_deassign (hop : c.op = .deassign) (eh : VfioEventHandle) :
    (request c eh).subindex = eh.flags := by rw [request, hop]

theorem remembers_step (hs : Remembers s) (hsound : Sound s c) : Remembers (step s c) := by
  have houtcome := apply_outcome s.plugin c
  unfold step
  revert houtcome
  generalize (apply s.plugin c).1 = res
  generalize (apply s.plugin c).2 = p
  intro houtcome
  cases houtcome with
  | stale h => exact absurd h hsound.fresh
  | refused hres _ _ =>
    rw [registered_of_ne fun _ => hres]
    exact hs
  | @granted device eid eh hn htype hgranted =>
    intro eid' device' vector hlast eh' heh'
    simp only [grant, remember, Slots.get_set hn.live] at heh'
    cases hop : c.op with
    | assign =>
      simp only [registered, hop, hn.eventHandle, hn.handle, Option.map_some] at hlast
      by_cases heid : eid' = eid
      · subst heid
        rw [Function.update_self] at hlast
        obtain ⟨-, rfl⟩ := Prod.mk.inj (Option.some.inj hlast)
        obtain rfl := Option.some.inj (heh'.symm.trans (if_pos rfl)).symm
        simp [request, hop]
      · rw [Function.update_of_ne heid] at hlast
        rw [if_neg heid] at heh'
        exact hs eid' device' vector hlast eh' heh'
    | deassign =>
      rw [registered_of_ne fun h => nomatch hop.symm.trans h] at hlast
      have hsame := remember_self hn.live (request_deassign hop eh)
      refine hs eid' device' vector hlast eh' ?_
      rw [← hsame]
      simpa only [remember, Slots.get_set hn.live] using heh'
  | @denied device eid eh hn htype hno =>
    have hsame : remember s.plugin eid eh (request c eh) = s.plugin := by
      refine remember_self hn.live ?_
      cases hop : c.op with
      | assign =>
        rw [request, hop]
        exact ((hsound.enabled hop htype device eid eh hn).resolve_left hno).symm
      | deassign => exact request_deassign hop eh
    have hother : FpgaResult.exception ≠ .ok := nofun
    rw [hsame, registered_of_ne fun _ => hother]
    exact hs

end

/-- What the call itself returns and leaves behind is true of the vectors. -/
def Tells (s : Session) (c : Call) : Prop :=
  Honest s c (apply s.plugin c).1 (apply s.plugin c).2

def Session.start (p : Plugin) : Session := ⟨p, fun _ => none⟩

theorem remembers_start (p : Plugin) : Remembers (.start p) :=
  fun _ _ _ hlast => nomatch hlast

theorem run_tells_iff (p : Plugin) (calls : List Call) :
    Along step Tells (.start p) calls ↔ Along step Sound (.start p) calls :=
  along_iff (fun _ _ hs hsound => remembers_step hs hsound) (fun _ _ hs => honest_iff hs) calls
    (remembers_start p)

section Sample

def samplePlugin : Plugin :=
  { handles := ⟨[some 0]⟩
    eventHandles := ⟨[some ⟨5, 0⟩]⟩
    devices := fun _ => ⟨[⟨vfioIrqInfoEventfd, vfioPciMsixIrqIndex, 4⟩], []⟩ }

def sampleCall (op : IrqOperation) (eventHandle : Option Nat) (flags : UInt32) : Call :=
  ⟨op, 0, some 0, .interrupt, eventHandle, flags⟩

/-- A registration with an event handle that does not exist is reported as done, and one that fails
changes the vector that is disabled later. -/
theorem registered_nothing : apply samplePlugin (sampleCall .assign (some 7) 1) =
      (.ok, samplePlugin) ∧
    ¬Along step Tells (.start samplePlugin) [sampleCall .assign (some 7) 1] ∧
    ∃ p p' p'',
      apply samplePlugin (sampleCall .assign (some 0) 1) = (.ok, p) ∧
      apply p (sampleCall .assign (some 0) 9) = (.exception, p') ∧
      apply p' (sampleCall .deassign (some 0) 0) = (.exception, p'') ∧
      (p''.devices 0).trigger vfioPciMsixIrqIndex 1 = some 5 := by
  refine ⟨rfl, ?_, _, _, _, rfl, rfl, rfl, rfl⟩
  rintro ⟨htells, -⟩
  exact not_honest_of_stale ⟨rfl, 7, rfl, rfl⟩ htells

end Sample

end OpaeLibs.PluginVfio.EventRuns
