import OpaeLibs.Lib.Runs
import OpaeLibs.PluginXfpga.Events

namespace OpaeLibs.PluginXfpga.IrqRuns

open OpaeLibs.Lib.Bits OpaeLibs.Lib.Heap OpaeLibs.Lib.Runs
open OpaeLibs.OpaeC.Props OpaeLibs.PluginXfpga.Events

/-- A call of `fpgaRegisterEvent` or, where the operation is `deassign`, of `fpgaUnregisterEvent`,
which has no flags. -/
structure Call where
  op : IrqOperation
  env : EventEnv
  handle : Option Nat
  eventType : FpgaEventType
  eventHandle : Option Nat
  flags : UInt32

def apply (s : Plugin) (c : Call) : Option (FpgaResult × Plugin) :=
  match c.op with
  | .assign => fpgaRegisterEvent c.env s c.handle c.eventType c.eventHandle c.flags
  | .deassign => fpgaUnregisterEvent c.env s c.handle c.eventType c.eventHandle

/-- `none` is a plugin that has shifted too far. -/
def step (s : Option Plugin) (c : Call) : Option Plugin :=
  s.bind fun s => (apply s c).map Prod.snd

def index : IrqOperation → UInt32 → FpgaEventHandle → UInt32
  | .assign, flags, _ => flags
  | .deassign, _, eh => eh.flags

def evtfd : IrqOperation → FpgaEventHandle → Option Nat
  | .assign, eh => some eh.fd
  | .deassign, _ => none

def toggle : IrqOperation → BitVec 32 → Nat → BitVec 32
  | .assign, v, i => setBit v i
  | .deassign, v, i => clearBit v i

theorem hasBit_toggle (op : IrqOperation) (v : BitVec 32) {i : Nat} (hi : i < 32) (j : Nat) :
    hasBit (toggle op v i) j ↔ if j = i then op = .assign else hasBit v j := by
  cases op with
  | assign =>
    rw [toggle, hasBit_setBit hi]
    by_cases h : j = i
    · simp [h]
    · simp [h, Ne.symm h]
  | deassign =>
    rw [toggle, hasBit_clearBit (by decide)]
    by_cases h : j = i
    · simp [h]
    · simp [h, Ne.symm h]

/-- The mask has the bit that the request is to clear, or lacks the one it is to set. -/
def Admits (op : IrqOperation) (v : BitVec 32) (i : Nat) : Prop := hasBit v i ↔ op = .deassign

theorem shiftOne_of_lt {flags : UInt32} (h : flags < 32) :
    shiftOne flags = some (1#32 <<< flags.toNat) := if_pos h

theorem queryNumIrqs_keeps {env : EventEnv} {h h' : FpgaHandle}
    (hq : queryNumIrqs env h = .ok h') : h'.token = h.token ∧ h'.irqSet = h.irqSet := by
  unfold queryNumIrqs at hq
  split at hq
  · split at hq
    · cases hq
    · split at hq
      · cases hq
      · cases hq
        exact ⟨rfl, rfl⟩
  · cases hq
    exact ⟨rfl, rfl⟩

/-- The request with its mask and event handle changed, just before the driver is asked. -/
def toggled (op : IrqOperation) (flags : UInt32) (h : FpgaHandle) (x : Ends) : Ends :=
  let i := index op flags x.eventHandle
  { x with
    handle := { h with irqSet := toggle op h.irqSet i.toNat }
    eventHandle := { x.eventHandle with flags := i } }

section

variable {env : EventEnv} {op : IrqOperation} {flags : UInt32} {x : Ends} {h : FpgaHandle}

theorem sendUafu_refused {res : FpgaResult} (hq : queryNumIrqs env x.handle = .error res) :
    sendUafuEventRequest env op flags x = some (res, x) := by
  simp [sendUafuEventRequest, hq]

theorem sendUafu_past (hq : queryNumIrqs env x.handle = .ok h) (hop : op = .assign)
    (hn : ¬flags < h.numIrqs) :
    sendUafuEventRequest env op flags x = some (.invalidParam, { x with handle := h }) := by
  subst hop
  simp [sendUafuEventRequest, hq, UInt32.not_lt.mp hn]

theorem sendUafu_undefined (hq : queryNumIrqs env x.handle = .ok h)
    (hn : op = .assign → flags < h.numIrqs) (hi : ¬index op flags x.eventHandle < 32) :
    sendUafuEventRequest env op flags x = none := by
  have hs : shiftOne (index op flags x.eventHandle) = none := if_neg hi
  cases op with
  | assign =>
    simp only [index] at hs
    simp [sendUafuEventRequest, hq, hs, UInt32.not_le.mpr (hn rfl)]
  | deassign =>
    simp only [index] at hs
    simp [sendUafuEventRequest, hq, hs]

theorem sendUafu_in_use (hq : queryNumIrqs env x.handle = .ok h)
    (hn : op = .assign → flags < h.numIrqs) (hi : index op flags x.eventHandle < 32)
    (hm : ¬Admits op h.irqSet (index op flags x.eventHandle).toNat) :
    sendUafuEventRequest env op flags x = some (.invalidParam, { x with handle := h }) := by
  have hs := shiftOne_of_lt hi
  cases op with
  | assign =>
    have hbit : ¬(h.irqSet &&& 1#32 <<< flags.toNat = 0#32) := by
      rw [and_one_shiftLeft_eq_zero (by decide), not_not]
      simpa [Admits, index] using hm
    simp only [index] at hs
    simp [sendUafuEventRequest, hq, hs, hbit, UInt32.not_le.mpr (hn rfl)]
  | deassign =>
    have hbit : h.irqSet &&& 1#32 <<< x.eventHandle.flags.toNat = 0#32 := by
      rw [and_one_shiftLeft_eq_zero (by decide)]
      simpa [Admits, index] using hm
    simp only [index] at hs
    simp [sendUafuEventRequest, hq, hs, hbit]

theorem sendUafu_request (hq : queryNumIrqs env x.handle = .ok h)
    (hn : op = .assign → flags < h.numIrqs) (hi : index op flags x.eventHandle < 32)
    (hm : Admits op h.irqSet (index op flags x.eventHandle).toNat) :
    sendUafuEventRequest env op flags x =
      some (setUserIrq env (index op flags x.eventHandle) (evtfd op x.eventHandle)
        (toggled op flags h x)) := by
  have hs := shiftOne_of_lt hi
  cases op with
  | assign =>
    have hbit : h.irqSet &&& 1#32 <<< flags.toNat = 0#32 := by
      rw [and_one_shiftLeft_eq_zero (by decide)]
      simpa [Admits, index] using hm
    simp only [index] at hs
    simp [sendUafuEventRequest, hq, hs, hbit, UInt32.not_le.mpr (hn rfl), index, evtfd, toggled,
      toggle, setBit]
  | deassign =>
    have hbit : ¬(h.irqSet &&& 1#32 <<< x.eventHandle.flags.toNat = 0#32) := by
      rw [and_one_shiftLeft_eq_zero (by decide), not_not]
      simpa [Admits, index] using hm
    simp only [index] at hs
    simp [sendUafuEventRequest, hq, hs, hbit, index, evtfd, toggled, toggle, clearBit]

/-- The request has to look at the mask, with the number of interrupts in `h`. -/
structure Looks (op : IrqOperation) (env : EventEnv) (eventType : FpgaEventType) (flags : UInt32)
    (h₀ h : FpgaHandle) : Prop where
  interrupt : eventType = .interrupt
  supported : checkUserInterruptsSupported env = (.ok, .accelerator)
  numIrqs : queryNumIrqs env h₀ = .ok h
  inRange : op = .assign → flags < h.numIrqs

/-- No mask and no user interrupt differs. -/
structure Still (x x' : Ends) : Prop where
  token : x'.handle.token = x.handle.token
  irqSet : x'.handle.irqSet = x.handle.irqSet
  userIrq : ∀ devpath, (x'.driver devpath).userIrq = (x.driver devpath).userIrq

theorem still_refl (x : Ends) : Still x x := ⟨rfl, rfl, fun _ => rfl⟩

theorem still_withDevice {change : Device → Device} (hc : ∀ d, (change d).userIrq = d.userIrq) :
    Still x (x.withDevice change) := by
  refine ⟨rfl, rfl, fun devpath => ?_⟩
  simp only [Ends.withDevice, Function.update_apply]
  split
  · next hd => rw [hc, hd]
  · rfl

theorem sendErr_still (set : FpgaResult → Option Nat → Ends → FpgaResult × Ends)
    (hset : ∀ res fd, Still x (set res fd x).2) : Still x (sendErrEventRequest set env x).2 := by
  unfold sendErrEventRequest
  split
  · exact still_refl x
  · split
    · exact hset _ _
    · exact still_refl x

theorem setFmeErrIrq_still (res : FpgaResult) (fd : Option Nat) :
    Still x (opaeDflFmeSetErrIrq res fd x).2 := by
  unfold opaeDflFmeSetErrIrq
  split
  · dsimp only
    exact still_withDevice fun _ => rfl
  · exact still_refl x

theorem setPortErrIrq_still (res : FpgaResult) (fd : Option Nat) :
    Still x (opaeDflPortSetErrIrq res fd x).2 := by
  unfold opaeDflPortSetErrIrq
  split
  · dsimp only
    exact still_withDevice fun _ => rfl
  · exact still_refl x

theorem not_looks {eventType : FpgaEventType} {h₀ : FpgaHandle} (hne : eventType ≠ .interrupt) :
    ¬∃ h, Looks op env eventType flags h₀ h := fun ⟨_, hl⟩ => hne hl.interrupt

theorem driverEvent_cases (op : IrqOperation) (env : EventEnv) (eventType : FpgaEventType)
    (flags : UInt32) (x : Ends) :
    (∃ h, Looks op env eventType flags x.handle h ∧
      driverEvent op env eventType flags x = sendUafuEventRequest env op flags x) ∨
    (¬∃ h, Looks op env eventType flags x.handle h) ∧
      ∃ r, driverEvent op env eventType flags x = some r ∧ Still x r.2 := by
  cases eventType with
  | error =>
    refine .inr ⟨not_looks (by decide), ?_⟩
    simp only [driverEvent]
    split
    · exact ⟨_, rfl, sendErr_still _ setFmeErrIrq_still⟩
    · exact ⟨_, rfl, sendErr_still _ setPortErrIrq_still⟩
    · exact ⟨_, rfl, still_refl x⟩
  | powerThermal => exact .inr ⟨not_looks (by decide), _, rfl, still_refl x⟩
  | unknown => exact .inr ⟨not_looks (by decide), _, rfl, still_refl x⟩
  | interrupt =>
    obtain ⟨⟨res, objtype⟩, hsup⟩ : ∃ r, checkUserInterruptsSupported env = r := ⟨_, rfl⟩
    by_cases ho : objtype = .accelerator
    · by_cases hr : res = .ok
      · subst ho hr
        have he : driverEvent op env .interrupt flags x = sendUafuEventRequest env op flags x := by
          simp [driverEvent, hsup]
        cases hq : queryNumIrqs env x.handle with
        | error res =>
          refine .inr ⟨fun ⟨h, hl⟩ => ?_, _, he.trans (sendUafu_refused hq), still_refl x⟩
          cases hq.symm.trans hl.numIrqs
        | ok h =>
          by_cases hn : op = .assign → flags < h.numIrqs
          · exact .inl ⟨h, ⟨rfl, hsup, hq, hn⟩, he⟩
          · obtain ⟨hop, hlt⟩ := Classical.not_imp.mp hn
            obtain ⟨ht, hi⟩ := queryNumIrqs_keeps hq
            refine .inr ⟨fun ⟨h', hl⟩ => ?_, _, he.trans (sendUafu_past hq hop hlt),
              ⟨ht, hi, fun _ => rfl⟩⟩
            obtain rfl : h = h' := Except.ok.inj (hq.symm.trans hl.numIrqs)
            exact hlt (hl.inRange hop)
      · have he : driverEvent op env .interrupt flags x = some (.notSupported, x) := by
          simp [driverEvent, hsup, ho, hr]
        refine .inr ⟨fun ⟨h, hl⟩ => hr ?_, _, he, still_refl x⟩
        exact (Prod.mk.inj (hsup.symm.trans hl.supported)).1
    · have he : driverEvent op env .interrupt flags x = some (.invalidParam, x) := by
        simp [driverEvent, hsup, ho]
      refine .inr ⟨fun ⟨h, hl⟩ => ho ?_, _, he, still_refl x⟩
      exact (Prod.mk.inj (hsup.symm.trans hl.supported)).2

end

def granted (op : IrqOperation) (i : UInt32) (eh : FpgaEventHandle) (devpath : List Char)
    (d : Driver) : Driver :=
  Function.update d devpath
    { d devpath with userIrq := Function.update (d devpath).userIrq i.toNat (evtfd op eh) }

theorem setUserIrq_eq (env : EventEnv) (i : UInt32) (op : IrqOperation) (eh : FpgaEventHandle)
    (x : Ends) :
    setUserIrq env i (evtfd op eh) x = if env.setIrq = .ok then
      (.ok, { x with driver := granted op i eh x.handle.token.devpath x.driver })
      else (.exception, x) := by
  by_cases h : env.setIrq = .ok
  · simp [setUserIrq, opaeDflPortSetUserIrq, h, Ends.withDevice, granted]
  · simp [setUserIrq, opaeDflPortSetUserIrq, h]

/-- The call has to look at the mask of the handle `h`. -/
structure Asks (s : Plugin) (c : Call) (id eid : Nat) (h : FpgaHandle) (eh : FpgaEventHandle) :
    Prop where
  handle : checkAndLock s.handles c.handle = some (id, h)
  eventHandle : checkAndLock s.eventHandles c.eventHandle = some (eid, eh)
  magic : h.token.magic = true
  port : ['p', 'o', 'r', 't'] <:+: h.token.devpath
  looks : ∃ h', Looks c.op c.env c.eventType c.flags h h'

/-- No mask of a handle and no user interrupt differs. -/
structure SameIrqs (s s' : Plugin) : Prop where
  irqSet : ∀ id, (s'.handles.get id).map (fun h => (h.token, h.irqSet)) =
    (s.handles.get id).map fun h => (h.token, h.irqSet)
  userIrq : ∀ devpath, (s'.driver devpath).userIrq = (s.driver devpath).userIrq

theorem sameIrqs_refl (s : Plugin) : SameIrqs s s := ⟨fun _ => rfl, fun _ => rfl⟩

def daemonEvent (op : IrqOperation) (env : DaemonEnv) (h : FpgaHandle) : FpgaResult × FpgaHandle :=
  match op with
  | .assign => daemonRegisterEvent env h
  | .deassign => daemonUnregisterEvent env h

theorem requestDaemon_keeps (env : DaemonEnv) (h : FpgaHandle) :
    (requestDaemon env h).2.token = h.token ∧ (requestDaemon env h).2.irqSet = h.irqSet := by
  unfold requestDaemon
  dsimp only
  repeat' split
  all_goals exact ⟨rfl, rfl⟩

theorem daemonEvent_keeps (op : IrqOperation) (env : DaemonEnv) (h : FpgaHandle) :
    (daemonEvent op env h).2.token = h.token ∧ (daemonEvent op env h).2.irqSet = h.irqSet := by
  cases op with
  | assign =>
    simp only [daemonEvent, daemonRegisterEvent]
    repeat' split
    · exact requestDaemon_keeps env h
    · exact ⟨rfl, rfl⟩
    · exact ⟨rfl, rfl⟩
    · exact requestDaemon_keeps env _
  | deassign =>
    simp only [daemonEvent, daemonUnregisterEvent]
    split
    · exact ⟨rfl, rfl⟩
    · exact requestDaemon_keeps env h

theorem apply_eq (s : Plugin) (c : Call) : apply s c =
    eventCall (driverEvent c.op c.env c.eventType c.flags) (daemonEvent c.op c.env.daemon) s
      c.handle c.eventType c.eventHandle := by
  obtain ⟨op, env, handle, eventType, eventHandle, flags⟩ := c
  cases op with
  | assign => rfl
  | deassign => cases eventType <;> rfl

theorem checkAndLock_get {α : Type} {objects : Slots α} {id : Option Nat} {i : Nat} {a : α}
    (h : checkAndLock objects id = some (i, a)) : objects.get i = some a := by
  obtain ⟨j, -, hj⟩ := Option.bind_eq_some_iff.mp h
  obtain ⟨b, hb, he⟩ := Option.map_eq_some_iff.mp hj
  cases he
  exact hb

section

variable {s : Plugin} {c : Call} {id eid : Nat} {h : FpgaHandle} {eh : FpgaEventHandle}

def requested (s : Plugin) (c : Call) (id eid : Nat) (h : FpgaHandle) (eh : FpgaEventHandle)
    (h' : FpgaHandle) : Plugin where
  handles := s.handles.set id h'
  eventHandles := s.eventHandles.set eid { eh with flags := index c.op c.flags eh }
  driver := if c.env.setIrq = .ok then
    granted c.op (index c.op c.flags eh) eh h.token.devpath s.driver else s.driver

theorem apply_undefined (ha : Asks s c id eid h eh) (hi : ¬index c.op c.flags eh < 32) :
    apply s c = none := by
  obtain ⟨h', hint, hsup, hq, hn⟩ := ha.looks
  have hd : driverEvent c.op c.env c.eventType c.flags ⟨h, eh, s.driver⟩ = none := by
    rw [hint, ← sendUafu_undefined (x := ⟨h, eh, s.driver⟩) hq hn hi]
    simp [driverEvent, hsup]
  simp [apply_eq, eventCall, ha.handle, ha.eventHandle, ha.magic, ha.port, hd]

theorem sameIrqs_set (hid : s.handles.get id = some h) {h' : FpgaHandle}
    (ht : h'.token = h.token) (hi : h'.irqSet = h.irqSet) (eventHandles : Slots FpgaEventHandle)
    {driver : Driver} (hd : ∀ devpath, (driver devpath).userIrq = (s.driver devpath).userIrq) :
    SameIrqs s ⟨s.handles.set id h', eventHandles, driver⟩ := by
  refine ⟨fun id' => ?_, hd⟩
  rw [Slots.get_set hid]
  split
  · next he => simp [he, hid, ht, hi]
  · rfl

theorem apply_in_use (ha : Asks s c id eid h eh) (hi : index c.op c.flags eh < 32)
    (hm : ¬Admits c.op h.irqSet (index c.op c.flags eh).toNat) :
    ∃ s', apply s c = some (.invalidParam, s') ∧ SameIrqs s s' := by
  obtain ⟨h', hint, hsup, hq, hn⟩ := ha.looks
  obtain ⟨ht, hirq⟩ := queryNumIrqs_keeps hq
  rw [← hirq] at hm
  have hd : driverEvent c.op c.env c.eventType c.flags ⟨h, eh, s.driver⟩ =
      some (.invalidParam, ⟨h', eh, s.driver⟩) := by
    rw [hint, ← sendUafu_in_use (x := ⟨h, eh, s.driver⟩) hq hn hi hm]
    simp [driverEvent, hsup]
  refine ⟨_, ?_, sameIrqs_set (checkAndLock_get ha.handle) ht hirq (s.eventHandles.set eid eh)
    fun _ => rfl⟩
  simp [apply_eq, eventCall, ha.handle, ha.eventHandle, ha.magic, ha.port, hd]

theorem apply_request (ha : Asks s c id eid h eh) (hi : index c.op c.flags eh < 32)
    (hm : Admits c.op h.irqSet (index c.op c.flags eh).toNat) :
    ∃ h', h'.token = h.token ∧ h'.irqSet = toggle c.op h.irqSet (index c.op c.flags eh).toNat ∧
      apply s c = some (if c.env.setIrq = .ok then .ok else .exception,
        requested s c id eid h eh h') := by
  obtain ⟨h', hint, hsup, hq, hn⟩ := ha.looks
  obtain ⟨ht, hirq⟩ := queryNumIrqs_keeps hq
  rw [← hirq] at hm
  have hd := sendUafu_request (x := ⟨h, eh, s.driver⟩) hq hn hi hm
  have he : driverEvent c.op c.env c.eventType c.flags ⟨h, eh, s.driver⟩ =
      some (setUserIrq c.env (index c.op c.flags eh) (evtfd c.op eh)
        (toggled c.op c.flags h' ⟨h, eh, s.driver⟩)) := by
    rw [hint, ← hd]
    simp [driverEvent, hsup]
  rw [setUserIrq_eq] at he
  refine ⟨{ h' with irqSet := toggle c.op h'.irqSet (index c.op c.flags eh).toNat }, ht,
    by rw [hirq], ?_⟩
  by_cases hs : c.env.setIrq = .ok
  · rw [if_pos hs] at he
    simp [apply_eq, eventCall, ha.handle, ha.eventHandle, ha.magic, ha.port, he, hs, requested,
      toggled, ht]
  · rw [if_neg hs] at he
    simp [apply_eq, eventCall, ha.handle, ha.eventHandle, ha.magic, ha.port, he, hs, requested,
      toggled]

theorem apply_still (hno : ∀ id eid h eh, ¬Asks s c id eid h eh) :
    ∃ r, apply s c = some r ∧ SameIrqs s r.2 := by
  rw [apply_eq, eventCall]
  cases hh : checkAndLock s.handles c.handle with
  | none => exact ⟨_, rfl, sameIrqs_refl s⟩
  | some x =>
    obtain ⟨id, h⟩ := x
    cases heh : checkAndLock s.eventHandles c.eventHandle with
    | none => exact ⟨_, rfl, sameIrqs_refl s⟩
    | some y =>
      obtain ⟨eid, eh⟩ := y
      dsimp only
      split
      · exact ⟨_, rfl, sameIrqs_refl s⟩
      split
      · exact ⟨_, rfl, sameIrqs_refl s⟩
      next hmagic hport =>
      have hid := checkAndLock_get hh
      obtain ⟨h', hl, -⟩ | ⟨-, ⟨res, x⟩, hd, hstill⟩ :=
        driverEvent_cases c.op c.env c.eventType c.flags ⟨h, eh, s.driver⟩
      · refine absurd ⟨hh, heh, by simpa using hmagic, ?_, h', hl⟩ (hno id eid h eh)
        by_contra hp
        exact hport ⟨hl.interrupt, hp⟩
      · rw [hd]
        by_cases hres : res = .notSupported
        · obtain ⟨ht, hi⟩ := daemonEvent_keeps c.op c.env.daemon x.handle
          simp only [Option.bind_eq_bind, Option.bind_some, if_pos hres]
          exact ⟨_, rfl, sameIrqs_set hid (ht.trans hstill.token) (hi.trans hstill.irqSet) _
            hstill.userIrq⟩
        · simp only [Option.bind_eq_bind, Option.bind_some, if_neg hres]
          exact ⟨_, rfl, sameIrqs_set hid hstill.token hstill.irqSet _ hstill.userIrq⟩

end

/-- Each mask says which user interrupts of the handle's device have an eventfd. -/
def Booked (s : Plugin) : Prop := ∀ id h, s.handles.get id = some h →
  ∀ i, hasBit h.irqSet i ↔ ((s.driver h.token.devpath).userIrq i).isSome

/-- What a call has to keep: the books, everything if it fails, and, if it takes an eventfd from the
driver, those of other event handles. -/
structure Agrees (s : Plugin) (c : Call) (res : FpgaResult) (s' : Plugin) : Prop where
  booked : Booked s'
  failing : res ≠ .ok → SameIrqs s s'
  own : c.op = .deassign → ∀ devpath i fd, (s.driver devpath).userIrq i = some fd →
    (s'.driver devpath).userIrq i = none →
      ∃ eid eh, checkAndLock s.eventHandles c.eventHandle = some (eid, eh) ∧ eh.fd = fd

/-- What the request needs once the mask admits it: the driver grants it, no other handle is open
on the device, and the eventfd that it takes away is the event handle's. -/
structure Served (s : Plugin) (c : Call) (id : Nat) (h : FpgaHandle) (eh : FpgaEventHandle) :
    Prop where
  setIrq : c.env.setIrq = .ok
  alone : ∀ id' h', s.handles.get id' = some h' → h'.token.devpath = h.token.devpath → id' = id
  own : c.op = .deassign →
    (s.driver h.token.devpath).userIrq (index c.op c.flags eh).toNat = some eh.fd

def Sound (s : Plugin) (c : Call) : Prop := ∀ id eid h eh, Asks s c id eid h eh →
  index c.op c.flags eh < 32 ∧
    (Admits c.op h.irqSet (index c.op c.flags eh).toNat → Served s c id h eh)

section

variable {s : Plugin} {c : Call} {id eid : Nat} {h h' : FpgaHandle} {eh : FpgaEventHandle}

theorem booked_of_same {s' : Plugin} (hb : Booked s) (hsame : SameIrqs s s') : Booked s' := by
  intro id h' hid' i
  obtain ⟨h, hid, he⟩ :=
    Option.map_eq_some_iff.mp ((hsame.irqSet id).symm.trans (by rw [hid']; rfl))
  obtain ⟨ht, hirq⟩ := Prod.mk.inj he
  rw [← ht, ← hirq, hsame.userIrq]
  exact hb id h hid i

theorem agrees_of_same {s' : Plugin} (hb : Booked s) (hsame : SameIrqs s s') (res : FpgaResult) :
    Agrees s c res s' := by
  refine ⟨booked_of_same hb hsame, fun _ => hsame, fun _ devpath i fd hs hn => ?_⟩
  rw [hsame.userIrq, hs] at hn
  cases hn

theorem granted_userIrq (op : IrqOperation) (n : UInt32) (eh : FpgaEventHandle)
    (devpath devpath' : List Char) (d : Driver) (i : Nat) :
    ((granted op n eh devpath d) devpath').userIrq i =
      if devpath' = devpath ∧ i = n.toNat then evtfd op eh else (d devpath').userIrq i := by
  by_cases hd : devpath' = devpath
  · subst hd
    simp [granted, Function.update_apply]
  · simp [granted, hd]

theorem evtfd_isSome (op : IrqOperation) (eh : FpgaEventHandle) :
    (evtfd op eh).isSome ↔ op = .assign := by
  cases op <;> simp [evtfd]

theorem booked_requested (hb : Booked s) (hid : s.handles.get id = some h)
    (ht : h'.token = h.token)
    (hirq : h'.irqSet = toggle c.op h.irqSet (index c.op c.flags eh).toNat)
    (hi : index c.op c.flags eh < 32) (hs : Served s c id h eh) :
    Booked (requested s c id eid h eh h') := by
  have hi : (index c.op c.flags eh).toNat < 32 := hi
  intro id' h₁ hid' i
  simp only [requested, Slots.get_set hid, if_pos hs.setIrq, granted_userIrq] at hid' ⊢
  split at hid'
  · cases hid'
    rw [hirq, hasBit_toggle _ _ hi, ht]
    by_cases hii : i = (index c.op c.flags eh).toNat
    · simp [hii, evtfd_isSome]
    · simp [hii, hb id h hid i]
  · next hne =>
    have hd : h₁.token.devpath ≠ h.token.devpath := fun hd => hne (hs.alone id' h₁ hid' hd)
    simp [hd, hb id' h₁ hid' i]

theorem agrees_requested (hb : Booked s) (ha : Asks s c id eid h eh) (ht : h'.token = h.token)
    (hirq : h'.irqSet = toggle c.op h.irqSet (index c.op c.flags eh).toNat)
    (hi : index c.op c.flags eh < 32) (hs : Served s c id h eh) :
    Agrees s c .ok (requested s c id eid h eh h') := by
  refine ⟨booked_requested hb (checkAndLock_get ha.handle) ht hirq hi hs, fun hne => absurd rfl hne,
    fun hop devpath i fd hfd hn => ⟨eid, eh, ha.eventHandle, ?_⟩⟩
  simp only [requested, if_pos hs.setIrq, granted_userIrq] at hn
  split at hn
  · next hat =>
    rw [hat.1, hat.2, hs.own hop] at hfd
    exact Option.some.inj hfd
  · rw [hfd] at hn
    cases hn

theorem not_admits_toggle (op : IrqOperation) (v : BitVec 32) {i : Nat} (hi : i < 32)
    (hm : Admits op v i) : ¬(hasBit (toggle op v i) i ↔ hasBit v i) := by
  rw [hasBit_toggle op v hi, if_pos rfl]
  have hm : hasBit v i ↔ op = .deassign := hm
  rw [hm]
  cases op <;> simp

theorem served_of_agrees (hb : Booked s) (ha : Asks s c id eid h eh) (ht : h'.token = h.token)
    (hirq : h'.irqSet = toggle c.op h.irqSet (index c.op c.flags eh).toNat)
    (hi : index c.op c.flags eh < 32)
    (hm : Admits c.op h.irqSet (index c.op c.flags eh).toNat)
    (hag : Agrees s c (if c.env.setIrq = .ok then .ok else .exception)
      (requested s c id eid h eh h')) : Served s c id h eh := by
  have hlt : (index c.op c.flags eh).toNat < 32 := hi
  have hturn := not_admits_toggle c.op h.irqSet hlt hm
  have hid := checkAndLock_get ha.handle
  have hset : c.env.setIrq = .ok := by
    by_contra hs
    have hsame := (hag.failing (by simp [hs])).irqSet id
    simp only [requested, Slots.get_set hid, if_pos, hid, Option.map_some, ht] at hsame
    obtain ⟨-, he⟩ := Prod.mk.inj (Option.some.inj hsame)
    rw [← hirq, he] at hturn
    exact hturn Iff.rfl
  have hafter : ((requested s c id eid h eh h').driver h.token.devpath).userIrq
      (index c.op c.flags eh).toNat = evtfd c.op eh := by
    simp [requested, hset, granted_userIrq]
  refine ⟨hset, fun id' h₁ hid' hd => ?_, fun hop => ?_⟩
  · by_contra hne
    have hid'' : (requested s c id eid h eh h').handles.get id' = some h₁ := by
      simp [requested, Slots.get_set hid, hne, hid']
    have hnew := hag.booked id' h₁ hid'' (index c.op c.flags eh).toNat
    have hold := hb id' h₁ hid' (index c.op c.flags eh).toNat
    rw [hd] at hnew hold
    rw [hafter, evtfd_isSome] at hnew
    rw [hasBit_toggle _ _ hlt, if_pos rfl, hb id h hid] at hturn
    exact hturn (hnew.symm.trans hold)
  · have hbit := (hb id h hid _).mp (hm.mpr hop)
    obtain ⟨fd, hfd⟩ := Option.isSome_iff_exists.mp hbit
    rw [hop, evtfd, ← hop] at hafter
    obtain ⟨eid', eh', he, rfl⟩ := hag.own hop _ _ fd hfd hafter
    cases ha.eventHandle.symm.trans he
    exact hfd

theorem agrees_iff (hb : Booked s) :
    (∃ res s', apply s c = some (res, s') ∧ Agrees s c res s') ↔ Sound s c := by
  constructor
  · rintro ⟨res, s', he, hag⟩ id eid h eh ha
    have hi : index c.op c.flags eh < 32 := by
      by_contra hi
      rw [apply_undefined ha hi] at he
      cases he
    refine ⟨hi, fun hm => ?_⟩
    obtain ⟨h', ht, hirq, he'⟩ := apply_request ha hi hm
    cases he.symm.trans he'
    exact served_of_agrees hb ha ht hirq hi hm hag
  · intro hs
    by_cases hask : ∃ id eid h eh, Asks s c id eid h eh
    · obtain ⟨id, eid, h, eh, ha⟩ := hask
      obtain ⟨hi, hserved⟩ := hs id eid h eh ha
      by_cases hm : Admits c.op h.irqSet (index c.op c.flags eh).toNat
      · obtain ⟨h', ht, hirq, he⟩ := apply_request ha hi hm
        rw [if_pos (hserved hm).setIrq] at he
        exact ⟨_, _, he, agrees_requested hb ha ht hirq hi (hserved hm)⟩
      · obtain ⟨s', he, hsame⟩ := apply_in_use ha hi hm
        exact ⟨_, _, he, agrees_of_same hb hsame _⟩
    · obtain ⟨⟨res, s'⟩, he, hsame⟩ :=
        apply_still fun id eid h eh ha => hask ⟨id, eid, h, eh, ha⟩
      exact ⟨_, _, he, agrees_of_same hb hsame _⟩

end

structure Opened (s : Plugin) : Prop where
  irqSet : s.handles.All fun h => h.irqSet = 0
  userIrq : ∀ devpath i, (s.driver devpath).userIrq i = none

theorem booked_of_opened {s : Plugin} (h : Opened s) : Booked s := by
  intro id h₁ hid i
  rw [h.irqSet id h₁ hid, h.userIrq]
  simp [not_hasBit_zero]

def Keeps (s : Option Plugin) (c : Call) : Prop :=
  ∃ p, s = some p ∧ ∃ res p', apply p c = some (res, p') ∧ Agrees p c res p'

def Guarded (s : Option Plugin) (c : Call) : Prop := ∀ p ∈ s, Sound p c

/-- The masks match the driver, in every state of a run, exactly if no call shifts too far and each
request that the masks admit is granted, on a device with one handle, for the event handle's own
eventfd. -/
theorem run_keeps_iff {s : Plugin} (h : Opened s) (calls : List Call) :
    Along step Keeps (some s) calls ↔ Along step Guarded (some s) calls := by
  refine along_iff (I := fun s => ∃ p, s = some p ∧ Booked p) ?_ ?_ calls
    ⟨s, rfl, booked_of_opened h⟩
  · rintro _ c ⟨p, rfl, hb⟩ hg
    obtain ⟨res, p', he, hag⟩ := (agrees_iff hb).mpr (hg p rfl)
    exact ⟨p', by simp [step, he], hag.booked⟩
  · rintro _ c ⟨p, rfl, hb⟩
    constructor
    · rintro ⟨_, hp, hag⟩ q hq
      cases hp
      cases hq
      exact (agrees_iff hb).mp hag
    · intro hg
      exact ⟨p, rfl, (agrees_iff hb).mpr (hg p rfl)⟩

def sampleHandle : FpgaHandle := ⟨⟨true, ['p', 'o', 'r', 't', '0']⟩, none, 0, 0⟩

def sampleDriver : Driver := fun _ => ⟨fun _ => none, none, none⟩

def samplePlugin : Plugin := ⟨⟨[some sampleHandle]⟩, ⟨[some ⟨5, 7⟩]⟩, sampleDriver⟩

theorem samplePlugin_opened : Opened samplePlugin := by
  refine ⟨fun id h hid => ?_, fun _ _ => rfl⟩
  match id, hid with
  | 0, hid =>
    obtain rfl : sampleHandle = h := Option.some.inj hid
    rfl

def sampleEnv (setIrq : FpgaResult) : EventEnv :=
  let props : PropsEnv := ⟨.ok (fpgaPropertiesSetObjectType opaePropertiesCreate .accelerator).2, .ok⟩
  ⟨.device, props, ⟨.ok, 4⟩, ⟨.ok, 4⟩, setIrq, ⟨none, false, props, false⟩⟩

def sampleRegister (setIrq : FpgaResult) : Call :=
  ⟨.assign, sampleEnv setIrq, some 0, .interrupt, some 0, 3⟩

theorem sampleRegister_guarded : Guarded (some samplePlugin) (sampleRegister .ok) := by
  intro p hp id eid h eh ha
  obtain rfl : samplePlugin = p := Option.some.inj hp
  obtain ⟨rfl, rfl⟩ := Prod.mk.inj (Option.some.inj ha.handle)
  have hi : (3 : UInt32) < 32 := by decide
  refine ⟨hi, fun _ => ⟨rfl, fun id' h' hid' _ => ?_, fun hop => by cases hop⟩⟩
  match id', hid' with
  | 0, _ => rfl

theorem run_keeps_iff_sample :
    Along step Keeps (some samplePlugin) [sampleRegister .ok] :=
  (run_keeps_iff samplePlugin_opened [sampleRegister .ok]).mpr ⟨sampleRegister_guarded, trivial⟩

/-- The driver refuses the request: the bit of the mask is set although no eventfd is assigned. -/
theorem refused_irq_keeps_bit :
    ∃ p, apply samplePlugin (sampleRegister .noMemory) = some (.exception, p) ∧
      p.handles.get 0 = some { sampleHandle with numIrqs := 4, irqSet := 8 } ∧
      (∀ devpath i, (p.driver devpath).userIrq i = none) ∧
      ¬Along step Keeps (some samplePlugin) [sampleRegister .noMemory] := by
  have he : apply samplePlugin (sampleRegister .noMemory) = some (.exception,
      ⟨⟨[some { sampleHandle with numIrqs := 4, irqSet := 8 }]⟩, ⟨[some ⟨5, 3⟩]⟩,
        sampleDriver⟩) := rfl
  refine ⟨_, he, rfl, fun _ _ => rfl, ?_⟩
  rintro ⟨⟨_, hp, res, p', he', hag⟩, -⟩
  cases hp
  cases he.symm.trans he'
  have hbit := (hag.booked 0 _ rfl 3).mp (by decide)
  cases hbit

end OpaeLibs.PluginXfpga.IrqRuns
