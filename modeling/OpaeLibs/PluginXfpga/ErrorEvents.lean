import OpaeLibs.PluginXfpga.IrqRuns

namespace OpaeLibs.PluginXfpga.ErrorEvents

open OpaeLibs.Lib.Heap OpaeLibs.Lib.Runs
open OpaeLibs.OpaeC.Props OpaeLibs.PluginXfpga.Events OpaeLibs.PluginXfpga.IrqRuns

def errIrq (objtype : FpgaObjtype) (d : Device) : Option Nat :=
  match objtype with
  | .device => d.fmeErrIrq
  | .accelerator => d.portErrIrq

def assignErr (objtype : FpgaObjtype) (fd : Nat) (d : Device) : Device :=
  match objtype with
  | .device => { d with fmeErrIrq := some fd }
  | .accelerator => { d with portErrIrq := some fd }

@[simp] theorem errIrq_assignErr (objtype : FpgaObjtype) (fd : Nat) (d : Device) :
    errIrq objtype (assignErr objtype fd d) = some fd := by
  cases objtype <;> rfl

/-- The handle's type is found, and the driver counts error interrupts and does not answer that it
cannot set them. -/
structure Supports (env : EventEnv) (objtype : FpgaObjtype) : Prop where
  check : checkErrInterruptsSupported env = (.ok, objtype)
  irqNum : env.irqNum.res = .ok
  numIrqs : env.irqNum.numIrqs > 0
  setIrq : env.setIrq ≠ .notSupported

def OnError (c : Call) : Prop := c.eventType = .error ∧ ∃ objtype, Supports c.env objtype

def objtypeOf (c : Call) : FpgaObjtype := (checkErrInterruptsSupported c.env).2

structure Names (s : Plugin) (c : Call) (id eid : Nat) (h : FpgaHandle) (eh : FpgaEventHandle) :
    Prop where
  handle : checkAndLock s.handles c.handle = some (id, h)
  eventHandle : checkAndLock s.eventHandles c.eventHandle = some (eid, eh)
  magic : h.token.magic = true

/-- After a call that returns `FPGA_OK` the driver has the event handle's eventfd assigned to the
error interrupt just if it was registered. -/
def Assigned (s : Option Plugin) (c : Call) : Prop :=
  ∀ p ∈ s, ∀ p', apply p c = some (.ok, p') → ∃ id eid h eh, Names p c id eid h eh ∧
    (errIrq (objtypeOf c) (p'.driver h.token.devpath) = some eh.fd ↔ c.op = .assign)

def NeverFreed (s : Option Plugin) (c : Call) : Prop :=
  ∀ p ∈ s, (∃ id eid h eh, Names p c id eid h eh) → c.op = .deassign → c.env.setIrq ≠ .ok

section

variable {s : Plugin} {c : Call} {id eid : Nat} {h : FpgaHandle} {eh : FpgaEventHandle}

theorem driverEvent_error {objtype : FpgaObjtype} (hc : Supports c.env objtype) (x : Ends) :
    driverEvent c.op c.env .error c.flags x = some (c.env.setIrq,
      if c.env.setIrq = .ok then x.withDevice (assignErr objtype x.eventHandle.fd) else x) := by
  obtain ⟨hcheck, hnum, hirqs, -⟩ := hc
  by_cases hset : c.env.setIrq = .ok
  · cases objtype with
    | device =>
      simp [driverEvent, hcheck, sendFmeEventRequest, sendErrEventRequest, hnum, hirqs,
        opaeDflFmeSetErrIrq, hset]
      rfl
    | accelerator =>
      simp [driverEvent, hcheck, sendPortEventRequest, sendErrEventRequest, hnum, hirqs,
        opaeDflPortSetErrIrq, hset]
      rfl
  · cases objtype with
    | device =>
      simp [driverEvent, hcheck, sendFmeEventRequest, sendErrEventRequest, hnum, hirqs,
        opaeDflFmeSetErrIrq, hset]
    | accelerator =>
      simp [driverEvent, hcheck, sendPortEventRequest, sendErrEventRequest, hnum, hirqs,
        opaeDflPortSetErrIrq, hset]

theorem apply_error (hc : OnError c) :
    (∃ id eid h eh, Names s c id eid h eh ∧ ∃ p', apply s c = some (c.env.setIrq, p') ∧
      (c.env.setIrq = .ok →
        errIrq (objtypeOf c) (p'.driver h.token.devpath) = some eh.fd)) ∨
    (¬∃ id eid h eh, Names s c id eid h eh) ∧ apply s c = some (.invalidParam, s) := by
  obtain ⟨htype, objtype, hsup⟩ := hc
  have hobj : objtypeOf c = objtype := congrArg Prod.snd hsup.check
  rw [apply_eq, eventCall]
  cases hh : checkAndLock s.handles c.handle with
  | none =>
    refine .inr ⟨?_, rfl⟩
    rintro ⟨id, eid, h, eh, hn⟩
    cases hh.symm.trans hn.handle
  | some x =>
    obtain ⟨id, h⟩ := x
    cases heh : checkAndLock s.eventHandles c.eventHandle with
    | none =>
      refine .inr ⟨?_, rfl⟩
      rintro ⟨id, eid, h, eh, hn⟩
      cases heh.symm.trans hn.eventHandle
    | some y =>
      obtain ⟨eid, eh⟩ := y
      cases hmagic : h.token.magic with
      | false =>
        refine .inr ⟨?_, by simp [hmagic]⟩
        rintro ⟨id', eid', h', eh', hn⟩
        obtain ⟨-, rfl⟩ := Prod.mk.inj (Option.some.inj (hh.symm.trans hn.handle))
        exact Bool.false_ne_true (hmagic.symm.trans hn.magic)
      | true =>
        refine .inl ⟨id, eid, h, eh, ⟨hh, heh, hmagic⟩, ?_⟩
        simp only [hmagic, htype, driverEvent_error hsup, Option.bind_eq_bind, Option.bind_some,
          hsup.setIrq, if_false]
        refine ⟨_, by simp; rfl, fun hset => ?_⟩
        simp [hset, hobj, Ends.withDevice]

theorem assigned_iff (hc : OnError c) : Assigned (some s) c ↔ NeverFreed (some s) c := by
  obtain ⟨id, eid, h, eh, hn, p', heq, hfd⟩ | ⟨hno, heq⟩ := apply_error (s := s) hc
  · constructor
    · rintro hassigned p hp - hop hset
      obtain rfl := Option.some.inj hp
      obtain ⟨id', eid', h', eh', hn', hiff⟩ := hassigned s rfl p' (by rw [heq, hset])
      obtain ⟨-, rfl⟩ := Prod.mk.inj (Option.some.inj (hn.handle.symm.trans hn'.handle))
      obtain ⟨-, rfl⟩ := Prod.mk.inj (Option.some.inj (hn.eventHandle.symm.trans hn'.eventHandle))
      exact absurd (hop.symm.trans (hiff.mp (hfd hset))) nofun
    · rintro hnever p hp q hq
      obtain rfl := Option.some.inj hp
      obtain ⟨hset, rfl⟩ := Prod.mk.inj (Option.some.inj (heq.symm.trans hq))
      refine ⟨id, eid, h, eh, hn, iff_of_true (hfd hset) ?_⟩
      cases hop : c.op with
      | assign => rfl
      | deassign => exact absurd hset (hnever s rfl ⟨id, eid, h, eh, hn⟩ hop)
  · constructor
    · rintro - p hp hn
      obtain rfl := Option.some.inj hp
      exact absurd hn hno
    · rintro - p hp q hq
      obtain rfl := Option.some.inj hp
      exact nomatch heq.symm.trans hq

end

/-- In a run of calls about the error interrupt the driver has what was registered, and nothing that
was unregistered, exactly if it never grants a request to unregister. -/
theorem run_assigned_iff (s : Plugin) {calls : List Call} (hcalls : ∀ c ∈ calls, OnError c) :
    Along step Assigned (some s) calls ↔ Along step NeverFreed (some s) calls := by
  induction calls generalizing s with
  | nil => exact Iff.rfl
  | cons c calls ih =>
    have hc := hcalls c List.mem_cons_self
    have hstep : ∃ s', step (some s) c = some s' := by
      obtain ⟨_, _, _, _, -, p', heq, -⟩ | ⟨-, heq⟩ := apply_error (s := s) hc
      · exact ⟨p', by rw [step, Option.bind_some, heq]; rfl⟩
      · exact ⟨s, by rw [step, Option.bind_some, heq]; rfl⟩
    obtain ⟨s', hs'⟩ := hstep
    rw [along_cons, along_cons, assigned_iff hc, hs',
      ih s' fun c' hc' => hcalls c' (List.mem_cons_of_mem _ hc')]

section Sample

def sampleCall (op : IrqOperation) (eventHandle : Option Nat) : Call :=
  ⟨op, sampleEnv .ok, some 0, .error, eventHandle, 0⟩

theorem sampleCall_onError (op : IrqOperation) (eventHandle : Option Nat) :
    OnError (sampleCall op eventHandle) := by
  have hsup : Supports (sampleEnv .ok) .accelerator := ⟨rfl, rfl, by decide, by decide⟩
  exact ⟨rfl, .accelerator, hsup⟩

def sampleCalls : List Call := [sampleCall .assign (some 0), sampleCall .deassign none]

theorem run_assigned_iff_sample : Along step Assigned (some samplePlugin) sampleCalls := by
  refine (run_assigned_iff samplePlugin ?_).mpr ⟨?_, ?_, trivial⟩
  · simp [sampleCalls, sampleCall_onError]
  · intro p _ _ hop
    exact nomatch hop
  · rintro p - ⟨id, eid, h, eh, hn⟩
    exact nomatch hn.eventHandle

/-- What was registered and unregistered, each with `FPGA_OK`, is still assigned. -/
theorem unregistered_still_assigned : ∃ p p',
    apply samplePlugin (sampleCall .assign (some 0)) = some (.ok, p) ∧
    apply p (sampleCall .deassign (some 0)) = some (.ok, p') ∧
    (p'.driver sampleHandle.token.devpath).portErrIrq = some 5 ∧
    ¬Along step Assigned (some samplePlugin)
      [sampleCall .assign (some 0), sampleCall .deassign (some 0)] := by
  refine ⟨_, _, rfl, rfl, rfl, ?_⟩
  rintro ⟨-, hassigned, -⟩
  have hnever := (assigned_iff (sampleCall_onError .deassign (some 0))).mp hassigned
  exact hnever _ rfl ⟨0, 0, _, _, rfl, rfl, rfl⟩ rfl rfl

end Sample

end OpaeLibs.PluginXfpga.ErrorEvents
