import Mathlib

namespace OpaeLibs.Opaevfio.Irqs

def vfioIrqInfoEventfd : UInt32 := 1
def vfioPciMsixIrqIndex : UInt32 := 2

structure OpaeVfioDeviceIrq where
  flags : UInt32
  index : UInt32
  count : UInt32
deriving DecidableEq

/-- A request to give an interrupt an eventfd, or to take it away. -/
structure IrqRequest where
  index : UInt32
  subindex : UInt32
  eventFd : Option Nat
deriving DecidableEq

/-- What is known of the interrupts of a device, and the requests about them that the driver has
granted, the last one first. -/
structure OpaeVfioDevice where
  irqs : List OpaeVfioDeviceIrq
  granted : List IrqRequest
deriving DecidableEq

/-- The eventfd that an interrupt is routed to. -/
def OpaeVfioDevice.trigger (v : OpaeVfioDevice) (index subindex : UInt32) : Option Nat :=
  (v.granted.find? fun r => r.index = index ∧ r.subindex = subindex).bind IrqRequest.eventFd

/-- The driver's answer to `VFIO_DEVICE_SET_IRQS` is zero if it grants the request. -/
def setIrqs (ioctl : Int) (v : OpaeVfioDevice) (r : IrqRequest) : Int × OpaeVfioDevice :=
  (ioctl, if ioctl = 0 then { v with granted := r :: v.granted } else v)

def hasEventfd (index : UInt32) (irq : OpaeVfioDeviceIrq) : Bool :=
  irq.index = index && irq.flags &&& vfioIrqInfoEventfd ≠ 0

/-- Enabling and disabling differ in the eventfd only. -/
def requestIrq (ioctl : Int) (v : OpaeVfioDevice) (r : IrqRequest) : Int × OpaeVfioDevice :=
  match v.irqs.find? (hasEventfd r.index) with
  | some irq => if r.subindex < irq.count then setIrqs ioctl v r else (3, v)
  | none => (2, v)

def opaeVfioIrqEnable (ioctl : Int) (v : OpaeVfioDevice) (index subindex : UInt32)
    (eventFd : Nat) : Int × OpaeVfioDevice := requestIrq ioctl v ⟨index, subindex, some eventFd⟩

def opaeVfioIrqDisable (ioctl : Int) (v : OpaeVfioDevice) (index subindex : UInt32) :
    Int × OpaeVfioDevice := requestIrq ioctl v ⟨index, subindex, none⟩

/-- The device has the interrupt and the driver grants the request. -/
def Grants (ioctl : Int) (v : OpaeVfioDevice) (index subindex : UInt32) : Prop :=
  ioctl = 0 ∧ ∃ irq ∈ v.irqs.find? (hasEventfd index), subindex < irq.count

section

variable {ioctl : Int} {v : OpaeVfioDevice} {r : IrqRequest}

theorem requestIrq_cases (ioctl : Int) (v : OpaeVfioDevice) (r : IrqRequest) :
    (Grants ioctl v r.index r.subindex ∧
      requestIrq ioctl v r = (0, { v with granted := r :: v.granted })) ∨
    (¬Grants ioctl v r.index r.subindex ∧ ∃ res, res ≠ 0 ∧ requestIrq ioctl v r = (res, v)) := by
  unfold requestIrq Grants
  cases hirq : v.irqs.find? (hasEventfd r.index) with
  | none => exact .inr ⟨by simp, 2, by decide, rfl⟩
  | some irq =>
    by_cases hcount : r.subindex < irq.count
    · by_cases hioctl : ioctl = 0
      · exact .inl ⟨⟨hioctl, irq, rfl, hcount⟩, by simp [hcount, hioctl, setIrqs]⟩
      · exact .inr ⟨fun h => hioctl h.1, ioctl, hioctl, by simp [hcount, hioctl, setIrqs]⟩
    · refine .inr ⟨?_, 3, by decide, by simp [hcount]⟩
      rintro ⟨-, irq', hirq', hlt⟩
      obtain rfl := Option.some.inj hirq'
      exact hcount hlt

@[simp] theorem trigger_granted (v : OpaeVfioDevice) (r : IrqRequest) :
    ({ v with granted := r :: v.granted } : OpaeVfioDevice).trigger r.index r.subindex =
      r.eventFd := by
  simp [OpaeVfioDevice.trigger]

end

end OpaeLibs.Opaevfio.Irqs
