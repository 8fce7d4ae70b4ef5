import Mathlib

namespace OpaeLibs.Opaevfio.Open

/-- A descriptor is `true` while it is open, a string while it is allocated. -/
structure OpaeVfioGroup where
  groupDevice : Bool
  groupFd : Bool
deriving DecidableEq, Repr

/-- The indices of the mapped regions and of the interrupts that have a record. -/
structure OpaeVfioDevice where
  deviceFd : Bool
  regions : List Nat
  irqs : List Nat
deriving DecidableEq, Repr

/-- What a `struct opae_vfio` holds: `lock` is `true` while the mutex is initialised, `contRanges` and
`iovaAlloc` count records. -/
structure OpaeVfio where
  lock : Bool
  contDevice : Bool
  contPciaddr : Bool
  contFd : Bool
  contRanges : Nat
  iovaAlloc : Nat
  group : OpaeVfioGroup
  device : OpaeVfioDevice
deriving DecidableEq, Repr

def OpaeVfioGroup.closed : OpaeVfioGroup := ⟨false, false⟩

def OpaeVfioDevice.closed : OpaeVfioDevice := ⟨false, [], []⟩

def OpaeVfio.closed : OpaeVfio := ⟨false, false, false, false, 0, 0, .closed, .closed⟩

/-- The outcomes of the calls about a group, each `true` if the call succeeds. -/
structure GroupEnv where
  groupFor : Bool
  groupFd : Bool
  status : Bool
  viable : Bool
deriving DecidableEq, Repr

/-- `regions` and `irqs` say for each index whether it comes to be mapped or recorded. -/
structure DeviceEnv where
  arg : Bool
  deviceFd : Bool
  configRegion : Bool
  pciCommand : Bool
  info : Bool
  regions : List Bool
  irqs : List Bool
deriving DecidableEq, Repr

structure InitEnv where
  attrInit : Bool
  attrSettype : Bool
  mutexInit : Bool
  contDevice : Bool
  contPciaddr : Bool
  contFd : Bool
  apiVersion : Bool
  checkExtension : Bool
  group : GroupEnv
  setContainer : Bool
  setIommu : Bool
  device : DeviceEnv
  contRanges : Nat
  iovaAlloc : Nat
  attrDestroy : Bool
deriving DecidableEq, Repr

def opaeVfioGroupDestroy (g : OpaeVfioGroup) : OpaeVfioGroup :=
  let g := if g.groupFd then { g with groupFd := false } else g
  if g.groupDevice then { g with groupDevice := false } else g

def opaeVfioGroupInit (env : GroupEnv) : Nat × OpaeVfioGroup :=
  let g : OpaeVfioGroup := ⟨env.groupFor, false⟩
  if !env.groupFor then (1, opaeVfioGroupDestroy g)
  else
    let g := { g with groupFd := env.groupFd }
    if !env.groupFd then (2, opaeVfioGroupDestroy g)
    else if !env.status then (3, opaeVfioGroupDestroy g)
    else if !env.viable then (4, opaeVfioGroupDestroy g)
    else (0, g)

def opaeVfioDeviceDestroy (d : OpaeVfioDevice) : OpaeVfioDevice :=
  let d := { d with regions := [], irqs := [] }
  if d.deviceFd then { d with deviceFd := false } else d

def made (outcomes : List Bool) : List Nat :=
  (outcomes.zipIdx.filter fun o => o.1).map fun o => o.2

/-- `token` says whether there is a VF token. -/
def opaeVfioDeviceInit (token : Bool) (env : DeviceEnv) : Nat × OpaeVfioDevice :=
  if token && !env.arg then (1, .closed)
  else
    let d : OpaeVfioDevice := { OpaeVfioDevice.closed with deviceFd := env.deviceFd }
    if !env.deviceFd then (2, d)
    else if !env.configRegion then (3, d)
    else if !env.pciCommand then (4, d)
    else if !env.info then (5, d)
    else (0, { d with regions := made env.regions, irqs := made env.irqs })

/-- A structure that is being opened has no buffers yet. -/
def opaeVfioDestroy (v : OpaeVfio) : OpaeVfio :=
  let v := { v with device := opaeVfioDeviceDestroy v.device }
  let v := { v with group := opaeVfioGroupDestroy v.group }
  let v := { v with contRanges := 0, iovaAlloc := 0 }
  let v := if v.contFd then { v with contFd := false } else v
  let v := if v.contDevice then { v with contDevice := false } else v
  let v := if v.contPciaddr then { v with contPciaddr := false } else v
  { v with lock := false }

def outDestroyAttr (env : InitEnv) (res : Nat) (v : OpaeVfio) : Nat × OpaeVfio :=
  (if env.attrDestroy then res else 10, v)

/-- From the first string on, up to the label `out_destroy_container`, which is gone to with any
result but 0. -/
def initContainer (token : Bool) (env : InitEnv) : Nat × OpaeVfio :=
  let v : OpaeVfio := { OpaeVfio.closed with
    lock := true
    contDevice := env.contDevice
    contPciaddr := env.contPciaddr
    contFd := env.contFd }
  if !env.contFd then (4, v)
  else if !env.apiVersion then (5, v)
  else if !env.checkExtension then (6, v)
  else
    let (res, group) := opaeVfioGroupInit env.group
    let v := { v with group := group }
    if res ≠ 0 then (res, v)
    else if !env.setContainer then (7, v)
    else if !env.setIommu then (8, v)
    else
      let (res, device) := opaeVfioDeviceInit token env.device
      let v := { v with device := device }
      if res ≠ 0 then (res, v)
      else (0, { v with contRanges := env.contRanges, iovaAlloc := env.iovaAlloc })

/-- The result and what the structure holds afterwards. -/
def opaeVfioInit (token : Bool) (env : InitEnv) : Nat × OpaeVfio :=
  if !env.attrInit then (1, .closed)
  else if !env.attrSettype then outDestroyAttr env 2 .closed
  else if !env.mutexInit then outDestroyAttr env 3 .closed
  else
    let (res, v) := initContainer token env
    if res ≠ 0 then outDestroyAttr env res (opaeVfioDestroy v)
    else if !env.attrDestroy then (9, v) else (0, v)

def opaeVfioOpen (env : InitEnv) : Nat × OpaeVfio := opaeVfioInit false env

/-- With a VF token, which has to look like one. The structure is cleared before the call. -/
structure SecureEnv where
  regcomp : Bool
  regexec : Bool
  init : InitEnv
deriving DecidableEq, Repr

def opaeVfioSecureOpen (env : SecureEnv) : Nat × OpaeVfio :=
  if !env.regcomp then (2, .closed)
  else if !env.regexec then (3, .closed)
  else opaeVfioInit true env.init

/-- The mutex of a structure that is open and in use by nobody else can be taken. -/
def opaeVfioClose (v : OpaeVfio) : OpaeVfio := opaeVfioDestroy v

def opaeVfioRegionGet (v : OpaeVfio) (index : Nat) : Bool := index ∈ v.device.regions

theorem opaeVfioDestroy_eq (v : OpaeVfio) : opaeVfioDestroy v = .closed := by
  obtain ⟨lock, contDevice, contPciaddr, contFd, ranges, nodes, ⟨groupDevice, groupFd⟩,
    ⟨deviceFd, regions, irqs⟩⟩ := v
  cases contDevice <;> cases contPciaddr <;> cases contFd <;> cases groupDevice <;>
    cases groupFd <;> cases deviceFd <;> rfl

def GroupEnv.ready (env : GroupEnv) : Bool :=
  env.groupFor && env.groupFd && env.status && env.viable

def DeviceEnv.ready (token : Bool) (env : DeviceEnv) : Bool :=
  (!token || env.arg) && env.deviceFd && env.configRegion && env.pciCommand && env.info

/-- Every call before the mutex attributes are given back succeeds. -/
def InitEnv.completes (token : Bool) (env : InitEnv) : Bool :=
  env.attrInit && env.attrSettype && env.mutexInit && env.contFd && env.apiVersion &&
    env.checkExtension && env.group.ready && env.setContainer && env.setIommu &&
    env.device.ready token

theorem opaeVfioGroupInit_res (env : GroupEnv) :
    (opaeVfioGroupInit env).1 = 0 ↔ env.ready = true := by
  obtain ⟨groupFor, groupFd, status, viable⟩ := env
  cases groupFor <;> cases groupFd <;> cases status <;> cases viable <;> decide

theorem opaeVfioDeviceInit_res (token : Bool) (env : DeviceEnv) :
    (opaeVfioDeviceInit token env).1 = 0 ↔ env.ready token = true := by
  obtain ⟨arg, deviceFd, configRegion, pciCommand, info, regions, irqs⟩ := env
  simp only [opaeVfioDeviceInit, DeviceEnv.ready]
  cases token <;> cases arg <;> cases deviceFd <;> cases configRegion <;> cases pciCommand <;>
    cases info <;> simp

theorem initContainer_res (token : Bool) (env : InitEnv) :
    (initContainer token env).1 = 0 ↔ env.contFd = true ∧ env.apiVersion = true ∧
      env.checkExtension = true ∧ env.group.ready = true ∧ env.setContainer = true ∧
      env.setIommu = true ∧ env.device.ready token = true := by
  rw [← opaeVfioGroupInit_res, ← opaeVfioDeviceInit_res, initContainer]
  obtain ⟨⟨gres, group⟩, hgroup⟩ : ∃ r, opaeVfioGroupInit env.group = r := ⟨_, rfl⟩
  obtain ⟨⟨dres, device⟩, hdevice⟩ : ∃ r, opaeVfioDeviceInit token env.device = r := ⟨_, rfl⟩
  rw [hgroup, hdevice]
  cases env.contFd <;> cases env.apiVersion <;> cases env.checkExtension <;>
    cases env.setContainer <;> cases env.setIommu <;> by_cases hg : gres = 0 <;>
    by_cases hd : dres = 0 <;> simp [hg, hd]

theorem initContainer_contFd {token : Bool} {env : InitEnv}
    (h : (initContainer token env).1 = 0) : (initContainer token env).2.contFd = true := by
  obtain ⟨hfd, hversion, hext, hgroup, hset, hiommu, hdevice⟩ := (initContainer_res token env).mp h
  rw [← opaeVfioGroupInit_res] at hgroup
  rw [← opaeVfioDeviceInit_res] at hdevice
  simp [initContainer, hfd, hversion, hext, hgroup, hset, hiommu, hdevice]

theorem completes_iff (token : Bool) (env : InitEnv) :
    env.completes token = true ↔ (env.attrInit = true ∧ env.attrSettype = true ∧
      env.mutexInit = true) ∧ (initContainer token env).1 = 0 := by
  rw [initContainer_res, InitEnv.completes]
  simp only [Bool.and_eq_true, and_assoc]

theorem outDestroyAttr_closed (env : InitEnv) {res : Nat} (h : res ≠ 0) :
    ∃ res', res' ≠ 0 ∧ outDestroyAttr env res .closed = (res', .closed) := by
  rw [outDestroyAttr]
  split
  · exact ⟨res, h, rfl⟩
  · exact ⟨10, by decide, rfl⟩

theorem opaeVfioInit_fails {token : Bool} {env : InitEnv} (h : ¬env.completes token = true) :
    ∃ res, res ≠ 0 ∧ opaeVfioInit token env = (res, .closed) := by
  rw [completes_iff] at h
  rw [opaeVfioInit]
  cases hinit : env.attrInit with
  | false => exact ⟨1, by decide, rfl⟩
  | true =>
    cases hsettype : env.attrSettype with
    | false => exact outDestroyAttr_closed env (by decide)
    | true =>
      cases hmutex : env.mutexInit with
      | false => exact outDestroyAttr_closed env (by decide)
      | true =>
        have hres : (initContainer token env).1 ≠ 0 :=
          fun hzero => h ⟨⟨hinit, hsettype, hmutex⟩, hzero⟩
        obtain ⟨res, hne, he⟩ := outDestroyAttr_closed env hres
        refine ⟨res, hne, ?_⟩
        simp only [Bool.not_true, Bool.false_eq_true, if_false, opaeVfioDestroy_eq]
        rw [if_pos hres, he]

/-- An opening that gets through leaves the structure open, also where the attributes cannot be
given back and it is reported to have failed. -/
theorem opaeVfioInit_completes {token : Bool} {env : InitEnv} (h : env.completes token = true) :
    ∃ v, v.contFd = true ∧ opaeVfioInit token env = (if env.attrDestroy then 0 else 9, v) := by
  obtain ⟨⟨hinit, hsettype, hmutex⟩, hres⟩ := (completes_iff token env).mp h
  refine ⟨(initContainer token env).2, initContainer_contFd hres, ?_⟩
  rw [opaeVfioInit, hinit, hsettype, hmutex]
  simp only [Bool.not_true, Bool.false_eq_true, if_false, hres, ne_eq, not_true_eq_false]
  cases env.attrDestroy <;> rfl

def InitEnv.opens (token : Bool) (env : InitEnv) : Bool := env.completes token && env.attrDestroy

def InitEnv.strands (token : Bool) (env : InitEnv) : Bool :=
  env.completes token && !env.attrDestroy

def SecureEnv.opens (env : SecureEnv) : Bool := env.regcomp && env.regexec && env.init.opens true

def SecureEnv.strands (env : SecureEnv) : Bool :=
  env.regcomp && env.regexec && env.init.strands true

/-- The three ways in which an opening ends. -/
inductive Ends (opens strands : Bool) : Nat × OpaeVfio → Prop
  | opened {v} : opens = true → strands = false → v.contFd = true → Ends opens strands (0, v)
  | stranded {res v} : opens = false → strands = true → res ≠ 0 → v.contFd = true →
      Ends opens strands (res, v)
  | failed {res} : opens = false → strands = false → res ≠ 0 → Ends opens strands (res, .closed)

theorem opaeVfioInit_ends (token : Bool) (env : InitEnv) :
    Ends (env.opens token) (env.strands token) (opaeVfioInit token env) := by
  by_cases h : env.completes token = true
  · obtain ⟨v, hfd, he⟩ := opaeVfioInit_completes h
    rw [he, InitEnv.opens, InitEnv.strands, h]
    cases env.attrDestroy with
    | true => exact .opened rfl rfl hfd
    | false => exact .stranded rfl rfl (by decide) hfd
  · obtain ⟨res, hne, he⟩ := opaeVfioInit_fails h
    rw [Bool.not_eq_true] at h
    rw [he, InitEnv.opens, InitEnv.strands, h]
    exact .failed rfl rfl hne

theorem opaeVfioSecureOpen_ends (env : SecureEnv) :
    Ends env.opens env.strands (opaeVfioSecureOpen env) := by
  rw [opaeVfioSecureOpen, SecureEnv.opens, SecureEnv.strands]
  cases env.regcomp with
  | false => exact .failed rfl rfl (by decide)
  | true =>
    cases env.regexec with
    | false => exact .failed rfl rfl (by decide)
    | true => exact opaeVfioInit_ends true env.init

theorem ne_closed {v : OpaeVfio} (h : v.contFd = true) : v ≠ .closed := by
  rintro rfl
  exact nomatch h

end OpaeLibs.Opaevfio.Open
