import OpaeLibs.Lib.Filling
import OpaeLibs.PluginXfpga.SysfsInit

namespace OpaeLibs.PluginXfpga.DeviceProbes

open OpaeLibs.Lib.Filling OpaeLibs.OpaeC.Props OpaeLibs.PluginXfpga.SysfsInit
open OpaeLibs.PluginXfpga.Sysfs (Name Driver IdFile parsePcieInfo)

section Probes

/-- The regions that the entries of a device set, and how the loop over them ends. -/
def ownRegions (env : InitEnv) (drv : Driver) (path : Name) :
    List Name → Option (Option SysfsFpgaRegion) × Option (Option SysfsFpgaRegion) × FpgaResult
  | [] => (none, none, .ok)
  | name :: names =>
    if isDots name then ownRegions env drv path names
    else
      match reMatchRegion drv name with
      | .ok (.device, num) =>
        let own := ownRegions env drv path names
        (own.1.or (some (makeRegion env path name num .device)), own.2)
      | .ok (.accelerator, num) =>
        let own := ownRegions env drv path names
        (own.1, own.2.1.or (some (makeRegion env path name num .accelerator)), own.2.2)
      | .error ⟨.notFound, _⟩ => ownRegions env drv path names
      | .error e => (none, none, e.val)

/-- What there is to be found of an entry, with a device that has no regions yet. -/
structure Probe where
  device : SysfsFpgaDevice
  fme : Option (Option SysfsFpgaRegion)
  port : Option (Option SysfsFpgaRegion)
  res : FpgaResult

/-- What the loop makes of the region of a type: it may leave the one that was there. -/
def Probe.own (p : Probe) : FpgaObjtype → Option (Option SysfsFpgaRegion)
  | .device => p.fme
  | .accelerator => p.port

def region (dev : SysfsFpgaDevice) : FpgaObjtype → Option SysfsFpgaRegion
  | .device => dev.fme
  | .accelerator => dev.port

/-- The device in a slot with given regions. -/
def Probe.on (p : Probe) (fme port : Option SysfsFpgaRegion) : SysfsFpgaDevice × FpgaResult :=
  ({ p.device with fme := p.fme.getD fme, port := p.port.getD port },
    if (p.fme.getD fme).isNone && (p.port.getD port).isNone then .notFound else p.res)

def probe (env : InitEnv) (drv : Driver) (name : Name) (num : Int) : Option Probe :=
  let path := joined (classPath drv) name
  (env.readlink path).bind fun buffer =>
    (parsePcieInfo (buffer.splitOn '/')).bind fun info =>
      (env.parseAttribute64 path .device).bind fun deviceId =>
        (env.parseAttribute64 path .vendor).bind fun vendorId =>
          (env.opendir path).map fun names =>
            { device :=
                { sysfsPath := path
                  sysfsName := name.take (sysfsPathMax - 1)
                  number := num
                  fme := none
                  port := none
                  segment := UInt32.ofNat info.1
                  bus := UInt8.ofNat info.2.1
                  device := UInt8.ofNat info.2.2.1
                  function := UInt8.ofNat info.2.2.2
                  deviceId := deviceId.toUInt32
                  vendorId := vendorId.toUInt32 }
              fme := (ownRegions env drv path names).1
              port := (ownRegions env drv path names).2.1
              res := (ownRegions env drv path names).2.2 }

variable {env : InitEnv} {drv : Driver}

theorem scanRegions_eq (names : List Name) (dev : SysfsFpgaDevice) :
    scanRegions env drv names dev =
      ({ dev with
          fme := (ownRegions env drv dev.sysfsPath names).1.getD dev.fme
          port := (ownRegions env drv dev.sysfsPath names).2.1.getD dev.port },
        (ownRegions env drv dev.sysfsPath names).2.2) := by
  induction names generalizing dev with
  | nil => rfl
  | cons name names ih =>
    rw [scanRegions, ownRegions]
    by_cases hdots : isDots name = true
    · rw [if_pos hdots, if_pos hdots]
      exact ih dev
    · rw [if_neg hdots, if_neg hdots]
      cases hmatch : reMatchRegion drv name with
      | ok region =>
        obtain ⟨type, num⟩ := region
        cases type with
        | device =>
          dsimp only
          rw [ih]
          dsimp only
          cases (ownRegions env drv dev.sysfsPath names).1 <;> rfl
        | accelerator =>
          dsimp only
          rw [ih]
          dsimp only
          cases (ownRegions env drv dev.sysfsPath names).2.1 <;> rfl
      | error e =>
        obtain ⟨e, he⟩ := e
        cases e with
        | notFound => exact ih dev
        | ok => exact absurd rfl he
        | _ => rfl

theorem makeDevice_of_probe {name : Name} {num : Int} {p : Probe}
    (h : probe env drv name num = some p) (dev : SysfsFpgaDevice) :
    makeDevice env drv dev name num = p.on dev.fme dev.port := by
  obtain ⟨buffer, hbuffer, h⟩ := Option.bind_eq_some_iff.mp h
  obtain ⟨⟨segment, bus, device, function⟩, hinfo, h⟩ := Option.bind_eq_some_iff.mp h
  obtain ⟨deviceId, hdevice, h⟩ := Option.bind_eq_some_iff.mp h
  obtain ⟨vendorId, hvendor, h⟩ := Option.bind_eq_some_iff.mp h
  obtain ⟨names, hnames, rfl⟩ := Option.map_eq_some_iff.mp h
  simp only [makeDevice, hbuffer, hinfo, hdevice, hvendor, findRegions, hnames, scanRegions_eq,
    Probe.on]
  split <;> rfl

theorem makeDevice_of_none {name : Name} {num : Int} (h : probe env drv name num = none)
    (dev : SysfsFpgaDevice) :
    (makeDevice env drv dev name num).2 ≠ .ok ∧
      ∀ type, region (makeDevice env drv dev name num).1 type = region dev type := by
  suffices h : (makeDevice env drv dev name num).2 ≠ .ok ∧
      (makeDevice env drv dev name num).1.fme = dev.fme ∧
      (makeDevice env drv dev name num).1.port = dev.port by
    refine ⟨h.1, fun type => ?_⟩
    cases type with
    | device => exact h.2.1
    | accelerator => exact h.2.2
  rw [probe] at h
  cases hbuffer : env.readlink (joined (classPath drv) name) with
  | none => simp [makeDevice, hbuffer]
  | some buffer =>
    cases hinfo : parsePcieInfo (buffer.splitOn '/') with
    | none => simp [makeDevice, hbuffer, hinfo]
    | some info =>
      obtain ⟨segment, bus, device, function⟩ := info
      cases hdevice : env.parseAttribute64 (joined (classPath drv) name) .device with
      | none => simp [makeDevice, hbuffer, hinfo, hdevice]
      | some deviceId =>
        cases hvendor : env.parseAttribute64 (joined (classPath drv) name) .vendor with
        | none => simp [makeDevice, hbuffer, hinfo, hdevice, hvendor]
        | some vendorId =>
          cases hnames : env.opendir (joined (classPath drv) name) with
          | none => simp [makeDevice, hbuffer, hinfo, hdevice, hvendor, findRegions, hnames]
          | some names => simp [hbuffer, hinfo, hdevice, hvendor, hnames] at h

theorem Probe.on_error {p : Probe} (h : p.res ≠ .ok) (fme port : Option SysfsFpgaRegion) :
    (p.on fme port).2 ≠ .ok := by
  rw [Probe.on]
  split
  · exact nofun
  · exact h

theorem Probe.on_ok {p : Probe} (h : (p.on none none).2 = .ok) (fme port : Option SysfsFpgaRegion) :
    (p.on fme port).2 = .ok := by
  obtain ⟨device, pfme, pport, res⟩ := p
  rw [Probe.on] at h ⊢
  dsimp only at h ⊢
  split at h
  · exact nomatch h
  · next hown =>
    rw [if_neg, h]
    intro hnone
    apply hown
    rw [Bool.and_eq_true, Option.isNone_iff_eq_none, Option.isNone_iff_eq_none] at hnone ⊢
    cases pfme <;> cases pport <;> simp_all

theorem Probe.on_none {p : Probe} (hres : p.res = .ok) (h : (p.on none none).2 ≠ .ok) :
    ∀ type, region (p.on none none).1 type = none := by
  rw [Probe.on] at h
  dsimp only at h
  split at h
  · next hnone =>
    rw [Bool.and_eq_true, Option.isNone_iff_eq_none, Option.isNone_iff_eq_none] at hnone
    intro type
    cases type with
    | device => exact hnone.1
    | accelerator => exact hnone.2
  · exact absurd hres h

theorem Probe.region_on (p : Probe) (dev : SysfsFpgaDevice) (type : FpgaObjtype) :
    region (p.on dev.fme dev.port).1 type = (p.own type).getD (region dev type) := by
  cases type <;> rfl

theorem Probe.on_ok_of_region {p : Probe} (hres : p.res = .ok) {fme port : Option SysfsFpgaRegion}
    {type : FpgaObjtype} (h : (region (p.on fme port).1 type).isSome) :
    (p.on fme port).2 = .ok := by
  rw [Probe.on]
  dsimp only
  rw [if_neg, hres]
  intro hnone
  rw [Bool.and_eq_true, Option.isNone_iff_eq_none, Option.isNone_iff_eq_none] at hnone
  cases type with
  | device =>
    have hfme : (p.fme.getD fme).isSome := h
    rw [hnone.1] at hfme
    exact nomatch hfme
  | accelerator =>
    have hport : (p.port.getD port).isSome := h
    rw [hnone.2] at hport
    exact nomatch hport

theorem Probe.on_congr {p : Probe} {dev : SysfsFpgaDevice}
    (h : ∀ type, (region dev type).isSome → (p.own type).isSome) :
    p.on dev.fme dev.port = p.on none none := by
  have hget {own : Option (Option SysfsFpgaRegion)} {region : Option SysfsFpgaRegion}
      (h : region.isSome → own.isSome) : own.getD region = own.getD none := by
    cases own with
    | some own => rfl
    | none =>
      cases region with
      | none => rfl
      | some region => exact nomatch h rfl
  have hfme : p.fme.getD dev.fme = p.fme.getD none := hget (h .device)
  have hport : p.port.getD dev.port = p.port.getD none := hget (h .accelerator)
  rw [Probe.on, Probe.on, hfme, hport]

end Probes

section Verdicts

variable (env : InitEnv) (drv : Driver)

/-- What is found of an entry that matches. -/
def probed (n : DirName) : Option Probe :=
  if isDots n.val then none
  else
    match reMatchDevice drv n.val with
    | .error _ => none
    | .ok num => probe env drv n.val num

def verdict (n : DirName) : Verdict SysfsFpgaDevice FpgaResult :=
  if isDots n.val then .skipped
  else
    match reMatchDevice drv n.val with
    | .error e => .refused e.val
    | .ok num =>
      match probe env drv n.val num with
      | none => .failed
      | some p => if (p.on none none).2 = .ok then .built (p.on none none).1 else .failed

/-- An entry that fails has a region of the type, which is left over in the table. -/
def LeftOver (l : List DirName) (type : FpgaObjtype) : Prop :=
  ∃ r ∈ l, ∃ q, probed env drv r = some q ∧ q.res ≠ .ok ∧ ((q.own type).getD none).isSome

end Verdicts

section Entries

variable {env : InitEnv} {drv : Driver} {n : DirName}

theorem probed_of_match {num : Int} (hdots : isDots n.val = false)
    (hmatch : reMatchDevice drv n.val = .ok num) :
    probed env drv n = probe env drv n.val num := by
  rw [probed, hdots, hmatch, if_neg Bool.false_ne_true]

theorem verdict_of_match {num : Int} (hdots : isDots n.val = false)
    (hmatch : reMatchDevice drv n.val = .ok num) :
    verdict env drv n = match probe env drv n.val num with
      | none => .failed
      | some p => if (p.on none none).2 = .ok then .built (p.on none none).1 else .failed := by
  rw [verdict, hdots, hmatch, if_neg Bool.false_ne_true]

theorem verdict_of_probed {p : Probe} (h : probed env drv n = some p) :
    verdict env drv n =
      if (p.on none none).2 = .ok then .built (p.on none none).1 else .failed := by
  rw [probed] at h
  rw [verdict]
  split at h
  · exact nomatch h
  · next hdots =>
    rw [if_neg hdots]
    cases hmatch : reMatchDevice drv n.val with
    | error e =>
      rw [hmatch] at h
      exact nomatch h
    | ok num =>
      rw [hmatch] at h
      dsimp only at h ⊢
      rw [h]

theorem probed_of_result {d : SysfsFpgaDevice} (h : (verdict env drv n).result = some d) :
    ∃ p, probed env drv n = some p ∧ d = (p.on none none).1 := by
  rw [verdict] at h
  rw [probed]
  split at h
  · exact nomatch h
  · next hdots =>
    rw [if_neg hdots]
    cases hmatch : reMatchDevice drv n.val with
    | error e =>
      rw [hmatch] at h
      exact nomatch h
    | ok num =>
      rw [hmatch] at h
      dsimp only at h ⊢
      cases hprobe : probe env drv n.val num with
      | none =>
        rw [hprobe] at h
        exact nomatch h
      | some p =>
        rw [hprobe] at h
        dsimp only at h
        split at h
        · exact ⟨p, rfl, (Option.some_inj.mp h).symm⟩
        · exact nomatch h

theorem probe_name {num : Int} {p : Probe} (hp : probe env drv n.val num = some p) :
    p.device.sysfsName = n.val := by
  obtain ⟨_, _, hp⟩ := Option.bind_eq_some_iff.mp hp
  obtain ⟨_, _, hp⟩ := Option.bind_eq_some_iff.mp hp
  obtain ⟨_, _, hp⟩ := Option.bind_eq_some_iff.mp hp
  obtain ⟨_, _, hp⟩ := Option.bind_eq_some_iff.mp hp
  obtain ⟨_, _, rfl⟩ := Option.map_eq_some_iff.mp hp
  exact List.take_of_length_le n.property

theorem probed_name {p : Probe} (hp : probed env drv n = some p) :
    p.device.sysfsName = n.val := by
  rw [probed] at hp
  split at hp
  · exact nomatch hp
  · cases hmatch : reMatchDevice drv n.val with
    | error e =>
      rw [hmatch] at hp
      exact nomatch hp
    | ok num =>
      rw [hmatch] at hp
      exact probe_name hp

theorem makeDevice_name (n : DirName) (num : Int) (dev : SysfsFpgaDevice)
    (h : (makeDevice env drv dev n.val num).2 = .ok) :
    (makeDevice env drv dev n.val num).1.sysfsName = n.val := by
  cases hprobe : probe env drv n.val num with
  | none => exact absurd h (makeDevice_of_none hprobe dev).1
  | some p =>
    rw [makeDevice_of_probe hprobe]
    exact probe_name hprobe

theorem makeDevice_of_built {num : Int} (hdots : isDots n.val = false)
    (hmatch : reMatchDevice drv n.val = .ok num) {d : SysfsFpgaDevice}
    (hbuilt : verdict env drv n = .built d) (dev : SysfsFpgaDevice) :
    (makeDevice env drv dev n.val num).2 = .ok := by
  rw [verdict_of_match hdots hmatch] at hbuilt
  cases hprobe : probe env drv n.val num with
  | none =>
    rw [hprobe] at hbuilt
    exact nomatch hbuilt
  | some p =>
    rw [hprobe] at hbuilt
    dsimp only at hbuilt
    split at hbuilt
    · next hok =>
      rw [makeDevice_of_probe hprobe]
      exact p.on_ok hok _ _
    · exact nomatch hbuilt

end Entries

end OpaeLibs.PluginXfpga.DeviceProbes
