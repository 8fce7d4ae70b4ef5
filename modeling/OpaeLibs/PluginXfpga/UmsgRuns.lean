import OpaeLibs.Lib.Runs
import OpaeLibs.PluginXfpga.Umsg

namespace OpaeLibs.PluginXfpga.UmsgRuns

open OpaeLibs.Lib.Runs OpaeLibs.OpaeC.Props OpaeLibs.PluginXfpga.Umsg

inductive Call where
  | get (env : GetEnv) (umsgPtr : Option Pointer)
  | trigger (env : TriggerEnv) (value : UInt64)
  | free (env : FreeEnv)

def Call.unmap : Call → FpgaResult
  | .get env _ => env.unmap
  | .trigger env _ => env.get.unmap
  | .free env => env.unmap

/-- What comes of a call; `handed` is the pointer that it hands out or stores through. -/
structure Outcome where
  result : FpgaResult
  handed : Option Pointer
  port : Port

def Outcome.ofGot (got : Got) : Outcome :=
  ⟨got.result, if got.result = .ok then some got.umsgPtr.join else none, got.port⟩

def perform (p : Port) : Call → Outcome
  | .get env umsgPtr => .ofGot (xfpgaFpgaGetUmsgPtr env p umsgPtr)
  | .trigger env value =>
    let triggered := xfpgaFpgaTriggerUmsg env p value
    ⟨triggered.result, triggered.stored.map Prod.fst, triggered.port⟩
  | .free env => ⟨(freeUmsgBuffer env p).1, none, (freeUmsgBuffer env p).2⟩

def step (p : Port) (call : Call) : Port := (perform p call).port

/-- The buffer is mapped, and it is where the UMsgs go that are enabled. -/
structure Serves (p : Port) (addr : UInt64) : Prop where
  allocated : addr ∈ p.allocated
  mapped : ⟨p.driver.base, addr⟩ ∈ p.driver.mapped
  enabled : p.driver.enabled = true

structure Sound (unmap : FpgaResult) (p : Port) (o : Outcome) : Prop where
  serves : ∀ ptr, o.handed = some ptr → ∃ addr, ptr = some addr ∧ Serves o.port addr
  failing : o.result ≠ .ok → o.port.allocated = p.allocated ∧
    (unmap = .ok → o.port.driver.mapped = p.driver.mapped)
  single : o.port.driver.most ≤ 1

/-- What a call is to leave behind. -/
def Keeps (p : Port) (call : Call) : Prop := Sound call.unmap p (perform p call)

/-- The call comes to map a buffer, and the map ioctl succeeds. -/
structure Maps (env : GetEnv) (p : Port) (umsgPtr : Option Pointer)
    (umsgVirt umsgSize ioAddr : UInt64) : Prop where
  umsgPtr : umsgPtr ≠ none
  check : env.check = .ok
  fddev : ¬p.handle.fddev < 0
  uncached : p.handle.umsgIova = 0
  portInfo : ∃ umsgCount, env.portInfo = .ok umsgCount ∧
    umsgSize = umsgCount.toUInt64 * env.pageSize
  alloc : env.alloc umsgSize = some umsgVirt
  portMap : env.portMap umsgVirt umsgSize = .ok ioAddr

/-- A buffer is mapped if the handle has none, no unmap has failed, and the two ioctls behind
succeed or the unmap does not. -/
def GetGuard (env : GetEnv) (p : Port) (umsgPtr : Option Pointer) : Prop :=
  ∀ umsgVirt umsgSize ioAddr, Maps env p umsgPtr umsgVirt umsgSize ioAddr →
    p.handle.umsgVirt = none ∧ p.driver.refused = 0 ∧
      ((env.setBase = .ok ∧ env.enable = .ok) ∨ env.unmap ≠ .ok)

def Guard (p : Port) : Call → Prop
  | .get env umsgPtr => GetGuard env p umsgPtr
  | .trigger env _ => env.check = .ok → ¬p.handle.fddev < 0 → GetGuard env.get p (some none)
  | .free _ => True

/-- No buffer is mapped; the one of the handle is; or one is that could not be unmapped. -/
inductive Shape (p : Port) : Prop
  | empty (virt : p.handle.umsgVirt = none) (iova : p.handle.umsgIova = 0)
      (mapped : p.driver.mapped = []) (refused : p.driver.refused = 0)
  | held (addr : UInt64) (virt : p.handle.umsgVirt = some addr)
      (mapped : p.driver.mapped = [⟨p.handle.umsgIova, addr⟩])
      (base : p.driver.base = p.handle.umsgIova) (enabled : p.driver.enabled = true)
      (allocated : addr ∈ p.allocated) (refused : p.driver.refused = 0)
  | left (m : Mapping) (virt : p.handle.umsgVirt = none) (iova : p.handle.umsgIova = 0)
      (mapped : p.driver.mapped = [m]) (refused : p.driver.refused ≠ 0)

structure Inv (p : Port) : Prop where
  single : p.driver.most ≤ 1
  shape : Shape p

section Get

variable {env : GetEnv} {p : Port} {umsgPtr : Option Pointer} {old : Pointer}
  {umsgVirt umsgSize ioAddr : UInt64}

theorem mapped_unmap {d : Driver} {m : Mapping} {ms : List Mapping} (h : d.mapped = m :: ms) :
    (d.unmap .ok m.ioAddr).mapped = ms := by
  rw [Driver.unmap, if_pos rfl, if_pos rfl, h]
  simp only [List.eraseP_cons, decide_true, cond_true]

def withBuffer (p : Port) (addr : UInt64) : Port := { p with allocated := addr :: p.allocated }

theorem freeBuffer_withBuffer (p : Port) (addr : UInt64) :
    freeBuffer (withBuffer p addr) addr = p := by
  rw [freeBuffer, withBuffer, List.erase_cons_head]

theorem get_eq (h : Maps env p (some old) umsgVirt umsgSize ioAddr) :
    xfpgaFpgaGetUmsgPtr env p (some old) =
      enableMapped env (withBuffer p umsgVirt) old umsgVirt umsgSize ioAddr := by
  obtain ⟨umsgCount, hinfo, rfl⟩ := h.portInfo
  rw [xfpgaFpgaGetUmsgPtr]
  simp only [h.check, h.fddev, h.uncached, hinfo, h.alloc, h.portMap, ne_eq, not_true_eq_false,
    if_false]
  rfl

theorem get_cases (env : GetEnv) (p : Port) (umsgPtr : Option Pointer) :
    (∃ old umsgVirt umsgSize ioAddr, umsgPtr = some old ∧
      Maps env p umsgPtr umsgVirt umsgSize ioAddr) ∨
    ((∀ umsgVirt umsgSize ioAddr, ¬Maps env p umsgPtr umsgVirt umsgSize ioAddr) ∧
      (xfpgaFpgaGetUmsgPtr env p umsgPtr).port = p ∧
      ((xfpgaFpgaGetUmsgPtr env p umsgPtr).result = .ok → p.handle.umsgIova ≠ 0 ∧
        (xfpgaFpgaGetUmsgPtr env p umsgPtr).umsgPtr = some p.handle.umsgVirt)) := by
  rw [xfpgaFpgaGetUmsgPtr.eq_def]
  cases umsgPtr with
  | none => exact .inr ⟨fun _ _ _ h => h.umsgPtr rfl, rfl, nofun⟩
  | some old =>
    dsimp only
    by_cases hcheck : env.check ≠ .ok
    · rw [if_pos hcheck]
      exact .inr ⟨fun _ _ _ h => hcheck h.check, rfl, fun h => absurd h hcheck⟩
    rw [if_neg hcheck]
    by_cases hfddev : p.handle.fddev < 0
    · rw [if_pos hfddev]
      exact .inr ⟨fun _ _ _ h => h.fddev hfddev, rfl, nofun⟩
    rw [if_neg hfddev]
    by_cases hcached : p.handle.umsgIova ≠ 0
    · rw [if_pos hcached]
      exact .inr ⟨fun _ _ _ h => hcached h.uncached, rfl, fun _ => ⟨hcached, rfl⟩⟩
    rw [if_neg hcached]
    cases hinfo : env.portInfo with
    | error e =>
      refine .inr ⟨fun _ _ _ h => ?_, rfl, fun h => absurd h e.property⟩
      obtain ⟨_, hinfo', -⟩ := h.portInfo
      exact nomatch hinfo.symm.trans hinfo'
    | ok umsgCount =>
      dsimp only
      cases halloc : env.alloc (umsgCount.toUInt64 * env.pageSize) with
      | none =>
        refine .inr ⟨fun _ _ _ h => ?_, rfl, nofun⟩
        obtain ⟨_, hinfo', rfl⟩ := h.portInfo
        obtain rfl := Except.ok.inj (hinfo.symm.trans hinfo')
        exact nomatch halloc.symm.trans h.alloc
      | some umsgVirt =>
        dsimp only
        cases hmap : env.portMap umsgVirt (umsgCount.toUInt64 * env.pageSize) with
        | error e =>
          refine .inr ⟨fun _ _ _ h => ?_, freeBuffer_withBuffer p umsgVirt,
            fun h => absurd h e.property⟩
          obtain ⟨_, hinfo', rfl⟩ := h.portInfo
          obtain rfl := Except.ok.inj (hinfo.symm.trans hinfo')
          obtain rfl := Option.some.inj (halloc.symm.trans h.alloc)
          exact nomatch hmap.symm.trans h.portMap
        | ok ioAddr =>
          exact .inl ⟨old, umsgVirt, _, ioAddr, rfl, nofun, not_not.mp hcheck, hfddev,
            not_not.mp hcached, ⟨umsgCount, hinfo, rfl⟩, halloc, hmap⟩

theorem most_enableMapped (env : GetEnv) (p : Port) (old : Pointer)
    (umsgVirt umsgSize ioAddr : UInt64) :
    (enableMapped env p old umsgVirt umsgSize ioAddr).port.driver.most =
      max p.driver.most (p.driver.mapped.length + 1) := by
  rw [enableMapped]
  split
  · rfl
  · split <;> rfl

theorem enableMapped_ok (hbase : env.setBase = .ok) (henable : env.enable = .ok) :
    enableMapped env p old umsgVirt umsgSize ioAddr = ⟨.ok, some (some umsgVirt),
      { p with
        handle := { p.handle with
          umsgIova := ioAddr
          umsgVirt := some umsgVirt
          umsgSize := umsgSize }
        driver := { p.driver.map ⟨ioAddr, umsgVirt⟩ with base := ioAddr, enabled := true } }⟩ := by
  rw [enableMapped, hbase, henable]
  rfl

theorem enableMapped_fails (p : Port) (old : Pointer) (umsgVirt umsgSize ioAddr : UInt64)
    (hfails : ¬(env.setBase = .ok ∧ env.enable = .ok)) :
    ∃ d : Driver, d.mapped = ⟨ioAddr, umsgVirt⟩ :: p.driver.mapped ∧
      d.refused = p.driver.refused ∧
      enableMapped env p old umsgVirt umsgSize ioAddr = ⟨env.unmap, some old,
        freeBuffer { p with driver := d.unmap env.unmap ioAddr } umsgVirt⟩ := by
  rw [enableMapped]
  by_cases hbase : env.setBase ≠ .ok
  · rw [if_pos hbase]
    exact ⟨(p.driver.map ⟨ioAddr, umsgVirt⟩).setBase env.setBase ioAddr, rfl, rfl, rfl⟩
  · rw [if_neg hbase, if_pos fun henable => hfails ⟨not_not.mp hbase, henable⟩]
    exact ⟨((p.driver.map ⟨ioAddr, umsgVirt⟩).setBase env.setBase ioAddr).enable env.enable,
      rfl, rfl, rfl⟩

theorem not_sound_second (h : Maps env p (some old) umsgVirt umsgSize ioAddr)
    (hmapped : p.driver.mapped ≠ []) :
    ¬Sound env.unmap p (.ofGot (xfpgaFpgaGetUmsgPtr env p (some old))) := by
  intro hsound
  have hmost := hsound.single
  rw [Outcome.ofGot, get_eq h, most_enableMapped] at hmost
  have hlen := List.length_pos_iff.mpr hmapped
  have hle := Nat.le_trans (Nat.le_max_right p.driver.most (p.driver.mapped.length + 1)) hmost
  omega

theorem Shape.mapped_eq_nil_iff (h : Shape p) :
    p.driver.mapped = [] ↔ p.handle.umsgVirt = none ∧ p.driver.refused = 0 := by
  cases h with
  | empty virt iova mapped refused => exact iff_of_true mapped ⟨virt, refused⟩
  | held addr virt mapped =>
    rw [mapped, virt]
    exact iff_of_false nofun fun h => nomatch h.1
  | left m virt iova mapped refused =>
    rw [mapped]
    exact iff_of_false nofun fun h => refused h.2

/-- The first mapping is kept if both ioctls behind it succeed, and if not it goes or its unmap
fails. -/
theorem sound_first_iff (h : Maps env p (some old) umsgVirt umsgSize ioAddr)
    (hmost : p.driver.most ≤ 1) (hmapped : p.driver.mapped = []) :
    Sound env.unmap p (.ofGot (xfpgaFpgaGetUmsgPtr env p (some old))) ↔
      (env.setBase = .ok ∧ env.enable = .ok) ∨ env.unmap ≠ .ok := by
  have hsingle : (xfpgaFpgaGetUmsgPtr env p (some old)).port.driver.most ≤ 1 := by
    have hnil : (withBuffer p umsgVirt).driver.mapped = [] := hmapped
    rw [get_eq h, most_enableMapped, hnil]
    exact Nat.max_le.mpr ⟨hmost, Nat.le_refl 1⟩
  have heq := get_eq h
  by_cases hboth : env.setBase = .ok ∧ env.enable = .ok
  · rw [enableMapped_ok hboth.1 hboth.2] at heq
    refine iff_of_true ⟨?_, ?_, hsingle⟩ (.inl hboth)
    · intro ptr hptr
      rw [heq] at hptr ⊢
      exact ⟨umsgVirt, (Option.some.inj hptr).symm, List.mem_cons_self, List.mem_cons_self, rfl⟩
    · intro hres
      rw [heq] at hres
      exact absurd rfl hres
  · obtain ⟨d, hd, -, hfails⟩ := enableMapped_fails (withBuffer p umsgVirt) old umsgVirt umsgSize
      ioAddr hboth
    rw [hfails] at heq
    rw [or_iff_right hboth]
    constructor
    · intro hsound hunmap
      -- the result is that of the unmap, and there is no mapping any more
      obtain ⟨addr, -, hserves⟩ := hsound.serves old (by
        rw [Outcome.ofGot, heq]
        exact if_pos hunmap)
      have hmem := hserves.mapped
      have hnone : (d.unmap .ok ioAddr).mapped = [] := (mapped_unmap hd).trans hmapped
      rw [Outcome.ofGot, heq, hunmap] at hmem
      exact absurd (hnone ▸ hmem) List.not_mem_nil
    · intro hunmap
      refine ⟨?_, ?_, hsingle⟩
      · intro ptr hptr
        rw [Outcome.ofGot, heq] at hptr
        exact nomatch (if_neg hunmap).symm.trans hptr
      · intro _
        refine ⟨?_, fun hok => absurd hok hunmap⟩
        rw [Outcome.ofGot, heq]
        exact List.erase_cons_head (a := umsgVirt) (l := p.allocated)

theorem sound_get_iff (h : Inv p) (env : GetEnv) (umsgPtr : Option Pointer) :
    Sound env.unmap p (.ofGot (xfpgaFpgaGetUmsgPtr env p umsgPtr)) ↔ GetGuard env p umsgPtr := by
  obtain ⟨old, umsgVirt, umsgSize, ioAddr, rfl, hmaps⟩ | ⟨hno, hport, hcached⟩ :=
    get_cases env p umsgPtr
  · have hguard : GetGuard env p (some old) ↔ p.driver.mapped = [] ∧
        ((env.setBase = .ok ∧ env.enable = .ok) ∨ env.unmap ≠ .ok) := by
      rw [h.shape.mapped_eq_nil_iff, and_assoc]
      exact ⟨fun hg => hg _ _ _ hmaps, fun hg _ _ _ _ => hg⟩
    rw [hguard]
    by_cases hmapped : p.driver.mapped = []
    · rw [sound_first_iff hmaps h.single hmapped, and_iff_right hmapped]
    · exact iff_of_false (not_sound_second hmaps hmapped) fun hg => hmapped hg.1
  · refine iff_of_true ⟨?_, ?_, ?_⟩ fun _ _ _ hmaps => absurd hmaps (hno _ _ _)
    · intro ptr hptr
      rw [Outcome.ofGot] at hptr ⊢
      dsimp only at hptr ⊢
      split at hptr
      · next hok =>
        obtain ⟨hiova, hstored⟩ := hcached hok
        rw [hstored] at hptr
        obtain rfl := Option.some.inj hptr
        rw [hport]
        cases h.shape with
        | empty virt iova => exact absurd iova hiova
        | held addr virt mapped base enabled allocated =>
          exact ⟨addr, virt, allocated, by rw [mapped, base]; exact List.mem_cons_self, enabled⟩
        | left m virt iova => exact absurd iova hiova
      · exact nomatch hptr
    · intro _
      rw [Outcome.ofGot, hport]
      exact ⟨rfl, fun _ => rfl⟩
    · rw [Outcome.ofGot, hport]
      exact h.single

theorem inv_get (h : Inv p) (hguard : GetGuard env p umsgPtr) :
    Inv (xfpgaFpgaGetUmsgPtr env p umsgPtr).port := by
  have hsound := ((sound_get_iff h env umsgPtr).mpr hguard).single
  obtain ⟨old, umsgVirt, umsgSize, ioAddr, rfl, hmaps⟩ | ⟨-, hport, -⟩ := get_cases env p umsgPtr
  · refine ⟨hsound, ?_⟩
    obtain ⟨hvirt, hrefused, hends⟩ := hguard _ _ _ hmaps
    have hmapped := h.shape.mapped_eq_nil_iff.mpr ⟨hvirt, hrefused⟩
    rw [get_eq hmaps]
    by_cases hboth : env.setBase = .ok ∧ env.enable = .ok
    · rw [enableMapped_ok hboth.1 hboth.2]
      exact .held umsgVirt rfl (congrArg (List.cons _) hmapped) rfl rfl List.mem_cons_self hrefused
    · have hunmap := hends.resolve_left hboth
      obtain ⟨d, hd, hrefused', hfails⟩ := enableMapped_fails (withBuffer p umsgVirt) old
        umsgVirt umsgSize ioAddr hboth
      rw [hfails]
      refine .left ⟨ioAddr, umsgVirt⟩ hvirt hmaps.uncached ?_ ?_
      · exact (if_neg hunmap).trans (hd.trans (congrArg (List.cons _) hmapped))
      · have hmore : (d.unmap env.unmap ioAddr).refused = d.refused + 1 := if_neg hunmap
        exact hmore ▸ Nat.succ_ne_zero d.refused
  · rw [hport]
    exact h

end Get

section Calls

variable {p : Port}

theorem perform_trigger (p : Port) (env : TriggerEnv) (value : UInt64) :
    perform p (.trigger env value) =
      if env.check ≠ .ok then ⟨env.check, none, p⟩
      else if p.handle.fddev < 0 then ⟨.invalidParam, none, p⟩
      else .ofGot (xfpgaFpgaGetUmsgPtr env.get p (some none)) := by
  rw [perform, xfpgaFpgaTriggerUmsg]
  by_cases hcheck : env.check ≠ .ok
  · rw [if_pos hcheck, if_pos hcheck]
    rfl
  rw [if_neg hcheck, if_neg hcheck]
  by_cases hfddev : p.handle.fddev < 0
  · rw [if_pos hfddev, if_pos hfddev]
    rfl
  rw [if_neg hfddev, if_neg hfddev]
  by_cases hok : (xfpgaFpgaGetUmsgPtr env.get p (some none)).result = .ok
  · simp only [Outcome.ofGot, hok, ne_eq, not_true_eq_false, if_false, if_true, Option.map_some]
  · simp only [Outcome.ofGot, hok, ne_eq, not_false_eq_true, if_true, if_false, Option.map_none]

theorem sound_refused (h : Inv p) (unmap result : FpgaResult) : Sound unmap p ⟨result, none, p⟩ :=
  ⟨nofun, fun _ => ⟨rfl, fun _ => rfl⟩, h.single⟩

theorem free_cases (p : Port) (env : FreeEnv) :
    (∃ result, freeUmsgBuffer env p = (result, p)) ∨
    ∃ addr, p.handle.umsgVirt = some addr ∧ ∃ d : Driver,
      d.mapped = p.driver.mapped ∧ d.most = p.driver.most ∧ d.refused = p.driver.refused ∧
      freeUmsgBuffer env p = (.ok,
        { handle := { p.handle with umsgVirt := none, umsgSize := 0, umsgIova := 0 }
          driver := d.unmap env.unmap p.handle.umsgIova
          allocated := p.allocated.erase addr }) := by
  rw [freeUmsgBuffer]
  by_cases hcheck : env.check ≠ .ok
  · exact .inl ⟨_, if_pos hcheck⟩
  rw [if_neg hcheck]
  cases hvirt : p.handle.umsgVirt with
  | none => exact .inl ⟨_, rfl⟩
  | some addr =>
    exact .inr ⟨addr, rfl, (p.driver.disable env.disable).setBase env.setBase 0, rfl, rfl, rfl, rfl⟩

theorem sound_free (h : Inv p) (env : FreeEnv) : Keeps p (.free env) := by
  rw [Keeps, perform]
  obtain ⟨result, heq⟩ | ⟨addr, -, d, -, hmost, -, heq⟩ := free_cases p env
  · rw [heq]
    exact sound_refused h _ result
  · rw [heq]
    exact ⟨nofun, fun hres => absurd rfl hres, hmost ▸ h.single⟩

theorem inv_free (h : Inv p) (env : FreeEnv) : Inv (step p (.free env)) := by
  refine ⟨(sound_free h env).single, ?_⟩
  rw [step, perform]
  obtain ⟨result, heq⟩ | ⟨addr, hvirt, d, hmapped, -, hrefused, heq⟩ := free_cases p env
  · rw [heq]
    exact h.shape
  · rw [heq]
    cases h.shape with
    | empty virt => exact nomatch virt.symm.trans hvirt
    | left m virt => exact nomatch virt.symm.trans hvirt
    | held addr' virt mapped base enabled allocated refused =>
      have hone := hmapped.trans mapped
      by_cases hunmap : env.unmap = .ok
      · refine .empty rfl rfl ?_ ?_
        · rw [hunmap]
          exact mapped_unmap hone
        · exact (if_pos hunmap).trans (hrefused.trans refused)
      · refine .left ⟨p.handle.umsgIova, addr'⟩ rfl rfl ((if_neg hunmap).trans hone) ?_
        have hmore : (d.unmap env.unmap p.handle.umsgIova).refused = d.refused + 1 :=
          if_neg hunmap
        exact hmore ▸ Nat.succ_ne_zero d.refused

theorem keeps_iff (p : Port) (call : Call) (h : Inv p) : Keeps p call ↔ Guard p call := by
  cases call with
  | get env umsgPtr => exact sound_get_iff h env umsgPtr
  | free env => exact iff_of_true (sound_free h env) trivial
  | trigger env value =>
    rw [Keeps, perform_trigger, Guard]
    by_cases hcheck : env.check ≠ .ok
    · rw [if_pos hcheck]
      exact iff_of_true (sound_refused h _ _) fun hok => absurd hok hcheck
    rw [if_neg hcheck]
    by_cases hfddev : p.handle.fddev < 0
    · rw [if_pos hfddev]
      exact iff_of_true (sound_refused h _ _) fun _ hno => absurd hfddev hno
    rw [if_neg hfddev]
    exact (sound_get_iff h env.get (some none)).trans
      ⟨fun hg _ _ => hg, fun hg => hg (not_not.mp hcheck) hfddev⟩

theorem inv_step (p : Port) (call : Call) (h : Inv p) (hg : Guard p call) : Inv (step p call) := by
  cases call with
  | get env umsgPtr => exact inv_get h hg
  | free env => exact inv_free h env
  | trigger env value =>
    rw [step, perform_trigger]
    by_cases hcheck : env.check ≠ .ok
    · rwa [if_pos hcheck]
    rw [if_neg hcheck]
    by_cases hfddev : p.handle.fddev < 0
    · rwa [if_pos hfddev]
    rw [if_neg hfddev]
    exact inv_get h (hg (not_not.mp hcheck) hfddev)

end Calls

def opened (fddev : Int32) (base : UInt64) (enabled : Bool) (allocated : List UInt64) : Port :=
  ⟨⟨fddev, none, 0, 0⟩, ⟨[], base, enabled, 0, 0⟩, allocated⟩

theorem inv_opened (fddev : Int32) (base : UInt64) (enabled : Bool) (allocated : List UInt64) :
    Inv (opened fddev base enabled allocated) :=
  ⟨Nat.zero_le 1, .empty rfl rfl rfl rfl⟩

/-- The runs in which every call leaves behind what it is to are exactly those in which a buffer is
mapped only while none is, and is unmapped again only with an error. -/
theorem umsg_keeps_iff (fddev : Int32) (base : UInt64) (enabled : Bool) (allocated : List UInt64)
    (calls : List Call) : Along step Keeps (opened fddev base enabled allocated) calls ↔
      Along step Guard (opened fddev base enabled allocated) calls :=
  along_iff inv_step keeps_iff calls (inv_opened fddev base enabled allocated)

/-- Eight UMsgs are mapped at IOVA `0x10000`, but they cannot be enabled. -/
def getUnenabled : Call :=
  .get ⟨.ok, 4096, .ok 8, fun _ => some 0x700000000000, fun _ _ => .ok 0x10000, .ok, .exception,
    .ok⟩ (some none)

/-- The call succeeds with no buffer. -/
theorem umsg_unmapped_again : ¬Along step Keeps (opened 3 0 false []) [getUnenabled] := by
  rw [along_cons, keeps_iff _ _ (inv_opened 3 0 false [])]
  intro ⟨hguard, _⟩
  obtain ⟨-, -, hends⟩ := hguard 0x700000000000 32768 0x10000
    ⟨nofun, rfl, by decide, rfl, ⟨8, rfl, by decide⟩, rfl, rfl⟩
  exact hends.elim (fun h => nomatch h.2) fun h => h rfl

end OpaeLibs.PluginXfpga.UmsgRuns
