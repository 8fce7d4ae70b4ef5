import OpaeLibs.OpaeC.Props
import OpaeLibs.Opaevfio.Open

namespace OpaeLibs.PluginVfio.OpenPair

open OpaeLibs.OpaeC.Props OpaeLibs.Opaevfio.Open

structure VfioPair where
  device : OpaeVfio
  physfn : Option OpaeVfio
deriving DecidableEq, Repr

/-- The storage that opening a device asks for. -/
inductive Block
  | pair
  | device
  | physfn
  | token
deriving DecidableEq, Repr

/-- What a call that fails leaves behind: the structures that were opened, or might have been, with
what they hold when nothing refers to them any more, and storage that is never given back. -/
structure Left where
  vfios : List OpaeVfio
  blocks : List Block
deriving DecidableEq, Repr

def Left.nothing : Left := ⟨[], []⟩

/-- The outcomes of all that opening a pair calls, each `true` if the call succeeds. The physical
function is looked up by its link and its driver's, and counts if the driver is `vfio-pci`. -/
structure PairEnv where
  pair : Bool
  device : Bool
  physfnLink : Bool
  driverLink : Bool
  vfioPci : Bool
  physfn : Bool
  openPhysfn : SecureEnv
  openDevice : SecureEnv
deriving DecidableEq, Repr

/-- The label `out_destroy` frees the structure of the device and the pair. -/
def outDestroy (freed : List OpaeVfio) (device : OpaeVfio) (physfn : Option OpaeVfio) : Left :=
  match physfn with
  | none => ⟨freed ++ [device], []⟩
  | some physfn => ⟨freed ++ [device, physfn], [.physfn]⟩

def openVfioPair (env : PairEnv) : Option VfioPair × Left :=
  if !env.pair then (none, .nothing)
  else if !env.device then (none, .nothing)
  else if env.physfnLink && env.driverLink && env.vfioPci then
    if !env.physfn then (none, outDestroy [] .closed none)
    else
      let (res, physfn) := opaeVfioSecureOpen env.openPhysfn
      if res ≠ 0 then (none, outDestroy [physfn] .closed none)
      else
        let (res, device) := opaeVfioSecureOpen env.openDevice
        if res ≠ 0 then (none, outDestroy [] device (some physfn))
        else (some ⟨device, some physfn⟩, .nothing)
  else
    let (res, device) := opaeVfioOpen env.openDevice.init
    if res ≠ 0 then (none, outDestroy [] device none)
    else (some ⟨device, none⟩, .nothing)

def closeVfioPair (pair : VfioPair) : Left :=
  ⟨opaeVfioClose pair.device :: pair.physfn.toList.map opaeVfioClose, []⟩

structure OpenEnv where
  attrInit : Bool
  handle : Bool
  attrSettype : Bool
  mutexInit : Bool
  cloneToken : Bool
  openPair : PairEnv
  region : Nat
deriving DecidableEq, Repr

/-- `vfio_fpgaOpen` of a token that passes its check, with a handle to store to. The copy of the
token, if there is one, belongs to the handle. -/
def vfioFpgaOpen (env : OpenEnv) : FpgaResult × Option VfioPair × Left :=
  if !env.attrInit then (.exception, none, .nothing)
  else if !env.handle then (.noMemory, none, .nothing)
  else if !env.attrSettype || !env.mutexInit then (.exception, none, .nothing)
  else
    let token := if env.cloneToken then [Block.token] else []
    match openVfioPair env.openPair with
    | (none, left) => (.exception, none, ⟨left.vfios, left.blocks ++ token⟩)
    | (some pair, _) =>
      if !opaeVfioRegionGet pair.device env.region then
        let left := closeVfioPair pair
        (.exception, none, ⟨left.vfios, left.blocks ++ token⟩)
      else (.ok, some pair, .nothing)

/-- Nothing that was opened is still open. -/
def NothingOpen (left : Left) : Prop := ∀ v ∈ left.vfios, v = .closed

/-- Nor is anything still allocated. -/
def Released (left : Left) : Prop := NothingOpen left ∧ left.blocks = []

/-- No opening is reported to have failed that has not, and once the physical function is open the
device opens as well. -/
def Spared (env : PairEnv) : Prop :=
  env.pair = true → env.device = true →
    if env.physfnLink && env.driverLink && env.vfioPci then
      env.physfn = true → env.openPhysfn.strands = false ∧
        (env.openPhysfn.opens = true → env.openDevice.opens = true)
    else env.openDevice.init.strands false = false

theorem released_nothing : Released .nothing := ⟨nofun, rfl⟩

theorem released_outDestroy {freed : List OpaeVfio} {device : OpaeVfio} :
    Released (outDestroy freed device none) ↔ (∀ v ∈ freed, v = .closed) ∧ device = .closed := by
  rw [Released, NothingOpen, outDestroy]
  simp only [List.forall_mem_append, List.forall_mem_singleton, and_true]

theorem openDevice_releases_iff {opens strands : Bool} {r : Nat × OpaeVfio}
    (h : Ends opens strands r) :
    (r.1 ≠ 0 → Released (outDestroy [] r.2 none)) ↔ strands = false := by
  rw [released_outDestroy]
  cases h with
  | opened ho hs hfd => exact iff_of_true (fun hne => absurd rfl hne) hs
  | stranded ho hs hne hfd =>
    apply iff_of_false
    · exact fun hreleased => ne_closed hfd (hreleased hne).2
    · exact fun hnot => Bool.false_ne_true (hnot.symm.trans hs)
  | failed ho hs hne => exact iff_of_true (fun _ => ⟨nofun, rfl⟩) hs

theorem openVfioPair_releases_iff (env : PairEnv) :
    ((openVfioPair env).1 = none → Released (openVfioPair env).2) ↔ Spared env := by
  rw [openVfioPair, Spared]
  cases env.pair with
  | false => exact iff_of_true (fun _ => released_nothing) nofun
  | true =>
    cases env.device with
    | false => exact iff_of_true (fun _ => released_nothing) nofun
    | true =>
      simp only [Bool.not_true, Bool.false_eq_true, if_false, forall_const]
      by_cases hbound : (env.physfnLink && env.driverLink && env.vfioPci) = true
      · rw [if_pos hbound, if_pos hbound]
        cases env.physfn with
        | false => exact iff_of_true (fun _ => released_outDestroy.mpr ⟨nofun, rfl⟩) nofun
        | true =>
          simp only [Bool.not_true, Bool.false_eq_true, if_false, forall_const]
          have hphysfn := opaeVfioSecureOpen_ends env.openPhysfn
          have hdevice := opaeVfioSecureOpen_ends env.openDevice
          generalize opaeVfioSecureOpen env.openPhysfn = r at hphysfn
          generalize opaeVfioSecureOpen env.openDevice = r' at hdevice
          cases hphysfn with
          | opened ho hs hfd =>
            rw [if_neg (not_not_intro rfl), ho, hs]
            cases hdevice with
            | opened ho' hs' hfd' => exact iff_of_true nofun ⟨rfl, fun _ => ho'⟩
            | stranded ho' hs' hne' hfd' =>
              rw [if_pos hne', ho']
              exact iff_of_false (fun h => nomatch (h rfl).2) fun h => nomatch h.2 rfl
            | failed ho' hs' hne' =>
              rw [if_pos hne', ho']
              exact iff_of_false (fun h => nomatch (h rfl).2) fun h => nomatch h.2 rfl
          | @stranded res v ho hs hne hfd =>
            rw [if_pos hne, hs]
            apply iff_of_false
            · exact fun h => ne_closed hfd ((released_outDestroy.mp (h rfl)).1 v (by simp))
            · exact fun h => nomatch h.1
          | failed ho hs hne =>
            rw [if_pos hne, ho, hs]
            apply iff_of_true
            · exact fun _ => released_outDestroy.mpr ⟨by simp, rfl⟩
            · exact ⟨rfl, nofun⟩
      · rw [if_neg hbound, if_neg hbound, opaeVfioOpen,
          ← openDevice_releases_iff (opaeVfioInit_ends false env.openDevice.init)]
        split
        · next hne => exact ⟨fun h _ => h rfl, fun h _ => h hne⟩
        · next hzero => exact iff_of_true nofun fun hne => absurd hne hzero

theorem nothingOpen_closeVfioPair (pair : VfioPair) : NothingOpen (closeVfioPair pair) := by
  intro v hv
  rw [closeVfioPair] at hv
  obtain rfl | hv := List.mem_cons.mp hv
  · exact opaeVfioDestroy_eq _
  · obtain ⟨w, -, rfl⟩ := List.mem_map.mp hv
    exact opaeVfioDestroy_eq w

/-- An opening that fails leaves nothing behind exactly if no opening of a part fails after another
part is open. -/
theorem open_releases_iff (env : OpenEnv) :
    (((openVfioPair env.openPair).1 = none → Released (openVfioPair env.openPair).2) ∧
      ((vfioFpgaOpen env).1 ≠ .ok → NothingOpen (vfioFpgaOpen env).2.2)) ↔
        Spared env.openPair := by
  rw [openVfioPair_releases_iff]
  apply and_iff_left_of_imp
  intro hspared hfailed
  have hreleased := (openVfioPair_releases_iff env.openPair).mpr hspared
  rw [vfioFpgaOpen] at hfailed ⊢
  split
  · exact nofun
  split
  · exact nofun
  split
  · exact nofun
  dsimp only
  split
  · next left he =>
    rw [he] at hreleased
    exact (hreleased rfl).1
  · next pair left he =>
    split
    · exact nothingOpen_closeVfioPair pair
    · exact nofun

section Sample

def sampleInit : InitEnv :=
  ⟨true, true, true, true, true, true, true, true, ⟨true, true, true, true⟩, true, true,
    ⟨true, true, true, true, true, [true], []⟩, 1, 1, true⟩

def sampleEnv : PairEnv :=
  ⟨true, true, true, true, true, true, ⟨true, true, sampleInit⟩,
    ⟨true, true, { sampleInit with device := { sampleInit.device with deviceFd := false } }⟩⟩

/-- The physical function stays open and allocated. -/
theorem physfn_left_open :
    (openVfioPair sampleEnv).1 = none ∧ (openVfioPair sampleEnv).2.blocks = [.physfn] ∧
      (openVfioPair sampleEnv).2.vfios.map (fun v => (v.contFd, v.device.deviceFd)) =
        [(false, false), (true, true)] ∧
      ¬ Released (openVfioPair sampleEnv).2 := by
  refine ⟨by decide, by decide, by decide, ?_⟩
  rintro ⟨-, hblocks⟩
  revert hblocks
  decide

end Sample

end OpaeLibs.PluginVfio.OpenPair
