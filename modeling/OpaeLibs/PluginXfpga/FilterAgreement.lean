import OpaeLibs.PluginXfpga.EnumeratePruned
import OpaeLibs.PluginXfpga.FilterFields
import OpaeLibs.PluginXfpga.SysfsLinks

namespace OpaeLibs.PluginXfpga.FilterAgreement

open OpaeLibs.OpaeC.Props OpaeLibs.PluginXfpga.Properties OpaeLibs.PluginXfpga.Enumerate
  OpaeLibs.PluginXfpga.EnumerateNodes OpaeLibs.PluginXfpga.EnumeratePruned
  OpaeLibs.PluginXfpga.FilterFields
  OpaeLibs.PluginXfpga.Sysfs OpaeLibs.PluginXfpga.SysfsLinks

section Reporting

variable {π δ : Type} [DecidableEq π] (env : EnumEnv π δ) (filters : List (Filter π δ))
  (maxTokens : Nat)

def tokenOf (n : DevList π δ) : Option (FpgaToken π δ) :=
  n.sysfspath.bind fun sysfspath => n.devpath.bind fun devpath => tokenAdd env sysfspath devpath

theorem consider_some {acc acc' : Found π δ} {n : DevList π δ}
    (h : consider env filters maxTokens acc n = some acc') {t : FpgaToken π δ}
    (ht : t ∈ acc'.tokens) :
    t ∈ acc.tokens ∨ matchesFilters env n filters = true ∧ tokenOf env n = some t := by
  rw [consider] at h
  split at h
  · next hm =>
    rw [report] at h
    split at h
    · split at h
      · next sysfspath devpath hs hd =>
        obtain ⟨t', ht', rfl⟩ := Option.map_eq_some_iff.mp h
        rcases List.mem_append.mp ht with ht | ht
        · exact .inl ht
        · rw [List.mem_singleton.mp ht, tokenOf, hs, hd]
          exact .inr ⟨hm, ht'⟩
      · cases h
    · rw [← Option.some_inj.mp h] at ht
      exact .inl ht
  · rw [Option.some_inj.mp h]
    exact .inl ht

theorem mem_of_foldlM {ns : List (DevList π δ)} {acc acc' : Found π δ}
    (h : ns.foldlM (consider env filters maxTokens) acc = some acc') {t : FpgaToken π δ}
    (ht : t ∈ acc'.tokens) : t ∈ acc.tokens ∨
      ∃ n ∈ ns, matchesFilters env n filters = true ∧ tokenOf env n = some t := by
  induction ns generalizing acc with
  | nil =>
    rw [Option.some_inj.mp h]
    exact .inl ht
  | cons n ns ih =>
    rw [List.foldlM_cons] at h
    obtain ⟨acc₁, hacc, hrest⟩ := Option.bind_eq_some_iff.mp h
    rcases ih hrest with hin | ⟨m, hm, hmatch⟩
    · rcases consider_some env filters maxTokens hacc hin with hin | hmatch
      · exact .inl hin
      · exact .inr ⟨n, List.mem_cons_self, hmatch⟩
    · exact .inr ⟨m, List.mem_cons_of_mem _ hm, hmatch⟩

theorem consider_room (acc : Found π δ) {n : DevList π δ} (htok : (tokenOf env n).isSome)
    (hroom : acc.numMatches < maxTokens) :
    ∃ acc', consider env filters maxTokens acc n = some acc' ∧
      acc'.numMatches ≤ acc.numMatches + 1 ∧ acc.tokens ⊆ acc'.tokens ∧
      ∀ t, tokenOf env n = some t → matchesFilters env n filters = true → t ∈ acc'.tokens := by
  rw [consider]
  split
  · obtain ⟨t, ht⟩ := Option.isSome_iff_exists.mp htok
    obtain ⟨sysfspath, hs, hd⟩ := Option.bind_eq_some_iff.mp ht
    obtain ⟨devpath, hd, hadd⟩ := Option.bind_eq_some_iff.mp hd
    rw [report, if_pos hroom, hs, hd]
    dsimp only
    rw [hadd]
    refine ⟨_, rfl, Nat.le_refl _, List.subset_append_left _ _, fun t' ht' _ => ?_⟩
    rw [ht] at ht'
    rw [← Option.some_inj.mp ht']
    exact List.mem_append_right _ (List.mem_singleton_self _)
  · next hm =>
    exact ⟨acc, rfl, Nat.le_succ _, fun _ h => h, fun _ _ h => absurd h hm⟩

theorem foldlM_room (acc : Found π δ) {ns : List (DevList π δ)}
    (htok : ∀ n ∈ ns, (tokenOf env n).isSome) (hroom : acc.numMatches + ns.length ≤ maxTokens) :
    ∃ acc', ns.foldlM (consider env filters maxTokens) acc = some acc' ∧
      acc.tokens ⊆ acc'.tokens ∧ ∀ n ∈ ns, ∀ t, tokenOf env n = some t →
        matchesFilters env n filters = true → t ∈ acc'.tokens := by
  induction ns generalizing acc with
  | nil => exact ⟨acc, rfl, fun _ h => h, nofun⟩
  | cons n ns ih =>
    rw [List.length_cons] at hroom
    obtain ⟨acc₁, hacc, hle, hsub, hmem⟩ := consider_room env filters maxTokens
      acc (htok n List.mem_cons_self) (by omega)
    obtain ⟨acc₂, hrest, hsub', hmem'⟩ := ih acc₁
      (fun m hm => htok m (List.mem_cons_of_mem _ hm)) (by omega)
    refine ⟨acc₂, ?_, fun _ h => hsub' (hsub h), fun m hm t ht hmatch => ?_⟩
    · rw [List.foldlM_cons, hacc]
      exact hrest
    · rcases List.mem_cons.mp hm with rfl | hm
      · exact hsub' (hmem t ht hmatch)
      · exact hmem' m hm t ht hmatch

end Reporting

section Nodes

variable (fs : SysfsTree)

theorem find_entry {e : Entry} (he : e ∈ fs.entries) :
    fs.entries.find? (fun e' => e'.path fs.driver == e.path fs.driver) = some e := by
  obtain ⟨e', he'⟩ : ∃ e', fs.entries.find?
      (fun e' => e'.path fs.driver == e.path fs.driver) = some e' := by
    rw [← Option.isSome_iff_exists, List.find?_isSome]
    exact ⟨e, he, beq_self_eq_true _⟩
  have hbeq := List.find?_some he'
  rw [he', List.inj_on_of_nodup_map fs.nodup (List.mem_of_find?_eq_some he') he (eq_of_beq hbeq)]

theorem readlink_path {e : Entry} (he : e ∈ fs.entries) :
    readlink fs (e.path fs.driver) = some (e.link fs.driver) := by
  rw [readlink, find_entry fs he]
  rfl

theorem makeDevice_some {e : Entry} (he : e ∈ fs.entries) {d : SysfsFpgaDevice Path Name}
    (h : makeDevice fs e = some d) : ∃ deviceId vendorId,
    fs.ids (e.path fs.driver) .device = some deviceId ∧
    fs.ids (e.path fs.driver) .vendor = some vendorId ∧
    d = {
      sysfsPath := e.path fs.driver
      fme := e.fme.map (makeRegion (e.path fs.driver) fs.driver.formats.fme)
      port := e.port.map (makeRegion (e.path fs.driver) fs.driver.formats.port)
      segment := UInt32.ofNat e.address.segment.toNat
      bus := UInt8.ofNat e.address.bus.toNat
      device := UInt8.ofNat e.address.device.toNat
      function := UInt8.ofNat e.address.function.val
      deviceId := deviceId.toUInt32
      vendorId := vendorId.toUInt32 } := by
  rw [makeDevice, readlink_path fs he] at h
  dsimp only [bind, Option.bind] at h
  rw [parsePcieInfo_link] at h
  dsimp only at h
  cases hdev : fs.ids (e.path fs.driver) .device with
  | none =>
    rw [hdev] at h
    exact nomatch h
  | some deviceId =>
    rw [hdev] at h
    cases hven : fs.ids (e.path fs.driver) .vendor with
    | none =>
      rw [hven] at h
      exact nomatch h
    | some vendorId =>
      rw [hven] at h
      dsimp only at h
      split at h
      · exact nomatch h
      · exact ⟨deviceId, vendorId, rfl, rfl, (Option.some_inj.mp h).symm⟩

/-- The management engine in the directory of a region. -/
def fmeBeside (p : Path) : Option (SysfsFpgaRegion Path Name) :=
  (fs.entries.find? fun e => e.path fs.driver == dirname p).bind fun e =>
    e.fme.map (makeRegion (e.path fs.driver) fs.driver.formats.fme)

/-- The socket id in the directory of a region, 0 if there is none. -/
def ownSocketId (p : Path) : UInt64 :=
  match fmeBeside fs p with
  | some r =>
    if fs.isDir r.sysfsPath && fs.isChr r.devPath then
      (fs.attributeFile r.sysfsPath .socketId).value.getD 0
    else 0
  | none => 0

/-- A management engine that is found for a region has the socket id of the one beside it. -/
def SocketAgrees (p : Path) : Prop :=
  ∀ fme v, sysfsGetFmePath fs p = .ok fme → (fs.attributeFile fme .socketId).value = some v →
    v.toUInt8 = (ownSocketId fs p).toUInt8

theorem socketAgrees_of_beside {p fme : Path} {r : SysfsFpgaRegion Path Name}
    (hfind : sysfsGetFmePath fs p = .ok fme) (hbeside : fmeBeside fs p = some r)
    (hdir : fs.isDir r.sysfsPath = true) (hchr : fs.isChr r.devPath = true)
    (hsame : fs.attributeFile fme .socketId = fs.attributeFile r.sysfsPath .socketId) :
    SocketAgrees fs p := by
  intro fme' v hfme hv
  obtain rfl := Except.ok.inj (hfind.symm.trans hfme)
  rw [hsame] at hv
  rw [ownSocketId, hbeside]
  dsimp only
  rw [hdir, hchr, hv]
  rfl

theorem value_getD (f : AttributeFile) :
    (if f.isValid then f.value.getD 0 else 0) = f.value.getD 0 := by
  cases f <;> rfl

theorem attributeOf_some {n : DevList Path Name} {path : Path} (h : n.sysfspath = some path)
    (a : Attribute) : attributeOf (enumEnv fs) n a = (fs.attributeFile path a).value.getD 0 := by
  rw [attributeOf, h]
  exact value_getD _

theorem readU32_ok {p : Path} {f : IdFile} {value : UInt64} (hid : fs.ids p f = some value)
    {v : UInt32} (hv : sysfsReadU32 fs p f = .ok v) : v = value.toUInt32 := by
  rw [sysfsReadU32, hid] at hv
  dsimp only at hv
  split at hv
  · exact (Except.ok.inj hv).symm
  · exact nomatch hv

theorem ofNat_eq_ofInt (n : Nat) : UInt8.ofNat n = UInt8.ofInt (n : Int) := by
  apply UInt8.toNat_inj.mp
  simp [UInt8.ofInt]
  omega

theorem toUInt16_ofNat (n : Nat) : (UInt32.ofNat n).toUInt16 = UInt16.ofInt (n : Int) := by
  apply UInt16.toNat_inj.mp
  simp [UInt16.ofInt]
  omega

section Synced

variable {π δ : Type} (env : EnumEnv π δ)

/-- What looking at a node leaves as it is. -/
structure Keeps (m n : DevList π δ) : Prop where
  sysfspath : m.sysfspath = n.sysfspath
  devpath : m.devpath = n.devpath
  objtype : m.objtype = n.objtype
  ofDevice : ∀ d : SysfsFpgaDevice π δ, OfDevice d n → OfDevice d m

theorem syncedAfu_keeps (n : DevList π δ) :
    Keeps (syncedAfu env n) n ∧ (syncedAfu env n).socketId = n.socketId := by
  rw [syncedAfu]
  dsimp only
  rcases n.devpath.bind env.openPort with - | - | info <;>
    exact ⟨⟨rfl, rfl, rfl, fun _ h => ⟨h.1, h.2, h.3, h.4, h.5, h.6⟩⟩, rfl⟩

theorem syncedFme_keeps (n : DevList π δ) : Keeps (syncedFme env n) n ∧
    (syncedFme env n).socketId = (attributeOf env n .socketId).toUInt8 := by
  rw [syncedFme]
  dsimp only
  split <;> exact ⟨⟨rfl, rfl, rfl, fun _ h => ⟨h.1, h.2, h.3, h.4, h.5, h.6⟩⟩, rfl⟩

theorem guid_syncedAfu (n : DevList π δ) :
    (syncedAfu env n).guid = (n.sysfspath.bind env.afuGuid).getD n.guid := by
  rw [syncedAfu]
  dsimp only
  rcases n.devpath.bind env.openPort with - | - | info <;> rfl

theorem guid_syncedFme (n : DevList π δ) :
    (syncedFme env n).guid = (n.sysfspath.bind env.interfaceId).getD n.guid := by
  rw [syncedFme]
  dsimp only
  split <;> rfl

theorem numSlots_syncedFme (n : DevList π δ) :
    (syncedFme env n).fpgaNumSlots = (attributeOf env n .numSlots).toUInt32 := by
  rw [syncedFme]
  dsimp only
  split <;> rfl

theorem bitstreamId_syncedFme {n : DevList π δ} {path : π} {id : UInt64}
    (hpath : n.sysfspath = some path) (hvalid : env.pathIsValid path .bitstreamId = true)
    (hid : env.parseAttribute64 path .bitstreamId = some id) :
    (syncedFme env n).fpgaBitstreamId = id ∧ (syncedFme env n).fpgaBbsVersion =
      ⟨fpgaBbsVerMajor id, fpgaBbsVerMinor id, fpgaBbsVerPatch id⟩ := by
  have hany : (n.sysfspath.any fun path => env.pathIsValid path .bitstreamId) = true := by
    rw [hpath]
    exact hvalid
  have hbind : (n.sysfspath.bind fun path => env.parseAttribute64 path .bitstreamId) =
      some id := by
    rw [hpath]
    exact hid
  rw [syncedFme]
  dsimp only
  rw [hany, if_pos rfl, hbind]
  exact ⟨rfl, rfl⟩

end Synced

theorem sameAfu_synced (lock : Bool) {n : DevList Path Name} {t : FpgaToken Path Name}
    {v : AfuView} (hpath : n.sysfspath = some t.sysfspath) (hdev : n.devpath = some t.devpath)
    (htype : n.objtype = .accelerator) (hv : (tokenView fs t lock).afu = some v) :
    SameAfu (syncedAfu (enumEnv fs) n) v := by
  dsimp only [tokenView] at hv
  split at hv
  · obtain rfl := Option.some_inj.mp hv
    have hport : n.devpath.bind (enumEnv fs).openPort = fs.openPort t.devpath := by
      rw [hdev]
      rfl
    refine ⟨(syncedAfu_keeps _ n).1.objtype.trans htype, fun hg => ?_, ?_, fun info hi => ?_,
      fun info hi hirq => ?_⟩
    · dsimp only at hg ⊢
      rw [guid_syncedAfu, hpath]
      dsimp only [enumEnv, Option.bind_some]
      cases hread : fs.afuGuid t.sysfspath with
      | none =>
        rw [hread] at hg
        cases hg
      | some guid => rfl
    · rw [syncedAfu, hport]
      dsimp only
      cases fs.openPort t.devpath <;> rfl
    · dsimp only at hi
      rw [syncedAfu, hport, hi]
    · dsimp only at hi
      rw [syncedAfu, hport, hi]
      dsimp only
      rw [if_pos hirq]
  · cases hv

theorem sameFme_synced (lock : Bool) {n : DevList Path Name} {t : FpgaToken Path Name}
    {v : FmeView} (hpath : n.sysfspath = some t.sysfspath) (htype : n.objtype = .device)
    (hv : (tokenView fs t lock).fme = some v) : SameFme (syncedFme (enumEnv fs) n) v := by
  dsimp only [tokenView] at hv
  split at hv
  · obtain rfl := Option.some_inj.mp hv
    refine ⟨(syncedFme_keeps _ n).1.objtype.trans htype, fun g hg => ?_, fun slots hslots => ?_,
      fun b hb => ?_⟩
    · rw [guid_syncedFme, hpath]
      dsimp only [enumEnv, Option.bind_some] at hg ⊢
      rw [hg]
      rfl
    · rw [numSlots_syncedFme, attributeOf_some fs hpath]
      dsimp only at hslots
      rw [hslots]
      rfl
    · refine bitstreamId_syncedFme _ hpath ?_ hb
      dsimp only [enumEnv] at hb ⊢
      cases hf : fs.attributeFile t.sysfspath .bitstreamId with
      | absent =>
        rw [hf] at hb
        exact nomatch hb
      | unreadable => rfl
      | holds value => rfl
  · exact nomatch hv

section Device

variable {fs} {e : Entry} (he : e ∈ fs.entries) {d : SysfsFpgaDevice Path Name}
  (hd : makeDevice fs e = some d)

include he hd

theorem fme_of_makeDevice :
    d.fme = e.fme.map (makeRegion (e.path fs.driver) fs.driver.formats.fme) := by
  obtain ⟨_, _, -, -, rfl⟩ := makeDevice_some fs he hd
  rfl

theorem port_of_makeDevice :
    d.port = e.port.map (makeRegion (e.path fs.driver) fs.driver.formats.port) := by
  obtain ⟨_, _, -, -, rfl⟩ := makeDevice_some fs he hd
  rfl

theorem portSocketId_eq {p : Path} (hp : dirname p = e.path fs.driver) :
    portSocketId (enumEnv fs) d = (ownSocketId fs p).toUInt8 := by
  have hfme : d.fme = fmeBeside fs p := by
    rw [fmeBeside, hp, find_entry fs he, fme_of_makeDevice he hd]
    rfl
  rw [portSocketId, fmeAttrs, ownSocketId, hfme]
  cases hb : fmeBeside fs p with
  | none => rfl
  | some r =>
    rw [Option.bind_some]
    dsimp only
    have hpresent : isPresent (enumEnv fs) (nodeOf d r .device) =
        (fs.isDir r.sysfsPath && fs.isChr r.devPath) := rfl
    rw [hpresent]
    split
    · rw [← attributeOf_some fs (n := nodeOf d r .device) rfl]
      rw [Option.elim_some, syncedFme]
      dsimp only
      split <;> rfl
    · rfl

theorem same_of_makeDevice (lock : Bool) {t : FpgaToken Path Name}
    (ht : dirname t.sysfspath = e.path fs.driver) {n : DevList Path Name}
    (hpath : n.sysfspath = some t.sysfspath) (hdev : OfDevice d n) : Same (enumEnv fs) n (tokenView fs t lock) := by
  obtain ⟨deviceId, vendorId, hdid, hvid, rfl⟩ := makeDevice_some fs he hd
  refine ⟨fun v hv => ?_, fun v hv => ?_, fun s b d f hsbdf => ?_, fun o ho => ?_, ?_⟩
  · rw [← ht] at hvid
    rw [hdev.vendorId, readU32_ok fs hvid hv]
  · rw [← ht] at hdid
    rw [hdev.deviceId, readU32_ok fs hdid hv]
  · dsimp only [tokenView] at hsbdf
    rw [ht, readlink_path fs he] at hsbdf
    dsimp only at hsbdf
    rw [sysfsSbdfFromPath_link] at hsbdf
    have h := Except.ok.inj hsbdf
    simp only [Prod.mk.injEq] at h
    obtain ⟨rfl, rfl, rfl, rfl⟩ := h
    rw [hdev.segment, hdev.bus, hdev.device, hdev.function]
    exact ⟨toUInt16_ofNat _, ofNat_eq_ofInt _, ofNat_eq_ofInt _, ofNat_eq_ofInt _⟩
  · rw [hpath]
    exact ho
  · rw [hpath]
    exact beq_self_eq_true _

omit he hd in
theorem token_path {n : DevList Path Name} {t : FpgaToken Path Name}
    (ht : tokenOf (enumEnv fs) n = some t) :
    n.sysfspath = some t.sysfspath ∧ n.devpath = some t.devpath := by
  obtain ⟨sysfspath, hs, ht⟩ := Option.bind_eq_some_iff.mp ht
  obtain ⟨devpath, hdev, ht⟩ := Option.bind_eq_some_iff.mp ht
  obtain ⟨i, -, rfl⟩ := Option.map_eq_some_iff.mp ht
  exact ⟨hs, hdev⟩

omit he hd in
theorem socketAgrees_iff {t : FpgaToken Path Name} {lock : Bool} :
    (∀ v, (tokenView fs t lock).socketId = some v →
      v.toUInt8 = (ownSocketId fs t.sysfspath).toUInt8) ↔ SocketAgrees fs t.sysfspath := by
  constructor
  · intro h fme v hfme hv
    refine h v ?_
    dsimp only [tokenView]
    rw [hfme]
    exact hv
  · intro h v hv
    obtain ⟨fme, hfme, hv⟩ := Option.bind_eq_some_iff.mp hv
    cases hget : sysfsGetFmePath fs t.sysfspath with
    | error res =>
      rw [hget] at hfme
      exact nomatch hfme
    | ok path =>
      rw [hget] at hfme
      exact h path v hget (Option.some_inj.mp hfme ▸ hv)

theorem accepts_port {n : DevList Path Name} (hn : n ∈ portAttrs (enumEnv fs) d)
    {t : FpgaToken Path Name} (ht : tokenOf (enumEnv fs) n = some t) {lock : Bool}
    {q : FpgaProperties (FpgaToken Path Name)} (hq : readProperties (tokenView fs t lock) = .ok q) :
    matchesFilter (enumEnv fs) n ⟨true, q⟩ = true ↔ SocketAgrees fs t.sysfspath := by
  obtain ⟨hpath, hdevpath⟩ := token_path ht
  obtain ⟨r, hr, hn⟩ := Option.bind_eq_some_iff.mp hn
  rw [port_of_makeDevice he hd] at hr
  obtain ⟨k, -, rfl⟩ := Option.map_eq_some_iff.mp hr
  split at hn
  · obtain rfl := Option.some_inj.mp hn
    obtain ⟨hkeeps, hsocket⟩ := syncedAfu_keeps (enumEnv fs)
      { nodeOf d (makeRegion (e.path fs.driver) fs.driver.formats.port k) .accelerator with
        socketId := portSocketId (enumEnv fs) d }
    have hregion : t.sysfspath = regionPath fs.driver e k fs.driver.formats.port :=
      Option.some_inj.mp (hpath.symm.trans hkeeps.sysfspath)
    have hdir : dirname t.sysfspath = e.path fs.driver := by
      rw [hregion, dirname_regionPath]
    have hsame := same_of_makeDevice he hd lock hdir hpath
      (hkeeps.ofDevice d ⟨rfl, rfl, rfl, rfl, rfl, rfl⟩)
    obtain ⟨hafu, hfme⟩ := strstr_port fs.driver e k
    rw [← hregion] at hafu hfme
    have hagrees := agrees_afu hsame (if_pos hafu) (if_neg (Bool.eq_false_iff.mp hfme)) ?_ hq
    · rw [matchesFilter_of_agrees hagrees, socketId_readProperties hq, hsocket,
        portSocketId_eq he hd hdir]
      exact socketAgrees_iff
    · exact sameAfu_synced fs lock (hkeeps.sysfspath.symm.trans hpath)
        (hkeeps.devpath.symm.trans hdevpath) rfl (if_pos hafu)
  · exact nomatch hn

theorem accepts_fme {n : DevList Path Name} (hn : n ∈ fmeAttrs (enumEnv fs) d)
    {t : FpgaToken Path Name} (ht : tokenOf (enumEnv fs) n = some t) {lock : Bool}
    {q : FpgaProperties (FpgaToken Path Name)} (hq : readProperties (tokenView fs t lock) = .ok q) :
    matchesFilter (enumEnv fs) n ⟨true, q⟩ = true ↔ SocketAgrees fs t.sysfspath := by
  obtain ⟨hpath, hdevpath⟩ := token_path ht
  obtain ⟨r, hr, hn⟩ := Option.bind_eq_some_iff.mp hn
  rw [fme_of_makeDevice he hd] at hr
  obtain ⟨k, hk, rfl⟩ := Option.map_eq_some_iff.mp hr
  split at hn
  · next hpresent =>
    obtain rfl := Option.some_inj.mp hn
    obtain ⟨hkeeps, hsocket⟩ := syncedFme_keeps (enumEnv fs)
      (nodeOf d (makeRegion (e.path fs.driver) fs.driver.formats.fme k) .device)
    have hregion : t.sysfspath = regionPath fs.driver e k fs.driver.formats.fme :=
      Option.some_inj.mp (hpath.symm.trans hkeeps.sysfspath)
    have hdir : dirname t.sysfspath = e.path fs.driver := by
      rw [hregion, dirname_regionPath]
    have hsame := same_of_makeDevice he hd lock hdir hpath
      (hkeeps.ofDevice d ⟨rfl, rfl, rfl, rfl, rfl, rfl⟩)
    obtain ⟨hfme, hafu⟩ := strstr_fme fs.driver e k
    rw [← hregion] at hafu hfme
    have hagrees := agrees_fme hsame (if_neg (Bool.eq_false_iff.mp hafu)) (if_pos hfme)
      (sameFme_synced fs lock (hkeeps.sysfspath.symm.trans hpath) rfl (if_pos hfme)) hq
    have hown : (syncedFme (enumEnv fs)
        (nodeOf d (makeRegion (e.path fs.driver) fs.driver.formats.fme k) .device)).socketId =
          (ownSocketId fs t.sysfspath).toUInt8 := by
      rw [← portSocketId_eq he hd hdir, portSocketId, fmeAttrs, fme_of_makeDevice he hd, hk,
        Option.map_some, Option.bind_some, if_pos hpresent]
      rfl
    rw [matchesFilter_of_agrees hagrees, socketId_readProperties hq, hown]
    exact socketAgrees_iff
  · cases hn

end Device

/-- The nodes that an enumeration with ports looks at. -/
def nodes : List (DevList Path Name) := (devices fs).flatMap (attrs (enumEnv fs) true)

theorem length_nodes : (nodes fs).length ≤ 2 * (devices fs).length := by
  rw [nodes]
  induction devices fs with
  | nil => exact Nat.le_refl _
  | cons d ds ih =>
    rw [List.flatMap_cons, List.length_append, List.length_cons, attrs, if_pos rfl,
      List.length_append]
    have hfme : (fmeAttrs (enumEnv fs) d).toList.length ≤ 1 := by
      cases fmeAttrs (enumEnv fs) d <;> simp
    have hport : (portAttrs (enumEnv fs) d).toList.length ≤ 1 := by
      cases portAttrs (enumEnv fs) d <;> simp
    omega

variable {fs}

theorem mem_nodes {n : DevList Path Name} (hn : n ∈ nodes fs) : ∃ e ∈ fs.entries, ∃ d,
    makeDevice fs e = some d ∧
      (n ∈ fmeAttrs (enumEnv fs) d ∨ n ∈ portAttrs (enumEnv fs) d) := by
  obtain ⟨d, hd, hn⟩ := List.mem_flatMap.mp hn
  obtain ⟨e, he, hd⟩ := List.mem_filterMap.mp hd
  refine ⟨e, he, d, hd, ?_⟩
  rw [attrs, if_pos rfl] at hn
  exact (List.mem_append.mp hn).imp Option.mem_toList.mp Option.mem_toList.mp

/-- The filter made of the properties of a token accepts the nodes of the token where the socket
ids agree. -/
theorem accepts_iff {n : DevList Path Name} (hn : n ∈ nodes fs) {t : FpgaToken Path Name}
    (ht : tokenOf (enumEnv fs) n = some t) {lock : Bool}
    {q : FpgaProperties (FpgaToken Path Name)} (hq : readProperties (tokenView fs t lock) = .ok q) :
    matchesFilter (enumEnv fs) n ⟨true, q⟩ = true ↔ SocketAgrees fs t.sysfspath := by
  obtain ⟨e, he, d, hd, hfme | hport⟩ := mem_nodes hn
  · exact accepts_fme he hd hfme ht hq
  · exact accepts_port he hd hport ht hq

theorem isSome_tokenOf {n : DevList Path Name} (hn : n ∈ nodes fs) :
    (tokenOf (enumEnv fs) n).isSome = true := by
  have hpaths {e : Entry} {k : Nat} {start : Name} (hstart : start = start.dropLast ++ ['.'])
      (hs : n.sysfspath = some (regionPath fs.driver e k start))
      (hd : n.devpath = some (start ++ digits k)) : (tokenOf (enumEnv fs) n).isSome = true := by
    rw [tokenOf, hs, hd, Option.bind_some, Option.bind_some, tokenAdd, Option.isSome_map]
    exact instances_regionPath fs.driver e k hstart
  obtain ⟨e, he, d, hd, hfme | hport⟩ := mem_nodes hn
  · obtain ⟨r, hr, hn⟩ := Option.bind_eq_some_iff.mp hfme
    rw [fme_of_makeDevice he hd] at hr
    obtain ⟨k, -, rfl⟩ := Option.map_eq_some_iff.mp hr
    split at hn
    · have hkeeps := (syncedFme_keeps (enumEnv fs)
        (nodeOf d (makeRegion (e.path fs.driver) fs.driver.formats.fme k) .device)).1
      rw [Option.some_inj.mp hn] at hkeeps
      refine hpaths ?_ hkeeps.sysfspath hkeeps.devpath
      cases fs.driver <;> decide
    · exact nomatch hn
  · obtain ⟨r, hr, hn⟩ := Option.bind_eq_some_iff.mp hport
    rw [port_of_makeDevice he hd] at hr
    obtain ⟨k, -, rfl⟩ := Option.map_eq_some_iff.mp hr
    split at hn
    · have hkeeps := (syncedAfu_keeps (enumEnv fs)
        { nodeOf d (makeRegion (e.path fs.driver) fs.driver.formats.port k) .accelerator with
          socketId := portSocketId (enumEnv fs) d }).1
      rw [Option.some_inj.mp hn] at hkeeps
      refine hpaths ?_ hkeeps.sysfspath hkeeps.devpath
      cases fs.driver <;> decide
    · exact nomatch hn

end Nodes

section Runs

def Reports {π δ : Type} (r : FpgaResult × Option (Found π δ)) (t : FpgaToken π δ) : Prop :=
  ∃ found, r.2 = some found ∧ t ∈ found.tokens

def byFilter {π δ : Type} (q : FpgaProperties (FpgaToken π δ)) (maxTokens : Nat) :
    EnumArgs π δ where
  filters := some [⟨true, q⟩]
  numFilters := 1
  tokens := true
  maxTokens := maxTokens
  numMatches := true

variable {fs : SysfsTree} {init : FpgaResult}

theorem token_of_reports {args : EnumArgs Path Name} {t : FpgaToken Path Name}
    (h : Reports (xfpgaFpgaEnumerate (enumEnv fs) init (devices fs) args) t) :
    init = .ok ∧ ∃ n ∈ nodes fs, tokenOf (enumEnv fs) n = some t ∧
      matchesFilters (enumEnv fs) n ((args.filters.getD []).take args.numFilters) = true := by
  obtain ⟨found, hfound, ht⟩ := h
  rw [xfpgaFpgaEnumerate, enumerateArgs] at hfound
  split at hfound
  · cases hfound
  split at hfound
  · cases hfound
  split at hfound
  · cases hfound
  split at hfound
  · cases hfound
  have hfound := Option.some_inj.mp hfound
  rw [enumerateWith_includeAfu] at hfound
  by_cases hinit : init = .ok
  · rw [hinit, enumerateWith_eq] at hfound
    cases hfold : (nodes fs).foldlM (consider (enumEnv fs)
        ((args.filters.getD []).take args.numFilters) args.maxTokens) ⟨[], 0⟩ with
    | none =>
      rw [nodes] at hfold
      rw [hfold] at hfound
      rw [← hfound] at ht
      exact absurd ht List.not_mem_nil
    | some acc =>
      have hmem := mem_of_foldlM _ _ _ hfold (t := t)
      rw [nodes] at hfold
      rw [hfold] at hfound
      rw [← hfound] at ht
      obtain ⟨n, hn, hmatch, htok⟩ := (hmem ht).resolve_left List.not_mem_nil
      exact ⟨hinit, n, hn, htok, hmatch⟩
  · rw [enumerateWith, enumFpgaRegionResources, if_pos hinit] at hfound
    rw [← hfound] at ht
    cases init <;> first | exact absurd rfl hinit | exact absurd ht List.not_mem_nil

theorem reports_byFilter {q : FpgaProperties (FpgaToken Path Name)} {m : Nat}
    (hm : 2 * (devices fs).length ≤ m) {n : DevList Path Name} (hn : n ∈ nodes fs)
    {t : FpgaToken Path Name} (ht : tokenOf (enumEnv fs) n = some t)
    (hmatch : matchesFilter (enumEnv fs) n ⟨true, q⟩ = true) :
    Reports (xfpgaFpgaEnumerate (enumEnv fs) .ok (devices fs) (byFilter q m)) t := by
  obtain ⟨acc, hfold, -, hmem⟩ := foldlM_room (enumEnv fs) [⟨true, q⟩] m ⟨[], 0⟩
    (fun n hn => isSome_tokenOf hn) (by have := length_nodes fs; dsimp only; omega)
  have hmatches : matchesFilters (enumEnv fs) n [⟨true, q⟩] = true := by
    rw [matchesFilters]
    simpa using hmatch
  refine ⟨acc, ?_, hmem n hn t ht hmatches⟩
  have hrun : enumerateWith (enumEnv fs) [⟨true, q⟩] m (includeAfu [⟨true, q⟩]) .ok (devices fs) =
      (.ok, acc) := by
    rw [enumerateWith_includeAfu, enumerateWith_eq]
    rw [nodes] at hfold
    rw [hfold]
    rfl
  have hargs : (xfpgaFpgaEnumerate (enumEnv fs) .ok (devices fs) (byFilter q m)).2 =
      some (enumerateWith (enumEnv fs) [⟨true, q⟩] m (includeAfu [⟨true, q⟩]) .ok
        (devices fs)).2 := by
    simp [xfpgaFpgaEnumerate, enumerateArgs, byFilter]
  rw [hargs, hrun]

/-- A token that is reported is reported again for its own properties exactly where the socket id
that these give is the one that enumeration reads. -/
theorem reported_again_iff (args : EnumArgs Path Name) {t : FpgaToken Path Name}
    (h : Reports (xfpgaFpgaEnumerate (enumEnv fs) init (devices fs) args) t) (lock : Bool)
    (p : FpgaProperties (FpgaToken Path Name)) {q : FpgaProperties (FpgaToken Path Name)}
    (hq : xfpgaFpgaUpdateProperties (tokenView fs t lock) p = (.ok, q)) {m : Nat}
    (hm : 2 * (devices fs).length ≤ m) :
    Reports (xfpgaFpgaEnumerate (enumEnv fs) init (devices fs) (byFilter q m)) t ↔
      SocketAgrees fs t.sysfspath := by
  obtain ⟨rfl, n, hn, ht, -⟩ := token_of_reports h
  have hread : readProperties (tokenView fs t lock) = .ok q := by
    rw [xfpgaFpgaUpdateProperties, if_neg (by exact Bool.false_ne_true)] at hq
    split at hq
    · next res _ => exact absurd (congrArg Prod.fst hq) res.2
    · next iprop hiprop =>
      split at hq
      · exact hiprop.trans (congrArg Except.ok (congrArg Prod.snd hq))
      · exact nomatch hq
  constructor
  · intro hagain
    obtain ⟨-, n', hn', ht', hmatch⟩ := token_of_reports hagain
    refine (accepts_iff hn' ht' hread).mp ?_
    simpa [byFilter, matchesFilters] using hmatch
  · intro hsocket
    exact reports_byFilter hm hn ht ((accepts_iff hn ht hread).mpr hsocket)

def physical : Entry := ⟨0, (0, 0x5e), [], ⟨0, 0x5e, 0, 0⟩, some 0, none⟩

def virtual : Entry := ⟨1, (0, 0x5e), [], ⟨0, 0x5e, 0, 1⟩, none, some 1⟩

def sampleTree : SysfsTree where
  driver := .dfl
  entries := [physical, virtual]
  nodup := by decide
  ids
    | _, .vendor => some 0x8086
    | _, .device => some 0xbcce
  endsInNewline _ _ := true
  isDir _ := true
  isChr _ := true
  interfaceId _ := .ok (Vector.replicate 16 0)
  afuGuid _ := some (Vector.replicate 16 0)
  attributeFile
    | _, .socketId => .holds 1
    | _, .numSlots => .holds 1
    | _, .bitstreamId => .holds 0x23000110ce2f4d3b
  openPort _ := some (some ⟨2, 0, false⟩)
  globFpga
    | p, .physfn =>
      if dirname p = virtual.path .dfl then .ok ["0000:5e:00.0".toList]
      else .error ⟨.notFound, FpgaResult.notFound_ne_ok⟩
    | p, .device =>
      if dirname p = physical.path .dfl then .ok ["0000:5e:00.0".toList]
      else .ok ["0000:5e:00.1".toList]
  globFme dir :=
    if dir = ["0000:5e:00.0".toList] then .ok (regionPath .dfl physical 0 "dfl-fme.".toList)
    else .error ⟨.notFound, FpgaResult.notFound_ne_ok⟩
  realpath p := some p
  objectId _ := none
  countErrorFiles _ := 0

def sampleEngine : FpgaToken Path Name :=
  ⟨0, 0, regionPath .dfl physical 0 "dfl-fme.".toList, "dfl-fme.0".toList⟩

def samplePort : FpgaToken Path Name :=
  ⟨1, 1, regionPath .dfl virtual 1 "dfl-port.".toList, "dfl-port.1".toList⟩

def sampleProperties (t : FpgaToken Path Name) : FpgaProperties (FpgaToken Path Name) :=
  (xfpgaFpgaUpdateProperties (tokenView sampleTree t true) opaePropertiesCreate).2

def everything : EnumArgs Path Name := ⟨none, 0, true, 4, true⟩

theorem reported_again_iff_sample :
    Reports (xfpgaFpgaEnumerate (enumEnv sampleTree) .ok (devices sampleTree)
      (byFilter (sampleProperties sampleEngine) 4)) sampleEngine ↔
      SocketAgrees sampleTree sampleEngine.sysfspath :=
  reported_again_iff everything ⟨_, rfl, by decide +kernel⟩ true opaePropertiesCreate
    (Prod.ext (by decide +kernel) rfl) (by decide +kernel)

theorem not_forall_reported_again : ¬∀ (fs : SysfsTree) (init : FpgaResult)
    (args : EnumArgs Path Name) (t : FpgaToken Path Name) (lock : Bool)
    (p q : FpgaProperties (FpgaToken Path Name)) (m : Nat),
    Reports (xfpgaFpgaEnumerate (enumEnv fs) init (devices fs) args) t →
    xfpgaFpgaUpdateProperties (tokenView fs t lock) p = (.ok, q) →
    2 * (devices fs).length ≤ m →
    Reports (xfpgaFpgaEnumerate (enumEnv fs) init (devices fs) (byFilter q m)) t := by
  intro h
  obtain ⟨found, hfound, ht⟩ := h sampleTree .ok everything samplePort true opaePropertiesCreate
    (sampleProperties samplePort) 4 ⟨_, rfl, by decide +kernel⟩
    (Prod.ext (by decide +kernel) rfl) (by decide +kernel)
  have hnothing : (xfpgaFpgaEnumerate (enumEnv sampleTree) .ok (devices sampleTree)
      (byFilter (sampleProperties samplePort) 4)).2.map Found.tokens = some [] := by
    decide +kernel
  rw [hfound] at hnothing
  rw [Option.some_inj.mp hnothing] at ht
  exact List.not_mem_nil ht

end Runs

end OpaeLibs.PluginXfpga.FilterAgreement
