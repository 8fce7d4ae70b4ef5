import OpaeLibs.PluginVfio.Buffers

namespace OpaeLibs.PluginVfio.BufferIds

open OpaeLibs.OpaeC.Props OpaeLibs.Lib.Runs
open OpaeLibs.Opaevfio.Buffers OpaeLibs.PluginVfio.Buffers

/-- The plugin beside what its callers know: for each workspace id that is not released the buffer
that was allocated for it, as its address and IOVA, and the number of buffers handed out. -/
structure Session where
  plugin : Plugin
  live : UInt64 → Option (UInt64 × UInt64)
  allocations : Nat

/-- The buffer that a call of `vfio_fpgaPrepareBuffer` allocates. -/
def allocated (pageSize : UInt64) (env : PrepareEnv) (p : Plugin) (h : Nat) (len : UInt64) :
    Option (UInt64 × UInt64) :=
  match p.devices h with
  | none => none
  | some v => (opaeVfioBufferAllocate pageSize env.allocate v (some (prepareSize len))).out

def observe (pageSize : UInt64) (s : Session) (call : Call) : Session :=
  let plugin := step pageSize s.plugin call
  match call with
  | .prepare env h len ptrs =>
    match (vfioFpgaPrepareBuffer pageSize env s.plugin h len ptrs).out with
    | none => { s with plugin := plugin }
    | some (_, wsid) =>
      ⟨plugin, Function.update s.live wsid (allocated pageSize env s.plugin h len),
        s.allocations + 1⟩
  | .release env h wsid =>
    if (vfioFpgaReleaseBuffer env s.plugin h wsid).1 = .ok then
      { s with plugin := plugin, live := Function.update s.live wsid none }
    else { s with plugin := plugin }
  | .getIOAddress _ => { s with plugin := plugin }
  | .close _ => { s with plugin := plugin }

def Descending (buffers : List VfioBuffer) : Prop :=
  buffers.Pairwise fun a b => b.wsid < a.wsid

structure Keeps (pageSize : UInt64) (s : Session) (call : Call) : Prop where
  descending : Descending (observe pageSize s call).plugin.vfioBuffers
  prepared : ∀ env h len ptrs, call = .prepare env h len ptrs →
    match (vfioFpgaPrepareBuffer pageSize env s.plugin h len ptrs).out with
    | none => (step pageSize s.plugin call).vfioBuffers = s.plugin.vfioBuffers
    | some (virt, wsid) => s.live wsid = none ∧
      ∃ b, (step pageSize s.plugin call).vfioBuffers = b :: s.plugin.vfioBuffers ∧
        b.wsid = wsid ∧ allocated pageSize env s.plugin h len = some (virt, b.iova)
  released : ∀ env h wsid, call = .release env h wsid →
    if (s.plugin.devices h).isSome then
      ((vfioFpgaReleaseBuffer env s.plugin h wsid).1 = .ok ↔ (s.live wsid).isSome) ∧
        (step pageSize s.plugin call).vfioBuffers =
          s.plugin.vfioBuffers.filter fun b => b.wsid ≠ wsid
    else (vfioFpgaReleaseBuffer env s.plugin h wsid).1 ≠ .ok ∧
      (step pageSize s.plugin call).vfioBuffers = s.plugin.vfioBuffers
  address : ∀ wsid, call = .getIOAddress wsid →
    vfioFpgaGetIOAddress s.plugin wsid =
      match s.live wsid with
      | none => (.notFound, none)
      | some (_, iova) => (.ok, some iova)

structure Inv (s : Session) : Prop where
  descending : Descending s.plugin.vfioBuffers
  bounded : ∀ b ∈ s.plugin.vfioBuffers, b.wsid.toNat < s.allocations
  live_eq : ∀ wsid, s.live wsid =
    (s.plugin.vfioBuffers.find? fun b => b.wsid == wsid).map fun b => (b.virtual, b.iova)

theorem nextWsid_toNat {buffers : List VfioBuffer} {n : Nat}
    (h : ∀ b ∈ buffers, b.wsid.toNat < n) (hn : n < 2 ^ 64) :
    (nextWsid buffers).toNat ≤ n ∧ ∀ b ∈ buffers.head?, b.wsid < nextWsid buffers := by
  cases buffers with
  | nil => exact ⟨Nat.zero_le n, nofun⟩
  | cons next rest =>
    have hlt := h next List.mem_cons_self
    have hsucc : (next.wsid + 1).toNat = next.wsid.toNat + 1 := by
      rw [UInt64.toNat_add, UInt64.toNat_one]
      omega
    refine ⟨by rw [nextWsid, hsucc]; exact hlt, ?_⟩
    rintro b ⟨⟩
    rw [UInt64.lt_iff_toNat_lt, nextWsid, hsucc]
    exact Nat.lt_succ_self _

theorem lt_nextWsid {buffers : List VfioBuffer} {n : Nat} (hd : Descending buffers)
    (h : ∀ b ∈ buffers, b.wsid.toNat < n) (hn : n < 2 ^ 64) :
    ∀ b ∈ buffers, b.wsid < nextWsid buffers := by
  have hhead := (nextWsid_toNat h hn).2
  cases buffers with
  | nil => exact nofun
  | cons next rest =>
    have hnext := hhead next rfl
    intro b hb
    rcases List.mem_cons.mp hb with rfl | hb
    · exact hnext
    · exact UInt64.lt_trans ((List.pairwise_cons.mp hd).1 b hb) hnext

theorem Descending.eraseP_eq {buffers : List VfioBuffer} (h : Descending buffers)
    (wsid : UInt64) :
    (buffers.eraseP fun b => b.wsid == wsid) = buffers.filter fun b => b.wsid ≠ wsid := by
  induction buffers with
  | nil => rfl
  | cons b rest ih =>
    obtain ⟨hb, hrest⟩ := List.pairwise_cons.mp h
    by_cases hw : b.wsid = wsid
    · rw [List.eraseP_cons_of_pos (by simpa using hw), List.filter_cons_of_neg (by simpa using hw)]
      symm
      rw [List.filter_eq_self]
      intro c hc
      simpa using fun heq => UInt64.ne_of_lt (hb c hc) (heq.trans hw.symm)
    · rw [List.eraseP_cons_of_neg (by simpa using hw), List.filter_cons_of_pos (by simpa using hw),
        ih hrest]

theorem find?_filter_ne (buffers : List VfioBuffer) (wsid w : UInt64) :
    (buffers.filter fun b => b.wsid ≠ wsid).find? (fun b => b.wsid == w) =
      if w = wsid then none else buffers.find? fun b => b.wsid == w := by
  rw [List.find?_filter]
  split
  case isTrue hw =>
    subst hw
    simp
  case isFalse hw =>
    congr 1
    funext b
    grind

theorem prepare_cases (pageSize : UInt64) (env : PrepareEnv) (p : Plugin) (h : Nat) (len : UInt64)
    (ptrs : Bool) :
    ((vfioFpgaPrepareBuffer pageSize env p h len ptrs).out = none ∧
      (vfioFpgaPrepareBuffer pageSize env p h len ptrs).plugin.vfioBuffers = p.vfioBuffers) ∨
    ∃ virt iova size v, allocated pageSize env p h len = some (virt, iova) ∧
      vfioFpgaPrepareBuffer pageSize env p h len ptrs =
        ⟨.ok, { setDevice p h v with
          vfioBuffers := ⟨h, virt, iova, size, nextWsid p.vfioBuffers⟩ :: p.vfioBuffers },
          some (virt, nextWsid p.vfioBuffers)⟩ := by
  rw [vfioFpgaPrepareBuffer, allocated]
  cases ptrs with
  | false => exact .inl ⟨rfl, rfl⟩
  | true =>
    cases p.devices h with
    | none => exact .inl ⟨rfl, rfl⟩
    | some v =>
      by_cases hres :
          (opaeVfioBufferAllocate pageSize env.allocate v (some (prepareSize len))).res = 0
      · obtain ⟨n, a, virt, alloc, -, heq⟩ := allocate_ok hres
        cases hmem : env.mem with
        | false => simp [heq, setDevice]
        | true =>
          right
          dsimp only
          rw [heq]
          exact ⟨virt, a, n, _, rfl, rfl⟩
      · simp [hres, setDevice]

theorem release_cases (env : FreeEnv) (p : Plugin) (h : Nat) (wsid : UInt64) :
    if (p.devices h).isSome then
      ((vfioFpgaReleaseBuffer env p h wsid).1 = .ok ↔
        (p.vfioBuffers.find? fun b => b.wsid == wsid).isSome) ∧
      (vfioFpgaReleaseBuffer env p h wsid).2.vfioBuffers =
        p.vfioBuffers.eraseP fun b => b.wsid == wsid
    else (vfioFpgaReleaseBuffer env p h wsid).1 ≠ .ok ∧
      (vfioFpgaReleaseBuffer env p h wsid).2.vfioBuffers = p.vfioBuffers := by
  rw [vfioFpgaReleaseBuffer]
  cases p.devices h with
  | none => exact ⟨nofun, rfl⟩
  | some v =>
    cases hf : p.vfioBuffers.find? fun b => b.wsid == wsid with
    | none =>
      have herase : (p.vfioBuffers.eraseP fun b => b.wsid == wsid) = p.vfioBuffers := by
        rw [List.eraseP_eq_self_iff]
        intro b hb
        exact List.find?_eq_none.mp hf b hb
      simp [herase]
    | some ptr => simp

variable {pageSize : UInt64} {s : Session}

theorem Inv.live_iff (h : Inv s) (wsid : UInt64) :
    (s.live wsid).isSome ↔ (s.plugin.vfioBuffers.find? fun b => b.wsid == wsid).isSome := by
  rw [h.live_eq, Option.isSome_map]

theorem close_vfioBuffers (p : Plugin) (h : Nat) :
    (vfioFpgaClose p h).2.vfioBuffers = p.vfioBuffers := by
  rw [vfioFpgaClose]
  split <;> rfl

theorem Inv.of_vfioBuffers (h : Inv s) {plugin : Plugin}
    (hb : plugin.vfioBuffers = s.plugin.vfioBuffers) : Inv { s with plugin := plugin } where
  descending := by rw [hb]; exact h.descending
  bounded := by rw [hb]; exact h.bounded
  live_eq := by rw [hb]; exact h.live_eq

theorem Inv.prepared (h : Inv s) (hn : s.allocations < 2 ^ 64) {b : VfioBuffer}
    (hb : b.wsid = nextWsid s.plugin.vfioBuffers) (devices : Nat → Option OpaeVfio) :
    Inv ⟨⟨b :: s.plugin.vfioBuffers, devices⟩,
      Function.update s.live (nextWsid s.plugin.vfioBuffers) (some (b.virtual, b.iova)),
      s.allocations + 1⟩ := by
  have hlt := lt_nextWsid h.descending h.bounded hn
  have hle := (nextWsid_toNat h.bounded hn).1
  refine ⟨List.pairwise_cons.mpr ⟨fun c hc => hb ▸ hlt c hc, h.descending⟩, ?_, ?_⟩
  · rw [List.forall_mem_cons, hb]
    exact ⟨Nat.lt_succ_of_le hle, fun c hc => Nat.lt_succ_of_lt (h.bounded c hc)⟩
  · intro wsid
    dsimp only
    by_cases hw : wsid = nextWsid s.plugin.vfioBuffers
    · subst hw
      rw [Function.update_self, List.find?_cons_of_pos (by simpa using hb)]
      rfl
    · rw [Function.update_of_ne hw, h.live_eq,
        List.find?_cons_of_neg (by simpa [hb] using Ne.symm hw)]

theorem Inv.fresh (h : Inv s) (hn : s.allocations < 2 ^ 64) :
    s.live (nextWsid s.plugin.vfioBuffers) = none := by
  rw [h.live_eq, Option.map_eq_none_iff, List.find?_eq_none]
  intro b hb
  simpa using UInt64.ne_of_lt (lt_nextWsid h.descending h.bounded hn b hb)

theorem Inv.released (h : Inv s) (wsid : UInt64) (devices : Nat → Option OpaeVfio) :
    Inv { s with
      plugin := ⟨s.plugin.vfioBuffers.filter fun b => b.wsid ≠ wsid, devices⟩
      live := Function.update s.live wsid none } where
  descending := h.descending.sublist List.filter_sublist
  bounded := fun b hb => h.bounded b (List.mem_filter.mp hb).1
  live_eq := by
    intro w
    dsimp only
    rw [find?_filter_ne]
    by_cases hw : w = wsid
    · rw [hw, Function.update_self, if_pos rfl, Option.map_none]
    · rw [Function.update_of_ne hw, if_neg hw, h.live_eq]

theorem good_prepare (h : Inv s) (hn : s.allocations < 2 ^ 64) (env : PrepareEnv) (hd : Nat)
    (len : UInt64) (ptrs : Bool) :
    Keeps pageSize s (.prepare env hd len ptrs) ∧
      Inv (observe pageSize s (.prepare env hd len ptrs)) := by
  have hinv : Inv (observe pageSize s (.prepare env hd len ptrs)) ∧
      match (vfioFpgaPrepareBuffer pageSize env s.plugin hd len ptrs).out with
      | none => (step pageSize s.plugin (.prepare env hd len ptrs)).vfioBuffers =
          s.plugin.vfioBuffers
      | some (virt, wsid) => s.live wsid = none ∧
        ∃ b, (step pageSize s.plugin (.prepare env hd len ptrs)).vfioBuffers =
            b :: s.plugin.vfioBuffers ∧
          b.wsid = wsid ∧ allocated pageSize env s.plugin hd len = some (virt, b.iova) := by
    obtain ⟨hout, hsame⟩ | ⟨virt, iova, size, v, halloc, heq⟩ :=
      prepare_cases pageSize env s.plugin hd len ptrs
    · rw [observe, hout]
      exact ⟨h.of_vfioBuffers hsame, hsame⟩
    · rw [observe, step, heq, halloc]
      exact ⟨h.prepared hn (b := ⟨hd, virt, iova, size, _⟩) rfl _, h.fresh hn, _, rfl, rfl, rfl⟩
  refine ⟨⟨hinv.1.descending, ?_, (fun _ _ _ h => by cases h), fun _ h => by cases h⟩, hinv.1⟩
  rintro _ _ _ _ ⟨⟩
  exact hinv.2

theorem good_release (h : Inv s) (env : FreeEnv) (hd : Nat) (wsid : UInt64) :
    Keeps pageSize s (.release env hd wsid) ∧ Inv (observe pageSize s (.release env hd wsid)) := by
  have hcases := release_cases env s.plugin hd wsid
  have hinv : Inv (observe pageSize s (.release env hd wsid)) := by
    rw [observe, step]
    split at hcases
    case isTrue =>
      obtain ⟨hok, hbuf⟩ := hcases
      rw [h.descending.eraseP_eq] at hbuf
      split
      case isTrue =>
        have hrel := h.released wsid (vfioFpgaReleaseBuffer env s.plugin hd wsid).2.devices
        rw [← hbuf] at hrel
        exact hrel
      case isFalse hres =>
        rw [hok, List.find?_isSome] at hres
        apply h.of_vfioBuffers
        rw [hbuf, List.filter_eq_self]
        intro b hb
        simpa using fun he => hres ⟨b, hb, by simpa using he⟩
    case isFalse =>
      rw [if_neg hcases.1]
      exact h.of_vfioBuffers hcases.2
  refine ⟨⟨hinv.descending, (fun _ _ _ _ h => by cases h), ?_, fun _ h => by cases h⟩, hinv⟩
  rintro _ _ _ ⟨⟩
  rwa [h.live_iff, ← h.descending.eraseP_eq]

theorem good_step (h : Inv s) (hn : s.allocations < 2 ^ 64) (call : Call) :
    Keeps pageSize s call ∧ Inv (observe pageSize s call) := by
  cases call with
  | prepare env hd len ptrs => exact good_prepare h hn env hd len ptrs
  | release env hd wsid => exact good_release h env hd wsid
  | getIOAddress wsid =>
    refine ⟨⟨h.descending, nofun, nofun, ?_⟩, h⟩
    rintro _ ⟨⟩
    rw [vfioFpgaGetIOAddress, h.live_eq]
    cases s.plugin.vfioBuffers.find? fun b => b.wsid == wsid <;> rfl
  | close hd =>
    have hinv : Inv (observe pageSize s (.close hd)) := h.of_vfioBuffers (close_vfioBuffers _ hd)
    exact ⟨⟨hinv.descending, nofun, nofun, nofun⟩, hinv⟩

theorem le_allocations (pageSize : UInt64) (s : Session) (call : Call) :
    s.allocations ≤ (observe pageSize s call).allocations := by
  cases call with
  | prepare env hd len ptrs =>
    rw [observe]
    split
    · exact Nat.le_refl _
    · exact Nat.le_succ _
  | release env hd wsid =>
    rw [observe]
    split <;> exact Nat.le_refl _
  | getIOAddress wsid => exact Nat.le_refl _
  | close hd => exact Nat.le_refl _

theorem le_run_allocations (pageSize : UInt64) (s : Session) (calls : List Call) :
    s.allocations ≤ (run (observe pageSize) s calls).allocations := by
  induction calls generalizing s with
  | nil => exact Nat.le_refl _
  | cons call calls ih => exact Nat.le_trans (le_allocations pageSize s call) (ih _)

theorem along_bounded {calls : List Call} {n : Nat}
    (h : (run (observe pageSize) s calls).allocations < n) :
    Along (observe pageSize) (fun s _ => s.allocations < n) s calls := by
  induction calls generalizing s with
  | nil => trivial
  | cons call calls ih =>
    exact ⟨Nat.lt_of_le_of_lt (le_run_allocations pageSize s (call :: calls)) h, ih h⟩

def opened (devices : Nat → Option OpaeVfio) : Session := ⟨⟨[], devices⟩, fun _ => none, 0⟩

theorem inv_opened (devices : Nat → Option OpaeVfio) : Inv (opened devices) :=
  ⟨.nil, nofun, fun _ => rfl⟩

theorem wsids_name_buffers (pageSize : UInt64) (devices : Nat → Option OpaeVfio)
    (calls : List Call)
    (h : (run (observe pageSize) (opened devices) calls).allocations < 2 ^ 64) :
    Along (observe pageSize) (Keeps pageSize) (opened devices) calls :=
  along_of_invariant (fun _ call hi hn => (good_step hi hn call).2)
    (fun _ call hi hn => (good_step hi hn call).1) (inv_opened devices) (along_bounded h)

def oneDevice (h : Nat) : Option OpaeVfio :=
  if h = 1 then some ⟨[], ⟨[⟨0x100000, 0x100000⟩], []⟩, []⟩ else none

def preparePage (addr : UInt64) (h : Nat) : Call :=
  .prepare ⟨⟨true, true, fun _ => some addr, true, true⟩, true, ⟨true, true⟩⟩ h 4096 true

/-- The second buffer gets id 1, and so does the one after it is released. -/
def sampleCalls : List Call :=
  [preparePage 0x7000 1, preparePage 0x9000 1, .getIOAddress 1, .release ⟨true, true⟩ 1 1,
    preparePage 0xb000 1, .getIOAddress 1]

theorem wsids_name_buffers_sample :
    (run (observe 4096) (opened oneDevice) sampleCalls).allocations = 3 ∧
      Along (observe 4096) (Keeps 4096) (opened oneDevice) sampleCalls := by
  have hrun : (run (observe 4096) (opened oneDevice) sampleCalls).allocations = 3 := by decide
  exact ⟨hrun, wsids_name_buffers 4096 oneDevice sampleCalls (hrun ▸ by decide)⟩

end OpaeLibs.PluginVfio.BufferIds
