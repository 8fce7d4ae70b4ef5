import OpaeLibs.Lib.Chains
import OpaeLibs.Lib.Runs

namespace OpaeLibs.PluginXfpga.WsidList

open OpaeLibs.Lib.Chains OpaeLibs.Lib.Runs

structure WsidMap where
  wsid : UInt64
  addr : UInt64
  phys : UInt64
  len : UInt64
  offset : UInt64
  index : UInt32
  flags : Int32
deriving DecidableEq, Repr

structure WsidTracker where
  nHashBuckets : UInt64
  table : List (List WsidMap)
deriving DecidableEq, Repr

/-- `mem` says which of the two allocations succeed. -/
def wsidTrackerInit (mem : Bool × Bool) (nHashBuckets : UInt32) : Option WsidTracker :=
  if nHashBuckets = 0 ∨ nHashBuckets > 16384 then none
  else if mem.1 && mem.2 then
    some ⟨nHashBuckets.toUInt64, List.replicate nHashBuckets.toNat []⟩
  else none

def wsidHash (root : WsidTracker) (wsid : UInt64) : UInt32 :=
  let h := wsid % 17659
  (h % root.nHashBuckets).toUInt32

/-- `root->table[idx]`. -/
def bucket (root : WsidTracker) (idx : UInt32) : List WsidMap := chain root.table idx.toNat

def setBucket (root : WsidTracker) (idx : UInt32) (maps : List WsidMap) : WsidTracker :=
  { root with table := root.table.set idx.toNat maps }

def wsidAdd (mem : Bool) (root : WsidTracker) (wsid addr phys len offset index : UInt64)
    (flags : Int32) : Bool × WsidTracker :=
  let idx := wsidHash root wsid
  if mem then
    (true, setBucket root idx
      (⟨wsid, addr, phys, len, offset, index.toUInt32, flags⟩ :: bucket root idx))
  else (false, root)

/-- The loop of `wsid_del` over what follows an entry, and the removal of the entry it stops
before. -/
def unlinkNext (wsid : UInt64) : List WsidMap → Bool × List WsidMap
  | [] => (false, [])
  | next :: rest =>
    if next.wsid = wsid then (true, rest)
    else
      let (found, rest) := unlinkNext wsid rest
      (found, next :: rest)

def wsidDel (root : WsidTracker) (wsid : UInt64) : Bool × WsidTracker :=
  let idx := wsidHash root wsid
  match bucket root idx with
  | [] => (false, root)
  | tmp :: rest =>
    if tmp.wsid = wsid then (true, setBucket root idx rest)
    else
      let (found, rest) := unlinkNext wsid rest
      (found, setBucket root idx (tmp :: rest))

/-- `clean` is applied to every entry before it is freed. -/
def wsidTrackerCleanup {σ : Type*} (clean : σ → WsidMap → σ) (root : WsidTracker) (s : σ) : σ :=
  root.table.foldl (fun s maps => maps.foldl clean s) s

def wsidFind (root : WsidTracker) (wsid : UInt64) : Option WsidMap :=
  (bucket root (wsidHash root wsid)).find? fun tmp => tmp.wsid == wsid

def wsidFindByIndex (root : WsidTracker) (index : UInt32) : Option WsidMap :=
  root.table.findSome? fun maps => maps.find? fun tmp => tmp.index == index

section Refinement

/-- The bucket of a workspace id, as a number. -/
def slot (root : WsidTracker) (wsid : UInt64) : Nat := (wsidHash root wsid).toNat

def Valid (root : WsidTracker) : Prop := Filed WsidMap.wsid (slot root) root.table

/-- The live entries of each workspace id, the last one added first. -/
def wsidStacks (root : WsidTracker) : UInt64 → List WsidMap :=
  stack WsidMap.wsid (slot root) root.table

theorem hash_lt {n : UInt32} (hpos : 0 < n) (wsid : UInt64) :
    ((wsid % 17659 % n.toUInt64).toUInt32).toNat < n.toNat := by
  rw [UInt64.toNat_toUInt32]
  apply Nat.lt_of_le_of_lt (Nat.mod_le _ _)
  rw [UInt64.toNat_mod, UInt32.toNat_toUInt64]
  exact Nat.mod_lt _ (UInt32.lt_iff_toNat_lt.mp hpos)

theorem wsidTrackerInit_spec {n : UInt32} (hpos : 0 < n) (hmax : n ≤ 16384) :
    ∃ root, wsidTrackerInit (true, true) n = some root ∧ Valid root ∧
      wsidStacks root = fun _ => [] := by
  have hbound : ¬ (n = 0 ∨ n > 16384) := by
    rintro (rfl | hgt)
    · exact absurd hpos (by decide)
    · exact absurd hmax (UInt32.not_le.mpr hgt)
  refine ⟨⟨n.toUInt64, List.replicate n.toNat []⟩, ?_, filed_empty (hash_lt hpos), ?_⟩
  · rw [wsidTrackerInit, if_neg hbound]
    rfl
  · funext wsid
    rw [wsidStacks, stack, chain, List.getElem?_replicate]
    split <;> rfl

theorem unlinkNext_eq (wsid : UInt64) (maps : List WsidMap) :
    unlinkNext wsid maps =
      (maps.any fun e => e.wsid = wsid, maps.eraseP fun e => e.wsid = wsid) := by
  induction maps with
  | nil => rfl
  | cons next rest ih =>
    rw [unlinkNext]
    by_cases h : next.wsid = wsid
    · simp [h]
    · rw [if_neg h, ih]
      simp [h]

theorem any_eq_true_iff (wsid : UInt64) (root : WsidTracker) :
    (bucket root (wsidHash root wsid)).any (fun e => e.wsid = wsid) = true ↔
      wsidStacks root wsid ≠ [] := by
  rw [wsidStacks, stack, Ne, List.filter_eq_nil_iff, List.any_eq_true, not_forall]
  simp [bucket, slot]

theorem wsidDel_eq (root : WsidTracker) (wsid : UInt64) :
    wsidDel root wsid =
      ((bucket root (wsidHash root wsid)).any fun e => e.wsid = wsid,
        { root with table := pop WsidMap.wsid (slot root) wsid root.table }) := by
  have hbucket : chain root.table (slot root wsid) = bucket root (wsidHash root wsid) := rfl
  rw [wsidDel, pop, hbucket]
  cases hb : bucket root (wsidHash root wsid) with
  | nil =>
    have hset := set_chain root.table (slot root wsid)
    rw [hbucket, hb] at hset
    simp [hset]
  | cons tmp rest =>
    dsimp only
    rw [unlinkNext_eq]
    by_cases ht : tmp.wsid = wsid
    · rw [if_pos ht, List.eraseP_cons_of_pos (by simpa using ht), List.any_cons]
      simp [ht, setBucket, slot]
    · rw [if_neg ht, List.eraseP_cons_of_neg (by simpa using ht), List.any_cons]
      simp [ht, setBucket, slot]

theorem wsidAdd_eq (root : WsidTracker) (wsid addr phys len offset index : UInt64)
    (flags : Int32) :
    wsidAdd true root wsid addr phys len offset index flags =
      (true, { root with
        table := push WsidMap.wsid (slot root)
          ⟨wsid, addr, phys, len, offset, index.toUInt32, flags⟩ root.table }) := rfl

variable {root : WsidTracker}

theorem wsidAdd_spec (h : Valid root) (wsid addr phys len offset index : UInt64) (flags : Int32) :
    Valid (wsidAdd true root wsid addr phys len offset index flags).2 ∧
      wsidStacks (wsidAdd true root wsid addr phys len offset index flags).2 =
        Function.update (wsidStacks root) wsid
          (⟨wsid, addr, phys, len, offset, index.toUInt32, flags⟩ :: wsidStacks root wsid) := by
  rw [wsidAdd_eq]
  exact ⟨Filed.push h _, Filed.stack_push h _⟩

theorem wsidDel_spec (h : Valid root) (wsid : UInt64) :
    ((wsidDel root wsid).1 = true ↔ wsidStacks root wsid ≠ []) ∧ Valid (wsidDel root wsid).2 ∧
      wsidStacks (wsidDel root wsid).2 =
        Function.update (wsidStacks root) wsid (wsidStacks root wsid).tail := by
  rw [wsidDel_eq]
  exact ⟨any_eq_true_iff wsid root, Filed.pop h wsid, Filed.stack_pop h wsid⟩

theorem wsidFind_eq (wsid : UInt64) : wsidFind root wsid = (wsidStacks root wsid).head? := by
  rw [wsidStacks, stack, List.head?_filter]
  rfl

theorem wsidFindByIndex_eq (index : UInt32) :
    wsidFindByIndex root index = root.table.flatten.find? fun e => e.index == index := by
  rw [List.find?_flatten]
  rfl

theorem wsidTrackerCleanup_eq {σ : Type*} (clean : σ → WsidMap → σ) (s : σ) :
    wsidTrackerCleanup clean root s = root.table.flatten.foldl clean s := by
  rw [List.foldl_flatten]
  rfl

/-- Every live entry. -/
def records (root : WsidTracker) : List WsidMap := root.table.flatten

theorem wsidFindByIndex_eq_none {index : UInt32} :
    wsidFindByIndex root index = none ↔ ∀ e ∈ records root, e.index ≠ index := by
  rw [wsidFindByIndex_eq, List.find?_eq_none]
  simp [records]

theorem mem_of_wsidFindByIndex {index : UInt32} {e : WsidMap}
    (hf : wsidFindByIndex root index = some e) : e ∈ records root ∧ e.index = index := by
  rw [wsidFindByIndex_eq] at hf
  exact ⟨List.mem_of_find?_eq_some hf, by simpa using List.find?_some hf⟩

theorem wsidFindByIndex_of_unique {index : UInt32} {e : WsidMap} (he : e ∈ records root)
    (hi : e.index = index) (hu : ∀ e' ∈ records root, e'.index = index → e' = e) :
    wsidFindByIndex root index = some e := by
  cases hf : wsidFindByIndex root index with
  | none => exact absurd hi (wsidFindByIndex_eq_none.mp hf e he)
  | some e' =>
    obtain ⟨he', hi'⟩ := mem_of_wsidFindByIndex hf
    rw [hu e' he' hi']

theorem wsidAdd_records (h : Valid root) (wsid addr phys len offset index : UInt64)
    (flags : Int32) :
    (records (wsidAdd true root wsid addr phys len offset index flags).2).Perm
      (⟨wsid, addr, phys, len, offset, index.toUInt32, flags⟩ :: records root) := by
  rw [wsidAdd_eq]
  exact Filed.perm_push h _

theorem exists_wsidFind (h : Valid root) {e : WsidMap} (he : e ∈ records root) :
    ∃ wm, wsidFind root e.wsid = some wm := by
  have hmem : e ∈ wsidStacks root e.wsid := (Filed.mem_flatten h e).mp he
  rw [wsidFind_eq]
  cases hs : wsidStacks root e.wsid with
  | nil => exact absurd (hs ▸ hmem) List.not_mem_nil
  | cons wm rest => exact ⟨wm, rfl⟩

theorem wsidDel_records (h : Valid root) {wsid : UInt64} {wm : WsidMap}
    (hf : wsidFind root wsid = some wm) :
    (records root).Perm (wm :: records (wsidDel root wsid).2) := by
  rw [wsidFind_eq] at hf
  rw [wsidDel_eq]
  exact Filed.perm_pop h hf

theorem mem_flatten_iff (h : Valid root) (e : WsidMap) :
    e ∈ root.table.flatten ↔ e ∈ wsidStacks root e.wsid := Filed.mem_flatten h e

theorem wsidFindByIndex_spec (h : Valid root) (index : UInt32) :
    (∀ e, wsidFindByIndex root index = some e → e.index = index ∧ e ∈ wsidStacks root e.wsid) ∧
      ((wsidFindByIndex root index).isSome ↔
        ∃ wsid, ∃ e ∈ wsidStacks root wsid, e.index = index) := by
  rw [wsidFindByIndex_eq]
  constructor
  · intro e he
    refine ⟨by simpa using List.find?_some he, ?_⟩
    exact (mem_flatten_iff h e).mp (List.mem_of_find?_eq_some he)
  · rw [List.find?_isSome]
    constructor
    · rintro ⟨e, he, hi⟩
      exact ⟨e.wsid, e, (mem_flatten_iff h e).mp he, by simpa using hi⟩
    · rintro ⟨wsid, e, he, hi⟩
      have hw : e.wsid = wsid := by simpa using (List.mem_filter.mp he).2
      subst hw
      exact ⟨e, (mem_flatten_iff h e).mpr he, by simpa using hi⟩

/-- What the cleanup goes through: every live entry once. -/
theorem wsidTrackerCleanup_spec (h : Valid root) :
    ∃ visits : List WsidMap,
      (∀ wsid, visits.filter (fun e => e.wsid = wsid) = wsidStacks root wsid) ∧
      ∀ {σ : Type} (clean : σ → WsidMap → σ) (s : σ),
        wsidTrackerCleanup clean root s = visits.foldl clean s :=
  ⟨root.table.flatten, fun wsid => Filed.filter_flatten h wsid, wsidTrackerCleanup_eq⟩

end Refinement

section Runs

inductive Call where
  | add (mem : Bool) (wsid addr phys len offset index : UInt64) (flags : Int32)
  | del (wsid : UInt64)
  | find (wsid : UInt64)
  | findByIndex (index : UInt32)

def callTracker (root : WsidTracker) : Call → WsidTracker
  | .add mem wsid addr phys len offset index flags =>
    (wsidAdd mem root wsid addr phys len offset index flags).2
  | .del wsid => (wsidDel root wsid).2
  | .find _ => root
  | .findByIndex _ => root

/-- The tracker as a map from workspace ids to stacks of entries. -/
def callStacks (s : UInt64 → List WsidMap) : Call → UInt64 → List WsidMap
  | .add mem wsid addr phys len offset index flags =>
    if mem then
      Function.update s wsid (⟨wsid, addr, phys, len, offset, index.toUInt32, flags⟩ :: s wsid)
    else s
  | .del wsid => Function.update s wsid (s wsid).tail
  | .find _ => s
  | .findByIndex _ => s

structure Both where
  root : WsidTracker
  wsidStacks : UInt64 → List WsidMap

def step (b : Both) (call : Call) : Both := ⟨callTracker b.root call, callStacks b.wsidStacks call⟩

/-- The result of a call is the one the stacks give. -/
def Agrees (b : Both) : Call → Prop
  | .add mem wsid addr phys len offset index flags =>
    (wsidAdd mem b.root wsid addr phys len offset index flags).1 = mem
  | .del wsid => (wsidDel b.root wsid).1 = true ↔ b.wsidStacks wsid ≠ []
  | .find wsid => wsidFind b.root wsid = (b.wsidStacks wsid).head?
  | .findByIndex index =>
    (∀ e, wsidFindByIndex b.root index = some e → e.index = index ∧ e ∈ b.wsidStacks e.wsid) ∧
      ((wsidFindByIndex b.root index).isSome ↔ ∃ wsid, ∃ e ∈ b.wsidStacks wsid, e.index = index)

structure Related (b : Both) : Prop where
  valid : Valid b.root
  wsidStacks_eq : wsidStacks b.root = b.wsidStacks

theorem agrees_of_related (b : Both) (call : Call) (h : Related b) : Agrees b call := by
  obtain ⟨root, s⟩ := b
  obtain ⟨hvalid, hstacks⟩ := h
  change wsidStacks root = s at hstacks
  subst hstacks
  cases call with
  | add mem wsid addr phys len offset index flags => cases mem <;> rfl
  | del wsid => exact (wsidDel_spec hvalid wsid).1
  | find wsid => exact wsidFind_eq wsid
  | findByIndex index => exact wsidFindByIndex_spec hvalid index

theorem related_step (b : Both) (call : Call) (h : Related b) : Related (step b call) := by
  obtain ⟨root, s⟩ := b
  obtain ⟨hvalid, hstacks⟩ := h
  change wsidStacks root = s at hstacks
  subst hstacks
  cases call with
  | add mem wsid addr phys len offset index flags =>
    cases mem with
    | false => exact ⟨hvalid, rfl⟩
    | true =>
      obtain ⟨hv, hs⟩ := wsidAdd_spec hvalid wsid addr phys len offset index flags
      exact ⟨hv, hs⟩
  | del wsid =>
    obtain ⟨-, hv, hs⟩ := wsidDel_spec hvalid wsid
    exact ⟨hv, hs⟩
  | find wsid => exact ⟨hvalid, rfl⟩
  | findByIndex index => exact ⟨hvalid, rfl⟩

/-- Every history of calls gives the results of a map to stacks, and the cleanup after it goes
through what is left on the stacks. -/
theorem wsidTracker_refines_stacks {n : UInt32} (hpos : 0 < n) (hmax : n ≤ 16384)
    (calls : List Call) :
    ∃ root, wsidTrackerInit (true, true) n = some root ∧
      Along step Agrees ⟨root, fun _ => []⟩ calls ∧
      ∃ visits : List WsidMap,
        (∀ wsid, visits.filter (fun e => e.wsid = wsid) =
          (run step ⟨root, fun _ => []⟩ calls).wsidStacks wsid) ∧
        ∀ {σ : Type} (clean : σ → WsidMap → σ) (s : σ),
          wsidTrackerCleanup clean (run step ⟨root, fun _ => []⟩ calls).root s =
            visits.foldl clean s := by
  obtain ⟨root, hinit, hvalid, hempty⟩ := wsidTrackerInit_spec hpos hmax
  have hstart : Related ⟨root, fun _ => []⟩ := ⟨hvalid, hempty⟩
  have hstep : ∀ b call, Related b → True → Related (step b call) :=
    fun b call h _ => related_step b call h
  have hfree : Along step (fun _ _ => True) ⟨root, fun _ => []⟩ calls :=
    along_of_forall step (fun _ _ _ => trivial) _
  have hend := run_invariant hstep hstart hfree
  refine ⟨root, hinit, along_of_invariant hstep (fun b call h _ => agrees_of_related b call h)
    hstart hfree, ?_⟩
  rw [← hend.wsidStacks_eq]
  exact wsidTrackerCleanup_spec hend.valid

/-- Workspace ids 7 and 10 share a bucket of three. -/
def sampleCalls : List Call :=
  [.add true 7 0x1000 0x2000 4096 0 0 0, .add true 10 0x3000 0x4000 4096 0 1 0,
    .add true 7 0x5000 0x6000 4096 0 2 0, .findByIndex 1, .del 7, .find 7]

theorem wsidTracker_refines_stacks_sample :
    ∃ root, wsidTrackerInit (true, true) 3 = some root ∧
      Along step Agrees ⟨root, fun _ => []⟩ sampleCalls ∧
      ∃ visits : List WsidMap,
        (∀ wsid, visits.filter (fun e => e.wsid = wsid) =
          (run step ⟨root, fun _ => []⟩ sampleCalls).wsidStacks wsid) ∧
        ∀ {σ : Type} (clean : σ → WsidMap → σ) (s : σ),
          wsidTrackerCleanup clean (run step ⟨root, fun _ => []⟩ sampleCalls).root s =
            visits.foldl clean s :=
  wsidTracker_refines_stacks (by decide) (by decide) sampleCalls

end Runs

end OpaeLibs.PluginXfpga.WsidList
