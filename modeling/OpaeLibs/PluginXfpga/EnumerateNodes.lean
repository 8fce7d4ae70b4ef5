import OpaeLibs.PluginXfpga.Enumerate

namespace OpaeLibs.PluginXfpga.EnumerateNodes

open OpaeLibs.OpaeC.Props OpaeLibs.PluginXfpga.Properties OpaeLibs.PluginXfpga.Enumerate

section Abstract

variable {π δ : Type}

def nodeOf (d : SysfsFpgaDevice π δ) (r : SysfsFpgaRegion π δ) (objtype : FpgaObjtype) :
    DevList π δ :=
  { (cleared : DevList π δ) with
    sysfspath := some r.sysfsPath
    devpath := some r.devPath
    objtype := objtype
    segment := d.segment.toUInt16
    bus := d.bus
    device := d.device
    function := d.function
    vendorId := d.vendorId.toUInt16
    deviceId := d.deviceId.toUInt16 }

variable (env : EnumEnv π δ)

def fmeAttrs (d : SysfsFpgaDevice π δ) : Option (DevList π δ) :=
  d.fme.bind fun r =>
    if isPresent env (nodeOf d r .device) then some (syncedFme env (nodeOf d r .device)) else none

/-- The socket id of a port is that of the management engine of its own device. -/
def portSocketId (d : SysfsFpgaDevice π δ) : UInt8 := (fmeAttrs env d).elim 0 DevList.socketId

def portAttrs (d : SysfsFpgaDevice π δ) : Option (DevList π δ) :=
  d.port.bind fun r =>
    if isPresent env (nodeOf d r .accelerator) then
      some (syncedAfu env
        { nodeOf d r .accelerator with socketId := portSocketId env d })
    else none

def attrs (includePort : Bool) (d : SysfsFpgaDevice π δ) : List (DevList π δ) :=
  (fmeAttrs env d).toList ++ if includePort then (portAttrs env d).toList else []

/-- What comes after some of the nodes have been looked at. -/
def resume (found : Option (Found π δ)) (next : Found π δ → FpgaResult × Found π δ) :
    FpgaResult × Found π δ :=
  match found with
  | none => (.noMemory, ⟨[], 0⟩)
  | some found => next found

theorem resume_bind (found : Option (Found π δ)) (f : Found π δ → Option (Found π δ))
    (next : Found π δ → FpgaResult × Found π δ) :
    resume (found >>= f) next = resume found fun acc => resume (f acc) next := by
  cases found <;> rfl

end Abstract

section Building

variable {π δ : Type}

/-- The list ends in its last node, and the addresses are in use. -/
structure Wf (s : Nodes π δ) : Prop where
  nodup : s.order.Nodup
  lt : ∀ i ∈ s.order, i < s.count
  ends : ∃ front, s.order = front ++ [last s]

theorem insertAfter_last {l : List Nat} {a x : Nat} (h : a ∉ l) :
    insertAfter a x (l ++ [a]) = l ++ [a, x] := by
  induction l with
  | nil =>
    rw [List.nil_append, insertAfter, if_pos rfl]
    rfl
  | cons b l ih =>
    obtain ⟨hb, hl⟩ := List.ne_and_not_mem_of_not_mem_cons h
    rw [List.cons_append, insertAfter, if_neg hb.symm, ih hl]
    rfl

theorem Wf.append {s s' : Nodes π δ} (hw : Wf s) (horder : s'.order = s.order ++ [s.count])
    (hcount : s'.count = s.count + 1) : Wf s' ∧ last s' = s.count := by
  have hlast : last s' = s.count := by
    rw [last, horder]
    exact List.getLastD_concat
  refine ⟨⟨?_, fun i hi => ?_, s.order, by rw [hlast, horder]⟩, hlast⟩
  · rw [horder, List.nodup_append]
    refine ⟨hw.nodup, List.pairwise_singleton _ _, fun i hi j hj => ?_⟩
    rw [List.mem_singleton.mp hj]
    exact Nat.ne_of_lt (hw.lt i hi)
  · rw [horder, List.mem_append, List.mem_singleton] at hi
    rw [hcount]
    rcases hi with hi | rfl
    · exact Nat.lt_succ_of_lt (hw.lt i hi)
    · exact Nat.lt_succ_self _

theorem Wf.order_addDev {s : Nodes π δ} (hw : Wf s) (sysfspath : π) (devpath : Option δ) :
    (addDev sysfspath devpath (last s) s).2.order = s.order ++ [s.count] := by
  obtain ⟨front, hfront⟩ := hw.ends
  have hnotin : last s ∉ front := by
    have hnodup := hw.nodup
    rw [hfront, List.nodup_append] at hnodup
    exact fun h => hnodup.2.2 _ h _ (List.mem_singleton_self _) rfl
  have h := insertAfter_last (x := s.count) hnotin
  rw [addDev]
  dsimp only
  rw [hfront, h, List.append_assoc]
  rfl

theorem Wf.last_lt {s : Nodes π δ} (hw : Wf s) : last s < s.count := by
  obtain ⟨front, hfront⟩ := hw.ends
  exact hw.lt _ (hfront ▸ List.mem_append_right _ (List.mem_singleton_self _))

/-- The addresses of what a device adds to the list. -/
structure Block where
  container : Nat
  fme : Option Nat
  port : Option Nat

def Block.ids (b : Block) : List Nat := b.container :: (b.fme.toList ++ b.port.toList)

/-- The nodes of a device. -/
structure IsBlock (includePort : Bool) (nodeAt : Nat → DevList π δ) (d : SysfsFpgaDevice π δ)
    (b : Block) : Prop where
  container : (nodeAt b.container).devpath = none
  fme : Option.Rel (fun r i => nodeAt i =
    { nodeOf d r .device with parent := b.container, fme := some i }) d.fme b.fme
  port : Option.Rel (fun r i => ∃ parent, nodeAt i =
    { nodeOf d r .accelerator with parent := parent, fme := b.fme })
    (if includePort then d.port else none) b.port

/-- The nodes that are there stay, and a new one is linked in at the end. -/
structure Adds (s s' : Nodes π δ) (ids : List Nat) : Prop where
  order : s'.order = s.order ++ ids
  wf : Wf s'
  count : s.count ≤ s'.count
  fresh : ∀ i ∈ ids, s.count ≤ i
  same : ∀ i < s.count, s'.nodeAt i = s.nodeAt i

theorem Adds.trans {s₁ s₂ s₃ : Nodes π δ} {ids ids' : List Nat} (h : Adds s₁ s₂ ids)
    (h' : Adds s₂ s₃ ids') : Adds s₁ s₃ (ids ++ ids') := by
  refine ⟨?_, h'.wf, Nat.le_trans h.count h'.count, fun i hi => ?_, fun i hi => ?_⟩
  · rw [h'.order, h.order, List.append_assoc]
  · rcases List.mem_append.mp hi with hi | hi
    · exact h.fresh i hi
    · exact Nat.le_trans h.count (h'.fresh i hi)
  · rw [h'.same i (Nat.lt_of_lt_of_le hi h.count), h.same i hi]

def containerOf (d : SysfsFpgaDevice π δ) (parent : Nat) : DevList π δ :=
  { (cleared : DevList π δ) with
    sysfspath := some d.sysfsPath
    parent := parent
    function := d.function
    segment := d.segment.toUInt16
    bus := d.bus
    device := d.device
    deviceId := d.deviceId.toUInt16
    vendorId := d.vendorId.toUInt16 }

structure OfDevice (d : SysfsFpgaDevice π δ) (n : DevList π δ) : Prop where
  segment : n.segment = d.segment.toUInt16
  bus : n.bus = d.bus
  device : n.device = d.device
  function : n.function = d.function
  vendorId : n.vendorId = d.vendorId.toUInt16
  deviceId : n.deviceId = d.deviceId.toUInt16

theorem inherit_ofDevice {d : SysfsFpgaDevice π δ} {n : DevList π δ} (h : OfDevice d n)
    (m : DevList π δ) : inherit n m = inherit (containerOf d 0) m := by
  simp only [inherit, containerOf, h.segment, h.bus, h.device, h.function, h.vendorId, h.deviceId]

variable {s : Nodes π δ}

theorem addContainer_spec (hw : Wf s) (d : SysfsFpgaDevice π δ) :
    (addContainer d s).1 = s.count ∧ Adds s (addContainer d s).2 [s.count] ∧
      last (addContainer d s).2 = s.count ∧ (addContainer d s).2.count = s.count + 1 ∧
      (addContainer d s).2.nodeAt s.count = containerOf d (last s) := by
  have horder : (addContainer d s).2.order = s.order ++ [s.count] :=
    hw.order_addDev d.sysfsPath none
  obtain ⟨hwf, hlast⟩ := hw.append horder rfl
  refine ⟨rfl, ⟨horder, hwf, Nat.le_succ _, fun i hi => ?_, fun i hi => ?_⟩, hlast, rfl, ?_⟩
  · exact Nat.le_of_eq (List.mem_singleton.mp hi).symm
  · have hne : i ≠ s.count := Nat.ne_of_lt hi
    simp [addContainer, addDev, Nodes.set, hne]
  · simp only [addContainer, addDev, Nodes.set, Function.update_self]
    rfl

theorem enumFme_spec (hw : Wf s) {d : SysfsFpgaDevice π δ} {parent : Nat}
    (hdev : s.nodeAt (last s) = containerOf d parent) (r : SysfsFpgaRegion π δ) :
    (enumFme r (last s) s).order = s.order ++ [s.count] ∧
      (enumFme r (last s) s).count = s.count + 1 ∧
      (enumFme r (last s) s).nodeAt (last s) =
        { containerOf d parent with fme := some s.count } ∧
      (enumFme r (last s) s).nodeAt s.count =
        { nodeOf d r .device with parent := last s, fme := some s.count } ∧
      ∀ i, i ≠ last s → i ≠ s.count → (enumFme r (last s) s).nodeAt i = s.nodeAt i := by
  have hne : last s ≠ s.count := Nat.ne_of_lt hw.last_lt
  refine ⟨hw.order_addDev r.sysfsPath (some r.devPath), rfl, ?_, ?_, fun i hl hc => ?_⟩
  · simp [enumFme, addDev, Nodes.set, hne, hdev]
  · simp [enumFme, addDev, Nodes.set, hne, hne.symm, hdev, inherit, nodeOf, containerOf]
  · simp [enumFme, addDev, Nodes.set, hl, hc]

theorem enumAfu_spec (hw : Wf s) {d : SysfsFpgaDevice π δ}
    (hdev : OfDevice d (s.nodeAt (last s))) (r : SysfsFpgaRegion π δ) :
    (enumAfu r (last s) s).order = s.order ++ [s.count] ∧
      (enumAfu r (last s) s).count = s.count + 1 ∧
      (enumAfu r (last s) s).nodeAt s.count =
        { nodeOf d r .accelerator with parent := last s, fme := (s.nodeAt (last s)).fme } ∧
      ∀ i, i ≠ s.count → (enumAfu r (last s) s).nodeAt i = s.nodeAt i := by
  have hne : last s ≠ s.count := Nat.ne_of_lt hw.last_lt
  refine ⟨hw.order_addDev r.sysfsPath (some r.devPath), rfl, ?_, fun i hc => ?_⟩
  · simp only [enumAfu, addDev, Nodes.set, Function.update_self, Function.update_of_ne hne,
      inherit_ofDevice hdev]
    rfl
  · simp [enumAfu, addDev, Nodes.set, hc]

theorem Adds.refl (hw : Wf s) : Adds s s [] :=
  ⟨(List.append_nil _).symm, hw, Nat.le_refl _, fun _ hi => absurd hi List.not_mem_nil,
    fun _ _ => rfl⟩

theorem Adds.single (hw : Wf s) {s' : Nodes π δ} (horder : s'.order = s.order ++ [s.count])
    (hcount : s'.count = s.count + 1) (hold : ∀ i < s.count, s'.nodeAt i = s.nodeAt i) :
    Adds s s' [s.count] :=
  ⟨horder, (hw.append horder hcount).1, hcount ▸ Nat.le_succ _,
    fun _ hi => Nat.le_of_eq (List.mem_singleton.mp hi).symm, hold⟩

theorem addPort_spec (hw : Wf s) {d : SysfsFpgaDevice π δ}
    (hdev : OfDevice d (s.nodeAt (last s))) (includePort : Bool) :
    ∃ port : Option Nat, Adds s (addPort includePort d s) port.toList ∧
      Option.Rel (fun r i => ∃ parent, (addPort includePort d s).nodeAt i =
        { nodeOf d r .accelerator with parent := parent, fme := (s.nodeAt (last s)).fme })
        (if includePort then d.port else none) port := by
  rw [addPort]
  cases d.port with
  | none =>
    refine ⟨none, .refl hw, ?_⟩
    rw [ite_self]
    exact .none
  | some r =>
    cases includePort with
    | false => exact ⟨none, .refl hw, .none⟩
    | true =>
      obtain ⟨horder, hcount, hnew, hold⟩ := enumAfu_spec hw hdev r
      exact ⟨some s.count, .single hw horder hcount fun i hi => hold i (Nat.ne_of_lt hi),
        .some ⟨last s, hnew⟩⟩

/-- The nodes of a device before its port is added. -/
structure Begun (s s' : Nodes π δ) (d : SysfsFpgaDevice π δ) (fme : Option Nat) : Prop where
  adds : s'.order = s.order ++ s.count :: fme.toList
  wf : Wf s'
  count : s.count < s'.count
  fresh : ∀ i ∈ fme, s.count < i ∧ i < s'.count
  same : ∀ i < s.count, s'.nodeAt i = s.nodeAt i
  container : (s'.nodeAt s.count).devpath = none
  node : Option.Rel (fun r i => s'.nodeAt i =
    { nodeOf d r .device with parent := s.count, fme := some i }) d.fme fme
  ends : OfDevice d (s'.nodeAt (last s')) ∧ (s'.nodeAt (last s')).fme = fme

theorem addFme_spec (hw : Wf s) (d : SysfsFpgaDevice π δ) :
    ∃ fme, Begun s (addFme d (addContainer d s).1 (addContainer d s).2) d fme := by
  obtain ⟨haddr, hadds, hlast, hcount, hnode⟩ := addContainer_spec hw d
  rw [addFme]
  cases hf : d.fme with
  | none =>
    refine ⟨none, hadds.order, hadds.wf, hcount ▸ Nat.lt_succ_self _, nofun, hadds.same, ?_,
      ?_, ?_⟩
    · rw [hnode]
      rfl
    · rw [hf]
      exact .none
    · rw [hlast, hnode]
      exact ⟨⟨rfl, rfl, rfl, rfl, rfl, rfl⟩, rfl⟩
  | some r =>
    have hdev : (addContainer d s).2.nodeAt (last (addContainer d s).2) =
        containerOf d (last s) := by rw [hlast, hnode]
    obtain ⟨horder, hcount', hpar, hnew, hold⟩ := enumFme_spec hadds.wf hdev r
    obtain ⟨hwf, hlast'⟩ := hadds.wf.append horder hcount'
    have haddr' : (addContainer d s).1 = last (addContainer d s).2 := by rw [haddr, hlast]
    dsimp only
    rw [haddr']
    refine ⟨some (addContainer d s).2.count, ?_, hwf, ?_, ?_, fun i hi => ?_, ?_, ?_, ?_⟩
    · rw [horder, hadds.order, List.append_assoc]
      rfl
    · rw [hcount', hcount]
      omega
    · rintro i hi
      obtain rfl := Option.mem_some_iff.mp hi
      rw [hcount', hcount]
      omega
    · rw [hold i (by rw [hlast]; omega) (by rw [hcount]; omega), hadds.same i hi]
    · rw [← hlast, hpar]
      rfl
    · rw [hf, ← hlast]
      exact .some hnew
    · rw [hlast', hnew]
      exact ⟨⟨rfl, rfl, rfl, rfl, rfl, rfl⟩, rfl⟩

theorem rel_imp {α β : Type} {R S : α → β → Prop} {o : Option α} {o' : Option β}
    (h : Option.Rel R o o') (himp : ∀ a, ∀ b ∈ o', R a b → S a b) : Option.Rel S o o' := by
  cases h with
  | none => exact .none
  | some h => exact .some (himp _ _ rfl h)

theorem enumRegions_spec (hw : Wf s) (includePort : Bool) (d : SysfsFpgaDevice π δ) :
    ∃ b : Block, Adds s (enumRegions includePort s d) b.ids ∧
      IsBlock includePort (enumRegions includePort s d).nodeAt d b := by
  obtain ⟨fme, hb⟩ := addFme_spec hw d
  obtain ⟨port, hport, hrel⟩ := addPort_spec hb.wf hb.ends.1 includePort
  rw [enumRegions]
  refine ⟨⟨s.count, fme, port⟩, ⟨?_, hport.wf, ?_, fun i hi => ?_, fun i hi => ?_⟩, ?_, ?_, ?_⟩
  · rw [hport.order, hb.adds, List.append_assoc]
    rfl
  · exact Nat.le_trans (Nat.le_of_lt hb.count) hport.count
  · rcases List.mem_cons.mp hi with rfl | hi
    · exact Nat.le_refl _
    rcases List.mem_append.mp hi with hi | hi
    · exact Nat.le_of_lt (hb.fresh i (Option.mem_toList.mp hi)).1
    · exact Nat.le_trans (Nat.le_of_lt hb.count) (hport.fresh i hi)
  · rw [hport.same i (Nat.lt_trans hi hb.count), hb.same i hi]
  · rw [hport.same _ hb.count]
    exact hb.container
  · refine rel_imp hb.node fun r i hi hnode => ?_
    rw [hport.same i (hb.fresh i hi).2, hnode]
  · rw [hb.ends.2] at hrel
    exact hrel

theorem IsBlock.congr {includePort : Bool} {nodeAt nodeAt' : Nat → DevList π δ}
    {d : SysfsFpgaDevice π δ} {b : Block} (hb : IsBlock includePort nodeAt d b)
    (hsame : ∀ i ∈ b.ids, nodeAt' i = nodeAt i) : IsBlock includePort nodeAt' d b := by
  refine ⟨?_, rel_imp hb.fme fun r i hi hnode => ?_, rel_imp hb.port fun r i hi hnode => ?_⟩
  · rw [hsame _ List.mem_cons_self]
    exact hb.container
  · rw [hsame i (List.mem_cons_of_mem _ (List.mem_append_left _ (Option.mem_toList.mpr hi))), hnode]
  · rw [hsame i (List.mem_cons_of_mem _ (List.mem_append_right _ (Option.mem_toList.mpr hi)))]
    exact hnode

theorem forall₂_congr {includePort : Bool} {nodeAt nodeAt' : Nat → DevList π δ}
    {devices : List (SysfsFpgaDevice π δ)} {blocks : List Block}
    (hall : List.Forall₂ (IsBlock includePort nodeAt) devices blocks)
    (hsame : ∀ i ∈ blocks.flatMap Block.ids, nodeAt' i = nodeAt i) :
    List.Forall₂ (IsBlock includePort nodeAt') devices blocks := by
  induction hall with
  | nil => exact .nil
  | cons hb hall ih =>
    refine .cons (hb.congr fun i hi => hsame i ?_) (ih fun i hi => hsame i ?_)
    · exact List.mem_append_left _ hi
    · exact List.mem_append_right _ hi

theorem foldl_enumRegions (includePort : Bool) (devices : List (SysfsFpgaDevice π δ)) (hw : Wf s) :
    ∃ blocks : List Block,
      Adds s (devices.foldl (enumRegions includePort) s) (blocks.flatMap Block.ids) ∧
      List.Forall₂ (IsBlock includePort (devices.foldl (enumRegions includePort) s).nodeAt)
        devices blocks := by
  induction devices generalizing s with
  | nil => exact ⟨[], .refl hw, .nil⟩
  | cons d devices ih =>
    obtain ⟨b, hadds, hblock⟩ := enumRegions_spec hw includePort d
    obtain ⟨blocks, hrest, hall⟩ := ih hadds.wf
    refine ⟨b :: blocks, hadds.trans hrest, .cons (hblock.congr fun i hi => ?_) hall⟩
    apply hrest.same i
    apply hadds.wf.lt i
    rw [hadds.order]
    exact List.mem_append_right _ hi

theorem wf_emptyNodes : Wf (emptyNodes : Nodes π δ) :=
  ⟨List.pairwise_singleton _ _, fun _ hi => (List.mem_singleton.mp hi) ▸ Nat.zero_lt_one,
    [], rfl⟩

end Building

section Walking

variable {π δ : Type}

theorem syncedFme_links (env : EnumEnv π δ) (n : DevList π δ) (parent : Nat) (fme : Option Nat) :
    syncedFme env { n with parent := parent, fme := fme } =
      { syncedFme env n with parent := parent, fme := fme } := by
  simp only [syncedFme, attributeOf]
  split <;> rfl

theorem syncedAfu_links (env : EnumEnv π δ) (n : DevList π δ) (parent : Nat) (fme : Option Nat) :
    syncedAfu env { n with parent := parent, fme := fme } =
      { syncedAfu env n with parent := parent, fme := fme } := by
  simp only [syncedAfu]
  split
  · rfl
  · split <;> rfl

variable [DecidableEq π] (env : EnumEnv π δ) (filters : List (Filter π δ)) (maxTokens : Nat)
  {s : Nodes π δ}

theorem consider_links (acc : Found π δ) (n : DevList π δ) (parent : Nat) (fme : Option Nat) :
    consider env filters maxTokens acc { n with parent := parent, fme := fme } =
      consider env filters maxTokens acc n := rfl

theorem walk_container {i : Nat} (h : (s.nodeAt i).devpath = none) (rest : List Nat)
    (acc : Found π δ) :
    walk env filters maxTokens (i :: rest) s acc = walk env filters maxTokens rest s acc := by
  rw [walk, h]
  rfl

theorem walk_some {i : Nat} {s' : Nodes π δ} {n : DevList π δ} {parent : Nat} {fme : Option Nat}
    (hdev : (s.nodeAt i).devpath.isNone = false) (hsync : sync env i s = some s')
    (hnode : s'.nodeAt i = { n with parent := parent, fme := fme }) (rest : List Nat)
    (acc : Found π δ) :
    walk env filters maxTokens (i :: rest) s acc =
      resume ([n].foldlM (consider env filters maxTokens) acc)
        (walk env filters maxTokens rest s') := by
  rw [walk, hdev, hsync, if_neg Bool.false_ne_true, List.foldlM_cons, resume_bind]
  dsimp only
  rw [hnode, consider_links]
  rfl

theorem walk_none {i : Nat} (hdev : (s.nodeAt i).devpath.isNone = false)
    (hsync : sync env i s = none) (rest : List Nat) (acc : Found π δ) :
    walk env filters maxTokens (i :: rest) s acc = walk env filters maxTokens rest s acc := by
  rw [walk, hdev, hsync]
  rfl

theorem walk_fme {d : SysfsFpgaDevice π δ} {r : SysfsFpgaRegion π δ} (hd : d.fme = some r)
    {i parent : Nat}
    (hnode : s.nodeAt i = { nodeOf d r .device with parent := parent, fme := some i }) :
    ∃ s', (∀ j, j ≠ i → j ≠ parent → s'.nodeAt j = s.nodeAt j) ∧
      (s'.nodeAt i).socketId = portSocketId env d ∧
      ∀ rest acc, walk env filters maxTokens (i :: rest) s acc =
        resume ((fmeAttrs env d).toList.foldlM (consider env filters maxTokens) acc)
          (walk env filters maxTokens rest s') := by
  have hattrs : fmeAttrs env d = if isPresent env (nodeOf d r .device) then
      some (syncedFme env (nodeOf d r .device)) else none := by
    rw [fmeAttrs, hd]
    rfl
  have hdev : (s.nodeAt i).devpath.isNone = false := by
    rw [hnode]
    rfl
  have hsync : sync env i s = if isPresent env (nodeOf d r .device) then
      some ((s.set parent { s.nodeAt parent with
        socketId := (syncedFme env (s.nodeAt i)).socketId }).set i (syncedFme env (s.nodeAt i)))
      else none := by
    rw [sync, hnode]
    dsimp only [nodeOf]
    rw [syncFme, hnode]
    rfl
  cases hp : isPresent env (nodeOf d r .device) with
  | false =>
    rw [hp, if_neg Bool.false_ne_true] at hattrs hsync
    refine ⟨s, fun _ _ _ => rfl, ?_, fun rest acc => ?_⟩
    · rw [hnode, portSocketId, hattrs]
      rfl
    · rw [walk_none env filters maxTokens hdev hsync, hattrs]
      rfl
  | true =>
    rw [hp, if_pos rfl] at hattrs hsync
    obtain ⟨s', hs'⟩ : ∃ s', s' = (s.set parent { s.nodeAt parent with
      socketId := (syncedFme env (s.nodeAt i)).socketId }).set i (syncedFme env (s.nodeAt i)) :=
      ⟨_, rfl⟩
    have hself : s'.nodeAt i =
        { syncedFme env (nodeOf d r .device) with parent := parent, fme := some i } := by
      rw [hs', ← syncedFme_links, ← hnode]
      exact Function.update_self ..
    rw [← hs'] at hsync
    refine ⟨s', fun j hi hj => ?_, ?_, fun rest acc => ?_⟩
    · rw [hs']
      simp [Nodes.set, hi, hj]
    · rw [hself, portSocketId, hattrs]
      rfl
    · rw [walk_some env filters maxTokens hdev hsync hself, hattrs]
      rfl

/-- Looking at the port of a device, once its management engine, if it has one, has been looked
at. -/
theorem walk_port {d : SysfsFpgaDevice π δ} {r : SysfsFpgaRegion π δ} (hd : d.port = some r)
    {i parent : Nat} {fme : Option Nat}
    (hnode : s.nodeAt i = { nodeOf d r .accelerator with parent := parent, fme := fme })
    (hsome : ∀ f ∈ fme, (s.nodeAt f).socketId = portSocketId env d)
    (hnone : fme = none → portSocketId env d = 0) :
    ∃ s', (∀ j, j ≠ i → s'.nodeAt j = s.nodeAt j) ∧
      ∀ rest acc, walk env filters maxTokens (i :: rest) s acc =
        resume ((portAttrs env d).toList.foldlM (consider env filters maxTokens) acc)
          (walk env filters maxTokens rest s') := by
  have hattrs : portAttrs env d = if isPresent env (nodeOf d r .accelerator) then
      some (syncedAfu env { nodeOf d r .accelerator with socketId := portSocketId env d })
      else none := by
    rw [portAttrs, hd]
    rfl
  have hdev : (s.nodeAt i).devpath.isNone = false := by
    rw [hnode]
    rfl
  have hsync : sync env i s = if isPresent env (nodeOf d r .accelerator) then
      some (s.set i (syncedAfu env { nodeOf d r .accelerator with
        socketId := portSocketId env d, parent := parent, fme := fme })) else none := by
    rw [sync, hnode]
    dsimp only [nodeOf]
    rw [syncAfu, hnode]
    cases fme with
    | none =>
      rw [hnone rfl]
      rfl
    | some f =>
      dsimp only
      rw [hsome f rfl]
      rfl
  cases hp : isPresent env (nodeOf d r .accelerator) with
  | false =>
    rw [hp, if_neg Bool.false_ne_true] at hattrs hsync
    refine ⟨s, fun _ _ => rfl, fun rest acc => ?_⟩
    rw [walk_none env filters maxTokens hdev hsync, hattrs]
    rfl
  | true =>
    rw [hp, if_pos rfl] at hattrs hsync
    have hself := syncedAfu_links env
      { nodeOf d r .accelerator with socketId := portSocketId env d } parent fme
    refine ⟨s.set i (syncedAfu env { nodeOf d r .accelerator with
        socketId := portSocketId env d, parent := parent, fme := fme }),
      fun j hi => Function.update_of_ne hi .., fun rest acc => ?_⟩
    have hnode' := (Function.update_self i (syncedAfu env { nodeOf d r .accelerator with
        socketId := portSocketId env d, parent := parent, fme := fme }) s.nodeAt).trans hself
    rw [walk_some env filters maxTokens hdev hsync hnode', hattrs]
    rfl

theorem walk_fme_part {d : SysfsFpgaDevice π δ} {container : Nat} {fme : Option Nat}
    (hrel : Option.Rel (fun r i => s.nodeAt i =
      { nodeOf d r .device with parent := container, fme := some i }) d.fme fme) :
    ∃ s', (∀ j, j ∉ container :: fme.toList → s'.nodeAt j = s.nodeAt j) ∧
      (∀ f ∈ fme, (s'.nodeAt f).socketId = portSocketId env d) ∧
      (fme = none → portSocketId env d = 0) ∧
      ∀ rest acc, walk env filters maxTokens (fme.toList ++ rest) s acc =
        resume ((fmeAttrs env d).toList.foldlM (consider env filters maxTokens) acc)
          (walk env filters maxTokens rest s') := by
  generalize hd : d.fme = o at hrel
  cases hrel with
  | none =>
    have hattrs : fmeAttrs env d = none := by rw [fmeAttrs, hd]; rfl
    refine ⟨s, fun _ _ => rfl, nofun, fun _ => ?_, fun rest acc => ?_⟩
    · rw [portSocketId, hattrs]
      rfl
    · rw [hattrs]
      rfl
  | some hnode =>
    rename_i r f
    obtain ⟨s', hsame, hsocket, hwalk⟩ := walk_fme env filters maxTokens hd hnode
    refine ⟨s', fun j hj => ?_, fun i hi => ?_, nofun, hwalk⟩
    · exact hsame j (fun h => hj (h ▸ List.mem_cons_of_mem _ List.mem_cons_self))
        (fun h => hj (h ▸ List.mem_cons_self))
    · obtain rfl := Option.mem_some_iff.mp hi
      exact hsocket

theorem walk_port_part {d : SysfsFpgaDevice π δ} {includePort : Bool} {fme port : Option Nat}
    (hrel : Option.Rel (fun r i => ∃ parent, s.nodeAt i =
      { nodeOf d r .accelerator with parent := parent, fme := fme })
      (if includePort then d.port else none) port)
    (hsome : ∀ f ∈ fme, (s.nodeAt f).socketId = portSocketId env d)
    (hnone : fme = none → portSocketId env d = 0) :
    ∃ s', (∀ j, j ∉ port.toList → s'.nodeAt j = s.nodeAt j) ∧
      ∀ rest acc, walk env filters maxTokens (port.toList ++ rest) s acc =
        resume ((if includePort then (portAttrs env d).toList else []).foldlM
          (consider env filters maxTokens) acc) (walk env filters maxTokens rest s') := by
  generalize hd : (if includePort then d.port else none) = o at hrel
  cases hrel with
  | none =>
    refine ⟨s, fun _ _ => rfl, fun rest acc => ?_⟩
    cases includePort with
    | false => rfl
    | true =>
      rw [if_pos rfl] at hd ⊢
      rw [portAttrs, hd]
      rfl
  | some hnode =>
    cases includePort with
    | false => exact nomatch hd
    | true =>
      obtain ⟨parent, hnode⟩ := hnode
      obtain ⟨s', hsame, hwalk⟩ :=
        walk_port env filters maxTokens hd hnode hsome hnone
      exact ⟨s', fun j hj => hsame j fun h => hj (h ▸ List.mem_cons_self), hwalk⟩

theorem walk_block {d : SysfsFpgaDevice π δ} {includePort : Bool} {b : Block}
    (hb : IsBlock includePort s.nodeAt d b) (hnodup : b.ids.Nodup) :
    ∃ s', (∀ j, j ∉ b.ids → s'.nodeAt j = s.nodeAt j) ∧
      ∀ rest acc, walk env filters maxTokens (b.ids ++ rest) s acc =
        resume ((attrs env includePort d).foldlM (consider env filters maxTokens) acc)
          (walk env filters maxTokens rest s') := by
  obtain ⟨s₁, hsame₁, hsome, hnone, hwalk₁⟩ :=
    walk_fme_part env filters maxTokens hb.fme
  have hport : Option.Rel (fun r i => ∃ parent, s₁.nodeAt i =
      { nodeOf d r .accelerator with parent := parent, fme := b.fme })
      (if includePort then d.port else none) b.port := by
    refine rel_imp hb.port fun r i hi hnode => ?_
    rwa [hsame₁ i fun hmem => ?_]
    rw [Block.ids, ← List.cons_append, List.nodup_append] at hnodup
    exact hnodup.2.2 i hmem i (Option.mem_toList.mpr hi) rfl
  obtain ⟨s₂, hsame₂, hwalk₂⟩ := walk_port_part env filters maxTokens hport hsome hnone
  refine ⟨s₂, fun j hj => ?_, fun rest acc => ?_⟩
  · rw [Block.ids, ← List.cons_append, List.mem_append, not_or] at hj
    rw [hsame₂ j hj.2, hsame₁ j hj.1]
  · rw [Block.ids, List.cons_append, walk_container env filters maxTokens hb.container,
      List.append_assoc, hwalk₁, attrs, List.foldlM_append, resume_bind]
    congr 1
    funext acc
    exact hwalk₂ rest acc

theorem walk_blocks {includePort : Bool} {devices : List (SysfsFpgaDevice π δ)}
    {blocks : List Block} (hall : List.Forall₂ (IsBlock includePort s.nodeAt) devices blocks)
    (hnodup : (blocks.flatMap Block.ids).Nodup) (acc : Found π δ) :
    walk env filters maxTokens (blocks.flatMap Block.ids) s acc =
      resume ((devices.flatMap (attrs env includePort)).foldlM
        (consider env filters maxTokens) acc) (Prod.mk .ok) := by
  induction devices generalizing s blocks acc with
  | nil =>
    cases hall
    rfl
  | cons d devices ih =>
    cases hall with
    | cons hb hall =>
      rename_i b blocks
      rw [List.flatMap_cons, List.nodup_append] at hnodup
      obtain ⟨hfirst, hrest, hdisj⟩ := hnodup
      obtain ⟨s', hsame, hwalk⟩ := walk_block env filters maxTokens hb hfirst
      rw [List.flatMap_cons, List.flatMap_cons, hwalk, List.foldlM_append, resume_bind]
      congr 1
      funext acc
      refine ih (forall₂_congr hall fun i hi => ?_) hrest acc
      exact hsame i fun h => hdisj i h i hi rfl

theorem enumerateWith_eq (includePort : Bool) (devices : List (SysfsFpgaDevice π δ)) :
    enumerateWith env filters maxTokens includePort .ok devices =
      resume ((devices.flatMap (attrs env includePort)).foldlM
        (consider env filters maxTokens) ⟨[], 0⟩) (Prod.mk .ok) := by
  obtain ⟨blocks, hadds, hall⟩ := foldl_enumRegions includePort devices
    (wf_emptyNodes (π := π) (δ := δ))
  have horder : (devices.foldl (enumRegions includePort) emptyNodes).order =
      0 :: blocks.flatMap Block.ids := hadds.order
  have hnodup := hadds.wf.nodup
  rw [horder] at hnodup
  rw [enumerateWith, enumFpgaRegionResources, if_neg (not_not.mpr rfl)]
  dsimp only
  rw [horder]
  exact walk_blocks env filters maxTokens hall hnodup.of_cons _

end Walking

end OpaeLibs.PluginXfpga.EnumerateNodes
