import OpaeLibs.PluginVfio.TokenList

namespace OpaeLibs.PluginVfio.TokenGraph

open OpaeLibs.OpaeC.Props OpaeLibs.PluginVfio.Properties OpaeLibs.PluginVfio.Dfl
open OpaeLibs.PluginVfio.DflWalk OpaeLibs.PluginVfio.TokenList

/-- A port that is implemented and whose BAR is accessible, as the BAR and the pointer to it. -/
def accessiblePort (v : Regions) (mmio : Mmio) (fmePort : Nat) : Option (UInt32 × Mmio) := do
  let r ← (mmio.shift fmePort).read64
  if PortOffset.implemented r then
    let bar := UInt32.ofNat (PortOffset.bar r).toNat
    let portBar ← v bar
    some (bar, Mmio.shift ⟨portBar, 0⟩ (PortOffset.offset r).toNat)
  else none

def ports (v : Regions) (mmio : Mmio) : List (UInt32 × Mmio) :=
  fmePorts.filterMap (accessiblePort v mmio)

def walkPorts (mem : Nat → Bool) (p : PciDevice) (fme : Nat) (ps : List (UInt32 × Mmio))
    (tokens : List TokenNode) : Option (List TokenNode) :=
  ps.foldlM (fun tokens q => walkPort mem p fme q.1 q.2 tokens) tokens

section Ports

variable {mem : Nat → Bool} {p : PciDevice} {v : Regions} {mmio : Mmio} {fme : Nat}

theorem walkFmePort_eq {fmePort : Nat} (h : InBar mmio (fmePort + 8)) (tokens : List TokenNode) :
    walkFmePort mem p v mmio fme tokens fmePort =
      walkPorts mem p fme (accessiblePort v mmio fmePort).toList tokens := by
  obtain ⟨r, hr⟩ := h.read (Nat.le_refl _)
  rw [walkFmePort, accessiblePort, hr]
  by_cases himp : PortOffset.implemented r = true
  · cases hv : v (UInt32.ofNat (PortOffset.bar r).toNat) with
    | none => simp [himp, hv, walkPorts]
    | some portBar => simp [himp, hv, walkPorts]
  · simp [himp, walkPorts]

theorem foldlM_walkFmePort {offsets : List Nat} (h : ∀ x ∈ offsets, InBar mmio (x + 8))
    (tokens : List TokenNode) :
    offsets.foldlM (walkFmePort mem p v mmio fme) tokens =
      walkPorts mem p fme (offsets.filterMap (accessiblePort v mmio)) tokens := by
  induction offsets generalizing tokens with
  | nil => rfl
  | cons x rest ih =>
    have hsplit : (x :: rest).filterMap (accessiblePort v mmio) =
        (accessiblePort v mmio x).toList ++ rest.filterMap (accessiblePort v mmio) := by
      cases hx : accessiblePort v mmio x <;> simp [hx]
    rw [List.foldlM_cons, walkFmePort_eq (h x List.mem_cons_self), hsplit, walkPorts, walkPorts,
      List.foldlM_append]
    congr 1
    funext tokens'
    exact ih (fun y hy => h y (List.mem_cons_of_mem _ hy)) tokens'

theorem fmePorts_inBar (h : InBar mmio 0x70) : ∀ x ∈ fmePorts, InBar mmio (x + 8) := by
  intro x hx
  apply h.mono
  revert x
  decide

theorem walkFme_eq (region : UInt32) (tokens : List TokenNode) :
    walkFme mem p v mmio region tokens =
      (getToken mem p region .device tokens).bind fun q => (readFme mmio).bind fun r =>
        walkPorts mem p q.1 (ports v mmio) (setToken q.1 (assignFme r) q.2) := by
  rw [walkFme]
  congr 1
  funext q
  cases hr : readFme mmio with
  | none => rfl
  | some r =>
    have hin := (isSome_readFme mmio).mp (by rw [hr]; rfl)
    exact foldlM_walkFmePort (fmePorts_inBar hin.registers) _

end Ports

section WalkPort

variable {mem : Nat → Bool} {p : PciDevice} {parent : Nat} {region : UInt32} {mmio : Mmio}
  {tokens tokens' : List TokenNode}

theorem walkPort_found (h : Valid tokens) {t : TokenNode} (ht : t ∈ tokens)
    (hr : t.region = region) {r : PortRegisters} (hread : readPort mmio = some r) :
    walkPort mem p parent region mmio tokens =
      some (tokens.map fun t => if t.region = region then assignPort parent mmio r t else t) := by
  simp only [walkPort, getToken_found h ht hr, hread, Option.bind_eq_bind, Option.bind_some,
    setToken_found h ht, hr]

theorem walkPort_new (h : Valid tokens) (hr : ∀ t ∈ tokens, t.region ≠ region)
    (hmem : mem tokens.length = true) {r : PortRegisters} (hread : readPort mmio = some r) :
    walkPort mem p parent region mmio tokens =
      some (assignPort parent mmio r (newToken p region .accelerator tokens.length) :: tokens) := by
  rw [walkPort, getToken_new hr, if_pos hmem]
  simp only [hread, Option.bind_eq_bind, Option.bind_some,
    setToken_new h (t := newToken p region .accelerator tokens.length) rfl]

theorem walkPort_cases (h : Valid tokens)
    (hw : walkPort mem p parent region mmio tokens = some tokens') :
    ∃ r, readPort mmio = some r ∧
      ((∃ t ∈ tokens, t.region = region ∧ tokens' =
          tokens.map fun t => if t.region = region then assignPort parent mmio r t else t) ∨
        ((∀ t ∈ tokens, t.region ≠ region) ∧ mem tokens.length = true ∧ tokens' =
          assignPort parent mmio r (newToken p region .accelerator tokens.length) :: tokens)) := by
  have hread : ∃ r, readPort mmio = some r := by
    rw [walkPort] at hw
    simp only [Option.bind_eq_bind, Option.bind_eq_some_iff] at hw
    obtain ⟨-, -, r, hr, -⟩ := hw
    exact ⟨r, hr⟩
  obtain ⟨r, hr⟩ := hread
  refine ⟨r, hr, ?_⟩
  by_cases hex : ∃ t ∈ tokens, t.region = region
  · obtain ⟨t, ht, htr⟩ := hex
    rw [walkPort_found h ht htr hr, Option.some.injEq] at hw
    exact .inl ⟨t, ht, htr, hw.symm⟩
  · have hne : ∀ t ∈ tokens, t.region ≠ region := fun t ht htr => hex ⟨t, ht, htr⟩
    cases hmem : mem tokens.length with
    | false =>
      rw [walkPort, getToken_new hne, hmem] at hw
      exact absurd hw nofun
    | true =>
      rw [walkPort_new h hne hmem hr, Option.some.injEq] at hw
      exact .inr ⟨hne, rfl, hw.symm⟩

end WalkPort

/-- The types by region, which no walk changes. -/
def HasType (tokens : List TokenNode) (region : UInt32) (type : FpgaObjtype) : Prop :=
  ∃ t ∈ tokens, t.region = region ∧ t.type = type

section WalkPorts

variable {mem : Nat → Bool} {p : PciDevice} {fme : Nat} {ps : List (UInt32 × Mmio)}
  {tokens tokens' : List TokenNode}

theorem walkPort_keeps (h : Valid tokens) {region : UInt32} {mmio : Mmio}
    (hw : walkPort mem p fme region mmio tokens = some tokens') :
    Valid tokens' ∧
      ∀ region' type, HasType tokens region' type → HasType tokens' region' type := by
  obtain ⟨r, -, ⟨t, ht, htr, rfl⟩ | ⟨hne, -, rfl⟩⟩ := walkPort_cases h hw
  · have hassigns := assigns_assignPort fme mmio r
    refine ⟨h.assign hassigns region, ?_⟩
    rintro region' type ⟨t', ht', hregion, htype⟩
    refine ⟨_, List.mem_map_of_mem ht', ?_⟩
    split
    · exact ⟨(hassigns.region t').trans hregion, (hassigns.type t').trans htype⟩
    · exact ⟨hregion, htype⟩
  · have hassigns := assigns_assignPort fme mmio r
    constructor
    · apply h.cons
      · exact hassigns.addr _
      · intro t' ht'
        rw [hassigns.region]
        exact hne t' ht'
    · rintro region' type ⟨t', ht', heq⟩
      exact ⟨t', List.mem_cons_of_mem _ ht', heq⟩

theorem walkPorts_keeps (h : Valid tokens) (hw : walkPorts mem p fme ps tokens = some tokens') :
    Valid tokens' ∧
      ∀ region type, HasType tokens region type → HasType tokens' region type := by
  induction ps generalizing tokens with
  | nil =>
    obtain rfl := Option.some.inj hw
    exact ⟨h, fun _ _ => id⟩
  | cons q rest ih =>
    obtain ⟨tokens₁, hq, hrest⟩ := Option.bind_eq_some_iff.mp hw
    obtain ⟨hvalid, htypes⟩ := walkPort_keeps h hq
    obtain ⟨hvalid', htypes'⟩ := ih hvalid hrest
    exact ⟨hvalid', fun region type ht => htypes' region type (htypes region type ht)⟩

theorem walkPorts_inBar (h : Valid tokens) (hw : walkPorts mem p fme ps tokens = some tokens') :
    ∀ q ∈ ps, PortInBar q.2 := by
  induction ps generalizing tokens with
  | nil => exact nofun
  | cons q rest ih =>
    obtain ⟨tokens₁, hq, hrest⟩ := Option.bind_eq_some_iff.mp hw
    rw [List.forall_mem_cons]
    obtain ⟨r, hr, -⟩ := walkPort_cases h hq
    exact ⟨(isSome_readPort q.2).mp (by rw [hr]; rfl), ih (walkPort_keeps h hq).1 hrest⟩

theorem walkPorts_mem (h : Valid tokens) (hw : walkPorts mem p fme ps tokens = some tokens')
    (hnodup : (ps.map Prod.fst).Nodup) (hnew : ∀ q ∈ ps, ∀ t ∈ tokens, t.region ≠ q.1) :
    ∀ n, tokens.length ≤ n → n < tokens.length + ps.length → mem n = true := by
  induction ps generalizing tokens with
  | nil =>
    intro n hn hlt
    exact absurd hlt (Nat.not_lt.mpr hn)
  | cons q rest ih =>
    obtain ⟨tokens₁, hq, hrest⟩ := Option.bind_eq_some_iff.mp hw
    rw [List.map_cons, List.nodup_cons] at hnodup
    obtain ⟨r, -, ⟨t, ht, htr, -⟩ | ⟨-, hmem, rfl⟩⟩ := walkPort_cases h hq
    · exact absurd htr (hnew q List.mem_cons_self t ht)
    · have hrestmem := ih (walkPort_keeps h hq).1 hrest hnodup.2 (by
        intro q' hq'
        rw [List.forall_mem_cons, (assigns_assignPort fme q.2 r).region]
        refine ⟨?_, hnew q' (List.mem_cons_of_mem _ hq')⟩
        intro heq
        exact hnodup.1 (List.mem_map.mpr ⟨q', hq', heq.symm⟩))
      intro n hn hlt
      rcases Nat.eq_or_lt_of_le hn with rfl | hn
      · exact hmem
      · apply hrestmem n
        · exact hn
        · rw [List.length_cons] at hlt ⊢
          omega

/-- A further walk of the port leaves the tokens as they are. -/
def Settled (fme : Nat) (q : UInt32 × Mmio) (tokens : List TokenNode) : Prop :=
  ∀ r, readPort q.2 = some r → ∀ t ∈ tokens, t.region = q.1 → assignPort fme q.2 r t = t

/-- The tokens that a walk of the ports makes. -/
structure Made (fme : Nat) (ps : List (UInt32 × Mmio)) (new : List TokenNode) : Prop where
  regions : (new.map fun t => t.region) = (ps.map Prod.fst).reverse
  accelerator : ∀ t ∈ new, t.type = .accelerator
  parent : ∀ t ∈ new, t.parent = some fme
  settled : ∀ q ∈ ps, Settled fme q new

theorem Made.cons {q : UInt32 × Mmio} {new : List TokenNode} (h : Made fme ps new)
    (hq : q.1 ∉ ps.map Prod.fst) {r : PortRegisters} (hr : readPort q.2 = some r) (n : Nat) :
    Made fme (q :: ps)
      (new ++ [assignPort fme q.2 r (newToken p q.1 .accelerator n)]) := by
  have hassigns := assigns_assignPort fme q.2 r
  have hregion := hassigns.region (newToken p q.1 .accelerator n)
  constructor
  · rw [List.map_append, h.regions, List.map_singleton, hregion, List.map_cons, List.reverse_cons]
    rfl
  · intro t ht
    rcases List.mem_append.mp ht with ht | ht
    · exact h.accelerator t ht
    · rw [List.mem_singleton.mp ht]
      exact hassigns.type _
  · intro t ht
    rcases List.mem_append.mp ht with ht | ht
    · exact h.parent t ht
    · rw [List.mem_singleton.mp ht]
      exact assignPort_parent fme q.2 r _
  · intro q' hq' r' hr' t ht htr
    rcases List.mem_append.mp ht with hold | hlast
    · rcases List.mem_cons.mp hq' with rfl | hq'
      · have hmem : t.region ∈ new.map fun t => t.region := List.mem_map_of_mem hold
        rw [h.regions, List.mem_reverse, htr] at hmem
        exact absurd hmem hq
      · exact h.settled q' hq' r' hr' t hold htr
    · obtain rfl := List.mem_singleton.mp hlast
      rcases List.mem_cons.mp hq' with rfl | hq'
      · obtain rfl := Option.some.inj (hr.symm.trans hr')
        exact hassigns.twice _
      · rw [hregion] at htr
        exact absurd (List.mem_map.mpr ⟨q', hq', htr.symm⟩) hq

theorem walkPorts_fresh (mem : Nat → Bool) (p : PciDevice) (fme : Nat) (h : Valid tokens)
    (hnodup : (ps.map Prod.fst).Nodup) (hnew : ∀ q ∈ ps, ∀ t ∈ tokens, t.region ≠ q.1)
    (hin : ∀ q ∈ ps, PortInBar q.2)
    (hmem : ∀ n, tokens.length ≤ n → n < tokens.length + ps.length → mem n = true) :
    ∃ new, walkPorts mem p fme ps tokens = some (new ++ tokens) ∧ Made fme ps new := by
  induction ps generalizing tokens with
  | nil => exact ⟨[], rfl, rfl, nofun, nofun, nofun⟩
  | cons q rest ih =>
    rw [List.map_cons, List.nodup_cons] at hnodup
    rw [List.forall_mem_cons] at hin hnew
    obtain ⟨r, hr⟩ := Option.isSome_iff_exists.mp ((isSome_readPort q.2).mpr hin.1)
    have hassigns := assigns_assignPort fme q.2 r
    have hq : walkPort mem p fme q.1 q.2 tokens =
        some (assignPort fme q.2 r (newToken p q.1 .accelerator tokens.length) :: tokens) := by
      apply walkPort_new h hnew.1 _ hr
      apply hmem tokens.length (Nat.le_refl _)
      rw [List.length_cons]
      omega
    obtain ⟨new, hrest, hmade⟩ := ih (walkPort_keeps h hq).1 hnodup.2
      (by
        intro q' hq'
        rw [List.forall_mem_cons, hassigns.region]
        refine ⟨?_, hnew.2 q' hq'⟩
        intro heq
        exact hnodup.1 (List.mem_map.mpr ⟨q', hq', heq.symm⟩))
      hin.2
      (by
        intro n hn hlt
        rw [List.length_cons] at hn hlt
        apply hmem n (by omega)
        rw [List.length_cons]
        omega)
    refine ⟨_, ?_, hmade.cons (p := p) hnodup.1 hr tokens.length⟩
    rw [walkPorts, List.foldlM_cons, hq, List.append_assoc, List.singleton_append]
    exact hrest

theorem walkPorts_again (h : Valid tokens) (hin : ∀ q ∈ ps, PortInBar q.2)
    (hfound : ∀ q ∈ ps, ∃ t ∈ tokens, t.region = q.1) (hsettled : ∀ q ∈ ps, Settled fme q tokens) :
    walkPorts mem p fme ps tokens = some tokens := by
  induction ps with
  | nil => rfl
  | cons q rest ih =>
    rw [List.forall_mem_cons] at hin hfound hsettled
    obtain ⟨r, hr⟩ := Option.isSome_iff_exists.mp ((isSome_readPort q.2).mpr hin.1)
    obtain ⟨t, ht, htr⟩ := hfound.1
    have hsame : (tokens.map fun t => if t.region = q.1 then assignPort fme q.2 r t else t) =
        tokens := map_ite_self (hsettled.1 r hr)
    rw [walkPorts, List.foldlM_cons, walkPort_found h ht htr hr, hsame]
    exact ih hin.2 hfound.2 hsettled.2

end WalkPorts

/-- A device that shows the GUID of a known FME in its BAR 0. -/
structure FmeDevice where
  regions : Regions
  bar0 : Bar
  regions_zero : regions 0 = some bar0
  guid : FpgaGuid
  guid_mem : guid ∈ fmeDrivers
  getGuid_eq : getGuid ⟨bar0, 8⟩ = some guid

def FmeDevice.mmio (d : FmeDevice) : Mmio := ⟨d.bar0, 0⟩

def FmeDevice.ports (d : FmeDevice) : List (UInt32 × Mmio) := TokenGraph.ports d.regions d.mmio

/-- The token at `a` has the one at `b` as its parent. -/
def ParentOf (tokens : List TokenNode) (a b : Nat) : Prop :=
  ∃ t ∈ tokens, t.addr = a ∧ t.parent = some b

/-- One token for the FME, under it one for each port, and copies of all of them. -/
structure Graph (d : FmeDevice) (tokens : List TokenNode) : Prop where
  distinct : (tokens.map TokenNode.addr).Nodup
  fme : ∃ fme, tokens.filter (fun t => t.type = .device) = [fme] ∧ fme.region = 0 ∧
    ∀ t ∈ tokens, t.type = .accelerator → t.parent = some fme.addr
  ports : ((tokens.filter fun t => t.type = .accelerator).map fun t => t.region).Perm
    (d.ports.map Prod.fst)
  acyclic : ∀ a, ¬ Relation.TransGen (ParentOf tokens) a a
  cloned : ∀ mem, ∀ t ∈ tokens, ∃ fuel, (cloneToken mem tokens fuel 0 t.addr).isSome

/-- The first walk yields the graph, and every later one the same tokens. -/
def Yields (mem : Nat → Bool) (p : PciDevice) (d : FmeDevice) : Prop :=
  ∃ tokens, vfioWalk mem (some d.regions) p [] = some (0, tokens) ∧ Graph d tokens ∧
    ∀ mem', vfioWalk mem' (some d.regions) p tokens = some (0, tokens)

/-- There is memory for the tokens, what is read lies in the BARs, and every port has a BAR of its
own that is not the FME's. -/
structure Separate (mem : Nat → Bool) (d : FmeDevice) : Prop where
  mem : ∀ n ≤ d.ports.length, mem n = true
  fme : FmeInBar d.mmio
  ports : ∀ q ∈ d.ports, PortInBar q.2
  distinct : (d.ports.map Prod.fst).Nodup
  other : ∀ q ∈ d.ports, q.1 ≠ 0

section Walk

variable {mem : Nat → Bool} {p : PciDevice} {d : FmeDevice}

def fmeToken (p : PciDevice) (r : FmeRegisters) : TokenNode :=
  assignFme r (newToken p 0 .device 0)

theorem vfioWalk_eq (mem : Nat → Bool) (p : PciDevice) (d : FmeDevice) (tokens : List TokenNode) :
    vfioWalk mem (some d.regions) p tokens =
      (walkFme mem p d.regions d.mmio 0 tokens).map fun tokens => (0, tokens) := by
  rw [vfioWalk, d.regions_zero]
  simp only [d.getGuid_eq, Option.bind_eq_bind, Option.bind_some, if_pos d.guid_mem]
  rw [Option.map_eq_bind]
  rfl

theorem walkFme_nil (mem : Nat → Bool) (p : PciDevice) (d : FmeDevice) :
    walkFme mem p d.regions d.mmio 0 [] =
      if mem 0 then
        (readFme d.mmio).bind fun r => walkPorts mem p 0 d.ports [fmeToken p r]
      else none := by
  rw [walkFme_eq, getToken_new (by exact nofun)]
  cases hmem : mem 0 with
  | false => simp
  | true =>
    simp only [List.length_nil, if_true, Option.bind_some]
    rfl

theorem walk_cases {res : Nat} {tokens : List TokenNode}
    (h : vfioWalk mem (some d.regions) p [] = some (res, tokens)) :
    mem 0 = true ∧ ∃ r, readFme d.mmio = some r ∧
      walkPorts mem p 0 d.ports [fmeToken p r] = some tokens := by
  rw [vfioWalk_eq, walkFme_nil] at h
  obtain ⟨tokens', hfme, heq⟩ := Option.map_eq_some_iff.mp h
  obtain rfl : tokens' = tokens := (Prod.mk.inj heq).2
  split at hfme
  case isFalse => exact absurd hfme nofun
  case isTrue hmem =>
    obtain ⟨r, hr, hports⟩ := Option.bind_eq_some_iff.mp hfme
    exact ⟨hmem, r, hr, hports⟩

theorem valid_fmeToken (p : PciDevice) (r : FmeRegisters) : Valid [fmeToken p r] :=
  valid_nil.cons rfl nofun

end Walk

section Graph

variable {p : PciDevice} {d : FmeDevice} {r : FmeRegisters} {new : List TokenNode}

theorem parentOf_made (hvalid : Valid (new ++ [fmeToken p r])) (hmade : Made 0 d.ports new)
    {a b : Nat} (h : ParentOf (new ++ [fmeToken p r]) a b) : a ≠ 0 ∧ b = 0 := by
  obtain ⟨t, ht, rfl, hparent⟩ := h
  rcases List.mem_append.mp ht with hnew | hlast
  · refine ⟨fun ha => ?_, Option.some.inj (hparent.symm.trans (hmade.parent t hnew))⟩
    have hfme : t = fmeToken p r :=
      hvalid.addr_inj ht (List.mem_append_right _ (List.mem_singleton_self _)) ha
    rw [hfme] at hparent
    exact absurd hparent nofun
  · rw [List.mem_singleton.mp hlast] at hparent
    exact absurd hparent nofun

theorem acyclic_made (hvalid : Valid (new ++ [fmeToken p r])) (hmade : Made 0 d.ports new)
    (a : Nat) : ¬ Relation.TransGen (ParentOf (new ++ [fmeToken p r])) a a := by
  intro hcycle
  obtain ⟨b, hfirst, -⟩ := Relation.TransGen.head'_iff.mp hcycle
  obtain ⟨c, -, hlast⟩ := Relation.TransGen.tail'_iff.mp hcycle
  exact (parentOf_made hvalid hmade hfirst).1 (parentOf_made hvalid hmade hlast).2

theorem find?_addr {tokens : List TokenNode} (hvalid : Valid tokens) {t : TokenNode}
    (ht : t ∈ tokens) : (tokens.find? fun t' => t'.addr = t.addr) = some t := by
  cases hf : tokens.find? fun t' => t'.addr = t.addr with
  | none =>
    have hnot := List.find?_eq_none.mp hf t ht
    exact absurd (decide_eq_true rfl) hnot
  | some t' =>
    have haddr : t'.addr = t.addr := by simpa using List.find?_some hf
    rw [hvalid.addr_inj (List.mem_of_find?_eq_some hf) ht haddr]

theorem cloned_made (hvalid : Valid (new ++ [fmeToken p r])) (hmade : Made 0 d.ports new)
    (mem : Nat → Bool) (t : TokenNode) (ht : t ∈ new ++ [fmeToken p r]) :
    ∃ fuel, (cloneToken mem (new ++ [fmeToken p r]) fuel 0 t.addr).isSome := by
  have hfme : fmeToken p r ∈ new ++ [fmeToken p r] :=
    List.mem_append_right _ (List.mem_singleton_self _)
  have hparent : t.parent = none ∨ t.parent = some 0 := by
    rcases List.mem_append.mp ht with hnew | hlast
    · exact .inr (hmade.parent t hnew)
    · exact .inl (by rw [List.mem_singleton.mp hlast]; rfl)
  -- a copy of the FME needs one call, and one of a port another for its parent
  have hclone : (cloneToken mem (new ++ [fmeToken p r]) 1 1 0).isSome := by
    have hfind := find?_addr hvalid hfme
    have hnone : (fmeToken p r).parent = none := rfl
    have haddr : (fmeToken p r).addr = 0 := rfl
    rw [haddr] at hfind
    cases hmem : mem 1 <;> simp [cloneToken, hfind, hmem, hnone]
  refine ⟨2, ?_⟩
  rw [cloneToken, find?_addr hvalid ht]
  cases hmem : mem 0 with
  | false => rfl
  | true =>
    obtain hp | hp := hparent
    · simp [hp]
    · simp [hp, hclone]

theorem graph_made (hvalid : Valid (new ++ [fmeToken p r])) (hmade : Made 0 d.ports new) :
    Graph d (new ++ [fmeToken p r]) := by
  refine ⟨hvalid.nodup_addrs, ⟨fmeToken p r, ?_, rfl, ?_⟩, ?_, acyclic_made hvalid hmade,
    cloned_made hvalid hmade⟩
  · have hnone : new.filter (fun t => t.type = .device) = [] := by
      rw [List.filter_eq_nil_iff]
      intro t ht
      simp [hmade.accelerator t ht]
    rw [List.filter_append, hnone]
    rfl
  · intro t ht htype
    rcases List.mem_append.mp ht with hnew | hlast
    · exact hmade.parent t hnew
    · rw [List.mem_singleton.mp hlast] at htype
      exact absurd htype nofun
  · have hall : new.filter (fun t => t.type = .accelerator) = new := by
      rw [List.filter_eq_self]
      intro t ht
      simpa using hmade.accelerator t ht
    have hlast : [fmeToken p r].filter (fun t => t.type = .accelerator) = [] := rfl
    rw [List.filter_append, hall, hlast, List.append_nil, hmade.regions]
    exact List.reverse_perm _

theorem walk_again (hvalid : Valid (new ++ [fmeToken p r])) (hmade : Made 0 d.ports new)
    (hr : readFme d.mmio = some r) (hin : ∀ q ∈ d.ports, PortInBar q.2)
    (hother : ∀ q ∈ d.ports, q.1 ≠ 0) (mem : Nat → Bool) :
    vfioWalk mem (some d.regions) p (new ++ [fmeToken p r]) = some (0, new ++ [fmeToken p r]) := by
  have hfme : fmeToken p r ∈ new ++ [fmeToken p r] :=
    List.mem_append_right _ (List.mem_singleton_self _)
  have hsame : setToken (fmeToken p r).addr (assignFme r) (new ++ [fmeToken p r]) =
      new ++ [fmeToken p r] := by
    rw [setToken_found hvalid hfme]
    apply map_ite_self
    intro t ht heq
    rw [hvalid.region_inj ht hfme heq]
    exact (assigns_assignFme r).twice _
  have hports : walkPorts mem p 0 d.ports (new ++ [fmeToken p r]) =
      some (new ++ [fmeToken p r]) := by
    apply walkPorts_again hvalid hin
    · intro q hq
      have hregion : q.1 ∈ new.map fun t => t.region := by
        rw [hmade.regions, List.mem_reverse]
        exact List.mem_map_of_mem hq
      obtain ⟨t, ht, htr⟩ := List.mem_map.mp hregion
      exact ⟨t, List.mem_append_left _ ht, htr⟩
    · intro q hq r' hr' t ht htr
      rcases List.mem_append.mp ht with hnew | hlast
      · exact hmade.settled q hq r' hr' t hnew htr
      · rw [List.mem_singleton.mp hlast] at htr
        exact absurd htr.symm (hother q hq)
  have hregion : (fmeToken p r).region = 0 := rfl
  rw [vfioWalk_eq, walkFme_eq, getToken_found hvalid hfme hregion, hr]
  simp only [Option.bind_some, hsame]
  exact congrArg (Option.map fun tokens => (0, tokens)) hports

theorem yields_of_separate {mem : Nat → Bool} (p : PciDevice) (h : Separate mem d) :
    Yields mem p d := by
  obtain ⟨r, hr⟩ := Option.isSome_iff_exists.mp ((isSome_readFme d.mmio).mpr h.fme)
  have hvalid := valid_fmeToken p r
  obtain ⟨new, hwalk, hmade⟩ := walkPorts_fresh mem p 0 hvalid h.distinct
    (by
      intro q hq t ht
      rw [List.mem_singleton.mp ht]
      exact (h.other q hq).symm)
    h.ports
    (by
      intro n _ hlt
      apply h.mem n
      rw [List.length_singleton] at hlt
      omega)
  have hvalid' := (walkPorts_keeps hvalid hwalk).1
  refine ⟨new ++ [fmeToken p r], ?_, graph_made hvalid' hmade,
    walk_again hvalid' hmade hr h.ports h.other⟩
  rw [vfioWalk_eq, walkFme_nil, if_pos (h.mem 0 (Nat.zero_le _)), hr, Option.bind_some, hwalk]
  rfl

theorem separate_of_yields {mem : Nat → Bool} (h : Yields mem p d) : Separate mem d := by
  obtain ⟨tokens, hwalk, hgraph, -⟩ := h
  obtain ⟨hmem, r, hr, hports⟩ := walk_cases hwalk
  have hvalid := valid_fmeToken p r
  obtain ⟨hvalid', htypes⟩ := walkPorts_keeps hvalid hports
  have hdistinct : (d.ports.map Prod.fst).Nodup := by
    rw [← hgraph.ports.nodup_iff]
    exact hvalid'.regions.sublist (List.filter_sublist.map _)
  have hother : ∀ q ∈ d.ports, q.1 ≠ 0 := by
    intro q hq hzero
    have hmemq := hgraph.ports.mem_iff.mpr (List.mem_map_of_mem hq)
    obtain ⟨t, ht, htr⟩ := List.mem_map.mp hmemq
    obtain ⟨ht, hacc⟩ := List.mem_filter.mp ht
    obtain ⟨t', ht', htr', hdev⟩ := htypes 0 .device
      ⟨fmeToken p r, List.mem_singleton_self _, rfl, rfl⟩
    have hsame := hvalid'.region_inj ht ht' (htr.trans (hzero.trans htr'.symm))
    rw [hsame, hdev] at hacc
    exact absurd hacc nofun
  refine ⟨?_, (isSome_readFme d.mmio).mp (by rw [hr]; rfl), walkPorts_inBar hvalid hports,
    hdistinct, hother⟩
  intro n hn
  rcases Nat.eq_zero_or_pos n with rfl | hpos
  · exact hmem
  · apply walkPorts_mem hvalid hports hdistinct _ n
    · exact hpos
    · rw [List.length_singleton]
      omega
    · intro q hq t ht
      rw [List.mem_singleton.mp ht]
      exact (hother q hq).symm

end Graph

theorem token_graph_iff (mem : Nat → Bool) (p : PciDevice) (d : FmeDevice) :
    Yields mem p d ↔ Separate mem d := ⟨separate_of_yields, yields_of_separate p⟩

def barOf (registers : List (Nat × Nat)) : Bar where
  size := 0x200
  size_lt := by decide
  byte i :=
    match registers.find? fun r => r.1 ≤ i ∧ i < r.1 + 8 with
    | none => 0
    | some (x, r) => UInt8.ofNat (r >>> (8 * (i - x)))

def fmeRegisters (ports : List Nat) : List (Nat × Nat) :=
  [(0, 1 <<< 40), (8, 0x82fe38f0f9e17764), (0x10, 0xbfaf2ae94a5246e3)] ++ fmePorts.zip ports

def portAt (bar offset : Nat) : Nat := 1 <<< 60 + bar <<< 32 + offset

def fmeBar (ports : List Nat) : Bar :=
  barOf (fmeRegisters ports ++ [(0x100, 1 <<< 40), (0x118, 0x40)])

def portBar : Bar :=
  barOf [(0, 1 <<< 40), (0x18, 0x40), (0x100, 1 <<< 40), (0x118, 0x40), (0x148, 1), (0x150, 2)]

def fmeGuid : FpgaGuid :=
  ⟨#[0xbf, 0xaf, 0x2a, 0xe9, 0x4a, 0x52, 0x46, 0xe3, 0x82, 0xfe, 0x38, 0xf0, 0xf9, 0xe1, 0x77,
    0x64], by decide⟩

def deviceWith (ports : List Nat) (h : getGuid ⟨fmeBar ports, 8⟩ = some fmeGuid) : FmeDevice where
  regions i := if i = 0 then some (fmeBar ports) else if i = 2 then some portBar else none
  bar0 := fmeBar ports
  regions_zero := rfl
  guid := fmeGuid
  guid_mem := List.mem_singleton_self _
  getGuid_eq := h

def ownBar : FmeDevice := deviceWith [portAt 2 0] (by decide +kernel)

def fmesBar : FmeDevice := deviceWith [portAt 0 0x100] (by decide +kernel)

def sharedBar : FmeDevice := deviceWith [portAt 2 0, portAt 2 0x100] (by decide +kernel)

def pac : PciDevice := ⟨"0000:5e:00.0", ⟨0, 0x5e, 0, 0⟩, 0x8086, 0x09c4, 0⟩

example : (vfioWalk (fun _ => true) (some ownBar.regions) pac []).map
    (fun w => w.2.map fun t => (t.region, t.type, t.parent)) =
      some [(2, .accelerator, some 0), (0, .device, none)] := by decide +kernel

theorem cloneToken_self {tokens : List TokenNode} {t : TokenNode} {a : Nat}
    (ht : (tokens.find? fun t => t.addr = a) = some t) (hp : t.parent = some a) (fuel n : Nat) :
    cloneToken (fun _ => true) tokens fuel n a = none := by
  induction fuel generalizing n with
  | zero => rfl
  | succ fuel ih =>
    rw [cloneToken, ht]
    simp [hp, ih]

/-- A port in the BAR of the FME makes the FME its own parent, so that no copy of it ends; two
ports in one BAR share a token. -/
theorem ports_without_tokens :
    (∃ tokens, vfioWalk (fun _ => true) (some fmesBar.regions) pac [] = some (0, tokens) ∧
      ∀ fuel, cloneToken (fun _ => true) tokens fuel 0 0 = none) ∧
    ¬ Yields (fun _ => true) pac fmesBar ∧
    (vfioWalk (fun _ => true) (some sharedBar.regions) pac []).map
      (fun w => w.2.map fun t => t.region) = some [2, 0] ∧
    ¬ Yields (fun _ => true) pac sharedBar := by
  have hself : (vfioWalk (fun _ => true) (some fmesBar.regions) pac []).map
      (fun w => (w.1, (w.2.find? fun t => t.addr = 0).map TokenNode.parent)) =
        some (0, some (some 0)) := by decide +kernel
  have hone : fmesBar.ports.map Prod.fst = [0] := by decide +kernel
  have htwo : sharedBar.ports.map Prod.fst = [2, 2] := by decide +kernel
  refine ⟨?_, fun hy => ?_, by decide +kernel, fun hy => ?_⟩
  · obtain ⟨⟨res, tokens⟩, hw, heq⟩ := Option.map_eq_some_iff.mp hself
    obtain ⟨rfl, hparent⟩ := Prod.mk.inj heq
    obtain ⟨t, ht, hp⟩ := Option.map_eq_some_iff.mp hparent
    exact ⟨tokens, hw, fun fuel => cloneToken_self ht hp fuel 0⟩
  · obtain ⟨q, hq, hzero⟩ := List.mem_map.mp (hone ▸ List.mem_singleton_self (0 : UInt32))
    exact (separate_of_yields hy).other q hq hzero
  · have hdistinct := (separate_of_yields hy).distinct
    rw [htwo] at hdistinct
    exact absurd hdistinct (by decide)

end OpaeLibs.PluginVfio.TokenGraph
