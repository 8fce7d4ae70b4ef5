import OpaeLibs.PluginVfio.DflWalk

namespace OpaeLibs.PluginVfio.TokenList

open OpaeLibs.OpaeC.Props OpaeLibs.PluginVfio.Properties OpaeLibs.PluginVfio.Dfl
open OpaeLibs.PluginVfio.DflWalk

/-- New tokens go in front, and there is one for a region. -/
structure Valid (tokens : List TokenNode) : Prop where
  addrs : tokens.map TokenNode.addr = (List.range tokens.length).reverse
  regions : (tokens.map fun t => t.region).Nodup

theorem valid_nil : Valid [] := ⟨rfl, List.nodup_nil⟩

section Valid

variable {tokens : List TokenNode} {t t' : TokenNode}

theorem Valid.nodup_addrs (h : Valid tokens) : (tokens.map TokenNode.addr).Nodup := by
  rw [h.addrs, List.nodup_reverse]
  exact List.nodup_range

theorem Valid.addr_inj (h : Valid tokens) (ht : t ∈ tokens) (ht' : t' ∈ tokens)
    (heq : t.addr = t'.addr) : t = t' := List.inj_on_of_nodup_map h.nodup_addrs ht ht' heq

theorem Valid.region_inj (h : Valid tokens) (ht : t ∈ tokens) (ht' : t' ∈ tokens)
    (heq : t.region = t'.region) : t = t' := List.inj_on_of_nodup_map h.regions ht ht' heq

theorem Valid.addr_lt (h : Valid tokens) (ht : t ∈ tokens) : t.addr < tokens.length := by
  have hmem : t.addr ∈ tokens.map TokenNode.addr := List.mem_map_of_mem ht
  rwa [h.addrs, List.mem_reverse, List.mem_range] at hmem

theorem Valid.cons (h : Valid tokens) (haddr : t.addr = tokens.length)
    (hregion : ∀ t' ∈ tokens, t'.region ≠ t.region) : Valid (t :: tokens) := by
  constructor
  · rw [List.map_cons, h.addrs, haddr, List.length_cons, List.range_succ, List.reverse_append,
      List.reverse_singleton, List.singleton_append]
  · rw [List.map_cons, List.nodup_cons, List.mem_map]
    refine ⟨?_, h.regions⟩
    rintro ⟨t', ht', heq⟩
    exact hregion t' ht' heq

end Valid

/-- An assignment that leaves alone what tokens are found by. -/
structure Assigns (f : TokenNode → TokenNode) : Prop where
  addr : ∀ t, (f t).addr = t.addr
  region : ∀ t, (f t).region = t.region
  type : ∀ t, (f t).type = t.type
  twice : ∀ t, f (f t) = f t

theorem assigns_assignFme (r : FmeRegisters) : Assigns (assignFme r) where
  addr _ := rfl
  region _ := rfl
  type _ := rfl
  twice t := by cases h : r.compatId <;> simp [assignFme, h]

theorem assigns_assignPort (parent : Nat) (mmio : Mmio) (r : PortRegisters) :
    Assigns (assignPort parent mmio r) where
  addr t := by rw [assignPort]; split <;> rfl
  region t := by rw [assignPort]; split <;> rfl
  type t := by rw [assignPort]; split <;> rfl
  twice t := by
    cases h : r.stp with
    | none => simp [assignPort, h]
    | some s =>
      simp only [assignPort, h]
      rw [Vector.set_comm (i := 0) (j := 1) _ _ (by decide), Vector.set_set,
        Vector.set_comm (i := 1) (j := 0) _ _ (by decide), Vector.set_set]

theorem assignPort_parent (parent : Nat) (mmio : Mmio) (r : PortRegisters) (t : TokenNode) :
    (assignPort parent mmio r t).parent = some parent := by
  rw [assignPort]
  split <;> rfl

def newToken (p : PciDevice) (region : UInt32) (type : FpgaObjtype) (addr : Nat) : TokenNode where
  guid := Vector.replicate 16 0
  compatId := Vector.replicate 16 0
  device := p
  region := region
  userMmioCount := 0
  bitstreamId := 0
  numPorts := 0
  type := type
  addr := addr
  mmioSize := 0
  userMmio := Vector.replicate 8 0
  bitstreamMdata := 0
  parent := none
  reset := none

section GetToken

variable {mem : Nat → Bool} {p : PciDevice} {region : UInt32} {type : FpgaObjtype}
  {tokens : List TokenNode} {f : TokenNode → TokenNode}

theorem getToken_found (h : Valid tokens) {t : TokenNode} (ht : t ∈ tokens)
    (hr : t.region = region) : getToken mem p region type tokens = some (t.addr, tokens) := by
  rw [getToken, findToken]
  cases hf : tokens.find? fun t => t.region = region with
  | none =>
    have hnot := List.find?_eq_none.mp hf t ht
    exact absurd (decide_eq_true hr) hnot
  | some t' =>
    have hr' : t'.region = region := by simpa using List.find?_some hf
    rw [h.region_inj ht (List.mem_of_find?_eq_some hf) (hr.trans hr'.symm)]

theorem getToken_new (hr : ∀ t ∈ tokens, t.region ≠ region) :
    getToken mem p region type tokens =
      if mem tokens.length then
        some (tokens.length, newToken p region type tokens.length :: tokens)
      else none := by
  rw [getToken, findToken, List.find?_eq_none.mpr fun t ht => by simpa using hr t ht]
  rfl

theorem map_ite_self {P : TokenNode → Prop} [DecidablePred P]
    (hf : ∀ t ∈ tokens, P t → f t = t) : (tokens.map fun t => if P t then f t else t) = tokens := by
  conv_rhs => rw [← List.map_id tokens]
  apply List.map_congr_left
  intro t ht
  split
  case isTrue hp => exact hf t ht hp
  case isFalse => rfl

theorem setToken_found (h : Valid tokens) {t : TokenNode} (ht : t ∈ tokens) :
    setToken t.addr f tokens = tokens.map fun t' => if t'.region = t.region then f t' else t' := by
  rw [setToken]
  apply List.map_congr_left
  intro t' ht'
  have hiff : t'.addr = t.addr ↔ t'.region = t.region :=
    ⟨fun heq => by rw [h.addr_inj ht' ht heq], fun heq => by rw [h.region_inj ht' ht heq]⟩
  simp only [hiff]

theorem setToken_new (h : Valid tokens) {t : TokenNode} (ht : t.addr = tokens.length) :
    setToken tokens.length f (t :: tokens) = f t :: tokens := by
  rw [setToken, List.map_cons, if_pos ht]
  congr 1
  apply map_ite_self
  intro t' ht' haddr
  exact absurd haddr (Nat.ne_of_lt (h.addr_lt ht'))

theorem Valid.assign (h : Valid tokens) (hf : Assigns f) (region : UInt32) :
    Valid (tokens.map fun t => if t.region = region then f t else t) := by
  have haddr : (tokens.map fun t => if t.region = region then f t else t).map TokenNode.addr =
      tokens.map TokenNode.addr := by
    rw [List.map_map]
    apply List.map_congr_left
    intro t _
    dsimp only [Function.comp]
    split
    · exact hf.addr t
    · rfl
  have hregion : ((tokens.map fun t => if t.region = region then f t else t).map
      fun t => t.region) = tokens.map fun t => t.region := by
    rw [List.map_map]
    apply List.map_congr_left
    intro t _
    dsimp only [Function.comp]
    split
    · exact hf.region t
    · rfl
  refine ⟨?_, hregion ▸ h.regions⟩
  rw [haddr, h.addrs, List.length_map]

end GetToken

end OpaeLibs.PluginVfio.TokenList
