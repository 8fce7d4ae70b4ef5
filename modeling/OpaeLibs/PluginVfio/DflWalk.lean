import OpaeLibs.PluginVfio.Dfl

namespace OpaeLibs.PluginVfio.DflWalk

open OpaeLibs.Lib.Loops
open OpaeLibs.OpaeC.Props OpaeLibs.PluginVfio.Properties OpaeLibs.PluginVfio.Dfl

def InBar (m : Mmio) (n : Nat) : Prop := m.off + n ≤ m.bar.size

theorem isSome_read64 (m : Mmio) : m.read64.isSome ↔ InBar m 8 := by
  rw [Mmio.read64, InBar]
  split
  case isTrue h => exact iff_of_true rfl h
  case isFalse h => exact iff_of_false nofun h

theorem isSome_read64_shift (m : Mmio) (x : Nat) :
    (m.shift x).read64.isSome ↔ InBar m (x + 8) := by
  rw [isSome_read64, InBar, InBar, Mmio.shift, Nat.add_assoc]

theorem InBar.mono {m : Mmio} {n n' : Nat} (h : InBar m n) (hle : n' ≤ n) : InBar m n' :=
  Nat.le_trans (Nat.add_le_add_left hle _) h

theorem InBar.read {m : Mmio} {n : Nat} (h : InBar m n) {x : Nat} (hx : x + 8 ≤ n) :
    ∃ r, (m.shift x).read64 = some r :=
  Option.isSome_iff_exists.mp ((isSome_read64_shift m x).mpr (h.mono hx))

theorem InBar.of_read {m : Mmio} {x : Nat} {r : BitVec 64} (h : (m.shift x).read64 = some r) :
    InBar m (x + 8) := by
  rw [← isSome_read64_shift, h]
  rfl

theorem isSome_getGuid (m : Mmio) : (getGuid m).isSome ↔ InBar m 16 := by
  constructor
  · intro h
    obtain ⟨guid, hg⟩ := Option.isSome_iff_exists.mp h
    simp only [getGuid, Option.bind_eq_bind, Option.bind_eq_some_iff] at hg
    obtain ⟨-, -, hi, hhi, -⟩ := hg
    exact InBar.of_read hhi
  · intro h
    obtain ⟨lo, hlo⟩ := h.read (x := 0) (by decide)
    obtain ⟨hi, hhi⟩ := h.read (x := 8) (by decide)
    have hzero : m.shift 0 = m := rfl
    rw [hzero] at hlo
    simp [getGuid, hlo, hhi]

/-- From `h` on the headers lie in the BAR, up to one that stops the loop or has no next; `ok` is
what the loop's body needs at each. -/
inductive ListEnds (stop : Dfh → Prop) (ok : Mmio → Dfh → Prop) : Mmio → Prop
  | stop {h r} : h.read64 = some r → ok h r → stop r → ListEnds stop ok h
  | last {h r} : h.read64 = some r → ok h r → nextDfh h r = none → ListEnds stop ok h
  | next {h h' r} : h.read64 = some r → ok h r → nextDfh h r = some h' → ListEnds stop ok h' →
      ListEnds stop ok h

section Loop

variable {σ : Type} {body : Mmio → Dfh → σ → Option (Bool × σ)}

theorem nextDfh_eq_some {h h' : Mmio} {r : Dfh} (hn : nextDfh h r = some h') :
    0 < r.next.toNat ∧ h' = h.shift r.next.toNat := by
  rw [nextDfh] at hn
  split at hn
  case isTrue hc =>
    refine ⟨?_, (Option.some.inj hn).symm⟩
    rw [Nat.pos_iff_ne_zero]
    exact fun h0 => hc.1 (BitVec.eq_of_toNat_eq h0)
  case isFalse => exact absurd hn nofun

theorem dfhRound_eq_next {h h' : Mmio} {s s' : σ} :
    dfhRound body (h, s) = some (.inl (h', s')) ↔
      ∃ r, h.read64 = some r ∧ body h r s = some (false, s') ∧ nextDfh h r = some h' := by
  rw [dfhRound]
  cases hr : h.read64 with
  | none => simp
  | some r =>
    cases hb : body h r s with
    | none => simp [hb]
    | some res =>
      obtain ⟨stop, t⟩ := res
      cases hn : nextDfh h r <;> cases stop <;> simp [hb, hn, and_comm]

theorem dfhRound_eq_done {h : Mmio} {s s' : σ} :
    dfhRound body (h, s) = some (.inr s') ↔
      ∃ r stop, h.read64 = some r ∧ body h r s = some (stop, s') ∧
        (stop = true ∨ nextDfh h r = none) := by
  rw [dfhRound]
  cases hr : h.read64 with
  | none => simp
  | some r =>
    cases hb : body h r s with
    | none => simp [hb]
    | some res =>
      obtain ⟨stop, t⟩ := res
      cases hn : nextDfh h r <;> cases stop <;> simp [hb, hn]

theorem dfhRound_falls (q q' : Mmio × σ) (h : dfhRound body q = some (.inl q')) :
    q'.1.bar.size - q'.1.off < q.1.bar.size - q.1.off := by
  obtain ⟨r, hr, -, hn⟩ := dfhRound_eq_next.mp h
  obtain ⟨hpos, hshift⟩ := nextDfh_eq_some hn
  have hin := (isSome_read64 q.1).mp (by rw [hr]; rfl)
  rw [InBar] at hin
  rw [hshift, Mmio.shift]
  dsimp only
  omega

theorem forEachDfh_eq_some_iff {h : Mmio} {s s' : σ} :
    forEachDfh body h s = some s' ↔ Ends (dfhRound body) (h, s) s' :=
  loop_eq_some_iff dfhRound_falls (by dsimp only; omega)

/-- Where `ok` holds the body has an outcome, which breaks just where `stop` does. -/
def Steps (body : Mmio → Dfh → σ → Option (Bool × σ)) (stop : Dfh → Prop)
    (ok : Mmio → Dfh → Prop) : Prop :=
  ∀ h r s, (ok h r ∧ ∃ b s', body h r s = some (b, s') ∧ (b = true ↔ stop r)) ∨
    (¬ ok h r ∧ body h r s = none)

variable {stop : Dfh → Prop} {ok : Mmio → Dfh → Prop}

theorem Steps.of_eq_some (hb : Steps body stop ok) {h : Mmio} {r : Dfh} {s s' : σ} {b : Bool}
    (he : body h r s = some (b, s')) : ok h r ∧ (b = true ↔ stop r) := by
  obtain ⟨hok, b', s'', he', hstop⟩ | ⟨-, hnone⟩ := hb h r s
  · obtain ⟨rfl, -⟩ := Prod.mk.inj (Option.some.inj (he.symm.trans he'))
    exact ⟨hok, hstop⟩
  · rw [he] at hnone
    exact absurd hnone nofun

theorem Steps.listEnds (hb : Steps body stop ok) {q : Mmio × σ} {s' : σ}
    (he : Ends (dfhRound body) q s') : ListEnds stop ok q.1 := by
  induction he with
  | @done q s' hs =>
    obtain ⟨r, b, hr, hbody, hend⟩ := dfhRound_eq_done.mp hs
    obtain ⟨hok, hstop⟩ := hb.of_eq_some hbody
    obtain hb | hn := hend
    · exact .stop hr hok (hstop.mp hb)
    · exact .last hr hok hn
  | @next q q' s' hs _ ih =>
    obtain ⟨r, hr, hbody, hn⟩ := dfhRound_eq_next.mp hs
    exact .next hr (hb.of_eq_some hbody).1 hn ih

theorem Steps.ends (hb : Steps body stop ok) {h : Mmio} (he : ListEnds stop ok h) (s : σ) :
    ∃ s', Ends (dfhRound body) (h, s) s' := by
  induction he generalizing s with
  | @stop h r hr hok hs =>
    obtain ⟨-, b, s', hbody, hstop⟩ | ⟨hnot, -⟩ := hb h r s
    · exact ⟨s', .done (dfhRound_eq_done.mpr ⟨r, b, hr, hbody, .inl (hstop.mpr hs)⟩)⟩
    · exact absurd hok hnot
  | @last h r hr hok hn =>
    obtain ⟨-, b, s', hbody, -⟩ | ⟨hnot, -⟩ := hb h r s
    · exact ⟨s', .done (dfhRound_eq_done.mpr ⟨r, b, hr, hbody, .inr hn⟩)⟩
    · exact absurd hok hnot
  | @next h h' r hr hok hn _ ih =>
    obtain ⟨-, b, s', hbody, -⟩ | ⟨hnot, -⟩ := hb h r s
    · cases b with
      | true => exact ⟨s', .done (dfhRound_eq_done.mpr ⟨r, true, hr, hbody, .inl rfl⟩)⟩
      | false =>
        obtain ⟨t, ht⟩ := ih s'
        exact ⟨t, .next (dfhRound_eq_next.mpr ⟨r, hr, hbody, hn⟩) ht⟩
    · exact absurd hok hnot

theorem Steps.isSome_forEachDfh (hb : Steps body stop ok) (h : Mmio) (s : σ) :
    (forEachDfh body h s).isSome ↔ ListEnds stop ok h := by
  simp only [Option.isSome_iff_exists, forEachDfh_eq_some_iff]
  exact ⟨fun ⟨_, he⟩ => hb.listEnds he, fun he => hb.ends he s⟩

end Loop

/-- The list from a port on, as far as the search for the STP goes. -/
def StpListEnds (mmio : Mmio) : Prop :=
  ListEnds (fun r => r.id = portStpId) (fun _ _ => True) mmio

/-- The list of an FME, where each PR feature has its interface id. -/
def PrListEnds (mmio : Mmio) : Prop :=
  ListEnds (fun _ => False) (fun h r => r.id = prFeatureId → InBar (h.shift prIntfcIdLo) 16) mmio

theorem steps_stpBody : Steps stpBody (fun r => r.id = portStpId) fun _ _ => True := by
  intro h r stp
  left
  rw [stpBody]
  split
  case isTrue hid => exact ⟨trivial, true, some h, rfl, iff_of_true rfl hid⟩
  case isFalse hid => exact ⟨trivial, false, stp, rfl, iff_of_false nofun hid⟩

theorem steps_compatBody : Steps compatBody (fun _ => False)
    fun h r => r.id = prFeatureId → InBar (h.shift prIntfcIdLo) 16 := by
  intro h r compatId
  rw [compatBody]
  split
  case isTrue hid =>
    cases hg : getGuid (h.shift prIntfcIdLo) with
    | none =>
      refine .inr ⟨fun hin => ?_, rfl⟩
      have hsome := (isSome_getGuid _).mpr (hin hid)
      rw [hg] at hsome
      exact absurd hsome nofun
    | some guid =>
      refine .inl ⟨fun _ => ?_, false, some guid, rfl, iff_of_false nofun id⟩
      rw [← isSome_getGuid, hg]
      rfl
  case isFalse hid =>
    exact .inl ⟨fun h => absurd h hid, false, compatId, rfl, iff_of_false nofun id⟩

/-- The registers of a port, the first three of its AFU and its list are in the BAR. -/
structure PortInBar (mmio : Mmio) : Prop where
  registers : InBar mmio 0x40
  afu : ∀ nextAfu, (mmio.shift portNextAfu).read64 = some nextAfu →
    InBar (mmio.shift (portAfuDfhOffset nextAfu).toNat) 0x18
  list : StpListEnds mmio

structure FmeInBar (mmio : Mmio) : Prop where
  registers : InBar mmio 0x70
  list : PrListEnds mmio

theorem shift_inBar {m : Mmio} {x n : Nat} : InBar (m.shift x) n ↔ InBar m (x + n) := by
  rw [InBar, InBar, Mmio.shift, Nat.add_assoc]

theorem isSome_readPort (mmio : Mmio) : (readPort mmio).isSome ↔ PortInBar mmio := by
  constructor
  · intro h
    obtain ⟨r, hr⟩ := Option.isSome_iff_exists.mp h
    simp only [readPort, legacyPortReset, Option.bind_eq_bind, Option.bind_eq_some_iff,
      exists_and_left] at hr
    obtain ⟨nextAfu, hnext, -, -, ⟨control, hcontrol, -⟩, -, guid, hguid, stp, hstp, -⟩ := hr
    refine ⟨InBar.of_read hcontrol, fun r hr => ?_, ?_⟩
    · obtain rfl := Option.some.inj (hnext.symm.trans hr)
      have hafu := (isSome_getGuid _).mp (by rw [hguid]; rfl)
      exact shift_inBar.mp hafu
    · exact (steps_stpBody.isSome_forEachDfh mmio none).mp (by rw [hstp]; rfl)
  · intro h
    obtain ⟨nextAfu, hnext⟩ := h.registers.read (x := portNextAfu) (by decide)
    obtain ⟨cap, hcap⟩ := h.registers.read (x := portCapability) (by decide)
    obtain ⟨control, hcontrol⟩ := h.registers.read (x := portControl) (by decide)
    obtain ⟨guid, hguid⟩ := Option.isSome_iff_exists.mp
      ((isSome_getGuid _).mpr (shift_inBar.mpr (h.afu nextAfu hnext)))
    obtain ⟨stp, hstp⟩ := Option.isSome_iff_exists.mp
      ((steps_stpBody.isSome_forEachDfh mmio none).mpr h.list)
    simp [readPort, legacyPortReset, hnext, hcap, hcontrol, hguid, hstp]

theorem isSome_readFme (mmio : Mmio) : (readFme mmio).isSome ↔ FmeInBar mmio := by
  constructor
  · intro h
    obtain ⟨r, hr⟩ := Option.isSome_iff_exists.mp h
    simp only [readFme, Option.bind_eq_bind, Option.bind_eq_some_iff] at hr
    obtain ⟨guid, -, id, -, mdata, hmdata, cap, -, compatId, hcompat, -⟩ := hr
    exact ⟨InBar.of_read hmdata,
      (steps_compatBody.isSome_forEachDfh mmio none).mp (by rw [hcompat]; rfl)⟩
  · intro h
    obtain ⟨guid, hguid⟩ := Option.isSome_iff_exists.mp
      ((isSome_getGuid (mmio.shift 8)).mpr (shift_inBar.mpr (h.registers.mono (by decide))))
    obtain ⟨id, hid⟩ := h.registers.read (x := bitstreamIdReg) (by decide)
    obtain ⟨mdata, hmdata⟩ := h.registers.read (x := bitstreamMd) (by decide)
    obtain ⟨cap, hcap⟩ := h.registers.read (x := fabCapability) (by decide)
    obtain ⟨compatId, hcompat⟩ := Option.isSome_iff_exists.mp
      ((steps_compatBody.isSome_forEachDfh mmio none).mpr h.list)
    simp [readFme, hguid, hid, hmdata, hcap, hcompat]

end OpaeLibs.PluginVfio.DflWalk
