import OpaeLibs.Lib.Walks
import OpaeLibs.PluginVfio.DflWalk

namespace OpaeLibs.PluginVfio.DfhBounds

open OpaeLibs.Lib.Bytes OpaeLibs.Lib.Walks
open OpaeLibs.PluginVfio.Dfl OpaeLibs.PluginVfio.DflWalk

/-- The loops over headers: the one of `walk_fme` and the one of `walk_port`. -/
inductive DfhLoop
  | fme
  | port
deriving DecidableEq, Repr

def DfhLoop.breaks : DfhLoop → Dfh → Bool
  | .fme, _ => false
  | .port, r => r.id = portStpId

/-- What the header at the pointer reads as, wherever it lies. -/
def word (m : Mmio) : Dfh :=
  BitVec.ofNat 64 (ofLe ((List.range 8).map fun k => m.bar.byte (m.off + k)))

/-- The header that the loop visits next. -/
def next (l : DfhLoop) (m : Mmio) : Option Mmio :=
  if l.breaks (word m) then none else nextDfh m (word m)

/-- The loop visits no header that does not lie in the BAR, and it ends. -/
def StaysInBar (l : DfhLoop) (m : Mmio) : Prop :=
  (∀ m', Visits (next l) m m' → InBar m' 8) ∧ Finishes (next l) m

/-- Where `n` links from the offset on lead to. -/
def linkOff (bar : Bar) : Nat → Nat → Nat
  | off, 0 => off
  | off, n + 1 => linkOff bar (off + (word ⟨bar, off⟩).next.toNat) n

/-- The header ends its list, or the loop is done with it. -/
def isLast (l : DfhLoop) (r : Dfh) : Bool := r.eol || r.next = 0 || l.breaks r

theorem le_linkOff (bar : Bar) (off n : Nat) : off ≤ linkOff bar off n := by
  induction n generalizing off with
  | zero => exact Nat.le_refl off
  | succ n ih => exact Nat.le_trans (Nat.le_add_right off _) (ih _)

theorem next_eq_none_iff {l : DfhLoop} {m : Mmio} :
    next l m = none ↔ isLast l (word m) = true := by
  rw [next, isLast, nextDfh]
  cases l.breaks (word m) <;> cases (word m).eol <;> by_cases hzero : (word m).next = 0
  all_goals simp [hzero]

theorem next_eq_some {l : DfhLoop} {m m' : Mmio} (h : next l m = some m') :
    m' = ⟨m.bar, m.off + (word m).next.toNat⟩ := by
  rw [next] at h
  split at h
  · exact nomatch h
  · exact (nextDfh_eq_some h).2

theorem read64_eq {m : Mmio} {r : Dfh} : m.read64 = some r ↔ InBar m 8 ∧ word m = r := by
  rw [Mmio.read64, InBar]
  split
  · next h => exact ⟨fun hr => ⟨h, Option.some.inj hr⟩, fun hr => congrArg some hr.2⟩
  · next h => exact ⟨(fun h => by cases h), fun hr => absurd hr.1 h⟩

section

variable {l : DfhLoop} {m m' : Mmio}

theorem staysInBar_of_last (h : next l m = none) : StaysInBar l m ↔ InBar m 8 := by
  constructor
  · exact fun hs => hs.1 m (.refl m)
  · intro hin
    refine ⟨fun m' hm' => ?_, .stop h⟩
    rw [visits_of_stop h hm']
    exact hin

theorem staysInBar_of_next (h : next l m = some m') :
    StaysInBar l m ↔ InBar m 8 ∧ StaysInBar l m' := by
  constructor
  · rintro ⟨hin, hends⟩
    exact ⟨hin m (.refl m), fun m'' hm'' => hin m'' (.head h hm''), (finishes_congr h).mp hends⟩
  · rintro ⟨hin, hrest, hends⟩
    refine ⟨fun m'' hm'' => ?_, (finishes_congr h).mpr hends⟩
    obtain rfl | hm'' := visits_of_go h hm''
    · exact hin
    · exact hrest m'' hm''

/-- The loop stays in the BAR exactly if a last header does that is some number of links away. -/
theorem stays_in_bar_iff (l : DfhLoop) (m : Mmio) :
    StaysInBar l m ↔ ∃ n, linkOff m.bar m.off n + 8 ≤ m.bar.size ∧
      isLast l (word ⟨m.bar, linkOff m.bar m.off n⟩) = true := by
  constructor
  · rintro ⟨hin, hends⟩
    induction hends with
    | @stop m hlast => exact ⟨0, hin m (.refl m), next_eq_none_iff.mp hlast⟩
    | @go m m' hnext _ ih =>
      obtain ⟨n, hn⟩ := ih fun m'' hm'' => hin m'' (.head hnext hm'')
      obtain rfl := next_eq_some hnext
      exact ⟨n + 1, hn⟩
  · rintro ⟨n, hin, hlast⟩
    induction n generalizing m with
    | zero => exact (staysInBar_of_last (next_eq_none_iff.mpr hlast)).mpr hin
    | succ n ih =>
      have hhere : InBar m 8 := by
        have hle := le_linkOff m.bar m.off (n + 1)
        rw [InBar]
        omega
      cases hnext : next l m with
      | none => exact (staysInBar_of_last hnext).mpr hhere
      | some m' =>
        rw [staysInBar_of_next hnext]
        obtain rfl := next_eq_some hnext
        exact ⟨hhere, ih _ hin hlast⟩

theorem listEnds_iff {ok : Mmio → Dfh → Prop} :
    ListEnds (fun r => l.breaks r = true) ok m ↔
      StaysInBar l m ∧ ∀ m', Visits (next l) m m' → ok m' (word m') := by
  constructor
  · intro h
    induction h with
    | @stop m r hr hok hbreaks =>
      obtain ⟨hin, rfl⟩ := read64_eq.mp hr
      have hlast : next l m = none := if_pos hbreaks
      refine ⟨(staysInBar_of_last hlast).mpr hin, fun m' hm' => ?_⟩
      rw [visits_of_stop hlast hm']
      exact hok
    | @last m r hr hok hnone =>
      obtain ⟨hin, rfl⟩ := read64_eq.mp hr
      have hlast : next l m = none := by
        rw [next, hnone]
        exact ite_self none
      refine ⟨(staysInBar_of_last hlast).mpr hin, fun m' hm' => ?_⟩
      rw [visits_of_stop hlast hm']
      exact hok
    | @next m m' r hr hok hn _ ih =>
      obtain ⟨hin, rfl⟩ := read64_eq.mp hr
      cases hnext : next l m with
      | none =>
        refine ⟨(staysInBar_of_last hnext).mpr hin, fun m'' hm'' => ?_⟩
        rw [visits_of_stop hnext hm'']
        exact hok
      | some m₁ =>
        obtain rfl : m₁ = m' := (next_eq_some hnext).trans (nextDfh_eq_some hn).2.symm
        refine ⟨(staysInBar_of_next hnext).mpr ⟨hin, ih.1⟩, fun m'' hm'' => ?_⟩
        obtain rfl | hm'' := visits_of_go hnext hm''
        · exact hok
        · exact ih.2 m'' hm''
  · rintro ⟨⟨hin, hends⟩, hok⟩
    induction hends with
    | @stop m hlast =>
      have hr := read64_eq.mpr ⟨hin m (.refl m), rfl⟩
      by_cases hbreaks : l.breaks (word m) = true
      · exact .stop hr (hok m (.refl m)) hbreaks
      · rw [next, if_neg hbreaks] at hlast
        exact .last hr (hok m (.refl m)) hlast
    | @go m m' hnext _ ih =>
      have hr := read64_eq.mpr ⟨hin m (.refl m), rfl⟩
      have hn := hnext
      rw [next] at hn
      split at hn
      · exact nomatch hn
      · exact .next hr (hok m (.refl m)) hn (ih (fun m'' hm'' => hok m'' (.head hnext hm''))
          fun m'' hm'' => hin m'' (.head hnext hm''))

end

theorem isSome_forEachDfh_stp (m : Mmio) :
    (forEachDfh stpBody m none).isSome ↔ StaysInBar .port m := by
  have hbreaks : (fun r : Dfh => r.id = portStpId) = fun r => DfhLoop.port.breaks r = true := by
    funext r
    rw [DfhLoop.breaks, decide_eq_true_eq]
  rw [steps_stpBody.isSome_forEachDfh, hbreaks, listEnds_iff]
  exact and_iff_left fun _ _ => trivial

theorem isSome_forEachDfh_compat (m : Mmio) :
    (forEachDfh compatBody m none).isSome ↔ StaysInBar .fme m ∧ ∀ m', Visits (next .fme) m m' →
      (word m').id = prFeatureId → InBar (m'.shift prIntfcIdLo) 16 := by
  have hbreaks : (fun _ : Dfh => False) = fun r => DfhLoop.fme.breaks r = true := by
    funext r
    rw [DfhLoop.breaks]
    exact (eq_false Bool.false_ne_true).symm
  rw [steps_compatBody.isSome_forEachDfh, hbreaks, listEnds_iff]

section Sample

def sampleBar : Bar := ⟨4096, by decide, fun k => if k = 3 then 0x10 else 0⟩

theorem link_leaves_bar :
    (∀ l, next l ⟨sampleBar, 0⟩ = some ⟨sampleBar, 4096⟩) ∧ ¬InBar ⟨sampleBar, 4096⟩ 8 ∧
      ∀ l, ¬StaysInBar l ⟨sampleBar, 0⟩ := by
  have hword : word ⟨sampleBar, 0⟩ = 0x10000000 := by decide
  have hnext : ∀ l, next l ⟨sampleBar, 0⟩ = some ⟨sampleBar, 4096⟩ := by
    intro l
    rw [next, hword]
    cases l <;> rfl
  have hout : ¬InBar ⟨sampleBar, 4096⟩ 8 := Nat.not_le.mpr (by decide)
  exact ⟨hnext, hout, fun l h => hout (h.1 _ (.head (hnext l) (.refl _)))⟩

end Sample

end OpaeLibs.PluginVfio.DfhBounds
