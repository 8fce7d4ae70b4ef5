import OpaeLibs.PluginXfpga.UserClockIopll

namespace OpaeLibs.PluginXfpga.IopllWrites

open OpaeLibs.Lib.Bytes OpaeLibs.Lib.Loops
open OpaeLibs.OpaeC.Props
open OpaeLibs.PluginXfpga.SysfsWords OpaeLibs.PluginXfpga.UserClockIopll

/-- What has come to a file, and the number of writes. -/
structure Sink where
  calls : Nat
  received : List UInt8

/-- A file with the outcomes of its writes: each fails, or takes as many bytes as there are. -/
def scripted (opens : Option Nat) (outcomes : Nat → Option Nat) : Files Sink where
  openFile _ s := (opens, s)
  lseek _ s := (true, s)
  read _ _ s := (none, s)
  write _ bytes s :=
    match outcomes s.calls with
    | none => (none, { s with calls := s.calls + 1 })
    | some n =>
      (some ⟨min n bytes.length, Nat.min_le_right n bytes.length⟩,
        { calls := s.calls + 1, received := s.received ++ bytes.take n })
  close _ s := s

/-- The `n` writes from the write `k` on do not fail and may take `cnt` bytes. -/
def CoversIn (outcomes : Nat → Option Nat) (n k cnt : Nat) : Prop :=
  (∀ i < n, (outcomes (k + i)).isSome) ∧
    cnt ≤ ((List.range' k n).map fun i => (outcomes i).getD 0).sum

instance (outcomes : Nat → Option Nat) (n k cnt : Nat) : Decidable (CoversIn outcomes n k cnt) :=
  inferInstanceAs (Decidable (_ ∧ _))

section Covers

variable {outcomes : Nat → Option Nat} {n k cnt : Nat}

theorem coversIn_zero : CoversIn outcomes 0 k cnt ↔ cnt = 0 :=
  ⟨fun h => Nat.le_zero.mp h.2, fun h => ⟨nofun, Nat.le_of_eq h⟩⟩

theorem coversIn_succ : CoversIn outcomes (n + 1) k cnt ↔
    ∃ m, outcomes k = some m ∧ CoversIn outcomes n (k + 1) (cnt - m) := by
  have hsum : ∀ m, outcomes k = some m →
      ((List.range' k (n + 1)).map fun i => (outcomes i).getD 0).sum =
        m + ((List.range' (k + 1) n).map fun i => (outcomes i).getD 0).sum := by
    intro m hm
    rw [List.range'_succ, List.map_cons, List.sum_cons, hm, Option.getD_some]
  constructor
  · rintro ⟨hall, hcnt⟩
    obtain ⟨m, hm⟩ := Option.isSome_iff_exists.mp (hall 0 n.succ_pos)
    rw [Nat.add_zero] at hm
    rw [hsum m hm] at hcnt
    refine ⟨m, hm, fun i hi => ?_, by omega⟩
    rw [Nat.add_assoc, Nat.add_comm 1 i]
    exact hall (i + 1) (by omega)
  · rintro ⟨m, hm, hall, hcnt⟩
    refine ⟨fun i hi => ?_, by rw [hsum m hm]; omega⟩
    cases i with
    | zero =>
      rw [Nat.add_zero, hm]
      rfl
    | succ i =>
      rw [Nat.add_comm i 1, ← Nat.add_assoc]
      exact hall i (by omega)

theorem coversIn_one {m : Nat} (h : outcomes k = some m) (hle : cnt ≤ m) :
    CoversIn outcomes 1 k cnt :=
  coversIn_succ.mpr ⟨m, h, coversIn_zero.mpr (Nat.sub_eq_zero_of_le hle)⟩

end Covers

section Writes

variable {opens : Option Nat} {outcomes : Nat → Option Nat} {fd n : Nat} {rest : List UInt8}
  {s s' : Sink}

theorem writeStep_none (h : outcomes s.calls = none) :
    writeStep (scripted opens outcomes) fd (rest, s) =
      some (.inr { s with calls := s.calls + 1 }) := by
  simp only [writeStep, scripted, h]

theorem writeStep_last (h : outcomes s.calls = some n) (hle : rest.length ≤ n) :
    writeStep (scripted opens outcomes) fd (rest, s) =
      some (.inr ⟨s.calls + 1, s.received ++ rest⟩) := by
  simp only [writeStep, scripted, h]
  rw [if_pos (by omega), List.take_of_length_le hle]

theorem writeStep_next (h : outcomes s.calls = some n) (hlt : n < rest.length) :
    writeStep (scripted opens outcomes) fd (rest, s) =
      some (.inl (rest.drop n, ⟨s.calls + 1, s.received ++ rest.take n⟩)) := by
  simp only [writeStep, scripted, h]
  rw [if_neg (by omega), Nat.min_eq_left (by omega)]

theorem covers_of_ends {p : List UInt8 × Sink}
    (h : Ends (writeStep (scripted opens outcomes) fd) p s') (hrest : p.1 ≠ [])
    (hall : s'.received = p.2.received ++ p.1) :
    ∃ n, CoversIn outcomes n p.2.calls p.1.length := by
  induction h with
  | @done p s' hstep =>
    obtain ⟨rest, s⟩ := p
    cases hout : outcomes s.calls with
    | none =>
      rw [writeStep_none hout] at hstep
      obtain rfl := Sum.inr.inj (Option.some.inj hstep)
      exact absurd (List.self_eq_append_right.mp hall) hrest
    | some n =>
      rcases Nat.lt_or_ge n rest.length with hlt | hle
      · rw [writeStep_next hout hlt] at hstep
        exact nomatch Option.some.inj hstep
      · exact ⟨1, coversIn_one hout hle⟩
  | @next p q s' hstep _ ih =>
    obtain ⟨rest, s⟩ := p
    cases hout : outcomes s.calls with
    | none =>
      rw [writeStep_none hout] at hstep
      exact nomatch Option.some.inj hstep
    | some n =>
      rcases Nat.lt_or_ge n rest.length with hlt | hle
      · rw [writeStep_next hout hlt] at hstep
        obtain rfl := Sum.inl.inj (Option.some.inj hstep)
        have hdrop : rest.drop n ≠ [] := by
          rw [← List.length_pos_iff, List.length_drop]
          omega
        obtain ⟨m, hm⟩ := ih hdrop (by rw [hall, List.append_assoc, List.take_append_drop])
        rw [List.length_drop] at hm
        exact ⟨m + 1, coversIn_succ.mpr ⟨n, hout, hm⟩⟩
      · exact ⟨1, coversIn_one hout hle⟩

theorem ends_of_covers (opens : Option Nat) (fd : Nat) {n : Nat}
    (h : CoversIn outcomes n s.calls rest.length) (hrest : rest ≠ []) :
    ∃ s', Ends (writeStep (scripted opens outcomes) fd) (rest, s) s' ∧
      s'.received = s.received ++ rest := by
  induction n generalizing rest s with
  | zero => exact absurd (List.length_eq_zero_iff.mp (coversIn_zero.mp h)) hrest
  | succ n ih =>
    obtain ⟨m, hout, hm⟩ := coversIn_succ.mp h
    rcases Nat.lt_or_ge m rest.length with hlt | hle
    · have hdrop : rest.drop m ≠ [] := by
        rw [← List.length_pos_iff, List.length_drop]
        omega
      rw [← List.length_drop] at hm
      obtain ⟨s', hends, hall⟩ := ih (s := ⟨s.calls + 1, s.received ++ rest.take m⟩) hm hdrop
      refine ⟨s', .next (writeStep_next hout hlt) hends, ?_⟩
      rw [hall, List.append_assoc, List.take_append_drop]
    · exact ⟨_, .done (writeStep_last hout hle), rfl⟩

end Writes

theorem length_configBytes (c : IopllFreq.IopllConfig) : (configBytes c).length = 32 := by
  simp only [configBytes, List.length_flatMap, toLe_length]
  rfl

section Setting

variable {search : Search} {fpll : UInt64 → Sink → FpgaResult × Sink} {sysfsPath path : String}
  {userclkHigh userclkLow : UInt64} {opens : Option Nat} {outcomes : Nat → Option Nat}

theorem setUserclock_eq_some_iff (fpll : UInt64 → Sink → FpgaResult × Sink)
    (userclkHigh : UInt64) (opens : Option Nat) (outcomes : Nat → Option Nat) (n : Nat)
    (r : FpgaResult) (s s' : Sink) (hdevice : usingIopll search sysfsPath = (.ok, path))
    (hlow : userclkLow ≤ iopllMaxFreq ∧ iopllMinFreq ≤ userclkLow) :
    setUserclock (scripted opens outcomes) search fpll n (some sysfsPath) userclkHigh userclkLow s =
        some (r, s') ↔
      (opens = none ∧ r = .notFound ∧ s' = s) ∨
        ∃ fd, opens = some fd ∧ r = .ok ∧ loop (writeStep (scripted opens outcomes) fd) n
          (configBytes (freqConfig userclkLow hlow), s) = some s' := by
  rw [setUserclock, hdevice]
  dsimp only
  rw [dif_pos hlow]
  cases hopens : opens with
  | none =>
    rw [scripted]
    refine ⟨fun h => ?_, ?_⟩
    · obtain ⟨rfl, rfl⟩ := Prod.mk.inj (Option.some.inj h)
      exact .inl ⟨rfl, rfl, rfl⟩
    · rintro (⟨-, rfl, rfl⟩ | ⟨fd, hfd, -⟩)
      · rfl
      · exact nomatch hfd
  | some fd =>
    refine Option.map_eq_some_iff.trans ⟨?_, ?_⟩
    · rintro ⟨t, hloop, heq⟩
      obtain ⟨rfl, rfl⟩ := Prod.mk.inj heq
      exact .inr ⟨fd, rfl, rfl, hloop⟩
    · rintro (⟨hnone, -⟩ | ⟨fd', hfd, rfl, hloop⟩)
      · exact nomatch hnone
      · obtain rfl := Option.some.inj hfd
        exact ⟨s', hloop, rfl⟩

/-- Within finitely many writes, either the configuration is received as a whole or an error is
returned. -/
def AllOrNothing (config : List UInt8) (run : Nat → Option (FpgaResult × Sink)) : Prop :=
  ∃ n r s, run n = some (r, s) ∧ (r = .ok ↔ s.received = config)

theorem allOrNothing_iff (hdevice : usingIopll search sysfsPath = (.ok, path))
    (hlow : userclkLow ≤ iopllMaxFreq ∧ iopllMinFreq ≤ userclkLow) :
    AllOrNothing (configBytes (freqConfig userclkLow hlow)) (fun n =>
        setUserclock (scripted opens outcomes) search fpll n (some sysfsPath) userclkHigh
          userclkLow ⟨0, []⟩) ↔
      opens = none ∨ ∃ n, CoversIn outcomes n 0 32 := by
  have hconfig := length_configBytes (freqConfig userclkLow hlow)
  have hne : configBytes (freqConfig userclkLow hlow) ≠ [] := by
    rw [← List.length_pos_iff, hconfig]
    decide
  have hrun := fun n r s =>
    setUserclock_eq_some_iff fpll userclkHigh opens outcomes n r ⟨0, []⟩ s hdevice hlow
  constructor
  · rintro ⟨n, r, s, hsome, hr⟩
    rcases (hrun n r s).mp hsome with ⟨hnone, -⟩ | ⟨fd, -, rfl, hloop⟩
    · exact .inl hnone
    · have hcovers := covers_of_ends (Ends.of_loop hloop) hne (hr.mp rfl)
      rw [hconfig] at hcovers
      exact .inr hcovers
  · intro h
    cases hopens : opens with
    | none =>
      rw [hopens] at hrun
      exact ⟨0, .notFound, _, (hrun _ _ _).mpr (.inl ⟨rfl, rfl, rfl⟩), nofun,
        fun h => absurd h.symm hne⟩
    | some fd =>
      rw [hopens] at h hrun
      obtain ⟨n, hcovers⟩ := h.resolve_left nofun
      rw [← hconfig] at hcovers
      obtain ⟨s', hends, hall⟩ := ends_of_covers (some fd) fd (s := ⟨0, []⟩) hcovers hne
      obtain ⟨m, hloop⟩ := exists_loop_iff_ends.mpr hends
      exact ⟨m, .ok, s', (hrun _ _ _).mpr (.inr ⟨fd, rfl, rfl, hloop⟩), fun _ => hall, fun _ => rfl⟩

end Setting

theorem iopll_set_iff (search : Search) (fpll : UInt64 → Sink → FpgaResult × Sink)
    (sysfsPath path : String) (userclkHigh userclkLow : UInt64) (opens : Option Nat)
    (outcomes : Nat → Option Nat) (hdevice : usingIopll search sysfsPath = (.ok, path))
    (hlow : userclkLow ≤ iopllMaxFreq ∧ iopllMinFreq ≤ userclkLow) :
    AllOrNothing (configBytes (freqConfig userclkLow hlow)) (fun n =>
        setUserclock (scripted opens outcomes) search fpll n (some sysfsPath) userclkHigh
          userclkLow ⟨0, []⟩) ↔
      opens = none ∨ ∃ n, CoversIn outcomes n 0 32 :=
  allOrNothing_iff hdevice hlow

def oneFile : Search := ⟨fun _ => ["/dfl-port.0/userclk/frequency"], fun _ => true⟩

theorem iopll_set_short_writes :
    AllOrNothing (configBytes (freqConfig 100 (by decide))) (fun n =>
      setUserclock (scripted (some 3) fun k => if k = 1 then some 0 else some 16) oneFile
        (fun _ s => (.ok, s)) n (some "/sys") 200 100 ⟨0, []⟩) :=
  (iopll_set_iff oneFile (fun _ s => (.ok, s)) "/sys" _ 200 100 (some 3) _ rfl (by decide)).mpr
    (.inr ⟨3, by decide⟩)

/-- The first write fails, and nothing is received. -/
theorem iopll_set_failing_write :
    ¬AllOrNothing (configBytes (freqConfig 100 (by decide))) (fun n =>
      setUserclock (scripted (some 3) fun _ => none) oneFile (fun _ s => (.ok, s)) n (some "/sys")
        200 100 ⟨0, []⟩) := by
  intro h
  obtain hnone | ⟨n, hcovers⟩ := (allOrNothing_iff rfl (by decide)).mp h
  · exact nomatch hnone
  · cases n with
    | zero => exact nomatch coversIn_zero.mp hcovers
    | succ n =>
      obtain ⟨m, hm, -⟩ := coversIn_succ.mp hcovers
      exact nomatch hm

end OpaeLibs.PluginXfpga.IopllWrites
