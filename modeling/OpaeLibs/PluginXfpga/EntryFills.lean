import OpaeLibs.PluginXfpga.Thresholds

namespace OpaeLibs.PluginXfpga.EntryFills

open OpaeLibs.OpaeC.Props OpaeLibs.PluginXfpga.Thresholds

variable {T : Type} {step : Nat → Option (FpgaResult × Option (T → Option T))} {n i : Nat}
  {result : FpgaResult} {entries : List T}

theorem forall_lt_succ_iff {p : Nat → Prop} :
    (∀ k < n + 1, p (i + k)) ↔ p i ∧ ∀ k < n, p (i + 1 + k) := by
  constructor
  · intro h
    refine ⟨h 0 (Nat.succ_pos n), fun k hk => ?_⟩
    rw [Nat.add_assoc, Nat.add_comm 1]
    exact h (k + 1) (Nat.succ_lt_succ hk)
  · rintro ⟨hzero, hsucc⟩ k hk
    cases k with
    | zero => exact hzero
    | succ k =>
      rw [Nat.add_comm k, ← Nat.add_assoc]
      exact hsucc k (Nat.lt_of_succ_lt_succ hk)

theorem fillEntries_keeps {out : FpgaResult × List T} {k : Nat}
    (h : fillEntries step n i result entries = some out) (hk : k < i) :
    out.2[k]? = entries[k]? := by
  induction n generalizing i result entries with
  | zero =>
    cases h
    rfl
  | succ n ih =>
    rw [fillEntries] at h
    obtain ⟨⟨res, fill⟩, -, h⟩ := Option.bind_eq_some_iff.mp h
    cases fill with
    | none => exact ih h (Nat.lt_succ_of_lt hk)
    | some fill =>
      obtain ⟨t, -, h⟩ := Option.bind_eq_some_iff.mp h
      obtain ⟨t', -, h⟩ := Option.bind_eq_some_iff.mp h
      rw [ih h (Nat.lt_succ_of_lt hk), List.getElem?_set_ne (Nat.ne_of_gt hk)]

theorem fillEntries_step {out : FpgaResult × List T}
    (h : fillEntries step n i result entries = some out) : ∀ k < n, step (i + k) ≠ none := by
  induction n generalizing i result entries with
  | zero => exact nofun
  | succ n ih =>
    rw [fillEntries] at h
    obtain ⟨⟨res, fill⟩, hstep, h⟩ := Option.bind_eq_some_iff.mp h
    refine (forall_lt_succ_iff (p := fun j => step j ≠ none)).mpr
      ⟨hstep ▸ Option.some_ne_none _, ?_⟩
    cases fill with
    | none => exact ih h
    | some fill =>
      obtain ⟨t, -, h⟩ := Option.bind_eq_some_iff.mp h
      obtain ⟨t', -, h⟩ := Option.bind_eq_some_iff.mp h
      exact ih h

/-- A sensor is passed over, or its entry is there and is filled as it should be. -/
def StepFits (step : Nat → Option (FpgaResult × Option (T → Option T))) (p : Nat → T → Prop)
    (entries : List T) (i : Nat) : Prop :=
  ∃ res fill, step i = some (res, fill) ∧ ∀ f, fill = some f →
    ∃ t t', entries[i]? = some t ∧ f t = some t' ∧ p i t'

/-- Of a loop that comes to its end, the entries are as they should be. -/
def Fills (step : Nat → Option (FpgaResult × Option (T → Option T))) (p : Nat → T → Prop)
    (n i : Nat) (result : FpgaResult) (entries : List T) : Prop :=
  ∃ out, fillEntries step n i result entries = some out ∧ ∀ k < n, ∀ res f,
    step (i + k) = some (res, some f) → ∃ t', out.2[i + k]? = some t' ∧ p (i + k) t'

theorem stepFits_set {p : Nat → T → Prop} {t : T} (k : Nat) :
    StepFits step p (entries.set i t) (i + 1 + k) ↔ StepFits step p entries (i + 1 + k) := by
  rw [StepFits, StepFits, List.getElem?_set_ne (by omega)]

section Rounds

variable {p : Nat → T → Prop} {res : FpgaResult} {f : T → Option T} {t t' : T}

theorem stepFits_iff (hstep : step i = some (res, some f)) : StepFits step p entries i ↔
    ∃ t t', entries[i]? = some t ∧ f t = some t' ∧ p i t' := by
  constructor
  · rintro ⟨res', fill, h, hfill⟩
    rw [hstep] at h
    cases h
    exact hfill f rfl
  · intro h
    refine ⟨res, some f, hstep, fun f' hf' => ?_⟩
    cases hf'
    exact h

theorem not_fills_of_none (h : fillEntries step n i result entries = none) :
    ¬Fills step p n i result entries := by
  rintro ⟨out, hout, -⟩
  rw [h] at hout
  exact nomatch hout

theorem fills_succ_of_passed (hstep : step i = some (res, none)) :
    Fills step p (n + 1) i result entries ↔ Fills step p n (i + 1) res entries := by
  rw [Fills, Fills, fillEntries, hstep]
  refine exists_congr fun out => and_congr_right fun _ => ?_
  rw [forall_lt_succ_iff (p := fun j => ∀ res f, step j = some (res, some f) →
    ∃ t', out.2[j]? = some t' ∧ p j t'), and_iff_right]
  intro res' f h
  rw [hstep] at h
  exact nomatch h

theorem fills_succ_of_filled (hstep : step i = some (res, some f)) (hentry : entries[i]? = some t)
    (hfill : f t = some t') : Fills step p (n + 1) i result entries ↔
      p i t' ∧ Fills step p n (i + 1) res (entries.set i t') := by
  have hi : i < entries.length := (List.getElem?_eq_some_iff.mp hentry).1
  rw [Fills, Fills, fillEntries, hstep]
  simp only [Option.bind_eq_bind, Option.bind_some, hentry, hfill]
  constructor
  · rintro ⟨out, hout, h⟩
    obtain ⟨hzero, hsucc⟩ := (forall_lt_succ_iff (p := fun j => ∀ res f,
      step j = some (res, some f) → ∃ t', out.2[j]? = some t' ∧ p j t')).mp h
    obtain ⟨t₂, ht₂, hpi⟩ := hzero res f hstep
    rw [fillEntries_keeps hout (Nat.lt_succ_self i), List.getElem?_set_self hi] at ht₂
    cases ht₂
    exact ⟨hpi, out, hout, hsucc⟩
  · rintro ⟨hpi, out, hout, hsucc⟩
    refine ⟨out, hout, (forall_lt_succ_iff (p := fun j => ∀ res f,
      step j = some (res, some f) → ∃ t', out.2[j]? = some t' ∧ p j t')).mpr
      ⟨fun res' f' _ => ⟨t', ?_, hpi⟩, hsucc⟩⟩
    rw [fillEntries_keeps hout (Nat.lt_succ_self i), List.getElem?_set_self hi]

end Rounds

theorem fills_iff (p : Nat → T → Prop) :
    Fills step p n i result entries ↔ ∀ k < n, StepFits step p entries (i + k) := by
  induction n generalizing i result entries with
  | zero => exact iff_of_true ⟨_, rfl, nofun⟩ nofun
  | succ n ih =>
    rw [forall_lt_succ_iff (p := StepFits step p entries)]
    cases hstep : step i with
    | none =>
      refine iff_of_false (not_fills_of_none ?_) fun ⟨⟨res, fill, h, _⟩, _⟩ => ?_
      · rw [fillEntries, hstep]
        rfl
      · rw [hstep] at h
        exact nomatch h
    | some r =>
      obtain ⟨res, fill⟩ := r
      cases fill with
      | none =>
        have hfirst : StepFits step p entries i := ⟨res, none, hstep, nofun⟩
        rw [fills_succ_of_passed hstep, and_iff_right hfirst, ih]
      | some f =>
        rw [stepFits_iff hstep]
        cases hentry : entries[i]? with
        | none =>
          refine iff_of_false (not_fills_of_none ?_) fun ⟨⟨_, _, h, _⟩, _⟩ => nomatch h
          rw [fillEntries, hstep]
          simp only [Option.bind_eq_bind, Option.bind_some, hentry, Option.bind_none]
        | some t =>
          cases hfill : f t with
          | none =>
            refine iff_of_false (not_fills_of_none ?_) fun ⟨⟨t₁, t₂, h, h', _⟩, _⟩ => ?_
            · rw [fillEntries, hstep]
              simp only [Option.bind_eq_bind, Option.bind_some, hentry, hfill, Option.bind_none]
            · cases h
              rw [hfill] at h'
              exact nomatch h'
          | some t' =>
            have hrest : (∀ k < n, StepFits step p (entries.set i t') (i + 1 + k)) ↔
                ∀ k < n, StepFits step p entries (i + 1 + k) :=
              forall_congr' fun k => forall_congr' fun _ => stepFits_set k
            rw [fills_succ_of_filled hstep hentry hfill, ih, hrest]
            refine and_congr_left fun _ => ⟨fun h => ⟨t, t', rfl, hfill, h⟩, ?_⟩
            rintro ⟨t₁, t₂, h, h', hpi⟩
            cases h
            rw [hfill] at h'
            cases h'
            exact hpi

/-- What the steps do: each fails, or it reads of a sensor what its entry is filled with, or it
passes the sensor over. -/
def StepReads {D : Type} (step : Nat → Option (FpgaResult × Option (T → Option T)))
    (bad : Nat → Prop) (reads : Nat → D → Prop) (fill : D → T → Option T) (n : Nat) : Prop :=
  ∀ i < n, bad i ∧ step i = none ∨
    ¬bad i ∧ ((∃ d res, reads i d ∧ (∀ d', reads i d' → d' = d) ∧
        step i = some (res, some (fill d))) ∨
      (∀ d, ¬reads i d) ∧ ∃ res, step i = some (res, none))

theorem reads_placed_iff {D : Type} {bad : Nat → Prop} {reads : Nat → D → Prop}
    {fill : D → T → Option T} (result : FpgaResult) (entries : List T) (lands : D → T → Prop)
    (h : StepReads step bad reads fill n) :
    (∃ out, fillEntries step n 0 result entries = some out ∧
        ∀ i < n, ∀ d, reads i d → ∃ t, out.2[i]? = some t ∧ lands d t) ↔
      ∀ i < n, ¬bad i ∧ ∀ d, reads i d →
        ∃ t, entries[i]? = some t ∧ ∃ t', fill d t = some t' ∧ lands d t' := by
  have hfits : ∀ i < n, (StepFits step (fun i t => ∀ d, reads i d → lands d t) entries i ↔
      ¬bad i ∧ ∀ d, reads i d →
        ∃ t, entries[i]? = some t ∧ ∃ t', fill d t = some t' ∧ lands d t') := by
    intro i hi
    rcases h i hi with ⟨hbad, hnone⟩ | ⟨hgood, ⟨d, res, hd, hone, hsome⟩ | ⟨hno, res, hsome⟩⟩
    · refine iff_of_false ?_ fun hgood => hgood.1 hbad
      rintro ⟨res, fill, hstep, -⟩
      rw [hnone] at hstep
      exact nomatch hstep
    · rw [and_iff_right hgood]
      constructor
      · rintro ⟨res', fill', hstep, hfill⟩ d' hd'
        obtain rfl := hone d' hd'
        cases hsome.symm.trans hstep
        obtain ⟨t, t', ht, ht', hlands⟩ := hfill _ rfl
        exact ⟨t, ht, t', ht', hlands _ hd⟩
      · intro hall
        obtain ⟨t, ht, t', ht', hlands⟩ := hall d hd
        refine ⟨res, _, hsome, fun f hf => ?_⟩
        cases hf
        refine ⟨t, t', ht, ht', fun d' hd' => ?_⟩
        obtain rfl := hone d' hd'
        exact hlands
    · exact iff_of_true ⟨res, none, hsome, nofun⟩ ⟨hgood, fun d hd => absurd hd (hno d)⟩
  have hplaced : (∃ out, fillEntries step n 0 result entries = some out ∧
      ∀ i < n, ∀ d, reads i d → ∃ t, out.2[i]? = some t ∧ lands d t) ↔
      Fills step (fun i t => ∀ d, reads i d → lands d t) n 0 result entries := by
    rw [Fills]
    simp only [Nat.zero_add]
    refine exists_congr fun out => and_congr_right fun hout => ?_
    refine forall_congr' fun i => forall_congr' fun hi => ?_
    have hstep := fillEntries_step hout i hi
    rw [Nat.zero_add] at hstep
    rcases h i hi with ⟨-, hnone⟩ | ⟨-, ⟨d, res, hd, hone, hsome⟩ | ⟨hno, res, hsome⟩⟩
    · exact absurd hnone hstep
    · constructor
      · intro hall res' f _
        obtain ⟨t, ht, hlands⟩ := hall d hd
        refine ⟨t, ht, fun d' hd' => ?_⟩
        obtain rfl := hone d' hd'
        exact hlands
      · intro hall d' hd'
        obtain ⟨t, ht, hlands⟩ := hall res _ hsome
        exact ⟨t, ht, hlands d' hd'⟩
    · refine iff_of_true (fun d hd => absurd hd (hno d)) fun res' f hstep => ?_
      rw [hsome] at hstep
      exact nomatch hstep
  rw [hplaced, fills_iff]
  simp only [Nat.zero_add]
  exact forall_congr' fun i => forall_congr' fun hi => hfits i hi

end OpaeLibs.PluginXfpga.EntryFills
