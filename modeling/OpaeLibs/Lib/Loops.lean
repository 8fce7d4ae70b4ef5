import Mathlib

namespace OpaeLibs.Lib.Loops

variable {σ β : Type*} {step : σ → Option (σ ⊕ β)}

/-- At most `n` rounds of a loop: each goes on in a next state or ends with a value, and `none` is
a fault. -/
def loop (step : σ → Option (σ ⊕ β)) : Nat → σ → Option β
  | 0, _ => none
  | n + 1, s =>
    match step s with
    | none => none
    | some (.inl s) => loop step n s
    | some (.inr b) => some b

/-- The loop ends from the state with the value, after any number of rounds. -/
inductive Ends (step : σ → Option (σ ⊕ β)) : σ → β → Prop
  | done {s b} : step s = some (.inr b) → Ends step s b
  | next {s s' b} : step s = some (.inl s') → Ends step s' b → Ends step s b

theorem Ends.of_loop {n : Nat} {s : σ} {b : β} (h : loop step n s = some b) : Ends step s b := by
  induction n generalizing s with
  | zero => exact absurd h nofun
  | succ n ih =>
    rw [loop] at h
    cases hs : step s with
    | none =>
      rw [hs] at h
      exact absurd h nofun
    | some r =>
      rw [hs] at h
      cases r with
      | inl s' => exact .next hs (ih h)
      | inr b' => exact .done (hs.trans (congrArg (some ∘ Sum.inr) (Option.some.inj h)))

theorem exists_loop_iff_ends {s : σ} {b : β} : (∃ n, loop step n s = some b) ↔ Ends step s b := by
  constructor
  · rintro ⟨n, h⟩
    exact .of_loop h
  · intro h
    induction h with
    | done hs => exact ⟨1, by rw [loop, hs]⟩
    | next hs _ ih =>
      obtain ⟨n, hloop⟩ := ih
      exact ⟨n + 1, by rw [loop, hs]; exact hloop⟩

theorem Ends.loop_eq {measure : σ → Nat}
    (hfalls : ∀ s s', step s = some (.inl s') → measure s' < measure s) {s : σ} {b : β}
    (h : Ends step s b) : ∀ {n : Nat}, measure s < n → loop step n s = some b := by
  induction h with
  | done hs =>
    intro n hn
    obtain ⟨n, rfl⟩ := Nat.exists_eq_add_one_of_ne_zero (Nat.ne_zero_of_lt hn)
    rw [loop, hs]
  | @next s s' b hs _ ih =>
    intro n hn
    obtain ⟨n, rfl⟩ := Nat.exists_eq_add_one_of_ne_zero (Nat.ne_zero_of_lt hn)
    have hlt := hfalls s s' hs
    rw [loop, hs]
    exact ih (by omega)

theorem loop_eq_some_iff {measure : σ → Nat}
    (hfalls : ∀ s s', step s = some (.inl s') → measure s' < measure s) {s : σ} {b : β} {n : Nat}
    (hn : measure s < n) : loop step n s = some b ↔ Ends step s b :=
  ⟨.of_loop, fun h => h.loop_eq hfalls hn⟩

theorem loop_ensures {I : σ → Prop} {Q : β → Prop}
    (hstep : ∀ s, I s → ∀ r ∈ step s, Sum.elim I Q r) {n : Nat} {s : σ} (hs : I s) :
    ∀ b ∈ loop step n s, Q b := by
  induction n generalizing s with
  | zero => exact nofun
  | succ n ih =>
    rw [loop]
    cases h : step s with
    | none => exact nofun
    | some r =>
      have hr := hstep s hs r h
      cases r with
      | inl t => exact ih hr
      | inr b => exact fun c hc => Option.some.inj hc ▸ hr

/-- Where each round keeps an invariant and a measure falls, the loop ends within as many rounds as
the measure tells, and with what its last round ensures. -/
theorem exists_loop_ensures {I : σ → Prop} {Q : β → Prop} {measure : σ → Nat}
    (hstep : ∀ s, I s → ∃ r, step s = some r ∧
      Sum.elim (fun s' => I s' ∧ measure s' < measure s) Q r) {s : σ} (hs : I s) :
    ∃ b, Q b ∧ ∀ n, measure s < n → loop step n s = some b := by
  induction hk : measure s using Nat.strongRecOn generalizing s with
  | ind k ih =>
    obtain ⟨r, hr, hkeeps⟩ := hstep s hs
    cases r with
    | inl s' =>
      obtain ⟨hs', hlt⟩ := hkeeps
      obtain ⟨b, hb, hloop⟩ := ih _ (hk ▸ hlt) hs' rfl
      refine ⟨b, hb, fun n hn => ?_⟩
      obtain ⟨n, rfl⟩ := Nat.exists_eq_add_one_of_ne_zero (Nat.ne_zero_of_lt hn)
      rw [loop, hr]
      exact hloop n (by omega)
    | inr b =>
      refine ⟨b, hkeeps, fun n hn => ?_⟩
      obtain ⟨n, rfl⟩ := Nat.exists_eq_add_one_of_ne_zero (Nat.ne_zero_of_lt hn)
      rw [loop, hr]

theorem loop_rel {τ γ : Type*} {step' : τ → Option (τ ⊕ γ)} {R : σ → τ → Prop} {Q : β → γ → Prop}
    (hstep : ∀ s t, R s t → Option.Rel (Sum.LiftRel R Q) (step s) (step' t)) (n : Nat) {s : σ}
    {t : τ} (hst : R s t) : Option.Rel Q (loop step n s) (loop step' n t) := by
  induction n generalizing s t with
  | zero => exact .none
  | succ n ih =>
    rw [loop, loop]
    have h := hstep s t hst
    cases hs : step s with
    | none =>
      rw [hs] at h
      cases ht : step' t with
      | none => exact .none
      | some r =>
        rw [ht] at h
        exact nomatch h
    | some r =>
      rw [hs] at h
      cases ht : step' t with
      | none =>
        rw [ht] at h
        exact nomatch h
      | some r' =>
        rw [ht, Option.rel_some_some] at h
        cases h with
        | inl h => exact ih h
        | inr h => exact .some h

end OpaeLibs.Lib.Loops
