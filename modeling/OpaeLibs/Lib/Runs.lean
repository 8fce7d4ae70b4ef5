import Mathlib

namespace OpaeLibs.Lib.Runs

variable {σ α : Type*}

def run (step : σ → α → σ) (s : σ) (as : List α) : σ := as.foldl step s

/-- `P` holds of every step a run takes, each judged in the state it is taken from. -/
def Along (step : σ → α → σ) (P : σ → α → Prop) : σ → List α → Prop
  | _, [] => True
  | s, a :: as => P s a ∧ Along step P (step s a) as

@[simp] theorem run_nil (step : σ → α → σ) (s : σ) : run step s [] = s := rfl

@[simp] theorem run_cons (step : σ → α → σ) (s : σ) (a : α) (as : List α) :
    run step s (a :: as) = run step (step s a) as := rfl

@[simp] theorem along_nil (step : σ → α → σ) (P : σ → α → Prop) (s : σ) :
    Along step P s [] := trivial

@[simp] theorem along_cons (step : σ → α → σ) (P : σ → α → Prop) (s : σ) (a : α) (as : List α) :
    Along step P s (a :: as) ↔ P s a ∧ Along step P (step s a) as := Iff.rfl

theorem along_append (step : σ → α → σ) (P : σ → α → Prop) (s : σ) (as bs : List α) :
    Along step P s (as ++ bs) ↔ Along step P s as ∧ Along step P (run step s as) bs := by
  induction as generalizing s with
  | nil => simp
  | cons a as ih => simp only [List.cons_append, along_cons, run_cons, ih, and_assoc]

theorem along_and (step : σ → α → σ) (P Q : σ → α → Prop) (s : σ) (as : List α) :
    Along step (fun s a => P s a ∧ Q s a) s as ↔ Along step P s as ∧ Along step Q s as := by
  induction as generalizing s with
  | nil => simp
  | cons a as ih => simp only [along_cons, ih, and_and_and_comm]

theorem along_of_forall (step : σ → α → σ) {P : σ → α → Prop} {as : List α}
    (h : ∀ a ∈ as, ∀ s, P s a) (s : σ) : Along step P s as := by
  induction as generalizing s with
  | nil => trivial
  | cons a as ih =>
    exact ⟨h a List.mem_cons_self s, ih (fun b hb => h b (List.mem_cons_of_mem _ hb)) _⟩

instance decidableAlong (step : σ → α → σ) (P : σ → α → Prop) [∀ s a, Decidable (P s a)] :
    ∀ s as, Decidable (Along step P s as)
  | _, [] => isTrue trivial
  | s, a :: as => @instDecidableAnd _ _ _ (decidableAlong step P (step s a) as)

section Invariant

variable {step : σ → α → σ} {I : σ → Prop} {G : σ → α → Prop}

/-- What holds at the start and is kept by every guarded step holds at the end of every
guarded run. -/
theorem run_invariant (hstep : ∀ s a, I s → G s a → I (step s a)) {s : σ} {as : List α}
    (hs : I s) (hg : Along step G s as) : I (run step s as) := by
  induction as generalizing s with
  | nil => exact hs
  | cons a as ih => exact ih (hstep s a hs hg.1) hg.2

theorem along_of_invariant (hstep : ∀ s a, I s → G s a → I (step s a)) {P : σ → α → Prop}
    (hP : ∀ s a, I s → G s a → P s a) {s : σ} {as : List α} (hs : I s)
    (hg : Along step G s as) : Along step P s as := by
  induction as generalizing s with
  | nil => trivial
  | cons a as ih => exact ⟨hP s a hs hg.1, ih (hstep s a hs hg.1) hg.2⟩

/-- If the guard is exactly what one step needs to have the property `P`, then the runs all of
whose steps have `P` are exactly the guarded ones. -/
theorem along_iff (hstep : ∀ s a, I s → G s a → I (step s a)) {P : σ → α → Prop}
    (hP : ∀ s a, I s → (P s a ↔ G s a)) {s : σ} (as : List α) (hs : I s) :
    Along step P s as ↔ Along step G s as := by
  induction as generalizing s with
  | nil => simp
  | cons a as ih =>
    simp only [along_cons, hP s a hs]
    exact and_congr_right fun hg => ih (hstep s a hs hg)

end Invariant

end OpaeLibs.Lib.Runs
