import OpaeLibs.Lib.Loops

namespace OpaeLibs.Lib.Walks

open OpaeLibs.Lib.Loops Relation

section Walk

variable {α : Type*} {next : α → Option α}

def Link (next : α → Option α) (a b : α) : Prop := next a = some b

def Visits (next : α → Option α) : α → α → Prop := ReflTransGen (Link next)

def Acyclic (next : α → Option α) (a : α) : Prop :=
  ∀ b, Visits next a b → ¬TransGen (Link next) b b

inductive Finishes (next : α → Option α) : α → Prop
  | stop {a} : next a = none → Finishes next a
  | go {a b} : next a = some b → Finishes next b → Finishes next a

theorem Visits.refl (a : α) : Visits next a a := ReflTransGen.refl

theorem Visits.head {a b c : α} (h : next a = some b) (hv : Visits next b c) : Visits next a c :=
  ReflTransGen.head h hv

theorem visits_cases {a c : α} (h : Visits next a c) :
    c = a ∨ ∃ b, next a = some b ∧ Visits next b c := by
  obtain heq | ⟨b, hlink, hvisits⟩ := ReflTransGen.cases_head h
  · exact .inl heq.symm
  · exact .inr ⟨b, hlink, hvisits⟩

theorem visits_of_stop {a b : α} (h : next a = none) (hv : Visits next a b) : b = a := by
  obtain heq | ⟨c, hnext, -⟩ := visits_cases hv
  · exact heq
  · exact nomatch h.symm.trans hnext

theorem visits_of_go {a b c : α} (h : next a = some b) (hv : Visits next a c) :
    c = a ∨ Visits next b c := by
  obtain heq | ⟨b', hnext, hvisits⟩ := visits_cases hv
  · exact .inl heq
  · exact .inr (Option.some.inj (hnext.symm.trans h) ▸ hvisits)

theorem Finishes.acyclic {a : α} (h : Finishes next a) : Acyclic next a := by
  induction h with
  | @stop a hnext =>
    intro b hvisits hcycle
    obtain rfl := visits_of_stop hnext hvisits
    obtain ⟨c, hlink, -⟩ := TransGen.head'_iff.mp hcycle
    exact nomatch hnext.symm.trans hlink
  | @go a b hnext _ ih =>
    intro c hvisits hcycle
    obtain rfl | hvisits := visits_of_go hnext hvisits
    · -- a cycle at the start is one at the next place, from which it is still reached
      obtain ⟨b', hlink, hback⟩ := TransGen.head'_iff.mp hcycle
      obtain rfl := Option.some.inj (hlink.symm.trans hnext)
      exact ih c hback hcycle
    · exact ih c hvisits hcycle

theorem Acyclic.finishes [Finite α] {a : α} (h : Acyclic next a) : Finishes next a := by
  let Later : {b // Visits next a b} → {b // Visits next a b} → Prop :=
    fun x y => TransGen (Link next) y.1 x.1
  have htrans : IsTrans _ Later := ⟨fun _ _ _ hxy hyz => hyz.trans hxy⟩
  have hirrefl : Std.Irrefl Later := ⟨fun x => h x.1 x.2⟩
  have hwf : WellFounded Later := Finite.wellFounded_of_trans_of_irrefl Later
  have hall : ∀ x : {b // Visits next a b}, Finishes next x.1 := by
    intro x
    induction x using hwf.induction with
    | _ x ih =>
      cases hnext : next x.1 with
      | none => exact .stop hnext
      | some b =>
        have hlink : Link next x.1 b := hnext
        exact .go hnext (ih ⟨b, x.2.tail hlink⟩ (TransGen.single hlink))
  exact hall ⟨a, .refl a⟩

theorem finishes_iff_acyclic [Finite α] {a : α} : Finishes next a ↔ Acyclic next a :=
  ⟨Finishes.acyclic, Acyclic.finishes⟩

theorem finishes_congr {a b : α} (h : next a = some b) : Finishes next a ↔ Finishes next b := by
  constructor
  · intro ha
    cases ha with
    | stop hnext => exact nomatch h.symm.trans hnext
    | go hnext hb => exact Option.some.inj (hnext.symm.trans h) ▸ hb
  · exact .go h

end Walk

section Loop

variable {α σ β : Type*} {next : α → Option α} {step step' : σ → Option (σ ⊕ β)}

theorem loop_mono (hstep : ∀ s r, step s = some r → step' s = some r) {n m : Nat} (hnm : n ≤ m)
    {s : σ} {b : β} (h : loop step n s = some b) : loop step' m s = some b := by
  induction n generalizing m s with
  | zero => cases h
  | succ n ih =>
    obtain ⟨m, rfl⟩ := Nat.exists_eq_add_one_of_ne_zero (Nat.ne_zero_of_lt hnm)
    rw [loop] at h ⊢
    cases hs : step s with
    | none =>
      rw [hs] at h
      cases h
    | some r =>
      rw [hs] at h
      rw [hstep s r hs]
      cases r with
      | inl s' => exact ih (by omega) h
      | inr b' => exact h

/-- A loop that walks, whatever else it carries along, ends just if the walk finishes. -/
theorem exists_loop_iff (view : σ → α)
    (hstep : ∀ s, (next (view s) = none ∧ ∃ b, step s = some (.inr b)) ∨
      ∃ s', next (view s) = some (view s') ∧ step s = some (.inl s')) (s : σ) :
    (∃ n b, loop step n s = some b) ↔ Finishes next (view s) := by
  constructor
  · rintro ⟨n, b, h⟩
    induction n generalizing s with
    | zero => cases h
    | succ n ih =>
      obtain ⟨hnext, -⟩ | ⟨s', hnext, hs'⟩ := hstep s
      · exact .stop hnext
      · rw [loop, hs'] at h
        exact .go hnext (ih s' h)
  · intro h
    generalize ha : view s = a at h
    induction h generalizing s with
    | stop hnext =>
      subst ha
      obtain ⟨-, b, hs⟩ | ⟨s', hgo, -⟩ := hstep s
      · exact ⟨1, b, by rw [loop, hs]⟩
      · cases hnext.symm.trans hgo
    | go hnext _ ih =>
      subst ha
      obtain ⟨hstop, -⟩ | ⟨s', hgo, hs'⟩ := hstep s
      · cases hnext.symm.trans hstop
      · have hview := Option.some.inj (hgo.symm.trans hnext)
        obtain ⟨n, b, hloop⟩ := ih s' hview
        exact ⟨n + 1, b, by rw [loop, hs']; exact hloop⟩

end Loop

end OpaeLibs.Lib.Walks
