import Mathlib

namespace OpaeLibs.Lib.Outcomes

universe u

variable {α β : Type u} {o : Option α} {P Q : α → Prop} {R : β → Prop}

/-- If the computation has an outcome, `P` holds of it. -/
def Ensures (o : Option α) (P : α → Prop) : Prop := ∀ a ∈ o, P a

@[simp] theorem ensures_none : Ensures (none : Option α) P := fun _ h => by cases h

@[simp] theorem ensures_some {a : α} : Ensures (some a) P ↔ P a := by simp [Ensures]

theorem ensures_pure {a : α} (h : P a) : Ensures (pure a) P := ensures_some.mpr h

theorem Ensures.imp (h : Ensures o P) (hpq : ∀ a, P a → Q a) : Ensures o Q :=
  fun a ha => hpq a (h a ha)

theorem Ensures.bind {f : α → Option β} (h : Ensures o P) (hf : ∀ a, P a → Ensures (f a) R) :
    Ensures (o >>= f) R := by
  intro b hb
  obtain ⟨a, ha, hfa⟩ := Option.bind_eq_some_iff.mp hb
  exact hf a (h a ha) b hfa

theorem Ensures.map {f : α → β} (h : Ensures o P) (hf : ∀ a, P a → R (f a)) :
    Ensures (o.map f) R := by
  intro b hb
  obtain ⟨a, ha, rfl⟩ := Option.map_eq_some_iff.mp hb
  exact hf a (h a ha)

theorem ensures_ite {c : Prop} [Decidable c] {o o' : Option α} (ht : c → Ensures o P)
    (he : ¬c → Ensures o' P) : Ensures (if c then o else o') P := by
  split
  · next h => exact ht h
  · next h => exact he h

theorem rel_bind {α β γ δ : Type u} {r : α → β → Prop} {q : γ → δ → Prop} {o : Option α}
    {o' : Option β} {f : α → Option γ} {f' : β → Option δ} (h : Option.Rel r o o')
    (hf : ∀ a b, r a b → Option.Rel q (f a) (f' b)) : Option.Rel q (o >>= f) (o' >>= f') := by
  cases h with
  | some hab => exact hf _ _ hab
  | none => exact .none

theorem rel_bind_self {α γ δ : Type u} {q : γ → δ → Prop} {o : Option α} {f : α → Option γ}
    {f' : α → Option δ} (hf : ∀ a, Option.Rel q (f a) (f' a)) :
    Option.Rel q (o >>= f) (o >>= f') := by
  cases o with
  | none => exact .none
  | some a => exact hf a

theorem rel_bind_pure {α β γ : Type u} {r : α → β → Prop} {q : γ → β → Prop} {o : Option α}
    {o' : Option β} {f : α → γ} (h : Option.Rel r o o') (hf : ∀ a b, r a b → q (f a) b) :
    Option.Rel q (o >>= fun a => pure (f a)) o' := by
  cases h with
  | some hab => exact .some (hf _ _ hab)
  | none => exact .none

theorem rel_map {α β γ δ : Type*} {r : α → β → Prop} {q : γ → δ → Prop} {o : Option α}
    {o' : Option β} {f : α → γ} {f' : β → δ} (h : Option.Rel r o o')
    (hf : ∀ a b, r a b → q (f a) (f' b)) : Option.Rel q (o.map f) (o'.map f') := by
  cases h with
  | some hab => exact .some (hf _ _ hab)
  | none => exact .none

theorem rel_imp {α β : Type*} {r q : α → β → Prop} {o : Option α} {o' : Option β}
    (h : Option.Rel r o o') (himp : ∀ a b, r a b → q a b) : Option.Rel q o o' := by
  cases h with
  | some h => exact .some (himp _ _ h)
  | none => exact .none

theorem except_bind_ok {ε α β : Type*} {x : Except ε α} {f : α → Except ε β} {b : β} :
    x.bind f = .ok b ↔ ∃ a, x = .ok a ∧ f a = .ok b := by
  cases x with
  | error e => exact ⟨nofun, fun ⟨_, h, _⟩ => nomatch h⟩
  | ok a => exact ⟨fun h => ⟨a, rfl, h⟩, fun ⟨_, rfl, h⟩ => h⟩

end OpaeLibs.Lib.Outcomes
