import Mathlib

namespace OpaeLibs.Lib.Probes

/-- A computation that reads a memory, one cell after the other. Which cell comes next depends on
what was read. -/
inductive Probe (ι κ α : Type)
  | done (a : α)
  | read (i : ι) (next : κ → Probe ι κ α)

variable {ι κ α β : Type}

namespace Probe

def bind (p : Probe ι κ α) (f : α → Probe ι κ β) : Probe ι κ β :=
  match p with
  | done a => f a
  | read i next => read i fun c => (next c).bind f

instance : Monad (Probe ι κ) where
  pure := done
  bind := bind

def value (m : ι → κ) : Probe ι κ α → α
  | done a => a
  | read i next => (next (m i)).value m

def places (m : ι → κ) : Probe ι κ α → List ι
  | done _ => []
  | read i next => i :: (next (m i)).places m

@[simp] theorem value_pure (m : ι → κ) (a : α) : (pure a : Probe ι κ α).value m = a := rfl

@[simp] theorem places_pure (m : ι → κ) (a : α) : (pure a : Probe ι κ α).places m = [] := rfl

@[simp] theorem value_bind (m : ι → κ) (p : Probe ι κ α) (f : α → Probe ι κ β) :
    (p >>= f).value m = (f (p.value m)).value m := by
  induction p with
  | done a => rfl
  | read i next ih => exact ih (m i)

@[simp] theorem places_bind (m : ι → κ) (p : Probe ι κ α) (f : α → Probe ι κ β) :
    (p >>= f).places m = p.places m ++ (f (p.value m)).places m := by
  induction p with
  | done a => rfl
  | read i next ih => exact congrArg (i :: ·) (ih (m i))

@[simp] theorem value_ite (m : ι → κ) (c : Prop) [Decidable c] (p q : Probe ι κ α) :
    (if c then p else q).value m = if c then p.value m else q.value m := by
  split <;> rfl

@[simp] theorem places_ite (m : ι → κ) (c : Prop) [Decidable c] (p q : Probe ι κ α) :
    (if c then p else q).places m = if c then p.places m else q.places m := by
  split <;> rfl

end Probe

open Probe

def readAll : List ι → Probe ι κ (List κ)
  | [] => pure []
  | i :: is => do
    let c ← read i pure
    let cs ← readAll is
    return c :: cs

@[simp] theorem value_readAll (m : ι → κ) (is : List ι) : (readAll is).value m = is.map m := by
  induction is with
  | nil => rfl
  | cons i is ih =>
    have hc : (read i pure : Probe ι κ κ).value m = m i := rfl
    simp only [readAll, value_bind, value_pure, ih, hc, List.map_cons]

@[simp] theorem places_readAll (m : ι → κ) (is : List ι) : (readAll is).places m = is := by
  induction is with
  | nil => rfl
  | cons i is ih =>
    have hc : (read i pure : Probe ι κ κ).places m = [i] := rfl
    simp only [readAll, places_bind, places_pure, ih, hc, List.append_nil, List.singleton_append]

end OpaeLibs.Lib.Probes
