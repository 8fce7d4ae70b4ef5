import Mathlib

namespace OpaeLibs.Lib.Filling

/-- What a loop that fills a table makes of an item. -/
inductive Verdict (δ ε : Type)
  | skipped
  | refused (e : ε)
  | failed
  | built (d : δ)

variable {ι δ ε : Type}

def Verdict.result : Verdict δ ε → Option δ
  | built d => some d
  | _ => none

def Verdict.status (ok : ε) : Verdict δ ε → ε → ε
  | skipped, s => s
  | refused e, _ => e
  | _, _ => ok

variable (verdict : ι → Verdict δ ε)

def built (l : List ι) : List δ := l.filterMap fun i => (verdict i).result

def statusOf (ok : ε) (l : List ι) (s : ε) : ε :=
  l.foldl (fun s i => (verdict i).status ok s) s

variable {verdict}

theorem built_append (l l' : List ι) :
    built verdict (l ++ l') = built verdict l ++ built verdict l' := List.filterMap_append

variable (verdict) in
theorem built_perm {l l' : List ι} (h : l.Perm l') : (built verdict l).Perm (built verdict l') :=
  h.filterMap _

theorem built_concat {l : List ι} {i : ι} {d : δ} (h : verdict i = .built d) :
    built verdict (l ++ [i]) = built verdict l ++ [d] := by
  rw [built_append, built, built, List.filterMap_cons, h]
  rfl

theorem built_concat_none {l : List ι} {i : ι} (h : (verdict i).result = none) :
    built verdict (l ++ [i]) = built verdict l := by
  rw [built_append, built, built, List.filterMap_cons, h]
  exact List.append_nil _

theorem map_update (t : Nat → δ) (c : Nat) (d : δ) :
    (List.range c).map (Function.update t c d) = (List.range c).map t := by
  apply List.map_congr_left
  intro k hk
  exact Function.update_of_ne (Nat.ne_of_lt (List.mem_range.mp hk)) ..

theorem map_update_succ (t : Nat → δ) (c : Nat) (d : δ) :
    (List.range (c + 1)).map (Function.update t c d) = (List.range c).map t ++ [d] := by
  rw [List.range_succ, List.map_append, map_update, List.map_singleton, Function.update_self]

theorem statusOf_concat (ok : ε) (l : List ι) (i : ι) (s : ε) :
    statusOf verdict ok (l ++ [i]) s = (verdict i).status ok (statusOf verdict ok l s) :=
  List.foldl_concat ..

theorem statusOf_ok {ok : ε} {l : List ι} (h : ∀ i ∈ l, ∀ e, verdict i ≠ .refused e) :
    statusOf verdict ok l ok = ok := by
  induction l with
  | nil => rfl
  | cons i l ih =>
    have hfst : (verdict i).status ok ok = ok := by
      cases hi : verdict i with
      | refused e => exact absurd hi (h i List.mem_cons_self e)
      | skipped | failed | built _ => rfl
    rw [statusOf, List.foldl_cons, hfst]
    exact ih fun j hj => h j (List.mem_cons_of_mem i hj)

end OpaeLibs.Lib.Filling
