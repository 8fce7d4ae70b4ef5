import Mathlib

namespace OpaeLibs.Lib.RegexSearch

open RegularExpression

variable {α : Type*}

def anyOf : List α → RegularExpression α
  | [] => 0
  | c :: cs => char c + anyOf cs

theorem mem_matches_mul {r r' : RegularExpression α} {x : List α} :
    x ∈ (r * r').matches' ↔ ∃ a ∈ r.matches', ∃ b ∈ r'.matches', a ++ b = x := by
  rw [matches'_mul, Language.mem_mul]

theorem mem_matches_char {c : α} {x : List α} : x ∈ (char c).matches' ↔ x = [c] :=
  Set.mem_singleton_iff

theorem mem_anyOf {cs : List α} {x : List α} : x ∈ (anyOf cs).matches' ↔ ∃ c ∈ cs, x = [c] := by
  induction cs with
  | nil => exact ⟨fun h => absurd h (Language.notMem_zero x), nofun⟩
  | cons c cs ih =>
    rw [anyOf, matches'_add, Language.mem_add, mem_matches_char, ih]
    simp only [List.mem_cons, exists_eq_or_imp]

theorem mem_anyOf_pow {cs : List α} {n : Nat} {x : List α} :
    x ∈ (anyOf cs ^ n).matches' ↔ x.length = n ∧ ∀ c ∈ x, c ∈ cs := by
  rw [matches'_pow]
  induction n generalizing x with
  | zero =>
    rw [pow_zero, Language.mem_one, List.length_eq_zero_iff]
    constructor
    · rintro rfl
      exact ⟨rfl, nofun⟩
    · exact And.left
  | succ n ih =>
    rw [pow_succ', Language.mem_mul]
    constructor
    · rintro ⟨a, ha, b, hb, rfl⟩
      obtain ⟨c, hc, rfl⟩ := mem_anyOf.mp ha
      obtain ⟨hlen, hall⟩ := ih.mp hb
      refine ⟨?_, ?_⟩
      · rw [List.singleton_append, List.length_cons, hlen]
      · rintro d hd
        cases List.mem_cons.mp hd with
        | inl h => exact h ▸ hc
        | inr h => exact hall d h
    · rintro ⟨hlen, hall⟩
      cases x with
      | nil => exact absurd hlen nofun
      | cons c x =>
        have hx : x ∈ (anyOf cs).matches' ^ n :=
          ih.mpr ⟨Nat.succ.inj hlen, fun d hd => hall d (List.mem_cons_of_mem c hd)⟩
        exact ⟨[c], mem_anyOf.mpr ⟨c, hall c List.mem_cons_self, rfl⟩, x, hx, rfl⟩

section

variable [DecidableEq α]

def search (r : RegularExpression α) (s : List α) : Bool :=
  s.tails.any fun t => t.inits.any r.rmatch

theorem search_iff {r : RegularExpression α} {s : List α} :
    search r s = true ↔ ∃ t, t <:+: s ∧ t ∈ r.matches' := by
  simp only [search, List.any_eq_true, List.mem_tails, List.mem_inits]
  constructor
  · rintro ⟨u, hu, t, ht, hmatch⟩
    exact ⟨t, ht.isInfix.trans hu.isInfix, (rmatch_iff_matches' r t).mp hmatch⟩
  · rintro ⟨t, ht, hmem⟩
    obtain ⟨u, htu, hus⟩ := List.infix_iff_prefix_suffix.mp ht
    exact ⟨u, hus, t, htu, (rmatch_iff_matches' r t).mpr hmem⟩

end

end OpaeLibs.Lib.RegexSearch
