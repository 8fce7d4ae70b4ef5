import Mathlib

namespace OpaeLibs.Lib.Polling

variable {α : Type*} (p : α → Prop) [DecidablePred p]

/-- Polls until the value is as it is waited for; an answer that is missing leaves the value as it
is. Whether it ends so, the value, and the answers that are looked at. -/
def poll : α → List (Option α) → Bool × α × List (Option α)
  | a, [] => (false, a, [])
  | a, r :: rs =>
    if p (r.getD a) then (true, r.getD a, [r])
    else
      let (found, b, made) := poll (r.getD a) rs
      (found, b, r :: made)

section Poll

variable {p} {a : α} {r : Option α} {rs : List (Option α)}

theorem poll_of_pos (h : p (r.getD a)) : poll p a (r :: rs) = (true, r.getD a, [r]) := by
  rw [poll, if_pos h]

theorem poll_of_neg (h : ¬p (r.getD a)) :
    poll p a (r :: rs) =
      ((poll p (r.getD a) rs).1, (poll p (r.getD a) rs).2.1, r :: (poll p (r.getD a) rs).2.2) := by
  rw [poll, if_neg h]

theorem poll_append (a : α) (rs rs' : List (Option α)) :
    poll p a (rs ++ rs') =
      if (poll p a rs).1 then poll p a rs
      else
        let (found, b, made) := poll p (poll p a rs).2.1 rs'
        (found, b, (poll p a rs).2.2 ++ made) := by
  induction rs generalizing a with
  | nil => rfl
  | cons r rs ih =>
    rw [List.cons_append]
    by_cases h : p (r.getD a)
    · rw [poll_of_pos h, poll_of_pos h]
      rfl
    · rw [poll_of_neg h, poll_of_neg h, ih]
      by_cases hfound : (poll p (r.getD a) rs).1
      · rw [if_pos hfound, if_pos hfound]
      · rw [if_neg hfound, if_neg hfound]
        rfl

/-- The first answer is missing, and the value passes for one. -/
def Stale (p : α → Prop) (a : α) (rs : List (Option α)) : Prop := rs.head? = some none ∧ p a

theorem poll_of_stale (h : Stale p a rs) : poll p a rs = (true, a, [none]) := by
  obtain ⟨hhead, ha⟩ := h
  obtain ⟨rs', rfl⟩ := List.head?_eq_some_iff.mp hhead
  exact poll_of_pos ha

theorem poll_found_iff (h : ¬Stale p a rs) : (poll p a rs).1 = true ↔ ∃ v, some v ∈ rs ∧ p v := by
  induction rs generalizing a with
  | nil => exact ⟨nofun, nofun⟩
  | cons r rs ih =>
    by_cases hr : p (r.getD a)
    · rw [poll_of_pos hr]
      refine ⟨fun _ => ?_, fun _ => rfl⟩
      cases r with
      | none => exact absurd ⟨rfl, hr⟩ h
      | some v => exact ⟨v, List.mem_cons_self, hr⟩
    · rw [poll_of_neg hr]
      refine (ih fun hs => hr hs.2).trans ⟨?_, ?_⟩
      · rintro ⟨v, hmem, hv⟩
        exact ⟨v, List.mem_cons_of_mem r hmem, hv⟩
      · rintro ⟨v, hmem, hv⟩
        rcases List.mem_cons.mp hmem with rfl | hmem
        · exact absurd hv hr
        · exact ⟨v, hmem, hv⟩

theorem poll_answer (h : ¬Stale p a rs) (hfound : (poll p a rs).1 = true) :
    some (poll p a rs).2.1 ∈ (poll p a rs).2.2 ∧ p (poll p a rs).2.1 := by
  induction rs generalizing a with
  | nil => exact absurd hfound nofun
  | cons r rs ih =>
    by_cases hr : p (r.getD a)
    · rw [poll_of_pos hr]
      cases r with
      | none => exact absurd ⟨rfl, hr⟩ h
      | some v => exact ⟨List.mem_singleton_self _, hr⟩
    · rw [poll_of_neg hr] at hfound ⊢
      obtain ⟨hmem, hp⟩ := ih (fun hs => hr hs.2) hfound
      exact ⟨List.mem_cons_of_mem r hmem, hp⟩

end Poll

end OpaeLibs.Lib.Polling
