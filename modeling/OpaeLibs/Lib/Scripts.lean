import Mathlib

namespace OpaeLibs.Lib.Scripts

variable {ι α σ : Type*}

inductive Done (does : ι → α → α → Prop) : List ι → α → α → Prop
  | nil {a} : Done does [] a a
  | cons {i is a b c} : does i a b → Done does is b c → Done does (i :: is) a c

inductive GivenUp (does fails : ι → α → α → Prop) : List ι → α → α → Prop
  | here {i is a b} : fails i a b → GivenUp does fails (i :: is) a b
  | later {i is a b c} : does i a b → GivenUp does fails is b c →
    GivenUp does fails (i :: is) a c

section Scripts

variable {does fails : ι → α → α → Prop} {is js : List ι} {a b c : α}

theorem Done.append (h : Done does is a b) (h' : Done does js b c) : Done does (is ++ js) a c := by
  induction h with
  | nil => exact h'
  | cons hi _ ih => exact .cons hi (ih h')

theorem Done.single {i : ι} (h : does i a b) : Done does [i] a b := .cons h .nil

theorem GivenUp.append_right (h : GivenUp does fails is a b) (js : List ι) :
    GivenUp does fails (is ++ js) a b := by
  induction h with
  | here hi => exact .here hi
  | later hi _ ih => exact .later hi ih

theorem GivenUp.append_left (h : Done does is a b) (h' : GivenUp does fails js b c) :
    GivenUp does fails (is ++ js) a c := by
  induction h with
  | nil => exact h'
  | cons hi _ ih => exact .later hi (ih h')

theorem Done.split (h : Done does (is ++ js) a c) : ∃ b, Done does is a b ∧ Done does js b c := by
  induction is generalizing a with
  | nil => exact ⟨a, .nil, h⟩
  | cons i is ih =>
    cases h with
    | cons hi h =>
      obtain ⟨b, his, hjs⟩ := ih h
      exact ⟨b, .cons hi his, hjs⟩

theorem GivenUp.split (h : GivenUp does fails (is ++ js) a c) :
    GivenUp does fails is a c ∨ ∃ b, Done does is a b ∧ GivenUp does fails js b c := by
  induction is generalizing a with
  | nil => exact .inr ⟨a, .nil, h⟩
  | cons i is ih =>
    cases h with
    | here hi => exact .inl (.here hi)
    | later hi h =>
      rcases ih h with h | ⟨b, his, hjs⟩
      · exact .inl (.later hi h)
      · exact .inr ⟨b, .cons hi his, hjs⟩

theorem Done.keeps {I : α → Prop} (hdoes : ∀ i ∈ is, ∀ a b, does i a b → I a → I b)
    (h : Done does is a b) (ha : I a) : I b := by
  induction h with
  | nil => exact ha
  | cons hi _ ih =>
    exact ih (fun i hmem => hdoes i (List.mem_cons_of_mem _ hmem))
      (hdoes _ List.mem_cons_self _ _ hi ha)

theorem GivenUp.keeps {I : α → Prop} (hdoes : ∀ i ∈ is, ∀ a b, does i a b → I a → I b)
    (hfails : ∀ i ∈ is, ∀ a b, fails i a b → I a → I b) (h : GivenUp does fails is a b)
    (ha : I a) : I b := by
  induction h with
  | here hi => exact hfails _ List.mem_cons_self _ _ hi ha
  | later hi _ ih =>
    exact ih (fun i hmem => hdoes i (List.mem_cons_of_mem _ hmem))
      (fun i hmem => hfails i (List.mem_cons_of_mem _ hmem))
      (hdoes _ List.mem_cons_self _ _ hi ha)

theorem GivenUp.exists_done (h : GivenUp does fails is a b) :
    ∃ pre i post m, is = pre ++ i :: post ∧ Done does pre a m ∧ fails i m b := by
  induction h with
  | @here i is a b hi => exact ⟨[], i, is, a, rfl, .nil, hi⟩
  | @later i is a _ b hi _ ih =>
    obtain ⟨pre, j, post, m, rfl, hdone, hfails⟩ := ih
    exact ⟨i :: pre, j, post, m, rfl, .cons hi hdone, hfails⟩

theorem Done.foldl {exec : α → ι → α} (hdoes : ∀ i a b, does i a b → b = exec a i)
    (h : Done does is a b) : b = is.foldl exec a := by
  induction h with
  | nil => rfl
  | cons hi _ ih => rw [ih, hdoes _ _ _ hi]; rfl

end Scripts

/-- `if (err == 0) err = …`: what is left of a function is done where there is no error so far. -/
def whenOk (r : Int × σ) (k : σ → Int × σ) : Int × σ := if r.1 = 0 then k r.2 else r

theorem whenOk_ensures {r : Int × σ} {k : σ → Int × σ} {Q : Int × σ → Prop}
    (hk : ∀ s, (k s).1 = 0 → Q (k s)) (h : (whenOk r k).1 = 0) : Q (whenOk r k) := by
  rw [whenOk] at h ⊢
  by_cases hr : r.1 = 0
  · rw [if_pos hr] at h ⊢
    exact hk r.2 h
  · rw [if_neg hr] at h
    exact absurd h hr

theorem whenOk_keeps {r : Int × σ} {k : σ → Int × σ} {I : σ → Prop} (hr : I r.2)
    (hk : ∀ s, I s → I (k s).2) : I (whenOk r k).2 := by
  rw [whenOk]
  by_cases h : r.1 = 0
  · rw [if_pos h]
    exact hk r.2 hr
  · rw [if_neg h]
    exact hr

/-- What a function comes to by a script: without an error all of it is carried out, and with one it
is given up. `rel` says what a state of the program stands for. -/
def Follows (does fails : ι → α → α → Prop) (rel : σ → α → Prop) (script : List ι) (r : Int × σ)
    (a : α) : Prop :=
  ∃ b, rel r.2 b ∧ (r.1 = 0 → Done does script a b) ∧ (r.1 ≠ 0 → GivenUp does fails script a b)

section Follows

variable {does fails : ι → α → α → Prop} {rel : σ → α → Prop} {is js : List ι} {r : Int × σ} {a : α}

theorem Follows.whenOk (h : Follows does fails rel is r a) {k : σ → Int × σ}
    (hk : ∀ s b, rel s b → Follows does fails rel js (k s) b) :
    Follows does fails rel (is ++ js) (whenOk r k) a := by
  obtain ⟨b, hrel, hdone, hgiven⟩ := h
  rw [Scripts.whenOk]
  by_cases herr : r.1 = 0
  · rw [if_pos herr]
    obtain ⟨c, hrel', hdone', hgiven'⟩ := hk r.2 b hrel
    exact ⟨c, hrel', fun h => (hdone herr).append (hdone' h),
      fun h => (hgiven' h).append_left (hdone herr)⟩
  · rw [if_neg herr]
    exact ⟨b, hrel, fun h => absurd h herr, fun h => (hgiven h).append_right js⟩

theorem Follows.after {b : α} (h : Done does is a b) (hr : Follows does fails rel js r b) :
    Follows does fails rel (is ++ js) r a := by
  obtain ⟨c, hrel, hdone, hgiven⟩ := hr
  exact ⟨c, hrel, fun herr => h.append (hdone herr), fun herr => (hgiven herr).append_left h⟩

theorem Follows.done {b : α} (hr : r.1 = 0) (hrel : rel r.2 b) (h : Done does is a b) :
    Follows does fails rel is r a :=
  ⟨b, hrel, fun _ => h, fun herr => absurd hr herr⟩

theorem Follows.nil (hr : r.1 = 0) (hrel : rel r.2 a) : Follows does fails rel [] r a :=
  .done hr hrel .nil

theorem Follows.single {i : ι} {b : α} (hrel : rel r.2 b) (hdoes : r.1 = 0 → does i a b)
    (hfails : r.1 ≠ 0 → fails i a b) : Follows does fails rel [i] r a :=
  ⟨b, hrel, fun h => .single (hdoes h), fun h => .here (hfails h)⟩

theorem Follows.congr {s : σ} (h : Follows does fails rel is r a)
    (hs : ∀ b, rel r.2 b → rel s b) : Follows does fails rel is (r.1, s) a := by
  obtain ⟨b, hrel, hdone, hgiven⟩ := h
  exact ⟨b, hs b hrel, hdone, hgiven⟩

theorem Follows.imp {rel' : σ → α → Prop} (h : Follows does fails rel is r a)
    (himp : ∀ s b, rel s b → rel' s b) : Follows does fails rel' is r a := by
  obtain ⟨b, hrel, hends⟩ := h
  exact ⟨b, himp _ b hrel, hends⟩

end Follows

end OpaeLibs.Lib.Scripts
