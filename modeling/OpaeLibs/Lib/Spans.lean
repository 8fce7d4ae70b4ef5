import Mathlib

namespace OpaeLibs.Lib.Spans

variable {α : Type*} [LinearOrder α]

structure Span (α : Type*) where
  lo : α
  hi : α
deriving DecidableEq, Repr

def Span.set (s : Span α) : Set α := Set.Ico s.lo s.hi

def cover (l : List (Span α)) : Set α := {x | ∃ s ∈ l, x ∈ s.set}

/-- The canonical list of a set of points: no span is empty, and each one ends strictly before
the next begins, so that neither an overlap nor a mergeable pair is left. -/
structure Canonical (l : List (Span α)) : Prop where
  nonempty : ∀ s ∈ l, s.lo < s.hi
  gaps : l.Pairwise (fun s t => s.hi < t.lo)

theorem Span.mem_set {s : Span α} {x : α} : x ∈ s.set ↔ s.lo ≤ x ∧ x < s.hi := Iff.rfl

@[simp] theorem cover_nil : cover ([] : List (Span α)) = ∅ := by simp [cover]

@[simp] theorem cover_cons (s : Span α) (l : List (Span α)) :
    cover (s :: l) = s.set ∪ cover l := by
  ext x; simp [cover]

@[simp] theorem cover_append (k l : List (Span α)) : cover (k ++ l) = cover k ∪ cover l := by
  ext x; simp [cover, or_and_right, exists_or]

theorem cover_perm {k l : List (Span α)} (h : k.Perm l) : cover k = cover l := by
  ext x; simp [cover, h.mem_iff]

@[simp] theorem cover_reverse (l : List (Span α)) : cover l.reverse = cover l :=
  cover_perm l.reverse_perm

theorem set_subset_cover {l : List (Span α)} {s : Span α} (h : s ∈ l) : s.set ⊆ cover l :=
  fun _ hx => ⟨s, h, hx⟩

theorem canonical_nil : Canonical ([] : List (Span α)) := ⟨by simp, .nil⟩

theorem canonical_cons {s : Span α} {l : List (Span α)} :
    Canonical (s :: l) ↔ s.lo < s.hi ∧ (∀ t ∈ l, s.hi < t.lo) ∧ Canonical l := by
  constructor
  · intro h
    have hg := List.pairwise_cons.mp h.gaps
    exact ⟨h.nonempty s (by simp), hg.1, fun t ht => h.nonempty t (by simp [ht]), hg.2⟩
  · rintro ⟨hs, hl, h⟩
    exact ⟨by simpa using ⟨hs, h.nonempty⟩, List.pairwise_cons.mpr ⟨hl, h.gaps⟩⟩

theorem canonical_append {k l : List (Span α)} :
    Canonical (k ++ l) ↔ Canonical k ∧ Canonical l ∧ ∀ s ∈ k, ∀ t ∈ l, s.hi < t.lo := by
  constructor
  · intro h
    have hg := List.pairwise_append.mp h.gaps
    exact ⟨⟨fun s hs => h.nonempty s (by simp [hs]), hg.1⟩,
      ⟨fun s hs => h.nonempty s (by simp [hs]), hg.2.1⟩, hg.2.2⟩
  · rintro ⟨hk, hl, hkl⟩
    refine ⟨?_, List.pairwise_append.mpr ⟨hk.gaps, hl.gaps, hkl⟩⟩
    intro s hs
    obtain hs | hs := List.mem_append.mp hs
    · exact hk.nonempty s hs
    · exact hl.nonempty s hs

theorem Canonical.sublist {k l : List (Span α)} (h : Canonical l) (hk : k.Sublist l) :
    Canonical k :=
  ⟨fun s hs => h.nonempty s (hk.subset hs), h.gaps.sublist hk⟩

theorem Canonical.lo_strictMono {l : List (Span α)} (h : Canonical l) :
    l.Pairwise (fun s t => s.lo < t.lo) :=
  h.gaps.imp_of_mem fun hs _ hst => (h.nonempty _ hs).trans hst

/-- The end of a span lies in no span of the list: this is what makes the spans maximal. -/
theorem Canonical.hi_notMem_cover {l : List (Span α)} (h : Canonical l) {s : Span α}
    (hs : s ∈ l) : s.hi ∉ cover l := by
  induction l with
  | nil => simp at hs
  | cons t l ih =>
    obtain ⟨ht, htl, hl⟩ := canonical_cons.mp h
    rw [cover_cons]
    rintro (hx | hx)
    · obtain rfl | hs := List.mem_cons.mp hs
      · exact lt_irrefl _ hx.2
      · exact lt_asymm (htl s hs) (hx.2.trans_le' (hl.nonempty s hs).le)
    · obtain rfl | hs := List.mem_cons.mp hs
      · obtain ⟨u, hu, hlo, -⟩ := hx
        exact (htl u hu).not_ge hlo
      · exact ih hl hs hx

theorem Canonical.not_lt_hi {l : List (Span α)} (h : Canonical l) {s : Span α} (hs : s ∈ l)
    {a b : α} (hab : Set.Ico a b ⊆ cover l) (ha : a ≤ s.hi) : b ≤ s.hi := by
  by_contra hb
  exact h.hi_notMem_cover hs (hab ⟨ha, not_le.mp hb⟩)

/-- A run of covered points lies inside one span: nothing is hidden by fragmentation. -/
theorem Canonical.exists_span {l : List (Span α)} (h : Canonical l) {a b : α} (hlt : a < b)
    (hab : Set.Ico a b ⊆ cover l) : ∃ s ∈ l, s.lo ≤ a ∧ b ≤ s.hi := by
  obtain ⟨s, hs, hlo, hhi⟩ := hab ⟨le_refl a, hlt⟩
  exact ⟨s, hs, hlo, h.not_lt_hi hs hab hhi.le⟩

theorem Canonical.lo_le_of_mem_cover {s : Span α} {l : List (Span α)} (h : Canonical (s :: l))
    {x : α} (hx : x ∈ cover (s :: l)) : s.lo ≤ x := by
  obtain ⟨hs, hl, -⟩ := canonical_cons.mp h
  rw [cover_cons] at hx
  obtain hx | ⟨t, ht, hlo, -⟩ := hx
  · exact hx.1
  · exact (hs.trans (hl t ht)).le.trans hlo

theorem Canonical.lo_mem_cover {s : Span α} {l : List (Span α)} (h : Canonical (s :: l)) :
    s.lo ∈ cover (s :: l) :=
  ⟨s, by simp, le_refl _, h.nonempty s (by simp)⟩

theorem Canonical.tail_cover {s : Span α} {l : List (Span α)} (h : Canonical (s :: l)) :
    cover l = cover (s :: l) \ s.set := by
  obtain ⟨-, hl, -⟩ := canonical_cons.mp h
  rw [cover_cons, Set.union_sdiff_left, eq_comm, sdiff_eq_left, Set.disjoint_left]
  rintro x ⟨t, ht, hlo, -⟩ hx
  exact (hx.2.trans (hl t ht)).not_ge hlo

theorem Canonical.ext {k l : List (Span α)} (hk : Canonical k) (hl : Canonical l)
    (h : cover k = cover l) : k = l := by
  induction k generalizing l with
  | nil =>
    cases l with
    | nil => rfl
    | cons t l =>
      have hm := hl.lo_mem_cover
      rw [← h] at hm
      simp at hm
  | cons s k ih =>
    cases l with
    | nil =>
      have hm := hk.lo_mem_cover
      rw [h] at hm
      simp at hm
    | cons t l =>
      have hlo : s.lo = t.lo := le_antisymm (hk.lo_le_of_mem_cover (h ▸ hl.lo_mem_cover))
        (hl.lo_le_of_mem_cover (h ▸ hk.lo_mem_cover))
      have hs : Set.Ico s.lo s.hi ⊆ cover (t :: l) := h ▸ set_subset_cover (by simp)
      have ht : Set.Ico t.lo t.hi ⊆ cover (s :: k) := h ▸ set_subset_cover (by simp)
      have hhi : s.hi = t.hi := le_antisymm
        (hl.not_lt_hi (by simp) hs (hlo ▸ (hl.nonempty t (by simp)).le))
        (hk.not_lt_hi (by simp) ht (hlo ▸ (hk.nonempty s (by simp)).le))
      have he : s = t := by cases s; cases t; simp_all
      subst he
      rw [ih (canonical_cons.mp hk).2.2 (canonical_cons.mp hl).2.2
        (by rw [hk.tail_cover, hl.tail_cover, h])]

theorem le_of_disjoint {s t : Span α} (ht : t.lo < t.hi) (h : Disjoint s.set t.set)
    (hlo : s.lo ≤ t.lo) : s.hi ≤ t.lo := by
  rw [Span.set, Span.set, Set.Ico_disjoint_Ico, max_eq_right hlo, min_le_iff] at h
  exact h.resolve_right ht.not_ge

/-- Merge a new span with the span just before it, if the two touch. -/
def gluePrev (before : List (Span α)) (s : Span α) : List (Span α) × Span α :=
  match before with
  | [] => ([], s)
  | prev :: rest => if prev.hi = s.lo then (rest, ⟨prev.lo, s.hi⟩) else (prev :: rest, s)

def glueNext (s : Span α) (after : List (Span α)) : List (Span α) :=
  match after with
  | [] => [s]
  | next :: rest => if s.hi = next.lo then ⟨s.lo, next.hi⟩ :: rest else s :: next :: rest

/-- Put a span between two stretches of a list, the one before it given nearest first. -/
def glue (before : List (Span α)) (s : Span α) (after : List (Span α)) : List (Span α) :=
  (gluePrev before s).1.reverse ++ glueNext (gluePrev before s).2 after

theorem set_union_set {s t : Span α} (hs : s.lo < s.hi) (ht : t.lo < t.hi) (h : s.hi = t.lo) :
    (⟨s.lo, t.hi⟩ : Span α).set = s.set ∪ t.set := by
  rw [Span.set, Span.set, Span.set, ← h, Set.Ico_union_Ico_eq_Ico hs.le (h ▸ ht.le)]

theorem canonical_glueNext {s : Span α} {after : List (Span α)} (hs : s.lo < s.hi)
    (ha : Canonical after) (hsa : ∀ t ∈ after, s.hi ≤ t.lo) :
    Canonical (glueNext s after) ∧ cover (glueNext s after) = s.set ∪ cover after ∧
      ∀ u ∈ glueNext s after, s.lo ≤ u.lo := by
  cases after with
  | nil => simp [glueNext, canonical_cons, hs, canonical_nil]
  | cons next rest =>
    obtain ⟨hn, hnr, hr⟩ := canonical_cons.mp ha
    have hsn : s.hi ≤ next.lo := hsa next (by simp)
    by_cases he : s.hi = next.lo
    · simp only [glueNext, if_pos he]
      refine ⟨canonical_cons.mpr ⟨hs.trans (he ▸ hn), hnr, hr⟩, ?_, ?_⟩
      · rw [cover_cons, cover_cons, set_union_set hs hn he, Set.union_assoc]
      · simp only [List.mem_cons, forall_eq_or_imp, le_refl, true_and]
        exact fun u hu => (hs.trans_le (hsn.trans (hn.trans (hnr u hu)).le)).le
    · simp only [glueNext, if_neg he]
      refine ⟨canonical_cons.mpr ⟨hs, ?_, ha⟩, by simp, ?_⟩
      · simp only [List.mem_cons, forall_eq_or_imp]
        exact ⟨lt_of_le_of_ne hsn he, fun u hu => hsn.trans_lt (hn.trans (hnr u hu))⟩
      · simp only [List.mem_cons, forall_eq_or_imp, le_refl, true_and]
        exact ⟨(hs.trans_le hsn).le,
          fun u hu => (hs.trans_le (hsn.trans (hn.trans (hnr u hu)).le)).le⟩

theorem canonical_gluePrev {s : Span α} {before : List (Span α)} (hs : s.lo < s.hi)
    (hb : Canonical before.reverse) (hbs : ∀ t ∈ before, t.hi ≤ s.lo) :
    Canonical (gluePrev before s).1.reverse ∧
      (gluePrev before s).2.lo < (gluePrev before s).2.hi ∧ (gluePrev before s).2.hi = s.hi ∧
      cover (gluePrev before s).1 ∪ (gluePrev before s).2.set = cover before ∪ s.set ∧
      ∀ t ∈ (gluePrev before s).1, t.hi < (gluePrev before s).2.lo := by
  cases before with
  | nil => simp [gluePrev, hs, canonical_nil]
  | cons prev rest =>
    rw [List.reverse_cons, canonical_append] at hb
    obtain ⟨hr, hp, hrp⟩ := hb
    have hpp : prev.lo < prev.hi := hp.nonempty prev (by simp)
    have hps : prev.hi ≤ s.lo := hbs prev (by simp)
    by_cases he : prev.hi = s.lo
    · simp only [gluePrev, if_pos he]
      refine ⟨hr, hpp.trans (he ▸ hs), trivial, ?_, fun t ht => hrp t (by simpa) prev (by simp)⟩
      rw [set_union_set hpp hs he, cover_cons, ← Set.union_assoc, Set.union_comm (cover rest)]
    · simp only [gluePrev, if_neg he]
      have hb' : Canonical (prev :: rest).reverse := by
        rw [List.reverse_cons, canonical_append]
        exact ⟨hr, hp, hrp⟩
      refine ⟨hb', hs, trivial, trivial, ?_⟩
      simp only [List.mem_cons, forall_eq_or_imp]
      exact ⟨lt_of_le_of_ne hps he,
        fun t ht => (hrp t (by simpa) prev (by simp)).trans (hpp.trans_le hps)⟩

/-- Gluing keeps the list canonical and adds exactly the points of the new span. -/
theorem canonical_glue {before after : List (Span α)} {s : Span α} (hs : s.lo < s.hi)
    (hl : Canonical (before.reverse ++ after)) (hbs : ∀ t ∈ before, t.hi ≤ s.lo)
    (hsa : ∀ t ∈ after, s.hi ≤ t.lo) :
    Canonical (glue before s after) ∧
      cover (glue before s after) = cover (before.reverse ++ after) ∪ s.set := by
  obtain ⟨hb, ha, -⟩ := canonical_append.mp hl
  obtain ⟨hp, hq, hqs, hpc, hpq⟩ := canonical_gluePrev hs hb hbs
  obtain ⟨hn, hnc, hqn⟩ := canonical_glueNext hq ha (by rwa [hqs])
  refine ⟨canonical_append.mpr ⟨hp, hn, ?_⟩, ?_⟩
  · exact fun t ht u hu => (hpq t (by simpa using ht)).trans_le (hqn u hu)
  · rw [glue, cover_append, cover_reverse, hnc, ← Set.union_assoc, hpc, cover_append,
      cover_reverse, Set.union_right_comm]

/-- Cutting the front off one span keeps the list canonical and removes exactly those points. -/
theorem canonical_trim {before after : List (Span α)} {s : Span α} {c : α}
    (hl : Canonical (before ++ s :: after)) (hlo : s.lo < c) (hhi : c < s.hi) :
    Canonical (before ++ ⟨c, s.hi⟩ :: after) ∧
      cover (before ++ ⟨c, s.hi⟩ :: after) = cover (before ++ s :: after) \ Set.Ico s.lo c := by
  obtain ⟨hb, hsa, hbs⟩ := canonical_append.mp hl
  obtain ⟨hs, hsa', ha⟩ := canonical_cons.mp hsa
  have hb' : ∀ t ∈ before, t.hi < s.lo := fun t ht => hbs t ht s (by simp)
  refine ⟨canonical_append.mpr ⟨hb, canonical_cons.mpr ⟨hhi, hsa', ha⟩, ?_⟩, ?_⟩
  · simp only [List.mem_cons, forall_eq_or_imp]
    exact fun t ht => ⟨(hb' t ht).trans hlo, fun u hu => hbs t ht u (by simp [hu])⟩
  · ext x
    simp only [cover_append, cover_cons, Set.mem_union, Set.mem_sdiff, Set.mem_Ico, Span.mem_set]
    constructor
    · rintro (⟨t, ht, hx⟩ | hx | ⟨t, ht, hx⟩)
      · exact ⟨.inl ⟨t, ht, hx⟩, fun h => h.1.not_gt (hx.2.trans (hb' t ht))⟩
      · exact ⟨.inr (.inl ⟨hlo.le.trans hx.1, hx.2⟩), fun h => h.2.not_ge hx.1⟩
      · exact ⟨.inr (.inr ⟨t, ht, hx⟩), fun h => (h.2.trans (hhi.trans (hsa' t ht))).not_ge hx.1⟩
    · rintro ⟨hx | hx | hx, hc⟩
      · exact .inl hx
      · exact .inr (.inl ⟨not_lt.mp fun h => hc ⟨hx.1, h⟩, hx.2⟩)
      · exact .inr (.inr hx)

theorem Canonical.disjoint_of_split {before after : List (Span α)} {s : Span α}
    (hl : Canonical (before ++ s :: after)) : Disjoint s.set (cover (before ++ after)) := by
  obtain ⟨-, hsa, hbs⟩ := canonical_append.mp hl
  rw [Set.disjoint_left]
  rintro x hx ⟨t, ht, hlo, hhi⟩
  obtain ht | ht := List.mem_append.mp ht
  · exact hx.1.not_gt (hhi.trans (hbs t ht s (by simp)))
  · exact hlo.not_gt (hx.2.trans ((canonical_cons.mp hsa).2.1 t ht))

end OpaeLibs.Lib.Spans
