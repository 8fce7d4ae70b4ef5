import OpaeLibs.PluginXfpga.Metrics

namespace OpaeLibs.PluginXfpga.MetricNames

open OpaeLibs.OpaeC.Props OpaeLibs.PluginXfpga.BmcMetrics OpaeLibs.PluginXfpga.MetricVector
  OpaeLibs.PluginXfpga.Metrics

def sysfsPathMax : Nat := 256

/-- How many bytes are written into a buffer of a size. -/
structure Write where
  count : Nat
  size : Nat

/-- What `parse_metric_num_name` writes: the part behind the last colon, of which no more is copied
than there is room for, and the part before it. -/
def parseWrites (searchString : List Char) : List Write :=
  match splitLastColon searchString with
  | none => []
  | some (qualifierName, metricName) =>
    [⟨(metricName.take metricNameMax).length + 1, sysfsPathMax⟩,
      ⟨qualifierName.length + 1, sysfsPathMax⟩]

/-- A vector of metrics as they are enumerated: each has a number of its own, and its name has room
in its field. -/
structure EnumeratedVector where
  vector : MetricVector
  found : List FpgaEnumMetric
  holds : Holds vector found
  nodup : (found.map FpgaEnumMetric.metricNum).Nodup
  fits : ∀ m ∈ found, m.metricName.length ≤ metricNameMax

def composed (m : FpgaEnumMetric) : List Char := m.qualifierName ++ ':' :: m.metricName

def named (found : List FpgaEnumMetric) (s : List Char) : Option FpgaEnumMetric :=
  found.find? fun m => strcasecmp (composed m) s

/-- A name is resolved to the first metric that has it, or to none. -/
structure Resolves (found : List FpgaEnumMetric) (s : List Char)
    (r : Option (FpgaResult × UInt64)) : Prop where
  inBounds : ∀ w ∈ parseWrites s, w.count ≤ w.size
  ok : ∀ m, named found s = some m → r = some (.ok, m.metricNum)
  notFound : named found s = none →
    ∃ result num, r = some (result, num) ∧ (result = .notFound ∨ result = .invalidParam)

section Colons

variable {q m pre suf : List Char}

theorem toLower_eq_colon {c : Char} : c.toLower = ':' ↔ c = ':' := by
  constructor
  · intro h
    rw [Char.toLower] at h
    split at h
    · next hupper =>
      have hval : (c.val.toNat + 32) % 2 ^ 32 = 58 :=
        (UInt32.toNat_add c.val 32).symm.trans (congrArg (fun c : Char => c.val.toNat) h)
      have hge : 65 ≤ c.val.toNat := UInt32.le_iff_toNat_le.mp hupper.1
      have hle : c.val.toNat ≤ 90 := UInt32.le_iff_toNat_le.mp hupper.2
      omega
    · exact h
  · rintro rfl
    rfl

theorem colon_mem_lower {s : List Char} : ':' ∈ s.map Char.toLower ↔ ':' ∈ s := by
  rw [List.mem_map]
  constructor
  · rintro ⟨c, hc, hlower⟩
    rwa [toLower_eq_colon.mp hlower] at hc
  · exact fun h => ⟨':', h, rfl⟩

theorem strcasecmp_iff {s t : List Char} :
    strcasecmp s t = true ↔ s.map Char.toLower = t.map Char.toLower := decide_eq_true_iff

theorem append_colon_inj {u u' v v' : List Char} (hv : ':' ∉ v) (hv' : ':' ∉ v')
    (h : u ++ ':' :: v = u' ++ ':' :: v') : u = u' ∧ v = v' := by
  rcases List.append_eq_append_iff.mp h with ⟨a, rfl, ha⟩ | ⟨a, rfl, ha⟩
  · cases a with
    | nil => exact ⟨(List.append_nil u).symm, (List.cons.inj ha).2⟩
    | cons c a =>
      have hmem := List.mem_append_right a (List.mem_cons_self : ':' ∈ ':' :: v')
      exact absurd ((List.cons.inj ha).2 ▸ hmem) hv
  · cases a with
    | nil => exact ⟨List.append_nil u', (List.cons.inj ha).2.symm⟩
    | cons c a =>
      have hmem := List.mem_append_right a (List.mem_cons_self : ':' ∈ ':' :: v)
      exact absurd ((List.cons.inj ha).2 ▸ hmem) hv'

theorem strcasecmp_append (hm : ':' ∉ m) (hsuf : ':' ∉ suf) :
    strcasecmp (q ++ ':' :: m) (pre ++ ':' :: suf) = true ↔
      strcasecmp q pre = true ∧ strcasecmp m suf = true := by
  rw [strcasecmp_iff, strcasecmp_iff, strcasecmp_iff, List.map_append, List.map_append,
    List.map_cons, List.map_cons]
  constructor
  · exact append_colon_inj (mt colon_mem_lower.mp hm) (mt colon_mem_lower.mp hsuf)
  · rintro ⟨hq, hm⟩
    rw [hq, hm]

theorem length_le_of_strcasecmp (hsuf : ':' ∉ suf)
    (h : strcasecmp (q ++ ':' :: m) (pre ++ ':' :: suf) = true) : suf.length ≤ m.length := by
  rw [strcasecmp_iff, List.map_append, List.map_append, List.map_cons, List.map_cons] at h
  rcases List.append_eq_append_iff.mp h with ⟨a, -, ha⟩ | ⟨a, -, ha⟩
  · have hlen := congrArg List.length ha
    simp only [List.length_cons, List.length_append, List.length_map] at hlen
    omega
  · cases a with
    | nil =>
      have hlen := congrArg List.length ha
      simp only [List.nil_append, List.length_cons, List.length_map] at hlen
      omega
    | cons c a =>
      have hmem : ':' ∈ suf.map Char.toLower := by
        rw [(List.cons.inj ha).2]
        exact List.mem_append_right a List.mem_cons_self
      exact absurd (colon_mem_lower.mp hmem) hsuf

theorem splitLastColon_eq_some {s : List Char} (h : splitLastColon s = some (pre, suf)) :
    s = pre ++ ':' :: suf ∧ ':' ∉ suf := by
  rw [splitLastColon] at h
  split at h
  · exact nomatch h
  · next c front hrest =>
    obtain ⟨hpre, hsuf⟩ := Prod.mk.inj (Option.some.inj h)
    have hc : c = ':' := by
      have hhead := List.head?_dropWhile_not (fun c => decide (c ≠ ':')) s.reverse
      rw [hrest, List.head?_cons] at hhead
      simpa using hhead
    have hsplit := List.takeWhile_append_dropWhile (p := fun c => decide (c ≠ ':')) (l := s.reverse)
    rw [hrest, hc] at hsplit
    rw [← hpre, ← hsuf]
    constructor
    · have hreverse := congrArg List.reverse hsplit
      rw [List.reverse_append, List.reverse_cons, List.reverse_reverse, List.append_assoc,
        List.singleton_append] at hreverse
      exact hreverse.symm
    · rw [List.mem_reverse]
      intro hmem
      simpa using List.mem_takeWhile_imp hmem

end Colons

section Parsing

variable {v : EnumeratedVector} {s pre suf : List Char}

/-- A metric is taken for what is searched: its name is compared with what fits of the part behind
the last colon. -/
def Taken (pre suf : List Char) (m : FpgaEnumMetric) : Bool :=
  strcasecmp m.qualifierName pre && strcasecmp m.metricName (suf.take metricNameMax)

/-- What is searched has no colon, or there is room for the part before the last one, the metric
that has the name has no colon in its own part of it, and what does not fit is not left out where a
metric has all the rest. -/
def Parses (found : List FpgaEnumMetric) (s : List Char) : Prop :=
  ∀ pre suf, splitLastColon s = some (pre, suf) → pre.length < sysfsPathMax ∧
    (∀ m, named found s = some m → ':' ∉ m.metricName) ∧
    (suf.length ≤ metricNameMax ∨ ∀ m ∈ found, Taken pre suf m = false)

theorem findName_eq (pre suf : List Char) (found : List FpgaEnumMetric) :
    findName pre (suf.take metricNameMax) (found.map some) =
      some (found.find? (Taken pre suf)) := by
  induction found with
  | nil => rfl
  | cons m found ih =>
    rw [List.map_cons, findName, List.find?_cons, ih]
    cases htaken : Taken pre suf m with
    | true => rw [if_pos (Bool.and_eq_true_iff.mp htaken)]
    | false => rw [if_neg (mt Bool.and_eq_true_iff.mpr (Bool.eq_false_iff.mp htaken))]

theorem parse_eq (hsplit : splitLastColon s = some (pre, suf)) :
    parseMetricNumName (some s) v.vector = some ((v.found.find? (Taken pre suf)).elim
      (.notFound, 0) fun m => (.ok, m.metricNum)) := by
  rw [parseMetricNumName, Option.bind_some, hsplit]
  simp only [v.holds.items_eq, findName_eq, bind, Option.bind]
  cases v.found.find? (Taken pre suf) <;> rfl

theorem parse_of_no_colon (hsplit : splitLastColon s = none) :
    parseMetricNumName (some s) v.vector = some (.invalidParam, 0) := by
  rw [parseMetricNumName, Option.bind_some, hsplit]

theorem of_named {found : List FpgaEnumMetric} {m : FpgaEnumMetric}
    (hm : named found s = some m) : m ∈ found ∧ strcasecmp (composed m) s = true :=
  ⟨List.mem_of_find?_eq_some hm, List.find?_some (p := fun m => strcasecmp (composed m) s) hm⟩

/-- A metric that is taken has the name that is searched, unless some of that was left out. -/
theorem taken_iff (hsplit : splitLastColon s = some (pre, suf)) (hfits : suf.length ≤ metricNameMax)
    (m : FpgaEnumMetric) :
    Taken pre suf m = true ↔ strcasecmp (composed m) s = true ∧ ':' ∉ m.metricName := by
  obtain ⟨rfl, hsuf⟩ := splitLastColon_eq_some hsplit
  rw [Taken, Bool.and_eq_true, List.take_of_length_le hfits]
  constructor
  · rintro ⟨hq, hm⟩
    have hcolon : ':' ∉ m.metricName := by
      intro hmem
      have hlower := colon_mem_lower.mpr hmem
      rw [strcasecmp_iff.mp hm] at hlower
      exact hsuf (colon_mem_lower.mp hlower)
    exact ⟨(strcasecmp_append hcolon hsuf).mpr ⟨hq, hm⟩, hcolon⟩
  · rintro ⟨hs, hcolon⟩
    exact (strcasecmp_append hcolon hsuf).mp hs

theorem length_le_of_named (hsplit : splitLastColon s = some (pre, suf)) {m : FpgaEnumMetric}
    (hm : named v.found s = some m) : suf.length ≤ metricNameMax := by
  obtain ⟨rfl, hsuf⟩ := splitLastColon_eq_some hsplit
  obtain ⟨hmem, hname⟩ := of_named hm
  exact Nat.le_trans (length_le_of_strcasecmp hsuf hname) (v.fits m hmem)

theorem colon_notMem (hsplit : splitLastColon s = none) : ':' ∉ s := by
  intro hmem
  rw [splitLastColon] at hsplit
  split at hsplit
  · next hnil =>
    have hall := List.dropWhile_eq_nil_iff.mp hnil ':' (List.mem_reverse.mpr hmem)
    exact absurd hall (by decide)
  · exact nomatch hsplit

theorem named_of_no_colon (hsplit : splitLastColon s = none) (found : List FpgaEnumMetric) :
    named found s = none := by
  rw [named, List.find?_eq_none]
  intro m _ hname
  have hmem : ':' ∈ (composed m).map Char.toLower :=
    colon_mem_lower.mpr (List.mem_append_right _ List.mem_cons_self)
  rw [strcasecmp_iff.mp hname] at hmem
  exact colon_notMem hsplit (colon_mem_lower.mp hmem)

theorem inBounds_iff (hsplit : splitLastColon s = some (pre, suf)) :
    (∀ w ∈ parseWrites s, w.count ≤ w.size) ↔ pre.length < sysfsPathMax := by
  rw [parseWrites, hsplit]
  have hfits : (suf.take metricNameMax).length + 1 ≤ sysfsPathMax :=
    Nat.succ_le_succ (List.length_take_le _ _)
  simp only [List.mem_cons, List.not_mem_nil, or_false, forall_eq_or_imp, forall_eq]
  exact and_iff_right hfits

theorem resolves_of_parses (h : Parses v.found s) :
    Resolves v.found s (parseMetricNumName (some s) v.vector) := by
  cases hsplit : splitLastColon s with
  | none =>
    refine ⟨?_, fun m hm => ?_, fun _ => ⟨_, _, parse_of_no_colon hsplit, .inr rfl⟩⟩
    · rw [parseWrites, hsplit]
      exact nofun
    · exact nomatch hm.symm.trans (named_of_no_colon hsplit v.found)
  | some parts =>
    obtain ⟨pre, suf⟩ := parts
    obtain ⟨hpre, hcolon, hlong⟩ := h pre suf hsplit
    rw [parse_eq hsplit]
    refine ⟨(inBounds_iff hsplit).mpr hpre, fun m hm => ?_, fun hnone => ?_⟩
    · have hfits := length_le_of_named hsplit hm
      have htaken : v.found.find? (Taken pre suf) = some m := by
        obtain ⟨hname, before, after, hfound, hbefore⟩ := List.find?_eq_some_iff_append.mp hm
        refine List.find?_eq_some_iff_append.mpr
          ⟨(taken_iff hsplit hfits m).mpr ⟨hname, hcolon m hm⟩, before, after, hfound, ?_⟩
        intro m' hm'
        rw [Bool.not_eq_true', Bool.eq_false_iff]
        intro htaken
        have hname' := ((taken_iff hsplit hfits m').mp htaken).1
        exact absurd hname' (by simpa using hbefore m' hm')
      rw [htaken]
      rfl
    · have hnot : v.found.find? (Taken pre suf) = none := by
        rw [List.find?_eq_none]
        intro m hm htaken
        cases hlong with
        | inl hfits =>
          exact List.find?_eq_none.mp hnone m hm ((taken_iff hsplit hfits m).mp htaken).1
        | inr hlong => exact nomatch htaken.symm.trans (hlong m hm)
      rw [hnot]
      exact ⟨_, _, rfl, .inl rfl⟩

theorem parses_of_resolves (h : Resolves v.found s (parseMetricNumName (some s) v.vector)) :
    Parses v.found s := by
  intro pre suf hsplit
  have hparse := parse_eq (v := v) hsplit
  refine ⟨(inBounds_iff hsplit).mp h.inBounds, fun m hm => ?_, ?_⟩
  · have hok := h.ok m hm
    rw [hparse] at hok
    cases htaken : v.found.find? (Taken pre suf) with
    | none =>
      rw [htaken] at hok
      exact nomatch hok
    | some m' =>
      rw [htaken] at hok
      have hnum : m'.metricNum = m.metricNum := (Prod.mk.inj (Option.some.inj hok)).2
      obtain rfl := List.inj_on_of_nodup_map v.nodup (List.mem_of_find?_eq_some htaken)
        (of_named hm).1 hnum
      exact ((taken_iff hsplit (length_le_of_named hsplit hm) m').mp (List.find?_some htaken)).2
  · by_contra hnot
    obtain ⟨hlong, hex⟩ := not_or.mp hnot
    simp only [not_forall, Bool.not_eq_false] at hex
    obtain ⟨m, hm, htaken⟩ := hex
    cases hnamed : named v.found s with
    | some m' => exact hlong (length_le_of_named hsplit hnamed)
    | none =>
      obtain ⟨result, num, hresult, hcases⟩ := h.notFound hnamed
      rw [hparse] at hresult
      cases hfind : v.found.find? (Taken pre suf) with
      | none => exact List.find?_eq_none.mp hfind m hm htaken
      | some m' =>
        rw [hfind] at hresult
        obtain rfl : FpgaResult.ok = result := (Prod.mk.inj (Option.some.inj hresult)).1
        exact hcases.elim nofun nofun

end Parsing

/-- A name resolves to its metric just where the part before its last colon has room, the metric has
no colon of its own, and nothing is taken for what is longer than a name. -/
theorem parseMetricNumName_resolves_iff (v : EnumeratedVector) (s : List Char) :
    Resolves v.found s (parseMetricNumName (some s) v.vector) ↔ Parses v.found s :=
  ⟨parses_of_resolves, resolves_of_parses⟩

section Sample

/-- A metric with a colon in its own part of the name. -/
def colonMetric : FpgaEnumMetric where
  groupName := []
  metricName := ['b', ':', 'c']
  metricSysfs := []
  qualifierName := ['a']
  metricUnits := []
  metricNum := 1
  metricDatatype := .double
  metricType := .power
  hwType := .dcpRc
  mmioOffset := 0

def colonVector : EnumeratedVector where
  vector := ⟨some [some colonMetric], fpgaVectorCapacity, 1⟩
  found := [colonMetric]
  holds := ⟨rfl, rfl⟩
  nodup := List.nodup_singleton _
  fits := by decide

/-- It is not found by its name. -/
theorem colonMetric_not_found : ¬Resolves colonVector.found (composed colonMetric)
    (parseMetricNumName (some (composed colonMetric)) colonVector.vector) := by
  intro h
  have hnamed : named colonVector.found (composed colonMetric) = some colonMetric := by decide
  have hcolon := (parses_of_resolves h ['a', ':', 'b'] ['c'] (by decide)).2.1 colonMetric hnamed
  exact hcolon (by decide)

end Sample

end OpaeLibs.PluginXfpga.MetricNames
