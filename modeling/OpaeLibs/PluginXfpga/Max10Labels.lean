import OpaeLibs.PluginXfpga.Max10Metrics

namespace OpaeLibs.PluginXfpga.Max10Labels

open OpaeLibs.Lib.CStrings (ascii)
open OpaeLibs.OpaeC.Props OpaeLibs.PluginXfpga.Metrics OpaeLibs.PluginXfpga.SensorFiles
  OpaeLibs.PluginXfpga.Max10Metrics
open OpaeLibs.PluginXfpga.Thresholds (sysfsPathMax printed)

section Properties

/-- The text of a label ends with its file, or with a terminator before. -/
def labelText (f : SensorFile) : List UInt8 := f.contents.takeWhile (· ≠ 0)

def withoutNewline (text : List UInt8) : List UInt8 :=
  if text.getLast? = some newline then text.dropLast else text

/-- The metric has the text of the label as its name, and if its type is known also behind the name
of its group. -/
def Carries (env : Max10Env) (path : List UInt8) (m : Max10Metric) : Prop :=
  ∃ f, env.file (printed path) = some f ∧ m.metricName = withoutNewline (labelText f) ∧
    (m.metricType ≠ .unknown → m.qualifierName = printed (m.groupName ++ 58 :: m.metricName))

/-- The metrics that are added, each for a label and in the order of the labels. -/
def Adds (env : Max10Env) (paths : List (List UInt8)) (before after : List Max10Metric) : Prop :=
  ∃ added : List (List UInt8 × Max10Metric), after = before ++ added.map Prod.snd ∧
    (added.map Prod.fst).Sublist paths ∧ ∀ a ∈ added, Carries env a.1 a.2

/-- There is no access outside of a buffer, and the metrics have the texts of their labels. -/
def Enumerates (env : Max10Env) (vector : List Max10Metric) (metricNum : UInt64)
    (hwType : FpgaHwType) : Prop :=
  ∃ out, dflEnumMax10MetricsInfo env vector metricNum hwType = some out ∧
    Adds env (env.labels.getD []) vector out.2.1

end Properties

section Conditions

variable (env : Max10Env)

/-- A label that is read has a text, and both it and the path are short enough for their
buffers. -/
def LabelFits (i : Nat) (path : List UInt8) : Prop :=
  ∀ f, env.memory i = true → env.file (printed path) = some f → f.contents.length < 2 ^ 31 ∧
    (¬f.Failing → labelText f ≠ [] ∧ (labelText f).length < sysfsPathMax ∧
      path.length - 5 < sysfsPathMax)

def Continues (i : Nat) (path : List UInt8) : Prop :=
  ∀ f, env.memory i = true → env.file (printed path) = some f → ¬f.Failing →
    path.length - 5 + (dflValue.length + 1) < sysfsPathMax ∧ env.add i ≠ .noMemory

/-- Each label fits to which the loop comes. -/
def LabelsFit : Nat → List (List UInt8) → Prop
  | _, [] => True
  | i, path :: paths => LabelFits env i path ∧ (Continues env i path → LabelsFit (i + 1) paths)

structure Starts (hwType : FpgaHwType) (paths : List (List UInt8)) : Prop where
  params : env.params = true
  hwType : hwType ≠ .unknown
  token : env.token = true
  sysfspath : ∃ p, env.sysfspath = .ok p ∧
    p.val.length + (dflMax10SysfsLabel.length + 1) < sysfsPathMax
  groups : ∃ group, env.groups = some [group]
  labels : env.labels = some paths

end Conditions

section Names

variable {f : SensorFile} {path : List UInt8}

theorem take_buffer (f : SensorFile) : f.buffer.take f.contents.length = f.contents :=
  List.take_left

theorem labelName_eq (f : SensorFile) : labelName f.buffer f.contents.length =
    if sysfsPathMax ≤ (labelText f).length then none
    else if (labelText f).length = 0 then none else some (withoutNewline (labelText f)) := by
  rw [labelName, take_buffer]
  rfl

theorem labelName_ne_none_iff (f : SensorFile) : labelName f.buffer f.contents.length ≠ none ↔
    labelText f ≠ [] ∧ (labelText f).length < sysfsPathMax := by
  rw [labelName_eq]
  split
  · next hlong => exact iff_of_false (fun h => h rfl) fun h => Nat.not_lt.mpr hlong h.2
  · next hshort =>
    split
    · next hnil =>
      exact iff_of_false (fun h => h rfl) fun h => h.1 (List.length_eq_zero_iff.mp hnil)
    · next hne =>
      exact iff_of_true nofun ⟨fun h => hne (List.length_eq_zero_iff.mpr h), Nat.not_le.mp hshort⟩

theorem valueStem_eq (hpath : ascii "_label" <:+ path) : valueStem path =
    if path.length - 5 < sysfsPathMax then some (path.take (path.length - 5)) else none := by
  have hlen : 5 ≤ path.length := Nat.le_trans (by decide) hpath.length_le
  rw [valueStem]
  by_cases hlt : path.length - 5 < sysfsPathMax
  · rw [if_pos hlt, if_neg (by omega)]
  · rw [if_neg hlt, if_pos (by omega)]

theorem nameGroup_qualifier (path name : List UInt8) (s : Progress) :
    (nameGroup path name s).metricType ≠ .unknown → (nameGroup path name s).qualifierName =
      printed ((nameGroup path name s).groupName ++ 58 :: name) := by
  rw [nameGroup]
  split
  · exact fun _ => rfl
  · split
    · exact fun _ => rfl
    · exact fun h => absurd rfl h

theorem nameGroup_vector (path name : List UInt8) (s : Progress) :
    (nameGroup path name s).vector = s.vector := by
  rw [nameGroup]
  split
  · rfl
  · split <;> rfl

end Names

section Loop

variable {env : Max10Env} {group : List UInt8} {hwType : FpgaHwType} {i : Nat} {path : List UInt8}
  {paths : List (List UInt8)} {result : FpgaResult} {s : Progress}

def metricOf (group : List UInt8) (hwType : FpgaHwType) (path name : List UInt8) (s : Progress) :
    Max10Metric :=
  { metricNum := s.metricNum
    qualifierName := s.qualifierName
    groupName := s.groupName
    groupSysfs := group
    metricName := name
    metricSysfs := path.take (path.length - 5) ++ dflValue
    metricUnits := unitsOf path
    metricDatatype := .double
    metricType := s.metricType
    hwType := hwType
    mmioOffset := 0 }

theorem enumLabels_read {f : SensorFile} {n : UInt32} {name : List UInt8}
    (hread : readSensorFile (env.memory i) (env.file (printed path)) = some (.ok, some f.buffer, n))
    (hname : labelName f.buffer n.toNat = some name)
    (hstem : valueStem path = some (path.take (path.length - 5))) :
    enumLabels env group hwType i (path :: paths) result s =
      if path.length - 5 + (dflValue.length + 1) ≥ sysfsPathMax then
        some (.exception, nameGroup path name s)
      else
        match env.add i with
        | .noMemory => some (.noMemory, nameGroup path name s)
        | .lost => enumLabels env group hwType (i + 1) paths .ok
            { nameGroup path name s with metricNum := (nameGroup path name s).metricNum + 1 }
        | .added => enumLabels env group hwType (i + 1) paths .ok
            { nameGroup path name s with
              vector := (nameGroup path name s).vector ++
                [metricOf group hwType path name (nameGroup path name s)]
              metricNum := (nameGroup path name s).metricNum + 1 } := by
  rw [enumLabels, hread]
  simp only [Option.bind_eq_bind, Option.bind_some, hname, hstem]
  rw [List.length_take, Nat.min_eq_left (Nat.sub_le _ _)]
  rfl

theorem enumLabels_unread {res : FpgaResult}
    (hread : readSensorFile (env.memory i) (env.file (printed path)) = some (res, none, 0)) :
    enumLabels env group hwType i (path :: paths) result s =
      enumLabels env group hwType (i + 1) paths res s := by
  rw [enumLabels, hread]
  cases res <;> rfl

theorem fits_of_unread (hunread : ∀ f, env.memory i = true → env.file (printed path) = some f →
    f.contents.length < 2 ^ 31 ∧ f.Failing) : LabelFits env i path ∧ Continues env i path := by
  constructor
  · intro f hmem hfile
    exact ⟨(hunread f hmem hfile).1, fun hread => absurd (hunread f hmem hfile).2 hread⟩
  · intro f hmem hfile hread
    exact absurd (hunread f hmem hfile).2 hread

theorem labelFits_iff {f : SensorFile} (hmem : env.memory i = true)
    (hfile : env.file (printed path) = some f) (hlt : f.contents.length < 2 ^ 31)
    (hread : ¬f.Failing) : LabelFits env i path ↔
      labelName f.buffer f.contents.length ≠ none ∧ path.length - 5 < sysfsPathMax := by
  rw [labelName_ne_none_iff, and_assoc]
  constructor
  · exact fun h => (h f hmem hfile).2 hread
  · intro h f' _ hfile'
    obtain rfl := Option.some.inj (hfile.symm.trans hfile')
    exact ⟨hlt, fun _ => h⟩

theorem continues_iff {f : SensorFile} (hmem : env.memory i = true)
    (hfile : env.file (printed path) = some f) (hread : ¬f.Failing) : Continues env i path ↔
      path.length - 5 + (dflValue.length + 1) < sysfsPathMax ∧ env.add i ≠ .noMemory := by
  constructor
  · exact fun h => h f hmem hfile hread
  · intro h f' _ _ _
    exact h

theorem toNat_counted {f : SensorFile} (hlt : f.contents.length < 2 ^ 31) :
    (UInt32.ofNat f.contents.length).toNat = f.contents.length :=
  UInt32.toNat_ofNat_of_lt' (Nat.lt_trans hlt (by decide))

theorem enumLabels_eq_none {f : SensorFile} (hpath : ascii "_label" <:+ path)
    (hlt : f.contents.length < 2 ^ 31)
    (hread : readSensorFile (env.memory i) (env.file (printed path)) =
      some (.ok, some f.buffer, UInt32.ofNat f.contents.length))
    (hover : ¬(labelName f.buffer f.contents.length ≠ none ∧ path.length - 5 < sysfsPathMax)) :
    enumLabels env group hwType i (path :: paths) result s = none := by
  rw [enumLabels, hread]
  simp only [Option.bind_eq_bind, Option.bind_some, toNat_counted hlt, valueStem_eq hpath]
  by_cases hname : labelName f.buffer f.contents.length = none
  · rw [hname]
    rfl
  · obtain ⟨name, hname'⟩ := Option.ne_none_iff_exists'.mp hname
    rw [hname', if_neg fun hstem => hover ⟨hname, hstem⟩]
    rfl

theorem carries_metricOf (group : List UInt8) (hwType : FpgaHwType) (s : Progress)
    {f : SensorFile} {name : List UInt8} (hfile : env.file (printed path) = some f)
    (hname : labelName f.buffer f.contents.length = some name) :
    Carries env path (metricOf group hwType path name (nameGroup path name s)) := by
  refine ⟨f, hfile, ?_, nameGroup_qualifier path name s⟩
  rw [labelName_eq] at hname
  split at hname
  · exact nomatch hname
  · split at hname
    · exact nomatch hname
    · exact (Option.some.inj hname).symm

/-- All that a round can come to: an access outside of a buffer, the end of the loop, or the next
round, with a metric of the label or without one. -/
theorem enumLabels_cons_cases (group : List UInt8) (hwType : FpgaHwType) (i : Nat)
    (paths : List (List UInt8)) (result : FpgaResult) (s : Progress)
    (hpath : ascii "_label" <:+ path) :
    (¬LabelFits env i path ∧ enumLabels env group hwType i (path :: paths) result s = none) ∨
    (LabelFits env i path ∧ ¬Continues env i path ∧ ∃ res s', s'.vector = s.vector ∧
      enumLabels env group hwType i (path :: paths) result s = some (res, s')) ∨
    (LabelFits env i path ∧ Continues env i path ∧ ∃ res s',
      (s'.vector = s.vector ∨ ∃ m, Carries env path m ∧ s'.vector = s.vector ++ [m]) ∧
      enumLabels env group hwType i (path :: paths) result s =
        enumLabels env group hwType (i + 1) paths res s') := by
  obtain ⟨hnone, f, hmem, hfile, hge⟩ | ⟨f, hmem, hfile, hlt, hok, hread⟩ |
    ⟨hunread, res, hread⟩ := readSensorFile_cases (env.memory i) (env.file (printed path))
  · refine .inl ⟨fun hfits => Nat.not_lt.mpr hge (hfits f hmem hfile).1, ?_⟩
    rw [enumLabels, hnone]
    rfl
  · rw [labelFits_iff hmem hfile hlt hok, continues_iff hmem hfile hok]
    by_cases hfits : labelName f.buffer f.contents.length ≠ none ∧ path.length - 5 < sysfsPathMax
    · obtain ⟨name, hname⟩ := Option.ne_none_iff_exists'.mp hfits.1
      have hstem := valueStem_eq hpath
      have hvector := nameGroup_vector path name s
      rw [if_pos hfits.2] at hstem
      rw [enumLabels_read hread (by rwa [toNat_counted hlt]) hstem]
      by_cases hlong : path.length - 5 + (dflValue.length + 1) ≥ sysfsPathMax
      · rw [if_pos hlong]
        exact .inr (.inl ⟨hfits, fun h => Nat.not_lt.mpr hlong h.1, _, _, hvector, rfl⟩)
      · rw [if_neg hlong]
        cases hadd : env.add i with
        | noMemory => exact .inr (.inl ⟨hfits, fun h => h.2 rfl, _, _, hvector, rfl⟩)
        | lost =>
          refine .inr (.inr ⟨hfits, ⟨Nat.not_le.mp hlong, nofun⟩, _, _, .inl ?_, rfl⟩)
          exact hvector
        | added =>
          have hcarries := carries_metricOf group hwType s hfile hname
          refine .inr (.inr ⟨hfits, ⟨Nat.not_le.mp hlong, nofun⟩, _, _,
            .inr ⟨_, hcarries, ?_⟩, rfl⟩)
          exact congrArg (· ++ [_]) hvector
    · exact .inl ⟨hfits, enumLabels_eq_none hpath hlt hread hfits⟩
  · obtain ⟨hfits, hgoes⟩ := fits_of_unread hunread
    exact .inr (.inr ⟨hfits, hgoes, res, s, .inl rfl, enumLabels_unread hread⟩)

theorem enumLabels_ne_none_iff (hpaths : ∀ p ∈ paths, ascii "_label" <:+ p) :
    enumLabels env group hwType i paths result s ≠ none ↔ LabelsFit env i paths := by
  induction paths generalizing i result s with
  | nil => exact iff_of_true nofun trivial
  | cons path paths ih =>
    obtain ⟨hover, heq⟩ | ⟨hfits, hends, res, s', -, heq⟩ | ⟨hfits, hgoes, res, s', -, heq⟩ :=
      enumLabels_cons_cases group hwType i paths result s (hpaths path List.mem_cons_self)
    · rw [heq]
      exact iff_of_false (fun h => h rfl) fun h => hover h.1
    · rw [heq]
      exact iff_of_true nofun ⟨hfits, fun hgoes => absurd hgoes hends⟩
    · rw [heq, ih fun p hp => hpaths p (List.mem_cons_of_mem path hp)]
      exact ⟨fun h => ⟨hfits, fun _ => h⟩, fun h => h.2 hgoes⟩

theorem Adds.skip {before after : List Max10Metric} (h : Adds env paths before after) :
    Adds env (path :: paths) before after := by
  obtain ⟨added, hafter, hsub, hcarries⟩ := h
  exact ⟨added, hafter, hsub.cons path, hcarries⟩

theorem Adds.cons {before after : List Max10Metric} {m : Max10Metric} (hm : Carries env path m)
    (h : Adds env paths (before ++ [m]) after) : Adds env (path :: paths) before after := by
  obtain ⟨added, hafter, hsub, hcarries⟩ := h
  refine ⟨(path, m) :: added, ?_, hsub.cons_cons path, ?_⟩
  · rw [hafter, List.append_assoc]
    rfl
  · intro a ha
    cases ha with
    | head => exact hm
    | tail _ ha => exact hcarries a ha

theorem Adds.refl (vector : List Max10Metric) : Adds env paths vector vector :=
  ⟨[], (List.append_nil vector).symm, List.nil_sublist paths, nofun⟩

theorem enumLabels_adds {out : FpgaResult × Progress} (hpaths : ∀ p ∈ paths, ascii "_label" <:+ p)
    (hout : enumLabels env group hwType i paths result s = some out) :
    Adds env paths s.vector out.2.vector := by
  induction paths generalizing i result s with
  | nil =>
    obtain rfl := Option.some.inj hout
    exact .refl s.vector
  | cons path paths ih =>
    obtain ⟨-, heq⟩ | ⟨-, -, res, s', hvector, heq⟩ | ⟨-, -, res, s', hvector, heq⟩ :=
      enumLabels_cons_cases group hwType i paths result s (hpaths path List.mem_cons_self)
    · exact nomatch heq.symm.trans hout
    · obtain rfl := Option.some.inj (heq.symm.trans hout)
      rw [hvector]
      exact .refl s.vector
    · have hadds := ih (fun p hp => hpaths p (List.mem_cons_of_mem path hp)) (heq.symm.trans hout)
      obtain hsame | ⟨m, hm, hmore⟩ := hvector
      · exact (hsame ▸ hadds).skip
      · exact .cons hm (hmore ▸ hadds)

end Loop

section Enumeration

variable {env : Max10Env} {vector : List Max10Metric} {metricNum : UInt64} {hwType : FpgaHwType}

theorem dflEnumMax10MetricsInfo_starts {paths : List (List UInt8)} (vector : List Max10Metric)
    (metricNum : UInt64) (h : Starts env hwType paths) : ∃ group,
    dflEnumMax10MetricsInfo env vector metricNum hwType =
      (enumLabels env group hwType 0 paths .ok ⟨.power, [], [], vector, metricNum⟩).map
        fun (result, s) => (result, s.vector, s.metricNum) := by
  obtain ⟨p, hsysfspath, hshort⟩ := h.sysfspath
  obtain ⟨group, hgroups⟩ := h.groups
  refine ⟨printed group, ?_⟩
  rw [dflEnumMax10MetricsInfo]
  simp only [h.params, h.token, h.hwType, hsysfspath, hgroups, h.labels, Nat.not_le.mpr hshort,
    Bool.not_true, Bool.false_or, decide_false, Bool.false_eq_true, if_false]

theorem dflEnumMax10MetricsInfo_stops (h : ∀ paths, ¬Starts env hwType paths) :
    ∃ res, dflEnumMax10MetricsInfo env vector metricNum hwType =
      some (res, vector, metricNum) := by
  rw [dflEnumMax10MetricsInfo]
  by_cases hparams : (!env.params || decide (hwType = .unknown)) = true
  · exact ⟨_, if_pos hparams⟩
  rw [if_neg hparams]
  rw [Bool.or_eq_true, not_or, Bool.not_eq_true', Bool.not_eq_false, decide_eq_true_eq] at hparams
  by_cases htoken : (!env.token) = true
  · exact ⟨_, if_pos htoken⟩
  rw [if_neg htoken]
  rw [Bool.not_eq_true', Bool.not_eq_false] at htoken
  cases hsysfspath : env.sysfspath with
  | error e => exact ⟨_, rfl⟩
  | ok p =>
    dsimp only
    split
    · next group hgroups =>
      by_cases hlong : p.val.length + (dflMax10SysfsLabel.length + 1) ≥ sysfsPathMax
      · exact ⟨_, if_pos hlong⟩
      rw [if_neg hlong]
      cases hlabels : env.labels with
      | none => exact ⟨_, rfl⟩
      | some paths =>
        exact absurd ⟨hparams.1, hparams.2, htoken, ⟨p, hsysfspath, Nat.not_le.mp hlong⟩,
          ⟨group, hgroups⟩, hlabels⟩ (h paths)
    · exact ⟨_, rfl⟩

end Enumeration

/-- A label needs a text, and its text and its path need to be short enough for the buffers they are
copied to. -/
theorem max10_labels_iff (env : Max10Env) (vector : List Max10Metric) (metricNum : UInt64)
    (hwType : FpgaHwType) : Enumerates env vector metricNum hwType ↔
      ∀ paths, Starts env hwType paths → LabelsFit env 0 paths := by
  by_cases hstarts : ∃ paths, Starts env hwType paths
  · obtain ⟨paths, hstart⟩ := hstarts
    obtain ⟨group, heq⟩ := dflEnumMax10MetricsInfo_starts vector metricNum hstart
    have hpaths := env.labelled paths hstart.labels
    have hfit : (∀ paths, Starts env hwType paths → LabelsFit env 0 paths) ↔
        LabelsFit env 0 paths := by
      constructor
      · exact fun h => h paths hstart
      · intro h paths' hstart'
        obtain rfl := Option.some.inj (hstart.labels.symm.trans hstart'.labels)
        exact h
    rw [hfit, ← enumLabels_ne_none_iff hpaths, Enumerates, heq]
    constructor
    · intro ⟨out, hout, _⟩ hnone
      rw [hnone] at hout
      exact nomatch hout
    · intro hsome
      obtain ⟨out, hout⟩ := Option.ne_none_iff_exists'.mp hsome
      refine ⟨_, by rw [hout]; rfl, ?_⟩
      rw [hstart.labels]
      exact enumLabels_adds hpaths hout
  · obtain ⟨res, heq⟩ := dflEnumMax10MetricsInfo_stops (not_exists.mp hstarts)
    exact iff_of_true ⟨_, heq, .refl vector⟩ fun paths h => absurd ⟨paths, h⟩ hstarts

def emptyFile : SensorFile := ⟨⟨4096, [], by decide⟩, false⟩

def emptyLabelEnv : Max10Env where
  params := true
  token := true
  sysfspath := .ok ⟨ascii "h/", by decide⟩
  groups := some [ascii "h/"]
  labels := some [ascii "h/temp1_label"]
  labelled := fun _ h p hp => by
    obtain rfl := Option.some.inj h
    obtain rfl := List.mem_singleton.mp hp
    exact ⟨ascii "h/temp1", by decide⟩
  file := fun _ => some emptyFile
  memory := fun _ => true
  add := fun _ => .added

/-- The byte before the name is read. -/
theorem max10_labels_empty : ¬Enumerates emptyLabelEnv [] 0 .dcpN3000 := by
  rw [Enumerates]
  have hfalls : dflEnumMax10MetricsInfo emptyLabelEnv [] 0 .dcpN3000 = none := by
    have hstarts : Starts emptyLabelEnv .dcpN3000 [ascii "h/temp1_label"] :=
      ⟨rfl, nofun, rfl, ⟨_, rfl, by decide⟩, ⟨_, rfl⟩, rfl⟩
    obtain ⟨group, heq⟩ := dflEnumMax10MetricsInfo_starts [] 0 hstarts
    have hempty : labelText emptyFile = [] := rfl
    have hread : readSensorFile true (some emptyFile) =
      some (.ok, some emptyFile.buffer, UInt32.ofNat emptyFile.contents.length) := by
      rw [readSensorFile_eq (by decide), if_neg (by decide)]
    rw [heq, enumLabels_eq_none (f := emptyFile) ⟨ascii "h/temp1", by decide⟩ (by decide) hread]
    · rfl
    · rw [labelName_ne_none_iff]
      exact fun h => h.1.1 hempty
  rw [hfalls]
  exact fun ⟨_, hout, _⟩ => nomatch hout

end OpaeLibs.PluginXfpga.Max10Labels
