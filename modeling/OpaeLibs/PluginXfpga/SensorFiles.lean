import OpaeLibs.PluginXfpga.SysfsReads

namespace OpaeLibs.PluginXfpga.SensorFiles

open OpaeLibs.Lib.Overlays OpaeLibs.OpaeC.Props OpaeLibs.PluginXfpga.SysfsReads

/-- A file of a sensor, in the pieces in which it is read. `fails` is whether there is an error
behind them. -/
structure SensorFile extends SplitFile where
  fails : Bool

namespace SensorFile

variable (f : SensorFile)

def opened : OpenFile := ⟨f.size, f.reads.map outcome ++ if f.fails then [.fails] else []⟩

def contents : List UInt8 := f.toSplitFile.contents

def buffer : List UInt8 := f.contents ++ List.replicate (f.size - f.contents.length) 0

/-- The loop gets as far as the error. -/
def Failing : Prop := f.fails = true ∧ (f.contents.length < f.size ∨ f.reads = [])

instance : Decidable f.Failing := inferInstanceAs (Decidable (_ ∧ _))

end SensorFile

/-- `read_sensor_sysfs_file`, where there may be no memory for the buffer. -/
def readSensorFile (memory : Bool) (file : Option SensorFile) :
    Option (FpgaResult × Option (List UInt8) × UInt32) :=
  if memory then readSensorSysfsFile (file.map SensorFile.opened)
  else
    match file with
    | none => some (.notFound, none, 0)
    | some f => some (if nullLoop f.size f.opened.reads then .ok else .exception, none, 0)

section Loop

variable {place : Nat → Nat} {size tot : Nat} {buffer : List UInt8}

theorem pieces_nil : pieces [] = [] := rfl

theorem readLoop_append_eq_none {reads : List ReadOutcome} (rest : List ReadOutcome)
    (h : readLoop place size reads tot buffer = none) :
    readLoop place size (reads ++ rest) tot buffer = none := by
  induction reads generalizing tot buffer with
  | nil => cases h
  | cons r reads ih =>
    rw [List.cons_append]
    cases r with
    | fails => cases h
    | interrupted =>
      rw [readLoop] at h ⊢
      split at h
      · next hlt =>
        rw [if_pos hlt]
        exact ih h
      · cases h
    | data bytes =>
      rw [readLoop] at h ⊢
      split at h
      · next hover => rw [if_pos hover]
      · next hover =>
        rw [if_neg hover]
        split at h
        · next hlt =>
          rw [if_pos hlt]
          exact ih h
        · cases h

theorem ends_of_rest {reads : List (Option Piece)} {P Q : Prop} (hmore : tot < size)
    (h : if tot + (pieces reads).flatten.length < size ∨ reads = [] then P else Q) :
    if tot + (pieces reads).flatten.length < size then P else Q := by
  by_cases hnil : reads = []
  · subst hnil
    rw [if_pos (.inr rfl)] at h
    rwa [pieces_nil, List.flatten_nil, List.length_nil, Nat.add_zero, if_pos hmore]
  · simpa only [hnil, or_false] using h

theorem readLoop_fails (place : Nat → Nat) (buffer : List UInt8) {reads : List (Option Piece)}
    (hfits : tot + (pieces reads).flatten.length ≤ size)
    (hlt : tot + (pieces reads).flatten.length < 2 ^ 31) :
    ∃ last, readLoop place size (reads.map outcome ++ [.fails]) tot buffer = some last ∧
      if tot + (pieces reads).flatten.length < size ∨ reads = [] then last.failed = true
      else readLoop place size (reads.map outcome) tot buffer = some last := by
  induction reads generalizing tot buffer with
  | nil => exact ⟨_, rfl, by rw [if_pos (.inr rfl)]⟩
  | cons r reads ih =>
    have hcons : r :: reads ≠ [] := List.cons_ne_nil r reads
    rw [List.map_cons, List.cons_append]
    simp only [hcons, or_false]
    cases r with
    | none =>
      rw [pieces_none] at hfits hlt ⊢
      rw [outcome, readLoop, readLoop]
      by_cases hmore : tot < size
      · rw [if_pos hmore, if_pos hmore]
        obtain ⟨last, hlast, hend⟩ := ih buffer hfits hlt
        exact ⟨last, hlast, ends_of_rest hmore hend⟩
      · rw [if_neg hmore, if_neg hmore]
        exact ⟨_, rfl, by rw [if_neg (by omega)]⟩
    | some piece =>
      rw [pieces_some, List.flatten_cons, List.length_append, ← Nat.add_assoc] at hfits hlt ⊢
      have hsmall : ¬2 ^ 31 ≤ tot + piece.val.length := by omega
      rw [outcome, readLoop, readLoop, if_neg hsmall, if_neg hsmall]
      by_cases hmore : tot + piece.val.length < size
      · rw [if_pos hmore, if_pos hmore]
        obtain ⟨last, hlast, hend⟩ := ih (splice buffer (place tot) piece.val) hfits hlt
        exact ⟨last, hlast, ends_of_rest hmore hend⟩
      · rw [if_neg hmore, if_neg hmore]
        exact ⟨_, rfl, by rw [if_neg (by omega)]⟩

end Loop

section Reading

variable {f : SensorFile}

theorem readSensorFile_eq (hlt : f.contents.length < 2 ^ 31) :
    readSensorFile true (some f) = some (if f.Failing then (.exception, none, 0)
      else (.ok, some f.buffer, UInt32.ofNat f.contents.length)) := by
  have hfits : 0 + (pieces f.reads).flatten.length ≤ f.size := by
    rw [Nat.zero_add]
    exact f.fits
  have hlt' : 0 + (pieces f.reads).flatten.length < 2 ^ 31 := by rwa [Nat.zero_add]
  have hread : readSensorFile true (some f) =
      (readLoop id f.size f.opened.reads 0 (List.replicate f.size 0)).map fun last =>
        if f.size < last.totBytes || last.failed then (.exception, none, 0)
        else (.ok, some last.buffer, UInt32.ofNat last.totBytes) := rfl
  have hwhole : readLoop id f.size (f.reads.map outcome) 0 (List.replicate f.size 0) = _ :=
    readLoop_eq hfits hlt'
  have hbuffer : filled id 0 (List.replicate f.size 0) (pieces f.reads) = f.buffer := by
    have hroom : (pieces f.reads).flatten.length ≤ (List.replicate f.size (0 : UInt8)).length := by
      rw [List.length_replicate]
      exact f.fits
    have hrow := inRow_eq [] hroom
    rw [List.nil_append, List.nil_append, List.length_nil, List.drop_replicate] at hrow
    rw [filled_id, hrow]
    rfl
  have hcounted : (decide (f.size < f.contents.length) || false) = false := by
    rw [Bool.or_false, decide_eq_false_iff_not]
    exact Nat.not_lt.mpr f.fits
  have hlength : (pieces f.reads).flatten.length = f.contents.length := rfl
  rw [Nat.zero_add, hbuffer, hlength] at hwhole
  rw [hread, SensorFile.opened]
  cases hfails : f.fails with
  | false =>
    have hnot : ¬f.Failing := fun h => Bool.false_ne_true (hfails.symm.trans h.1)
    rw [if_neg hnot, if_neg Bool.false_ne_true, List.append_nil, hwhole, Option.map_some, hcounted,
      if_neg Bool.false_ne_true]
  | true =>
    obtain ⟨last, hlast, hend⟩ := readLoop_fails id (List.replicate f.size 0) hfits hlt'
    rw [if_pos rfl, hlast, Option.map_some]
    rw [Nat.zero_add, hlength] at hend
    by_cases hfailing : f.Failing
    · rw [if_pos hfailing.2] at hend
      rw [if_pos hfailing, hend, Bool.or_true, if_pos rfl]
    · have hnot : ¬(f.contents.length < f.size ∨ f.reads = []) := fun h => hfailing ⟨hfails, h⟩
      rw [if_neg hnot, hwhole] at hend
      obtain rfl := Option.some.inj hend
      rw [if_neg hfailing, hcounted, if_neg Bool.false_ne_true]

theorem readSensorFile_eq_none (hge : 2 ^ 31 ≤ f.contents.length) :
    readSensorFile true (some f) = none := by
  have hfits : 0 + (pieces f.reads).flatten.length ≤ f.size := by
    rw [Nat.zero_add]
    exact f.fits
  have hge' : 2 ^ 31 ≤ 0 + (pieces f.reads).flatten.length := by rwa [Nat.zero_add]
  have hloop : readLoop id f.size (f.reads.map outcome) 0 (List.replicate f.size 0) = none :=
    readLoop_eq_none hfits (by decide) hge'
  have hnone := readLoop_append_eq_none (if f.fails then [.fails] else []) hloop
  have hread : readSensorFile true (some f) =
      (readLoop id f.size f.opened.reads 0 (List.replicate f.size 0)).map fun last =>
        if f.size < last.totBytes || last.failed then (.exception, none, 0)
        else (.ok, some last.buffer, UInt32.ofNat last.totBytes) := rfl
  rw [hread, SensorFile.opened, hnone, Option.map_none]

theorem readSensorFile_unread {memory : Bool} {file : Option SensorFile}
    (h : memory = false ∨ file = none) :
    ∃ res, readSensorFile memory file = some (res, none, 0) := by
  cases memory with
  | false =>
    cases file with
    | none => exact ⟨_, rfl⟩
    | some f => exact ⟨_, rfl⟩
  | true =>
    cases h with
    | inl h => exact nomatch h
    | inr h =>
      subst h
      exact ⟨_, rfl⟩

theorem readSensorFile_cases (memory : Bool) (file : Option SensorFile) :
    (readSensorFile memory file = none ∧ ∃ f, memory = true ∧ file = some f ∧
      2 ^ 31 ≤ f.contents.length) ∨
    (∃ f, memory = true ∧ file = some f ∧ f.contents.length < 2 ^ 31 ∧ ¬f.Failing ∧
      readSensorFile memory file =
        some (.ok, some f.buffer, UInt32.ofNat f.contents.length)) ∨
    ((∀ f, memory = true → file = some f → f.contents.length < 2 ^ 31 ∧ f.Failing) ∧
      ∃ res, readSensorFile memory file = some (res, none, 0)) := by
  by_cases hunread : memory = false ∨ file = none
  · refine .inr (.inr ⟨fun f hmem hfile => ?_, readSensorFile_unread hunread⟩)
    subst hmem hfile
    exact nomatch hunread
  · rw [not_or, Bool.not_eq_false] at hunread
    obtain ⟨rfl, hfile⟩ := hunread
    obtain ⟨f, rfl⟩ := Option.ne_none_iff_exists'.mp hfile
    by_cases hlt : f.contents.length < 2 ^ 31
    · have heq := readSensorFile_eq hlt
      by_cases hfailing : f.Failing
      · rw [if_pos hfailing] at heq
        refine .inr (.inr ⟨fun f' _ hf' => ?_, _, heq⟩)
        cases hf'
        exact ⟨hlt, hfailing⟩
      · rw [if_neg hfailing] at heq
        exact .inr (.inl ⟨f, rfl, rfl, hlt, hfailing, heq⟩)
    · have hge := Nat.not_lt.mp hlt
      exact .inl ⟨readSensorFile_eq_none hge, f, rfl, rfl, hge⟩

end Reading

end OpaeLibs.PluginXfpga.SensorFiles
