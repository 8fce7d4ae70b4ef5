import OpaeLibs.PluginXfpga.BmcRecords

namespace OpaeLibs.PluginXfpga.BmcReading

open OpaeLibs.Lib.Heap OpaeLibs.Lib.Overlays OpaeLibs.Lib.Ownership
open OpaeLibs.OpaeC.Props OpaeLibs.PluginXfpga.BmcRecords
open OpaeLibs.PluginXfpga.SysfsReads (ReadOutcome readLoop)

section Properties

/-- All bytes of the records below a number are in the buffer and read from the file. -/
def RecordsRead (s : Store Block) (size num : Nat) (contents : Option Nat) : Prop :=
  ∀ k < num, ∃ c buffer fromFile, contents = some c ∧
    s.heap.get c = some (.bytes buffer fromFile) ∧ size * (k + 1) ≤ fromFile ∧
    fromFile ≤ buffer.length

def SdrHandle (s : Store Block) (records : Stored) : Prop :=
  ∃ recs num contents, records = some (some recs) ∧
    s.heap.get recs = some (.sdrRec num contents) ∧ RecordsRead s sdrSize num contents

/-- An entry is set, with a name and with the index of its record. -/
def Initialised (s : Store Block) (entries : List (Option Nat)) (k : Nat) : Prop :=
  ∃ entry v name text, entries[k]? = some (some entry) ∧ s.heap.get entry = some (.value v) ∧
    v.sdr = some k ∧ v.name = some name ∧ s.heap.get name = some (.name text)

def ValuesHandle (s : Store Block) (values : Stored) : Prop :=
  ∃ vals num contents array entries, values = some (some vals) ∧
    s.heap.get vals = some (.bmcValues num contents (some array)) ∧
    RecordsRead s sensorReadingSize num contents ∧
    s.heap.get array = some (.array entries) ∧ entries.length = num ∧
    ∀ k < num, Initialised s entries k

/-- There is an error and nothing is owned, or there is the handle, if one is asked for. -/
def Ends (handle : Store Block → Stored → Prop) (asked : Bool) (base : Slots Block)
    (r : FpgaResult × Option Nat × Stored) (s : Store Block) : Prop :=
  r.1 ≠ .ok ∧ Released base s ∨
    r.1 = .ok ∧ if asked then handle s r.2.2 else Released base s

end Properties

section Conditions

variable (mem : Nat → Bool)

/-- The file is read to a buffer. -/
def Reads (calls : Nat) (token : Bool) (file : Option BmcFile) (f : BmcFile) : Prop :=
  token = true ∧ file = some f ∧ mem calls = true

/-- Where the file is read, it is not too long for an `int32_t`; and where a handle is made of it,
it comes in one read and consists of whole records. -/
def LoadFits (calls : Nat) (token : Option Bool) (file : Option BmcFile)
    (records numSensors : Bool) : Prop :=
  ∀ f, numSensors = true → Reads mem calls (token == some true) file f →
    f.total < 2 ^ 31 ∧ (f.succeeds → records = true → mem (calls + 1) = true →
      f.pieces.length ≤ 1 ∧ sdrSize ∣ f.total)

/-- The name of a record ends in the buffer. -/
def NameEnds (sdr : List UInt8) (i : Nat) : Prop :=
  ∀ content, sdrContent sdr i = some content → idName sdr i content.idString ≠ none

/-- The record has a value and a name: there is memory for both, and it is in the buffer. -/
def EntryFits (sdr : List UInt8) (calls i : Nat) : Prop :=
  mem calls = true ∧ mem (calls + 1) = true ∧ sdrSize * (i + 1) ≤ sdr.length ∧ NameEnds sdr i

def ReadFits (calls : Nat) (sdr : SdrRec) (file : Option BmcFile) (values numValues : Bool) :
    Prop :=
  ∀ f, sdr.magic = true → numValues = true → values = true → Reads mem calls sdr.token file f →
    f.total < 2 ^ 31 ∧ (f.succeeds → f.total = sensorReadingSize * sdr.numRecords →
      mem (calls + 1) = true → mem (calls + 2) = true ∧ f.pieces.length ≤ 1 ∧
        ∀ i < sdr.numRecords, EntryFits mem sdr.contents (calls + 3 + 2 * i) i)

end Conditions

section Loop

variable {size tot : Nat} {reads : List ReadOutcome} {bytes : List UInt8}

theorem taken_data_of_lt (h : tot + bytes.length < size) :
    taken size (.data bytes :: reads) tot =
      (bytes :: (taken size reads (tot + bytes.length)).1,
        (taken size reads (tot + bytes.length)).2) := by
  rw [taken, if_pos h]

theorem taken_data_of_not_lt (h : ¬tot + bytes.length < size) :
    taken size (.data bytes :: reads) tot = ([bytes], false) := by
  rw [taken, if_neg h]

theorem readLoop_zero (size : Nat) (reads : List ReadOutcome) (buffer : List UInt8)
    (htot : tot < 2 ^ 31)
    (hfits : ∀ bytes, ReadOutcome.data bytes ∈ reads → bytes.length ≤ buffer.length) :
    if tot + ((taken size reads tot).1.map List.length).sum < 2 ^ 31 then
      ∃ last, readLoop (fun _ => 0) size reads tot buffer =
        some ⟨tot + ((taken size reads tot).1.map List.length).sum, last,
          (taken size reads tot).2⟩ ∧ last.length = buffer.length
    else readLoop (fun _ => 0) size reads tot buffer = none := by
  induction reads generalizing tot buffer with
  | nil =>
    rw [if_pos (by simpa [taken] using htot)]
    exact ⟨buffer, by simp [readLoop, taken], rfl⟩
  | cons r reads ih =>
    have hrest : ∀ bytes, ReadOutcome.data bytes ∈ reads → bytes.length ≤ buffer.length :=
      fun b hb => hfits b (List.mem_cons_of_mem r hb)
    cases r with
    | interrupted =>
      rw [taken, readLoop]
      by_cases hlt : tot < size
      · rw [if_pos hlt, if_pos hlt]
        exact ih buffer htot hrest
      · rw [if_neg hlt, if_neg hlt, if_pos (by simpa using htot)]
        exact ⟨buffer, by simp, rfl⟩
    | fails =>
      rw [if_pos (by simpa [taken] using htot)]
      exact ⟨buffer, by simp [readLoop, taken], rfl⟩
    | data bytes =>
      have hlen : (splice buffer 0 bytes).length = buffer.length := by
        have hle := hfits bytes List.mem_cons_self
        rw [splice, List.take_zero, List.nil_append, List.length_append, List.length_drop]
        omega
      rw [readLoop]
      by_cases hlt : tot + bytes.length < size
      · rw [taken_data_of_lt hlt, if_pos hlt, List.map_cons, List.sum_cons, ← Nat.add_assoc]
        by_cases hover : 2 ^ 31 ≤ tot + bytes.length
        · rw [if_pos hover, if_neg (by omega)]
        · rw [if_neg hover, ← hlen]
          exact ih _ (Nat.not_le.mp hover) (by rwa [hlen])
      · rw [taken_data_of_not_lt hlt, if_neg hlt, List.map_singleton, List.sum_singleton]
        by_cases hover : 2 ^ 31 ≤ tot + bytes.length
        · rw [if_pos hover, if_neg (by omega)]
        · rw [if_neg hover, if_pos (by omega)]
          exact ⟨_, rfl, hlen⟩

theorem mem_taken {piece : List UInt8} (h : piece ∈ (taken size reads tot).1) :
    ReadOutcome.data piece ∈ reads := by
  induction reads generalizing tot with
  | nil => exact nomatch h
  | cons r reads ih =>
    cases r with
    | interrupted =>
      rw [taken] at h
      split at h
      · exact List.mem_cons_of_mem _ (ih h)
      · exact nomatch h
    | fails => exact nomatch h
    | data bytes =>
      by_cases hlt : tot + bytes.length < size
      · rw [taken_data_of_lt hlt] at h
        cases List.mem_cons.mp h with
        | inl heq => exact heq ▸ List.mem_cons_self
        | inr hmem => exact List.mem_cons_of_mem _ (ih hmem)
      · rw [taken_data_of_not_lt hlt] at h
        exact List.mem_singleton.mp h ▸ List.mem_cons_self

end Loop

section Pieces

variable {lens : List Nat}

theorem foldr_max_le_sum (lens : List Nat) : lens.foldr max 0 ≤ lens.sum := by
  induction lens with
  | nil => exact Nat.le_refl 0
  | cons n lens ih =>
    rw [List.foldr_cons, List.sum_cons]
    omega

theorem sum_le_foldr_max_iff (hpos : ∀ n ∈ lens, 0 < n) :
    lens.sum ≤ lens.foldr max 0 ↔ lens.length ≤ 1 := by
  cases lens with
  | nil => simp
  | cons n lens =>
    cases lens with
    | nil => simp
    | cons m lens =>
      have hle := foldr_max_le_sum lens
      have hn := hpos n List.mem_cons_self
      have hm := hpos m (List.mem_cons_of_mem n List.mem_cons_self)
      simp only [List.sum_cons, List.foldr_cons, List.length_cons]
      omega

theorem foldr_max_le {m : Nat} (h : ∀ n ∈ lens, n ≤ m) : lens.foldr max 0 ≤ m := by
  induction lens with
  | nil => exact Nat.zero_le m
  | cons n lens ih =>
    exact Nat.max_le.mpr ⟨h n List.mem_cons_self, ih fun k hk => h k (List.mem_cons_of_mem n hk)⟩

variable (f : BmcFile)

theorem fromFile_le_size : f.fromFile ≤ f.size := by
  refine foldr_max_le fun n hn => ?_
  obtain ⟨piece, hpiece, rfl⟩ := List.mem_map.mp hn
  exact (f.bounded piece (mem_taken hpiece)).2

theorem fromFile_le_total : f.fromFile ≤ f.total := foldr_max_le_sum _

theorem total_le_fromFile_iff : f.total ≤ f.fromFile ↔ f.pieces.length ≤ 1 := by
  rw [BmcFile.total, BmcFile.fromFile, sum_le_foldr_max_iff, List.length_map]
  intro n hn
  obtain ⟨piece, hpiece, rfl⟩ := List.mem_map.mp hn
  exact List.length_pos_iff.mpr (f.bounded piece (mem_taken hpiece)).1

/-- The records of a file that is rounded up to whole ones have all their bytes if there is nothing
to round and the file comes in one read. -/
theorem sdr_fits_iff :
    sdrSize * ((f.total + sdrSize - 1) / sdrSize) ≤ f.fromFile ↔
      f.pieces.length ≤ 1 ∧ sdrSize ∣ f.total := by
  have hle := fromFile_le_total f
  rw [← total_le_fromFile_iff, sdrSize]
  omega

end Pieces

section Reading

variable {mem : Nat → Bool} {token : Bool} {file : Option BmcFile} {f : BmcFile} {s : Store Block}

theorem readSysfsFile_unread (h : ∀ f, ¬Reads mem s.calls token file f) :
    Runs (readSysfsFile mem token file) s fun r s' => r.2 = (none, 0) ∧ Owns s.heap s' [] := by
  cases token with
  | false => exact .pure ⟨rfl, owns_self s⟩
  | true =>
    cases file with
    | none => exact .pure ⟨rfl, owns_self s⟩
    | some f =>
      have hmem : mem s.calls = false := Bool.eq_false_iff.mpr fun hmem => h f ⟨rfl, rfl, hmem⟩
      refine (runs_malloc_none _ hmem (owns_self s)).bind ?_
      rintro _ s' ⟨rfl, howns⟩
      exact .pure ⟨rfl, howns⟩

theorem readLoop_file (f : BmcFile) :
    if f.total < 2 ^ 31 then
      ∃ last, readLoop (fun _ => 0) f.size f.reads 0 (List.replicate f.size 0) =
        some ⟨f.total, last, (taken f.size f.reads 0).2⟩ ∧ last.length = f.size
    else readLoop (fun _ => 0) f.size f.reads 0 (List.replicate f.size 0) = none := by
  have hloop := readLoop_zero f.size f.reads (List.replicate f.size 0)
    (Nat.two_pow_pos 31) fun bytes hbytes => by
      rw [List.length_replicate]
      exact (f.bounded bytes hbytes).2
  rwa [Nat.zero_add, List.length_replicate] at hloop

/-- What `read_sysfs_file` leaves of a file that it reads. -/
def ReadEnds (f : BmcFile) (s : Store Block) (r : FpgaResult × Option Nat × Nat)
    (s' : Store Block) : Prop :=
  ¬f.succeeds ∧ r = (.exception, none, 0) ∧ Owns s.heap s' [] ∨
    f.succeeds ∧ ∃ i buffer, r = (.ok, some i, f.total) ∧ Owns s.heap s' [i] ∧
      s'.calls = s.calls + 1 ∧ s'.heap.get i = some (.bytes buffer f.fromFile) ∧
      buffer.length = f.size

theorem readSysfsFile_reads (h : Reads mem s.calls token file f) :
    if f.total < 2 ^ 31 then Runs (readSysfsFile mem token file) s (ReadEnds f s)
    else Faults (readSysfsFile mem token file) s := by
  obtain ⟨rfl, rfl, hmem⟩ := h
  have hloop := readLoop_file f
  have hmalloc := runs_malloc_self mem (Block.bytes (List.replicate f.size 0) 0) s
  rw [if_pos hmem] at hmalloc
  by_cases hlt : f.total < 2 ^ 31
  · rw [if_pos hlt] at hloop ⊢
    obtain ⟨last, hloop, hlast⟩ := hloop
    refine hmalloc.bind ?_
    rintro p s₁ ⟨hcalls, howns, hget⟩
    obtain ⟨i, rfl, -⟩ := Option.map_eq_some_iff.mp hget
    simp only [hloop]
    refine (runs_write _ howns List.mem_cons_self).bind ?_
    rintro - s₂ ⟨howns₂, hcalls₂, hget₂⟩
    split
    · next hbad =>
      have hnot : ¬f.succeeds := by
        rw [Bool.or_eq_true, decide_eq_true_iff] at hbad
        rintro ⟨hfailed, hle⟩
        cases hbad with
        | inl hlt => exact Nat.not_lt.mpr hle hlt
        | inr hfail => exact Bool.false_ne_true (hfailed.symm.trans hfail)
      exact (runs_free howns₂).bind fun _ _ howns₃ => .pure (.inl ⟨hnot, rfl, howns₃⟩)
    · next hgood =>
      rw [Bool.not_eq_true, Bool.or_eq_false_iff, decide_eq_false_iff_not, Nat.not_lt] at hgood
      refine .pure (.inr ⟨⟨hgood.2, hgood.1⟩, i, last, rfl, howns₂, hcalls₂.trans hcalls, ?_,
        hlast⟩)
      rw [hget₂, if_pos rfl]
  · rw [if_neg hlt] at hloop ⊢
    refine hmalloc.bind_faults ?_
    rintro p s₁ ⟨-, -, hget⟩
    obtain ⟨i, rfl, -⟩ := Option.map_eq_some_iff.mp hget
    simp only [hloop]
    rfl

end Reading

section Loading

variable {mem : Nat → Bool} {file : Option BmcFile} {records : Bool} {s : Store Block}

theorem ends_error {handle : Store Block → Stored → Prop} {asked : Bool} {base : Slots Block}
    {r : FpgaResult × Option Nat × Stored} (hr : r.1 ≠ .ok) (h : Owns base s []) :
    Ends handle asked base r s := .inl ⟨hr, h.released⟩

theorem ends_count {handle : Store Block → Stored → Prop} {base : Slots Block} {n : Option Nat}
    {stored : Stored} (h : Owns base s []) : Ends handle false base (.ok, n, stored) s :=
  .inr ⟨rfl, h.released⟩

theorem ends_ok_iff {handle : Store Block → Stored → Prop} {base : Slots Block} {n : Option Nat}
    {stored : Stored} : Ends handle true base (.ok, n, stored) s ↔ handle s stored := by
  rw [Ends, if_pos rfl, and_iff_right rfl, or_iff_right fun h => h.1 rfl]

theorem recordsRead_iff {size num c fromFile : Nat} {buffer : List UInt8}
    (hget : s.heap.get c = some (.bytes buffer fromFile)) (hle : fromFile ≤ buffer.length) :
    RecordsRead s size num (some c) ↔ size * num ≤ fromFile := by
  constructor
  · intro h
    cases num with
    | zero => exact Nat.zero_le _
    | succ n =>
      obtain ⟨c, buffer', fromFile', hc, hget', hn, -⟩ := h n (Nat.lt_succ_self n)
      cases hc
      rw [hget] at hget'
      cases hget'
      exact hn
  · intro h k hk
    exact ⟨c, buffer, fromFile, rfl, hget, Nat.le_trans (Nat.mul_le_mul_left size hk) h, hle⟩

theorem beq_some_true (magic : Bool) : (some magic == some true) = magic := by cases magic <;> rfl

theorem loadFits_unread {magic numSensors : Bool} (h : ∀ f, ¬Reads mem s.calls magic file f) :
    LoadFits mem s.calls (some magic) file records numSensors := by
  intro f _ hreads
  rw [beq_some_true] at hreads
  exact absurd hreads (h f)

theorem loadFits_reads {magic : Bool} {f : BmcFile} (h : Reads mem s.calls magic file f) :
    LoadFits mem s.calls (some magic) file records true ↔
      f.total < 2 ^ 31 ∧ (f.succeeds → records = true → mem (s.calls + 1) = true →
        f.pieces.length ≤ 1 ∧ sdrSize ∣ f.total) := by
  rw [LoadFits, beq_some_true]
  refine ⟨fun hall => hall f rfl h, fun hfits f' _ hreads => ?_⟩
  obtain ⟨-, hfile, -⟩ := h
  obtain ⟨-, hfile', -⟩ := hreads
  cases hfile.symm.trans hfile'
  exact hfits

theorem runs_handle_empty {base : Slots Block} (h : Owns base s []) (records : Bool) :
    Runs (if !records then do
        free none
        pure (.ok, some 0, none)
      else do
        match (← malloc mem (.sdrRec 0 none)) with
        | none => do
          free none
          pure (.noMemory, some 0, some none)
        | some recs => do
          write (some recs) (.sdrRec 0 none)
          pure (.ok, some 0, some (some recs))) s (Ends SdrHandle records base) := by
  cases records with
  | false => exact (runs_free h).bind fun _ _ h => .pure (ends_count h)
  | true =>
    refine (runs_malloc_owns mem _ h).bind ?_
    rintro p s₁ ⟨-, -, ⟨-, rfl, howns⟩ | ⟨-, recs, rfl, howns⟩⟩
    · exact (runs_free howns).bind fun _ _ h => .pure (ends_error (by decide) h)
    · refine (runs_write _ howns List.mem_cons_self).bind ?_
      rintro - s₂ ⟨-, -, hget⟩
      refine .pure (ends_ok_iff.mpr ⟨recs, 0, none, rfl, ?_, nofun⟩)
      rw [hget, if_pos rfl]

theorem bmcLoadSDRs_unread {magic : Bool} (h : ∀ f, ¬Reads mem s.calls magic file f) :
    Runs (bmcLoadSDRs mem (some magic) file records true) s (Ends SdrHandle records s.heap) := by
  rw [bmcLoadSDRs]
  refine (readSysfsFile_unread h).bind ?_
  rintro ⟨res, p, n⟩ s₁ ⟨heq, howns⟩
  cases heq
  by_cases hres : res = .ok
  · subst hres
    exact runs_handle_empty howns records
  · simp only [ne_eq, hres, not_false_eq_true, if_true]
    exact (runs_free howns).bind fun _ _ h => .pure (ends_error hres h)

theorem bmcLoadSDRs_reads_iff {magic : Bool} {f : BmcFile} (h : Reads mem s.calls magic file f) :
    Runs (bmcLoadSDRs mem (some magic) file records true) s (Ends SdrHandle records s.heap) ↔
      f.total < 2 ^ 31 ∧ (f.succeeds → records = true → mem (s.calls + 1) = true →
        f.pieces.length ≤ 1 ∧ sdrSize ∣ f.total) := by
  have hread := readSysfsFile_reads h
  rw [bmcLoadSDRs]
  by_cases hlt : f.total < 2 ^ 31
  · rw [if_pos hlt] at hread
    rw [and_iff_right hlt]
    refine hread.bind_iff ?_
    rintro r s₁ (⟨hnot, rfl, howns⟩ | ⟨hok, i, buffer, rfl, howns, hcalls, hget, hlen⟩)
    · refine iff_of_true ?_ fun hok => absurd hok hnot
      exact (runs_free howns).bind fun _ _ h => .pure (ends_error (by decide) h)
    · rw [forall_prop_of_true hok]
      cases records with
      | false =>
        refine iff_of_true ?_ nofun
        exact (runs_free howns).bind fun _ _ h => .pure (ends_count h)
      | true =>
        rw [forall_prop_of_true rfl]
        refine (runs_malloc_owns mem _ howns).bind_iff ?_
        rintro p s₂ ⟨-, holder, ⟨hmem, rfl, howns₂⟩ | ⟨hmem, recs, rfl, howns₂⟩⟩
        · rw [hcalls] at hmem
          refine iff_of_true ?_ fun hmem' => absurd hmem' (by rw [hmem]; decide)
          exact (runs_free howns₂).bind fun _ _ h => .pure (ends_error nofun h)
        · rw [hcalls] at hmem
          rw [forall_prop_of_true hmem, ← sdr_fits_iff]
          refine (runs_write _ howns₂ List.mem_cons_self).bind_iff ?_
          rintro - s₃ ⟨-, -, hget₃⟩
          have hne : i ≠ recs := by
            rintro rfl
            exact (List.nodup_cons.mp howns₂.nodup).1 List.mem_cons_self
          have hi : s₃.heap.get i = some (.bytes buffer f.fromFile) := by
            rw [hget₃, if_neg hne, holder i (howns.lt_next List.mem_cons_self), hget]
          rw [runs_pure_iff, ends_ok_iff, ← recordsRead_iff hi (hlen ▸ fromFile_le_size f)]
          constructor
          · rintro ⟨recs', num, contents, heq, hrecs, hall⟩
            cases heq
            rw [hget₃, if_pos rfl] at hrecs
            cases hrecs
            exact hall
          · intro hall
            exact ⟨recs, _, some i, rfl, by rw [hget₃, if_pos rfl], hall⟩
  · rw [if_neg hlt] at hread
    exact (hread.bind _).runs_iff fun hfits => hlt hfits.1

theorem bmcLoadSDRs_iff (token : Option Bool) (numSensors : Bool) :
    Runs (bmcLoadSDRs mem token file records numSensors) s (Ends SdrHandle records s.heap) ↔
      LoadFits mem s.calls token file records numSensors := by
  cases token with
  | none =>
    refine iff_of_true (.pure (ends_error (by decide) (owns_self s))) ?_
    rintro f - ⟨hmagic, -⟩
    exact nomatch hmagic
  | some magic =>
    cases numSensors with
    | false =>
      exact iff_of_true (.pure (ends_error (by decide) (owns_self s))) nofun
    | true =>
      by_cases h : ∃ f, Reads mem s.calls magic file f
      · obtain ⟨f, h⟩ := h
        rw [bmcLoadSDRs_reads_iff h, loadFits_reads h]
      · have h := not_exists.mp h
        exact iff_of_true (bmcLoadSDRs_unread h) (loadFits_unread h)

end Loading

end OpaeLibs.PluginXfpga.BmcReading
