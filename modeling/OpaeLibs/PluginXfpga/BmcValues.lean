import OpaeLibs.PluginXfpga.BmcReading

namespace OpaeLibs.PluginXfpga.BmcValues

open OpaeLibs.Lib.Heap OpaeLibs.Lib.Ownership
open OpaeLibs.OpaeC.Props OpaeLibs.PluginXfpga.BmcRecords OpaeLibs.PluginXfpga.BmcReading

section Building

variable {mem : Nat → Bool} {sdr readings : List UInt8} {array i n : Nat} {s : Store Block}
  {entries : List (Option Nat)}

/-- The entry of a record is built, with or without a name. -/
def EntryBuilds (mem : Nat → Bool) (sdr : List UInt8) (calls i : Nat) : Prop :=
  mem calls = true ∧ sdrSize * (i + 1) ≤ sdr.length ∧ NameEnds sdr i

theorem entryFits_iff {calls : Nat} :
    EntryFits mem sdr calls i ↔ EntryBuilds mem sdr calls i ∧ mem (calls + 1) = true := by
  rw [EntryFits, EntryBuilds]
  constructor
  · rintro ⟨hval, hname, hbuilds⟩
    exact ⟨⟨hval, hbuilds⟩, hname⟩
  · rintro ⟨⟨hval, hbuilds⟩, hname⟩
    exact ⟨hval, hname, hbuilds⟩

theorem sensorReading_eq_some (h : sensorReadingSize * (i + 1) ≤ readings.length) :
    ∃ reading, sensorReading readings i = some reading := by
  rw [sensorReadingSize] at h
  have hat : ∀ j < 7, ∃ b, byteAt readings (sensorReadingSize * i + j) = some b := fun j hj =>
    ⟨_, List.getElem?_eq_getElem (by rw [sensorReadingSize]; omega)⟩
  obtain ⟨a, ha⟩ := hat 4 (by decide)
  obtain ⟨b, hb⟩ := hat 5 (by decide)
  obtain ⟨c, hc⟩ := hat 6 (by decide)
  exact ⟨⟨a, b, c⟩, by rw [sensorReading, ha, hb, hc]; rfl⟩

theorem sdrContent_eq_some (h : sdrSize * (i + 1) ≤ sdr.length) :
    ∃ content, sdrContent sdr i = some content := by
  have hat : ∀ j < 74, ∃ b, byteAt sdr (sdrSize * i + j) = some b := fun j hj =>
    ⟨_, List.getElem?_eq_getElem (by rw [sdrSize] at *; omega)⟩
  obtain ⟨a, ha⟩ := hat 7 (by decide)
  obtain ⟨b, hb⟩ := hat 12 (by decide)
  obtain ⟨c, hc⟩ := hat 20 (by decide)
  obtain ⟨d, hd⟩ := hat 47 (by decide)
  exact ⟨⟨a, b, c, d⟩, by rw [sdrContent, if_pos h, ha, hb, hc, hd]; rfl⟩

/-- A value is as it is built for a record: it has a name if there was memory for it. -/
def Built (mem : Nat → Bool) (calls : Nat) (s : Store Block) (v : Values) : Prop :=
  if mem calls then ∃ name text, v.name = some name ∧ s.heap.get name = some (.name text)
  else v.name = none

def Typed (sdr : List UInt8) (i : Nat) (v : Values) : Prop :=
  ∃ content, sdrContent sdr i = some content ∧ v.sensorType = content.type

/-- Of a heap, all blocks but one are kept. -/
def Keeps (s s' : Store Block) (array : Nat) : Prop :=
  ∀ j < s.heap.next, j ≠ array → s'.heap.get j = s.heap.get j

theorem bmcBuildValues_runs (h : EntryBuilds mem sdr s.calls i)
    (hlen : sensorReadingSize * (i + 1) ≤ readings.length) :
    Runs (bmcBuildValues mem sdr readings i) s fun r s' => s'.calls = s.calls + 2 ∧
      s.heap.next ≤ s'.heap.next ∧ (∀ j < s.heap.next, s'.heap.get j = s.heap.get j) ∧
      ∃ e v, r = some e ∧ s.heap.next ≤ e ∧ s'.heap.get e = some (.value v) ∧
        Typed sdr i v ∧ Built mem (s.calls + 1) s' v := by
  obtain ⟨hmem, hsdr, hname⟩ := h
  obtain ⟨content, hcontent⟩ := sdrContent_eq_some hsdr
  obtain ⟨reading, hreading⟩ := sensorReading_eq_some hlen
  obtain ⟨⟨text, named⟩, htext⟩ := Option.ne_none_iff_exists'.mp (hname content hcontent)
  rw [bmcBuildValues]
  refine (runs_malloc_owns mem _ (owns_self s)).bind ?_
  rintro p s₁ ⟨hcalls, holder, ⟨hnot, -⟩ | ⟨-, e, rfl, howns⟩⟩
  · exact absurd hmem (by rw [hnot]; decide)
  simp only [hcontent, hreading, htext]
  refine (runs_malloc_self mem _ s₁).bind ?_
  rintro name s₂ ⟨hcalls₂, howns₂, hget₂⟩
  have hall := howns.trans howns₂
  have he : e ∈ name.toList ++ [e] := List.mem_append_right _ List.mem_cons_self
  have hlt := howns.lt_next List.mem_cons_self
  refine (runs_write _ hall he).bind ?_
  rintro - s₃ ⟨howns₃, hcalls₃, hget₃⟩
  refine .pure ⟨by omega, howns₃.next_le, howns₃.older, e, _, rfl, howns.newer e List.mem_cons_self,
    by rw [hget₃, if_pos rfl], ⟨content, hcontent, rfl⟩, ?_⟩
  rw [hcalls] at hget₂
  rw [Built]
  cases hmem' : mem (s.calls + 1) with
  | false =>
    rw [hmem', if_neg Bool.false_ne_true, Option.map_eq_none_iff] at hget₂
    exact hget₂
  | true =>
    rw [hmem', if_pos rfl] at hget₂
    obtain ⟨k, rfl, hk⟩ := Option.map_eq_some_iff.mp hget₂
    have hne : k ≠ e := fun heq =>
      Nat.not_lt.mpr (howns₂.newer k List.mem_cons_self) (heq ▸ hlt)
    exact ⟨k, text, rfl, by rw [hget₃, if_neg hne, hk]⟩

theorem bmcBuildValues_faults (h : ¬EntryBuilds mem sdr s.calls i) (hmem : mem s.calls = true)
    (hlen : sensorReadingSize * (i + 1) ≤ readings.length) :
    Faults (bmcBuildValues mem sdr readings i) s := by
  rw [bmcBuildValues]
  refine (runs_malloc_owns mem _ (owns_self s)).bind_faults ?_
  rintro p s₁ ⟨-, -, ⟨hnot, -⟩ | ⟨-, e, rfl, -⟩⟩
  · exact absurd hmem (by rw [hnot]; decide)
  cases hcontent : sdrContent sdr i with
  | none => rfl
  | some content =>
    obtain ⟨reading, hreading⟩ := sensorReading_eq_some hlen
    have hsdr : sdrSize * (i + 1) ≤ sdr.length := by
      by_contra hnot
      rw [sdrContent, if_neg hnot] at hcontent
      exact nomatch hcontent
    cases hname : idName sdr i content.idString with
    | none =>
      simp only [hreading, hname]
      rfl
    | some text =>
      refine absurd ⟨hmem, hsdr, fun content' hcontent' hnone => ?_⟩ h
      cases hcontent.symm.trans hcontent'
      rw [hname] at hnone
      exact nomatch hnone

theorem Built.keeps {calls : Nat} {s' : Store Block} {v : Values} (h : Built mem calls s v)
    (harray : s.heap.get array = some (.array entries)) (hkeep : Keeps s s' array) :
    Built mem calls s' v := by
  rw [Built] at h ⊢
  split
  · next hmem =>
    rw [if_pos hmem] at h
    obtain ⟨name, text, hv, hget⟩ := h
    refine ⟨name, text, hv, (hkeep name (Slots.lt_next hget) ?_).trans hget⟩
    rintro rfl
    rw [harray] at hget
    exact nomatch hget
  · next hmem => rwa [if_neg hmem] at h

theorem buildAll_step (h : EntryBuilds mem sdr s.calls i)
    (hlen : sensorReadingSize * (i + 1) ≤ readings.length)
    (harray : s.heap.get array = some (.array entries)) :
    ∃ s' e v, buildAll mem sdr readings array (n + 1) i s =
        buildAll mem sdr readings array n (i + 1) s' ∧
      s'.calls = s.calls + 2 ∧ s.heap.next ≤ s'.heap.next ∧ Keeps s s' array ∧
      s'.heap.get array = some (.array (entries.set i (some e))) ∧
      s'.heap.get e = some (.value v) ∧ v.sdr = some i ∧ Typed sdr i v ∧
      Built mem (s.calls + 1) s' v := by
  obtain ⟨p, s₁, hrun₁, hcalls₁, hnext₁, holder, e, v, rfl, hnew, hv, htyped, hbuilt⟩ :=
    bmcBuildValues_runs h hlen
  have harray₁ := (holder array (Slots.lt_next harray)).trans harray
  have hne : e ≠ array := Nat.ne_of_gt (Nat.lt_of_lt_of_le (Slots.lt_next harray) hnew)
  obtain ⟨_, s₂, hrun₂, hcalls₂, hnext₂, hget₂⟩ :=
    runs_write_get harray₁ (Block.array (entries.set i (some e)))
  have hv₂ : s₂.heap.get e = some (.value v) := by rw [hget₂, if_neg hne, hv]
  obtain ⟨_, s₃, hrun₃, hcalls₃, hnext₃, hget₃⟩ :=
    runs_write_get hv₂ (Block.value { v with sdr := some i })
  refine ⟨s₃, e, { v with sdr := some i }, ?_, by omega, by omega, fun j hj hja => ?_, ?_, ?_, rfl,
    htyped, ?_⟩
  · rw [buildAll, bind_eq_of_eq hrun₁, (runs_read_get harray₁).bind_eq]
    simp only
    rw [bind_eq_of_eq hrun₂, (runs_read_get hv₂).bind_eq]
    exact bind_eq_of_eq hrun₃
  · rw [hget₃, if_neg (Nat.ne_of_lt (Nat.lt_of_lt_of_le hj hnew)), hget₂, if_neg hja, holder j hj]
  · rw [hget₃, if_neg hne.symm, hget₂, if_pos rfl]
  · rw [hget₃, if_pos rfl]
  · rw [Built] at hbuilt ⊢
    split
    · next hmem =>
      rw [if_pos hmem] at hbuilt
      obtain ⟨name, text, hname, hget⟩ := hbuilt
      have hne₂ : name ≠ array := by
        rintro rfl
        rw [harray₁] at hget
        exact nomatch hget
      have hne₃ : name ≠ e := by
        rintro rfl
        rw [hv] at hget
        exact nomatch hget
      exact ⟨name, text, hname, by rw [hget₃, if_neg hne₃, hget₂, if_neg hne₂, hget]⟩
    · next hmem => rwa [if_neg hmem] at hbuilt

theorem buildAll_step_faults (h : ¬EntryBuilds mem sdr s.calls i)
    (hlen : sensorReadingSize * (i + 1) ≤ readings.length) :
    Faults (buildAll mem sdr readings array (n + 1) i) s := by
  rw [buildAll]
  cases hmem : mem s.calls with
  | true => exact (bmcBuildValues_faults h hmem hlen).bind _
  | false =>
    have hnone : Runs (bmcBuildValues mem sdr readings i) s fun r _ => r = none := by
      rw [bmcBuildValues]
      refine (runs_malloc_none _ hmem (owns_self s)).bind ?_
      rintro _ s₁ ⟨rfl, -⟩
      exact .pure rfl
    refine hnone.bind_faults ?_
    rintro _ s₁ rfl
    refine faults_bind _ fun b s₂ => ?_
    -- the entry that is `NULL` is written to the array and used
    cases b with
    | array entries => exact faults_bind _ fun _ _ => Faults.bind (p := read none) rfl _
    | _ => rfl

theorem buildAll_faults (h : ∃ k < n, ¬EntryBuilds mem sdr (s.calls + 2 * k) (i + k))
    (hlen : sensorReadingSize * (i + n) ≤ readings.length)
    (harray : s.heap.get array = some (.array entries)) :
    Faults (buildAll mem sdr readings array n i) s := by
  induction n generalizing s i entries with
  | zero =>
    obtain ⟨k, hk, -⟩ := h
    exact absurd hk (Nat.not_lt_zero k)
  | succ n ih =>
    have hlen' : sensorReadingSize * (i + 1) ≤ readings.length := by
      rw [sensorReadingSize] at *
      omega
    by_cases hfirst : EntryBuilds mem sdr s.calls i
    · obtain ⟨s', e, v, hstep, hcalls, -, -, harray', -⟩ :=
        buildAll_step (n := n) hfirst hlen' harray
      rw [Faults, hstep]
      obtain ⟨k, hk, hnot⟩ := h
      cases k with
      | zero => exact absurd hfirst hnot
      | succ k =>
        refine ih ⟨k, Nat.lt_of_succ_lt_succ hk, ?_⟩ ?_ harray'
        · rwa [hcalls, Nat.add_assoc, Nat.add_assoc, Nat.add_comm 2, Nat.add_comm 1,
            ← Nat.mul_succ]
        · rwa [Nat.add_assoc, Nat.add_comm 1]
    · exact buildAll_step_faults hfirst hlen'

theorem buildAll_runs (h : ∀ k < n, EntryBuilds mem sdr (s.calls + 2 * k) (i + k))
    (hlen : sensorReadingSize * (i + n) ≤ readings.length)
    (harray : s.heap.get array = some (.array entries)) (hn : i + n ≤ entries.length) :
    Runs (buildAll mem sdr readings array n i) s fun _ s' => Keeps s s' array ∧
      ∃ entries', s'.heap.get array = some (.array entries') ∧
        entries'.length = entries.length ∧ (∀ k < i, entries'[k]? = entries[k]?) ∧
        ∀ k < n, ∃ e v, entries'[i + k]? = some (some e) ∧ s'.heap.get e = some (.value v) ∧
          v.sdr = some (i + k) ∧ Typed sdr (i + k) v ∧
          Built mem (s.calls + 2 * k + 1) s' v := by
  induction n generalizing s i entries with
  | zero => exact .pure ⟨fun _ _ _ => rfl, entries, harray, rfl, fun _ _ => rfl, nofun⟩
  | succ n ih =>
    have hlen' : sensorReadingSize * (i + 1) ≤ readings.length := by
      rw [sensorReadingSize] at *
      omega
    have hfirst : EntryBuilds mem sdr s.calls i := h 0 (Nat.succ_pos n)
    obtain ⟨s₁, e, v, hstep, hcalls, hnext, hkeep, harray₁, he, hsdr, htyped, hbuilt⟩ :=
      buildAll_step (n := n) hfirst hlen' harray
    have hbuilds : ∀ k < n, EntryBuilds mem sdr (s₁.calls + 2 * k) (i + 1 + k) := fun k hk => by
      have hk' := h (k + 1) (Nat.succ_lt_succ hk)
      rwa [hcalls, Nat.add_assoc, Nat.add_assoc, Nat.add_comm 2, Nat.add_comm 1, ← Nat.mul_succ]
    have hlen₁ : sensorReadingSize * (i + 1 + n) ≤ readings.length := by
      rwa [Nat.add_assoc, Nat.add_comm 1]
    have hn₁ : i + 1 + n ≤ (entries.set i (some e)).length := by
      rw [List.length_set]
      omega
    obtain ⟨_, s₂, hrun, hkeep₂, entries', harray₂, hlength, hbefore, hall⟩ :=
      ih hbuilds hlen₁ harray₁ hn₁
    have hea : e ≠ array := by
      rintro rfl
      rw [harray₁] at he
      exact nomatch he
    refine ⟨(), s₂, hstep.trans hrun, fun j hj hja => ?_, entries', harray₂, ?_, fun k hk => ?_,
      fun k hk => ?_⟩
    · rw [hkeep₂ j (Nat.lt_of_lt_of_le hj hnext) hja, hkeep j hj hja]
    · rw [hlength, List.length_set]
    · rw [hbefore k (Nat.lt_succ_of_lt hk), List.getElem?_set_ne (Nat.ne_of_gt hk)]
    · cases k with
      | zero =>
        refine ⟨e, v, ?_, (hkeep₂ e (Slots.lt_next he) hea).trans he, hsdr, htyped,
          hbuilt.keeps harray₁ hkeep₂⟩
        rw [Nat.add_zero, hbefore i (Nat.lt_succ_self i), List.getElem?_set_self (by omega)]
      | succ k =>
        obtain ⟨e', v', he', hv', hsdr', htyped', hbuilt'⟩ := hall k (Nat.lt_of_succ_lt_succ hk)
        refine ⟨e', v', ?_, hv', ?_, ?_, ?_⟩
        · rwa [Nat.add_comm k, ← Nat.add_assoc]
        · rwa [Nat.add_comm k, ← Nat.add_assoc]
        · rwa [Nat.add_comm k, ← Nat.add_assoc]
        · rwa [hcalls, Nat.add_assoc s.calls, Nat.add_comm 2, ← Nat.mul_succ] at hbuilt'

end Building

section Values

variable {mem : Nat → Bool} {sdr : SdrRec} {file : Option BmcFile} {f : BmcFile} {s : Store Block}

theorem readFits_reads (hmagic : sdr.magic = true) (h : Reads mem s.calls sdr.token file f) :
    ReadFits mem s.calls sdr file true true ↔
      f.total < 2 ^ 31 ∧ (f.succeeds → f.total = sensorReadingSize * sdr.numRecords →
        mem (s.calls + 1) = true → mem (s.calls + 2) = true ∧ f.pieces.length ≤ 1 ∧
          ∀ i < sdr.numRecords, EntryFits mem sdr.contents (s.calls + 3 + 2 * i) i) := by
  refine ⟨fun hall => hall f hmagic rfl rfl h, fun hfits f' _ _ _ hreads => ?_⟩
  obtain ⟨-, hfile, -⟩ := h
  obtain ⟨-, hfile', -⟩ := hreads
  cases hfile.symm.trans hfile'
  exact hfits

theorem bmcReadSensorValues_unread {handle : Store Block → Stored → Prop}
    (h : ∀ f, ¬Reads mem s.calls sdr.token file f) (hmagic : sdr.magic = true) :
    Runs (bmcReadSensorValues mem sdr file true true) s (Ends handle true s.heap) := by
  rw [bmcReadSensorValues, hmagic]
  refine (readSysfsFile_unread h).bind ?_
  rintro ⟨res, p, n⟩ s₁ ⟨heq, howns⟩
  cases heq
  exact (runs_free howns).bind fun _ _ h => .pure (ends_error (by decide) h)

/-- The handle and its array are allocated, and the loop comes next. -/
structure Ready (f : BmcFile) (num : Nat) (s s' : Store Block) (vals contents array : Nat)
    (buffer : List UInt8) : Prop where
  calls : s'.calls = s.calls + 3
  vals : s'.heap.get vals = some (.bmcValues num (some contents) (some array))
  contents : s'.heap.get contents = some (.bytes buffer f.fromFile)
  array : s'.heap.get array = some (.array (List.replicate num none))
  fromFile_le : f.fromFile ≤ buffer.length
  num_le : sensorReadingSize * num ≤ buffer.length
  num_lt : sensorReadingSize * num < 2 ^ 31

theorem Ready.kept {num vals contents array : Nat} {buffer : List UInt8} {s₁ s₂ : Store Block}
    (h : Ready f num s s₁ vals contents array buffer) (hkeep : Keeps s₁ s₂ array) :
    s₂.heap.get vals = some (.bmcValues num (some contents) (some array)) ∧
      s₂.heap.get contents = some (.bytes buffer f.fromFile) := by
  have hkept : ∀ {j : Nat} {b : Block}, s₁.heap.get j = some b →
      (∀ entries, b ≠ .array entries) → s₂.heap.get j = some b := by
    intro j b hj hb
    refine (hkeep j (Slots.lt_next hj) ?_).trans hj
    rintro rfl
    rw [h.array] at hj
    exact hb _ (Option.some.inj hj).symm
  exact ⟨hkept h.vals nofun, hkept h.contents nofun⟩

/-- Without memory for the array the handle is left behind; with it the loop comes next. -/
theorem arrayed_iff {handle : Store Block → Stored → Prop} {c : Prop} {tmp vals : Nat}
    {buffer : List UInt8} {s₃ : Store Block} (howns : Owns s.heap s₃ [vals, tmp])
    (hcall : s₃.calls = s.calls + 2)
    (hvals : s₃.heap.get vals = some (.bmcValues sdr.numRecords (some tmp) none))
    (htmp : s₃.heap.get tmp = some (.bytes buffer f.fromFile)) (hlen : buffer.length = f.size)
    (htotal : f.total = sensorReadingSize * sdr.numRecords) (hfits : f.total ≤ f.size)
    (hlt : f.total < 2 ^ 31)
    (hbuilt : ∀ s' vals contents array buffer,
      Ready f sdr.numRecords s s' vals contents array buffer →
      (Runs (do
        buildAll mem sdr.contents buffer array sdr.numRecords 0
        pure (.ok, some sdr.numRecords, some (some vals))) s' (Ends handle true s.heap) ↔ c)) :
    Runs (do
      match (← malloc mem (.array (List.replicate sdr.numRecords none))) with
      | none => pure (.noMemory, some sdr.numRecords, some (some vals))
      | some array => do
        write (some vals) (.bmcValues sdr.numRecords (some tmp) (some array))
        match (← read (some tmp)) with
        | .bytes readings _ => do
          buildAll mem sdr.contents readings array sdr.numRecords 0
          pure (.ok, some sdr.numRecords, some (some vals))
        | _ => fault) s₃ (Ends handle true s.heap) ↔
      mem (s.calls + 2) = true ∧ c := by
  have hne : tmp ≠ vals := by
    rintro rfl
    exact (List.nodup_cons.mp howns.nodup).1 List.mem_cons_self
  refine (runs_malloc_self mem _ s₃).bind_iff ?_
  rintro array s₄ ⟨hcalls₄, howns₄, hget₄⟩
  rw [hcall] at hget₄
  have hkept : ∀ {j : Nat} {b : Block}, s₃.heap.get j = some b →
      s₄.heap.get j = some b := fun hj => (howns₄.older _ (Slots.lt_next hj)).trans hj
  cases hmem : mem (s.calls + 2) with
  | false =>
    rw [hmem, if_neg Bool.false_ne_true, Option.map_eq_none_iff] at hget₄
    subst hget₄
    rw [runs_pure_iff]
    refine iff_of_false ?_ fun hfits => Bool.false_ne_true hfits.1
    rintro (⟨-, hreleased⟩ | ⟨hres, -⟩)
    · have hnone := hreleased.newer vals (howns.newer vals List.mem_cons_self)
      rw [hkept hvals] at hnone
      exact nomatch hnone
    · exact nomatch hres
  | true =>
    rw [hmem, if_pos rfl] at hget₄
    obtain ⟨array, rfl, harray⟩ := Option.map_eq_some_iff.mp hget₄
    rw [and_iff_right rfl]
    refine (runs_write_get (hkept hvals) _).bind_iff ?_
    rintro - s₅ ⟨hcalls₅, -, hget₅⟩
    have hva : array ≠ vals := by
      rintro rfl
      rw [hkept hvals] at harray
      exact nomatch harray
    have htmp₅ : s₅.heap.get tmp = some (.bytes buffer f.fromFile) := by
      rw [hget₅, if_neg hne, hkept htmp]
    refine (runs_read_get htmp₅).bind_iff ?_
    rintro _ _ ⟨rfl, rfl⟩
    refine hbuilt _ vals tmp array buffer ⟨?_, ?_, htmp₅, ?_, ?_, ?_, htotal ▸ hlt⟩
    · rw [hcalls₅, hcalls₄, hcall]
    · rw [hget₅, if_pos rfl]
    · rw [hget₅, if_neg hva, harray]
    · exact hlen ▸ fromFile_le_size f
    · rw [hlen, ← htotal]
      exact hfits

theorem bmcReadSensorValues_reads_iff {handle : Store Block → Stored → Prop} {c : Prop}
    (h : Reads mem s.calls sdr.token file f) (hmagic : sdr.magic = true)
    (hbuilt : ∀ s' vals contents array buffer,
      Ready f sdr.numRecords s s' vals contents array buffer →
      (Runs (do
        buildAll mem sdr.contents buffer array sdr.numRecords 0
        pure (.ok, some sdr.numRecords, some (some vals))) s' (Ends handle true s.heap) ↔ c)) :
    Runs (bmcReadSensorValues mem sdr file true true) s (Ends handle true s.heap) ↔
      f.total < 2 ^ 31 ∧ (f.succeeds → f.total = sensorReadingSize * sdr.numRecords →
        mem (s.calls + 1) = true → mem (s.calls + 2) = true ∧ c) := by
  have hread := readSysfsFile_reads h
  rw [bmcReadSensorValues, hmagic]
  by_cases hlt : f.total < 2 ^ 31
  · rw [if_pos hlt] at hread
    rw [and_iff_right hlt]
    refine hread.bind_iff ?_
    rintro r s₁ (⟨hnot, rfl, howns⟩ | ⟨hok, tmp, buffer, rfl, howns, hcalls, hget, hlen⟩)
    · refine iff_of_true ?_ fun hok => absurd hok hnot
      exact (runs_free howns).bind fun _ _ h => .pure (ends_error (by decide) h)
    · rw [forall_prop_of_true hok]
      have hnext : ¬((some tmp : Option Nat) = none ∨ (FpgaResult.ok ≠ .ok)) := by simp
      simp only [hnext, if_false]
      by_cases hsize : f.total = sdr.numRecords * sensorReadingSize
      · simp only [ne_eq, hsize, not_true_eq_false, if_false]
        rw [Nat.mul_comm, forall_prop_of_true rfl]
        refine (runs_malloc_owns mem _ howns).bind_iff ?_
        rintro p s₂ ⟨hcalls₂, holder, ⟨hmem, rfl, howns₂⟩ | ⟨hmem, vals, rfl, howns₂⟩⟩
        · rw [hcalls] at hmem
          refine iff_of_true ?_ fun hmem' => absurd hmem' (by rw [hmem]; decide)
          exact (runs_free howns₂).bind fun _ _ h => .pure (ends_error nofun h)
        · rw [hcalls] at hmem
          rw [forall_prop_of_true hmem]
          refine (runs_write _ howns₂ List.mem_cons_self).bind_iff ?_
          rintro - s₃ ⟨howns₃, hcalls₃, hget₃⟩
          have hne : tmp ≠ vals := by
            rintro rfl
            exact (List.nodup_cons.mp howns₂.nodup).1 List.mem_cons_self
          refine arrayed_iff howns₃ ?_ ?_ ?_ hlen ?_ hok.2 hlt hbuilt
          · rw [hcalls₃, hcalls₂, hcalls]
          · rw [hget₃, if_pos rfl]
          · rw [hget₃, if_neg hne, holder tmp (howns.lt_next List.mem_cons_self), hget]
          · rw [hsize, Nat.mul_comm]
      · simp only [ne_eq, hsize, not_false_eq_true, if_true]
        refine iff_of_true ?_ fun heq => absurd (heq.trans (Nat.mul_comm _ _)) hsize
        exact (runs_free howns).bind fun _ _ h => .pure (ends_error (by decide) h)
  · rw [if_neg hlt] at hread
    exact (hread.bind _).runs_iff fun hfits => hlt hfits.1

theorem Ready.builds_iff {handle : Store Block → Stored → Prop} {base : Slots Block} {c : Prop}
    {num vals contents array : Nat} {buffer sdrs : List UInt8} {s₁ : Store Block}
    (h : Ready f num s s₁ vals contents array buffer)
    (hc : c → ∀ i < num, EntryBuilds mem sdrs (s.calls + 3 + 2 * i) i)
    (hends : (∀ i < num, EntryBuilds mem sdrs (s.calls + 3 + 2 * i) i) → ∀ s₂ entries,
      Keeps s₁ s₂ array → s₂.heap.get array = some (.array entries) → entries.length = num →
      (∀ k < num, ∃ e v, entries[k]? = some (some e) ∧ s₂.heap.get e = some (.value v) ∧
        v.sdr = some k ∧ Typed sdrs k v ∧ Built mem (s.calls + 3 + 2 * k + 1) s₂ v) →
      (handle s₂ (some (some vals)) ↔ c)) :
    Runs (do
      buildAll mem sdrs buffer array num 0
      pure (.ok, some num, some (some vals))) s₁ (Ends handle true base) ↔ c := by
  have hlen : sensorReadingSize * (0 + num) ≤ buffer.length := by
    rw [Nat.zero_add]
    exact h.num_le
  by_cases hbuilds : ∀ i < num, EntryBuilds mem sdrs (s.calls + 3 + 2 * i) i
  · have hbuilds' : ∀ i < num, EntryBuilds mem sdrs (s₁.calls + 2 * i) (0 + i) := by
      rw [h.calls]
      simpa only [Nat.zero_add] using hbuilds
    refine (buildAll_runs hbuilds' hlen h.array (by simp)).bind_iff ?_
    rintro - s₂ ⟨hkeep, entries, hentries, hlength, -, hall⟩
    rw [runs_pure_iff, ends_ok_iff]
    rw [List.length_replicate] at hlength
    rw [h.calls] at hall
    simp only [Nat.zero_add] at hall
    exact hends hbuilds s₂ entries hkeep hentries hlength hall
  · have hnot : ∃ k < num, ¬EntryBuilds mem sdrs (s₁.calls + 2 * k) (0 + k) := by
      by_contra hnone
      refine hbuilds fun i hi => by_contra fun hi' => hnone ⟨i, hi, ?_⟩
      rwa [h.calls, Nat.zero_add]
    exact ((buildAll_faults hnot hlen h.array).bind _).runs_iff fun hfits => hbuilds (hc hfits)

theorem values_built_iff {num vals contents array : Nat} {buffer sdrs : List UInt8}
    {s₁ : Store Block} (h : Ready f num s s₁ vals contents array buffer) :
    Runs (do
      buildAll mem sdrs buffer array num 0
      pure (.ok, some num, some (some vals))) s₁ (Ends ValuesHandle true s.heap) ↔
        sensorReadingSize * num ≤ f.fromFile ∧
          ∀ i < num, EntryFits mem sdrs (s.calls + 3 + 2 * i) i := by
  refine h.builds_iff (fun hfits i hi => (entryFits_iff.mp (hfits.2 i hi)).1) ?_
  intro hbuilds s₂ entries hkeep hentries hlength hall
  obtain ⟨hvals, hcontents⟩ := h.kept hkeep
  constructor
  · rintro ⟨vals', num', contents', array', entries', heq, hget, hread, harray', -, hinit⟩
    cases heq
    rw [hvals] at hget
    cases hget
    rw [hentries] at harray'
    cases harray'
    refine ⟨(recordsRead_iff hcontents h.fromFile_le).mp hread, fun i hi => ?_⟩
    obtain ⟨e, v, he, hv, -, -, hbuilt⟩ := hall i hi
    obtain ⟨e', v', name, text, he', hv', -, hname, -⟩ := hinit i hi
    rw [he] at he'
    cases he'
    rw [hv] at hv'
    cases hv'
    refine entryFits_iff.mpr ⟨hbuilds i hi, ?_⟩
    by_contra hmem
    rw [Built, if_neg hmem, hname] at hbuilt
    exact nomatch hbuilt
  · rintro ⟨hfrom, hfits⟩
    refine ⟨vals, num, some contents, array, entries, rfl, hvals,
      (recordsRead_iff hcontents h.fromFile_le).mpr hfrom, hentries, hlength, fun i hi => ?_⟩
    obtain ⟨e, v, he, hv, hsdr, -, hbuilt⟩ := hall i hi
    rw [Built, if_pos (entryFits_iff.mp (hfits i hi)).2] at hbuilt
    obtain ⟨name, text, hname, hget⟩ := hbuilt
    exact ⟨e, v, name, text, he, hv, hsdr, hname, hget⟩

theorem readings_fit_iff {num : Nat} (h : f.total = sensorReadingSize * num) :
    sensorReadingSize * num ≤ f.fromFile ↔ f.pieces.length ≤ 1 := by
  rw [← h, total_le_fromFile_iff]

theorem bmcReadSensorValues_iff (values numValues : Bool) :
    Runs (bmcReadSensorValues mem sdr file values numValues) s
        (Ends ValuesHandle values s.heap) ↔
      ReadFits mem s.calls sdr file values numValues := by
  cases hmagic : sdr.magic with
  | false =>
    have hfits : ReadFits mem s.calls sdr file values numValues := by
      intro f hmagic'
      rw [hmagic] at hmagic'
      exact nomatch hmagic'
    refine iff_of_true ?_ hfits
    rw [bmcReadSensorValues, hmagic]
    exact .pure (ends_error (by decide) (owns_self s))
  | true =>
    cases numValues with
    | false =>
      refine iff_of_true ?_ nofun
      rw [bmcReadSensorValues, hmagic]
      exact .pure (ends_error (by decide) (owns_self s))
    | true =>
      cases values with
      | false =>
        refine iff_of_true ?_ nofun
        rw [bmcReadSensorValues, hmagic]
        exact .pure (ends_count (owns_self s))
      | true =>
        by_cases h : ∃ f, Reads mem s.calls sdr.token file f
        · obtain ⟨f, h⟩ := h
          rw [bmcReadSensorValues_reads_iff h hmagic fun _ _ _ _ _ hready =>
            values_built_iff hready, readFits_reads hmagic h]
          refine and_congr_right fun _ => forall_congr' fun _ => forall_congr' fun hsize => ?_
          rw [readings_fit_iff hsize]
        · have h := not_exists.mp h
          exact iff_of_true (bmcReadSensorValues_unread h hmagic)
            fun f _ _ _ hreads => absurd hreads (h f)

end Values

section Records

/-- The records of a handle are in its file and its entries are initialised, or there is an error
that leaves nothing, exactly if the files have whole records that come in one read, no name runs
out of the buffer, and nothing is missing once there is a handle for the values. -/
theorem bmc_records_iff (mem : Nat → Bool) (s : Store Block) (token : Option Bool)
    (sdrFile : Option BmcFile) (records numSensors : Bool) (sdr : SdrRec)
    (sensorFile : Option BmcFile) (values numValues : Bool) :
    (Runs (bmcLoadSDRs mem token sdrFile records numSensors) s (Ends SdrHandle records s.heap) ↔
        LoadFits mem s.calls token sdrFile records numSensors) ∧
      (Runs (bmcReadSensorValues mem sdr sensorFile values numValues) s
          (Ends ValuesHandle values s.heap) ↔
        ReadFits mem s.calls sdr sensorFile values numValues) :=
  ⟨bmcLoadSDRs_iff token numSensors, bmcReadSensorValues_iff values numValues⟩

def cutFile : BmcFile where
  size := 75
  reads := [.data (List.replicate 75 0)]
  bounded := by
    intro bytes hbytes
    cases List.mem_singleton.mp hbytes
    exact ⟨by decide, Nat.le_refl 75⟩

/-- The second record counts, though all but one of its bytes are missing. -/
theorem bmc_records_cut :
    ¬Runs (bmcLoadSDRs (fun _ => true) (some true) (some cutFile) true true) ⟨Slots.empty, 0⟩
      (Ends SdrHandle true Slots.empty) := by
  intro hruns
  have hfits := (bmcLoadSDRs_iff (s := ⟨Slots.empty, 0⟩) (some true) true).mp hruns
  obtain ⟨-, hwhole⟩ := hfits cutFile rfl ⟨rfl, rfl, rfl⟩
  obtain ⟨-, hdvd⟩ := hwhole ⟨by decide, by decide⟩ rfl rfl
  exact absurd hdvd (by decide)

end Records

end OpaeLibs.PluginXfpga.BmcValues
