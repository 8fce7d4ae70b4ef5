import OpaeLibs.Lib.CStrings

namespace OpaeLibs.OpaeC.ParseConfig

open OpaeLibs.Lib.CStrings

/-- A file as `fread` meets it: the bytes that it gives, and whether it fails behind them, where it
would be at its end. -/
structure Stream where
  bytes : List UInt8
  fails : Bool

def maxCfgSize : Nat := 4096

/-- The memory from `buffer` on, the offsets in it that are written, and the flags of the file. -/
structure Reading where
  buffer : Memory
  written : List Nat
  totalRead : Nat
  eof : Bool
  error : Bool

def readBytes (fails : Bool) : List UInt8 → Reading → Reading
  | [], r => { r with eof := !fails, error := fails }
  | b :: rest, r =>
    let r := { r with
      buffer := Function.update r.buffer r.totalRead b
      written := r.written ++ [r.totalRead] }
    if r.totalRead < maxCfgSize then readBytes fails rest { r with totalRead := r.totalRead + 1 }
    else r

/-- `buffer` is cleared; behind it is what the stack has there. -/
def start (stack : Memory) : Reading where
  buffer := fun i => if i < maxCfgSize then 0 else stack i
  written := []
  totalRead := 0
  eof := false
  error := false

/-- What is written, and what `process_cfg_buffer` gets if it is called. -/
structure Parsed where
  written : List Nat
  passed : Option Memory

/-- `file` is what `fopen` opens; there is none if the name is `NULL`. -/
def opaePluginMgrParseConfig (file : Option Stream) (stack : Memory) : Parsed :=
  match file with
  | none => ⟨[], none⟩
  | some file =>
    let r := readBytes file.fails file.bytes (start stack)
    if r.error then ⟨r.written, none⟩
    else if !r.eof then ⟨r.written, none⟩
    else ⟨r.written, some r.buffer⟩

/-- Nothing is written behind the buffer, and what is passed on is the whole file with a terminator
in the buffer. -/
structure ReadsWhole (file : Option Stream) (run : Parsed) : Prop where
  inBounds : ∀ i ∈ run.written, i < maxCfgSize
  passed : ∀ f ∈ file, ∀ buffer ∈ run.passed,
    f.bytes.length < maxCfgSize ∧ Holds buffer 0 f.bytes
  rejected : ∀ f ∈ file, maxCfgSize < f.bytes.length → run.passed = none

section Loop

variable {fails : Bool} {bytes : List UInt8} {r : Reading}

theorem readBytes_cons {b : UInt8} (h : r.totalRead < maxCfgSize) :
    readBytes fails (b :: bytes) r = readBytes fails bytes
      { r with
        buffer := Function.update r.buffer r.totalRead b
        written := r.written ++ [r.totalRead]
        totalRead := r.totalRead + 1 } := if_pos h

structure Stored (fails : Bool) (bytes : List UInt8) (r r' : Reading) : Prop where
  written : r'.written = r.written ++ List.range' r.totalRead bytes.length
  eof : r'.eof = !fails
  error : r'.error = fails
  stored : Bytes r'.buffer r.totalRead bytes
  below : ∀ i < r.totalRead, r'.buffer i = r.buffer i
  above : ∀ i, r.totalRead + bytes.length ≤ i → r'.buffer i = r.buffer i

theorem stored_readBytes (h : r.totalRead + bytes.length ≤ maxCfgSize) :
    Stored fails bytes r (readBytes fails bytes r) := by
  induction bytes generalizing r with
  | nil =>
    refine ⟨?_, rfl, rfl, fun k hk => absurd hk (Nat.not_lt_zero k), fun _ _ => rfl, fun _ _ => rfl⟩
    exact (List.append_nil _).symm
  | cons b bytes ih =>
    rw [List.length_cons] at h
    rw [readBytes_cons (by omega)]
    have hrest := ih (r := { r with
      buffer := Function.update r.buffer r.totalRead b
      written := r.written ++ [r.totalRead]
      totalRead := r.totalRead + 1 }) (by dsimp only; omega)
    have hfst : (readBytes fails bytes { r with
        buffer := Function.update r.buffer r.totalRead b
        written := r.written ++ [r.totalRead]
        totalRead := r.totalRead + 1 }).buffer r.totalRead = b := by
      rw [hrest.below _ (Nat.lt_succ_self _)]
      exact Function.update_self ..
    refine ⟨?_, hrest.eof, hrest.error, ?_, fun i hi => ?_, fun i hi => ?_⟩
    · rw [hrest.written, List.append_assoc, List.singleton_append, List.length_cons,
        List.range'_succ]
    · intro k hk
      cases k with
      | zero => exact congrArg some hfst.symm
      | succ k =>
        rw [List.getElem?_cons_succ, hrest.stored k (Nat.lt_of_succ_lt_succ hk), Nat.add_right_comm,
          Nat.add_assoc]
    · rw [hrest.below i (Nat.lt_succ_of_lt hi)]
      exact Function.update_of_ne (Nat.ne_of_lt hi) ..
    · rw [List.length_cons] at hi
      rw [hrest.above i (by dsimp only; omega)]
      exact Function.update_of_ne (by omega) ..

theorem mem_written_readBytes (hle : r.totalRead ≤ maxCfgSize)
    (h : maxCfgSize < r.totalRead + bytes.length) :
    maxCfgSize ∈ (readBytes fails bytes r).written := by
  induction bytes generalizing r with
  | nil => exact absurd h (Nat.not_lt.mpr hle)
  | cons b bytes ih =>
    rw [List.length_cons] at h
    by_cases hlt : r.totalRead < maxCfgSize
    · rw [readBytes_cons hlt]
      apply ih
      · exact hlt
      · dsimp only
        omega
    · obtain heq : r.totalRead = maxCfgSize := by omega
      rw [readBytes, if_neg hlt]
      exact List.mem_append_right _ (List.mem_singleton.mpr heq.symm)

end Loop

section Parse

variable {f : Stream} {stack : Memory}

variable (stack) in
theorem stored_start (h : f.bytes.length ≤ maxCfgSize) :
    Stored f.fails f.bytes (start stack) (readBytes f.fails f.bytes (start stack)) :=
  stored_readBytes (by rwa [start, Nat.zero_add])

theorem parseConfig_written : (opaePluginMgrParseConfig (some f) stack).written =
    (readBytes f.fails f.bytes (start stack)).written := by
  rw [opaePluginMgrParseConfig]
  split
  · rfl
  · split <;> rfl

theorem parseConfig_passed (h : f.bytes.length ≤ maxCfgSize) :
    (opaePluginMgrParseConfig (some f) stack).passed =
      if f.fails then none else some (readBytes f.fails f.bytes (start stack)).buffer := by
  have hs := stored_start stack h
  simp only [opaePluginMgrParseConfig, hs.error, hs.eof]
  cases f.fails <;> rfl

theorem holds_buffer (h : f.bytes.length < maxCfgSize) :
    Holds (readBytes f.fails f.bytes (start stack)).buffer 0 f.bytes := by
  have hs := stored_start stack (Nat.le_of_lt h)
  refine ⟨hs.stored, ?_⟩
  rw [Nat.zero_add, hs.above _ (Nat.le_of_eq (Nat.zero_add _))]
  exact if_pos h

theorem inBounds_written (h : f.bytes.length ≤ maxCfgSize) :
    ∀ i ∈ (opaePluginMgrParseConfig (some f) stack).written, i < maxCfgSize := by
  intro i hi
  rw [parseConfig_written, (stored_start stack h).written] at hi
  have hlt := (List.mem_range'_1.mp hi).2
  rw [start, Nat.zero_add] at hlt
  exact Nat.lt_of_lt_of_le hlt h

theorem textAt_passed (hnul : 0 ∉ f.bytes) (h : f.bytes.length < maxCfgSize) {buffer : Memory}
    (hpassed : (opaePluginMgrParseConfig (some f) stack).passed = some buffer) :
    textAt buffer maxCfgSize 0 = f.bytes := by
  rw [parseConfig_passed (Nat.le_of_lt h)] at hpassed
  split at hpassed
  case isTrue => exact nomatch hpassed
  case isFalse =>
    obtain rfl := Option.some.inj hpassed
    exact textAt_of_holds hnul (holds_buffer h) (Nat.le_of_lt h)

end Parse

/-- The buffer has room for the file and a terminator, or for the bytes of a file that cannot be
read to its end. -/
theorem readsWhole_iff (file : Option Stream) (stack : Memory) :
    ReadsWhole file (opaePluginMgrParseConfig file stack) ↔
      ∀ f ∈ file, f.bytes.length < maxCfgSize ∨
        f.bytes.length = maxCfgSize ∧ f.fails = true := by
  cases file with
  | none => exact ⟨fun _ => nofun, fun _ => ⟨nofun, nofun, nofun⟩⟩
  | some f =>
    constructor
    · rintro ⟨hin, hpassed, -⟩ g hg
      obtain rfl := Option.some.inj hg
      have hle : f.bytes.length ≤ maxCfgSize := by
        rw [← Nat.not_lt]
        intro hlt
        have hmem : maxCfgSize ∈ (readBytes f.fails f.bytes (start stack)).written :=
          mem_written_readBytes (Nat.zero_le _) (by rwa [start, Nat.zero_add])
        rw [← parseConfig_written] at hmem
        exact Nat.lt_irrefl _ (hin _ hmem)
      cases hfails : f.fails with
      | true => exact (Nat.lt_or_eq_of_le hle).imp_right fun heq => ⟨heq, rfl⟩
      | false =>
        refine .inl (hpassed f rfl (readBytes f.fails f.bytes (start stack)).buffer ?_).1
        rw [parseConfig_passed hle, hfails]
        rfl
    · intro h
      have hcase := h f rfl
      have hle : f.bytes.length ≤ maxCfgSize :=
        hcase.elim Nat.le_of_lt fun heq => Nat.le_of_eq heq.1
      refine ⟨inBounds_written hle, fun g hg buffer hbuffer => ?_, fun g hg hlt => ?_⟩
      · obtain rfl := Option.some.inj hg
        rw [parseConfig_passed hle] at hbuffer
        cases hcase with
        | inl hlt =>
          split at hbuffer
          · exact nomatch hbuffer
          · obtain rfl := Option.some.inj hbuffer
            exact ⟨hlt, holds_buffer hlt⟩
        | inr heq =>
          rw [if_pos heq.2] at hbuffer
          exact nomatch hbuffer
      · obtain rfl := Option.some.inj hg
        exact absurd hlt (Nat.not_lt.mpr hle)

theorem long_file_written :
    ¬ReadsWhole (some ⟨List.replicate 4097 32, false⟩)
      (opaePluginMgrParseConfig (some ⟨List.replicate 4097 32, false⟩) fun _ => 0) := by
  intro h
  have hmem : maxCfgSize ∈
      (readBytes false (List.replicate 4097 32) (start fun _ => 0)).written := by
    apply mem_written_readBytes (Nat.zero_le _)
    rw [List.length_replicate]
    decide
  apply Nat.lt_irrefl maxCfgSize
  apply h.inBounds
  rw [parseConfig_written]
  exact hmem

end OpaeLibs.OpaeC.ParseConfig
