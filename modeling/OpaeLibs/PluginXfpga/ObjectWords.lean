import OpaeLibs.Lib.Bytes
import OpaeLibs.Lib.CStrings
import OpaeLibs.Lib.Numerals
import OpaeLibs.Lib.Runs
import OpaeLibs.PluginXfpga.ObjectReads

namespace OpaeLibs.PluginXfpga.ObjectWords

open OpaeLibs.Lib.Bytes OpaeLibs.Lib.CStrings OpaeLibs.Lib.Numerals OpaeLibs.Lib.Runs
  OpaeLibs.OpaeC.Props OpaeLibs.PluginXfpga.ObjectReads

/-- A file object with a page for its buffer. -/
structure Attribute extends FileObject where
  page : 4096 ≤ buffer.length

inductive Node
  | container (size : UInt64)
  | file (a : Attribute)

/-- What comes of a write: whether the object has a handle, the result of locking it, whether the
file is opened, how many bytes `eintr_write` says it has written, and whether the handle can be
unlocked. -/
structure WriteEnv where
  handle : Bool
  locked : FpgaResult
  opened : Bool
  written : UInt64
  unlocked : Bool

def fpgaObjectRaw : Int32 := 4

theorem length_syncIf (sync : SyncOutcome) (flags : Int32) (o : FileObject) :
    (syncIf sync flags o).2.buffer.length = o.buffer.length := by
  rw [syncIf]
  split
  · cases sync with
    | openFails => rfl
    | readFails stored => exact length_fill stored o.buffer
    | reads text => exact length_fill text o.buffer
  · rfl

section Code

def syncAttribute (sync : SyncOutcome) (flags : Int32) (a : Attribute) : FpgaResult × Attribute :=
  let r := syncIf sync flags a.toFileObject
  (r.1, { r.2 with
    page := by
      rw [length_syncIf]
      exact a.page })

/-- The word in a buffer, of its first bytes or of the text there. -/
def readWord (flags : Int32) (buffer : List UInt8) : Option UInt64 :=
  if flags &&& fpgaObjectRaw ≠ 0 then some (UInt64.ofNat (ofLe (buffer.take 8)))
  else strtoull buffer

/-- The result, the object and the value; `none` is a read behind the buffer. -/
def xfpgaFpgaObjectRead64 (sync : SyncOutcome) (flags : Int32) :
    Node → Option (FpgaResult × Node × Option UInt64)
  | .container size => some (.invalidParam, .container size, none)
  | .file a =>
    let r := syncAttribute sync flags a
    if r.1 ≠ .ok then some (r.1, .file r.2, none)
    else (readWord flags r.2.buffer).map fun v => (.ok, .file r.2, some v)

def strlen (buffer : List UInt8) : Nat := (buffer.takeWhile (· ≠ 0)).length

def snprintf (text buffer : List UInt8) : List UInt8 :=
  fill (text.take (buffer.length - 1) ++ [0]) buffer

def wordBuffer (value : UInt64) (flags : Int32) (buffer : List UInt8) : List UInt8 :=
  let zeros := List.replicate buffer.length 0
  if flags &&& fpgaObjectRaw ≠ 0 then fill (toLe 8 value.toNat) zeros
  else snprintf (hexLiteral value.toNat) zeros

def wordSize (flags : Int32) (buffer : List UInt8) : UInt64 :=
  if flags &&& fpgaObjectRaw ≠ 0 then 8 else UInt64.ofNat (strlen buffer)

theorem length_wordBuffer (value : UInt64) (flags : Int32) (buffer : List UInt8) :
    (wordBuffer value flags buffer).length = buffer.length := by
  rw [wordBuffer]
  split
  · rw [length_fill, List.length_replicate]
  · rw [snprintf, length_fill, List.length_replicate]

theorem strlen_le (buffer : List UInt8) : strlen buffer ≤ buffer.length :=
  (List.takeWhile_sublist _).length_le

theorem wordSize_le {flags : Int32} {buffer : List UInt8} (hpage : 4096 ≤ buffer.length)
    (hlt : buffer.length < 2 ^ 32) : (wordSize flags buffer).toNat ≤ buffer.length := by
  rw [wordSize]
  split
  · exact Nat.le_trans (by decide) hpage
  · have hle := strlen_le buffer
    rw [UInt64.toNat_ofNat_of_lt' (Nat.lt_of_le_of_lt hle (Nat.lt_trans hlt (by decide)))]
    exact hle

def cacheWord (value : UInt64) (flags : Int32) (a : Attribute) : Attribute where
  buffer := wordBuffer value flags a.buffer
  size := wordSize flags (wordBuffer value flags a.buffer)
  size_le := by
    apply wordSize_le
    · rw [length_wordBuffer]
      exact a.page
    · rw [length_wordBuffer]
      exact a.length_lt
  length_lt := by
    rw [length_wordBuffer]
    exact a.length_lt
  page := by
    rw [length_wordBuffer]
    exact a.page

/-- The cache is overwritten before the file is opened. -/
def xfpgaFpgaObjectWrite64 (env : WriteEnv) (value : UInt64) (flags : Int32) (obj : Node) :
    FpgaResult × Node :=
  if !env.handle then (.invalidParam, obj)
  else
    match obj with
    | .container size => (.invalidParam, .container size)
    | .file a =>
      if env.locked ≠ .ok then (env.locked, .file a)
      else
        let a := cacheWord value flags a
        let res :=
          if !env.opened then .exception else if env.written ≠ a.size then .exception else .ok
        (if !env.unlocked then .exception else res, .file a)

end Code

inductive Call
  | read64 (sync : SyncOutcome) (flags : Int32)
  | write64 (env : WriteEnv) (value : UInt64) (flags : Int32)

def call (obj : Node) : Call → Node
  | .read64 sync flags => (xfpgaFpgaObjectRead64 sync flags obj).elim obj fun r => r.2.1
  | .write64 env value flags => (xfpgaFpgaObjectWrite64 env value flags obj).2

section Properties

/-- The value that contents have in a format. -/
def wordOf (flags : Int32) (text : List UInt8) : UInt64 :=
  if flags &&& fpgaObjectRaw ≠ 0 then UInt64.ofNat (ofLe (text.take 8)) else textValue text

def encoded (value : UInt64) (flags : Int32) : List UInt8 :=
  if flags &&& fpgaObjectRaw ≠ 0 then toLe 8 value.toNat else hexLiteral value.toNat

/-- A read that synchronizes yields the value of the contents. -/
def ReadsPresent (sync : SyncOutcome) (flags : Int32) (a : Attribute) : Prop :=
  flags &&& fpgaObjectSync ≠ 0 → ∀ text, sync = .reads text → text.length ≤ a.buffer.length →
    ∃ obj, xfpgaFpgaObjectRead64 sync flags (.file a) =
      some (.ok, obj, some (wordOf flags text))

/-- A read in the same format yields the value, of the cache or of a file that still has what was
written to it. -/
def Answers (value : UInt64) (flags : Int32) (a : Attribute) : Prop :=
  ∀ sync flags', (flags' &&& fpgaObjectRaw ≠ 0 ↔ flags &&& fpgaObjectRaw ≠ 0) →
    (flags' &&& fpgaObjectSync ≠ 0 → sync = .reads a.contents) →
    ∃ obj, xfpgaFpgaObjectRead64 sync flags' (.file a) = some (.ok, obj, some value)

/-- A write that succeeds is seen by a read, and one that fails leaves the cached contents. -/
def WritesThrough (env : WriteEnv) (value : UInt64) (flags : Int32) (a : Attribute) : Prop :=
  ∃ res a', xfpgaFpgaObjectWrite64 env value flags (.file a) = (res, .file a') ∧
    (res = .ok → Answers value flags a') ∧
    (res ≠ .ok → a'.contents = a.contents ∧ a'.size = a.size)

def Kept (obj : Node) (c : Call) : Prop :=
  match obj, c with
  | .container _, _ => True
  | .file a, .read64 sync flags => ReadsPresent sync flags a
  | .file a, .write64 env value flags => WritesThrough env value flags a

/-- What the buffer has behind the contents is not taken for a part of them. -/
def CleanBehind (flags : Int32) (text buffer : List UInt8) : Prop :=
  if flags &&& fpgaObjectRaw ≠ 0 then
    ∀ b ∈ (buffer.drop text.length).take (8 - text.length), b = 0
  else Ends (text ++ (buffer.drop text.length).take 1)

/-- A write fails after the handle has been locked. -/
def FailsLate (env : WriteEnv) (value : UInt64) (flags : Int32) : Prop :=
  env.handle = true ∧ env.locked = .ok ∧
    (env.opened = false ∨ env.written.toNat ≠ (encoded value flags).length ∨ env.unlocked = false)

/-- A read finds nothing behind the contents that it could take for a part of them, and a write
that fails late finds the value as the contents. -/
def Guarded (obj : Node) (c : Call) : Prop :=
  match obj, c with
  | .container _, _ => True
  | .file a, .read64 sync flags =>
    flags &&& fpgaObjectSync ≠ 0 → ∀ text, sync = .reads text → text.length ≤ a.buffer.length →
      CleanBehind flags text a.buffer
  | .file a, .write64 env value flags =>
    FailsLate env value flags → a.contents = encoded value flags

end Properties

section Reads

variable {sync : SyncOutcome} {flags : Int32} {a : Attribute} {text : List UInt8}

theorem syncAttribute_reads (hsync : flags &&& fpgaObjectSync ≠ 0) (text : List UInt8)
    (a : Attribute) :
    (syncAttribute (.reads text) flags a).1 = .ok ∧
      (syncAttribute (.reads text) flags a).2.buffer = fill text a.buffer := by
  have hsynced : syncIf (.reads text) flags a.toFileObject =
      syncObject (.reads text) a.toFileObject := if_pos hsync
  constructor
  · show (syncIf (.reads text) flags a.toFileObject).1 = _
    rw [hsynced]
    rfl
  · show (syncIf (.reads text) flags a.toFileObject).2.buffer = _
    rw [hsynced]
    rfl

theorem syncAttribute_cached (hsync : ¬flags &&& fpgaObjectSync ≠ 0) :
    (syncAttribute sync flags a).1 = .ok ∧ (syncAttribute sync flags a).2.buffer = a.buffer := by
  have hcached : syncIf sync flags a.toFileObject = (.ok, a.toFileObject) := if_neg hsync
  constructor
  · show (syncIf sync flags a.toFileObject).1 = _
    rw [hcached]
  · show (syncIf sync flags a.toFileObject).2.buffer = _
    rw [hcached]

theorem read64_eq {v : UInt64} (hok : (syncAttribute sync flags a).1 = .ok)
    (hword : readWord flags (syncAttribute sync flags a).2.buffer = some v) :
    xfpgaFpgaObjectRead64 sync flags (.file a) =
      some (.ok, .file (syncAttribute sync flags a).2, some v) := by
  rw [xfpgaFpgaObjectRead64, hok, hword]
  rfl

theorem fill_of_le {bytes buffer : List UInt8} (h : bytes.length ≤ buffer.length) :
    fill bytes buffer = bytes ++ buffer.drop bytes.length := by
  rw [fill, List.take_of_length_le h]

theorem ofLe_zeros {zeros : List UInt8} (h : ∀ b ∈ zeros, b = 0) : ofLe zeros = 0 := by
  induction zeros with
  | nil => rfl
  | cons b zeros ih =>
    rw [ofLe, h b List.mem_cons_self, ih fun c hc => h c (List.mem_cons_of_mem b hc)]
    rfl

theorem ofLe_append_zeros (bytes : List UInt8) {zeros : List UInt8} (h : ∀ b ∈ zeros, b = 0) :
    ofLe (bytes ++ zeros) = ofLe bytes := by
  induction bytes with
  | nil => exact ofLe_zeros h
  | cons b bytes ih => rw [List.cons_append, ofLe, ofLe, ih]

theorem readWord_fill (hlen : text.length ≤ a.buffer.length)
    (hclean : CleanBehind flags text a.buffer) :
    readWord flags (fill text a.buffer) = some (wordOf flags text) := by
  rw [CleanBehind] at hclean
  rw [readWord, wordOf, fill_of_le hlen]
  split at hclean
  · next hraw =>
    rw [if_pos hraw, if_pos hraw, List.take_append, ofLe_append_zeros _ hclean]
  · next hraw =>
    rw [if_neg hraw, if_neg hraw]
    exact strtoull_of_ends hclean

theorem readsPresent (h : flags &&& fpgaObjectSync ≠ 0 → ∀ text, sync = .reads text →
    text.length ≤ a.buffer.length → CleanBehind flags text a.buffer) :
    ReadsPresent sync flags a := by
  rintro hsync text rfl hlen
  obtain ⟨hok, hbuffer⟩ := syncAttribute_reads hsync text a
  refine ⟨_, read64_eq hok ?_⟩
  rw [hbuffer]
  exact readWord_fill hlen (h hsync text rfl hlen)

end Reads

section Writes

variable {env : WriteEnv} {value : UInt64} {flags : Int32} {a : Attribute}

theorem strlen_append {s : List UInt8} (h : 0 ∉ s) (rest : List UInt8) :
    strlen (s ++ 0 :: rest) = s.length := by
  rw [strlen, List.takeWhile_append_of_pos fun b hb => ?_]
  · rw [List.takeWhile_cons_of_neg (by decide), List.append_nil]
  · rw [decide_eq_true_eq]
    rintro rfl
    exact h hb

theorem length_hexLiteral (value : UInt64) : (hexLiteral value.toNat).length ≤ 18 := by
  rw [hexLiteral, List.length_cons, List.length_cons]
  have hlen := length_hexText (k := 15) (n := value.toNat) value.toNat_lt
  omega

theorem wordBuffer_text (value : UInt64) (hraw : ¬flags &&& fpgaObjectRaw ≠ 0) (a : Attribute) :
    ∃ rest, wordBuffer value flags a.buffer = hexLiteral value.toNat ++ 0 :: rest := by
  have hlen := length_hexLiteral value
  have hpage := a.page
  rw [wordBuffer, if_neg hraw, snprintf, List.length_replicate, List.take_of_length_le (by omega),
    fill_of_le (by rw [List.length_append, List.length_replicate, List.length_singleton]; omega),
    List.append_assoc, List.singleton_append]
  exact ⟨_, rfl⟩

theorem wordBuffer_raw (value : UInt64) (hraw : flags &&& fpgaObjectRaw ≠ 0) (a : Attribute) :
    ∃ rest, wordBuffer value flags a.buffer = toLe 8 value.toNat ++ rest := by
  have hpage := a.page
  rw [wordBuffer, if_pos hraw, fill_of_le (by rw [toLe_length, List.length_replicate]; omega)]
  exact ⟨_, rfl⟩

theorem size_cacheWord :
    (cacheWord value flags a).size.toNat = (encoded value flags).length := by
  have hlen := length_hexLiteral value
  rw [cacheWord]
  dsimp only
  rw [wordSize, encoded]
  split
  · rw [toLe_length]
    rfl
  · next hraw =>
    obtain ⟨rest, hrest⟩ := wordBuffer_text value hraw a
    rw [hrest, strlen_append (zero_notMem_hexLiteral _), UInt64.toNat_ofNat_of_lt']
    exact Nat.lt_of_le_of_lt hlen (by decide)

theorem contents_cacheWord : (cacheWord value flags a).contents = encoded value flags := by
  rw [FileObject.contents, size_cacheWord]
  show (wordBuffer value flags a.buffer).take _ = _
  by_cases hraw : flags &&& fpgaObjectRaw ≠ 0
  · obtain ⟨rest, hrest⟩ := wordBuffer_raw value hraw a
    rw [encoded, if_pos hraw, hrest, List.take_left]
  · obtain ⟨rest, hrest⟩ := wordBuffer_text value hraw a
    rw [encoded, if_neg hraw, hrest, List.take_left]

theorem readWord_cacheWord (value : UInt64) (flags : Int32) (a : Attribute) :
    readWord flags (cacheWord value flags a).buffer = some value := by
  show readWord flags (wordBuffer value flags a.buffer) = some value
  by_cases hraw : flags &&& fpgaObjectRaw ≠ 0
  · obtain ⟨rest, hrest⟩ := wordBuffer_raw value hraw a
    have hlen : (toLe 8 value.toNat).length = 8 := toLe_length 8 value.toNat
    have htake : (toLe 8 value.toNat ++ rest).take 8 = toLe 8 value.toNat := by
      rw [List.take_append_of_le_length (Nat.le_of_eq hlen.symm),
        List.take_of_length_le (Nat.le_of_eq hlen)]
    have hmod : value.toNat % 256 ^ 8 = value.toNat := Nat.mod_eq_of_lt value.toNat_lt
    rw [readWord, if_pos hraw, hrest, htake, ofLe_toLe, hmod, UInt64.ofNat_toNat]
  · obtain ⟨rest, hrest⟩ := wordBuffer_text value hraw a
    rw [readWord, if_neg hraw, hrest]
    exact strtoull_hexLiteral value rest

theorem fill_take (buffer : List UInt8) {n : Nat} (h : n ≤ buffer.length) :
    fill (buffer.take n) buffer = buffer := by
  have hlen : (buffer.take n).length = n := by rw [List.length_take, Nat.min_eq_left h]
  rw [fill_of_le (by rwa [hlen]), hlen, List.take_append_drop]

theorem answers_cacheWord : Answers value flags (cacheWord value flags a) := by
  intro sync flags' hraw hsync
  have hsame : (syncAttribute sync flags' (cacheWord value flags a)).1 = .ok ∧
      (syncAttribute sync flags' (cacheWord value flags a)).2.buffer =
        (cacheWord value flags a).buffer := by
    by_cases h : flags' &&& fpgaObjectSync ≠ 0
    · obtain ⟨hok, hbuffer⟩ := syncAttribute_reads h (cacheWord value flags a).contents
        (cacheWord value flags a)
      rw [hsync h]
      exact ⟨hok, hbuffer.trans (fill_take _ (cacheWord value flags a).size_le)⟩
    · exact syncAttribute_cached h
  have hread : readWord flags' (cacheWord value flags a).buffer = some value := by
    rw [← readWord_cacheWord value flags a, readWord, readWord]
    split
    · next h => rw [if_pos (hraw.mp h)]
    · next h => rw [if_neg (mt hraw.mpr h)]
  exact ⟨_, read64_eq hsame.1 (hsame.2 ▸ hread)⟩

theorem writesThrough (h : FailsLate env value flags → a.contents = encoded value flags) :
    WritesThrough env value flags a := by
  rw [WritesThrough, xfpgaFpgaObjectWrite64]
  split
  · exact ⟨_, _, rfl, nofun, fun _ => ⟨rfl, rfl⟩⟩
  · next hhandle =>
    split
    · next hlocked => exact ⟨_, _, rfl, fun hok => absurd hok hlocked, fun _ => ⟨rfl, rfl⟩⟩
    · next hlocked =>
      refine ⟨_, _, rfl, fun _ => answers_cacheWord, fun hres => ?_⟩
      have hcontents : a.contents = encoded value flags := by
        refine h ⟨by simpa using hhandle, Decidable.not_not.mp hlocked, ?_⟩
        by_contra hnot
        push Not at hnot
        obtain ⟨hopened, hwritten, hunlocked⟩ := hnot
        have hsize : env.written = (cacheWord value flags a).size :=
          UInt64.toNat_inj.mp (hwritten.trans size_cacheWord.symm)
        refine hres ?_
        rw [Bool.of_not_eq_false hopened, Bool.of_not_eq_false hunlocked, hsize]
        exact if_neg (not_not_intro rfl)
      refine ⟨contents_cacheWord.trans hcontents.symm, ?_⟩
      rw [← UInt64.toNat_inj, size_cacheWord, ← hcontents, length_contents]

end Writes

theorem kept_of_guarded {obj : Node} {c : Call} (h : Guarded obj c) : Kept obj c := by
  cases obj with
  | container size => trivial
  | file a =>
    cases c with
    | read64 sync flags => exact readsPresent h
    | write64 env value flags => exact writesThrough h

/-- Along a run in which nothing behind the contents is taken for a part of them, and no write fails
late with another value, the reads and the writes agree with the file. -/
theorem along_kept (obj : Node) (calls : List Call) (h : Along call Guarded obj calls) :
    Along call Kept obj calls :=
  along_of_invariant (I := fun _ => True) (fun _ _ _ _ => trivial)
    (fun _ _ _ hguard => kept_of_guarded hguard) trivial h

theorem wordOf_second {a : Attribute} {s t : List UInt8} {u v : UInt64}
    (hs : readWord fpgaObjectSync (fill s a.buffer) = some u)
    (ht : readWord fpgaObjectSync (fill t (fill s a.buffer)) = some v)
    (hlen : t.length ≤ a.buffer.length)
    (h : Along call Kept (.file a)
      [.read64 (.reads s) fpgaObjectSync, .read64 (.reads t) fpgaObjectSync]) :
    wordOf fpgaObjectSync t = v := by
  have hsync : fpgaObjectSync &&& fpgaObjectSync ≠ 0 := by decide
  obtain ⟨hok, hbuffer⟩ := syncAttribute_reads hsync s a
  rw [← hbuffer] at hs ht
  rw [along_cons, along_cons, call, read64_eq hok hs] at h
  obtain ⟨hok', hbuffer'⟩ :=
    syncAttribute_reads hsync t (syncAttribute (.reads s) fpgaObjectSync a).2
  rw [← hbuffer'] at ht
  have hlen' : t.length ≤ (syncAttribute (.reads s) fpgaObjectSync a).2.buffer.length := by
    rwa [hbuffer, length_fill]
  obtain ⟨obj, hread⟩ := h.2.1 hsync t rfl hlen'
  rw [read64_eq hok' ht] at hread
  have hvalue := congrArg (Prod.snd ∘ Prod.snd) (Option.some.inj hread)
  exact (Option.some.inj hvalue).symm

def zeroPage : Attribute where
  buffer := List.replicate 4096 0
  size := 0
  size_le := Nat.zero_le _
  length_lt := by
    rw [List.length_replicate]
    decide
  page := by rw [List.length_replicate]

def writeEnv (opened : Bool) : WriteEnv := ⟨true, .ok, opened, 3, true⟩

theorem cleanBehind_zeroPage : CleanBehind fpgaObjectSync (ascii "12\n") zeroPage.buffer := by
  have hdrop : (zeroPage.buffer.drop (ascii "12\n").length).take 1 = [0] := by
    rw [zeroPage, List.drop_replicate, List.take_replicate]
    rfl
  rw [CleanBehind, if_neg (by decide), hdrop]
  exact ⟨12, by decide⟩

theorem encoded_five : encoded 5 0 = ascii "0x5" := by
  rw [encoded, if_neg (by decide), hexLiteral, hexText, if_pos (by decide)]
  rfl

theorem along_kept_zeroPage :
    Along call Kept (.file zeroPage)
      [.read64 (.reads (ascii "12\n")) fpgaObjectSync, .write64 (writeEnv true) 5 0] := by
  refine along_kept (.file zeroPage) _ ?_
  rw [along_cons, along_cons]
  refine ⟨?_, ?_, trivial⟩
  · rintro - text ⟨⟩ -
    exact cleanBehind_zeroPage
  · generalize call (.file zeroPage) _ = obj
    cases obj with
    | container size => trivial
    | file a =>
      rintro ⟨-, -, hopened | hwritten | hunlocked⟩
      · exact nomatch hopened
      · rw [encoded_five] at hwritten
        exact absurd rfl hwritten
      · exact nomatch hunlocked

theorem fill_zeroPage {text : List UInt8} (h : text.length ≤ 4096) :
    fill text zeroPage.buffer = text ++ List.replicate (4096 - text.length) 0 := by
  rw [fill_of_le (Nat.le_trans h zeroPage.page), zeroPage, List.drop_replicate]

theorem fill_stale : fill (ascii "12") (fill (ascii "123456") zeroPage.buffer) =
    fill (ascii "123456") zeroPage.buffer := by
  rw [fill_of_le (by rw [length_fill]; exact Nat.le_trans (by decide) zeroPage.page),
    fill_zeroPage (by decide)]
  rfl

theorem readWord_stale : readWord fpgaObjectSync (fill (ascii "123456") zeroPage.buffer) =
    some (textValue (ascii "123456")) := by
  rw [fill_zeroPage (by decide), readWord, if_neg (by decide)]
  exact strtoull_of_ends ⟨123456, by decide⟩

theorem zeroPage_not_kept :
    ¬Along call Kept (.file zeroPage)
      [.read64 (.reads (ascii "123456")) fpgaObjectSync,
        .read64 (.reads (ascii "12")) fpgaObjectSync] ∧
    ¬Along call Kept (.file zeroPage) [.write64 (writeEnv false) 5 0] := by
  constructor
  · intro h
    have hvalue := wordOf_second readWord_stale (fill_stale.symm ▸ readWord_stale)
      (Nat.le_trans (by decide) zeroPage.page) h
    exact absurd hvalue (by decide)
  · rintro ⟨⟨res, a, hwrite, -, hfailed⟩, -⟩
    obtain ⟨rfl, ha⟩ := Prod.mk.inj hwrite
    obtain rfl := Node.file.inj ha
    have hcontents := (hfailed nofun).1
    rw [contents_cacheWord, encoded_five] at hcontents
    exact nomatch hcontents

end OpaeLibs.PluginXfpga.ObjectWords
