import OpaeLibs.Lib.Overlays
import OpaeLibs.OpaeC.Props

namespace OpaeLibs.PluginXfpga.SysfsReads

open OpaeLibs.Lib.Overlays OpaeLibs.OpaeC.Props

/-- What comes of a `read`. `fails` is an error other than `EINTR`; behind the last of the outcomes
the file is at its end. -/
inductive ReadOutcome
  | interrupted
  | fails
  | data (bytes : List UInt8)

/-- The file that `glob` finds: the size that `fstat` tells, and what is read of it. -/
structure OpenFile where
  size : Nat
  reads : List ReadOutcome

/-- How the loop ends: the bytes that it counts, the buffer, and whether the last `read` failed. -/
structure LoopEnd where
  totBytes : Nat
  buffer : List UInt8
  failed : Bool

/-- Whether the loop succeeds that reads to `NULL`: it ends before there is a byte to store. -/
def nullLoop (size : Nat) : List ReadOutcome → Bool
  | [] => true
  | .interrupted :: reads => if 0 < size then nullLoop size reads else true
  | .fails :: _ => false
  | .data _ :: _ => false

section Code

-- `place` is where in the buffer a read goes, by the bytes before it
variable (place : Nat → Nat)

/-- `none` is an overflow of `tot_bytes`, an `int32_t`. -/
def readLoop (size : Nat) : List ReadOutcome → Nat → List UInt8 → Option LoopEnd
  | [], totBytes, buffer => some ⟨totBytes, buffer, false⟩
  | .interrupted :: reads, totBytes, buffer =>
    if totBytes < size then readLoop size reads totBytes buffer
    else some ⟨totBytes, buffer, false⟩
  | .fails :: _, totBytes, buffer => some ⟨totBytes, buffer, true⟩
  | .data bytes :: reads, totBytes, buffer =>
    let buffer := splice buffer (place totBytes) bytes
    let totBytes := totBytes + bytes.length
    if 2 ^ 31 ≤ totBytes then none
    else if totBytes < size then readLoop size reads totBytes buffer
    else some ⟨totBytes, buffer, false⟩

/-- The result, the buffer and its number of bytes. The allocation of the buffer succeeds. -/
def readFile (file : Option OpenFile) : Option (FpgaResult × Option (List UInt8) × UInt32) :=
  match file with
  | none => some (.notFound, none, 0)
  | some f =>
    (readLoop place f.size f.reads 0 (List.replicate f.size 0)).map fun last =>
      if f.size < last.totBytes || last.failed then (.exception, none, 0)
      else (.ok, some last.buffer, UInt32.ofNat last.totBytes)

end Code

/-- In `bmc.c`; each read goes to the beginning. `token` is whether it has its magic number. -/
def readSysfsFile (token : Bool) (file : Option OpenFile) :
    Option (FpgaResult × Option (List UInt8) × UInt32) :=
  if !token then some (.invalidParam, none, 0) else readFile (fun _ => 0) file

def readSensorSysfsFile (file : Option OpenFile) :
    Option (FpgaResult × Option (List UInt8) × UInt32) :=
  readFile id file

def maxRwCount : Nat := 0x7ffff000

abbrev Piece := { bytes : List UInt8 // bytes ≠ [] ∧ bytes.length ≤ maxRwCount }

/-- The pieces in which a file is read, with the interruptions between them. -/
def pieces (reads : List (Option Piece)) : List (List UInt8) :=
  reads.filterMap fun r => r.map Subtype.val

def outcome : Option Piece → ReadOutcome
  | none => .interrupted
  | some piece => .data piece.val

/-- A file in the pieces in which it is read; it is no longer than `fstat` tells. -/
structure SplitFile where
  size : Nat
  reads : List (Option Piece)
  fits : (pieces reads).flatten.length ≤ size

namespace SplitFile

def contents (f : SplitFile) : List UInt8 := (pieces f.reads).flatten

def openFile (f : SplitFile) : OpenFile := ⟨f.size, f.reads.map outcome⟩

end SplitFile

/-- The buffer begins with the contents, and their length is told. -/
def Whole (contents : List UInt8) (r : Option (FpgaResult × Option (List UInt8) × UInt32)) : Prop :=
  ∃ buffer n, r = some (.ok, some buffer, n) ∧ n.toNat = contents.length ∧
    buffer.take contents.length = contents

section Loop

variable {place : Nat → Nat} {size : Nat}

theorem pieces_none (reads : List (Option Piece)) : pieces (none :: reads) = pieces reads := rfl

theorem pieces_some (piece : Piece) (reads : List (Option Piece)) :
    pieces (some piece :: reads) = piece.val :: pieces reads := rfl

theorem pieces_ne_nil {reads : List (Option Piece)} : ∀ piece ∈ pieces reads, piece ≠ [] := by
  intro piece hpiece
  obtain ⟨r, -, hr⟩ := List.mem_filterMap.mp hpiece
  obtain ⟨p, -, rfl⟩ := Option.map_eq_some_iff.mp hr
  exact p.property.1

/-- The buffer once the pieces are in it. -/
def filled (place : Nat → Nat) : Nat → List UInt8 → List (List UInt8) → List UInt8
  | _, buffer, [] => buffer
  | tot, buffer, piece :: rest =>
    filled place (tot + piece.length) (splice buffer (place tot) piece) rest

theorem filled_of_length_eq_zero {reads : List (Option Piece)}
    (h : (pieces reads).flatten.length = 0) (tot : Nat) (buffer : List UInt8) :
    filled place tot buffer (pieces reads) = buffer := by
  cases hpieces : pieces reads with
  | nil => rfl
  | cons piece rest =>
    have hne : piece ≠ [] := pieces_ne_nil piece (hpieces ▸ List.mem_cons_self)
    rw [hpieces, List.flatten_cons, List.length_append] at h
    exact absurd (List.length_eq_zero_iff.mp (Nat.eq_zero_of_add_eq_zero_right h)) hne

theorem readLoop_eq {reads : List (Option Piece)} {tot : Nat} {buffer : List UInt8}
    (hfits : tot + (pieces reads).flatten.length ≤ size)
    (hlt : tot + (pieces reads).flatten.length < 2 ^ 31) :
    readLoop place size (reads.map outcome) tot buffer =
      some ⟨tot + (pieces reads).flatten.length, filled place tot buffer (pieces reads),
        false⟩ := by
  induction reads generalizing tot buffer with
  | nil => rfl
  | cons r reads ih =>
    cases r with
    | none =>
      rw [pieces_none] at hfits hlt ⊢
      rw [List.map_cons, outcome, readLoop]
      split
      · exact ih hfits hlt
      · next hge =>
        have hzero : (pieces reads).flatten.length = 0 := by omega
        rw [filled_of_length_eq_zero hzero, hzero, Nat.add_zero]
    | some piece =>
      rw [pieces_some, List.flatten_cons, List.length_append, ← Nat.add_assoc] at hfits hlt ⊢
      rw [List.map_cons, outcome, readLoop, if_neg (by omega), filled]
      split
      · exact ih hfits hlt
      · next hge =>
        have hzero : (pieces reads).flatten.length = 0 := by omega
        rw [filled_of_length_eq_zero hzero, hzero, Nat.add_zero]

theorem readLoop_eq_none {reads : List (Option Piece)} {tot : Nat} {buffer : List UInt8}
    (hfits : tot + (pieces reads).flatten.length ≤ size) (htot : tot < 2 ^ 31)
    (hge : 2 ^ 31 ≤ tot + (pieces reads).flatten.length) :
    readLoop place size (reads.map outcome) tot buffer = none := by
  induction reads generalizing tot buffer with
  | nil => exact absurd htot (Nat.not_lt.mpr hge)
  | cons r reads ih =>
    cases r with
    | none =>
      rw [pieces_none] at hfits hge
      rw [List.map_cons, outcome, readLoop, if_pos (by omega)]
      exact ih hfits htot hge
    | some piece =>
      rw [pieces_some, List.flatten_cons, List.length_append, ← Nat.add_assoc] at hfits hge
      rw [List.map_cons, outcome, readLoop]
      split
      · rfl
      · next hlt =>
        rw [if_pos (by omega)]
        exact ih hfits (Nat.not_le.mp hlt) hge

theorem filled_zero (tot : Nat) (buffer : List UInt8) (rest : List (List UInt8)) :
    filled (fun _ => 0) tot buffer rest = overlay buffer rest := by
  induction rest generalizing tot buffer with
  | nil => rfl
  | cons piece rest ih =>
    have hsplice : splice buffer 0 piece = piece ++ buffer.drop piece.length := by
      rw [splice, List.take_zero, List.nil_append, Nat.zero_add]
    rw [filled, hsplice, ih]
    rfl

theorem filled_id (tot : Nat) (buffer : List UInt8) (rest : List (List UInt8)) :
    filled id tot buffer rest = inRow buffer tot rest := by
  induction rest generalizing tot buffer with
  | nil => rfl
  | cons piece rest ih => exact ih _ _

end Loop

section Files

variable {place : Nat → Nat} {f : SplitFile}

theorem whole_readFile_iff : Whole f.contents (readFile place (some f.openFile)) ↔
    f.contents.length < 2 ^ 31 ∧
      (filled place 0 (List.replicate f.size 0) (pieces f.reads)).take f.contents.length =
        f.contents := by
  have hfits : 0 + (pieces f.reads).flatten.length ≤ f.size := by
    rw [Nat.zero_add]
    exact f.fits
  have hread : readFile place (some f.openFile) =
      (readLoop place f.size (f.reads.map outcome) 0 (List.replicate f.size 0)).map fun last =>
        if f.size < last.totBytes || last.failed then (.exception, none, 0)
        else (.ok, some last.buffer, UInt32.ofNat last.totBytes) := rfl
  by_cases hlt : f.contents.length < 2 ^ 31
  · have hlt' : 0 + (pieces f.reads).flatten.length < 2 ^ 31 := by rwa [Nat.zero_add]
    have hnot : (decide (f.size < f.contents.length) || false) = false := by
      rw [Bool.or_false, decide_eq_false_iff_not]
      exact Nat.not_lt.mpr f.fits
    have hcount : (UInt32.ofNat f.contents.length).toNat = f.contents.length :=
      UInt32.toNat_ofNat_of_lt' (Nat.lt_trans hlt (by decide))
    rw [hread, readLoop_eq hfits hlt', Option.map_some, Nat.zero_add, ← SplitFile.contents, hnot,
      if_neg Bool.false_ne_true, and_iff_right hlt]
    constructor
    · rintro ⟨_, _, ⟨⟩, -, h⟩
      exact h
    · exact fun h => ⟨_, _, rfl, hcount, h⟩
  · have hge : 2 ^ 31 ≤ 0 + (pieces f.reads).flatten.length := by
      rw [Nat.zero_add]
      exact Nat.not_lt.mp hlt
    rw [hread, readLoop_eq_none hfits (by decide) hge]
    exact iff_of_false (fun ⟨_, _, h, _⟩ => nomatch h) fun h => hlt h.1

theorem take_filled_id : (filled id 0 (List.replicate f.size 0) (pieces f.reads)).take
    f.contents.length = f.contents := by
  have hfits : (pieces f.reads).flatten.length ≤ (List.replicate f.size (0 : UInt8)).length := by
    rw [List.length_replicate]
    exact f.fits
  have hrow := inRow_eq [] hfits
  rw [List.nil_append, List.nil_append, List.length_nil] at hrow
  rw [filled_id, hrow]
  exact List.take_left

theorem whole_readSysfsFile_iff : Whole f.contents (readSysfsFile true (some f.openFile)) ↔
    f.contents.length < 2 ^ 31 ∧ Unharmed 0 (pieces f.reads) := by
  rw [readSysfsFile, Bool.not_true, if_neg Bool.false_ne_true, whole_readFile_iff, filled_zero,
    SplitFile.contents, overlay_eq_flatten_iff f.fits pieces_ne_nil]

theorem whole_readSensorSysfsFile_iff :
    Whole f.contents (readSensorSysfsFile (some f.openFile)) ↔ f.contents.length < 2 ^ 31 := by
  rw [readSensorSysfsFile, whole_readFile_iff, and_iff_left take_filled_id]

end Files

/-- Both read a file whole if `int32_t` counts its bytes and, for the one that reads to the
beginning of its buffer, what is not zero comes with the first read and is behind the ends of the
others. -/
theorem sysfs_files_whole_iff (f : SplitFile) :
    Whole f.contents (readSysfsFile true (some f.openFile)) ∧
        Whole f.contents (readSensorSysfsFile (some f.openFile)) ↔
      f.contents.length < 2 ^ 31 ∧ Unharmed 0 (pieces f.reads) := by
  rw [whole_readSysfsFile_iff, whole_readSensorSysfsFile_iff]
  exact and_iff_left_of_imp And.left

def sampleSplit : SplitFile where
  size := 4
  reads := [some ⟨[65, 66], by decide⟩, none, some ⟨[67, 68], by decide⟩]
  fits := by decide

/-- `"ABCD"`, of which `bmc.c` keeps `"CD"` and two zeros. -/
theorem sampleSplit_lost :
    ¬(Whole sampleSplit.contents (readSysfsFile true (some sampleSplit.openFile)) ∧
      Whole sampleSplit.contents (readSensorSysfsFile (some sampleSplit.openFile))) := by
  rintro ⟨hbmc, -⟩
  obtain ⟨-, h⟩ := whole_readSysfsFile_iff.mp hbmc
  exact absurd (h 2 67 rfl (by decide)).1 (by decide)

end OpaeLibs.PluginXfpga.SysfsReads
