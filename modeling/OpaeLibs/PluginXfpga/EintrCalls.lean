import OpaeLibs.Lib.Bits
import OpaeLibs.Lib.Loops
import OpaeLibs.Lib.Overlays
import OpaeLibs.PluginXfpga.ObjectReads

namespace OpaeLibs.PluginXfpga.EintrCalls

open OpaeLibs.Lib.Bits OpaeLibs.Lib.Loops OpaeLibs.Lib.Overlays
open OpaeLibs.OpaeC.Props
open OpaeLibs.PluginXfpga.ObjectReads

/-- What comes of a `read` or a `write`: an error, or the most bytes that it moves. -/
inductive Call
  | fails (errno : Nat)
  | moves (n : Nat)

def eintr : Nat := 4

/-- A file that is open: what it contains, where it is read next, what has been written to it, how
many calls have been made, and `errno`. -/
structure OpenFile where
  content : List UInt8
  offset : Nat
  written : List UInt8
  calls : Nat
  errno : Nat

def opened (content : List UInt8) (calls errno : Nat) : OpenFile := ⟨content, 0, [], calls, errno⟩

/-- How far a transfer is. `total` is a `ssize_t`. -/
structure Progress where
  total : Int
  buffer : List UInt8
  file : OpenFile

section Code

def ssize (n : UInt64) : Int := n.toInt64.toInt

/-- A counter and the bytes of a call, unless the sum overflows. -/
def advance (total : Int) (n : Nat) : Option Int :=
  if total + n < 2 ^ 63 then some (total + n) else none

-- `call` is what comes of the calls one after another, `seek` the error of `lseek`, if there is one
variable (call : Nat → Call) (seek : Option Nat)

def read (n : UInt64) (f : OpenFile) : Option (List UInt8) × OpenFile :=
  match call f.calls with
  | .fails errno => (none, { f with calls := f.calls + 1, errno })
  | .moves m =>
    let bytes := (f.content.drop f.offset).take (min n.toNat m)
    (some bytes, { f with offset := f.offset + bytes.length, calls := f.calls + 1 })

def write (bytes : List UInt8) (f : OpenFile) : Option Nat × OpenFile :=
  match call f.calls with
  | .fails errno => (none, { f with calls := f.calls + 1, errno })
  | .moves m =>
    (some (min bytes.length m),
      { f with written := f.written ++ bytes.take m, calls := f.calls + 1 })

def lseek (f : OpenFile) : Int × OpenFile :=
  match seek with
  | none => (f.offset, f)
  | some errno => (-1, { f with errno })

/-- A round of `eintr_read`. It goes on, or it ends with what is returned; `none` is a fault: there
is no room for the bytes that are asked for, or the counter overflows. -/
def readRound (count : UInt64) (s : Progress) : Option (Progress ⊕ Int × Progress) :=
  if s.total < ssize count then
    let n := count - UInt64.ofInt s.total
    if s.buffer.length < s.total.toNat + n.toNat then none
    else
      match read call n s.file with
      | (none, f) =>
        if f.errno = eintr then some (.inl { s with file := f })
        else some (.inr (-1, { s with file := f }))
      | (some bytes, f) =>
        if bytes.length = 0 then
          let (offset, f) := lseek seek f
          some (.inr (offset, { s with file := f }))
        else
          (advance s.total bytes.length).map fun total =>
            .inl ⟨total, splice s.buffer s.total.toNat bytes, f⟩
  else some (.inr (s.total, s))

def eintrRead (buffer : List UInt8) (count : UInt64) (rounds : Nat) (f : OpenFile) :
    Option (Int × Progress) :=
  loop (readRound call seek count) rounds ⟨0, buffer, f⟩

def writeRound (count : UInt64) (s : Progress) : Option (Progress ⊕ Int × Progress) :=
  if s.total < ssize count then
    let n := count - UInt64.ofInt s.total
    if s.buffer.length < s.total.toNat + n.toNat then none
    else
      match write call ((s.buffer.drop s.total.toNat).take n.toNat) s.file with
      | (none, f) =>
        if f.errno = eintr then some (.inl { s with file := f })
        else some (.inr (-1, { s with file := f }))
      | (some m, f) => (advance s.total m).map fun total => .inl { s with total, file := f }
  else some (.inr (s.total, s))

/-- `buf` is `none` for `NULL`. -/
def eintrWrite (buf : Option (List UInt8)) (count : UInt64) (rounds : Nat) (f : OpenFile) :
    Option (Int × Progress) :=
  match buf with
  | none => some (-1, ⟨0, [], f⟩)
  | some buffer => loop (writeRound call count) rounds ⟨0, buffer, f⟩

/-- The result, the buffer and the size of an object, of which the buffer has the size `max_size`.
`file` is `none` if the file of the object is not opened. -/
def syncObject (o : FileObject) (rounds : Nat) (file : Option OpenFile) :
    Option (FpgaResult × List UInt8 × UInt64) :=
  match file with
  | none => some (.exception, o.buffer, o.size)
  | some f =>
    (eintrRead call seek o.buffer (UInt64.ofNat o.buffer.length) rounds f).map fun (n, s) =>
      if n < 0 then (.exception, s.buffer, o.size) else (.ok, s.buffer, UInt64.ofInt n)

end Code

def Retried (c : Call) : Prop := c = .fails eintr ∨ c = .moves 0

/-- Outcomes of calls of which only finitely many move nothing. -/
structure Calls where
  call : Nat → Call
  finite : {k | Retried (call k)}.Finite

structure Transfer where
  buffer : List UInt8
  count : UInt64
  count_lt : count.toNat < 2 ^ 63
  count_le : count.toNat ≤ buffer.length

def Fails (call : Nat → Call) (r : Int × Progress) : Prop :=
  r.1 = -1 ∧ r.2.file.errno ≠ eintr ∧
    ∃ k, r.2.file.calls = k + 1 ∧ call k = .fails r.2.file.errno

/-- `count` is returned once all bytes have been written, each of them once, and the error of a call
otherwise, when only the first of them have. -/
structure WriteDone (call : Nat → Call) (t : Transfer) (f : OpenFile) (r : Int × Progress) :
    Prop where
  written : ∃ n ≤ t.count.toNat, r.2.file.written = f.written ++ t.buffer.take n
  returned : r.1 = t.count.toNat ∧ r.2.file.written = f.written ++ t.buffer.take t.count.toNat ∨
    Fails call r

/-- The buffer begins with bytes of the file, as many as have been read, and this is the number
that is returned, unless it is the error of a call. Less than the file has is read only where a call
that moves nothing ends it. -/
structure ReadDone (call : Nat → Call) (seek : Option Nat) (t : Transfer) (content : List UInt8)
    (r : Int × Progress) : Prop where
  stored : r.2.buffer =
    content.take r.2.file.offset ++ t.buffer.drop r.2.file.offset
  offset_le : r.2.file.offset ≤ min t.count.toNat content.length
  returned :
    r.1 = r.2.file.offset ∧ (r.2.file.offset = min t.count.toNat content.length ∨
      ∃ k, r.2.file.calls = k + 1 ∧ call k = .moves 0) ∨
    Fails call r ∨ r.1 = -1 ∧ seek = some r.2.file.errno

section Rounds

variable {call : Nat → Call} {seek : Option Nat} {f : OpenFile} {errno m : Nat}
  {bytes : List UInt8}

theorem read_of_fails {n : UInt64} (h : call f.calls = .fails errno) :
    read call n f = (none, { f with calls := f.calls + 1, errno }) := by
  rw [read, h]

theorem read_of_moves {n : UInt64} (h : call f.calls = .moves m) :
    read call n f =
      (some ((f.content.drop f.offset).take (min n.toNat m)),
        { f with
          offset := f.offset + ((f.content.drop f.offset).take (min n.toNat m)).length
          calls := f.calls + 1 }) := by
  rw [read, h]

theorem write_of_fails (h : call f.calls = .fails errno) :
    write call bytes f = (none, { f with calls := f.calls + 1, errno }) := by
  rw [write, h]

theorem write_of_moves (h : call f.calls = .moves m) :
    write call bytes f = (some (min bytes.length m),
      { f with written := f.written ++ bytes.take m, calls := f.calls + 1 }) := by
  rw [write, h]

theorem advance_eq {n : Nat} (h : n + m < 2 ^ 63) : advance n m = some ((n + m : Nat) : Int) := by
  have hlt : (n : Int) + m < 2 ^ 63 := by omega
  exact if_pos hlt

theorem toNat_request {count : UInt64} {n : Nat} (h : n ≤ count.toNat) :
    (count - UInt64.ofInt n).toNat = count.toNat - n := by
  have hlt := count.toNat_lt
  have hn : (UInt64.ofInt n).toNat = n := toNat_ofInt_natCast (by omega)
  rw [UInt64.toNat_sub_of_le _ _ (UInt64.le_iff_toNat_le.mpr (hn.symm ▸ h)), hn]

end Rounds

section Writes

variable {call : Nat → Call} {t : Transfer} {f file : OpenFile} {errno n m last : Nat}

theorem lt_ssize_iff : (n : Int) < ssize t.count ↔ n < t.count.toNat := by
  rw [ssize, toInt_toInt64_of_lt t.count_lt]
  exact Int.ofNat_lt

theorem writeRound_end :
    writeRound call t.count ⟨t.count.toNat, t.buffer, file⟩ =
      some (.inr (t.count.toNat, ⟨t.count.toNat, t.buffer, file⟩)) :=
  if_neg fun h => Nat.lt_irrefl _ (lt_ssize_iff.mp h)

theorem writeRound_lt (h : n < t.count.toNat) :
    writeRound call t.count ⟨n, t.buffer, file⟩ =
      match write call ((t.buffer.drop n).take (t.count.toNat - n)) file with
      | (none, f) =>
        if f.errno = eintr then some (.inl ⟨n, t.buffer, f⟩)
        else some (.inr (-1, ⟨n, t.buffer, f⟩))
      | (some m, f) => (advance n m).map fun total => .inl ⟨total, t.buffer, f⟩ := by
  have hle := t.count_le
  rw [writeRound, if_pos (lt_ssize_iff.mpr h)]
  dsimp only
  rw [toNat_request (Nat.le_of_lt h), Int.toNat_natCast, if_neg (by omega)]

structure WriteAt (t : Transfer) (f : OpenFile) (n : Nat) (s : Progress) : Prop where
  eq : s = ⟨n, t.buffer, s.file⟩
  le : n ≤ t.count.toNat
  written : s.file.written = f.written ++ t.buffer.take n

/-- What bounds the rounds: the bytes that are left, and the calls before the last one that moves
nothing. -/
def remaining (t : Transfer) (last : Nat) (s : Progress) : Nat :=
  (t.count.toNat - s.total.toNat) + (last + 1 - s.file.calls)

theorem writeRound_goes (hlast : ∀ k, Retried (call k) → k ≤ last) {s : Progress}
    (hs : WriteAt t f n s) :
    ∃ r, writeRound call t.count s = some r ∧
      Sum.elim (fun s' => (∃ n, WriteAt t f n s') ∧ remaining t last s' < remaining t last s)
        (WriteDone call t f) r := by
  obtain ⟨total, buffer, file⟩ := s
  obtain ⟨heq, hle, hwritten⟩ := hs
  obtain ⟨rfl, rfl, -⟩ := Progress.mk.inj heq
  dsimp only at hwritten
  have hlt := t.count_lt
  rcases Nat.lt_or_eq_of_le hle with hn | rfl
  · rw [writeRound_lt hn]
    cases hcall : call file.calls with
    | fails errno =>
      rw [write_of_fails hcall]
      dsimp only
      by_cases hintr : errno = eintr
      · have hbound := hlast _ (.inl (hintr ▸ hcall))
        rw [if_pos hintr]
        refine ⟨_, rfl, ⟨n, rfl, hle, hwritten⟩, ?_⟩
        dsimp only [remaining]
        omega
      · rw [if_neg hintr]
        exact ⟨_, rfl, ⟨n, hle, hwritten⟩, .inr ⟨rfl, hintr, file.calls, rfl, hcall⟩⟩
    | moves m =>
      have hle' := t.count_le
      have hlen : ((t.buffer.drop n).take (t.count.toNat - n)).length = t.count.toNat - n := by
        rw [List.length_take, List.length_drop]
        omega
      rw [write_of_moves hcall, hlen]
      dsimp only
      rw [advance_eq (by omega)]
      refine ⟨_, rfl, ⟨n + min (t.count.toNat - n) m, rfl, by omega, ?_⟩, ?_⟩
      · dsimp only
        rw [hwritten, List.append_assoc, List.take_take, List.take_add, Nat.min_comm]
      · dsimp only [remaining]
        rw [Int.toNat_natCast, Int.toNat_natCast]
        by_cases hm : m = 0
        · have hbound := hlast _ (.inr (hm ▸ hcall))
          omega
        · omega
  · rw [writeRound_end]
    exact ⟨_, rfl, ⟨_, Nat.le_refl _, hwritten⟩, .inl ⟨rfl, hwritten⟩⟩

end Writes

section Reads

variable {call : Nat → Call} {seek : Option Nat} {t : Transfer} {content buffer : List UInt8}
  {file : OpenFile} {n last : Nat}

theorem readRound_end :
    readRound call seek t.count ⟨t.count.toNat, buffer, file⟩ =
      some (.inr (t.count.toNat, ⟨t.count.toNat, buffer, file⟩)) :=
  if_neg fun h => Nat.lt_irrefl _ (lt_ssize_iff.mp h)

theorem readRound_lt (call : Nat → Call) (seek : Option Nat) (file : OpenFile)
    (hbuffer : buffer.length = t.buffer.length) (h : n < t.count.toNat) :
    ∃ x : UInt64, x.toNat = t.count.toNat - n ∧
      readRound call seek t.count ⟨n, buffer, file⟩ =
        match read call x file with
        | (none, f) =>
          if f.errno = eintr then some (.inl ⟨n, buffer, f⟩)
          else some (.inr (-1, ⟨n, buffer, f⟩))
        | (some bytes, f) =>
          if bytes.length = 0 then
            some (.inr ((lseek seek f).1, ⟨n, buffer, (lseek seek f).2⟩))
          else
            (advance n bytes.length).map fun total => .inl ⟨total, splice buffer n bytes, f⟩ := by
  have hle := t.count_le
  refine ⟨t.count - UInt64.ofInt n, toNat_request (Nat.le_of_lt h), ?_⟩
  rw [readRound, if_pos (lt_ssize_iff.mpr h)]
  dsimp only
  rw [toNat_request (Nat.le_of_lt h), Int.toNat_natCast, if_neg (by omega)]

structure ReadAt (t : Transfer) (content : List UInt8) (n : Nat) (s : Progress) : Prop where
  eq : s = ⟨n, content.take n ++ t.buffer.drop n, s.file⟩
  le : n ≤ min t.count.toNat content.length
  content : s.file.content = content
  offset : s.file.offset = n

theorem length_readAt (hle : n ≤ min t.count.toNat content.length) :
    (content.take n ++ t.buffer.drop n).length = t.buffer.length := by
  have hcount := t.count_le
  rw [List.length_append, List.length_take, List.length_drop]
  omega

theorem splice_readAt (hle : n ≤ content.length) (m : Nat) :
    splice (content.take n ++ t.buffer.drop n) n ((content.drop n).take m) =
      content.take (n + ((content.drop n).take m).length) ++
        t.buffer.drop (n + ((content.drop n).take m).length) := by
  have hlen : (content.take n).length = n := List.length_take_of_le hle
  have htake : content.take n ++ (content.drop n).take m =
      content.take (n + ((content.drop n).take m).length) := by
    rw [List.take_add, List.length_take, ← List.take_eq_take_min]
  have hsplice := splice_append (content.take n) (t.buffer.drop n) ((content.drop n).take m)
  rw [hlen] at hsplice
  rw [hsplice, htake, List.drop_drop]

theorem readRound_goes (hlast : ∀ k, Retried (call k) → k ≤ last) {s : Progress}
    (hs : ReadAt t content n s) :
    ∃ r, readRound call seek t.count s = some r ∧
      Sum.elim (fun s' => (∃ n, ReadAt t content n s') ∧ remaining t last s' < remaining t last s)
        (ReadDone call seek t content) r := by
  obtain ⟨total, buffer, file⟩ := s
  obtain ⟨heq, hle, hcontent, hoffset⟩ := hs
  obtain ⟨rfl, rfl, -⟩ := Progress.mk.inj heq
  dsimp only at hcontent hoffset
  have hlt := t.count_lt
  rcases Nat.lt_or_ge n t.count.toNat with hn | hge
  · obtain ⟨x, hx, hround⟩ := readRound_lt call seek file (length_readAt hle) hn
    rw [hround]
    cases hcall : call file.calls with
    | fails errno =>
      rw [read_of_fails hcall]
      dsimp only
      by_cases hintr : errno = eintr
      · have hbound := hlast _ (.inl (hintr ▸ hcall))
        rw [if_pos hintr]
        refine ⟨_, rfl, ⟨n, rfl, hle, hcontent, hoffset⟩, ?_⟩
        dsimp only [remaining]
        omega
      · rw [if_neg hintr]
        refine ⟨_, rfl, ?_, ?_, .inr (.inl ⟨rfl, hintr, file.calls, rfl, hcall⟩)⟩
        · dsimp only
          rw [hoffset]
        · exact hoffset.symm ▸ hle
    | moves m =>
      have hlen : ((content.drop n).take (min (t.count.toNat - n) m)).length =
          min (min (t.count.toNat - n) m) (content.length - n) := by
        rw [List.length_take, List.length_drop]
      have hsplice := splice_readAt (t := t) (Nat.le_trans hle (Nat.min_le_right _ _))
        (min (t.count.toNat - n) m)
      rw [read_of_moves hcall, hx, hcontent, hoffset]
      dsimp only
      by_cases hzero : ((content.drop n).take (min (t.count.toNat - n) m)).length = 0
      · rw [if_pos hzero, hzero, Nat.add_zero]
        have hreturned : n = min t.count.toNat content.length ∨
            ∃ k, file.calls + 1 = k + 1 ∧ call k = .moves 0 := by
          by_cases hm : m = 0
          · exact .inr ⟨file.calls, rfl, hm ▸ hcall⟩
          · exact .inl (by omega)
        refine ⟨_, rfl, ?_⟩
        cases seek with
        | none => exact ⟨rfl, hle, .inl ⟨rfl, hreturned⟩⟩
        | some errno => exact ⟨rfl, hle, .inr (.inr ⟨rfl, rfl⟩)⟩
      · rw [if_neg hzero, advance_eq (by omega), hsplice]
        refine ⟨_, rfl, ⟨_, rfl, by omega, rfl, rfl⟩, ?_⟩
        dsimp only [remaining]
        rw [Int.toNat_natCast, Int.toNat_natCast]
        omega
  · obtain rfl : n = t.count.toNat := by omega
    rw [readRound_end]
    refine ⟨_, rfl, ?_, ?_, .inl ⟨?_, .inl ?_⟩⟩
    · dsimp only
      rw [hoffset]
    · exact hoffset.symm ▸ hle
    · exact congrArg Nat.cast hoffset.symm
    · dsimp only
      omega

end Reads

section Transfers

theorem Calls.exists_last (c : Calls) : ∃ last, ∀ k, Retried (c.call k) → k ≤ last :=
  c.finite.bddAbove

def EndsWith {α : Type} (transfer : Nat → Option α) (P : α → Prop) : Prop :=
  ∃ r, P r ∧ ∃ bound, ∀ rounds, bound < rounds → transfer rounds = some r

theorem endsWith_eintrWrite (c : Calls) (t : Transfer) (f : OpenFile) :
    EndsWith (fun rounds => eintrWrite c.call (some t.buffer) t.count rounds f)
      (WriteDone c.call t f) := by
  obtain ⟨last, hlast⟩ := c.exists_last
  have hstart : WriteAt t f 0 ⟨0, t.buffer, f⟩ := ⟨rfl, Nat.zero_le _, (List.append_nil _).symm⟩
  obtain ⟨r, hr, hloop⟩ := exists_loop_ensures (I := fun s => ∃ n, WriteAt t f n s)
    (fun s ⟨n, hs⟩ => writeRound_goes hlast hs) ⟨0, hstart⟩
  exact ⟨r, hr, _, hloop⟩

theorem endsWith_eintrRead (c : Calls) (seek : Option Nat) (t : Transfer) (content : List UInt8)
    (calls errno : Nat) :
    EndsWith (fun rounds =>
        eintrRead c.call seek t.buffer t.count rounds (opened content calls errno))
      (ReadDone c.call seek t content) := by
  obtain ⟨last, hlast⟩ := c.exists_last
  have hstart : ReadAt t content 0 ⟨0, t.buffer, opened content calls errno⟩ :=
    ⟨rfl, Nat.zero_le _, rfl, rfl⟩
  obtain ⟨r, hr, hloop⟩ := exists_loop_ensures (I := fun s => ∃ n, ReadAt t content n s)
    (fun s ⟨n, hs⟩ => readRound_goes hlast hs) ⟨0, hstart⟩
  exact ⟨r, hr, _, hloop⟩

end Transfers

/-- Whatever comes of the calls, if only finitely many move nothing, the transfers are complete or
end with the error of a call. Without a buffer there is no call. -/
theorem eintr_transfers_complete (c : Calls) (t : Transfer) :
    (∀ f, EndsWith (fun rounds => eintrWrite c.call (some t.buffer) t.count rounds f)
      (WriteDone c.call t f)) ∧
    (∀ f rounds, eintrWrite c.call none t.count rounds f = some (-1, ⟨0, [], f⟩)) ∧
    ∀ seek content calls errno,
      EndsWith (fun rounds =>
          eintrRead c.call seek t.buffer t.count rounds (opened content calls errno))
        (ReadDone c.call seek t content) :=
  ⟨endsWith_eintrWrite c t, fun _ _ => rfl, fun seek => endsWith_eintrRead c seek t⟩

def sampleCalls : Calls where
  call k := if k = 1 then .fails eintr else .moves 2
  finite := by
    refine (Set.finite_singleton 1).subset fun k hk => ?_
    by_contra hne
    have hmoves : (if k = 1 then Call.fails eintr else .moves 2) = .moves 2 := if_neg hne
    rcases hk with h | h
    · exact nomatch hmoves.symm.trans h
    · exact nomatch hmoves.symm.trans h

/-- All of five bytes are written, and three are read if the file has no more. -/
example :
    (eintrWrite sampleCalls.call (some [1, 2, 3, 4, 5, 6]) 5 9 (opened [] 0 0)).map
        (fun r => (r.1, r.2.file.written)) = some (5, [1, 2, 3, 4, 5]) ∧
      (eintrRead sampleCalls.call none [0, 0, 0, 0, 0] 5 9 (opened [7, 8, 9] 0 0)).map
        (fun r => (r.1, r.2.buffer)) = some (3, [7, 8, 9, 0, 0]) := by
  decide

section Objects

/-- What an object can be synchronized with if its file is opened: bytes that the file begins
with. -/
def Begins (content : List UInt8) : SyncOutcome → Prop
  | .openFails => False
  | .readFails stored => stored <+: content
  | .reads text => text <+: content

theorem fill_take {content buffer : List UInt8} {n : Nat} (hcontent : n ≤ content.length)
    (hbuffer : n ≤ buffer.length) :
    fill (content.take n) buffer = content.take n ++ buffer.drop n := by
  have hlen : (content.take n).length = n := List.length_take_of_le hcontent
  rw [fill, hlen, List.take_of_length_le (hlen.trans_le hbuffer)]

def synced (sync : SyncOutcome) (o : FileObject) : FpgaResult × List UInt8 × UInt64 :=
  ((ObjectReads.syncObject sync o).1, (ObjectReads.syncObject sync o).2.buffer,
    (ObjectReads.syncObject sync o).2.size)

theorem synced_reads (text : List UInt8) (o : FileObject) :
    synced (.reads text) o =
      (.ok, fill text o.buffer, UInt64.ofNat (min text.length o.buffer.length)) := rfl

theorem synced_readFails (stored : List UInt8) (o : FileObject) :
    synced (.readFails stored) o = (.exception, fill stored o.buffer, o.size) := rfl

/-- With the calls that are made, an object is synchronized as with what comes of reading its
file. -/
theorem endsWith_syncObject (c : Calls) (seek : Option Nat) (o : FileObject)
    (content : List UInt8) (calls errno : Nat) :
    EndsWith (fun rounds => syncObject c.call seek o rounds (some (opened content calls errno)))
      fun r => ∃ sync, Begins content sync ∧ r = synced sync o := by
  have hlt := o.length_lt
  have hcount : (UInt64.ofNat o.buffer.length).toNat = o.buffer.length :=
    UInt64.toNat_ofNat_of_lt' (Nat.lt_trans hlt (by decide))
  let t : Transfer := ⟨o.buffer, UInt64.ofNat o.buffer.length, by omega, Nat.le_of_eq hcount⟩
  obtain ⟨⟨value, total, buffer, file⟩, ⟨hstored, hle, hreturned⟩, bound, hloop⟩ :=
    endsWith_eintrRead c seek t content calls errno
  dsimp only [t] at hstored hle hreturned
  rw [hcount] at hle
  obtain ⟨hroom, hread⟩ := Nat.le_min.mp hle
  have hfill : fill (content.take file.offset) o.buffer = buffer :=
    (fill_take hread hroom).trans hstored.symm
  have hprefix : content.take file.offset <+: content := List.take_prefix _ _
  refine ⟨if value < 0 then (.exception, buffer, o.size) else (.ok, buffer, UInt64.ofInt value), ?_,
    bound, fun rounds h => congrArg (Option.map _) (hloop rounds h)⟩
  have hvalue : value = file.offset ∨ value = -1 := by
    rcases hreturned with ⟨h, -⟩ | ⟨h, -⟩ | ⟨h, -⟩
    · exact .inl h
    · exact .inr h
    · exact .inr h
  rcases hvalue with rfl | rfl
  · have hlen : min (content.take file.offset).length o.buffer.length = file.offset := by
      rw [List.length_take_of_le hread, Nat.min_eq_left hroom]
    have hsmall : file.offset < 2 ^ 64 :=
      Nat.lt_of_le_of_lt hroom (Nat.lt_trans hlt (by decide))
    have hsize : UInt64.ofInt file.offset = UInt64.ofNat file.offset := by
      apply UInt64.toNat.inj
      rw [toNat_ofInt_natCast hsmall, UInt64.toNat_ofNat_of_lt' hsmall]
    refine ⟨.reads (content.take file.offset), hprefix, ?_⟩
    rw [if_neg (Int.not_lt.mpr (Int.natCast_nonneg _)), synced_reads, hlen, hfill, hsize]
  · refine ⟨.readFails (content.take file.offset), hprefix, ?_⟩
    rw [if_pos (by decide), synced_readFails, hfill]

end Objects

end OpaeLibs.PluginXfpga.EintrCalls
