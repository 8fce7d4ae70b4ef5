import OpaeLibs.PluginXfpga.SysfsWords

namespace OpaeLibs.PluginXfpga.SysfsPieces

open OpaeLibs.Lib.Numerals
open OpaeLibs.OpaeC.Props
open OpaeLibs.PluginXfpga.SysfsWords

/-- A file that is open, and how many calls have moved bytes to or from it. -/
structure Attribute where
  content : List UInt8
  offset : Nat
  calls : Nat

/-- Files whose bytes are moved in pieces: the call `k` moves up to `sizes k + 1` of them. -/
def inPieces (sizes : Nat → Nat) : Files Attribute where
  openFile _ s := (some 3, { s with offset := 0 })
  lseek _ s := (true, { s with offset := 0 })
  read _ n s :=
    let bytes := (s.content.drop s.offset).take (min n (sizes s.calls + 1))
    (some ⟨bytes, Nat.le_trans (List.length_take_le _ _) (Nat.min_le_left _ _)⟩,
      { s with offset := s.offset + bytes.length, calls := s.calls + 1 })
  write _ bytes s :=
    let n := min (sizes s.calls + 1) bytes.length
    (some ⟨n, Nat.min_le_right _ _⟩,
      { content := s.content.take s.offset ++ (bytes.take n ++ s.content.drop (s.offset + n))
        offset := s.offset + n
        calls := s.calls + 1 })
  close _ s := s

section Code

variable {σ : Type} (files : Files σ)

/-- What the two writers share: they differ in the text that they print. -/
def sysfsWriteText (path : String) (text : List UInt8) (s : σ) : FpgaResult × σ :=
  match files.openFile path s with
  | (none, s) => (.notFound, s)
  | (some fd, s) =>
    match files.lseek fd s with
    | (false, s) => (.notFound, files.close fd s)
    | (true, s) =>
      match writeLoop files fd text s with
      | (false, s) => (.notFound, files.close fd s)
      | (true, s) => (.ok, files.close fd s)

/-- The conversion is one of a signed number. -/
def sysfsWriteU64Decimal (path : String) (u : UInt64) (s : σ) : FpgaResult × σ :=
  sysfsWriteText files path (signedText u.toInt64.toInt ++ [10]) s

theorem sysfsWriteU64_eq (path : String) (u : UInt64) (s : σ) :
    sysfsWriteU64 files path u s = sysfsWriteText files path (hexLiteral u.toNat ++ [10]) s := rfl

end Code

section Writes

variable (sizes : Nat → Nat) {fd : Nat} {rest : List UInt8} {s s' : Attribute}

theorem writeLoop_inPieces (hrest : rest ≠ []) :
    (writeLoop (inPieces sizes) fd rest s).1 = true := by
  generalize hk : rest.length = k
  induction k using Nat.strongRecOn generalizing rest s with
  | ind k ih =>
    have hlen := List.length_pos_of_ne_nil hrest
    rw [writeLoop]
    simp only [inPieces]
    rw [if_neg (by omega)]
    split
    · rfl
    · next hmore =>
      rw [Bool.or_eq_true, not_or, decide_eq_true_eq] at hmore
      refine ih _ ?_ ?_ List.length_drop
      · omega
      · rw [← List.length_pos_iff, List.length_drop]
        omega

theorem content_of_delivers {bytes : List UInt8} (h : Delivers (inPieces sizes) fd bytes s s')
    (hend : s.offset = s.content.length) : s'.content = s.content ++ bytes := by
  induction h with
  | nil => exact (List.append_nil _).symm
  | @write bytes s n s₁ s₂ hwrite _ ih =>
    obtain ⟨hn, hs⟩ := Prod.mk.inj hwrite
    have hdrop : s.content.drop (s.offset + n) = [] :=
      List.drop_eq_nil_of_le (by omega)
    have hval : n.val = min (sizes s.calls + 1) bytes.length :=
      congrArg Subtype.val (Option.some.inj hn).symm
    have hcontent : s₁.content = s.content ++ bytes.take n := by
      rw [← hs]
      dsimp only
      rw [← hval, hdrop, List.append_nil, hend, List.take_length]
    have hoffset : s₁.offset = s₁.content.length := by
      rw [hcontent, List.length_append, List.length_take, Nat.min_eq_left n.property, ← hend,
        ← hs, ← hval]
    rw [ih hoffset, hcontent, List.append_assoc, List.take_append_drop]

theorem sysfsWriteText_inPieces {line : List UInt8} (hline : 10 ∉ line ∧ 0 ∉ line)
    (path : String) (calls : Nat) :
    ∃ s, sysfsWriteText (inPieces sizes) path (line ++ [10]) ⟨[], 0, calls⟩ = (.ok, s) ∧
      s.content = line ++ [10] := by
  have hloop : writeLoop (inPieces sizes) 3 (line ++ [10]) ⟨[], 0, calls⟩ =
      (true, (writeLoop (inPieces sizes) 3 (line ++ [10]) ⟨[], 0, calls⟩).2) :=
    Prod.ext (writeLoop_inPieces sizes (List.concat_ne_nil 10 line)) rfl
  have hall := content_of_delivers sizes (writeLoop_delivers hline hloop) rfl
  refine ⟨_, ?_, hall⟩
  rw [sysfsWriteText]
  simp only [inPieces] at hloop ⊢
  rw [hloop]

end Writes

/-- Where a file stands after as many reads. -/
def standing (sizes : Nat → Nat) (s : Attribute) : Nat → Nat
  | 0 => s.offset
  | k + 1 =>
    min (min sysfsPathMax s.content.length) (standing sizes s k + (sizes (s.calls + k) + 1))

/-- The reads end at a place: a line ends there, or the buffer does. -/
def Stops (content : List UInt8) (e : Nat) : Prop :=
  endsLine (content.take e) = true ∨ sysfsPathMax ≤ e

section Reads

variable (sizes : Nat → Nat) (fd : Nat) {s : Attribute}

/-- After one read, which gives at least one byte. -/
def afterRead (sizes : Nat → Nat) (s : Attribute) : Attribute :=
  { s with
    offset := min (min sysfsPathMax s.content.length) (s.offset + (sizes s.calls + 1))
    calls := s.calls + 1 }

theorem offset_afterRead_le (s : Attribute) :
    (afterRead sizes s).offset ≤ s.content.length :=
  Nat.le_trans (Nat.min_le_left _ _) (Nat.min_le_right _ _)

theorem lt_offset_afterRead (h : s.offset < s.content.length) (hroom : s.offset < sysfsPathMax) :
    s.offset < (afterRead sizes s).offset := by
  have hend : (afterRead sizes s).offset =
      min (min sysfsPathMax s.content.length) (s.offset + (sizes s.calls + 1)) := rfl
  omega

theorem standing_afterRead (k : Nat) :
    standing sizes (afterRead sizes s) k = standing sizes s (k + 1) := by
  induction k with
  | zero => rfl
  | succ k ih =>
    have hcalls : (afterRead sizes s).calls + k = s.calls + (k + 1) := Nat.add_right_comm _ _ _
    rw [standing, ih, hcalls]
    rfl

theorem standing_le (h : s.offset ≤ min sysfsPathMax s.content.length) (k : Nat) :
    standing sizes s k ≤ min sysfsPathMax s.content.length := by
  cases k with
  | zero => exact h
  | succ k => exact Nat.min_le_left _ _

theorem le_standing (s : Attribute) (k : Nat) :
    min (min sysfsPathMax s.content.length) (s.offset + k) ≤ standing sizes s k := by
  induction k with
  | zero => exact Nat.min_le_right _ _
  | succ k ih =>
    rw [standing]
    omega

theorem standing_last (h : s.offset ≤ min sysfsPathMax s.content.length) :
    standing sizes s s.content.length = min sysfsPathMax s.content.length := by
  have hle := standing_le sizes h s.content.length
  have hge := le_standing sizes s s.content.length
  omega

theorem read_inPieces {n : Nat} (hn : n = sysfsPathMax - s.offset)
    (hoffset : s.offset ≤ s.content.length) (hroom : s.offset < sysfsPathMax) :
    ∃ bytes : { bytes : List UInt8 // bytes.length ≤ n },
      (inPieces sizes).read fd n s = (some bytes, afterRead sizes s) ∧
        s.content.take s.offset ++ bytes.val = s.content.take (afterRead sizes s).offset ∧
        (bytes.val = [] ↔ s.content.length ≤ s.offset) := by
  let bytes := (s.content.drop s.offset).take (min n (sizes s.calls + 1))
  have hend : (afterRead sizes s).offset =
      min (min sysfsPathMax s.content.length) (s.offset + (sizes s.calls + 1)) := rfl
  have hlen : s.offset + bytes.length = (afterRead sizes s).offset := by
    rw [List.length_take, List.length_drop, hend]
    omega
  refine ⟨⟨bytes, Nat.le_trans (List.length_take_le _ _) (Nat.min_le_left _ _)⟩, ?_, ?_, ?_⟩
  · simp only [inPieces]
    rw [hlen]
    rfl
  · have hbytes : bytes = (s.content.drop s.offset).take bytes.length := by
      rw [List.length_take, List.take_eq_take_iff]
      omega
    rw [← hlen, List.take_add, ← hbytes]
  · rw [← List.length_eq_zero_iff]
    dsimp only
    omega

theorem standing_of_end (h : s.offset = s.content.length) (hroom : s.offset < sysfsPathMax)
    (k : Nat) : standing sizes s k = s.offset := by
  have hle : s.offset ≤ min sysfsPathMax s.content.length := by omega
  have hge := le_standing sizes s k
  have := standing_le sizes hle k
  omega

/-- The loop reads up to the first place where it stops, or to the end of the file if there is no
such place. -/
theorem readLoop_inPieces {buf : List UInt8} (hbuf : buf = s.content.take s.offset)
    (hoffset : s.offset ≤ s.content.length) (hgoes : ¬Stops s.content s.offset) :
    (∃ k, Stops s.content (standing sizes s k) ∧
        (readLoop (inPieces sizes) fd buf s).1 = some (s.content.take (standing sizes s k))) ∨
      (∀ k, ¬Stops s.content (standing sizes s k)) ∧
        (readLoop (inPieces sizes) fd buf s).1 = none := by
  generalize hm : sysfsPathMax - s.offset = m
  induction m using Nat.strongRecOn generalizing buf s with
  | ind m ih =>
    have hroom : s.offset < sysfsPathMax := Nat.not_le.mp fun h => hgoes (.inr h)
    have hlen : buf.length = s.offset := by rw [hbuf, List.length_take_of_le hoffset]
    obtain ⟨bytes, hread, htake, hnil⟩ := read_inPieces sizes fd
      (congrArg (sysfsPathMax - ·) hlen) hoffset hroom
    rw [readLoop, hread]
    dsimp only
    split
    · next hempty =>
      refine .inr ⟨fun k => ?_, rfl⟩
      rw [standing_of_end sizes (Nat.le_antisymm hoffset (hnil.mp hempty)) hroom]
      exact hgoes
    · next hbytes =>
      have hlt : s.offset < s.content.length := Nat.not_le.mp (mt hnil.mpr hbytes)
      have hpast := lt_offset_afterRead sizes hlt hroom
      have hle := offset_afterRead_le sizes s
      rw [(congrArg (· ++ bytes.val) hbuf).trans htake]
      have hstops : (endsLine (s.content.take (afterRead sizes s).offset) ||
          sysfsPathMax ≤ (s.content.take (afterRead sizes s).offset).length) = true ↔
            Stops s.content (afterRead sizes s).offset := by
        rw [List.length_take_of_le hle, Bool.or_eq_true, decide_eq_true_eq, Stops]
      split
      · next h =>
        exact .inl ⟨1, hstops.mp h, rfl⟩
      · next h =>
        have hrest := ih _ (by omega) (s := afterRead sizes s) rfl hle (mt hstops.mpr h) rfl
        simp only [standing_afterRead] at hrest
        refine hrest.imp ?_ ?_
        · rintro ⟨k, hk, hloop⟩
          exact ⟨k + 1, hk, hloop⟩
        · rintro ⟨hnone, hloop⟩
          refine ⟨fun k => ?_, hloop⟩
          cases k with
          | zero => exact hgoes
          | succ k => exact hnone k

end Reads

section Lines

variable (sizes : Nat → Nat) {line : List UInt8} {last : UInt8}

theorem endsLine_append (hlast : last = 10 ∨ last = 0) : endsLine (line ++ [last]) = true := by
  rw [endsLine, List.getLast?_concat, Bool.or_eq_true, decide_eq_true_eq, decide_eq_true_eq]
  exact hlast.imp (congrArg some) (congrArg some)

theorem stops_line_iff (hline : 10 ∉ line ∧ 0 ∉ line) (hlast : last = 10 ∨ last = 0)
    (hlen : line.length < sysfsPathMax) {e : Nat} (he : e ≤ line.length + 1) :
    Stops (line ++ [last]) e ↔ e = line.length + 1 := by
  constructor
  · intro h
    by_contra hne
    have hle : e ≤ line.length := by omega
    rcases h with h | h
    · rw [List.take_append_of_le_length hle] at h
      have hcut := endsLine_take hline hle
      rw [List.take_append_of_le_length hle, h] at hcut
      exact nomatch hcut
    · omega
  · rintro rfl
    left
    rw [← List.length_concat (a := last), List.concat_eq_append, List.take_length]
    exact endsLine_append hlast

theorem readLoop_line (hline : 10 ∉ line ∧ 0 ∉ line) (hlast : last = 10 ∨ last = 0)
    (hlen : line.length < sysfsPathMax) (fd calls : Nat) :
    (readLoop (inPieces sizes) fd [] ⟨line ++ [last], 0, calls⟩).1 = some (line ++ [last]) := by
  have hall : (line ++ [last]).length = line.length + 1 := List.length_append
  have hmin : min sysfsPathMax (line ++ [last]).length = line.length + 1 := by omega
  have hstanding : ∀ k, standing sizes ⟨line ++ [last], 0, calls⟩ k ≤ line.length + 1 :=
    fun k => hmin ▸ standing_le sizes (Nat.zero_le _) k
  have hgoes : ¬Stops (line ++ [last]) 0 := by
    rw [stops_line_iff hline hlast hlen (Nat.zero_le _)]
    exact (Nat.succ_ne_zero _).symm
  rcases readLoop_inPieces sizes fd (s := ⟨line ++ [last], 0, calls⟩) rfl
    (Nat.zero_le _) hgoes with ⟨k, hk, hloop⟩ | ⟨hnone, -⟩
  · have hend := (stops_line_iff hline hlast hlen (hstanding k)).mp hk
    exact hloop.trans (by rw [hend, ← hall, List.take_length])
  · have hend := standing_last sizes (s := ⟨line ++ [last], 0, calls⟩) (Nat.zero_le _)
    have hstop := (stops_line_iff hline hlast hlen le_rfl).mpr rfl
    rw [← hmin, ← hend] at hstop
    exact absurd hstop (hnone _)

theorem sysfsReadU64_inPieces (hline : 10 ∉ line ∧ 0 ∉ line) (hlen : line.length < sysfsPathMax)
    (path : String) {s : Attribute} (hs : s.content = line ++ [10]) :
    ∃ s', sysfsReadU64 (inPieces sizes) path s = (some (textValue line), .ok, s') := by
  have hloop := readLoop_line sizes hline (.inl rfl) hlen 3 s.calls
  rw [← hs] at hloop
  generalize hr : readLoop (inPieces sizes) 3 [] ⟨s.content, 0, s.calls⟩ = r at hloop
  obtain ⟨buf, s'⟩ := r
  obtain rfl : buf = some s.content := hloop
  refine ⟨s', ?_⟩
  rw [sysfsReadU64]
  simp only [inPieces] at hr ⊢
  rw [hr, hs]
  dsimp only
  rw [List.dropLast_concat, textValue_terminated]

end Lines

/-- A text that reads back as a number, and that a buffer has room for. -/
structure Spelled (line : List UInt8) (u : UInt64) : Prop where
  clean : 10 ∉ line ∧ 0 ∉ line
  short : line.length < sysfsPathMax
  value : textValue line = u

theorem spelled_hexLiteral (u : UInt64) : Spelled (hexLiteral u.toNat) u where
  clean := ⟨notMem_hexLiteral (by decide) u.toNat, zero_notMem_hexLiteral u.toNat⟩
  short := by
    have hlen : (hexText u.toNat).length ≤ 15 + 1 :=
      length_hexText (Nat.lt_of_lt_of_eq u.toNat_lt (by decide))
    have hmax : sysfsPathMax = 256 := rfl
    rw [hexLiteral, List.length_cons, List.length_cons]
    omega
  value := textValue_hexLiteral u

theorem spelled_signedText (u : UInt64) : Spelled (signedText u.toInt64.toInt) u where
  clean := ⟨notMem_signedText (by decide) _, notMem_signedText (by decide) _⟩
  short := by
    have hlt := u.toInt64.toInt_lt
    have hge := u.toInt64.le_toInt
    have hlen : (decimalText u.toInt64.toInt.natAbs).length ≤ 19 + 1 :=
      length_decimalText (by omega)
    have hmax : sysfsPathMax = 256 := rfl
    rw [signedText]
    split
    · rw [List.length_cons]
      omega
    · omega
  value := textValue_signedText u

/-- What either writer writes is read back, however the writes and the reads split it. -/
theorem u64_round_trip (writes reads : Nat → Nat) (path : String) (u : UInt64) :
    (∃ s, sysfsWriteU64 (inPieces writes) path u ⟨[], 0, 0⟩ = (.ok, s) ∧
      ∃ s', sysfsReadU64 (inPieces reads) path s = (some u, .ok, s')) ∧
    ∃ s, sysfsWriteU64Decimal (inPieces writes) path u ⟨[], 0, 0⟩ = (.ok, s) ∧
      ∃ s', sysfsReadU64 (inPieces reads) path s = (some u, .ok, s') := by
  have hback {line : List UInt8} (h : Spelled line u) :
      ∃ s, sysfsWriteText (inPieces writes) path (line ++ [10]) ⟨[], 0, 0⟩ = (.ok, s) ∧
        ∃ s', sysfsReadU64 (inPieces reads) path s = (some u, .ok, s') := by
    obtain ⟨s, hwrite, hs⟩ := sysfsWriteText_inPieces writes h.clean path 0
    obtain ⟨s', hread⟩ := sysfsReadU64_inPieces reads h.clean h.short path hs
    exact ⟨s, hwrite, s', h.value ▸ hread⟩
  rw [sysfsWriteU64_eq, sysfsWriteU64Decimal]
  exact ⟨hback (spelled_hexLiteral u), hback (spelled_signedText u)⟩

end OpaeLibs.PluginXfpga.SysfsPieces
