import OpaeLibs.Lib.Numerals
import OpaeLibs.OpaeC.Props

namespace OpaeLibs.PluginXfpga.SysfsWords

open OpaeLibs.Lib.Numerals
open OpaeLibs.OpaeC.Props

abbrev sysfsPathMax : Nat := 256

/-- The calls on files and what they make of the state behind them. `none` is an error; a `read`
gives no more bytes than it is asked for, and a `write` takes no more than it is given. -/
structure Files (σ : Type) where
  openFile : String → σ → Option Nat × σ
  lseek : Nat → σ → Bool × σ
  read : (fd n : Nat) → σ → Option { bytes : List UInt8 // bytes.length ≤ n } × σ
  write : (fd : Nat) → (bytes : List UInt8) → σ → Option { n : Nat // n ≤ bytes.length } × σ
  close : Nat → σ → σ

variable {σ : Type} (files : Files σ) (fd : Nat)

/-- `'\n'` or `'\0'` is the last byte. -/
def endsLine (buf : List UInt8) : Bool := buf.getLast? = some 10 || buf.getLast? = some 0

/-- The loop of `sysfs_read_u64`; `buf` is what it has read. -/
def readLoop (buf : List UInt8) (s : σ) : Option (List UInt8) × σ :=
  match files.read fd (sysfsPathMax - buf.length) s with
  | (none, s) => (none, s)
  | (some bytes, s) =>
    if bytes.val = [] then (none, s)
    else
      let buf' := buf ++ bytes.val
      if endsLine buf' || sysfsPathMax ≤ buf'.length then (some buf', s)
      else readLoop buf' s
termination_by sysfsPathMax - buf.length
decreasing_by
  have hpos := List.length_pos_iff.mpr ‹bytes.val ≠ []›
  have := bytes.property
  rw [List.length_append]
  omega

/-- What it stores, with its result. -/
def sysfsReadU64 (path : String) (s : σ) : Option UInt64 × FpgaResult × σ :=
  match files.openFile path s with
  | (none, s) => (none, .notFound, s)
  | (some fd, s) =>
    match files.lseek fd s with
    | (false, s) => (none, .notFound, files.close fd s)
    | (true, s) =>
      match readLoop files fd [] s with
      | (none, s) => (none, .notFound, files.close fd s)
      -- the last byte is overwritten by a zero
      | (some buf, s) => (some (textValue (buf.dropLast ++ [0])), .ok, files.close fd s)

/-- The loop of `sysfs_write_u64`; `rest` is what it has still to write. -/
def writeLoop (rest : List UInt8) (s : σ) : Bool × σ :=
  match files.write fd rest s with
  | (none, s) => (false, s)
  | (some n, s) =>
    if n.val = 0 then (false, s)
    else if endsLine (rest.take n.val) || rest.length ≤ n.val then (true, s)
    else writeLoop (rest.drop n.val) s
termination_by rest.length
decreasing_by
  rw [List.length_drop]
  have := n.property
  omega

def sysfsWriteU64 (path : String) (u : UInt64) (s : σ) : FpgaResult × σ :=
  match files.openFile path s with
  | (none, s) => (.notFound, s)
  | (some fd, s) =>
    match files.lseek fd s with
    | (false, s) => (.notFound, files.close fd s)
    | (true, s) =>
      match writeLoop files fd (hexLiteral u.toNat ++ [10]) s with
      | (false, s) => (.notFound, files.close fd s)
      | (true, s) => (.ok, files.close fd s)

/-- Writes take all the bytes, each once and in order. -/
inductive Delivers : List UInt8 → σ → σ → Prop
  | nil {s} : Delivers [] s s
  | write {bytes s n s' s''} : files.write fd bytes s = (some n, s') →
      Delivers (bytes.drop n.val) s' s'' → Delivers bytes s s''

section Words

variable {files fd} {s s' : σ} {path : String} {u : UInt64}

theorem endsLine_take {line : List UInt8} {n : Nat} (hline : 10 ∉ line ∧ 0 ∉ line)
    (hn : n ≤ line.length) : endsLine ((line ++ [10]).take n) = false := by
  rw [List.take_append_of_le_length hn, endsLine]
  have hmem : ∀ c, (line.take n).getLast? = some c → c ∈ line := fun c h =>
    List.mem_of_mem_take (List.mem_of_getLast? h)
  rw [decide_eq_false fun h => hline.1 (hmem 10 h), decide_eq_false fun h => hline.2 (hmem 0 h)]
  rfl

theorem writeLoop_delivers {line : List UInt8} (hline : 10 ∉ line ∧ 0 ∉ line)
    (h : writeLoop files fd (line ++ [10]) s = (true, s')) :
    Delivers files fd (line ++ [10]) s s' := by
  generalize hk : line.length = k
  induction k using Nat.strongRecOn generalizing line s with
  | ind k ih =>
    rw [writeLoop] at h
    split at h
    · exact nomatch h
    · next n s₁ hwrite =>
      refine .write hwrite ?_
      have hlen : (line ++ [10]).length = line.length + 1 := List.length_append
      split at h
      · exact nomatch h
      · next hn =>
        by_cases hle : n.val ≤ line.length
        · have hlong : ¬(line ++ [10]).length ≤ n.val := by omega
          rw [endsLine_take hline hle, decide_eq_false hlong, Bool.or_self,
            if_neg Bool.false_ne_true, List.drop_append_of_le_length hle] at h
          rw [List.drop_append_of_le_length hle]
          refine ih (line.length - n.val) (by omega) ⟨?_, ?_⟩ h List.length_drop
          · exact fun hmem => hline.1 (List.mem_of_mem_drop hmem)
          · exact fun hmem => hline.2 (List.mem_of_mem_drop hmem)
        · have hshort : (line ++ [10]).length ≤ n.val := by omega
          rw [decide_eq_true hshort, Bool.or_true, if_pos rfl] at h
          rw [List.drop_eq_nil_of_le hshort]
          exact (Prod.mk.inj h).2 ▸ .nil

end Words

end OpaeLibs.PluginXfpga.SysfsWords
