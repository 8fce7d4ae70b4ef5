import OpaeLibs.Lib.CStrings
import OpaeLibs.Lib.FileTrees

namespace OpaeLibs.Libbitstream.PathChecks

open OpaeLibs.Lib.CStrings OpaeLibs.Lib.FileTrees

def isprint (ch : UInt8) : Bool := 32 ≤ ch && ch ≤ 126

def isxdigit (ch : UInt8) : Bool :=
  (48 ≤ ch && ch ≤ 57) || (97 ≤ ch && ch ≤ 102) || (65 ≤ ch && ch ≤ 70)

def byteAt (path : List UInt8) (i : Nat) : UInt8 := path.getD i 0

/-- `len` is the length of what is left of the path. -/
def opaeBitstreamPathInvalidChars : List UInt8 → Nat → Bool
  | [], _ => false
  | ch :: rest, len =>
    if !isprint ch then true
    -- URL encoding
    else if ch == 37 && 3 ≤ len && (isxdigit (byteAt rest 0) && isxdigit (byteAt rest 1)) then true
    else opaeBitstreamPathInvalidChars rest (len - 1)

def opaeBitstreamPathNotFile (t : FileTree) (path : List UInt8) : Bool :=
  match t.stat path with
  | none => true
  | some node => node != .file

def dotdotAtStart (path : List UInt8) (len : Nat) : Bool :=
  if 3 ≤ len then byteAt path 0 == dot && byteAt path 1 == dot && byteAt path 2 == slash
  else if len = 2 then byteAt path 0 == dot && byteAt path 1 == dot
  else false

def dotdotBehind : List UInt8 → Nat → Bool
  | [], _ => false
  | ch :: rest, len =>
    (if 4 ≤ len then
      ch == slash && byteAt rest 0 == dot && byteAt rest 1 == dot && byteAt rest 2 == slash
    else if len = 3 then ch == slash && byteAt rest 0 == dot && byteAt rest 1 == dot
    else false) || dotdotBehind rest (len - 1)

def opaeBitstreamPathContainsDotdot (path : List UInt8) (len : Nat) : Bool :=
  dotdotAtStart path len || dotdotBehind path len

section Dotdot

/-- `..` with a slash behind it, or nothing. -/
def startsDotdot : List UInt8 → Bool
  | [a, b] => a == dot && b == dot
  | a :: b :: c :: _ => a == dot && b == dot && c == slash
  | _ => false

theorem dotdotAtStart_eq (path : List UInt8) :
    dotdotAtStart path path.length = startsDotdot path := by
  match path with
  | [] => rfl
  | [_] => rfl
  | [_, _] => rfl
  | a :: b :: c :: rest =>
    rw [dotdotAtStart, if_pos (by rw [List.length_cons, List.length_cons, List.length_cons]; omega)]
    rfl

theorem dotdotBehind_cons (ch : UInt8) (rest : List UInt8) :
    dotdotBehind (ch :: rest) (ch :: rest).length =
      (ch == slash && startsDotdot rest || dotdotBehind rest rest.length) := by
  rw [dotdotBehind, List.length_cons, Nat.add_sub_cancel]
  congr 1
  match rest with
  | [] => exact (Bool.and_false _).symm
  | [_] => exact (Bool.and_false _).symm
  | [_, _] => exact Bool.and_assoc ..
  | a :: b :: c :: rest =>
    rw [if_pos (by rw [List.length_cons, List.length_cons, List.length_cons]; omega)]
    simp only [startsDotdot, Bool.and_assoc]
    rfl

theorem splitOn_eq_cons (path : List UInt8) :
    ∃ names, path.splitOn slash = path.takeWhile (· != slash) :: names := by
  induction path with
  | nil => exact ⟨[], rfl⟩
  | cons ch rest ih =>
    obtain ⟨names, hnames⟩ := ih
    rw [List.splitOn_cons_eq_if_modifyHead, List.takeWhile_cons]
    by_cases hch : ch = slash
    · exact ⟨rest.splitOn slash, by simp [hch]⟩
    · exact ⟨names, by simp [hch, hnames]⟩

theorem startsDotdot_iff {path : List UInt8} :
    startsDotdot path = true ↔ path.takeWhile (· != slash) = [dot, dot] := by
  have hne : slash ≠ dot := by decide
  match path with
  | [] => decide
  | [a] =>
    by_cases ha : a = slash <;> simp [startsDotdot, ha]
  | [a, b] =>
    by_cases ha : a = slash <;> by_cases hb : b = slash <;>
      simp [startsDotdot, ha, hb, hne]
  | a :: b :: c :: rest =>
    by_cases ha : a = slash <;> by_cases hb : b = slash <;> by_cases hc : c = slash <;>
      simp [startsDotdot, ha, hb, hc, hne]

theorem dotdotBehind_iff {path : List UInt8} {name : List UInt8} {names : List (List UInt8)}
    (h : path.splitOn slash = name :: names) :
    dotdotBehind path path.length = true ↔ [dot, dot] ∈ names := by
  induction path generalizing name names with
  | nil =>
    obtain ⟨-, rfl⟩ := List.cons.inj h
    exact ⟨nofun, nofun⟩
  | cons ch rest ih =>
    obtain ⟨names', hnames'⟩ := splitOn_eq_cons rest
    have hrest := ih hnames'
    rw [List.splitOn_cons_eq_if_modifyHead, hnames'] at h
    rw [dotdotBehind_cons, Bool.or_eq_true, hrest, Bool.and_eq_true, beq_iff_eq, startsDotdot_iff]
    by_cases hch : ch = slash
    · rw [hch, if_pos (beq_self_eq_true slash)] at h
      obtain ⟨-, rfl⟩ := List.cons.inj h
      rw [List.mem_cons, eq_comm (a := [dot, dot])]
      simp only [hch, true_and]
    · rw [if_neg (by simpa using hch), List.modifyHead_cons] at h
      obtain ⟨-, rfl⟩ := List.cons.inj h
      simp only [hch, false_and, false_or]

/-- The searches for `..` agree with the names between the slashes. -/
theorem opaeBitstreamPathContainsDotdot_iff (path : CString) :
    opaeBitstreamPathContainsDotdot path.val path.val.length = true ↔
      [dot, dot] ∈ path.val.splitOn slash := by
  obtain ⟨names, hnames⟩ := splitOn_eq_cons path.val
  rw [opaeBitstreamPathContainsDotdot, Bool.or_eq_true, dotdotAtStart_eq, startsDotdot_iff,
    dotdotBehind_iff hnames, hnames, List.mem_cons, eq_comm (a := [dot, dot])]

example : opaeBitstreamPathContainsDotdot (ascii "my/../abc.gbs") 13 = true := by decide

example : opaeBitstreamPathContainsDotdot (ascii "my..gbs") 7 = false := by decide

end Dotdot

end OpaeLibs.Libbitstream.PathChecks
