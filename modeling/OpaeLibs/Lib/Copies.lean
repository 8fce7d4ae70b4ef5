import OpaeLibs.Lib.CStrings

namespace OpaeLibs.Lib.Copies

open OpaeLibs.Lib.CStrings

/-- A copy of bytes, from a source of which so many can be read, into a field of a size. -/
structure Copy where
  count : Nat
  readable : Nat
  size : Nat
deriving DecidableEq

def Copy.Inside (c : Copy) : Prop := c.count ≤ c.readable ∧ c.count ≤ c.size

/-- Where a pointer points to, and how many of the bytes there belong to it. -/
structure Source where
  readable : Nat
  bytes : Memory

/-- A text with its terminator; what is behind them does not belong to it. -/
def Source.ofText (s : List UInt8) (beyond : Memory) : Source where
  readable := s.length + 1
  bytes := fun i => (s ++ [0])[i]?.getD (beyond i)

variable {n : Nat}

/-- What falls beyond the field is not seen in it. -/
def memcpy (dst : Vector UInt8 n) (src : Source) (count : Nat) : Vector UInt8 n :=
  Vector.ofFn fun i => if i.val < count then src.bytes i else dst[i]

/-- The field holds the text with its terminator. -/
def Terminated (field : Vector UInt8 n) (s : List UInt8) : Prop :=
  0 ∉ s ∧ ∀ i ≤ s.length, field[i]? = (s ++ [0])[i]?

theorem getElem?_memcpy {dst : Vector UInt8 n} {src : Source} {count i : Nat} (hi : i < n) :
    (memcpy dst src count)[i]? = if i < count then some (src.bytes i) else dst[i]? := by
  rw [Vector.getElem?_eq_getElem hi, Vector.getElem?_eq_getElem hi, memcpy, Vector.getElem_ofFn]
  split <;> rfl

theorem ofText_bytes {s : List UInt8} {i : Nat} (beyond : Memory) (hi : i ≤ s.length) :
    some ((Source.ofText s beyond).bytes i) = (s ++ [0])[i]? := by
  have hlt : i < (s ++ [0]).length := by
    rw [List.length_append]
    exact Nat.lt_succ_of_le hi
  rw [Source.ofText]
  dsimp only
  rw [List.getElem?_eq_getElem hlt, Option.getD_some]

theorem getElem?_terminator (s : List UInt8) : (s ++ [(0 : UInt8)])[s.length]? = some 0 := by
  rw [List.getElem?_append_right (Nat.le_refl _), Nat.sub_self]
  rfl

theorem Terminated.length_lt {field : Vector UInt8 n} {s : List UInt8} (h : Terminated field s) :
    s.length < n := by
  have hend := h.2 s.length (Nat.le_refl _)
  rw [getElem?_terminator] at hend
  exact (Vector.getElem?_eq_some_iff.mp hend).1

theorem terminated_set_memcpy {dst : Vector UInt8 (n + 1)} {s : List UInt8} {beyond : Memory} :
    Terminated ((memcpy dst (.ofText s beyond) n).set n 0) s ↔ 0 ∉ s ∧ s.length ≤ n := by
  refine ⟨fun h => ⟨h.1, Nat.le_of_lt_succ h.length_lt⟩, fun h => ⟨h.1, fun i hi => ?_⟩⟩
  have hin : i ≤ n := Nat.le_trans hi h.2
  rw [Vector.getElem?_set]
  split
  · next heq =>
    have hend : i = s.length := Nat.le_antisymm hi (heq ▸ h.2)
    rw [hend, getElem?_terminator]
  · next hne =>
    have hlt : i < n := Nat.lt_of_le_of_ne hin (Ne.symm hne)
    rw [getElem?_memcpy (Nat.lt_succ_of_le hin), if_pos hlt, ofText_bytes beyond hi]

theorem terminated_memcpy {dst : Vector UInt8 n} {s : List UInt8} {beyond : Memory} :
    Terminated (memcpy dst (.ofText s beyond) s.length) s ↔ 0 ∉ s ∧ dst[s.length]? = some 0 := by
  refine and_congr_right fun _ => ⟨fun h => ?_, fun h i hi => ?_⟩
  · have hend := h s.length (Nat.le_refl _)
    rw [getElem?_terminator] at hend
    have hlt := (Vector.getElem?_eq_some_iff.mp hend).1
    rw [getElem?_memcpy hlt, if_neg (Nat.lt_irrefl _)] at hend
    exact hend
  · have hlt := (Vector.getElem?_eq_some_iff.mp h).1
    rw [getElem?_memcpy (Nat.lt_of_le_of_lt hi hlt)]
    split
    · exact ofText_bytes beyond hi
    · next hge =>
      rw [Nat.le_antisymm hi (Nat.not_lt.mp hge), h, getElem?_terminator]

end OpaeLibs.Lib.Copies
