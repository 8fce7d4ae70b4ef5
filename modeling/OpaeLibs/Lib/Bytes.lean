import Mathlib

namespace OpaeLibs.Lib.Bytes

/-- The number that bytes stand for, the low byte first. -/
def ofLe : List UInt8 → Nat
  | [] => 0
  | b :: bs => b.toNat + 256 * ofLe bs

/-- `v` as `n` bytes, the low byte first. -/
def toLe : Nat → Nat → List UInt8
  | 0, _ => []
  | n + 1, v => UInt8.ofNat v :: toLe n (v / 256)

@[simp] theorem toLe_length (n v : Nat) : (toLe n v).length = n := by
  induction n generalizing v with
  | zero => rfl
  | succ n ih => rw [toLe, List.length_cons, ih]

theorem ofLe_lt (bs : List UInt8) : ofLe bs < 256 ^ bs.length := by
  induction bs with
  | nil => exact Nat.one_pos
  | cons b bs ih =>
    have hb := b.toNat_lt
    rw [ofLe, List.length_cons, Nat.pow_succ]
    omega

theorem ofLe_toLe (n v : Nat) : ofLe (toLe n v) = v % 256 ^ n := by
  induction n generalizing v with
  | zero => rw [toLe, ofLe, Nat.pow_zero, Nat.mod_one]
  | succ n ih =>
    have hsplit : v % 256 ^ (n + 1) = v % 256 + 256 * (v / 256 % 256 ^ n) := by
      rw [Nat.pow_succ', Nat.mod_mul]
    rw [toLe, ofLe, ih, UInt8.toNat_ofNat', hsplit]

theorem toLe_ofLe (bs : List UInt8) : toLe bs.length (ofLe bs) = bs := by
  induction bs with
  | nil => rfl
  | cons b bs ih =>
    have hb := b.toNat_lt
    have hlow : UInt8.ofNat (b.toNat + 256 * ofLe bs) = b := by
      apply UInt8.toNat_inj.mp
      rw [UInt8.toNat_ofNat']
      omega
    have hhigh : (b.toNat + 256 * ofLe bs) / 256 = ofLe bs := by omega
    rw [List.length_cons, ofLe, toLe, hlow, hhigh, ih]

theorem map_range'_getD {bs : List UInt8} (front part rest : List UInt8)
    (h : bs = front ++ (part ++ rest)) :
    (List.range' front.length part.length).map (fun i => bs[i]?.getD 0) = part := by
  apply List.ext_getElem
  · rw [List.length_map, List.length_range']
  · intro i _ hi
    rw [List.getElem_map, List.getElem_range', Nat.one_mul, h,
      List.getElem?_append_right (Nat.le_add_right _ _), Nat.add_sub_cancel_left,
      List.getElem?_append_left hi, List.getElem?_eq_getElem hi, Option.getD_some]

/-- The addresses of `n` bytes from `a` on. -/
def cells (a : UInt64) (n : Nat) : List UInt64 :=
  (List.range n).map fun k => a + UInt64.ofNat k

@[simp] theorem cells_length (a : UInt64) (n : Nat) : (cells a n).length = n := by
  rw [cells, List.length_map, List.length_range]

theorem mem_cells {a x : UInt64} {n : Nat} :
    x ∈ cells a n ↔ ∃ k < n, a + UInt64.ofNat k = x := by
  simp only [cells, List.mem_map, List.mem_range]

theorem head?_cells (a : UInt64) {n : Nat} (hn : 0 < n) : (cells a n).head? = some a := by
  obtain ⟨n, rfl⟩ := Nat.exists_eq_add_one_of_ne_zero (Nat.ne_of_gt hn)
  rw [cells, List.range_succ_eq_map, List.map_cons, List.head?_cons]
  exact congrArg some (UInt64.add_zero a)

theorem cells_inj {a a' : UInt64} {n : Nat} (hn : 0 < n) : cells a n = cells a' n ↔ a = a' := by
  constructor
  · intro h
    have hhead := congrArg List.head? h
    rwa [head?_cells a hn, head?_cells a' hn, Option.some.injEq] at hhead
  · rintro rfl
    rfl

section

variable (mem : UInt64 → UInt8)

def load (a : UInt64) (n : Nat) : List UInt8 := (cells a n).map mem

def store (a : UInt64) (bs : List UInt8) (x : UInt64) : UInt8 :=
  (bs[(x - a).toNat]?).getD (mem x)

theorem store_of_notMem {a x : UInt64} {bs : List UInt8} (h : x ∉ cells a bs.length) :
    store mem a bs x = mem x := by
  have hlen : bs.length ≤ (x - a).toNat := by
    rw [← Nat.not_lt]
    intro hlt
    apply h
    rw [mem_cells]
    refine ⟨(x - a).toNat, hlt, ?_⟩
    rw [UInt64.ofNat_toNat, UInt64.add_comm, UInt64.sub_add_cancel]
  rw [store, List.getElem?_eq_none hlen, Option.getD_none]

end

end OpaeLibs.Lib.Bytes
