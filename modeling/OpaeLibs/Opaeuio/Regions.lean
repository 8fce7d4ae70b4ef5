import Mathlib

namespace OpaeLibs.Opaeuio.Regions

abbrev Name := List Char

def isSpace (c : Char) : Bool := c = ' ' || (9 ≤ c.toNat && c.toNat ≤ 13)

/-- `strtoul` to the base 10: the number, and the text behind it. -/
def strtoul (text : Name) : Nat × Name :=
  let body := text.dropWhile isSpace
  let negative := body.head? = some '-'
  let digits := if body.head? = some '-' ∨ body.head? = some '+' then body.drop 1 else body
  let run := digits.takeWhile Char.isDigit
  if run = [] then (0, text)
  else
    let n := Nat.ofDigitChars 10 run 0
    (if 2 ^ 64 ≤ n then 2 ^ 64 - 1 else if negative then (2 ^ 64 - n) % 2 ^ 64 else n,
      digits.drop run.length)

structure OpaeUioDeviceRegion where
  regionIndex : UInt32
  regionPtr : Nat
  regionPageOffset : UInt64
  regionSize : UInt64

/-- A mapping of a part of the device, from an offset on. -/
structure Mapping where
  addr : Nat
  length : UInt64
  offset : UInt64

/-- What the directory `maps` of a device and the system tell of each entry, by its path: the values
of its files, the address that `mmap` gives for a length and an offset, and whether there is memory
for a region. -/
structure UioMaps where
  pageSize : UInt32
  dir : Name
  indices : List UInt32
  size : Name → Option UInt64
  offset : Name → Option { o : UInt64 // o.toNat < pageSize.toNat }
  mmap : Name → UInt64 → UInt64 → Option Nat
  malloc : Name → Bool

def strrchr (path : Name) : Option Name :=
  if '/' ∈ path then some (path.reverse.takeWhile (· ≠ '/')).reverse else none

section Code

variable (maps : UioMaps)

/-- The region, with the mapping that is made for it. -/
def opaeUioEnumRegion (sysfsPath : Name) : Option (OpaeUioDeviceRegion × Mapping) :=
  match strrchr sysfsPath with
  | none => none
  | some name =>
    let (n, rest) := strtoul (name.drop 3)
    if rest ≠ [] then none
    else
      let index := UInt32.ofNat n
      match maps.size sysfsPath, maps.offset sysfsPath with
      | some size, some pageOffset =>
        -- the product is one of 32-bit numbers
        let offset := (index * maps.pageSize).toUInt64
        match maps.mmap sysfsPath size offset with
        | none => none
        | some ptr =>
          if maps.malloc sysfsPath then
            some (⟨index, ptr, pageOffset.val, size⟩, ⟨ptr, size, offset⟩)
          else none
      | _, _ => none

def opaeUioPathMax : Nat := 256

/-- The directory as it is read. -/
def opaeUioEnumRegions (path : Name) (dirents : List Name) : List OpaeUioDeviceRegion :=
  (dirents.filter fun d => d ≠ ['.'] && d ≠ ['.', '.']).filterMap fun d =>
    (opaeUioEnumRegion maps ((path ++ '/' :: d).take (opaeUioPathMax - 1))).map Prod.fst

/-- The pointer and the size, or an error. -/
def opaeUioRegionGet (regions : List OpaeUioDeviceRegion) (index : UInt32) :
    Option (Nat × UInt64) :=
  (regions.find? fun r => index = r.regionIndex).map fun r =>
    (r.regionPtr + r.regionPageOffset.toNat, r.regionSize)

end Code

def mapName (n : UInt32) : Name := 'm' :: 'a' :: 'p' :: Nat.toDigits 10 n.toNat

def UioMaps.path (maps : UioMaps) (n : UInt32) : Name := maps.dir ++ '/' :: mapName n

section Names

theorem digit_bounds {c : Char} (h : c.isDigit = true) : 48 ≤ c.toNat ∧ c.toNat ≤ 57 := by
  rw [Char.isDigit, Bool.and_eq_true, decide_eq_true_eq, decide_eq_true_eq] at h
  exact h

theorem digit_plain {c : Char} (h : c.isDigit = true) :
    isSpace c = false ∧ c ≠ '-' ∧ c ≠ '+' ∧ c ≠ '/' := by
  obtain ⟨hlow, -⟩ := digit_bounds h
  refine ⟨?_, ?_, ?_, ?_⟩
  · rw [isSpace, Bool.or_eq_false_iff, Bool.and_eq_false_iff, decide_eq_false_iff_not,
      decide_eq_false_iff_not, decide_eq_false_iff_not]
    refine ⟨?_, .inr (by omega)⟩
    rintro rfl
    exact absurd hlow (by decide)
  all_goals
    rintro rfl
    exact absurd hlow (by decide)

theorem strtoul_toDigits {n : Nat} (hn : n < 2 ^ 64) : strtoul (Nat.toDigits 10 n) = (n, []) := by
  have hall : ∀ c ∈ Nat.toDigits 10 n, c.isDigit = true := fun c hc =>
    Nat.isDigit_of_mem_toDigits (by decide) (by decide) hc
  obtain ⟨c, cs, heq⟩ := List.exists_cons_of_ne_nil (Nat.toDigits_ne_nil (n := n) (b := 10))
  obtain ⟨hspace, hminus, hplus, -⟩ := digit_plain (hall c (heq ▸ List.mem_cons_self))
  have hbody : (Nat.toDigits 10 n).dropWhile isSpace = Nat.toDigits 10 n := by
    rw [heq, List.dropWhile_cons_of_neg (by rw [hspace]; decide)]
  have hhead : (Nat.toDigits 10 n).head? = some c := by rw [heq, List.head?_cons]
  have hsign : ¬((some c : Option Char) = some '-' ∨ (some c : Option Char) = some '+') := by
    rw [Option.some.injEq, Option.some.injEq, not_or]
    exact ⟨hminus, hplus⟩
  have hrun : (Nat.toDigits 10 n).takeWhile Char.isDigit = Nat.toDigits 10 n :=
    List.takeWhile_eq_self_iff.mpr hall
  simp only [strtoul, hbody, hhead, if_neg hsign, hrun, if_neg Nat.toDigits_ne_nil,
    Nat.ofDigitChars_ten_toDigits, List.drop_length]
  rw [if_neg (by omega), if_neg (by simpa using hminus)]

theorem strrchr_path (maps : UioMaps) (n : UInt32) : strrchr (maps.path n) = some (mapName n) := by
  have hname : ∀ c ∈ (mapName n).reverse, decide (c ≠ '/') = true := by
    intro c hc
    rw [decide_eq_true_eq]
    rw [List.mem_reverse, mapName] at hc
    simp only [List.mem_cons] at hc
    rcases hc with rfl | rfl | rfl | hc
    · decide
    · decide
    · decide
    · exact (digit_plain (Nat.isDigit_of_mem_toDigits (by decide) (by decide) hc)).2.2.2
  have hmem : '/' ∈ maps.path n := List.mem_append_right _ List.mem_cons_self
  rw [strrchr, if_pos hmem, UioMaps.path, List.reverse_append, List.reverse_cons,
    List.append_assoc, List.takeWhile_append_of_pos hname, List.singleton_append,
    List.takeWhile_cons_of_neg (by decide), List.append_nil, List.reverse_reverse]

end Names

/-- A map of which the files are read, that is mapped, and for which there is memory. -/
structure Created (maps : UioMaps) (n : UInt32) (size : UInt64) (pageOffset : UInt64) (ptr : Nat) :
    Prop where
  size_eq : maps.size (maps.path n) = some size
  offset_eq : (maps.offset (maps.path n)).map Subtype.val = some pageOffset
  mmap_eq : maps.mmap (maps.path n) size (n * maps.pageSize).toUInt64 = some ptr
  malloc_eq : maps.malloc (maps.path n) = true

section Regions

variable {maps : UioMaps} {n : UInt32}

theorem opaeUioEnumRegion_path : opaeUioEnumRegion maps (maps.path n) =
    match maps.size (maps.path n), maps.offset (maps.path n) with
    | some size, some pageOffset =>
      match maps.mmap (maps.path n) size (n * maps.pageSize).toUInt64 with
      | none => none
      | some ptr =>
        if maps.malloc (maps.path n) then
          some (⟨n, ptr, pageOffset.val, size⟩, ⟨ptr, size, (n * maps.pageSize).toUInt64⟩)
        else none
    | _, _ => none := by
  have hlt : n.toNat < 2 ^ 64 := n.toNat_lt.trans (by decide)
  rw [opaeUioEnumRegion, strrchr_path]
  dsimp only
  rw [mapName, List.drop_succ_cons, List.drop_succ_cons, List.drop_succ_cons, List.drop_zero,
    strtoul_toDigits hlt]
  dsimp only
  rw [if_neg (not_not.mpr rfl), UInt32.ofNat_toNat]

theorem opaeUioEnumRegion_eq_some_iff {r : OpaeUioDeviceRegion} {m : Mapping} :
    opaeUioEnumRegion maps (maps.path n) = some (r, m) ↔
      ∃ size pageOffset ptr, Created maps n size pageOffset ptr ∧
        r = ⟨n, ptr, pageOffset, size⟩ ∧ m = ⟨ptr, size, (n * maps.pageSize).toUInt64⟩ := by
  rw [opaeUioEnumRegion_path]
  constructor
  · intro h
    split at h
    · next size pageOffset hsize hoffset =>
      split at h
      · exact nomatch h
      · next ptr hmmap =>
        split at h
        · next hmalloc =>
          obtain ⟨rfl, rfl⟩ := Prod.mk.inj (Option.some.inj h)
          exact ⟨size, pageOffset.val, ptr, ⟨hsize, by rw [hoffset]; rfl, hmmap, hmalloc⟩, rfl, rfl⟩
        · exact nomatch h
    · exact nomatch h
  · rintro ⟨size, pageOffset, ptr, hcreated, rfl, rfl⟩
    obtain ⟨o, ho, rfl⟩ := Option.map_eq_some_iff.mp hcreated.offset_eq
    rw [hcreated.size_eq, ho]
    dsimp only
    rw [hcreated.mmap_eq]
    dsimp only
    rw [if_pos hcreated.malloc_eq]

def UioMaps.regions (maps : UioMaps) : List OpaeUioDeviceRegion :=
  maps.indices.filterMap fun n => (opaeUioEnumRegion maps (maps.path n)).map Prod.fst

def UioMaps.dirents (maps : UioMaps) : List Name :=
  ['.'] :: ['.', '.'] :: maps.indices.map mapName

theorem opaeUioEnumRegions_eq (hfits : ∀ n ∈ maps.indices, (maps.path n).length < opaeUioPathMax) :
    opaeUioEnumRegions maps maps.dir maps.dirents = maps.regions := by
  have hkeep : (['.'] :: ['.', '.'] :: maps.indices.map mapName).filter
      (fun d => d ≠ ['.'] && d ≠ ['.', '.']) = maps.indices.map mapName := by
    rw [List.filter_cons_of_neg (by decide), List.filter_cons_of_neg (by decide),
      List.filter_eq_self]
    intro d hd
    obtain ⟨n, -, rfl⟩ := List.mem_map.mp hd
    rfl
  rw [opaeUioEnumRegions, UioMaps.dirents, hkeep, List.filterMap_map, UioMaps.regions]
  refine List.filterMap_congr fun n hn => ?_
  have hcut : (maps.dir ++ '/' :: mapName n).take (opaeUioPathMax - 1) = maps.path n :=
    List.take_of_length_le (Nat.le_sub_one_of_lt (hfits n hn))
  rw [Function.comp_apply, hcut]

theorem opaeUioRegionGet_eq {r : OpaeUioDeviceRegion} {m : Mapping} (hn : n ∈ maps.indices)
    (h : opaeUioEnumRegion maps (maps.path n) = some (r, m)) :
    opaeUioRegionGet maps.regions n =
      some (r.regionPtr + r.regionPageOffset.toNat, r.regionSize) := by
  let indexed (k : UInt32) : Bool := ((opaeUioEnumRegion maps (maps.path k)).map Prod.fst).any
    fun r => decide (n = r.regionIndex)
  -- only the entry of the index has a region with the index
  have hindex : ∀ k, indexed k = true → n = k := by
    intro k hk
    change ((opaeUioEnumRegion maps (maps.path k)).map Prod.fst).any _ = true at hk
    cases hregion : opaeUioEnumRegion maps (maps.path k) with
    | none =>
      rw [hregion] at hk
      exact nomatch hk
    | some p =>
      obtain ⟨_, _, _, -, hr, -⟩ := opaeUioEnumRegion_eq_some_iff.mp hregion
      rw [hregion, Option.map_some, Option.any_some, decide_eq_true_eq, hr] at hk
      exact hk
  have hself : indexed n = true := by
    obtain ⟨_, _, _, -, rfl, -⟩ := opaeUioEnumRegion_eq_some_iff.mp h
    change ((opaeUioEnumRegion maps (maps.path n)).map Prod.fst).any _ = true
    rw [h, Option.map_some, Option.any_some, decide_eq_true_eq]
  obtain ⟨k, hfind⟩ := Option.isSome_iff_exists.mp
    ((List.find?_isSome (p := indexed)).mpr ⟨n, hn, hself⟩)
  obtain rfl := hindex k (List.find?_some (p := indexed) hfind)
  rw [opaeUioRegionGet, UioMaps.regions, List.find?_filterMap, hfind, Option.bind_some, h]
  rfl

end Regions

def wholePages (pageSize : UInt32) (length : UInt64) : Nat :=
  (length.toNat + pageSize.toNat - 1) / pageSize.toNat * pageSize.toNat

/-- The mapping begins at the page of the index, and what is reported for the index lies in it. -/
def Truthful (maps : UioMaps) (n : UInt32) (m : Mapping) : Prop :=
  m.offset.toNat = n.toNat * maps.pageSize.toNat ∧
    ∃ ptr size, opaeUioRegionGet maps.regions n = some (ptr, size) ∧
      ∀ a, ptr ≤ a → a < ptr + size.toNat →
        m.addr ≤ a ∧ a < m.addr + wholePages maps.pageSize m.length

theorem mul_toUInt64_eq_iff {n pageSize : UInt32} :
    (n * pageSize).toUInt64.toNat = n.toNat * pageSize.toNat ↔
      n.toNat * pageSize.toNat < 2 ^ 32 := by
  rw [UInt32.toNat_toUInt64, UInt32.toNat_mul]
  exact ⟨fun h => h ▸ Nat.mod_lt _ (by decide), Nat.mod_eq_of_lt⟩

theorem truthful_iff {maps : UioMaps} {n : UInt32} {size pageOffset : UInt64} {ptr : Nat}
    (hn : n ∈ maps.indices) (h : Created maps n size pageOffset ptr) :
    Truthful maps n ⟨ptr, size, (n * maps.pageSize).toUInt64⟩ ↔
      n.toNat * maps.pageSize.toNat < 2 ^ 32 ∧
        (size = 0 ∨ pageOffset.toNat + size.toNat ≤ wholePages maps.pageSize size) := by
  have hget := opaeUioRegionGet_eq hn
    (opaeUioEnumRegion_eq_some_iff.mpr ⟨size, pageOffset, ptr, h, rfl, rfl⟩)
  rw [Truthful, mul_toUInt64_eq_iff]
  refine and_congr_right fun _ => ⟨?_, fun hfits => ⟨_, _, hget, fun a hle hlt => ?_⟩⟩
  · rintro ⟨p, len, hp, hrange⟩
    rw [hget] at hp
    obtain ⟨rfl, rfl⟩ := Prod.mk.inj (Option.some.inj hp)
    refine or_iff_not_imp_left.mpr fun hsize => ?_
    have hpos : 0 < size.toNat := by
      rw [Nat.pos_iff_ne_zero]
      exact fun h0 => hsize (UInt64.toNat_inj.mp h0)
    dsimp only at hrange
    -- the last address of the region
    have hlast := hrange (ptr + pageOffset.toNat + size.toNat - 1) (by omega) (by omega)
    omega
  · dsimp only at hle hlt ⊢
    rcases hfits with rfl | hfits
    · exact absurd hlt (Nat.not_lt.mpr hle)
    · omega

/-- The regions are those of the directory where its paths fit. They are described truthfully just
if their offsets do not wrap and they end with their last pages. -/
theorem uio_regions_iff (maps : UioMaps) :
    ((∀ n ∈ maps.indices, (maps.path n).length < opaeUioPathMax) →
      opaeUioEnumRegions maps maps.dir maps.dirents = maps.regions) ∧
    ((∀ n ∈ maps.indices, ∀ r m, opaeUioEnumRegion maps (maps.path n) = some (r, m) →
      Truthful maps n m) ↔
    ∀ n ∈ maps.indices, ∀ size pageOffset ptr, Created maps n size pageOffset ptr →
      n.toNat * maps.pageSize.toNat < 2 ^ 32 ∧
        (size = 0 ∨ pageOffset.toNat + size.toNat ≤ wholePages maps.pageSize size)) := by
  refine ⟨opaeUioEnumRegions_eq,
    forall₂_congr fun n hn => ⟨fun h size pageOffset ptr hcreated => ?_, ?_⟩⟩
  · exact (truthful_iff hn hcreated).mp (h _ _
      (opaeUioEnumRegion_eq_some_iff.mpr ⟨size, pageOffset, ptr, hcreated, rfl, rfl⟩))
  · rintro h r m hregion
    obtain ⟨size, pageOffset, ptr, hcreated, -, rfl⟩ := opaeUioEnumRegion_eq_some_iff.mp hregion
    exact (truthful_iff hn hcreated).mpr (h size pageOffset ptr hcreated)

def shifted : UioMaps where
  pageSize := 4096
  dir := ['m', 'a', 'p', 's']
  indices := [0]
  size _ := some 4096
  offset _ := some ⟨16, by decide⟩
  mmap _ _ _ := some 0x10000
  malloc _ := true

theorem uio_regions_shifted :
    ¬∀ n ∈ shifted.indices, ∀ r m, opaeUioEnumRegion shifted (shifted.path n) = some (r, m) →
      Truthful shifted n m := by
  have hcreated : Created shifted 0 4096 16 0x10000 := ⟨rfl, rfl, rfl, rfl⟩
  intro h
  have htruthful := h 0 List.mem_cons_self _ _
    (opaeUioEnumRegion_eq_some_iff.mpr ⟨4096, 16, 0x10000, hcreated, rfl, rfl⟩)
  obtain ⟨-, hzero | hfits⟩ := (truthful_iff List.mem_cons_self hcreated).mp htruthful
  · exact nomatch hzero
  · exact absurd hfits (by decide)

end OpaeLibs.Opaeuio.Regions
