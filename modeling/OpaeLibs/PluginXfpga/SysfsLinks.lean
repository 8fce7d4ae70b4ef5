import OpaeLibs.PluginXfpga.Sysfs

namespace OpaeLibs.PluginXfpga.SysfsLinks

open OpaeLibs.OpaeC.Props OpaeLibs.PluginXfpga.Properties OpaeLibs.PluginXfpga.Enumerate
  OpaeLibs.PluginXfpga.Sysfs

section Digits

theorem digitValue_digitChar {n : Nat} (hn : n < 16) : digitValue n.digitChar = some n :=
  (by decide : ∀ n < 16, digitValue (Nat.digitChar n) = some n) n hn

theorem isHex_digitChar {n : Nat} (hn : n < 16) : isHex n.digitChar = true := by
  rw [isHex, digitValue_digitChar hn]
  rfl

theorem isDigit_digitChar {n : Nat} (hn : n < 10) : n.digitChar.isDigit = true :=
  (by decide : ∀ n < 10, (Nat.digitChar n).isDigit = true) n hn

theorem digitsFrom_hex {w n : Nat} (hn : n < 16 ^ w) (m : Nat) (s : Name) :
    digitsFrom 16 m (hex w n ++ s) = digitsFrom 16 (m * 16 ^ w + n) s := by
  induction w generalizing m n s with
  | zero =>
    obtain rfl : n = 0 := by omega
    simp [hex]
  | succ w ih =>
    have hdiv : n / 16 < 16 ^ w := by
      rw [Nat.pow_succ] at hn
      omega
    have hmod : n % 16 < 16 := Nat.mod_lt n (by decide)
    rw [hex, List.append_assoc, ih hdiv, List.singleton_append, digitsFrom,
      digitValue_digitChar hmod]
    dsimp only
    rw [if_pos hmod]
    congr 1
    rw [Nat.pow_succ]
    have := Nat.div_add_mod n 16
    rw [Nat.add_mul, Nat.mul_assoc]
    omega

theorem strtoul_hex {w n : Nat} (hn : n < 16 ^ w) (hw : w ≤ 16) : strtoul 16 (hex w n) = n := by
  have h := digitsFrom_hex hn 0 []
  rw [List.append_nil, Nat.zero_mul, Nat.zero_add] at h
  have hle : 16 ^ w ≤ 2 ^ 64 := by
    calc 16 ^ w ≤ 16 ^ 16 := Nat.pow_le_pow_right (by decide) hw
      _ = 2 ^ 64 := by decide
  rw [strtoul, h, digitsFrom]
  omega

theorem strtoul_digit {base n : Nat} (hn : n < 10) (hb : 10 ≤ base) :
    strtoul base [n.digitChar] = n := by
  rw [strtoul, digitsFrom, digitValue_digitChar (by omega)]
  dsimp only
  rw [if_pos (by omega), digitsFrom]
  omega

end Digits

section Links

variable (a : PciAddress)

theorem hex_four (n : Nat) : hex 4 n = [(n / 16 / 16 / 16 % 16).digitChar,
    (n / 16 / 16 % 16).digitChar, (n / 16 % 16).digitChar, (n % 16).digitChar] := rfl

theorem hex_two (n : Nat) : hex 2 n = [(n / 16 % 16).digitChar, (n % 16).digitChar] := rfl

theorem pcieMatch_name : pcieMatch a.name =
    some (a.segment.toNat, a.bus.toNat, a.device.toNat, a.function.val) := by
  have hfun : a.function.val < 10 := by omega
  have hhex (n : Nat) : isHex (n % 16).digitChar = true :=
    isHex_digitChar (Nat.mod_lt n (by decide))
  simp only [PciAddress.name, hex_four, hex_two, List.cons_append, List.nil_append, pcieMatch,
    List.all_cons, List.all_nil, hhex, isDigit_digitChar hfun, Bool.and_self, if_true]
  rw [← hex_four, ← hex_two, ← hex_two, strtoul_hex a.segment.toNat_lt (by decide),
    strtoul_hex a.bus.toNat_lt (by decide), strtoul_hex a.device.toNat_lt (by decide),
    strtoul_digit hfun (by decide)]

theorem length_name : a.name.length = 12 := rfl

theorem not_startsWithFpga_name : startsWithFpga a.name = false := by
  have hne : ∀ n < 16, (Nat.digitChar n).toLower ≠ 'p' := by decide
  have h := hne (a.segment.toNat / 16 / 16 % 16) (Nat.mod_lt _ (by decide))
  simp [startsWithFpga, PciAddress.name, hex_four, h]

theorem parsePcieInfo_cons {c c' : Name} (h : startsWithFpga c' = false) (rest : Path) :
    parsePcieInfo (c :: c' :: rest) = parsePcieInfo (c' :: rest) := by
  rw [parsePcieInfo, h]
  rfl

theorem parsePcieInfo_append {front : Path} {c : Name}
    (hfront : ∀ c ∈ front.tail, startsWithFpga c = false) (hc : startsWithFpga c = false)
    (rest : Path) :
    parsePcieInfo (front ++ c :: rest) = parsePcieInfo (c :: rest) := by
  induction front with
  | nil => rfl
  | cons b front ih =>
    have htail : ∀ c ∈ front.tail, startsWithFpga c = false := fun c hm =>
      hfront c (List.mem_of_mem_tail hm)
    rw [List.cons_append]
    cases front with
    | nil => rw [List.nil_append, parsePcieInfo_cons hc]
    | cons b' front =>
      rw [List.cons_append, parsePcieInfo_cons (hfront b' List.mem_cons_self)]
      exact ih htail

theorem startsWithFpga_pcidrvFpga (drv : Driver) :
    startsWithFpga drv.formats.pcidrvFpga = true := by
  cases drv <;> decide

variable (drv : Driver) (e : Entry)

theorem parsePcieInfo_link : parsePcieInfo (e.link drv) = some
    (e.address.segment.toNat, e.address.bus.toNat, e.address.device.toNat,
      e.address.function.val) := by
  rw [Entry.link, parsePcieInfo_append _ (not_startsWithFpga_name _), parsePcieInfo,
    startsWithFpga_pcidrvFpga, if_pos rfl, length_name, Nat.sub_self, List.drop_zero,
    pcieMatch_name]
  intro c hc
  rw [List.cons_append, List.tail_cons] at hc
  rcases List.mem_append.mp hc with hc | hc
  · have hpci (n m : Name) : startsWithFpga ("pci".toList ++ n ++ m) = false := by
      simp [startsWithFpga]
    simp only [List.mem_cons, List.not_mem_nil, or_false] at hc
    rcases hc with rfl | rfl | rfl
    · decide
    · decide
    · exact hpci _ _
  · obtain ⟨b, -, rfl⟩ := List.mem_map.mp hc
    exact not_startsWithFpga_name b

theorem sysfsSbdfFromPath_link : sysfsSbdfFromPath (e.link drv) = .ok
    (e.address.segment.toNat, e.address.bus.toNat, e.address.device.toNat,
      e.address.function.val) := by
  have hlen : ¬(e.link drv).length < 4 := by
    simp [Entry.link]
  have hthird : (e.link drv).reverse[2]? = some e.address.name := by
    simp [Entry.link]
  have hfun : e.address.function.val < 10 := by omega
  rw [sysfsSbdfFromPath, if_neg hlen, hthird]
  have hs : e.address.name.take 4 = hex 4 e.address.segment.toNat := rfl
  have hb : (e.address.name.take 7).drop 5 = hex 2 e.address.bus.toNat := rfl
  have hd : (e.address.name.take 10).drop 8 = hex 2 e.address.device.toNat := rfl
  have hf : e.address.name.drop 11 = [e.address.function.val.digitChar] := rfl
  dsimp only [Option.getD_some]
  rw [hs, hb, hd, hf, strtoul_hex e.address.segment.toNat_lt (by decide),
    strtoul_hex e.address.bus.toNat_lt (by decide),
    strtoul_hex e.address.device.toNat_lt (by decide), strtoul_digit hfun (by decide)]

end Links

section Regions

theorem isDigit_of_mem_digits {n : Nat} {c : Char} (h : c ∈ digits n) : c.isDigit = true :=
  Nat.isDigit_of_mem_toDigits (by decide) (by decide) h

theorem number_digits (n : Nat) : (number (digits n)).isSome = true := by
  rw [number, if_pos (List.all_eq_true.mpr fun c hc => isDigit_of_mem_digits hc)]
  rfl

theorem notMem_digits (n : Nat) {c : Char} (hc : c.isDigit = false) : c ∉ digits n :=
  fun h => Bool.false_ne_true (hc.symm.trans (isDigit_of_mem_digits h))

theorem not_isInfix_of_notMem {s c : Name} {x : Char} (hs : x ∈ s) (hc : x ∉ c) : ¬s <:+: c :=
  fun h => hc (h.subset hs)

variable (drv : Driver) (e : Entry) (n : Nat)

def regionPath (start : Name) : Path := e.path drv ++ [start ++ digits n]

theorem dirname_regionPath (start : Name) : dirname (regionPath drv e n start) = e.path drv :=
  List.dropLast_concat

theorem strstr_regionPath {start s : Name} (h : s <:+: start) :
    strstr (regionPath drv e n start) s = true := by
  rw [strstr, regionPath, List.any_append, List.any_cons,
    decide_eq_true (h.trans (List.prefix_append start (digits n)).isInfix), Bool.true_or,
    Bool.or_true]

theorem not_strstr_regionPath {start s : Name} {x : Char} (hs : x ∈ s) (hx : x.isDigit = false)
    (hclass : drv.formats.classPath.all fun c => !decide (x ∈ c))
    (hdevice : x ∉ drv.formats.device) (hstart : x ∉ start) :
    strstr (regionPath drv e n start) s = false := by
  have hfalse {c : Name} (hc : x ∉ c) : decide (s <:+: c) = false :=
    decide_eq_false (not_isInfix_of_notMem hs hc)
  have hname {a : Name} (k : Nat) (ha : x ∉ a) : x ∉ a ++ digits k := fun h =>
    (List.mem_append.mp h).elim ha (notMem_digits k hx)
  refine List.any_eq_false.mpr fun c hc => ?_
  rw [regionPath, Entry.path, Entry.name, List.mem_append, List.mem_append, List.mem_singleton,
    List.mem_singleton] at hc
  rw [hfalse]
  · exact Bool.false_ne_true
  rcases hc with (hc | rfl) | rfl
  · have h := List.all_eq_true.mp hclass c hc
    rw [Bool.not_eq_true', decide_eq_false_iff_not] at h
    exact h
  · exact hname _ hdevice
  · exact hname _ hstart

theorem strstr_port : strstr (regionPath drv e n drv.formats.port) "port".toList = true ∧
    strstr (regionPath drv e n drv.formats.port) "fme".toList = false := by
  cases drv
  · exact ⟨strstr_regionPath _ e n (by decide), not_strstr_regionPath (x := 'm') _ e n (by decide)
      (by decide) (by decide) (by decide) (by decide)⟩
  · exact ⟨strstr_regionPath _ e n (by decide), not_strstr_regionPath (x := 'm') _ e n (by decide)
      (by decide) (by decide) (by decide) (by decide)⟩

theorem strstr_fme : strstr (regionPath drv e n drv.formats.fme) "fme".toList = true ∧
    strstr (regionPath drv e n drv.formats.fme) "port".toList = false := by
  cases drv
  · exact ⟨strstr_regionPath _ e n (by decide), not_strstr_regionPath (x := 't') _ e n (by decide)
      (by decide) (by decide) (by decide) (by decide)⟩
  · exact ⟨strstr_regionPath _ e n (by decide), not_strstr_regionPath (x := 'o') _ e n (by decide)
      (by decide) (by decide) (by decide) (by decide)⟩

theorem subdevInstance_regionPath {start front : Name} (hstart : start = front ++ ['.']) :
    (subdevInstance (regionPath drv e n start)).isSome = true := by
  have hlast : (regionPath drv e n start).getLast? = some (start ++ digits n) :=
    List.getLast?_concat
  have hdot : (start ++ digits n).contains '.' = true := by
    rw [hstart]
    simp
  have htake : (start ++ digits n).reverse.takeWhile (· ≠ '.') = (digits n).reverse := by
    rw [hstart, List.reverse_append, List.reverse_append, List.takeWhile_append_of_pos]
    · simp
    · intro c hc
      have hne : c ≠ '.' := fun h => notMem_digits n (by decide) (h ▸ List.mem_reverse.mp hc)
      simpa using hne
  rw [subdevInstance, hlast, Option.bind_some, hdot, if_pos rfl, htake, List.reverse_reverse]
  exact number_digits n

theorem deviceInstance_regionPath (start : Name) :
    (deviceInstance (regionPath drv e n start)).isSome = true := by
  cases drv with
  | dfl =>
    have hafter : afterFpgaRegion (regionPath .dfl e n start) = some (e.name .dfl) := by
      simp [afterFpgaRegion, regionPath, Entry.path, Driver.formats]
    rw [deviceInstance, hafter]
    exact number_digits e.number
  | intel =>
    have hafter : afterFpgaRegion (regionPath .intel e n start) = none := by
      simp [afterFpgaRegion, regionPath, Entry.path, Entry.name, Driver.formats]
    rw [deviceInstance, hafter]
    have hfind : (regionPath .intel e n start).dropLast.find? (·.contains '.') =
        some (e.name .intel) := by
      rw [regionPath, List.dropLast_concat]
      simp [Entry.path, Entry.name, Driver.formats]
    dsimp only
    rw [hfind]
    exact number_digits e.number

theorem instances_regionPath {start front : Name} (hstart : start = front ++ ['.']) :
    (instances (regionPath drv e n start)).isSome = true := by
  obtain ⟨i, hi⟩ := Option.isSome_iff_exists.mp (deviceInstance_regionPath drv e n start)
  obtain ⟨j, hj⟩ := Option.isSome_iff_exists.mp (subdevInstance_regionPath drv e n hstart)
  rw [instances, hi, hj]
  rfl

end Regions

end OpaeLibs.PluginXfpga.SysfsLinks
