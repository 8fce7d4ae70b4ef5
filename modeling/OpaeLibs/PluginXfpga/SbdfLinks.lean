import OpaeLibs.Lib.CStrings
import OpaeLibs.Lib.HexTexts
import OpaeLibs.PluginXfpga.SysfsWords

namespace OpaeLibs.PluginXfpga.SbdfLinks

open OpaeLibs.Lib.CStrings OpaeLibs.Lib.HexTexts
open OpaeLibs.OpaeC.Props
open OpaeLibs.PluginXfpga.SysfsWords (sysfsPathMax)

/-- What the array for the link holds before. -/
abbrev Stack := { bytes : List UInt8 // bytes.length = sysfsPathMax }

section Code

def lastSlash (buffer : List UInt8) : Option Nat := strrchr 47 (buffer.takeWhile (· ≠ 0))

/-- A number as an `int`. `none` if it is read behind the buffer. -/
def field (buffer : List UInt8) (i : Nat) : Option Int :=
  (strtoul (buffer.drop i)).map fun n => (n.toNat : Int).bmod (2 ^ 32)

/-- The fields of `ssss:bb:dd.f` from the back; each is cut off before the next one. -/
def fields (buffer : List UInt8) (p : Nat) : Option (Int × Int × Int × Int) := do
  let f ← field buffer (p + 11)
  let buffer := buffer.set (p + 10) 0
  let d ← field buffer (p + 8)
  let buffer := buffer.set (p + 7) 0
  let b ← field buffer (p + 5)
  let buffer := buffer.set (p + 4) 0
  let s ← field buffer p
  return (s, b, d, f)

/-- The result, and what is stored. `link` is what `readlink` finds; it puts no terminator. -/
def sysfsSbdfFromPath (stack : Stack) (link : Option CString) :
    Option (FpgaResult × Option (Int × Int × Int × Int)) :=
  match link with
  | none => some (.noDriver, none)
  | some link =>
    let read := link.val.take (sysfsPathMax - 1)
    let rlpath := read ++ 0 :: stack.val.drop (read.length + 1)
    match lastSlash rlpath with
    | none => some (.noDriver, none)
    | some i =>
      let rlpath := rlpath.set i 0
      match lastSlash rlpath with
      | none => some (.noDriver, none)
      | some i =>
        let rlpath := rlpath.set i 0
        match lastSlash rlpath with
        | none => some (.noDriver, none)
        | some i => (fields rlpath (i + 1)).map fun r => (.ok, some r)

end Code

structure Sbdf where
  segment : UInt16
  bus : UInt8
  device : Fin 32
  function : Fin 8

/-- A number in a field of so many hexadecimal digits. -/
abbrev HexField (width n : Nat) :=
  { text : List UInt8 // text.length = width ∧ spelled 0 text = some n }

/-- A link to something in a directory of a device, in any case of the letters. -/
structure SbdfLink (a : Sbdf) where
  front : List UInt8
  segment : HexField 4 a.segment.toNat
  bus : HexField 2 a.bus.toNat
  device : HexField 2 a.device
  function : HexField 1 a.function
  component : List UInt8
  last : List UInt8
  clean : 0 ∉ front ∧ 0 ∉ component ∧ 0 ∉ last
  names : 47 ∉ component ∧ 47 ∉ last
  short : front.length + component.length + last.length + 15 < sysfsPathMax

namespace SbdfLink

variable {a : Sbdf} (l : SbdfLink a)

def address : List UInt8 :=
  l.segment.val ++ 58 :: (l.bus.val ++ 58 :: (l.device.val ++ 46 :: l.function.val))

def text : List UInt8 :=
  l.front ++ 47 :: (l.address ++ 47 :: (l.component ++ 47 :: l.last))

end SbdfLink

section Links

variable {a : Sbdf} {text rest buffer : List UInt8} {n : Nat}

theorem le_of_mem_spelled {m : Nat} (h : spelled m text = some n) {c : UInt8} (hc : c ∈ text) :
    48 ≤ c := by
  induction text generalizing m with
  | nil => exact nomatch hc
  | cons b text ih =>
    obtain ⟨d, hd, h⟩ := Option.bind_eq_some_iff.mp h
    rcases List.mem_cons.mp hc with rfl | hc
    · exact le_of_digitValue hd
    · exact ih h hc

theorem field_append (front buffer : List UInt8) (i : Nat) :
    field (front ++ buffer) (front.length + i) = field buffer i := by
  rw [field, field, List.drop_append, List.drop_of_length_le (Nat.le_add_right _ _),
    Nat.add_sub_cancel_left, List.nil_append]

theorem set_append (front buffer : List UInt8) (i : Nat) (b : UInt8) :
    (front ++ buffer).set (front.length + i) b = front ++ buffer.set i b := by
  rw [List.set_append_right _ _ (Nat.le_add_right _ _), Nat.add_sub_cancel_left]

theorem fields_append (front buffer : List UInt8) :
    fields (front ++ buffer) front.length = fields buffer 0 := by
  have hfirst (buffer : List UInt8) : field (front ++ buffer) front.length = field buffer 0 :=
    field_append front buffer 0
  simp only [fields, field_append, set_append, hfirst, Nat.zero_add]

theorem field_spelled (hne : text ≠ []) (h : spelled 0 text = some n) (hlen : text.length ≤ 4)
    (rest : List UInt8) : field (text ++ 0 :: rest) 0 = some (n : Int) := by
  have hn : n < 16 ^ 4 := by
    have hlt := spelled_lt h
    rw [Nat.zero_add, Nat.one_mul] at hlt
    exact Nat.lt_of_lt_of_le hlt (Nat.pow_le_pow_right (by decide : 0 < 16) hlen)
  have hnat : (UInt64.ofNat n).toNat = n := UInt64.toNat_ofNat_of_lt' (Nat.lt_trans hn (by decide))
  rw [field, List.drop_zero, strtoul_spelled hne h (Nat.le_trans hlen (by decide)), Option.map_some,
    hnat, Int.bmod_eq_of_le_mul_two]
  · omega
  · omega

theorem lastSlash_cut {s t : List UInt8} (hs : 0 ∉ s) (ht : 0 ∉ t) (hslash : 47 ∉ t)
    (rest : List UInt8) : lastSlash (s ++ 47 :: (t ++ 0 :: rest)) = some s.length ∧
      (s ++ 47 :: (t ++ 0 :: rest)).set s.length 0 = s ++ 0 :: (t ++ 0 :: rest) := by
  have hclean : ∀ c ∈ s ++ 47 :: t, decide (c ≠ 0) = true := by
    intro c hc
    rw [decide_eq_true_eq]
    rintro rfl
    rcases List.mem_append.mp hc with hc | hc
    · exact hs hc
    · rcases List.mem_cons.mp hc with hc | hc
      · exact absurd hc (by decide)
      · exact ht hc
  have hcut : (s ++ 47 :: (t ++ 0 :: rest)).takeWhile (· ≠ 0) = s ++ 47 :: t := by
    have hsplit : s ++ 47 :: (t ++ 0 :: rest) = (s ++ 47 :: t) ++ 0 :: rest := by
      rw [List.append_assoc, List.cons_append]
    rw [hsplit, List.takeWhile_append_of_pos hclean]
    exact List.append_nil _
  constructor
  · rw [lastSlash, hcut, strrchr_append s hslash]
  · rw [List.set_append_right _ _ (Nat.le_refl _), Nat.sub_self, List.set_cons_zero]

variable (l : SbdfLink a)

theorem notMem_address {c : UInt8} (hc : c < 48) (hdot : c ≠ 46) : c ∉ l.address := by
  have hdigits {width m : Nat} (text : HexField width m) : c ∉ text.val := fun h =>
    absurd (le_of_mem_spelled text.property.2 h) (UInt8.not_le.mpr hc)
  have hcolon : c ≠ 58 := UInt8.ne_of_lt (UInt8.lt_trans hc (by decide))
  simp only [SbdfLink.address, List.mem_append, List.mem_cons, not_or]
  exact ⟨hdigits _, hcolon, hdigits _, hcolon, hdigits _, hdot, hdigits _⟩

theorem fields_spelled {ss bb dd f : List UInt8} {segment bus device function : Nat}
    (hs : ss.length = 4 ∧ spelled 0 ss = some segment) (hb : bb.length = 2 ∧ spelled 0 bb = some bus)
    (hd : dd.length = 2 ∧ spelled 0 dd = some device)
    (hf : f.length = 1 ∧ spelled 0 f = some function) (rest : List UInt8) :
    fields ((ss ++ 58 :: (bb ++ 58 :: (dd ++ 46 :: f))) ++ 0 :: rest) 0 =
      some ((segment : Int), (bus : Int), (device : Int), (function : Int)) := by
  obtain ⟨hslen, hs⟩ := hs
  obtain ⟨hblen, hb⟩ := hb
  obtain ⟨hdlen, hd⟩ := hd
  obtain ⟨hflen, hf⟩ := hf
  obtain ⟨s₁, s₂, s₃, s₄, rfl⟩ := List.length_eq_four.mp hslen
  obtain ⟨b₁, b₂, rfl⟩ := List.length_eq_two.mp hblen
  obtain ⟨d₁, d₂, rfl⟩ := List.length_eq_two.mp hdlen
  obtain ⟨f₁, rfl⟩ := List.length_eq_one_iff.mp hflen
  -- the buffer, as it is cut from the back
  let cut (colon₁ colon₂ dot : UInt8) : List UInt8 :=
    [s₁, s₂, s₃, s₄, colon₁, b₁, b₂, colon₂, d₁, d₂, dot, f₁] ++ 0 :: rest
  have hfunction : field (cut 58 58 46) 11 = some (function : Int) :=
    field_spelled (List.cons_ne_nil _ _) hf (by omega) rest
  have hdevice : field (cut 58 58 0) 8 = some (device : Int) :=
    field_spelled (List.cons_ne_nil _ _) hd (by omega) (f₁ :: 0 :: rest)
  have hbus : field (cut 58 0 0) 5 = some (bus : Int) :=
    field_spelled (List.cons_ne_nil _ _) hb (by omega) (d₁ :: d₂ :: 0 :: f₁ :: 0 :: rest)
  have hsegment : field (cut 0 0 0) 0 = some (segment : Int) :=
    field_spelled (List.cons_ne_nil _ _) hs (by omega)
      (b₁ :: b₂ :: 0 :: d₁ :: d₂ :: 0 :: f₁ :: 0 :: rest)
  change (do
    let f ← field (cut 58 58 46) 11
    let d ← field (cut 58 58 0) 8
    let b ← field (cut 58 0 0) 5
    let s ← field (cut 0 0 0) 0
    return (s, b, d, f)) = _
  rw [hfunction, hdevice, hbus, hsegment]
  rfl

theorem fields_address (rest : List UInt8) :
    fields (l.address ++ 0 :: rest) 0 =
      some ((a.segment.toNat : Int), (a.bus.toNat : Int), (a.device : Int), (a.function : Int)) :=
  fields_spelled l.segment.property l.bus.property l.device.property l.function.property rest

theorem zero_notMem_text : 0 ∉ l.text := by
  simp only [SbdfLink.text, List.mem_append, List.mem_cons, not_or]
  exact ⟨l.clean.1, by decide, notMem_address l (by decide) (by decide), by decide, l.clean.2.1,
    by decide, l.clean.2.2⟩

theorem length_text : l.text.length < sysfsPathMax := by
  have hshort := l.short
  have haddress : l.address.length = 12 := by
    simp only [SbdfLink.address, List.length_append, List.length_cons, l.segment.property.1,
      l.bus.property.1, l.device.property.1, l.function.property.1]
  simp only [SbdfLink.text, List.length_append, List.length_cons, haddress]
  omega

end Links

/-- The address is read as it is spelled, whatever the link has around it and the array held. -/
theorem sbdf_from_path_exact (stack : Stack) {a : Sbdf} (l : SbdfLink a) :
    sysfsSbdfFromPath stack (some ⟨l.text, zero_notMem_text l⟩) =
      some (.ok, some ((a.segment.toNat : Int), (a.bus.toNat : Int), (a.device : Int),
        (a.function : Int))) := by
  have hwhole : l.text.take (sysfsPathMax - 1) = l.text :=
    List.take_of_length_le (Nat.le_sub_one_of_lt (length_text l))
  obtain ⟨hfront, hcomponent, hlast⟩ := l.clean
  have haddress := notMem_address l (c := 0) (by decide) (by decide)
  generalize hrest : stack.val.drop (l.text.length + 1) = rest
  -- the names behind the address are cut off, and then the slash in front of it is the last one
  let named := l.front ++ 47 :: (l.address ++ 47 :: l.component)
  let bare := l.front ++ 47 :: l.address
  have hbare : 0 ∉ bare := by
    simp only [bare, List.mem_append, List.mem_cons, not_or]
    exact ⟨hfront, by decide, haddress⟩
  have hnamed : 0 ∉ named := by
    simp only [named, List.mem_append, List.mem_cons, not_or]
    exact ⟨hfront, by decide, haddress, by decide, hcomponent⟩
  let behind := l.component ++ 0 :: (l.last ++ 0 :: rest)
  obtain ⟨hslash₁, hcut₁⟩ := lastSlash_cut hnamed hlast l.names.2 rest
  obtain ⟨hslash₂, hcut₂⟩ := lastSlash_cut hbare hcomponent l.names.1 (l.last ++ 0 :: rest)
  obtain ⟨hslash₃, -⟩ := lastSlash_cut hfront haddress (notMem_address l (by decide) (by decide))
    behind
  have hbuffer₁ : l.text ++ 0 :: rest = named ++ 47 :: (l.last ++ 0 :: rest) := by
    simp only [SbdfLink.text, named, List.append_assoc, List.cons_append]
  have hbuffer₂ : named ++ 0 :: (l.last ++ 0 :: rest) = bare ++ 47 :: behind := by
    simp only [named, bare, behind, List.append_assoc, List.cons_append]
  have hbuffer₃ : bare ++ 0 :: behind = l.front ++ 47 :: (l.address ++ 0 :: behind) := by
    simp only [bare, List.append_assoc, List.cons_append]
  have hfields : fields (l.front ++ 47 :: (l.address ++ 0 :: behind)) (l.front.length + 1) =
      fields (l.address ++ 0 :: behind) 0 := by
    have hassoc : l.front ++ 47 :: (l.address ++ 0 :: behind) =
        (l.front ++ [47]) ++ (l.address ++ 0 :: behind) := (List.append_cons _ _ _)
    have hlen : (l.front ++ [47]).length = l.front.length + 1 := List.length_append
    rw [hassoc, ← hlen, fields_append]
  rw [sysfsSbdfFromPath]
  dsimp only
  rw [hwhole, hrest, hbuffer₁, hslash₁]
  dsimp only
  rw [hcut₁, hbuffer₂, hslash₂]
  dsimp only
  rw [hcut₂, hbuffer₃, hslash₃]
  dsimp only
  rw [hfields, fields_address]
  rfl

def sampleLink : SbdfLink ⟨0, 0x5e, 0, ⟨0, Nat.succ_pos 7⟩⟩ where
  front := ascii "../../devices/pci0000:5e"
  segment := ⟨ascii "0000", by decide⟩
  bus := ⟨ascii "5e", by decide⟩
  device := ⟨ascii "00", by decide⟩
  function := ⟨ascii "0", by decide⟩
  component := ascii "fpga"
  last := ascii "intel-fpga-dev.0"
  clean := by decide
  names := by decide
  short := by decide

example : sampleLink.text =
    ascii "../../devices/pci0000:5e/0000:5e:00.0/fpga/intel-fpga-dev.0" := by decide

end OpaeLibs.PluginXfpga.SbdfLinks
