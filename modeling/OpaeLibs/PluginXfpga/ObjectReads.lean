import OpaeLibs.OpaeC.Props

namespace OpaeLibs.PluginXfpga.ObjectReads

open OpaeLibs.OpaeC.Props

/-- An attribute: its buffer, which is a page, and how many of the bytes there are its contents. -/
structure FileObject where
  buffer : List UInt8
  size : UInt64
  size_le : size.toNat ≤ buffer.length
  length_lt : buffer.length < 2 ^ 32

/-- Of a container, only the number of its objects. -/
inductive Object
  | container (size : UInt64)
  | file (o : FileObject)

def FileObject.contents (o : FileObject) : List UInt8 := o.buffer.take o.size.toNat

/-- What comes of opening the file of an object and reading it. A read that fails may have stored
bytes before. -/
inductive SyncOutcome
  | openFails
  | readFails (stored : List UInt8)
  | reads (text : List UInt8)

def fpgaObjectSync : Int32 := 1

def fill (bytes buffer : List UInt8) : List UInt8 :=
  bytes.take buffer.length ++ buffer.drop bytes.length

theorem length_fill (bytes buffer : List UInt8) : (fill bytes buffer).length = buffer.length := by
  rw [fill, List.length_append, List.length_take, List.length_drop]
  omega

theorem toNat_read (text : List UInt8) {buffer : List UInt8} (h : buffer.length < 2 ^ 32) :
    (UInt64.ofNat (min text.length buffer.length)).toNat = min text.length buffer.length :=
  UInt64.toNat_ofNat_of_lt' (Nat.lt_of_le_of_lt (Nat.min_le_right _ _) (Nat.lt_trans h (by decide)))

section Code

def syncObject (sync : SyncOutcome) (o : FileObject) : FpgaResult × FileObject :=
  match sync with
  | .openFails => (.exception, o)
  | .readFails stored =>
    (.exception,
      { o with
        buffer := fill stored o.buffer
        size_le := by
          rw [length_fill]
          exact o.size_le
        length_lt := by
          rw [length_fill]
          exact o.length_lt })
  | .reads text =>
    (.ok,
      { buffer := fill text o.buffer
        size := UInt64.ofNat (min text.length o.buffer.length)
        size_le := by
          rw [toNat_read text o.length_lt, length_fill]
          exact Nat.min_le_right _ _
        length_lt := by
          rw [length_fill]
          exact o.length_lt })

def syncIf (sync : SyncOutcome) (flags : Int32) (o : FileObject) : FpgaResult × FileObject :=
  if flags &&& fpgaObjectSync ≠ 0 then syncObject sync o else (.ok, o)

/-- The size is written as one of 32 bits. -/
def xfpgaFpgaObjectGetSize (sync : SyncOutcome) (flags : Int32) :
    Object → FpgaResult × Object × Option UInt32
  | .container size => (.ok, .container size, some size.toUInt32)
  | .file o =>
    let r := syncIf sync flags o
    if r.1 ≠ .ok then (r.1, .file r.2, none) else (.ok, .file r.2, some r.2.size.toUInt32)

/-- Bytes of a buffer, unless it does not have them all. -/
def memcpyFrom (buffer : List UInt8) (offset len : UInt64) : Option (List UInt8) :=
  if offset.toNat + len.toNat ≤ buffer.length then
    some ((buffer.drop offset.toNat).take len.toNat)
  else none

/-- The result, the object and the bytes that are copied; `none` is a fault. The bound is a sum of
`size_t`, and it is checked twice. -/
def xfpgaFpgaObjectRead (sync : SyncOutcome) (offset len : UInt64) (flags : Int32) :
    Object → Option (FpgaResult × Object × List UInt8)
  | .container size => some (.invalidParam, .container size, [])
  | .file o =>
    if offset + len > o.size then some (.invalidParam, .file o, [])
    else
      let r := syncIf sync flags o
      if r.1 ≠ .ok then some (r.1, .file r.2, [])
      else if offset + len > r.2.size then some (.invalidParam, .file r.2, [])
      else (memcpyFrom r.2.buffer offset len).map fun data => (.ok, .file r.2, data)

/-- The variable of a caller: a `uint32_t`, as the public header has it, or a `uint64_t`, as the
shell has it. -/
inductive Variable
  | uint32 (v : UInt32)
  | uint64 (v : UInt64)

def Variable.toNat : Variable → Nat
  | uint32 v => v.toNat
  | uint64 v => v.toNat

/-- The half that a store of 32 bits leaves as it is. -/
def Variable.upper : Variable → Nat
  | uint32 _ => 0
  | uint64 v => v.toNat / 2 ^ 32

/-- The low half comes first in the memory. -/
def Variable.store (x : UInt32) : Variable → Variable
  | uint32 _ => uint32 x
  | uint64 v => uint64 (UInt64.ofNat (v.toNat / 2 ^ 32 * 2 ^ 32 + x.toNat))

/-- `buffer` says whether it is not `NULL`. -/
def fpgaObjectRead (sync : SyncOutcome) (obj : Object) (buffer : Bool) (offset len : UInt64)
    (flags : Int32) : Option (FpgaResult × Object × List UInt8) :=
  if !buffer then some (.invalidParam, obj, []) else xfpgaFpgaObjectRead sync offset len flags obj

def fpgaObjectGetSize (sync : SyncOutcome) (obj : Object) (value : Option Variable)
    (flags : Int32) : FpgaResult × Object × Option Variable :=
  match value with
  | none => (.invalidParam, obj, none)
  | some v =>
    let r := xfpgaFpgaObjectGetSize sync flags obj
    (r.1, r.2.1, some (r.2.2.elim v v.store))

end Code

section Objects

variable {sync : SyncOutcome} {flags : Int32} {o : FileObject}

theorem length_contents (o : FileObject) : o.contents.length = o.size.toNat := by
  rw [FileObject.contents, List.length_take]
  exact Nat.min_eq_left o.size_le

def Unchanged (sync : SyncOutcome) (flags : Int32) (o : FileObject) : Prop :=
  flags &&& fpgaObjectSync ≠ 0 →
    ∃ text, sync = .reads text ∧ text.take o.buffer.length = o.contents

theorem contents_reads (text : List UInt8) (o : FileObject) :
    (syncObject (.reads text) o).2.contents = text.take o.buffer.length := by
  have hsize : (syncObject (.reads text) o).2.size.toNat = (text.take o.buffer.length).length := by
    rw [List.length_take, Nat.min_comm]
    exact toNat_read text o.length_lt
  rw [FileObject.contents, hsize]
  exact List.take_left

theorem Unchanged.syncIf (h : Unchanged sync flags o) :
    (syncIf sync flags o).1 = .ok ∧ (syncIf sync flags o).2.contents = o.contents := by
  rw [ObjectReads.syncIf]
  split
  · next hsync =>
    obtain ⟨text, rfl, htext⟩ := h hsync
    exact ⟨rfl, (contents_reads text o).trans htext⟩
  · exact ⟨rfl, rfl⟩

/-- The range is still within the object when it is copied. -/
def StaysWithin (sync : SyncOutcome) (flags : Int32) (o : FileObject) (last : UInt64) : Prop :=
  flags &&& fpgaObjectSync ≠ 0 →
    ∃ text, sync = .reads text ∧ last.toNat ≤ min text.length o.buffer.length

theorem staysWithin_iff {last : UInt64} (h : last ≤ o.size) :
    StaysWithin sync flags o last ↔
      (syncIf sync flags o).1 = .ok ∧ last ≤ (syncIf sync flags o).2.size := by
  rw [StaysWithin, syncIf]
  by_cases hsync : flags &&& fpgaObjectSync ≠ 0
  · rw [if_pos hsync, imp_iff_right hsync]
    cases sync with
    | openFails => exact iff_of_false (fun ⟨_, h, _⟩ => nomatch h) fun h => nomatch h.1
    | readFails stored => exact iff_of_false (fun ⟨_, h, _⟩ => nomatch h) fun h => nomatch h.1
    | reads text =>
      rw [UInt64.le_iff_toNat_le]
      have hsize : (syncObject (.reads text) o).2.size.toNat = min text.length o.buffer.length :=
        toNat_read text o.length_lt
      rw [hsize]
      constructor
      · rintro ⟨_, ⟨⟩, hle⟩
        exact ⟨rfl, hle⟩
      · exact fun h => ⟨text, rfl, h.2⟩
  · rw [if_neg hsync]
    exact iff_of_true (fun hs => absurd hs hsync) ⟨rfl, h⟩

end Objects

section Reads

variable {sync : SyncOutcome} {flags : Int32} {o : FileObject} {offset len : UInt64}

/-- What is copied are the bytes of the range, all of which are contents. -/
def ReadInside (sync : SyncOutcome) (o : FileObject) (offset len : UInt64) (flags : Int32) :
    Prop :=
  ∃ r, fpgaObjectRead sync (.file o) true offset len flags = some r ∧
    (r.1 = .ok → ∃ o', r.2.1 = .file o' ∧ offset.toNat + len.toNat ≤ o'.contents.length ∧
      r.2.2 = (o'.contents.drop offset.toNat).take len.toNat)

structure Wraps (sync : SyncOutcome) (o : FileObject) (offset len : UInt64) (flags : Int32) :
    Prop where
  sum : 2 ^ 64 ≤ offset.toNat + len.toNat
  first : offset + len ≤ o.size
  second : StaysWithin sync flags o (offset + len)

theorem read_rejected (h : ¬offset + len ≤ o.size) :
    fpgaObjectRead sync (.file o) true offset len flags = some (.invalidParam, .file o, []) :=
  if_pos (UInt64.not_le.mp h)

theorem read_of_within (h : offset + len ≤ o.size) :
    fpgaObjectRead sync (.file o) true offset len flags =
      if (syncIf sync flags o).1 ≠ .ok then
        some ((syncIf sync flags o).1, .file (syncIf sync flags o).2, [])
      else if offset + len > (syncIf sync flags o).2.size then
        some (.invalidParam, .file (syncIf sync flags o).2, [])
      else (memcpyFrom (syncIf sync flags o).2.buffer offset len).map
        fun data => (.ok, .file (syncIf sync flags o).2, data) :=
  if_neg (UInt64.not_lt.mpr h)

theorem memcpyFrom_of_le (h : offset.toNat + len.toNat ≤ o.size.toNat) :
    memcpyFrom o.buffer offset len = some ((o.contents.drop offset.toNat).take len.toNat) := by
  rw [memcpyFrom, if_pos (Nat.le_trans h o.size_le), FileObject.contents, List.drop_take,
    List.take_take, Nat.min_eq_left (by omega)]

theorem memcpyFrom_of_wraps (h : 2 ^ 64 ≤ offset.toNat + len.toNat) :
    memcpyFrom o.buffer offset len = none := by
  have hlt := o.length_lt
  exact if_neg (by omega)

theorem toNat_add_of_lt (h : offset.toNat + len.toNat < 2 ^ 64) :
    (offset + len).toNat = offset.toNat + len.toNat := by
  rw [UInt64.toNat_add, Nat.mod_eq_of_lt h]

theorem readInside_iff : ReadInside sync o offset len flags ↔ ¬Wraps sync o offset len flags := by
  rw [ReadInside]
  by_cases hfirst : offset + len ≤ o.size
  · rw [read_of_within hfirst]
    have hwithin : StaysWithin sync flags o (offset + len) ↔ _ := staysWithin_iff hfirst
    by_cases hok : (syncIf sync flags o).1 = .ok
    · rw [if_neg (Decidable.not_not.mpr hok)]
      by_cases hsecond : offset + len ≤ (syncIf sync flags o).2.size
      · rw [if_neg (UInt64.not_lt.mpr hsecond)]
        by_cases hsum : 2 ^ 64 ≤ offset.toNat + len.toNat
        · rw [memcpyFrom_of_wraps hsum]
          exact iff_of_false nofun fun h => h ⟨hsum, hfirst, hwithin.mpr ⟨hok, hsecond⟩⟩
        · have hle := UInt64.le_iff_toNat_le.mp hsecond
          rw [toNat_add_of_lt (Nat.not_le.mp hsum)] at hle
          rw [memcpyFrom_of_le hle]
          refine iff_of_true ⟨_, rfl, fun _ => ⟨_, rfl, ?_, rfl⟩⟩ fun h => hsum h.sum
          rw [length_contents]
          exact hle
      · rw [if_pos (UInt64.not_le.mp hsecond)]
        exact iff_of_true ⟨_, rfl, nofun⟩ fun h => hsecond (hwithin.mp h.second).2
    · rw [if_pos hok]
      exact iff_of_true ⟨_, rfl, fun h => absurd h hok⟩ fun h => hok (hwithin.mp h.second).1
  · rw [read_rejected hfirst]
    exact iff_of_true ⟨_, rfl, nofun⟩ fun h => hfirst h.first

end Reads

section Sizes

variable {sync : SyncOutcome} {flags : Int32} {o : FileObject} {v : Variable}

/-- The variable has the length of the contents: they can be read up to it, and not beyond. -/
structure HoldsSize (o : FileObject) (v : Variable) : Prop where
  length : v.toNat = o.contents.length
  whole : ∀ sync flags, Unchanged sync flags o →
    ∃ obj, fpgaObjectRead sync (.file o) true 0 (.ofNat v.toNat) flags =
      some (.ok, obj, o.contents)
  longer : ∀ sync flags (len : UInt64), v.toNat < len.toNat →
    ∃ obj, fpgaObjectRead sync (.file o) true 0 len flags = some (.invalidParam, obj, [])

def SizeAgrees (sync : SyncOutcome) (o : FileObject) (v : Variable) (flags : Int32) : Prop :=
  ∀ obj v', fpgaObjectGetSize sync (.file o) (some v) flags = (.ok, obj, some v') →
    ∃ o', obj = .file o' ∧ HoldsSize o' v'

def SyncFails (sync : SyncOutcome) (flags : Int32) : Prop :=
  flags &&& fpgaObjectSync ≠ 0 ∧ ∀ text, sync ≠ .reads text

theorem syncFails_iff : SyncFails sync flags ↔ (syncIf sync flags o).1 ≠ .ok := by
  rw [SyncFails, syncIf]
  by_cases hsync : flags &&& fpgaObjectSync ≠ 0
  · rw [if_pos hsync, and_iff_right hsync]
    cases sync with
    | openFails => exact iff_of_true nofun nofun
    | readFails stored => exact iff_of_true nofun nofun
    | reads text => exact iff_of_false (fun h => h text rfl) fun h => h rfl
  · rw [if_neg hsync]
    exact iff_of_false (fun h => hsync h.1) fun h => h rfl

theorem holdsSize_of_length (h : v.toNat = o.contents.length) : HoldsSize o v where
  length := h
  whole := fun sync flags hsame => by
    obtain ⟨hok, hcontents⟩ := hsame.syncIf
    have hsize := length_contents o
    have hsynced := length_contents (syncIf sync flags o).2
    rw [hcontents] at hsynced
    have hlen : (UInt64.ofNat v.toNat).toNat = o.contents.length := by
      rw [h, hsize, UInt64.ofNat_toNat]
    have hfirst : 0 + UInt64.ofNat v.toNat ≤ o.size := by
      rw [UInt64.zero_add, UInt64.le_iff_toNat_le]
      exact Nat.le_of_eq (hlen.trans hsize)
    have hsecond : ¬0 + UInt64.ofNat v.toNat > (syncIf sync flags o).2.size := by
      rw [gt_iff_lt, UInt64.not_lt, UInt64.zero_add, UInt64.le_iff_toNat_le]
      exact Nat.le_of_eq (hlen.trans hsynced)
    have hwithin : (0 : UInt64).toNat + (UInt64.ofNat v.toNat).toNat ≤
        (syncIf sync flags o).2.size.toNat := by
      rw [UInt64.toNat_zero, Nat.zero_add]
      exact Nat.le_of_eq (hlen.trans hsynced)
    rw [read_of_within hfirst, if_neg (Decidable.not_not.mpr hok), if_neg hsecond,
      memcpyFrom_of_le hwithin, hcontents, hlen, UInt64.toNat_zero, List.drop_zero,
      List.take_length]
    exact ⟨_, rfl⟩
  longer := fun sync flags len hlt => by
    have hbeyond : ¬0 + len ≤ o.size := by
      rw [UInt64.zero_add, UInt64.le_iff_toNat_le, ← length_contents, ← h]
      exact Nat.not_le.mpr hlt
    exact ⟨_, read_rejected hbeyond⟩

theorem store_toNat (x : UInt32) (v : Variable) :
    (v.store x).toNat = v.upper * 2 ^ 32 + x.toNat := by
  cases v with
  | uint32 v => simp [Variable.store, Variable.toNat, Variable.upper]
  | uint64 v =>
    have hv := v.toNat_lt
    have hx := x.toNat_lt
    have hlt : v.toNat / 2 ^ 32 * 2 ^ 32 + x.toNat < 2 ^ 64 := by omega
    exact UInt64.toNat_ofNat_of_lt' hlt

theorem sizeAgrees_iff :
    SizeAgrees sync o v flags ↔ v.upper = 0 ∨ SyncFails sync flags := by
  have hget : fpgaObjectGetSize sync (.file o) (some v) flags =
      if (syncIf sync flags o).1 ≠ .ok then
        ((syncIf sync flags o).1, .file (syncIf sync flags o).2, some v)
      else (.ok, .file (syncIf sync flags o).2,
        some (v.store (syncIf sync flags o).2.size.toUInt32)) := by
    rw [fpgaObjectGetSize, xfpgaFpgaObjectGetSize]
    split <;> rfl
  rw [SizeAgrees, hget, syncFails_iff]
  by_cases hok : (syncIf sync flags o).1 = .ok
  · rw [if_neg (Decidable.not_not.mpr hok), or_iff_left (Decidable.not_not.mpr hok)]
    have hle := (syncIf sync flags o).2.size_le
    have hlt := (syncIf sync flags o).2.length_lt
    have hsize := length_contents (syncIf sync flags o).2
    have hstore := store_toNat (syncIf sync flags o).2.size.toUInt32 v
    rw [UInt64.toNat_toUInt32, Nat.mod_eq_of_lt (Nat.lt_of_le_of_lt hle hlt), ← hsize] at hstore
    constructor
    · intro h
      obtain ⟨o', ho', hholds⟩ := h _ _ rfl
      obtain rfl := Object.file.inj ho'
      have hlen := hholds.length
      omega
    · rintro hupper _ _ ⟨⟩
      refine ⟨_, rfl, holdsSize_of_length ?_⟩
      rw [hstore, hupper, Nat.zero_mul, Nat.zero_add]
  · rw [if_pos hok]
    exact iff_of_true (fun _ _ h => absurd (congrArg Prod.fst h) hok) (.inr hok)

end Sizes

/-- Reads stay inside an object and agree with its size, unless the sum of a range wraps or a
variable of 64 bits held more than 32 bits before. -/
theorem objectReads_iff (sync : SyncOutcome) (o : FileObject) (offset len : UInt64) (flags : Int32)
    (v : Variable) :
    ReadInside sync o offset len flags ∧ SizeAgrees sync o v flags ↔
      ¬Wraps sync o offset len flags ∧ (v.upper = 0 ∨ SyncFails sync flags) :=
  and_congr readInside_iff sizeAgrees_iff

def oneByte : FileObject where
  buffer := 65 :: List.replicate 4095 0
  size := 1
  size_le := by
    rw [UInt64.toNat_one, List.length_cons]
    exact Nat.le_add_left _ _
  length_lt := by
    rw [List.length_cons, List.length_replicate]
    decide

/-- One byte at the last offset is read from outside, and a variable that held `2^32` does not get
the size. -/
theorem oneByte_wraps :
    ¬(ReadInside (.reads [65]) oneByte 0xffffffffffffffff 1 0 ∧
        SizeAgrees (.reads [65]) oneByte (.uint64 0) 0) ∧
      ¬(ReadInside (.reads [65]) oneByte 0 1 0 ∧
        SizeAgrees (.reads [65]) oneByte (.uint64 0x100000000) 0) := by
  constructor
  · intro h
    exact readInside_iff.mp h.1 ⟨by decide, by decide, fun hsync => absurd rfl hsync⟩
  · intro h
    obtain hupper | hfails := sizeAgrees_iff.mp h.2
    · exact absurd hupper (by decide)
    · exact hfails.1 rfl

end OpaeLibs.PluginXfpga.ObjectReads
