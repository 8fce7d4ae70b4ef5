import OpaeLibs.Ofs.OfsParse

namespace OpaeLibs.Ofs.FieldBits

open OpaeLibs.Lib.BitFields OpaeLibs.Ofs.OfsParse

/-- Fields within a register of 64 bits that do not overlap, with names that tell them apart. -/
structure Described (r : OfsRegister) : Prop where
  bits : ∀ f ∈ r.fields, ∀ b ∈ f.bits, b < 64
  apart : r.fields.Pairwise fun f g => f.max < g.min ∨ g.max < f.min
  names : (r.fields.map OfsField.name).Nodup

structure DescribedDriver {φ : Type} (data : OfsDriver φ) : Prop where
  registers : ∀ r ∈ data.registers, Described r
  names : (data.registers.map OfsRegister.name).Nodup

/-- A field reads as its own bits of the register at the offset that is described. -/
def ReadsBits (header : Header) (r : OfsRegister) (f : OfsField) : Prop :=
  ∀ space, header.read space r.name f.name =
    some (extract (word space r.offset 8) f.min (f.max - f.min + 1))

/-- The header is written, and in it every field of every register reads as its own bits and the
value of the register reaches them. -/
def HeaderReads {φ : Type} (data : OfsDriver φ) : Prop :=
  ∃ header, writeHeader data = .ok (some header) ∧
    ∀ r ∈ data.registers, ∃ width, header.valueWidth r.name = some width ∧
      ∀ f ∈ r.fields, f.max < width ∧ ReadsBits header r f

def Adjoin : Nat → List OfsField → Prop
  | _, [] => True
  | b, f :: fs => f.min = b ∧ Adjoin (f.max + 1) fs

section

theorem find?_of_nodup {α κ : Type} [DecidableEq κ] {key : α → κ} {l : List α}
    (hnodup : (l.map key).Nodup) {a : α} (ha : a ∈ l) :
    l.find? (fun x => key x = key a) = some a := by
  induction l with
  | nil => exact nomatch ha
  | cons x l ih =>
    rw [List.map_cons, List.nodup_cons] at hnodup
    rcases List.mem_cons.mp ha with rfl | ha
    · exact List.find?_cons_of_pos (decide_eq_true rfl)
    · have hne : key x ≠ key a := fun h => hnodup.1 (h ▸ List.mem_map_of_mem ha)
      rw [List.find?_cons_of_neg (by simpa using hne)]
      exact ih hnodup.2 ha

theorem min_le_max (f : OfsField) : f.min ≤ f.max := by
  obtain ⟨b, hb⟩ := List.exists_mem_of_ne_nil f.bits f.bits_ne
  exact Nat.le_trans (List.min_le_of_mem hb) (List.le_max_of_mem hb)

end

section Places

def declare (pod : Nat) (f : OfsField) : BitField String := ⟨f.name, pod, f.max - f.min + 1⟩

/-- The place of a field by its name when so many bits are taken before the fields of a list. -/
def placeOf (pod pos : Nat) (fs : List OfsField) (name : String) :
    Option (BitField String × Nat) :=
  (place pos (fs.map (declare pod))).find? fun p => p.1.name = name

variable {pod : Nat} {f g : OfsField} {fs : List OfsField}

theorem placeOf_self {pos : Nat} : placeOf pod pos (f :: fs) f.name =
    some (declare pod f, align pos pod (f.max - f.min + 1)) :=
  List.find?_cons_of_pos (decide_eq_true rfl)

theorem placeOf_of_ne {pos : Nat} (h : f.name ≠ g.name) : placeOf pod pos (f :: fs) g.name =
    placeOf pod (align pos pod (f.max - f.min + 1) + (f.max - f.min + 1)) fs g.name :=
  List.find?_cons_of_neg fun hc => h (of_decide_eq_true hc)

theorem name_ne_of_mem (hnames : ((f :: fs).map OfsField.name).Nodup) (hg : g ∈ fs) :
    f.name ≠ g.name := by
  rw [List.map_cons, List.nodup_cons] at hnames
  exact fun h => hnames.1 (h ▸ List.mem_map_of_mem hg)

theorem names_tail (hnames : ((f :: fs).map OfsField.name).Nodup) :
    (fs.map OfsField.name).Nodup := by
  rw [List.map_cons, List.nodup_cons] at hnames
  exact hnames.2

theorem exists_placeOf (pod pos : Nat) (hnames : (fs.map OfsField.name).Nodup) (hg : g ∈ fs) :
    ∃ p, placeOf pod pos fs g.name =
      some (declare pod g, align p pod (g.max - g.min + 1)) := by
  induction fs generalizing pos with
  | nil => exact nomatch hg
  | cons f fs ih =>
    rcases List.mem_cons.mp hg with rfl | hg
    · exact ⟨pos, placeOf_self⟩
    · rw [placeOf_of_ne (name_ne_of_mem hnames hg)]
      exact ih _ (names_tail hnames) hg

/-- As long as nothing is beyond the type, a field is moved to its own bits only where it is there
without being moved. -/
theorem align_eq_min_iff (base pos : Nat) (hmax : f.max < pod) :
    base + align pos pod (f.max - f.min + 1) = f.min ↔ f.min = base + pos := by
  have hle := min_le_max f
  constructor
  · intro h
    rcases align_eq_or_le pos pod (f.max - f.min + 1) with heq | hge
    · rw [← h, heq]
    · omega
  · intro h
    rw [align_of_le (by omega) (by omega), h]

theorem forall_placeOf_iff (base pos : Nat) (hnames : (fs.map OfsField.name).Nodup)
    (hmax : ∀ f ∈ fs, f.max < pod) :
    (∀ f ∈ fs, ∀ q, placeOf pod pos fs f.name = some (declare pod f, q) → base + q = f.min) ↔
      Adjoin (base + pos) fs := by
  induction fs generalizing pos with
  | nil => exact ⟨fun _ => trivial, fun _ => nofun⟩
  | cons f fs ih =>
    have hmin := align_eq_min_iff base pos (hmax f List.mem_cons_self)
    have hrest := ih (align pos pod (f.max - f.min + 1) + (f.max - f.min + 1))
      (names_tail hnames) fun g hg => hmax g (List.mem_cons_of_mem _ hg)
    have hnext (h : base + align pos pod (f.max - f.min + 1) = f.min) :
        base + (align pos pod (f.max - f.min + 1) + (f.max - f.min + 1)) = f.max + 1 := by
      have hle := min_le_max f
      omega
    constructor
    · intro h
      have hhere := h f List.mem_cons_self _ placeOf_self
      refine ⟨hmin.mp hhere, ?_⟩
      rw [← hnext hhere]
      apply hrest.mp
      intro g hg q hq
      apply h g (List.mem_cons_of_mem _ hg)
      rw [placeOf_of_ne (name_ne_of_mem hnames hg)]
      exact hq
    · rintro ⟨hhere, hadjoin⟩ g hg q hq
      rw [← hnext (hmin.mpr hhere)] at hadjoin
      rcases List.mem_cons.mp hg with rfl | hg
      · rw [placeOf_self] at hq
        rw [← (Prod.mk.inj (Option.some_inj.mp hq)).2]
        exact hmin.mpr hhere
      · rw [placeOf_of_ne (name_ne_of_mem hnames hg)] at hq
        exact hrest.mpr hadjoin g hg q hq

end Places

section Headers

variable {φ : Type} {data : OfsDriver φ} {header : Header} {r : OfsRegister}

def sortedFields (r : OfsRegister) : List OfsField :=
  r.fields.mergeSort fun f g => f.min ≤ g.min

theorem mem_sortedFields {f : OfsField} : f ∈ sortedFields r ↔ f ∈ r.fields := List.mem_mergeSort

theorem names_sortedFields (h : Described r) : ((sortedFields r).map OfsField.name).Nodup :=
  (((List.mergeSort_perm _ _).map _).nodup_iff).mpr h.names

theorem writeStructure_ok {u : RegisterUnion} (h : writeStructure r = .ok u) :
    ∃ top, topBit r = some top ∧
      u = ⟨r.name, r.offset, registerWidth top,
        (sortedFields r).map (declare (registerWidth top))⟩ := by
  rw [writeStructure] at h
  cases htop : topBit r with
  | none =>
    rw [htop] at h
    exact nomatch h
  | some top =>
    rw [htop] at h
    exact ⟨top, rfl, (Except.ok.inj h).symm⟩

theorem find?_unions {registers : List OfsRegister} {unions : List RegisterUnion}
    (h : registers.mapM writeStructure = .ok unions)
    (hnames : (registers.map OfsRegister.name).Nodup) (hr : r ∈ registers) :
    ∃ u, writeStructure r = .ok u ∧ unions.find? (fun u => u.name = r.name) = some u := by
  induction registers generalizing unions with
  | nil => exact nomatch hr
  | cons x registers ih =>
    rw [List.mapM_cons] at h
    cases hx : writeStructure x with
    | error e =>
      rw [hx] at h
      exact nomatch h
    | ok u =>
      cases hrest : registers.mapM writeStructure with
      | error e =>
        rw [hx, hrest] at h
        exact nomatch h
      | ok rest =>
        rw [hx, hrest] at h
        obtain rfl : u :: rest = unions := Except.ok.inj h
        obtain ⟨top, -, hu⟩ := writeStructure_ok hx
        have hname : u.name = x.name := by rw [hu]
        rcases List.mem_cons.mp hr with rfl | hr
        · exact ⟨u, hx, List.find?_cons_of_pos (decide_eq_true hname)⟩
        · rw [List.map_cons, List.nodup_cons] at hnames
          obtain ⟨v, hv, hfind⟩ := ih hrest hnames.2 hr
          refine ⟨v, hv, ?_⟩
          rw [← hfind]
          refine List.find?_cons_of_neg fun hc => hnames.1 ?_
          rw [← hname, of_decide_eq_true hc]
          exact List.mem_map_of_mem hr

theorem mapM_writeStructure {registers : List OfsRegister}
    (h : ∀ r ∈ registers, r.fields ≠ []) :
    ∃ unions, registers.mapM writeStructure = .ok unions := by
  induction registers with
  | nil => exact ⟨[], rfl⟩
  | cons x registers ih =>
    obtain ⟨unions, hunions⟩ := ih fun r hr => h r (List.mem_cons_of_mem _ hr)
    rw [List.mapM_cons, hunions, writeStructure]
    cases htop : topBit x with
    | none =>
      rw [topBit, List.max?_eq_none_iff, List.map_eq_nil_iff] at htop
      exact absurd htop (h x List.mem_cons_self)
    | some top => exact ⟨_, rfl⟩

theorem writeHeader_ok (h : writeHeader data = .ok (some header)) :
    data.functions ≠ [] ∧ data.registers.mapM writeStructure = .ok header.unions ∧
      header.inits = writeDriver data.registers := by
  rw [writeHeader] at h
  cases hfunctions : data.functions with
  | nil =>
    rw [hfunctions] at h
    exact nomatch h
  | cons f fs =>
    rw [hfunctions] at h
    cases hunions : data.registers.mapM writeStructure with
    | error e =>
      rw [hunions] at h
      exact nomatch h
    | ok unions =>
      rw [hunions] at h
      obtain rfl : Header.mk unions (writeDriver data.registers) = header :=
        Option.some_inj.mp (Except.ok.inj h)
      exact ⟨List.cons_ne_nil f fs, rfl, rfl⟩

theorem writeHeader_of_fields (hfunctions : data.functions ≠ [])
    (hfields : ∀ r ∈ data.registers, r.fields ≠ []) :
    ∃ header, writeHeader data = .ok (some header) := by
  obtain ⟨unions, hunions⟩ := mapM_writeStructure hfields
  rw [writeHeader, if_neg (mt List.isEmpty_iff.mp hfunctions), hunions]
  exact ⟨_, rfl⟩

theorem pointer_eq (hinits : header.inits = writeDriver data.registers)
    (hnames : (data.registers.map OfsRegister.name).Nodup) (hr : r ∈ data.registers) :
    header.pointer r.name = some (8 * r.offset) := by
  have hmem : (r.name, r.offset) ∈ writeDriver data.registers :=
    List.mem_map_of_mem (f := fun r => (r.name, r.offset)) hr
  have hkeys : ((writeDriver data.registers).map Prod.fst).Nodup := by
    rw [writeDriver, List.map_map]
    exact hnames
  rw [Header.pointer, hinits, find?_of_nodup hkeys hmem]
  exact congrArg some (Nat.zero_add _)

theorem dvd_registerWidth (top : Nat) : 8 ∣ registerWidth top := by
  rw [registerWidth]
  split <;> decide

theorem lt_registerWidth_iff {top : Nat} (htop : top < 64) :
    top < registerWidth top ↔ top ≠ 32 := by
  rw [registerWidth]
  split <;> omega

theorem max_lt (h : Described r) {f : OfsField} (hf : f ∈ r.fields) : f.max < 64 :=
  h.bits f hf f.max (List.max_mem f.bits_ne)

theorem topBit_eq_some {top : Nat} (htop : topBit r = some top) :
    (∃ f ∈ r.fields, f.max = top) ∧ ∀ f ∈ r.fields, f.max ≤ top := by
  rw [topBit, List.max?_eq_some_iff, List.mem_map] at htop
  exact ⟨htop.1, fun f hf => htop.2 f.max (List.mem_map_of_mem hf)⟩

/-- The value of a register reaches all of its fields unless the highest bit is bit 32. -/
theorem forall_max_lt_iff (h : Described r) {top : Nat} (htop : topBit r = some top) :
    (∀ f ∈ r.fields, f.max < registerWidth top) ↔ top ≠ 32 := by
  obtain ⟨⟨f, hf, hmax⟩, hle⟩ := topBit_eq_some htop
  have hlt : top < 64 := hmax ▸ max_lt h hf
  rw [← lt_registerWidth_iff hlt]
  constructor
  · intro hall
    rw [← hmax]
    exact hmax ▸ hall f hf
  · exact fun hwidth g hg => Nat.lt_of_le_of_lt (hle g hg) hwidth

variable {top : Nat} {u : RegisterUnion}

theorem read_of_placeOf {f : OfsField} {q : Nat}
    (hfind : header.unions.find? (fun u => u.name = r.name) = some u)
    (hu : u.fields = (sortedFields r).map (declare (registerWidth top)))
    (hpointer : header.pointer r.name = some (8 * r.offset))
    (hmax : ∀ f ∈ r.fields, f.max < registerWidth top)
    (hplace : placeOf (registerWidth top) 0 (sortedFields r) f.name =
      some (declare (registerWidth top) f, q)) (space : Nat → UInt8) :
    header.read space r.name f.name =
      some (Lib.BitFields.read space (8 * r.offset) (declare (registerWidth top) f) q) := by
  have hguard : (((sortedFields r).map (declare (registerWidth top))).all
      fun m => m.width ≤ m.pod) = true := by
    rw [List.all_map, List.all_eq_true]
    intro g hg
    have hlt := hmax g (mem_sortedFields.mp hg)
    exact decide_eq_true (show g.max - g.min + 1 ≤ registerWidth top by omega)
  rw [placeOf] at hplace
  rw [Header.read, hfind, hpointer]
  simp only [Option.bind_eq_bind, Option.bind_some, hu, hguard, guard, if_true, hplace]
  rfl

theorem forall_readsBits_iff (h : Described r)
    (hfind : header.unions.find? (fun u => u.name = r.name) = some u)
    (hu : u.fields = (sortedFields r).map (declare (registerWidth top)))
    (hpointer : header.pointer r.name = some (8 * r.offset))
    (hmax : ∀ f ∈ r.fields, f.max < registerWidth top) :
    (∀ f ∈ r.fields, ReadsBits header r f) ↔ Adjoin (56 * r.offset) (sortedFields r) := by
  have hplaces := forall_placeOf_iff (56 * r.offset) 0 (names_sortedFields h)
    fun f hf => hmax f (mem_sortedFields.mp hf)
  rw [Nat.add_zero] at hplaces
  rw [← hplaces]
  have heach (f : OfsField) (hf : f ∈ r.fields) : ReadsBits header r f ↔
      ∀ q, placeOf (registerWidth top) 0 (sortedFields r) f.name =
        some (declare (registerWidth top) f, q) → 56 * r.offset + q = f.min := by
    obtain ⟨p, hp⟩ := exists_placeOf (registerWidth top) 0
      (names_sortedFields h) (mem_sortedFields.mpr hf)
    have hlt := hmax f hf
    have hlt64 := max_lt h hf
    have hle := min_le_max f
    have hfits : f.max - f.min + 1 ≤ registerWidth top := by omega
    have hregister : f.min + (f.max - f.min + 1) ≤ 8 * 8 := by omega
    have hread : (∀ space, Lib.BitFields.read space (8 * r.offset) (declare (registerWidth top) f)
        (align p (registerWidth top) (f.max - f.min + 1)) =
          extract (word space r.offset 8) f.min (f.max - f.min + 1)) ↔
        8 * (8 * r.offset) + align p (registerWidth top) (f.max - f.min + 1) =
          8 * r.offset + f.min :=
      forall_read_eq_iff (f := declare (registerWidth top) f) (Nat.succ_pos _)
        (dvd_registerWidth top) (align_fits p hfits) hregister
    rw [ReadsBits]
    simp only [read_of_placeOf hfind hu hpointer hmax hp, Option.some_inj]
    refine hread.trans ⟨fun heq q hq => ?_, fun hq => ?_⟩
    · rw [hp] at hq
      rw [← (Prod.mk.inj (Option.some_inj.mp hq)).2]
      omega
    · have heq := hq _ hp
      omega
  constructor
  · exact fun hreads f hf => (heach f (mem_sortedFields.mp hf)).mp
      (hreads f (mem_sortedFields.mp hf))
  · exact fun hall f hf => (heach f hf).mpr (hall f (mem_sortedFields.mpr hf))

/-- Registers read as they are described just where they are at offset 0 and leave no gap, or where
the gap makes up for an offset that is taken eight times, and unless a highest bit is bit 32. -/
theorem header_reads_iff (hdata : DescribedDriver data) :
    HeaderReads data ↔ data.functions ≠ [] ∧ ∀ r ∈ data.registers,
      r.fields ≠ [] ∧ topBit r ≠ some 32 ∧ Adjoin (56 * r.offset) (sortedFields r) := by
  have heach {header : Header} (hheader : writeHeader data = .ok (some header)) (r : OfsRegister)
      (hr : r ∈ data.registers) : ∃ top, topBit r = some top ∧
        ((∃ width, header.valueWidth r.name = some width ∧
          ∀ f ∈ r.fields, f.max < width ∧ ReadsBits header r f) ↔
        topBit r ≠ some 32 ∧ Adjoin (56 * r.offset) (sortedFields r)) := by
    obtain ⟨-, hunions, hinits⟩ := writeHeader_ok hheader
    obtain ⟨u, hu, hfind⟩ := find?_unions hunions hdata.names hr
    obtain ⟨top, htop, rfl⟩ := writeStructure_ok hu
    have hwidth : header.valueWidth r.name = some (registerWidth top) := by
      rw [Header.valueWidth, hfind]
      rfl
    have hmax := forall_max_lt_iff (hdata.registers r hr) htop
    have hpointer := pointer_eq hinits hdata.names hr
    refine ⟨top, htop, ?_⟩
    simp only [hwidth, Option.some_inj, exists_eq_left', htop, forall_and, ne_eq] at hmax ⊢
    rw [hmax]
    refine and_congr_right fun hne => ?_
    exact forall_readsBits_iff (hdata.registers r hr) hfind rfl hpointer (hmax.mpr hne)
  constructor
  · rintro ⟨header, hheader, hreads⟩
    refine ⟨(writeHeader_ok hheader).1, fun r hr => ?_⟩
    obtain ⟨top, htop, hiff⟩ := heach hheader r hr
    refine ⟨?_, hiff.mp (hreads r hr)⟩
    rintro hnil
    rw [topBit, hnil] at htop
    exact nomatch htop
  · rintro ⟨hfunctions, hall⟩
    obtain ⟨header, hheader⟩ := writeHeader_of_fields hfunctions fun r hr => (hall r hr).1
    refine ⟨header, hheader, fun r hr => ?_⟩
    obtain ⟨top, -, hiff⟩ := heach hheader r hr
    exact hiff.mpr (hall r hr).2

end Headers

section Sample

def sampleField (name : String) (hi lo : Nat) : OfsField :=
  ⟨name, [hi, lo], List.cons_ne_nil hi [lo]⟩

def sampleDfh : OfsRegister where
  name := "fme_dfh"
  offset := 0x0000
  fields := [sampleField "feature_type" 63 60, sampleField "dfh_version" 59 52,
    sampleField "feature_minor_rev" 51 48, sampleField "reserved41" 47 41,
    sampleField "eol" 40 40, sampleField "next_offset" 39 16,
    sampleField "feature_major_ver" 15 12, sampleField "feature_id" 11 0]

def sampleIdLo : OfsRegister := ⟨"id_lo", 0x0008, [sampleField "bits" 63 0]⟩

def sampleDriver : OfsDriver String := ⟨"ofs_test", [sampleDfh, sampleIdLo], ["read_guid"]⟩

theorem described_sampleDriver : DescribedDriver sampleDriver where
  registers r hr := by
    rcases List.mem_cons.mp hr with rfl | hr
    · exact ⟨by decide +kernel, by decide +kernel, by decide +kernel⟩
    · obtain rfl := List.mem_singleton.mp hr
      exact ⟨by decide +kernel, by decide +kernel, by decide +kernel⟩
  names := by decide +kernel

theorem header_reads_iff_sample : HeaderReads sampleDriver ↔ sampleDriver.functions ≠ [] ∧
    ∀ r ∈ sampleDriver.registers,
      r.fields ≠ [] ∧ topBit r ≠ some 32 ∧ Adjoin (56 * r.offset) (sortedFields r) :=
  header_reads_iff described_sampleDriver

/-- The register at offset 8 is read from offset 64. -/
theorem not_forall_header_reads :
    ¬∀ data : OfsDriver String, DescribedDriver data → data.functions ≠ [] →
      (∀ r ∈ data.registers, r.fields ≠ []) → HeaderReads data := by
  intro h
  obtain ⟨header, hheader, hreads⟩ := h sampleDriver described_sampleDriver (by decide) (by decide)
  have hr : sampleIdLo ∈ sampleDriver.registers := List.mem_cons_of_mem _ List.mem_cons_self
  have hdescribed := described_sampleDriver.registers sampleIdLo hr
  obtain ⟨-, hunions, hinits⟩ := writeHeader_ok hheader
  obtain ⟨u, hu, hfind⟩ := find?_unions hunions described_sampleDriver.names hr
  obtain ⟨top, htop, rfl⟩ := writeStructure_ok hu
  obtain ⟨width, -, hbits⟩ := hreads sampleIdLo hr
  have htop63 : topBit sampleIdLo = some 63 := by decide
  obtain rfl : 63 = top := Option.some_inj.mp (htop63.symm.trans htop)
  have hmax := (forall_max_lt_iff hdescribed htop).mpr (by decide)
  have hsorted : sortedFields sampleIdLo = [sampleField "bits" 63 0] :=
    List.mergeSort_singleton _
  have hadjoin := (forall_readsBits_iff hdescribed hfind rfl
    (pointer_eq hinits described_sampleDriver.names hr) hmax).mp fun f hf => (hbits f hf).2
  rw [hsorted] at hadjoin
  exact absurd hadjoin.1 (by decide)

end Sample

end OpaeLibs.Ofs.FieldBits
