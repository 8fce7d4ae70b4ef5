import OpaeLibs.Lib.HexTexts
import OpaeLibs.PluginXfpga.SysfsPieces

namespace OpaeLibs.PluginXfpga.GuidTexts

open OpaeLibs.Lib.Numerals (digitValue)
open OpaeLibs.Lib.HexTexts
open OpaeLibs.OpaeC.Props
open OpaeLibs.PluginXfpga.SysfsWords OpaeLibs.PluginXfpga.SysfsPieces

section Code

/-- The buffer, with a zero in the place of the last byte and behind it. -/
def terminated (buf : List UInt8) : List UInt8 :=
  buf.dropLast ++ List.replicate (sysfsPathMax - buf.dropLast.length) 0

/-- A round of the loop over the pairs. The text is cut behind the pair while it is converted, and
what a conversion leaves alone is zero. -/
def octetStep (st : List UInt8 × FpgaGuid) (i : Nat) : List UInt8 × FpgaGuid :=
  let tmp := st.1.getD (i + 2) 0
  let buf := st.1.set (i + 2) 0
  let octet := (textValue (buf.drop i)).toUInt32
  (buf.set (i + 2) tmp, st.2.setIfInBounds (i / 2) octet.toUInt8)

def readOctets (buf : List UInt8) (guid : FpgaGuid) : FpgaGuid :=
  ((List.range' 0 16 2).foldl octetStep (buf, guid)).2

variable {σ : Type} (files : Files σ)

def sysfsReadGuid (path : String) (guid : FpgaGuid) (s : σ) : FpgaResult × FpgaGuid × σ :=
  match files.openFile path s with
  | (none, s) => (.notFound, guid, s)
  | (some fd, s) =>
    match files.lseek fd s with
    | (false, s) => (.notFound, guid, files.close fd s)
    | (true, s) =>
      match readLoop files fd [] s with
      | (none, s) => (.notFound, guid, files.close fd s)
      | (some buf, s) => (.ok, readOctets (terminated buf) guid, files.close fd s)

end Code

/-- The bytes that pairs of digits spell. -/
inductive Octets : List UInt8 → List UInt8 → Prop
  | nil : Octets [] []
  | cons {a b : UInt8} {x y : Nat} {digits bytes : List UInt8} : digitValue 16 a = some x →
      digitValue 16 b = some y → Octets digits bytes →
      Octets (a :: b :: digits) (UInt8.ofNat (16 * x + y) :: bytes)

/-- 32 digits of a GUID, and a newline or a terminator behind them. -/
def GuidText (content : List UInt8) (guid : FpgaGuid) : Prop :=
  ∃ digits last, content = digits ++ [last] ∧ (last = 10 ∨ last = 0) ∧ Octets digits guid.toList

section Octets

variable {digits bytes : List UInt8}

theorem Octets.length_eq (h : Octets digits bytes) : digits.length = 2 * bytes.length := by
  induction h with
  | nil => rfl
  | cons _ _ _ ih =>
    rw [List.length_cons, List.length_cons, List.length_cons, ih]
    omega

theorem Octets.le_of_mem (h : Octets digits bytes) {c : UInt8} (hc : c ∈ digits) : 48 ≤ c := by
  induction h with
  | nil => exact nomatch hc
  | cons ha hb _ ih =>
    rcases List.mem_cons.mp hc with rfl | hc
    · exact le_of_digitValue ha
    · rcases List.mem_cons.mp hc with rfl | hc
      · exact le_of_digitValue hb
      · exact ih hc

theorem Octets.clean (h : Octets digits bytes) : 10 ∉ digits ∧ 0 ∉ digits :=
  ⟨fun hc => absurd (h.le_of_mem hc) (by decide), fun hc => absurd (h.le_of_mem hc) (by decide)⟩

theorem octetStep_eq {buf : List UInt8} {i : Nat} (h : i + 2 < buf.length) (guid : FpgaGuid) :
    octetStep (buf, guid) i = (buf, guid.setIfInBounds (i / 2)
      (textValue ((buf.set (i + 2) 0).drop i)).toUInt32.toUInt8) := by
  have hback : (buf.set (i + 2) 0).set (i + 2) (buf.getD (i + 2) 0) = buf := by
    rw [List.set_set, List.getD_eq_getElem?_getD, List.getElem?_eq_getElem h, Option.getD_some,
      List.set_getElem_self]
  rw [octetStep, hback]

theorem toUInt8_ofNat (n : Nat) : (UInt64.ofNat n).toUInt32.toUInt8 = UInt8.ofNat n := by
  apply UInt8.toNat_inj.mp
  simp

theorem textValue_pair {a b : UInt8} {x y : Nat} (ha : digitValue 16 a = some x)
    (hb : digitValue 16 b = some y) (rest : List UInt8) :
    (textValue (a :: b :: 0 :: rest)).toUInt32.toUInt8 = UInt8.ofNat (16 * x + y) := by
  have hspelled : spelled 0 [a, b] = some (16 * x + y) := by
    rw [spelled, ha, Option.bind_some, spelled, hb, Option.bind_some, Nat.mul_zero, Nat.zero_add]
    rfl
  have hvalue : textValue (a :: b :: 0 :: rest) = UInt64.ofNat (16 * x + y) :=
    textValue_spelled (List.cons_ne_nil a [b]) hspelled (Nat.le_add_left 2 14)
  rw [hvalue, toUInt8_ofNat]

theorem foldl_octetStep (h : Octets digits bytes) (before front : List UInt8)
    (hfront : before.length = 2 * front.length) {old : List UInt8}
    (hold : old.length = bytes.length) {guid : FpgaGuid} (hguid : guid.toList = front ++ old)
    (zs : List UInt8) :
    ((List.range' before.length bytes.length 2).foldl octetStep
      (before ++ (digits ++ 0 :: zs), guid)).2.toList = front ++ bytes := by
  induction h generalizing before front old guid with
  | nil =>
    rw [List.length_eq_zero_iff.mp hold] at hguid
    exact hguid
  | @cons a b x y digits bytes ha hb hrest ih =>
    cases old with
    | nil => exact nomatch hold
    | cons o old =>
      have hin : before.length + 2 < (before ++ (a :: b :: digits ++ 0 :: zs)).length := by
        simp only [List.length_append, List.length_cons]
        omega
      have hcut : ∃ rest, ((before ++ (a :: b :: digits ++ 0 :: zs)).set (before.length + 2) 0).drop
          before.length = a :: b :: 0 :: rest := by
        cases digits with
        | nil => exact ⟨zs, by simp⟩
        | cons d digits => exact ⟨digits ++ 0 :: zs, by simp⟩
      obtain ⟨rest, hcut⟩ := hcut
      have hhalf : before.length / 2 = front.length := by omega
      have hset : (guid.setIfInBounds front.length (UInt8.ofNat (16 * x + y))).toList =
          (front ++ [UInt8.ofNat (16 * x + y)]) ++ old := by
        rw [Vector.toList_setIfInBounds, hguid, List.set_append_right _ _ (Nat.le_refl _),
          Nat.sub_self, List.set_cons_zero, List.append_assoc]
        rfl
      have hdouble : (before ++ [a, b]).length =
          2 * (front ++ [UInt8.ofNat (16 * x + y)]).length := by
        simp only [List.length_append, List.length_cons, List.length_nil]
        omega
      have hnext := ih (before ++ [a, b]) _ hdouble (Nat.succ.inj hold) hset
      rw [List.length_cons, List.range'_succ, List.foldl_cons, octetStep_eq hin, hcut,
        textValue_pair ha hb, hhalf]
      rw [List.append_assoc, List.append_assoc, List.length_append] at hnext
      exact hnext

theorem readOctets_eq {guid : FpgaGuid} (h : Octets digits guid.toList) (old : FpgaGuid)
    (last : UInt8) : readOctets (terminated (digits ++ [last])) old = guid := by
  have hlen : digits.length = 32 := by rw [h.length_eq, Vector.length_toList]
  have hterm : terminated (digits ++ [last]) =
      [] ++ (digits ++ 0 :: List.replicate (sysfsPathMax - 33) 0) := by
    rw [terminated, List.dropLast_concat, hlen]
    rfl
  have hall := foldl_octetStep h [] [] rfl (old.length_toList.trans guid.length_toList.symm)
    (List.nil_append _).symm (List.replicate (sysfsPathMax - 33) 0)
  rw [← hterm, guid.length_toList] at hall
  exact Vector.toList_inj.mp hall

end Octets

section Exact

variable (sizes : Nat → Nat) (path : String)

/-- The text of a GUID is read as this GUID, and everything else is an error that leaves the output
as it is. -/
def GuidExact (content : List UInt8) (old : FpgaGuid) : Prop :=
  let r := sysfsReadGuid (inPieces sizes) path old ⟨content, 0, 0⟩
  (r.1 = .ok ↔ ∃ guid, GuidText content guid) ∧
    (∀ guid, GuidText content guid → r.2.1 = guid) ∧ (r.1 ≠ .ok → r.2.1 = old)

variable {content : List UInt8}

theorem goes_at_start (content : List UInt8) : ¬Stops content 0 := by
  rintro (h | h)
  · exact nomatch h
  · exact absurd h (by decide)

theorem readLoop_guidText {guid : FpgaGuid} (h : GuidText content guid) :
    (readLoop (inPieces sizes) 3 [] ⟨content, 0, 0⟩).1 = some content := by
  obtain ⟨digits, last, rfl, hlast, hoctets⟩ := h
  have hlen := hoctets.length_eq
  rw [guid.length_toList] at hlen
  exact readLoop_line sizes hoctets.clean hlast (hlen ▸ by decide) 3 0

theorem sysfsReadGuid_inPieces (content : List UInt8) (old : FpgaGuid) :
    ∃ s, sysfsReadGuid (inPieces sizes) path old ⟨content, 0, 0⟩ =
      match (readLoop (inPieces sizes) 3 [] ⟨content, 0, 0⟩).1 with
      | none => (.notFound, old, s)
      | some buf => (.ok, readOctets (terminated buf) old, s) := by
  generalize hr : readLoop (inPieces sizes) 3 [] ⟨content, 0, 0⟩ = r
  obtain ⟨buf, s⟩ := r
  refine ⟨s, ?_⟩
  rw [sysfsReadGuid]
  simp only [inPieces] at hr ⊢
  rw [hr]
  cases buf <;> rfl

theorem ok_of_stops {k : Nat} (hk : Stops content (standing sizes ⟨content, 0, 0⟩ k))
    (old : FpgaGuid) : (sysfsReadGuid (inPieces sizes) path old ⟨content, 0, 0⟩).1 = .ok := by
  obtain ⟨s, hread⟩ := sysfsReadGuid_inPieces sizes path content old
  rcases readLoop_inPieces sizes 3 (s := ⟨content, 0, 0⟩) rfl (Nat.zero_le _)
    (goes_at_start content) with ⟨j, -, hloop⟩ | ⟨hnone, -⟩
  · have hloop : (readLoop (inPieces sizes) 3 [] ⟨content, 0, 0⟩).1 = some _ := hloop
    rw [hread, hloop]
  · exact absurd hk (hnone k)

theorem guidExact_of_guidText {guid : FpgaGuid} (h : GuidText content guid) (old : FpgaGuid) :
    GuidExact sizes path content old := by
  obtain ⟨s, hread⟩ := sysfsReadGuid_inPieces sizes path content old
  rw [readLoop_guidText sizes h] at hread
  rw [GuidExact, hread]
  refine ⟨iff_of_true rfl ⟨guid, h⟩, fun guid' h' => ?_, fun hne => absurd rfl hne⟩
  obtain ⟨digits, last, rfl, -, hoctets⟩ := h'
  exact readOctets_eq hoctets old last

theorem length_guidText {guid : FpgaGuid} (h : GuidText content guid) : content.length = 33 := by
  obtain ⟨digits, last, rfl, -, hoctets⟩ := h
  rw [List.length_append, hoctets.length_eq, guid.length_toList]
  rfl

/-- A GUID is read as it is spelled, and nothing else is read as one, just if there is one or the
reads stop nowhere: none ends behind a newline or a terminator or fills the buffer. -/
theorem guid_exact_iff (content : List UInt8) (old : FpgaGuid) :
    GuidExact sizes path content old ↔
      (∃ guid, GuidText content guid) ∨ ∀ k, ¬Stops content (standing sizes ⟨content, 0, 0⟩ k) := by
  constructor
  · intro h
    by_cases hstops : ∃ k, Stops content (standing sizes ⟨content, 0, 0⟩ k)
    · obtain ⟨k, hk⟩ := hstops
      exact .inl (h.1.mp (ok_of_stops sizes path hk old))
    · exact .inr fun k hk => hstops ⟨k, hk⟩
  · rintro (⟨guid, hguid⟩ | hnone)
    · exact guidExact_of_guidText sizes path hguid old
    · obtain ⟨s, hread⟩ := sysfsReadGuid_inPieces sizes path content old
      rcases readLoop_inPieces sizes 3 (s := ⟨content, 0, 0⟩) rfl (Nat.zero_le _)
        (goes_at_start content) with ⟨k, hk, -⟩ | ⟨-, hloop⟩
      · exact absurd hk (hnone k)
      · have hloop : (readLoop (inPieces sizes) 3 [] ⟨content, 0, 0⟩).1 = none := hloop
        have hno : ¬∃ guid, GuidText content guid := by
          rintro ⟨guid, hguid⟩
          exact nomatch hloop.symm.trans (readLoop_guidText sizes hguid)
        rw [hloop] at hread
        rw [GuidExact, hread]
        exact ⟨iff_of_false nofun hno, fun guid hguid => absurd ⟨guid, hguid⟩ hno, fun _ => rfl⟩

/-- An empty line is taken for a GUID. -/
theorem guid_of_empty_line :
    ¬GuidExact (fun _ => 0) "/sys/class/fpga/intel-fpga-dev.0/intel-fpga-port.0/afu_id" [10]
      (Vector.replicate 16 255) := by
  intro h
  have hstops : Stops [10] (standing (fun _ => 0) ⟨[10], 0, 0⟩ 1) := .inl rfl
  obtain ⟨guid, hguid⟩ := h.1.mp (ok_of_stops _ _ hstops _)
  exact absurd (length_guidText hguid) (by decide)

end Exact

end OpaeLibs.PluginXfpga.GuidTexts
