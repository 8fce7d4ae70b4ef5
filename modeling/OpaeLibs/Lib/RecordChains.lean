import OpaeLibs.Lib.Bytes
import OpaeLibs.Lib.Loops

namespace OpaeLibs.Lib.RecordChains

open OpaeLibs.Lib.Bytes OpaeLibs.Lib.Loops

/-- The number in the `n` bytes from an offset on, the low byte first. Nothing stands past the end
of the buffer. -/
def readLe (buf : List UInt8) (off n : Nat) : Option Nat :=
  if off + n ≤ buf.length then some (ofLe ((buf.drop off).take n)) else none

/-- The header of a record: 2 bytes of id, 2 of version and 4 that say where the next record
stands, or 0. -/
def recordId (buf : List UInt8) (off : Nat) : Option Nat := readLe buf off 2

def recordNext (buf : List UInt8) (off : Nat) : Option Nat := readLe buf (off + 4) 4

/-- A table has the number of its entries after the header, and the entries from the 16th byte on,
each of two words. -/
def tableCount (buf : List UInt8) (off : Nat) : Option Nat := readLe buf (off + 8) 4

def tableEntry (buf : List UInt8) (off i : Nat) : Option (UInt64 × UInt64) := do
  let first ← readLe buf (off + 16 + 16 * i) 8
  let second ← readLe buf (off + 16 + 16 * i + 8) 8
  return (UInt64.ofNat first, UInt64.ofNat second)

/-- The `n` entries from the `i`th on. -/
def tableEntries (buf : List UInt8) (off : Nat) : Nat → Nat → Option (List (UInt64 × UInt64))
  | 0, _ => some []
  | n + 1, i => do
    let entry ← tableEntry buf off i
    let rest ← tableEntries buf off n (i + 1)
    return entry :: rest

def table (buf : List UInt8) (off : Nat) : Option (List (UInt64 × UInt64)) := do
  let count ← tableCount buf off
  tableEntries buf off count 0

inductive Record
  | table (entries : List (UInt64 × UInt64))
  | other
deriving DecidableEq

def Record.entries : Record → List (UInt64 × UInt64)
  | .table entries => entries
  | .other => []

section

variable (tag : Nat) (buf : List UInt8)

/-- What stands at an offset, where `tag` is the id of the tables. -/
def record (off : Nat) : Option Record := do
  let id ← recordId buf off
  if id = tag then (RecordChains.table buf off).map .table else some .other

/-- The records of the chain that starts at an offset. -/
inductive Chain : Nat → List Record → Prop
  | last {off r} : record tag buf off = some r → recordNext buf off = some 0 → Chain off [r]
  | link {off next r rs} : record tag buf off = some r → recordNext buf off = some next →
      next ≠ 0 → Chain next rs → Chain off (r :: rs)

/-- The records of a reply that says whether it has a chain and where that starts. Where there was
no room for the chain, the start is 0. -/
inductive Announces (caps : Bool) (first : Nat) : List Record → Prop
  | absent : caps = false ∨ first = 0 → Announces caps first []
  | chain {rs} : caps = true → first ≠ 0 → Chain tag buf first rs → Announces caps first rs

end

section

variable {tag : Nat} {buf : List UInt8} {off : Nat} {rs : List Record}

theorem Chain.ne_nil (h : Chain tag buf off rs) : rs ≠ [] := by
  cases h <;> exact List.cons_ne_nil _ _

theorem Chain.head (h : Chain tag buf off rs) : record tag buf off = rs.head? := by
  cases h with
  | last hrecord _ => exact hrecord
  | link hrecord _ _ _ => exact hrecord

theorem Chain.unique (h : Chain tag buf off rs) {rs' : List Record} (h' : Chain tag buf off rs') :
    rs = rs' := by
  induction h generalizing rs' with
  | last hrecord hnext =>
    cases h' with
    | last hrecord' _ => rw [Option.some.inj (hrecord.symm.trans hrecord')]
    | link _ hnext' hne _ => exact absurd (Option.some.inj (hnext'.symm.trans hnext)) hne
  | link hrecord hnext hne _ ih =>
    cases h' with
    | last _ hnext' => exact absurd (Option.some.inj (hnext.symm.trans hnext')) hne
    | link hrecord' hnext' _ hrest =>
      obtain rfl := Option.some.inj (hnext.symm.trans hnext')
      rw [Option.some.inj (hrecord.symm.trans hrecord'), ih hrest]

end

section

variable {σ : Type}

/-- A round of a loop that visits the records of a chain one after the other. -/
def visitStep (visit : Nat → σ → Option σ) (buf : List UInt8) (p : Nat × σ) :
    Option ((Nat × σ) ⊕ σ) := do
  let s ← visit p.1 p.2
  let next ← recordNext buf p.1
  if next = 0 then some (.inr s) else some (.inl (next, s))

variable {visit : Nat → σ → Option σ} {buf : List UInt8} {f : σ → Record → σ} {tag : Nat}

theorem visitStep_eq (hvisit : ∀ off s, visit off s = (record tag buf off).map (f s)) (off : Nat)
    (s : σ) : visitStep visit buf (off, s) =
      (record tag buf off).bind fun r => (recordNext buf off).bind fun next =>
        if next = 0 then some (.inr (f s r)) else some (.inl (next, f s r)) := by
  rw [visitStep, hvisit]
  cases record tag buf off <;> rfl

theorem ends_visit_iff (hvisit : ∀ off s, visit off s = (record tag buf off).map (f s)) {off : Nat}
    {s t : σ} : Ends (visitStep visit buf) (off, s) t ↔
      ∃ rs, Chain tag buf off rs ∧ rs.foldl f s = t := by
  constructor
  · intro h
    generalize hp : (off, s) = p at h
    induction h generalizing off s with
    | done hstep =>
      subst hp
      rw [visitStep_eq hvisit] at hstep
      obtain ⟨r, hrecord, hstep⟩ := Option.bind_eq_some_iff.mp hstep
      obtain ⟨next, hnext, hstep⟩ := Option.bind_eq_some_iff.mp hstep
      split at hstep
      · next hzero =>
        obtain rfl := Sum.inr.inj (Option.some.inj hstep)
        exact ⟨[r], .last hrecord (hzero ▸ hnext), rfl⟩
      · exact nomatch Option.some.inj hstep
    | next hstep _ ih =>
      subst hp
      rw [visitStep_eq hvisit] at hstep
      obtain ⟨r, hrecord, hstep⟩ := Option.bind_eq_some_iff.mp hstep
      obtain ⟨next, hnext, hstep⟩ := Option.bind_eq_some_iff.mp hstep
      split at hstep
      · exact nomatch Option.some.inj hstep
      · next hne =>
        obtain ⟨rs, hchain, hfold⟩ := ih (Sum.inl.inj (Option.some.inj hstep))
        exact ⟨r :: rs, .link hrecord hnext hne hchain, hfold⟩
  · rintro ⟨rs, hchain, rfl⟩
    induction hchain generalizing s with
    | last hrecord hnext =>
      apply Ends.done
      rw [visitStep_eq hvisit, hrecord, hnext]
      rfl
    | link hrecord hnext hne _ ih =>
      refine Ends.next ?_ ih
      rw [visitStep_eq hvisit, hrecord, hnext, Option.bind_some, Option.bind_some, if_neg hne]

end

end OpaeLibs.Lib.RecordChains
