import OpaeLibs.Opaemem.Conservation

namespace OpaeLibs.Opaemem.Atomicity

open OpaeLibs.Opaemem.Allocator OpaeLibs.Opaemem.FreeList OpaeLibs.Opaemem.Invariant
open OpaeLibs.Opaemem.Conservation

/-- The code's result and what a call leaves; `malloc` is the outcome of the one allocation that it
may ask for. -/
def perform (malloc : Bool) (m : MemAlloc) : Call → Int × MemAlloc
  | .addFree address size => memAllocAddFree malloc m address size
  | .get size =>
    match memAllocGet malloc m size with
    | (.ok _, m) => (0, m)
    | (.error res, m) => (res, m)
  | .put address => memAllocPut malloc m address

/-- A call that fails leaves both lists as they were. -/
def Atomic (malloc : Bool) (m : MemAlloc) (c : Call) : Prop :=
  (perform malloc m c).1 ≠ 0 → (perform malloc m c).2 = m

theorem memAllocAddFree_cases (malloc : Bool) (m : MemAlloc) (address size : UInt64) :
    (malloc = true ∧ (∀ p ∈ m.free.head?, p.address ≠ address) ∧
      (memAllocAddFree malloc m address size).1 = 0) ∨
    ((malloc = false ∨ ∃ p ∈ m.free.head?, p.address = address) ∧
      ∃ res, res ≠ 0 ∧ memAllocAddFree malloc m address size = (res, m)) := by
  unfold memAllocAddFree
  cases malloc with
  | false => exact .inr ⟨.inl rfl, 1, by decide, rfl⟩
  | true =>
    cases hfree : m.free with
    | nil => exact .inl ⟨rfl, by simp, rfl⟩
    | cons p rest =>
      by_cases hlt : address < p.address
      · refine .inl ⟨rfl, ?_, by simp [memLinkAlloc, hlt]⟩
        rintro q hq rfl
        obtain rfl := Option.some.inj hq
        exact UInt64.lt_irrefl _ hlt
      · by_cases heq : address = p.address
        · exact .inr ⟨.inr ⟨p, rfl, heq.symm⟩, 2, by decide, by simp [memLinkAlloc, heq]⟩
        · refine .inl ⟨rfl, ?_, by simp [memLinkAlloc, hlt, heq]⟩
          rintro q hq rfl
          obtain rfl := Option.some.inj hq
          exact heq rfl

/-- A block that is put back gets a new node, and it does not start where the first free block
does. -/
def Reinserts (malloc : Bool) (m : MemAlloc) : Call → Prop
  | .put address => (∃ p ∈ m.allocated, p.address = address) →
      malloc = true ∧ ∀ p ∈ m.free.head?, p.address ≠ address
  | _ => True

theorem put_atomic_iff (malloc : Bool) (m : MemAlloc) (address : UInt64) :
    Atomic malloc m (.put address) ↔ Reinserts malloc m (.put address) := by
  obtain ⟨hnone, hput⟩ | ⟨before, p, after, hallocated, rfl, -, hput⟩ :=
    memAllocPut_cases malloc m address
  · constructor
    · rintro - ⟨p, hp, hpa⟩
      exact absurd hpa (hnone p hp)
    · intro _ _
      rw [perform, hput]
  · have hp : p ∈ m.allocated := by rw [hallocated]; simp
    have hlost : { m with allocated := before ++ after } ≠ m := by
      intro h
      have hlen := congrArg (List.length ∘ MemAlloc.allocated) h
      simp [hallocated] at hlen
    obtain ⟨hmalloc, hfirst, hok⟩ | ⟨hfail, res, hres, heq⟩ :=
      memAllocAddFree_cases malloc { m with allocated := before ++ after } p.address p.size
    · constructor
      · intro _ _
        exact ⟨hmalloc, hfirst⟩
      · intro _ hne
        rw [perform, hput] at hne
        exact absurd hok hne
    · constructor
      · intro hatomic
        rw [Atomic, perform, hput, heq] at hatomic
        exact absurd (hatomic hres) hlost
      · intro hreinserts
        obtain ⟨hmalloc, hfirst⟩ := hreinserts ⟨p, hp, rfl⟩
        obtain hfalse | ⟨q, hq, hqa⟩ := hfail
        · exact absurd (hmalloc.symm.trans hfalse) nofun
        · exact absurd hqa (hfirst q hq)

/-- A failing call changes nothing, except that one that cannot put a block back has lost it. -/
theorem atomic_iff (malloc : Bool) (m : MemAlloc) (c : Call) :
    Atomic malloc m c ↔ Reinserts malloc m c := by
  cases c with
  | addFree address size =>
    refine iff_of_true (fun hne => ?_) trivial
    rw [perform] at hne ⊢
    obtain ⟨-, -, hok⟩ | ⟨-, res, -, heq⟩ := memAllocAddFree_cases malloc m address size
    · exact absurd hok hne
    · rw [heq]
  | get size =>
    refine iff_of_true (fun hne => ?_) trivial
    rw [perform] at hne ⊢
    cases hget : memAllocGet malloc m size with
    | mk r m' =>
      rw [hget] at hne
      cases r with
      | ok a => exact absurd rfl hne
      | error res => exact memAllocGet_error hget
  | put address => exact put_atomic_iff malloc m address

/-- Without memory for a new node the block that is put is on neither list. -/
theorem put_loses_block : ¬∀ malloc m c, Atomic malloc m c := by
  intro h
  have hput := h false ⟨[], [⟨0x1000, 0x1000⟩]⟩ (.put 0x1000) (by decide)
  exact absurd hput (by decide)

end OpaeLibs.Opaemem.Atomicity
