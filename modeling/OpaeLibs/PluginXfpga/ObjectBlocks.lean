import OpaeLibs.Lib.CStrings
import OpaeLibs.Lib.Ownership
import OpaeLibs.PluginXfpga.SysfsGlob

namespace OpaeLibs.PluginXfpga.ObjectBlocks

open OpaeLibs.Lib.CStrings OpaeLibs.Lib.Heap OpaeLibs.Lib.Ownership
open OpaeLibs.PluginXfpga.SysfsGlob (pathMax)
open OpaeLibs.PluginXfpga.SysfsObject (Perm)

/-- The blocks of the heap, with the bytes of texts and buffers. -/
abbrev Blocks := Prog (List UInt8)

/-- A pointer to a block, or `NULL`. -/
abbrev Ptr := Option Nat

/-- What all objects have; `self` is the block of the structure. -/
structure Header (η : Type) where
  self : Nat
  path : Ptr
  name : Ptr
  handle : Option η
  perm : Perm

inductive ContainerType
  | dir
  | list
deriving DecidableEq

/-- `struct _fpga_object`. A container has an array of pointers to its objects, which are none but
as many as its size, or `NULL` for the array. -/
inductive Obj (η : Type)
  | file (h : Header η) (buffer : Ptr) (size maxSize : Nat)
  | bare (h : Header η) (type : ContainerType)
  | container (h : Header η) (type : ContainerType) (array : Nat) (objects : List (Obj η))

section Code

variable {η : Type}

def cstrDup (mem : Nat → Bool) (str : Option CString) : Blocks Ptr :=
  match str with
  | none => pure none
  | some s => malloc mem (s.val.take (pathMax - 1))

/-- The three allocations have scripts of their own. -/
def allocFpgaObject (object pathDup nameDup : Nat → Bool) (sysfspath name : Option CString) :
    Blocks (Option (Header η)) := do
  match (← malloc object []) with
  | none => pure none
  | some self => do
    let path ← cstrDup pathDup sysfspath
    let name ← cstrDup nameDup name
    pure (some ⟨self, path, name, none, .rdonly⟩)

mutual

def destroyFpgaObject : Obj η → Blocks Unit
  | .file h buffer _ _ => do
    free h.path
    free h.name
    free buffer
    free (some h.self)
  | .bare h _ => do
    free h.path
    free h.name
    free (some h.self)
  | .container h _ array objects => do
    free h.path
    free h.name
    destroyObjects objects
    free (some array)
    free (some h.self)

/-- From the last object on. -/
def destroyObjects : List (Obj η) → Blocks Unit
  | [] => pure ()
  | o :: os => do
    destroyObjects os
    destroyFpgaObject o

end

end Code

section Owned

variable {η : Type}

def Header.blocks (h : Header η) : List Nat := h.path.toList ++ (h.name.toList ++ [h.self])

mutual

/-- The blocks of an object and of its objects. -/
def Obj.blocks : Obj η → List Nat
  | .file h buffer _ _ => h.path.toList ++ (h.name.toList ++ (buffer.toList ++ [h.self]))
  | .bare h _ => h.blocks
  | .container h _ array objects =>
    h.path.toList ++ (h.name.toList ++ (blocksOf objects ++ [array, h.self]))

def blocksOf : List (Obj η) → List Nat
  | [] => []
  | o :: os => blocksOf os ++ o.blocks

end

variable {base : Slots (List UInt8)}

theorem runs_freeBlock {s : Store (List UInt8)} {ids : List Nat} {i : Nat}
    (h : Owns base s (i :: ids)) :
    Runs (free (some i)) s fun _ s' => Owns base s' ids := runs_free h

mutual

theorem runs_destroyFpgaObject {s : Store (List UInt8)} {ids : List Nat} (o : Obj η)
    (h : Owns base s (o.blocks ++ ids)) :
    Runs (destroyFpgaObject o) s fun _ s' => Owns base s' ids := by
  cases o with
  | file hd buffer size maxSize =>
    rw [Obj.blocks, List.append_assoc, List.append_assoc, List.append_assoc] at h
    refine (runs_free h).bind fun _ s h => ?_
    refine (runs_free h).bind fun _ s h => ?_
    exact (runs_free h).bind fun _ s h => runs_freeBlock h
  | bare hd type =>
    rw [Obj.blocks, Header.blocks, List.append_assoc, List.append_assoc] at h
    refine (runs_free h).bind fun _ s h => ?_
    exact (runs_free h).bind fun _ s h => runs_freeBlock h
  | container hd type array objects =>
    rw [Obj.blocks, List.append_assoc, List.append_assoc, List.append_assoc] at h
    refine (runs_free h).bind fun _ s h => ?_
    refine (runs_free h).bind fun _ s h => ?_
    refine (runs_destroyObjects objects h).bind fun _ s h => ?_
    exact (runs_freeBlock h).bind fun _ s h => runs_freeBlock h

theorem runs_destroyObjects {s : Store (List UInt8)} {ids : List Nat} (os : List (Obj η))
    (h : Owns base s (blocksOf os ++ ids)) :
    Runs (destroyObjects os) s fun _ s' => Owns base s' ids := by
  cases os with
  | nil => exact .pure h
  | cons o os =>
    rw [blocksOf, List.append_assoc] at h
    exact (runs_destroyObjects os h).bind fun _ s h => runs_destroyFpgaObject o h

end

theorem perm_container (h : Header η) (type : ContainerType) {array : Nat}
    {objects : List (Obj η)} :
    (blocksOf objects ++ (array :: h.blocks)).Perm
      (Obj.container h type array objects).blocks := by
  rw [Obj.blocks, Header.blocks]
  change (blocksOf objects ++ ([array] ++ (h.path.toList ++ (h.name.toList ++ [h.self])))).Perm
    (h.path.toList ++ (h.name.toList ++ (blocksOf objects ++ ([array] ++ [h.self]))))
  rw [List.perm_iff_count]
  intro x
  simp only [List.count_append]
  omega

theorem perm_file (h : Header η) (buffer : Ptr) {size maxSize : Nat} :
    (buffer.toList ++ h.blocks).Perm (Obj.file h buffer size maxSize).blocks := by
  rw [Obj.blocks, Header.blocks, List.perm_iff_count]
  intro x
  simp only [List.count_append]
  omega

theorem blocks_file_ne_nil (h : Header η) (buffer : Ptr) (size maxSize : Nat) :
    (Obj.file h buffer size maxSize).blocks ≠ [] := by
  have hmem : h.self ∈ buffer.toList ++ h.blocks :=
    List.mem_append_right _ (List.mem_append_right _
      (List.mem_append_right _ (List.mem_singleton_self _)))
  exact List.ne_nil_of_mem ((perm_file h buffer).mem_iff.mp hmem)

end Owned

section Allocation

variable {η : Type} {s : Store (List UInt8)}

/-- A copy of a text, if there is one and memory for it. -/
def copied (served : Bool) (str : Option CString) : Option (List UInt8) :=
  if served then str.map fun t => t.val.take (pathMax - 1) else none

theorem runs_cstrDup (mem : Nat → Bool) (str : Option CString) (s : Store (List UInt8)) :
    Runs (cstrDup mem str) s fun p s' => s'.calls = s.calls + str.toList.length ∧
      Owns s.heap s' p.toList ∧ p.map s'.heap.get = (copied (mem s.calls) str).map some := by
  cases str with
  | none =>
    refine .pure ⟨rfl, owns_self s, ?_⟩
    rw [copied]
    split <;> rfl
  | some t =>
    refine (runs_malloc_self mem _ s).imp fun p s' h => ⟨h.1, h.2.1, h.2.2.trans ?_⟩
    rw [copied]
    split <;> rfl

/-- What `alloc_fpga_object` leaves if it does not fail. -/
structure Allocated (pathDup nameDup : Nat → Bool) (sysfspath name : Option CString)
    (s s' : Store (List UInt8)) (h : Header η) : Prop where
  owns : Owns s.heap s' h.blocks
  pathText : h.path.map s'.heap.get = (copied (pathDup (s.calls + 1)) sysfspath).map some
  nameText : h.name.map s'.heap.get =
    (copied (nameDup (s.calls + 1 + sysfspath.toList.length)) name).map some
  calls : s'.calls = s.calls + 1 + sysfspath.toList.length + name.toList.length

theorem runs_allocFpgaObject (object pathDup nameDup : Nat → Bool)
    (sysfspath name : Option CString) (s : Store (List UInt8)) :
    Runs (allocFpgaObject object pathDup nameDup sysfspath name) s
      fun (r : Option (Header η)) s' =>
        object s.calls = false ∧ r = none ∧ Owns s.heap s' [] ∨
        object s.calls = true ∧ ∃ h, r = some h ∧
          Allocated pathDup nameDup sysfspath name s s' h := by
  refine (runs_malloc_self object [] s).bind fun self s₁ hself => ?_
  obtain ⟨hcalls₁, howns₁, hget₁⟩ := hself
  cases hobject : object s.calls with
  | false =>
    rw [hobject, if_neg Bool.false_ne_true, Option.map_eq_none_iff] at hget₁
    subst hget₁
    exact .pure (.inl ⟨rfl, rfl, howns₁⟩)
  | true =>
    rw [hobject, if_pos rfl] at hget₁
    obtain ⟨self, rfl, hself⟩ := Option.map_eq_some_iff.mp hget₁
    refine (runs_cstrDup pathDup sysfspath s₁).bind fun path s₂ hpath => ?_
    obtain ⟨hcalls₂, howns₂, hget₂⟩ := hpath
    refine (runs_cstrDup nameDup name s₂).bind fun nm s₃ hname => ?_
    obtain ⟨hcalls₃, howns₃, hget₃⟩ := hname
    have howns := (howns₁.trans howns₂).trans howns₃
    refine .pure (.inr ⟨rfl, ⟨self, path, nm, none, .rdonly⟩, rfl, ?_, ?_, ?_, ?_⟩)
    · refine howns.perm ?_
      rw [Header.blocks, ← List.append_assoc, ← List.append_assoc]
      exact List.Perm.append_right _ List.perm_append_comm
    · rw [← hcalls₁, ← hget₂]
      refine Option.map_congr fun i hi => howns₃.older i ?_
      exact howns₂.lt_next (Option.mem_toList.mpr hi)
    · rw [hget₃, hcalls₂, hcalls₁]
    · rw [hcalls₃, hcalls₂, hcalls₁]

end Allocation

end OpaeLibs.PluginXfpga.ObjectBlocks
