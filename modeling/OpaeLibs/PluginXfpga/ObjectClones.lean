import OpaeLibs.PluginXfpga.ObjectBlocks

namespace OpaeLibs.PluginXfpga.ObjectClones

open OpaeLibs.Lib.CStrings OpaeLibs.Lib.Heap OpaeLibs.Lib.Ownership OpaeLibs.OpaeC.Props
  OpaeLibs.PluginXfpga.ObjectBlocks
open OpaeLibs.PluginXfpga.SysfsGlob (pathMax)
open OpaeLibs.PluginXfpga.SysfsObject (Perm)

/-- A text that `cstr_dup` copies as a whole, as it has been copied before. -/
abbrev Text := { s : CString // s.val.length < pathMax }

structure Attrs (η : Type) where
  path : Option Text
  name : Option Text
  handle : Option η
  perm : Perm

/-- The buffer is a page, or `NULL` if there was no memory for it. -/
structure Contents where
  size : Nat
  maxSize : Nat
  page : 0 < maxSize
  buffer : Option { b : List UInt8 // b.length = maxSize }

/-- The objects that there are to clone. -/
inductive SourceTree (η : Type)
  | file (a : Attrs η) (c : Contents)
  | container (a : Attrs η) (type : ContainerType) (objects : List (SourceTree η))

section Code

variable {η : Type} (mem : Nat → Bool)

/-- What is stored in `*dst`: nothing, `NULL` or an object. -/
abbrev Stored (η : Type) := Option (Option (Obj η))

def allocFrom (a : Attrs η) : Blocks (Option (Header η)) :=
  allocFpgaObject mem mem mem (a.path.map Subtype.val) (a.name.map Subtype.val)

def memcpy (dst : Ptr) (src : Option (List UInt8)) : Blocks Unit :=
  match src with
  | none => fault
  | some b => write dst b

mutual

def xfpgaFpgaCloneObject : SourceTree η → Blocks (FpgaResult × Stored η)
  | .file a c => do
    match (← allocFrom mem a) with
    | none => pure (.noMemory, none)
    | some h => do
      let buffer ← malloc mem (List.replicate c.maxSize 0)
      memcpy buffer (c.buffer.map Subtype.val)
      pure (.ok, some (some
        (.file { h with handle := a.handle, perm := a.perm } buffer c.size c.maxSize)))
  | .container a type objects => do
    match (← allocFrom mem a) with
    | none => pure (.noMemory, none)
    | some h => do
      let h := { h with handle := a.handle, perm := a.perm }
      match (← malloc mem []) with
      | none => do
        destroyFpgaObject (.bare h type)
        pure (.noMemory, some none)
      | some array => do
        let r ← cloneObjects objects
        if r.1 ≠ .ok then do
          destroyFpgaObject (.container h type array r.2)
          pure (r.1, some none)
        else pure (.ok, some (some (.container h type array r.2)))

/-- The objects that are cloned when it ends. -/
def cloneObjects : List (SourceTree η) → Blocks (FpgaResult × List (Obj η))
  | [] => pure (.ok, [])
  | t :: ts => do
    let r ← xfpgaFpgaCloneObject t
    if r.1 ≠ .ok then pure (r.1, [])
    else do
      let q ← cloneObjects ts
      pure (q.1, r.2.join.toList ++ q.2)

end

end Code

section Equality

variable {η : Type} (s : Store (List UInt8))

/-- A pointer to a text, or `NULL` where there is none. -/
def Points (p : Ptr) (text : Option (List UInt8)) : Prop := p.map s.heap.get = text.map some

structure HeaderEquals (a : Attrs η) (h : Header η) : Prop where
  pathText : Points s h.path (a.path.map fun t => t.val.val)
  nameText : Points s h.name (a.name.map fun t => t.val.val)
  handle : h.handle = a.handle
  perm : h.perm = a.perm

mutual

/-- An object with all that another one has. -/
def Equals : SourceTree η → Obj η → Prop
  | .file a c, .file h buffer size maxSize =>
    HeaderEquals s a h ∧ Points s buffer (c.buffer.map Subtype.val) ∧ size = c.size ∧
      maxSize = c.maxSize
  | .container a type objects, .container h type' _ objects' =>
    HeaderEquals s a h ∧ type' = type ∧ AllEqual objects objects'
  | _, _ => False

def AllEqual : List (SourceTree η) → List (Obj η) → Prop
  | [], [] => True
  | t :: ts, o :: os => Equals t o ∧ AllEqual ts os
  | _, _ => False

end

/-- A clone is made as a whole, of blocks of its own, or nothing is left. `null` is whether `*dst`
was `NULL` before. -/
def Cloned (mem : Nat → Bool) (t : SourceTree η) (null : Prop) : Prop :=
  Runs (xfpgaFpgaCloneObject mem t) s fun r s' =>
    (r.1 = .ok ∧ ∃ o, r.2 = some (some o) ∧ Owns s.heap s' o.blocks ∧ Equals s' t o) ∨
    (r.1 ≠ .ok ∧ (r.2 = some none ∨ r.2 = none ∧ null) ∧ Released s.heap s')

end Equality

section Requests

/-- The allocations that a clone asks for; of a buffer, whether there is one to copy to it. -/
inductive Request
  | object
  | text
  | buffer (source : Bool)
  | array

variable {η : Type}

def Attrs.requests (a : Attrs η) : List Request :=
  a.path.toList.map (fun _ => .text) ++ a.name.toList.map fun _ => .text

mutual

def requests : SourceTree η → List Request
  | .file a c => .object :: (a.requests ++ [.buffer c.buffer.isSome])
  | .container a _ objects => .object :: (a.requests ++ .array :: allRequests objects)

def allRequests : List (SourceTree η) → List Request
  | [] => []
  | t :: ts => requests t ++ allRequests ts

end

/-- An allocation without which the clone is given up. -/
def Request.Stopping : Request → Prop
  | .object | .array => True
  | _ => False

/-- If it is for a buffer, it is made and there is a buffer to copy. -/
def Request.Copyable (served : Bool) : Request → Prop
  | .buffer source => served = true ∧ source = true
  | _ => True

/-- The clone is given up, and no buffer that cannot be copied comes before. -/
def GivenUp (mem : Nat → Bool) (calls : Nat) (rs : List Request) : Prop :=
  ∃ k r, rs[k]? = some r ∧ r.Stopping ∧ mem (calls + k) = false ∧
    ∀ j < k, ∀ q, rs[j]? = some q → q.Copyable (mem (calls + j))

/-- All of the allocations are made, and there is a buffer to copy for each that is copied. -/
def AllServed (mem : Nat → Bool) (calls : Nat) (rs : List Request) : Prop :=
  ∀ k r, rs[k]? = some r → mem (calls + k) = true ∧ r.Copyable true

/-- What comes of the allocations, but for the texts. -/
inductive Verdict
  | done
  | stopped
  | faulted
deriving DecidableEq

def verdict (mem : Nat → Bool) : Nat → List Request → Verdict
  | _, [] => .done
  | calls, .object :: rs => if mem calls then verdict mem (calls + 1) rs else .stopped
  | calls, .array :: rs => if mem calls then verdict mem (calls + 1) rs else .stopped
  | calls, .text :: rs => verdict mem (calls + 1) rs
  | calls, .buffer source :: rs =>
    if mem calls && source then verdict mem (calls + 1) rs else .faulted

def TextsServed (mem : Nat → Bool) (calls : Nat) (rs : List Request) : Prop :=
  ∀ k r, rs[k]? = some r → r = .text → mem (calls + k) = true

end Requests

section Verdicts

variable {mem : Nat → Bool} {calls : Nat} {r : Request} {rs : List Request}

theorem forall_cons (P : Nat → Request → Prop) :
    (∀ k q, (r :: rs)[k]? = some q → P (calls + k) q) ↔
      P calls r ∧ ∀ k q, rs[k]? = some q → P (calls + 1 + k) q := by
  constructor
  · intro h
    refine ⟨h 0 r rfl, fun k q hq => ?_⟩
    rw [Nat.add_assoc, Nat.add_comm 1]
    exact h (k + 1) q hq
  · rintro ⟨hhead, htail⟩ k q hq
    cases k with
    | zero => exact Option.some.inj hq ▸ hhead
    | succ k =>
      have h := htail k q hq
      rwa [Nat.add_assoc, Nat.add_comm 1] at h

theorem textsServed_cons :
    TextsServed mem calls (r :: rs) ↔
      (r = .text → mem calls = true) ∧ TextsServed mem (calls + 1) rs :=
  forall_cons fun c q => q = .text → mem c = true

theorem textsServed_append (as bs : List Request) :
    TextsServed mem calls (as ++ bs) ↔
      TextsServed mem calls as ∧ TextsServed mem (calls + as.length) bs := by
  induction as generalizing calls with
  | nil => exact ⟨fun h => ⟨fun _ _ hq => (nomatch hq), h⟩, fun h => h.2⟩
  | cons a as ih =>
    rw [List.cons_append, textsServed_cons, textsServed_cons, ih, and_assoc, List.length_cons,
      Nat.add_assoc, Nat.add_comm 1]

theorem allServed_cons :
    AllServed mem calls (r :: rs) ↔
      (mem calls = true ∧ r.Copyable true) ∧ AllServed mem (calls + 1) rs :=
  forall_cons fun c q => mem c = true ∧ q.Copyable true

theorem givenUp_cons :
    GivenUp mem calls (r :: rs) ↔ r.Stopping ∧ mem calls = false ∨
      r.Copyable (mem calls) ∧ GivenUp mem (calls + 1) rs := by
  constructor
  · rintro ⟨k, q, hq, hstop, hmem, hbefore⟩
    cases k with
    | zero =>
      obtain rfl := Option.some.inj hq
      exact .inl ⟨hstop, hmem⟩
    | succ k =>
      refine .inr ⟨hbefore 0 (Nat.succ_pos k) r rfl, k, q, hq, hstop, ?_, fun j hj p hp => ?_⟩
      · rwa [Nat.add_assoc, Nat.add_comm 1]
      · rw [Nat.add_assoc, Nat.add_comm 1]
        exact hbefore (j + 1) (Nat.succ_lt_succ hj) p hp
  · rintro (⟨hstop, hmem⟩ | ⟨hcopy, k, q, hq, hstop, hmem, hbefore⟩)
    · exact ⟨0, r, rfl, hstop, hmem, fun j hj => absurd hj (Nat.not_lt_zero j)⟩
    · rw [Nat.add_assoc, Nat.add_comm 1] at hmem
      refine ⟨k + 1, q, hq, hstop, hmem, fun j hj p hp => ?_⟩
      cases j with
      | zero => exact Option.some.inj hp ▸ hcopy
      | succ j =>
        have h := hbefore j (Nat.lt_of_succ_lt_succ hj) p hp
        rwa [Nat.add_assoc, Nat.add_comm 1] at h

theorem not_givenUp_nil : ¬GivenUp mem calls [] := by
  rintro ⟨k, q, hq, -⟩
  exact nomatch hq

/-- What comes of one allocation: the clone goes on with the others, is given up or faults. -/
theorem verdict_cons (mem : Nat → Bool) (calls : Nat) (r : Request) :
    (r.Copyable (mem calls) ∧ (r.Stopping → mem calls = true) ∧
        ∀ rs, verdict mem calls (r :: rs) = verdict mem (calls + 1) rs) ∨
      (r.Stopping ∧ mem calls = false ∧ ∀ rs, verdict mem calls (r :: rs) = .stopped) ∨
      (¬r.Stopping ∧ ¬r.Copyable (mem calls) ∧ ∀ rs, verdict mem calls (r :: rs) = .faulted) := by
  cases r with
  | object =>
    cases hmem : mem calls with
    | false => exact .inr (.inl ⟨trivial, rfl, fun rs => by rw [verdict, hmem]; rfl⟩)
    | true => exact .inl ⟨trivial, fun _ => rfl, fun rs => by rw [verdict, if_pos hmem]⟩
  | array =>
    cases hmem : mem calls with
    | false => exact .inr (.inl ⟨trivial, rfl, fun rs => by rw [verdict, hmem]; rfl⟩)
    | true => exact .inl ⟨trivial, fun _ => rfl, fun rs => by rw [verdict, if_pos hmem]⟩
  | text => exact .inl ⟨trivial, nofun, fun rs => by rw [verdict]⟩
  | buffer source =>
    by_cases hcopy : (mem calls && source) = true
    · exact .inl ⟨Bool.and_eq_true_iff.mp hcopy, nofun, fun rs => by rw [verdict, if_pos hcopy]⟩
    · exact .inr (.inr ⟨nofun, fun h => hcopy (Bool.and_eq_true_iff.mpr h),
        fun rs => by rw [verdict, if_neg hcopy]⟩)

theorem served_iff {served : Bool} :
    served = true ∧ r.Copyable true ↔
      r.Copyable served ∧ (r.Stopping → served = true) ∧ (r = .text → served = true) := by
  cases r with
  | object => exact ⟨fun h => ⟨trivial, fun _ => h.1, nofun⟩, fun h => ⟨h.2.1 trivial, trivial⟩⟩
  | array => exact ⟨fun h => ⟨trivial, fun _ => h.1, nofun⟩, fun h => ⟨h.2.1 trivial, trivial⟩⟩
  | text => exact ⟨fun h => ⟨trivial, nofun, fun _ => h.1⟩, fun h => ⟨h.2.2 rfl, trivial⟩⟩
  | buffer source =>
    exact ⟨fun h => ⟨⟨h.1, h.2.2⟩, nofun, nofun⟩, fun h => ⟨h.1.1, rfl, h.1.2⟩⟩

theorem verdict_stopped_iff : verdict mem calls rs = .stopped ↔ GivenUp mem calls rs := by
  induction rs generalizing calls with
  | nil => exact iff_of_false nofun not_givenUp_nil
  | cons r rs ih =>
    rw [givenUp_cons, ← ih]
    obtain ⟨hcopy, hmem, heq⟩ | ⟨hstop, hmem, heq⟩ | ⟨hstop, hcopy, heq⟩ :=
      verdict_cons mem calls r
    · have hgoes : ¬(r.Stopping ∧ mem calls = false) := fun h =>
        nomatch (hmem h.1).symm.trans h.2
      rw [heq, or_iff_right hgoes, and_iff_right hcopy]
    · exact iff_of_true (heq rs) (.inl ⟨hstop, hmem⟩)
    · rw [heq]
      refine iff_of_false nofun ?_
      rintro (⟨hstop', -⟩ | ⟨hcopy', -⟩)
      · exact hstop hstop'
      · exact hcopy hcopy'

theorem allServed_iff :
    AllServed mem calls rs ↔ verdict mem calls rs = .done ∧ TextsServed mem calls rs := by
  induction rs generalizing calls with
  | nil => exact iff_of_true (fun _ _ hq => (nomatch hq)) ⟨rfl, fun _ _ hq => (nomatch hq)⟩
  | cons r rs ih =>
    rw [allServed_cons, textsServed_cons, ih, served_iff]
    obtain ⟨hcopy, hmem, heq⟩ | ⟨hstop, hmem, heq⟩ | ⟨-, hcopy, heq⟩ := verdict_cons mem calls r
    · rw [heq, and_iff_right hcopy, and_iff_right hmem]
      exact and_left_comm
    · rw [heq]
      exact iff_of_false (fun h => nomatch hmem.symm.trans (h.1.2.1 hstop)) fun h => nomatch h.1
    · rw [heq]
      exact iff_of_false (fun h => hcopy h.1.1) fun h => nomatch h.1

theorem verdict_append (as bs : List Request) :
    verdict mem calls (as ++ bs) =
      if verdict mem calls as = .done then verdict mem (calls + as.length) bs
      else verdict mem calls as := by
  induction as generalizing calls with
  | nil => rfl
  | cons a as ih =>
    have hlen : calls + (a :: as).length = calls + 1 + as.length := by
      rw [List.length_cons, Nat.add_assoc, Nat.add_comm 1]
    rw [List.cons_append, hlen]
    obtain ⟨-, -, heq⟩ | ⟨-, -, heq⟩ | ⟨-, -, heq⟩ := verdict_cons mem calls a
    · rw [heq, heq]
      exact ih
    · rw [heq, heq]
      rfl
    · rw [heq, heq]
      rfl

variable {η : Type} {a : Attrs η}

theorem verdict_texts {n : Nat} : verdict mem calls (List.replicate n .text) = .done := by
  induction n generalizing calls with
  | zero => rfl
  | succ n ih => exact ih

theorem requests_eq (a : Attrs η) :
    a.requests = List.replicate (a.path.toList.length + a.name.toList.length) .text := by
  rw [Attrs.requests, List.map_const', List.map_const', List.replicate_append_replicate]

theorem verdict_header (hmem : mem calls = true) (rest : List Request) :
    verdict mem calls (.object :: (a.requests ++ rest)) =
      verdict mem (calls + 1 + a.requests.length) rest := by
  rw [verdict, if_pos hmem, verdict_append, if_pos]
  rw [requests_eq, verdict_texts]

end Verdicts

section Frames

variable {η : Type} {s s' : Store (List UInt8)}

theorem points_congr {p : Ptr} {text : Option (List UInt8)}
    (h : ∀ i ∈ p.toList, s'.heap.get i = s.heap.get i) : Points s' p text ↔ Points s p text := by
  rw [Points, Points, Option.map_congr fun i hi => h i (Option.mem_toList.mpr hi)]

theorem headerEquals_congr {a : Attrs η} {h : Header η}
    (hsame : ∀ i ∈ h.path.toList ++ h.name.toList, s'.heap.get i = s.heap.get i) :
    HeaderEquals s' a h ↔ HeaderEquals s a h := by
  have hpath : Points s' h.path (a.path.map fun t => t.val.val) ↔ _ :=
    points_congr (s := s) fun i hi => hsame i (List.mem_append_left _ hi)
  have hname : Points s' h.name (a.name.map fun t => t.val.val) ↔ _ :=
    points_congr (s := s) fun i hi => hsame i (List.mem_append_right _ hi)
  exact ⟨fun he => ⟨hpath.mp he.pathText, hname.mp he.nameText, he.handle, he.perm⟩,
    fun he => ⟨hpath.mpr he.pathText, hname.mpr he.nameText, he.handle, he.perm⟩⟩

mutual

theorem equals_congr (t : SourceTree η) (o : Obj η)
    (hsame : ∀ i ∈ o.blocks, s'.heap.get i = s.heap.get i) : Equals s' t o ↔ Equals s t o := by
  cases t with
  | file a c =>
    cases o with
    | file h buffer size maxSize =>
      rw [Obj.blocks] at hsame
      rw [Equals, Equals]
      refine and_congr (headerEquals_congr fun i hi => hsame i ?_)
        (and_congr_left' (points_congr fun i hi => hsame i ?_))
      · rw [← List.append_assoc]
        exact List.mem_append_left _ hi
      · exact List.mem_append_right _ (List.mem_append_right _ (List.mem_append_left _ hi))
    | bare h type => exact Iff.rfl
    | container h type array objects => exact Iff.rfl
  | container a type objects =>
    cases o with
    | file h buffer size maxSize => exact Iff.rfl
    | bare h type => exact Iff.rfl
    | container h type' array objects' =>
      rw [Obj.blocks] at hsame
      rw [Equals, Equals]
      refine and_congr (headerEquals_congr fun i hi => hsame i ?_)
        (and_congr_right' (allEqual_congr objects objects' fun i hi => hsame i ?_))
      · rw [← List.append_assoc]
        exact List.mem_append_left _ hi
      · exact List.mem_append_right _ (List.mem_append_right _ (List.mem_append_left _ hi))

theorem allEqual_congr (ts : List (SourceTree η)) (os : List (Obj η))
    (hsame : ∀ i ∈ blocksOf os, s'.heap.get i = s.heap.get i) :
    AllEqual s' ts os ↔ AllEqual s ts os := by
  cases ts with
  | nil =>
    cases os with
    | nil => exact Iff.rfl
    | cons o os => exact Iff.rfl
  | cons t ts =>
    cases os with
    | nil => exact Iff.rfl
    | cons o os =>
      rw [blocksOf] at hsame
      rw [AllEqual, AllEqual]
      exact and_congr (equals_congr t o fun i hi => hsame i (List.mem_append_right _ hi))
        (allEqual_congr ts os fun i hi => hsame i (List.mem_append_left _ hi))

end

end Frames

end OpaeLibs.PluginXfpga.ObjectClones
