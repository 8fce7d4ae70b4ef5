import OpaeLibs.PluginXfpga.ObjectClones

namespace OpaeLibs.PluginXfpga.CloneRuns

open OpaeLibs.Lib.CStrings OpaeLibs.Lib.Heap OpaeLibs.Lib.Ownership OpaeLibs.OpaeC.Props
  OpaeLibs.PluginXfpga.ObjectBlocks OpaeLibs.PluginXfpga.ObjectClones
open OpaeLibs.PluginXfpga.SysfsGlob (pathMax)

section Headers

variable {η : Type} {mem : Nat → Bool} {s s' : Store (List UInt8)} {a : Attrs η} {h : Header η}

theorem points_copied {p : Ptr} {text : Option Text} {served : Bool}
    (h : p.map s.heap.get = (copied served (text.map Subtype.val)).map some) :
    Points s p (text.map fun t => t.val.val) ↔ (text.isSome = true → served = true) := by
  rw [Points, h, copied]
  cases text with
  | none =>
    refine iff_of_true ?_ fun h => by cases h
    split <;> rfl
  | some t =>
    have htake : t.val.val.take (pathMax - 1) = t.val.val :=
      List.take_of_length_le (Nat.le_sub_one_of_lt t.property)
    cases served with
    | false => exact iff_of_false (fun h => by cases h) fun h => by cases h rfl
    | true => exact iff_of_true (congrArg (some ∘ some) htake) fun _ => rfl

theorem textsServed_toList {calls : Nat} (text : Option Text) :
    TextsServed mem calls (text.toList.map fun _ => .text) ↔
      (text.isSome = true → mem calls = true) := by
  cases text with
  | none => exact iff_of_true (fun _ _ hq => (nomatch hq)) nofun
  | some t =>
    rw [Option.toList_some, List.map_singleton, textsServed_cons]
    exact ⟨fun h _ => h.1 rfl, fun h => ⟨fun _ => h rfl, fun _ _ hq => (nomatch hq)⟩⟩

/-- What is left for a clone when its structure is allocated. -/
structure HeaderMade (mem : Nat → Bool) (a : Attrs η) (s s' : Store (List UInt8)) (h : Header η) :
    Prop where
  owns : Owns s.heap s' h.blocks
  equals : HeaderEquals s' a { h with handle := a.handle, perm := a.perm } ↔
    TextsServed mem (s.calls + 1) a.requests
  calls : s'.calls = s.calls + 1 + a.requests.length

theorem Allocated.headerMade
    (halloc : Allocated mem mem (a.path.map Subtype.val) (a.name.map Subtype.val) s s' h) :
    HeaderMade mem a s s' h := by
  have hlen : (a.path.map Subtype.val).toList.length = a.path.toList.length := by
    cases a.path <;> rfl
  have hlen' : (a.name.map Subtype.val).toList.length = a.name.toList.length := by
    cases a.name <;> rfl
  refine ⟨halloc.owns, ?_, ?_⟩
  · have hpath := points_copied halloc.pathText
    have hname := points_copied halloc.nameText
    rw [hlen] at hname
    rw [Attrs.requests, textsServed_append, textsServed_toList, textsServed_toList,
      List.length_map, ← hpath, ← hname]
    exact ⟨fun h => ⟨h.pathText, h.nameText⟩, fun h => ⟨h.1, h.2, rfl, rfl⟩⟩
  · rw [halloc.calls, hlen, hlen', Attrs.requests, List.length_append, List.length_map,
      List.length_map, Nat.add_assoc (s.calls + 1)]

theorem runs_allocFrom (mem : Nat → Bool) (a : Attrs η) (s : Store (List UInt8)) :
    Runs (allocFrom mem a) s fun (r : Option (Header η)) s' =>
      mem s.calls = false ∧ r = none ∧ Owns s.heap s' [] ∨
      mem s.calls = true ∧ ∃ h, r = some h ∧ HeaderMade mem a s s' h := by
  refine (runs_allocFpgaObject mem mem mem _ _ s).imp fun r s' hr => ?_
  rcases hr with hnone | ⟨hmem, h, hh, halloc⟩
  · exact .inl hnone
  · exact .inr ⟨hmem, h, hh, Allocated.headerMade halloc⟩

end Headers

section Clones

variable {η : Type} (mem : Nat → Bool) (s : Store (List UInt8))

structure CloneSpec (t : SourceTree η) : Prop where
  done : verdict mem s.calls (requests t) = .done →
    Runs (xfpgaFpgaCloneObject mem t) s fun r s' => ∃ o, r = (.ok, some (some o)) ∧
      Owns s.heap s' o.blocks ∧ s'.calls = s.calls + (requests t).length ∧
      (Equals s' t o ↔ TextsServed mem s.calls (requests t))
  stopped : verdict mem s.calls (requests t) = .stopped →
    Runs (xfpgaFpgaCloneObject mem t) s fun r s' => r.1 ≠ .ok ∧
      r.2 = (if mem s.calls then some none else none) ∧ Owns s.heap s' []
  faulted : verdict mem s.calls (requests t) = .faulted → Faults (xfpgaFpgaCloneObject mem t) s

structure ObjectsSpec (ts : List (SourceTree η)) : Prop where
  done : verdict mem s.calls (allRequests ts) = .done →
    Runs (cloneObjects mem ts) s fun r s' => r.1 = .ok ∧ Owns s.heap s' (blocksOf r.2) ∧
      s'.calls = s.calls + (allRequests ts).length ∧
      (AllEqual s' ts r.2 ↔ TextsServed mem s.calls (allRequests ts))
  stopped : verdict mem s.calls (allRequests ts) = .stopped →
    Runs (cloneObjects mem ts) s fun r s' => r.1 ≠ .ok ∧ Owns s.heap s' (blocksOf r.2)
  faulted : verdict mem s.calls (allRequests ts) = .faulted → Faults (cloneObjects mem ts) s

/-- What comes of the rest of a clone, when its structure is allocated. -/
structure RestSpec (s₁ : Store (List UInt8)) (a : Attrs η) (t : SourceTree η) (rs : List Request)
    (rest : Blocks (FpgaResult × Stored η)) : Prop where
  done : verdict mem s₁.calls rs = .done →
    Runs rest s₁ fun r s' => ∃ o, r = (.ok, some (some o)) ∧
      Owns s.heap s' o.blocks ∧ s'.calls = s₁.calls + rs.length ∧
      (Equals s' t o ↔ TextsServed mem (s.calls + 1) a.requests ∧ TextsServed mem s₁.calls rs)
  stopped : verdict mem s₁.calls rs = .stopped →
    Runs rest s₁ fun r s' => r.1 ≠ .ok ∧ r.2 = some none ∧ Owns s.heap s' []
  faulted : verdict mem s₁.calls rs = .faulted → Faults rest s₁

variable {mem s} {a : Attrs η} {t : SourceTree η} {rs : List Request}

theorem textsServed_header {calls : Nat} {rest : List Request} :
    TextsServed mem calls (.object :: (a.requests ++ rest)) ↔
      TextsServed mem (calls + 1) a.requests ∧
        TextsServed mem (calls + 1 + a.requests.length) rest := by
  rw [textsServed_cons, textsServed_append]
  exact and_iff_right nofun

theorem cloneSpec_of_rest (rest : Header η → Blocks (FpgaResult × Stored η))
    (hclone : xfpgaFpgaCloneObject mem t = do
      match (← allocFrom mem a) with
      | none => pure (.noMemory, none)
      | some h => rest h)
    (hrequests : requests t = .object :: (a.requests ++ rs))
    (hrest : ∀ s₁ h, HeaderMade mem a s s₁ h → RestSpec mem s s₁ a t rs (rest h)) :
    CloneSpec mem s t := by
  have hfail : mem s.calls = false → verdict mem s.calls (requests t) = .stopped := by
    intro hmem
    rw [hrequests, verdict, hmem]
    rfl
  have hgoes : ∀ s₁ h, mem s.calls = true → HeaderMade mem a s s₁ h →
      verdict mem s.calls (requests t) = verdict mem s₁.calls rs := by
    intro s₁ h hmem hmade
    rw [hrequests, verdict_header hmem, hmade.calls]
  refine ⟨fun hdone => ?_, fun hstopped => ?_, fun hfaulted => ?_⟩
  · rw [hclone]
    refine (runs_allocFrom mem a s).bind fun r s₁ hr => ?_
    rcases hr with ⟨hmem, -⟩ | ⟨hmem, h, rfl, hmade⟩
    · rw [hfail hmem] at hdone
      cases hdone
    · rw [hgoes s₁ h hmem hmade] at hdone
      refine ((hrest s₁ h hmade).done hdone).imp fun r s' hr => ?_
      obtain ⟨o, hr, howns, hcalls, hequals⟩ := hr
      refine ⟨o, hr, howns, ?_, hequals.trans ?_⟩
      · rw [hcalls, hmade.calls, hrequests, List.length_cons, List.length_append]
        omega
      · rw [hrequests, textsServed_header, hmade.calls]
  · rw [hclone]
    refine (runs_allocFrom mem a s).bind fun r s₁ hr => ?_
    rcases hr with ⟨hmem, rfl, howns⟩ | ⟨hmem, h, rfl, hmade⟩
    · refine .pure ⟨(fun h => by cases h), ?_, howns⟩
      rw [hmem]
      rfl
    · rw [hgoes s₁ h hmem hmade] at hstopped
      rw [hmem]
      exact (hrest s₁ h hmade).stopped hstopped
  · rw [hclone]
    refine (runs_allocFrom mem a s).bind_faults fun r s₁ hr => ?_
    rcases hr with ⟨hmem, -⟩ | ⟨hmem, h, rfl, hmade⟩
    · rw [hfail hmem] at hfaulted
      cases hfaulted
    · rw [hgoes s₁ h hmem hmade] at hfaulted
      exact (hrest s₁ h hmade).faulted hfaulted

end Clones

section Files

variable {η : Type} {mem : Nat → Bool} {s s₁ : Store (List UInt8)} {a : Attrs η} {h : Header η}

def fileRest (mem : Nat → Bool) (a : Attrs η) (c : Contents) (h : Header η) :
    Blocks (FpgaResult × Stored η) := do
  let buffer ← malloc mem (List.replicate c.maxSize 0)
  memcpy buffer (c.buffer.map Subtype.val)
  pure (.ok, some (some
    (.file { h with handle := a.handle, perm := a.perm } buffer c.size c.maxSize)))

theorem faults_fileRest {c : Contents} (hcopy : ¬(mem s.calls && c.buffer.isSome) = true) :
    Faults (fileRest mem a c h) s := by
  refine (runs_malloc_self mem _ s).bind_faults fun buffer s₁ hbuffer => ?_
  refine Faults.bind ?_ _
  cases hb : c.buffer with
  | none => rfl
  | some b =>
    rw [hb, Option.isSome_some, Bool.and_true, Bool.not_eq_true] at hcopy
    rw [hcopy, if_neg Bool.false_ne_true] at hbuffer
    rw [Option.map_eq_none_iff.mp hbuffer.2.2]
    rfl

theorem runs_fileRest {c : Contents} (hmade : HeaderMade mem a s s₁ h)
    (hcopy : (mem s₁.calls && c.buffer.isSome) = true) :
    Runs (fileRest mem a c h) s₁ fun r s' => ∃ o, r = (.ok, some (some o)) ∧
      Owns s.heap s' o.blocks ∧ s'.calls = s₁.calls + 1 ∧
      (Equals s' (.file a c) o ↔ TextsServed mem (s.calls + 1) a.requests) := by
  rw [Bool.and_eq_true] at hcopy
  obtain ⟨b, hb⟩ := Option.isSome_iff_exists.mp hcopy.2
  refine (runs_malloc_self mem _ s₁).bind fun buffer s₂ hbuffer => ?_
  obtain ⟨hcalls, howns, hget⟩ := hbuffer
  rw [hcopy.1, if_pos rfl] at hget
  obtain ⟨i, rfl, -⟩ := Option.map_eq_some_iff.mp hget
  have hall := hmade.owns.trans howns
  rw [hb]
  refine (runs_write b.val hall List.mem_cons_self).bind fun _ s₃ hwrite => .pure ?_
  obtain ⟨hall', hcalls', hget'⟩ := hwrite
  refine ⟨_, rfl, hall'.perm ?_, hcalls'.trans hcalls, ?_⟩
  · exact perm_file { h with handle := a.handle, perm := a.perm } (some i)
  · have hsame : ∀ j ∈ h.path.toList ++ h.name.toList, s₃.heap.get j = s₁.heap.get j := by
      intro j hj
      have hlt : j < s₁.heap.next := by
        refine hmade.owns.lt_next ?_
        rw [Header.blocks, ← List.append_assoc]
        exact List.mem_append_left _ hj
      have hne : j ≠ i := Nat.ne_of_lt (Nat.lt_of_lt_of_le hlt (howns.newer i List.mem_cons_self))
      rw [hget', if_neg hne, howns.older j hlt]
    have hpoints : Points s₃ (some i) (c.buffer.map Subtype.val) := by
      rw [Points, hb, Option.map_some, Option.map_some, Option.map_some, hget', if_pos rfl]
    rw [Equals, ← hmade.equals]
    have hequals := headerEquals_congr (a := a)
      (h := { h with handle := a.handle, perm := a.perm }) hsame
    rw [hequals]
    exact and_iff_left ⟨hpoints, rfl, rfl⟩

theorem verdict_buffer {calls : Nat} {source : Bool} :
    verdict mem calls [.buffer source] =
      if mem calls && source then Verdict.done else .faulted := by
  rw [verdict, verdict]

theorem restSpec_file (c : Contents) (hmade : HeaderMade mem a s s₁ h) :
    RestSpec mem s s₁ a (.file a c) [.buffer c.buffer.isSome] (fileRest mem a c h) := by
  refine ⟨fun hdone => ?_, fun hstopped => ?_, fun hfaulted => faults_fileRest fun hcopy => ?_⟩
  · have hcopy : (mem s₁.calls && c.buffer.isSome) = true := by
      by_contra hnot
      rw [verdict_buffer, if_neg hnot] at hdone
      exact nomatch hdone
    refine (runs_fileRest hmade hcopy).imp fun r s' hr => ?_
    obtain ⟨o, hr, howns, hcalls, hequals⟩ := hr
    refine ⟨o, hr, howns, hcalls, hequals.trans (and_iff_left ?_).symm⟩
    rw [textsServed_cons]
    exact ⟨nofun, fun _ _ hq => (nomatch hq)⟩
  · rw [verdict_buffer] at hstopped
    split at hstopped
    · exact nomatch hstopped
    · exact nomatch hstopped
  · rw [verdict_buffer, if_pos hcopy] at hfaulted
    exact nomatch hfaulted

theorem cloneSpec_file (a : Attrs η) (c : Contents) : CloneSpec mem s (.file a c) :=
  cloneSpec_of_rest (fileRest mem a c) (by rw [xfpgaFpgaCloneObject]; rfl) (by rw [requests])
    fun _ _ hmade => restSpec_file c hmade

end Files

section Containers

variable {η : Type} {mem : Nat → Bool} {s s₁ : Store (List UInt8)} {a : Attrs η} {h : Header η}
  {type : ContainerType} {ts : List (SourceTree η)}

def containerRest (mem : Nat → Bool) (a : Attrs η) (type : ContainerType) (ts : List (SourceTree η))
    (h : Header η) : Blocks (FpgaResult × Stored η) := do
  let h := { h with handle := a.handle, perm := a.perm }
  match (← malloc mem []) with
  | none => do
    destroyFpgaObject (.bare h type)
    pure (.noMemory, some none)
  | some array => do
    let r ← cloneObjects mem ts
    if r.1 ≠ .ok then do
      destroyFpgaObject (.container h type array r.2)
      pure (r.1, some none)
    else pure (.ok, some (some (.container h type array r.2)))

theorem perm_clone (a : Attrs η) (type : ContainerType) {array : Nat} {objects : List (Obj η)} :
    (blocksOf objects ++ (array :: h.blocks)).Perm
      (Obj.container { h with handle := a.handle, perm := a.perm } type array objects).blocks :=
  perm_container { h with handle := a.handle, perm := a.perm } type

theorem containerRest_done (hmade : HeaderMade mem a s s₁ h) (hmem : mem s₁.calls = true)
    (hspec : ∀ s, ObjectsSpec mem s ts)
    (hdone : verdict mem (s₁.calls + 1) (allRequests ts) = .done) :
    Runs (containerRest mem a type ts h) s₁ fun r s' => ∃ o, r = (.ok, some (some o)) ∧
      Owns s.heap s' o.blocks ∧ s'.calls = s₁.calls + 1 + (allRequests ts).length ∧
      (Equals s' (.container a type ts) o ↔ TextsServed mem (s.calls + 1) a.requests ∧
        TextsServed mem (s₁.calls + 1) (allRequests ts)) := by
  refine (runs_malloc_owns mem [] hmade.owns).bind fun p s₂ hp => ?_
  obtain ⟨hcalls, hsame, ⟨hnot, -⟩ | ⟨-, array, rfl, howns⟩⟩ := hp
  · rw [hmem] at hnot
    exact nomatch hnot
  · rw [← hcalls] at hdone ⊢
    refine ((hspec s₂).done hdone).bind fun r s₃ hr => ?_
    obtain ⟨hok, howns', hcalls', hequal⟩ := hr
    rw [if_neg (not_not_intro hok)]
    refine .pure ⟨_, rfl, (howns.trans howns').perm (perm_clone a type), hcalls', ?_⟩
    have hframe : ∀ i ∈ h.path.toList ++ h.name.toList, s₃.heap.get i = s₁.heap.get i := by
      intro i hi
      have hblocks : i ∈ h.blocks := by
        rw [Header.blocks, ← List.append_assoc]
        exact List.mem_append_left _ hi
      have hlt := howns.lt_next (List.mem_cons_of_mem array hblocks)
      exact (howns'.older i hlt).trans (hsame i (hmade.owns.lt_next hblocks))
    have hequals := headerEquals_congr (a := a)
      (h := { h with handle := a.handle, perm := a.perm }) hframe
    rw [Equals, ← hequal, ← hmade.equals, hequals]
    exact and_congr_right' (and_iff_right rfl)

theorem containerRest_stopped (hmade : HeaderMade mem a s s₁ h)
    (hspec : ∀ s, ObjectsSpec mem s ts)
    (hstopped : mem s₁.calls = true → verdict mem (s₁.calls + 1) (allRequests ts) = .stopped) :
    Runs (containerRest mem a type ts h) s₁ fun r s' => r.1 ≠ .ok ∧ r.2 = some none ∧
      Owns s.heap s' [] := by
  refine (runs_malloc_owns mem [] hmade.owns).bind fun p s₂ hp => ?_
  obtain ⟨hcalls, -, ⟨-, rfl, howns⟩ | ⟨hmem, array, rfl, howns⟩⟩ := hp
  · have hbare : Owns s.heap s₂
        ((Obj.bare { h with handle := a.handle, perm := a.perm } type).blocks ++ []) := by
      rw [List.append_nil]
      exact howns
    refine (runs_destroyFpgaObject _ hbare).bind fun _ s₃ howns => .pure ⟨nofun, rfl, howns⟩
  · have hstop := hstopped hmem
    rw [← hcalls] at hstop
    refine ((hspec s₂).stopped hstop).bind fun r s₃ hr => ?_
    obtain ⟨hne, howns'⟩ := hr
    rw [if_pos hne]
    have hall := (howns.trans howns').perm (perm_clone a type)
    rw [← List.append_nil (Obj.blocks _)] at hall
    exact (runs_destroyFpgaObject _ hall).bind fun _ s₄ howns => .pure ⟨hne, rfl, howns⟩

theorem containerRest_faulted (hmade : HeaderMade mem a s s₁ h) (hmem : mem s₁.calls = true)
    (hspec : ∀ s, ObjectsSpec mem s ts)
    (hfaulted : verdict mem (s₁.calls + 1) (allRequests ts) = .faulted) :
    Faults (containerRest mem a type ts h) s₁ := by
  refine (runs_malloc_owns mem [] hmade.owns).bind_faults fun p s₂ hp => ?_
  obtain ⟨hcalls, -, ⟨hnot, -⟩ | ⟨-, array, rfl, -⟩⟩ := hp
  · rw [hmem] at hnot
    exact nomatch hnot
  · rw [← hcalls] at hfaulted
    exact ((hspec s₂).faulted hfaulted).bind _

theorem restSpec_container (hmade : HeaderMade mem a s s₁ h)
    (hspec : ∀ s, ObjectsSpec mem s ts) :
    RestSpec mem s s₁ a (.container a type ts) (.array :: allRequests ts)
      (containerRest mem a type ts h) := by
  refine ⟨fun hdone => ?_, fun hstopped => ?_, fun hfaulted => ?_⟩
  · rw [verdict] at hdone
    split at hdone
    · next harray =>
      refine (containerRest_done hmade harray hspec hdone).imp fun r s' hr => ?_
      obtain ⟨o, hr, howns, hcalls, hequals⟩ := hr
      refine ⟨o, hr, howns, ?_, hequals.trans ?_⟩
      · rw [hcalls, List.length_cons, Nat.add_assoc, Nat.add_comm 1]
      · rw [textsServed_cons, and_congr_right_iff]
        exact fun _ => (and_iff_right fun h => by cases h).symm
    · cases hdone
  · refine containerRest_stopped hmade hspec fun harray => ?_
    rwa [verdict, if_pos harray] at hstopped
  · rw [verdict] at hfaulted
    split at hfaulted
    · next harray => exact containerRest_faulted hmade harray hspec hfaulted
    · cases hfaulted

theorem cloneSpec_container (hspec : ∀ s, ObjectsSpec mem s ts) :
    CloneSpec mem s (.container a type ts) :=
  cloneSpec_of_rest (containerRest mem a type ts) (by rw [xfpgaFpgaCloneObject]; rfl)
    (by rw [requests]) fun _ _ hmade => restSpec_container hmade hspec

theorem objectsSpec_cons {t : SourceTree η} (ht : CloneSpec mem s t)
    (hspec : ∀ s, ObjectsSpec mem s ts) : ObjectsSpec mem s (t :: ts) := by
  have happend : verdict mem s.calls (allRequests (t :: ts)) =
      if verdict mem s.calls (requests t) = .done then
        verdict mem (s.calls + (requests t).length) (allRequests ts)
      else verdict mem s.calls (requests t) := by
    rw [allRequests, verdict_append]
  refine ⟨fun hdone => ?_, fun hstopped => ?_, fun hfaulted => ?_⟩
  · rw [happend] at hdone
    split at hdone
    · next hhead =>
      rw [cloneObjects]
      refine (ht.done hhead).bind fun r s₁ hr => ?_
      obtain ⟨o, rfl, howns, hcalls, hequals⟩ := hr
      rw [← hcalls] at hdone
      refine ((hspec s₁).done hdone).bind fun q s₂ hq => .pure ?_
      obtain ⟨hok, howns', hcalls', hequal⟩ := hq
      refine ⟨hok, ?_, ?_, ?_⟩
      · have hall := howns.trans howns'
        rw [← blocksOf] at hall
        exact hall
      · rw [hcalls', hcalls, allRequests, List.length_append, Nat.add_assoc]
      · have hframe : Equals s₂ t o ↔ Equals s₁ t o :=
          equals_congr t o fun i hi => howns'.older i (howns.lt_next hi)
        rw [allRequests, textsServed_append, ← hequals, ← hframe, ← hcalls, ← hequal]
        exact Iff.rfl
    · next hhead => exact absurd hdone hhead
  · rw [cloneObjects]
    rw [happend] at hstopped
    split at hstopped
    · next hhead =>
      refine (ht.done hhead).bind fun r s₁ hr => ?_
      obtain ⟨o, rfl, howns, hcalls, -⟩ := hr
      rw [← hcalls] at hstopped
      refine ((hspec s₁).stopped hstopped).bind fun q s₂ hq => .pure ⟨hq.1, ?_⟩
      have hall := howns.trans hq.2
      rw [← blocksOf] at hall
      exact hall
    · refine (ht.stopped hstopped).bind fun r s₁ hr => ?_
      rw [if_pos hr.1]
      exact .pure ⟨hr.1, hr.2.2⟩
  · rw [cloneObjects]
    rw [happend] at hfaulted
    split at hfaulted
    · next hhead =>
      refine (ht.done hhead).bind_faults fun r s₁ hr => ?_
      obtain ⟨o, rfl, -, hcalls, -⟩ := hr
      rw [← hcalls] at hfaulted
      exact ((hspec s₁).faulted hfaulted).bind _
    · exact (ht.faulted hfaulted).bind _

end Containers

section Trees

variable {η : Type} {mem : Nat → Bool}

mutual

theorem cloneSpec (t : SourceTree η) (s : Store (List UInt8)) : CloneSpec mem s t := by
  cases t with
  | file a c => exact cloneSpec_file a c
  | container a type ts => exact cloneSpec_container (objectsSpec ts)

theorem objectsSpec (ts : List (SourceTree η)) (s : Store (List UInt8)) : ObjectsSpec mem s ts := by
  cases ts with
  | nil =>
    refine ⟨fun _ => .pure ⟨rfl, owns_self s, rfl, iff_of_true trivial ?_⟩, nofun, nofun⟩
    exact fun _ _ hq => (nomatch hq)
  | cons t ts => exact objectsSpec_cons (cloneSpec t s) (objectsSpec ts)

end

end Trees

section Verdicts

variable {η : Type} {mem : Nat → Bool} {t : SourceTree η} {s : Store (List UInt8)} {null : Prop}

theorem cloned_of_done (hdone : verdict mem s.calls (requests t) = .done) :
    Cloned s mem t null ↔ TextsServed mem s.calls (requests t) := by
  obtain ⟨r, s', hrun, o, rfl, howns, -, hequals⟩ := (cloneSpec t s).done hdone
  rw [← hequals]
  constructor
  · rintro ⟨r', s'', hrun', hr⟩
    rw [hrun] at hrun'
    cases hrun'
    rcases hr with ⟨-, o', ho', -, hequal⟩ | ⟨hne, -⟩
    · cases ho'
      exact hequal
    · exact absurd rfl hne
  · exact fun hequal => ⟨_, _, hrun, .inl ⟨rfl, o, rfl, howns, hequal⟩⟩

theorem cloned_of_stopped (hstopped : verdict mem s.calls (requests t) = .stopped) :
    Cloned s mem t null ↔ (mem s.calls = false → null) := by
  obtain ⟨r, s', hrun, hne, hdst, howns⟩ := (cloneSpec t s).stopped hstopped
  constructor
  · rintro ⟨r', s'', hrun', hr⟩ hmem
    rw [hrun] at hrun'
    cases hrun'
    rw [hmem, if_neg Bool.false_ne_true] at hdst
    rcases hr with ⟨hok, -⟩ | ⟨-, hnull | ⟨-, hnull⟩, -⟩
    · exact absurd hok hne
    · rw [hdst] at hnull
      exact nomatch hnull
    · exact hnull
  · intro hnull
    refine ⟨r, s', hrun, .inr ⟨hne, ?_, howns.released⟩⟩
    cases hmem : mem s.calls with
    | false =>
      rw [hmem, if_neg Bool.false_ne_true] at hdst
      exact .inr ⟨hdst, hnull hmem⟩
    | true =>
      rw [hmem, if_pos rfl] at hdst
      exact .inl hdst

end Verdicts

/-- A clone is right if all of its allocations are made, or if one without which it is given up
comes in front of a buffer that cannot be copied. In front of its own structure nothing is
stored. -/
theorem cloned_iff {η : Type} (mem : Nat → Bool) (t : SourceTree η) (s : Store (List UInt8))
    (null : Prop) :
    Cloned s mem t null ↔ AllServed mem s.calls (requests t) ∨
      GivenUp mem s.calls (requests t) ∧ (mem s.calls = false → null) := by
  rw [allServed_iff, ← verdict_stopped_iff]
  cases hverdict : verdict mem s.calls (requests t) with
  | done =>
    rw [cloned_of_done hverdict]
    exact ⟨fun h => .inl ⟨rfl, h⟩, fun h => (h.resolve_right fun hs => (nomatch hs.1)).2⟩
  | stopped =>
    rw [cloned_of_stopped hverdict]
    exact ⟨fun h => .inr ⟨rfl, h⟩, fun h => (h.resolve_left fun hs => (nomatch hs.1)).2⟩
  | faulted =>
    refine iff_of_false (fun h => ((cloneSpec t s).faulted hverdict).not_runs h) ?_
    rintro (⟨hdone, -⟩ | ⟨hstopped, -⟩)
    · exact nomatch hdone
    · exact nomatch hstopped

def smallFile : SourceTree Unit :=
  .file ⟨some ⟨⟨ascii "/a", by decide⟩, by decide⟩,
      some ⟨⟨ascii "a", fun h => absurd h (by decide)⟩, by decide⟩, none, .rdonly⟩
    ⟨1, 4096, by decide, some ⟨65 :: List.replicate 4095 0, by rw [List.length_cons,
      List.length_replicate]⟩⟩

/-- Without memory for the buffer, it is written through `NULL`; without memory for the name, the
clone has none. -/
theorem smallFile_not_cloned :
    ¬Cloned ⟨Slots.empty, 0⟩ (fun k => k != 3) smallFile True ∧
      ¬Cloned ⟨Slots.empty, 0⟩ (fun k => k != 2) smallFile True := by
  constructor
  · exact fun h => ((cloneSpec smallFile ⟨Slots.empty, 0⟩).faulted rfl).not_runs h
  · intro h
    have hname := (cloned_of_done (by rfl)).mp h 2 .text rfl rfl
    exact nomatch hname

end OpaeLibs.PluginXfpga.CloneRuns
