import OpaeLibs.PluginXfpga.ReconfBounds

namespace OpaeLibs.PluginXfpga.ReconfGuard

open OpaeLibs.OpaeC.Props OpaeLibs.PluginXfpga.Bitstream OpaeLibs.PluginXfpga.Reconf
open OpaeLibs.PluginXfpga.ReconfBounds

variable {κ : Type}

/-- The accelerator is open after these events. -/
def Holds (events : List (Event κ)) (accel : κ) : Prop :=
  .open accel ∈ events ∧ .close accel ∉ events

/-- What a call does is guarded: the device is reconfigured only once the bitstream is found to be
valid, and only while every child is held unless the caller forces it. What is opened is closed
once, and the lock is released. -/
structure Guarded (force : Bool) (children : List κ) (events : List (Event κ)) : Prop where
  valid : ∀ before portId bufferSize bufferAddress after,
    events = before ++ .portPr portId bufferSize bufferAddress :: after → .valid ∈ before
  exclusive : force = false → ∀ before portId bufferSize bufferAddress after,
    events = before ++ .portPr portId bufferSize bufferAddress :: after →
      ∀ accel ∈ children, Holds before accel
  closed : ∀ before accel after, events = before ++ .open accel :: after →
    ∃ during rest, after = during ++ .close accel :: rest ∧ .close accel ∉ during ∧
      .close accel ∉ rest
  released : .lock ∈ events → ∃ during, events = .lock :: (during ++ [.unlock]) ∧
    .lock ∉ during ∧ .unlock ∉ during

theorem split_unique {α : Type} {before after before' after' : List α} {a : α}
    (hbefore : a ∉ before) (hafter : a ∉ after)
    (heq : before ++ a :: after = before' ++ a :: after') :
    before' = before ∧ after' = after := by
  induction before generalizing before' with
  | nil =>
    cases before' with
    | nil => exact ⟨rfl, (List.cons.inj heq).2.symm⟩
    | cons b before' =>
      have hmem : a ∈ after := (List.cons.inj heq).2 ▸ List.mem_append_right _ List.mem_cons_self
      exact absurd hmem hafter
  | cons b before ih =>
    cases before' with
    | nil => exact absurd ((List.cons.inj heq).1 ▸ List.mem_cons_self) hbefore
    | cons b' before' =>
      obtain ⟨rfl, htail⟩ := List.cons.inj heq
      obtain ⟨rfl, rfl⟩ := ih (fun h => hbefore (List.mem_cons_of_mem _ h)) htail
      exact ⟨rfl, rfl⟩

section

variable {accel : Option κ} {middle : List (Event κ)} {force : Bool} {children : List κ}

def Plain (middle : List (Event κ)) : Prop :=
  ∀ e ∈ middle, ∃ portId bufferSize bufferAddress, e = .portPr portId bufferSize bufferAddress

theorem Plain.notMem (h : Plain middle) {e : Event κ}
    (he : ∀ portId bufferSize bufferAddress, e ≠ .portPr portId bufferSize bufferAddress) :
    e ∉ middle := by
  intro hmem
  obtain ⟨portId, bufferSize, bufferAddress, heq⟩ := h e hmem
  exact he _ _ _ heq

theorem holds_iff {c : κ} : Holds (.lock :: .valid :: opening accel) c ↔ accel = some c := by
  cases accel <;> simp [Holds, opening, eq_comm]

theorem bracket_session (accel : Option κ) (middle : List (Event κ)) :
    bracket accel (session accel middle) =
      (.lock :: .valid :: opening accel) ++ (middle ++ (closing accel ++ [.unlock])) := by
  simp [bracket, session]

theorem closed_session (hplain : Plain middle) {before after : List (Event κ)} {c : κ}
    (heq : bracket accel (session accel middle) = before ++ .open c :: after) :
    ∃ during rest, after = during ++ .close c :: rest ∧ .close c ∉ during ∧ .close c ∉ rest := by
  have hmem : .open c ∈ bracket accel (session accel middle) :=
    heq ▸ List.mem_append_right _ List.mem_cons_self
  have hopen : ∀ c, .open c ∉ middle := fun c => hplain.notMem nofun
  have hclose : ∀ c, .close c ∉ middle := fun c => hplain.notMem nofun
  cases accel with
  | none => simp [bracket, session, opening, closing, hopen] at hmem
  | some a =>
    obtain rfl : c = a := by simpa [bracket, session, opening, closing, hopen] using hmem
    have hsplit : bracket (some c) (session (some c) middle) =
        [.lock, .valid] ++ .open c :: (middle ++ [.close c, .unlock]) := rfl
    obtain ⟨-, rfl⟩ := split_unique (by simp) (by simp [hopen]) (hsplit.symm.trans heq)
    exact ⟨middle, [.unlock], rfl, hclose c, by simp⟩

theorem released_session (hplain : Plain middle) :
    ∃ during, bracket accel (session accel middle) = .lock :: (during ++ [.unlock]) ∧
      .lock ∉ during ∧ .unlock ∉ during := by
  refine ⟨session accel middle ++ closing accel, ?_, ?_⟩
  · rw [bracket, List.append_assoc]
  · have hlock : .lock ∉ middle := hplain.notMem fun _ _ _ h => by cases h
    have hunlock : .unlock ∉ middle := hplain.notMem fun _ _ _ h => by cases h
    cases accel <;> simp [session, opening, closing, hlock, hunlock]

/-- A call that gets as far as the device is guarded iff what it holds are all children. -/
theorem guarded_iff (portId bufferSize : UInt32) (bufferAddress : UInt64) :
    Guarded force children
        (bracket accel (session accel [.portPr portId bufferSize bufferAddress])) ↔
      (force = false → ∀ c ∈ children, accel = some c) := by
  have hplain : Plain [(.portPr portId bufferSize bufferAddress : Event κ)] := fun e he =>
    ⟨portId, bufferSize, bufferAddress, List.mem_singleton.mp he⟩
  have hsplit := bracket_session accel [.portPr portId bufferSize bufferAddress]
  have hbefore : ∀ {p s b before after},
      bracket accel (session accel [.portPr portId bufferSize bufferAddress]) =
        before ++ .portPr p s b :: after → before = .lock :: .valid :: opening accel := by
    intro p s b before after heq
    have hmem : .portPr p s b ∈ bracket accel (session accel
        [.portPr portId bufferSize bufferAddress]) :=
      heq ▸ List.mem_append_right _ List.mem_cons_self
    obtain ⟨rfl, rfl, rfl⟩ : p = portId ∧ s = bufferSize ∧ b = bufferAddress := by
      cases accel <;> simpa [bracket, session, opening, closing] using hmem
    refine (split_unique ?_ ?_ (hsplit.symm.trans heq)).1
    · cases accel <;> simp [opening]
    · cases accel <;> simp [closing]
  constructor
  · intro hg hforce c hc
    exact holds_iff.mp (hg.exclusive hforce _ _ _ _ _ hsplit c hc)
  · intro hall
    refine ⟨fun _ _ _ _ _ heq => ?_, fun hforce _ _ _ _ _ heq c hc => ?_,
      fun _ _ _ heq => closed_session hplain heq, fun _ => released_session hplain⟩
    · rw [hbefore heq]
      exact List.mem_cons_of_mem _ List.mem_cons_self
    · rw [hbefore heq]
      exact holds_iff.mpr (hall hforce c hc)

theorem guarded_of_session : Guarded force children (bracket accel (session accel [])) := by
  have hplain : Plain ([] : List (Event κ)) := fun e he => absurd he List.not_mem_nil
  have hno : ∀ {p s b before after},
      bracket accel (session accel []) ≠ before ++ .portPr p s b :: after := by
    intro p s b before after heq
    have hmem : .portPr p s b ∈ bracket accel (session accel []) :=
      heq ▸ List.mem_append_right _ List.mem_cons_self
    cases accel <;> simp [bracket, session, opening, closing] at hmem
  exact ⟨fun _ _ _ _ _ heq => absurd heq hno, fun _ _ _ _ _ _ heq => absurd heq hno,
    fun _ _ _ heq => closed_session hplain heq, fun _ => released_session hplain⟩

theorem guarded_nil : Guarded force children ([] : List (Event κ)) :=
  ⟨fun before _ _ _ _ heq => by simp at heq, fun _ before _ _ _ _ heq => by simp at heq,
    fun before _ _ heq => by simp at heq, fun h => absurd h List.not_mem_nil⟩

theorem guarded_refused : Guarded force children (bracket (none : Option κ) []) := by
  have hno : ∀ {e : Event κ} {before after}, bracket none [] = before ++ e :: after →
      e = .lock ∨ e = .unlock := by
    intro e before after heq
    have hmem : e ∈ bracket none [] := heq ▸ List.mem_append_right _ List.mem_cons_self
    simpa [bracket, closing] using hmem
  refine ⟨fun _ _ _ _ _ heq => ?_, fun _ _ _ _ _ _ heq => ?_, fun _ _ _ heq => ?_,
    fun _ => ⟨[], rfl, List.not_mem_nil, List.not_mem_nil⟩⟩
  all_goals rcases hno heq with h | h <;> cases h

end

/-- The call is guarded iff it does not get as far as the device, or is forced, or the first of the
children is the only one. -/
theorem reconfigureSlot_guarded_iff (libs : Libs) (env : ReconfEnv κ) (slot : UInt32)
    (bitstream : UInt64) (m : Nat → UInt8) (bitstreamLen : UInt64) (flags : Int32) :
    Guarded (flags &&& fpgaReconfForce ≠ 0) env.children
        (xfpgaFpgaReconfigureSlot libs env slot bitstream m bitstreamLen flags).2 ↔
      (Reaches libs env bitstream m bitstreamLen flags → flags &&& fpgaReconfForce = 0 →
        ∀ c ∈ env.children, env.children.head? = some c) := by
  obtain ⟨hreach, hev⟩ | ⟨hno, hev⟩ := reconfigureSlot_cases libs env slot bitstream m bitstreamLen
    flags
  · rw [hev, portPrOf, guarded_iff, imp_iff_right hreach]
    have hforce : decide (flags &&& fpgaReconfForce ≠ 0) = false ↔
        flags &&& fpgaReconfForce = 0 := by simp
    rw [hforce]
    refine imp_congr_right fun h => ?_
    rw [held, if_pos h]
  · refine iff_of_true ?_ fun hr => absurd hr hno
    obtain hev | hev | ⟨accel, hev⟩ := hev
    · rw [hev]
      exact guarded_nil
    · rw [hev]
      exact guarded_refused
    · rw [hev]
      exact guarded_of_session

def twoChildren : ReconfEnv Bool where
  lock := true
  magic := true
  fddev := 3
  id := ⟨some true, .ok sampleGuid⟩
  validateMem := true
  getProperties := .ok
  setParent := .ok
  enumerate := .ok
  children := [false, true]
  openChild := fun _ => .ok
  destroyProperties := .ok
  readMem := true
  setUserclock := fun _ _ => .ok
  ioPtr := some .dfl
  ioctl := ⟨true, 0⟩
  errno := .other
  closeChild := fun _ => .ok

def bareMem (i : Nat) : UInt8 := (sampleGuid.toList[i]?).getD 0

theorem twoChildren_reaches : Reaches sampleLibs twoChildren 0x1000 bareMem 64 0 :=
  ⟨rfl, rfl, ⟨by decide, by decide +kernel, fun _ => rfl, by decide +kernel, rfl⟩⟩

/-- The second child is not opened. -/
theorem not_forall_guarded : ¬ ∀ (libs : Libs) (env : ReconfEnv Bool) (slot : UInt32)
    (bitstream : UInt64) (m : Nat → UInt8) (bitstreamLen : UInt64) (flags : Int32),
    Guarded (flags &&& fpgaReconfForce ≠ 0) env.children
      (xfpgaFpgaReconfigureSlot libs env slot bitstream m bitstreamLen flags).2 := by
  intro hall
  obtain ⟨hreach, hev⟩ | ⟨hno, -⟩ :=
    reconfigureSlot_cases sampleLibs twoChildren 0 0x1000 bareMem 64 0
  · have hg := hall sampleLibs twoChildren 0 0x1000 bareMem 64 0
    rw [hev, portPrOf, guarded_iff] at hg
    exact absurd (hg (by decide) true (by decide)) (by decide)
  · exact hno twoChildren_reaches

end OpaeLibs.PluginXfpga.ReconfGuard
