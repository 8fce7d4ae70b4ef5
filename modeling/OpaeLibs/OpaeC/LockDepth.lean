import OpaeLibs.OpaeC.PluginLock

namespace OpaeLibs.OpaeC.LockDepth

open OpaeLibs.OpaeC.PluginLock

-- The calls of `opae_plugin_mgr_finalize_all` that are made while one is running.
mutual

def Call.refused : Bool → Call → Nat
  | finalizing, .init _ loads visits =>
    Loads.refused finalizing loads + Visits.refused finalizing visits
  | true, .finalizeAll _ _ => 1
  | false, .finalizeAll _ visits => Visits.refused true visits
  | _, .forEachNull => 0
  | finalizing, .forEach visits => Visits.refused finalizing visits

def Calls.refused : Bool → Calls → Nat
  | _, .nil => 0
  | finalizing, .cons c rest => Call.refused finalizing c + Calls.refused finalizing rest

def Loads.refused : Bool → Loads → Nat
  | _, .nil => 0
  | finalizing, .fails calls rest => Calls.refused finalizing calls + Loads.refused finalizing rest
  | finalizing, .registers calls _ _ rest =>
    Calls.refused finalizing calls + Loads.refused finalizing rest

def Visits.refused : Bool → Visits → Nat
  | _, .nil => 0
  | finalizing, .skip rest => Visits.refused finalizing rest
  | finalizing, .visit calls _ rest =>
    Calls.refused finalizing calls + Visits.refused finalizing rest

end

/-- The lock is held `n` times more than before. -/
structure Held (n : Nat) (m m' : Manager) : Prop where
  depth : m'.depth = m.depth + n
  finalizing : m'.finalizing = m.finalizing

section Held

variable {m m' m'' : Manager} {n k : Nat}

theorem Held.refl (m : Manager) : Held 0 m m := ⟨rfl, rfl⟩

theorem Held.andThen {f : Bool → Nat} (h : Held n m m')
    (h' : Held (f m'.finalizing) m' m'') : Held (n + f m.finalizing) m m'' := by
  rw [h.finalizing] at h'
  exact ⟨by rw [h'.depth, h.depth, Nat.add_assoc], h'.finalizing.trans h.finalizing⟩

theorem Held.locked (h : Held n (lock m) m') : Held n m (unlock m') :=
  ⟨by rw [unlock, h.depth, lock]; dsimp only; omega, h.finalizing⟩

theorem Held.register {initializeFn finalizeFn : Bool}
    (h : opaePluginMgrRegisterAdapter m initializeFn finalizeFn = some m') : Held 0 m m' := by
  rw [opaePluginMgrRegisterAdapter] at h
  split at h
  · exact nomatch h
  · obtain rfl := Option.some.inj h
    exact ⟨rfl, rfl⟩

end Held

theorem Loads.refused_of_isNil {loads : Loads} (h : loads.isNil = true) (finalizing : Bool) :
    Loads.refused finalizing loads = 0 := by
  cases loads with
  | nil => rfl
  | fails | registers => exact nomatch h

theorem Visits.refused_of_isNil {visits : Visits} (h : visits.isNil = true) (finalizing : Bool) :
    Visits.refused finalizing visits = 0 := by
  cases visits with
  | nil => rfl
  | skip | visit => exact nomatch h

theorem Held.early {m m' : Manager} {loads : Loads} {visits : Visits} (h : Held 0 m m')
    (hnil : (loads.isNil && visits.isNil) = true) :
    Held (Loads.refused m.finalizing loads + Visits.refused m.finalizing visits) m m' := by
  rw [Bool.and_eq_true] at hnil
  rwa [Loads.refused_of_isNil hnil.1, Visits.refused_of_isNil hnil.2]

mutual

theorem held_call (c : Call) {m m' : Manager} {r : Int} (h : call c m = some (r, m')) :
    Held (Call.refused m.finalizing c) m m' := by
  cases c with
  | init found loads visits =>
    rw [call] at h
    rw [Call.refused]
    split at h
    · split at h
      · next hnil =>
        obtain ⟨-, rfl⟩ := Prod.mk.inj (Option.some.inj h)
        exact .early ⟨rfl, rfl⟩ hnil
      · exact nomatch h
    · split at h
      · split at h
        · next hnil =>
          obtain ⟨-, rfl⟩ := Prod.mk.inj (Option.some.inj h)
          exact .early ⟨rfl, rfl⟩ hnil
        · exact nomatch h
      · split at h
        · exact nomatch h
        · next errors m₁ hloads =>
          have hfirst := held_loadPlugins loads hloads
          split at h
          · split at h
            · next hnil =>
              obtain ⟨-, rfl⟩ := Prod.mk.inj (Option.some.inj h)
              rw [Visits.refused_of_isNil hnil]
              exact Held.locked ⟨hfirst.depth, hfirst.finalizing⟩
            · exact nomatch h
          · split at h
            · exact nomatch h
            · next errors' m₂ hvisits =>
              obtain ⟨-, rfl⟩ := Prod.mk.inj (Option.some.inj h)
              have hall := hfirst.andThen (f := fun b => Visits.refused b visits)
                (held_initializeAll visits hvisits)
              exact Held.locked ⟨hall.depth, hall.finalizing⟩
  | finalizeAll dlclose visits =>
    rw [call] at h
    split at h
    · next hfin =>
      split at h
      · obtain ⟨-, rfl⟩ := Prod.mk.inj (Option.some.inj h)
        rw [show m.finalizing = true from hfin, Call.refused]
        exact ⟨rfl, rfl⟩
      · exact nomatch h
    · next hfin =>
      have hfalse : m.finalizing = false := Bool.eq_false_iff.mpr hfin
      split at h
      · exact nomatch h
      · next errors m₁ hloop =>
        obtain ⟨-, rfl⟩ := Prod.mk.inj (Option.some.inj h)
        have hheld := held_finalizeLoop dlclose visits hloop
        rw [hfalse, Call.refused]
        exact Held.locked ⟨hheld.depth, hfalse.symm⟩
  | forEachNull =>
    rw [call] at h
    obtain ⟨-, rfl⟩ := Prod.mk.inj (Option.some.inj h)
    exact .refl m
  | forEach visits =>
    rw [call] at h
    split at h
    · exact nomatch h
    · next res m₁ hloop =>
      obtain ⟨-, rfl⟩ := Prod.mk.inj (Option.some.inj h)
      exact (held_forEachLoop visits hloop).locked

theorem held_runCalls (cs : Calls) {m m' : Manager} (h : runCalls cs m = some m') :
    Held (Calls.refused m.finalizing cs) m m' := by
  cases cs with
  | nil =>
    obtain rfl := Option.some.inj h
    exact .refl m
  | cons c rest =>
    rw [runCalls] at h
    split at h
    · exact nomatch h
    · next r m₁ hcall =>
      exact (held_call c hcall).andThen (f := fun b => Calls.refused b rest)
        (held_runCalls rest h)

theorem held_loadPlugins (loads : Loads) {m m' : Manager} {errors errors' : Nat}
    (h : loadPlugins loads errors m = some (errors', m')) :
    Held (Loads.refused m.finalizing loads) m m' := by
  cases loads with
  | nil =>
    obtain ⟨-, rfl⟩ := Prod.mk.inj (Option.some.inj h)
    exact .refl m
  | fails calls rest =>
    rw [loadPlugins] at h
    split at h
    · exact nomatch h
    · next m₁ hcalls =>
      exact (held_runCalls calls hcalls).andThen (f := fun b => Loads.refused b rest)
        (held_loadPlugins rest h)
  | registers calls initializeFn finalizeFn rest =>
    rw [loadPlugins] at h
    split at h
    · exact nomatch h
    · next m₁ hcalls =>
      split at h
      · exact nomatch h
      · next m₂ hregister =>
        have hfirst := (held_runCalls calls hcalls).andThen (f := fun _ => 0)
          (.register hregister)
        exact hfirst.andThen (f := fun b => Loads.refused b rest) (held_loadPlugins rest h)

theorem held_initializeAll (visits : Visits) {m m' : Manager} {aptr : Option Nat}
    {errors errors' : Nat}
    (h : opaePluginMgrInitializeAll visits aptr errors m = some (errors', m')) :
    Held (Visits.refused m.finalizing visits) m m' := by
  cases visits with
  | nil =>
    cases aptr with
    | none =>
      obtain ⟨-, rfl⟩ := Prod.mk.inj (Option.some.inj h)
      exact .refl m
    | some id => exact nomatch h
  | skip rest =>
    cases aptr with
    | none => exact nomatch h
    | some id =>
      rw [opaePluginMgrInitializeAll] at h
      split at h
      · split at h
        · exact nomatch h
        · exact held_initializeAll rest h
      · exact nomatch h
  | visit calls res rest =>
    cases aptr with
    | none => exact nomatch h
    | some id =>
      rw [opaePluginMgrInitializeAll] at h
      split at h
      · exact nomatch h
      · split at h
        · exact nomatch h
        · split at h
          · exact nomatch h
          · next m₁ hcalls =>
            split at h
            · exact nomatch h
            · exact (held_runCalls calls hcalls).andThen
                (f := fun b => Visits.refused b rest) (held_initializeAll rest h)

theorem held_finalizeLoop (dlclose : Nat → Int) (visits : Visits) {m m' : Manager}
    {aptr : Option Nat} {errors errors' : Nat}
    (h : finalizeLoop dlclose visits aptr errors m = some (errors', m')) :
    Held (Visits.refused m.finalizing visits) m m' := by
  cases visits with
  | nil =>
    cases aptr with
    | none =>
      obtain ⟨-, rfl⟩ := Prod.mk.inj (Option.some.inj h)
      exact .refl m
    | some id => exact nomatch h
  | skip rest =>
    cases aptr with
    | none => exact nomatch h
    | some id =>
      rw [finalizeLoop] at h
      split at h
      · split at h
        · exact nomatch h
        · have hrest := held_finalizeLoop dlclose rest h
          exact ⟨hrest.depth, hrest.finalizing⟩
      · exact nomatch h
  | visit calls res rest =>
    cases aptr with
    | none => exact nomatch h
    | some id =>
      rw [finalizeLoop] at h
      split at h
      · exact nomatch h
      · split at h
        · exact nomatch h
        · split at h
          · exact nomatch h
          · next m₁ hcalls =>
            split at h
            · exact nomatch h
            · have hrest := held_finalizeLoop dlclose rest h
              exact (held_runCalls calls hcalls).andThen (f := fun b => Visits.refused b rest)
                ⟨hrest.depth, hrest.finalizing⟩

theorem held_forEachLoop (visits : Visits) {m m' : Manager} {aptr : Option Nat} {cbRes res : Int}
    (h : forEachLoop visits aptr cbRes m = some (res, m')) :
    Held (Visits.refused m.finalizing visits) m m' := by
  cases visits with
  | nil =>
    cases aptr with
    | none =>
      obtain ⟨-, rfl⟩ := Prod.mk.inj (Option.some.inj h)
      exact .refl m
    | some id => exact nomatch h
  | skip rest => exact nomatch h
  | visit calls res rest =>
    cases aptr with
    | none => exact nomatch h
    | some id =>
      rw [forEachLoop] at h
      split at h
      · exact nomatch h
      · split at h
        · exact nomatch h
        · next m₁ hcalls =>
          have hfirst := held_runCalls calls hcalls
          split at h
          · split at h
            · next hnil =>
              obtain ⟨-, rfl⟩ := Prod.mk.inj (Option.some.inj h)
              rw [Visits.refused, Visits.refused_of_isNil hnil]
              exact hfirst
            · exact nomatch h
          · split at h
            · exact nomatch h
            · exact hfirst.andThen (f := fun b => Visits.refused b rest)
                (held_forEachLoop rest h)

end

theorem lock_balanced_iff (c : Call) (m m' : Manager) (r : Int) (h : call c m = some (r, m')) :
    m'.depth = m.depth ↔ Call.refused m.finalizing c = 0 := by
  rw [(held_call c h).depth]
  omega

def onePlugin : Manager := ⟨0, true, false, 1, [⟨0, true, true, false⟩], 1⟩

def lookingBack : Call := .finalizeAll (fun _ => 0)
  (.visit (.cons (.forEach (.visit .nil 0 .nil)) .nil) 0 .nil)

theorem lock_balanced_looking_back :
    ∃ m, call lookingBack onePlugin = some (0, m) ∧ m.depth = onePlugin.depth :=
  ⟨_, rfl, (lock_balanced_iff lookingBack onePlugin _ 0 rfl).mpr rfl⟩

def finalizingAgain : Call := .finalizeAll (fun _ => 0)
  (.visit (.cons (.finalizeAll (fun _ => 0) .nil) .nil) 0 .nil)

theorem lock_unbalanced_again :
    ¬∀ m r, call finalizingAgain onePlugin = some (r, m) → m.depth = onePlugin.depth := by
  intro h
  exact nomatch h _ 0 rfl

end OpaeLibs.OpaeC.LockDepth
