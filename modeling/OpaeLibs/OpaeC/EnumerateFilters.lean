import OpaeLibs.OpaeC.EnumerateTokens

namespace OpaeLibs.OpaeC.EnumerateFilters

open OpaeLibs.Lib.Heap
open OpaeLibs.OpaeC.Props OpaeLibs.OpaeC.ApiShell OpaeLibs.OpaeC.Enumerate
open OpaeLibs.OpaeC.EnumerateTokens

variable (tables : Tables) (env : EnumerateEnv) (adapters : List Nat) (s : Shell)
  (args : EnumerateArgs)

theorem fpgaEnumerate_props {r : EnumerateResult}
    (h : fpgaEnumerate tables env adapters s args = some r) : r.shell.props = s.props := by
  cases hu : unwrapParents env s [] 0 args.filterList with
  | some u =>
    obtain ⟨r', ws, he, henum, -⟩ := fpgaEnumerate_of_unwrapParents tables env adapters hu
    obtain rfl := Option.some.inj (h.symm.trans he)
    obtain ⟨log, hshell⟩ := henum.shell
    rw [hshell]
    rfl
  | none =>
    -- the call is refused before it looks at the filters
    unfold fpgaEnumerate at h
    split at h
    · exact Option.some.inj h ▸ rfl
    split at h
    · exact Option.some.inj h ▸ rfl
    split at h
    · exact Option.some.inj h ▸ rfl
    split at h
    · exact Option.some.inj h ▸ rfl
    split at h
    · exact Option.some.inj h ▸ rfl
    · rw [hu] at h
      exact nomatch h

/-- However the call ends, all properties objects, the filters among them, are as they were; and it
ends unless it reads a freed object. -/
theorem fpgaEnumerate_keeps_filters :
    (FiltersLive s args.filterList → (fpgaEnumerate tables env adapters s args).isSome = true) ∧
      ∀ r, fpgaEnumerate tables env adapters s args = some r → r.shell.props = s.props := by
  constructor
  · intro hlive
    obtain ⟨r, ws, he, -⟩ := fpgaEnumerate_spec tables env adapters hlive
    rw [he]
    rfl
  · exact fun r => fpgaEnumerate_props tables env adapters s args

section Sample

def sampleFilter : FpgaProperties TokenPtr := storeParent opaePropertiesCreate (.wrapped 0)

def sampleShell : Shell :=
  { start with tokens := .alloc .empty ⟨some ⟨0, 7⟩, 1, 0⟩, props := .alloc .empty sampleFilter }

def sampleTwice : EnumerateArgs := ⟨some [some 0, some 0], 2, false, 0, true⟩

/-- A filter that is listed twice has lost its wrapped parent when it comes up again. -/
theorem fpgaEnumerate_keeps_filters_sample :
    ∃ r, fpgaEnumerate (fun _ _ => true) sampleEnv [0, 1] sampleShell sampleTwice = some r ∧
      r.res = .invalidParam ∧ r.shell.props.get 0 = some sampleFilter := by
  have hlive : FiltersLive sampleShell sampleTwice.filterList := by
    intro id hid
    obtain rfl : id = 0 := by simpa [sampleTwice, EnumerateArgs.filterList] using hid
    exact ⟨sampleFilter, rfl, fun _ t ht => by cases ht; exact ⟨_, rfl⟩⟩
  obtain ⟨hsome, hkept⟩ := fpgaEnumerate_keeps_filters (fun _ _ => true) sampleEnv [0, 1]
    sampleShell sampleTwice
  obtain ⟨r, hr⟩ := Option.isSome_iff_exists.mp (hsome hlive)
  have hres : (fpgaEnumerate (fun _ _ => true) sampleEnv [0, 1] sampleShell sampleTwice).map
      (·.res) = some .invalidParam := rfl
  rw [hr] at hres
  exact ⟨r, hr, Option.some.inj hres, by rw [hkept r hr]; rfl⟩

end Sample

end OpaeLibs.OpaeC.EnumerateFilters
