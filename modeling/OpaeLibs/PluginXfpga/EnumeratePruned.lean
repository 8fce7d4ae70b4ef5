import OpaeLibs.PluginXfpga.EnumerateNodes

namespace OpaeLibs.PluginXfpga.EnumeratePruned

open OpaeLibs.OpaeC.Props OpaeLibs.PluginXfpga.Properties OpaeLibs.PluginXfpga.Enumerate
  OpaeLibs.PluginXfpga.EnumerateNodes

variable {π δ : Type} (env : EnumEnv π δ)

theorem objtype_syncedAfu (n : DevList π δ) : (syncedAfu env n).objtype = n.objtype := by
  rw [syncedAfu]
  dsimp only
  split <;> (try split) <;> rfl

theorem objtype_portAttrs {d : SysfsFpgaDevice π δ} {n : DevList π δ}
    (h : n ∈ portAttrs env d) : n.objtype = .accelerator := by
  obtain ⟨r, -, hr⟩ := Option.bind_eq_some_iff.mp h
  split at hr
  · rw [← Option.some_inj.mp hr, objtype_syncedAfu]
    rfl
  · exact nomatch hr

variable [DecidableEq π] {filters : List (Filter π δ)} (maxTokens : Nat)

theorem matchesFilter_of_objtype {n : DevList π δ} {f : Filter π δ}
    (hvalid : fieldValid f.props fpgaPropertyObjtype) (htype : f.props.objtype ≠ n.objtype) :
    matchesFilter env n f = false := by
  have hobj : passes f.props fpgaPropertyObjtype (f.props.objtype == n.objtype) = false := by
    rw [passes, decide_eq_true hvalid, beq_false_of_ne htype]
    rfl
  simp only [matchesFilter, hobj, Bool.and_false, Bool.false_and]

theorem not_matchesFilters (hafu : includeAfu filters = false) {n : DevList π δ}
    (hn : n.objtype = .accelerator) : matchesFilters env n filters = false := by
  cases filters with
  | nil => exact nomatch hafu
  | cons f filters =>
    refine List.any_eq_false.mpr fun g hg => ?_
    have h := Bool.eq_false_iff.mpr (List.any_eq_false.mp hafu g hg)
    rw [Bool.or_eq_false_iff, Bool.not_eq_false', decide_eq_true_iff] at h
    rw [matchesFilter_of_objtype env h.1 (hn ▸ ne_of_beq_false h.2)]
    exact Bool.false_ne_true

theorem foldlM_portAttrs (hafu : includeAfu filters = false) (d : SysfsFpgaDevice π δ)
    (acc : Found π δ) :
    (portAttrs env d).toList.foldlM (consider env filters maxTokens) acc = some acc := by
  cases hp : portAttrs env d with
  | none => rfl
  | some n =>
    have hn := not_matchesFilters env hafu (objtype_portAttrs env hp)
    rw [Option.toList_some, List.foldlM_cons, consider, hn]
    rfl

theorem foldlM_attrs (hafu : includeAfu filters = false) (devices : List (SysfsFpgaDevice π δ))
    (acc : Found π δ) :
    (devices.flatMap (attrs env true)).foldlM (consider env filters maxTokens) acc =
      (devices.flatMap (attrs env false)).foldlM (consider env filters maxTokens) acc := by
  induction devices generalizing acc with
  | nil => rfl
  | cons d devices ih =>
    have hfst : (attrs env true d).foldlM (consider env filters maxTokens) acc =
        (attrs env false d).foldlM (consider env filters maxTokens) acc := by
      simp only [attrs, if_true, Bool.false_eq_true, if_false, List.append_nil,
        List.foldlM_append, foldlM_portAttrs env maxTokens hafu]
      exact bind_pure _
    rw [List.flatMap_cons, List.flatMap_cons, List.foldlM_append, List.foldlM_append, hfst]
    congr 1
    funext acc
    exact ih acc

theorem enumerateWith_includeAfu (init : FpgaResult) (devices : List (SysfsFpgaDevice π δ)) :
    enumerateWith env filters maxTokens (includeAfu filters) init devices =
      enumerateWith env filters maxTokens true init devices := by
  cases hafu : includeAfu filters with
  | true => rfl
  | false =>
    by_cases hinit : init = .ok
    · rw [hinit, enumerateWith_eq, enumerateWith_eq, foldlM_attrs env maxTokens hafu]
    · rw [enumerateWith, enumerateWith, enumFpgaRegionResources, enumFpgaRegionResources,
        if_pos hinit, if_pos hinit]

/-- Leaving out the ports where no filter asks for one changes neither the tokens nor their
number. -/
theorem enumerate_pruned (init : FpgaResult) (devices : List (SysfsFpgaDevice π δ))
    (args : EnumArgs π δ) :
    xfpgaFpgaEnumerate env init devices args =
      enumerateArgs (fun _ => true) env init devices args := by
  simp only [xfpgaFpgaEnumerate, enumerateArgs, enumerateWith_includeAfu]

end OpaeLibs.PluginXfpga.EnumeratePruned
