import OpaeLibs.Lib.JsonC
import OpaeLibs.Lib.Picks
import OpaeLibs.OpaeC.ParseConfig

namespace OpaeLibs.OpaeC.CfgBuffer

open OpaeLibs.Lib.CStrings OpaeLibs.Lib.JsonC OpaeLibs.Lib.Picks

/-- A `plugin_cfg`. The texts are without their terminators. -/
structure PluginCfg where
  name : List UInt8
  plugin : List UInt8
  enabled : Bool
  cfg : List UInt8
  cfgSize : Nat
deriving DecidableEq

/-- `opae_plugin_mgr_config_list` and `opae_plugin_mgr_plugin_count`. -/
structure ConfigList where
  entries : List PluginCfg
  pluginCount : Nat
deriving DecidableEq

def opaePluginMgrAddPlugin (l : ConfigList) (cfg : PluginCfg) : ConfigList :=
  ⟨l.entries ++ [cfg], l.pluginCount + 1⟩

def pluginNameMax : Nat := 64
def maxPluginCfgSize : Nat := 8192

def keyPlugins : CString := ⟨ascii "plugins", by decide⟩
def keyConfigurations : CString := ⟨ascii "configurations", by decide⟩
def keyPlugin : CString := ⟨ascii "plugin", by decide⟩
def keyConfiguration : CString := ⟨ascii "configuration", by decide⟩
def keyEnabled : CString := ⟨ascii "enabled", by decide⟩

/-- What `strnlen` and `memcpy` put into a field of this size, before its terminator. -/
def copied (size : Nat) (s : CString) : List UInt8 := s.val.take (size - 1)

/-- Whether the two allocations for a plugin succeed. -/
structure Mem where
  entry : Bool
  cfg : Bool

section Code

variable {δ : Type} (json : JsonLib δ)

/-- The entry that is added, if the result is zero; `none` is a `NULL` that is read. -/
def processPlugin (mem : Mem) (name : CString) (jConfig : Json δ) : Option (Option PluginCfg) :=
  match jConfig.objectGetEx keyPlugin with
  | none => some none
  | some jPlugin =>
    match jConfig.objectGetEx keyConfiguration with
    | none => some none
    | some jPluginCfg =>
      match jConfig.objectGetEx keyEnabled with
      | none => some none
      | some jEnabled =>
        if jPlugin.getStringLen > pluginNameMax then some none
        else if !mem.entry then some none
        else
          match json.write .plain jPluginCfg with
          | none => some none
          | some stringified =>
            let cfgSize := stringified.val.length + 1
            if cfgSize ≥ maxPluginCfgSize then some none
            else if !mem.cfg then some none
            else
              match json.getString jPlugin with
              | none => none
              | some plugin =>
                some (some
                  { name := copied pluginNameMax name
                    plugin := copied pluginNameMax (cText plugin)
                    enabled := json.getBoolean jEnabled
                    cfg := copied cfgSize stringified
                    cfgSize := cfgSize })

/-- A round of the loop. A name that is `NULL` is only looked up in an object. -/
def processListed (jConfigs : Json δ) (listed : Json δ × Mem) : Option (Option PluginCfg) :=
  match json.getString listed.1 with
  | none => if jConfigs.isObject then none else some none
  | some pluginName =>
    match jConfigs.objectGetEx (cText pluginName) with
    | some jConfig => processPlugin json listed.2 (cText pluginName) jConfig
    | none => some none

def processPlugins (jConfigs : Json δ) :
    List (Json δ × Mem) → Nat × ConfigList → Option (Nat × ConfigList)
  | [], s => some s
  | listed :: rest, (numErrors, l) =>
    match processListed json jConfigs listed with
    | none => none
    | some none => processPlugins jConfigs rest (numErrors + 1, l)
    | some (some cfg) => processPlugins jConfigs rest (numErrors, opaePluginMgrAddPlugin l cfg)

def withMem (mem : Nat → Mem) (plugins : List (Json δ)) : List (Json δ × Mem) :=
  plugins.zipIdx.map fun p => (p.1, mem p.2)

/-- The result and the list. The number of plugins is an `int`. -/
def processCfgBuffer (mem : Nat → Mem) (buffer : List UInt8) (l : ConfigList) :
    Option (Nat × ConfigList) :=
  match json.tokenerParse buffer with
  | none => some (1, l)
  | some root =>
    match root.objectGetEx keyPlugins with
    | none => some (1, l)
    | some jPlugins =>
      match root.objectGetEx keyConfigurations with
      | none => some (1, l)
      | some jConfigs =>
        match jPlugins with
        | .array plugins =>
          let numPlugins := (Int32.ofNat plugins.length).toInt
          processPlugins json jConfigs (withMem mem (plugins.take numPlugins.toNat)) (0, l)
        | _ => some (1, l)

end Code

/-- A text that a field of a name has room for. -/
def Fits (s : List UInt8) : Prop := s.length < pluginNameMax ∧ 0 ∉ s

instance (s : List UInt8) : Decidable (Fits s) := inferInstanceAs (Decidable (_ ∧ _))

section Wanted

variable {δ : Type} (json : JsonLib δ)

/-- The entry of a listed plugin that has all it needs, with the texts of the JSON. -/
def entryOf (jConfigs : Json δ) (listed : Json δ × Mem) : Option PluginCfg := do
  let name ← json.getString listed.1
  let jConfig ← jConfigs.objectGetEx (cText name)
  let jPlugin ← jConfig.objectGetEx keyPlugin
  let jPluginCfg ← jConfig.objectGetEx keyConfiguration
  let jEnabled ← jConfig.objectGetEx keyEnabled
  let plugin ← json.getString jPlugin
  let cfg ← json.write .plain jPluginCfg
  if Fits name ∧ Fits plugin ∧ cfg.val.length + 1 < maxPluginCfgSize ∧ listed.2.entry ∧ listed.2.cfg
  then some ⟨name, plugin, json.getBoolean jEnabled, cfg.val, cfg.val.length + 1⟩
  else none

/-- The list of plugins and the configurations of a text that has both. -/
def configurationOf (buffer : List UInt8) : Option (List (Json δ) × Json δ) := do
  let root ← json.tokenerParse buffer
  let jPlugins ← root.objectGetEx keyPlugins
  let jConfigs ← root.objectGetEx keyConfigurations
  match jPlugins with
  | .array plugins => some (plugins, jConfigs)
  | _ => none

/-- Every listed plugin is added as the JSON has it, or counted. -/
def ExactOrRejected (mem : Nat → Mem) (buffer : List UInt8) (l : ConfigList) : Prop :=
  ∀ plugins jConfigs, configurationOf json buffer = some (plugins, jConfigs) →
    let wanted := (withMem mem plugins).filterMap (entryOf json jConfigs)
    processCfgBuffer json mem buffer l =
      some ((withMem mem plugins).countP fun listed => (entryOf json jConfigs listed).isNone,
        ⟨l.entries ++ wanted, l.pluginCount + wanted.length⟩)

end Wanted

section Entries

variable {δ : Type} {json : JsonLib δ} {jConfigs jConfig : Json δ} {listed : Json δ × Mem}

theorem copied_of_fits {s : List UInt8} (h : Fits s) : copied pluginNameMax (cText s) = s := by
  rw [copied, cText_of_notMem h.2]
  exact List.take_of_length_le (Nat.le_sub_one_of_lt h.1)

theorem copied_length (s : CString) : copied (s.val.length + 1) s = s.val := List.take_length

theorem getStringLen_le {j : Json δ} {s : List UInt8} (h : json.getString j = some s) :
    j.getStringLen ≤ s.length := by
  cases j with
  | string t =>
    obtain rfl := Option.some.inj h
    exact Nat.le_refl _
  | null | boolean _ | int _ | double _ | array _ | object _ => exact Nat.zero_le _

variable (json) in
/-- A configuration gets through the checks of `process_plugin`. -/
structure Passes (mem : Mem) (jConfig jPlugin jEnabled : Json δ) (stringified : CString) :
    Prop where
  plugin : jConfig.objectGetEx keyPlugin = some jPlugin
  configuration : ∃ jPluginCfg, jConfig.objectGetEx keyConfiguration = some jPluginCfg ∧
    json.write .plain jPluginCfg = some stringified
  enabled : jConfig.objectGetEx keyEnabled = some jEnabled
  pluginLen : jPlugin.getStringLen ≤ pluginNameMax
  cfgSize : stringified.val.length + 1 < maxPluginCfgSize
  entry : mem.entry = true
  cfg : mem.cfg = true

theorem Passes.processPlugin_eq {mem : Mem} {jPlugin jEnabled : Json δ} {text name : CString}
    (h : Passes json mem jConfig jPlugin jEnabled text) :
    processPlugin json mem name jConfig = (json.getString jPlugin).map fun plugin => some
      { name := copied pluginNameMax name
        plugin := copied pluginNameMax (cText plugin)
        enabled := json.getBoolean jEnabled
        cfg := text.val
        cfgSize := text.val.length + 1 } := by
  obtain ⟨jPluginCfg, hcfg, hwrite⟩ := h.configuration
  simp only [processPlugin, h.plugin, hcfg, h.enabled, hwrite, h.entry, h.cfg, copied_length]
  rw [if_neg (Nat.not_lt.mpr h.pluginLen), if_neg (by decide), if_neg (Nat.not_le.mpr h.cfgSize),
    if_neg (by decide)]
  cases json.getString jPlugin <;> rfl

theorem processPlugin_eq_none {mem : Mem} {name : CString}
    (h : ∀ jPlugin jEnabled text, ¬Passes json mem jConfig jPlugin jEnabled text) :
    processPlugin json mem name jConfig = some none := by
  rw [processPlugin]
  split
  · rfl
  next jPlugin hplugin =>
  split
  · rfl
  next jPluginCfg hcfg =>
  split
  · rfl
  next jEnabled henabled =>
  split
  · rfl
  next hlen =>
  split
  · rfl
  next hentry =>
  split
  · rfl
  next text hwrite =>
  dsimp only
  split
  · rfl
  next hsize =>
  split
  · rfl
  next hmem =>
  exact absurd ⟨hplugin, ⟨jPluginCfg, hcfg, hwrite⟩, henabled, Nat.not_lt.mp hlen,
    Nat.not_le.mp hsize, by simpa using hentry, by simpa using hmem⟩ (h jPlugin jEnabled text)

theorem entryOf_eq_some {e : PluginCfg} : entryOf json jConfigs listed = some e ↔
    ∃ name jConfig jPlugin jEnabled plugin text, json.getString listed.1 = some name ∧
      jConfigs.objectGetEx (cText name) = some jConfig ∧
      Passes json listed.2 jConfig jPlugin jEnabled text ∧
      json.getString jPlugin = some plugin ∧ Fits name ∧ Fits plugin ∧
      e = ⟨name, plugin, json.getBoolean jEnabled, text.val, text.val.length + 1⟩ := by
  simp only [entryOf, Option.bind_eq_bind, Option.bind_eq_some_iff, Option.ite_none_right_eq_some]
  constructor
  · rintro ⟨name, hname, jConfig, hconfig, jPlugin, hplugin, jCfg, hcfg, jEnabled, henabled, plugin,
      hget, text, hwrite, ⟨hfname, hfplugin, hsize, hentry, hmem⟩, heq⟩
    have hlen : jPlugin.getStringLen ≤ pluginNameMax :=
      Nat.le_trans (getStringLen_le hget) (Nat.le_of_lt hfplugin.1)
    exact ⟨name, jConfig, jPlugin, jEnabled, plugin, text, hname, hconfig,
      ⟨hplugin, ⟨jCfg, hcfg, hwrite⟩, henabled, hlen, hsize, hentry, hmem⟩, hget, hfname, hfplugin,
      (Option.some.inj heq).symm⟩
  · rintro ⟨name, jConfig, jPlugin, jEnabled, plugin, text, hname, hconfig, hpasses, hget, hfname,
      hfplugin, rfl⟩
    obtain ⟨jCfg, hcfg, hwrite⟩ := hpasses.configuration
    exact ⟨name, hname, jConfig, hconfig, jPlugin, hpasses.plugin, jCfg, hcfg, jEnabled,
      hpasses.enabled, plugin, hget, text, hwrite,
      ⟨hfname, hfplugin, hpasses.cfgSize, hpasses.entry, hpasses.cfg⟩, rfl⟩

theorem processListed_of_entryOf {e : PluginCfg} (h : entryOf json jConfigs listed = some e) :
    processListed json jConfigs listed = some (some e) := by
  obtain ⟨name, jConfig, jPlugin, jEnabled, plugin, text, hname, hconfig, hpasses, hget, hfname,
    hfplugin, rfl⟩ := entryOf_eq_some.mp h
  simp only [processListed, hname, hconfig, hpasses.processPlugin_eq, hget, Option.map_some,
    copied_of_fits hfname, copied_of_fits hfplugin]

variable (json jConfigs listed) in
/-- The plugin has a name to look up, and no field cuts the name or the library of a configuration
that gets through the checks. -/
structure Kept : Prop where
  named : json.getString listed.1 = none → jConfigs.isObject = false
  fits : ∀ name jConfig jPlugin jEnabled text, json.getString listed.1 = some name →
    jConfigs.objectGetEx (cText name) = some jConfig →
    Passes json listed.2 jConfig jPlugin jEnabled text →
    Fits name ∧ ∃ plugin, json.getString jPlugin = some plugin ∧ Fits plugin

theorem processListed_iff :
    processListed json jConfigs listed = some (entryOf json jConfigs listed) ↔
      Kept json jConfigs listed := by
  constructor
  · intro h
    refine ⟨fun hnone => ?_, fun name jConfig jPlugin jEnabled text hname hconfig hpasses => ?_⟩
    · rw [processListed, hnone] at h
      cases hobj : jConfigs.isObject with
      | false => rfl
      | true =>
        rw [hobj] at h
        exact nomatch h
    · simp only [processListed, hname, hconfig, hpasses.processPlugin_eq] at h
      obtain ⟨plugin, hget, hsome⟩ := Option.map_eq_some_iff.mp h
      obtain ⟨name', jConfig', jPlugin', _, plugin', _, hname', hconfig', hpasses', hget', hfname,
        hfplugin, -⟩ := entryOf_eq_some.mp hsome.symm
      obtain rfl := Option.some.inj (hname.symm.trans hname')
      obtain rfl := Option.some.inj (hconfig.symm.trans hconfig')
      obtain rfl := Option.some.inj (hpasses.plugin.symm.trans hpasses'.plugin)
      exact ⟨hfname, plugin', hget', hfplugin⟩
  · rintro ⟨hnamed, hfits⟩
    cases hentry : entryOf json jConfigs listed with
    | some e => exact processListed_of_entryOf hentry
    | none =>
      rw [processListed]
      split
      next hname => rw [hnamed hname]; rfl
      next name hname =>
      split
      case h_2 => rfl
      case h_1 jConfig hconfig =>
        apply processPlugin_eq_none
        intro jPlugin jEnabled text hpasses
        obtain ⟨hfname, plugin, hget, hfplugin⟩ :=
          hfits name jConfig jPlugin jEnabled text hname hconfig hpasses
        have hsome := entryOf_eq_some.mpr ⟨name, jConfig, jPlugin, jEnabled, plugin, text, hname,
          hconfig, hpasses, hget, hfname, hfplugin, rfl⟩
        exact nomatch hentry.symm.trans hsome

end Entries

section Buffer

variable {δ : Type} {json : JsonLib δ} {mem : Nat → Mem} {buffer : List UInt8} {l : ConfigList}

theorem processPlugins_eq (jConfigs : Json δ) (ps : List (Json δ × Mem)) (n : Nat)
    (l : ConfigList) : processPlugins json jConfigs ps (n, l) =
      (pickAll (processListed json jConfigs) ps).map fun r =>
        (n + r.1, ⟨l.entries ++ r.2, l.pluginCount + r.2.length⟩) := by
  induction ps generalizing n l with
  | nil =>
    rw [processPlugins, pickAll, Option.map_some, List.append_nil]
    rfl
  | cons p ps ih =>
    rw [processPlugins, pickAll]
    cases processListed json jConfigs p with
    | none => rfl
    | some e =>
      cases e with
      | none =>
        dsimp only
        rw [ih, Option.map_map]
        congr 1
        funext r
        exact congrArg (Prod.mk · _) (Nat.add_right_comm n 1 r.1)
      | some e =>
        dsimp only
        rw [ih, Option.map_map]
        congr 1
        funext r
        simp only [opaePluginMgrAddPlugin, Function.comp_apply, List.append_assoc,
          List.singleton_append, List.length_cons, Nat.add_assoc, Nat.add_comm 1]

theorem processCfgBuffer_of_none (h : configurationOf json buffer = none) :
    processCfgBuffer json mem buffer l = some (1, l) := by
  rw [processCfgBuffer]
  split
  · rfl
  next root hroot =>
  split
  · rfl
  next jPlugins hplugins =>
  split
  · rfl
  next jConfigs hconfigs =>
  split
  case h_2 => rfl
  case h_1 plugins =>
    simp only [configurationOf, hroot, hplugins, hconfigs, Option.bind_eq_bind,
      Option.bind_some] at h
    exact nomatch h

theorem processCfgBuffer_of_some {plugins : List (Json δ)} {jConfigs : Json δ}
    (h : configurationOf json buffer = some (plugins, jConfigs)) :
    processCfgBuffer json mem buffer l =
      processPlugins json jConfigs (withMem mem plugins) (0, l) := by
  simp only [configurationOf, Option.bind_eq_bind, Option.bind_eq_some_iff] at h
  obtain ⟨root, hroot, jPlugins, hplugins, jConfigs', hconfigs, hmatch⟩ := h
  cases jPlugins with
  | array elems =>
    obtain ⟨rfl, rfl⟩ := Prod.mk.inj (Option.some.inj hmatch)
    have hlt := json.arrayLength_lt _ _ _ _ hroot hplugins
    have hnum : (Int32.ofNat elems.length).toInt.toNat = elems.length := by
      rw [Int32.toInt_ofNat_of_lt hlt, Int.toNat_natCast]
    simp only [processCfgBuffer, hroot, hplugins, hconfigs, hnum, List.take_length]
  | null | boolean _ | int _ | double _ | string _ | object _ => exact nomatch hmatch

def parseConfigInto (json : JsonLib δ) (mem : Nat → Mem) (file : Option ParseConfig.Stream)
    (stack : Memory) (l : ConfigList) : Option (Nat × ConfigList) :=
  match (ParseConfig.opaePluginMgrParseConfig file stack).passed with
  | none => some (1, l)
  | some buffer => processCfgBuffer json mem (textAt buffer ParseConfig.maxCfgSize 0) l

theorem parseConfigInto_eq {file : ParseConfig.Stream} {stack : Memory} (hnul : 0 ∉ file.bytes)
    (hlen : file.bytes.length < ParseConfig.maxCfgSize) (hfails : file.fails = false) :
    parseConfigInto json mem (some file) stack l = processCfgBuffer json mem file.bytes l := by
  have hpassed : (ParseConfig.opaePluginMgrParseConfig (some file) stack).passed = _ :=
    ParseConfig.parseConfig_passed (Nat.le_of_lt hlen)
  rw [hfails, if_neg Bool.false_ne_true] at hpassed
  rw [parseConfigInto, hpassed]
  dsimp only
  rw [ParseConfig.textAt_passed hnul hlen hpassed]

/-- The configuration is added as it is exactly if no plugin of it has to be cut. -/
theorem exactOrRejected_iff (json : JsonLib δ) (mem : Nat → Mem) (buffer : List UInt8)
    (l : ConfigList) : ExactOrRejected json mem buffer l ↔
      ∀ plugins jConfigs, configurationOf json buffer = some (plugins, jConfigs) →
        ∀ listed ∈ withMem mem plugins, Kept json jConfigs listed := by
  apply forall_congr'
  intro plugins
  apply forall_congr'
  intro jConfigs
  apply imp_congr_right
  intro hconf
  have hwant : ∀ p ∈ withMem mem plugins, ∀ e, entryOf json jConfigs p = some e →
      processListed json jConfigs p = none ∨ processListed json jConfigs p = some (some e) :=
    fun p _ e he => .inr (processListed_of_entryOf he)
  have hkept : (∀ p ∈ withMem mem plugins, Kept json jConfigs p) ↔
      ∀ p ∈ withMem mem plugins,
        processListed json jConfigs p = some (entryOf json jConfigs p) := by
    simp only [processListed_iff]
  rw [hkept, ← pickAll_eq_iff hwant, processCfgBuffer_of_some hconf, processPlugins_eq]
  constructor
  · intro h
    obtain ⟨r, hr, heq⟩ := Option.map_eq_some_iff.mp h
    obtain ⟨hcount, hlist⟩ := Prod.mk.inj heq
    rw [Nat.zero_add] at hcount
    have hentries := List.append_cancel_left (ConfigList.mk.inj hlist).1
    exact hr.trans (congrArg some (Prod.ext hcount hentries))
  · intro h
    dsimp only
    rw [h, Option.map_some, Nat.zero_add]

end Buffer

section Samples

def longPlugin : List UInt8 := ascii "lib" ++ List.replicate 58 97 ++ ascii ".so"

def longConfigs : Json Unit :=
  .object
    [(⟨ascii "p", by decide⟩, .object
      [(keyPlugin, .string longPlugin), (keyConfiguration, .object []),
        (keyEnabled, .boolean true)])]

def longRoot : Json Unit :=
  .object [(keyPlugins, .array [.string (ascii "p")]), (keyConfigurations, longConfigs)]

def longText : List UInt8 :=
  ascii "\x7b\"plugins\": [\"p\"], \"configurations\": \x7b\"p\": \x7b\"plugin\": \"" ++
    longPlugin ++ ascii "\", \"configuration\": \x7b\x7d, \"enabled\": true\x7d\x7d\x7d"

def longLib : JsonLib Unit where
  nonzero := fun _ => false
  write := fun _ _ => some ⟨[123, 125], by decide⟩
  tokenerParse := fun text => if text = longText then some longRoot else none
  arrayLength_lt := by
    intro text root key l hroot h
    split at hroot
    · obtain rfl := Option.some.inj hroot
      simp only [longRoot, Json.objectGetEx, List.lookup] at h
      split at h
      · obtain rfl := Json.array.inj (Option.some.inj h)
        decide
      · split at h
        · exact nomatch h
        · exact nomatch h
    · exact nomatch hroot

/-- The last byte of the library is cut off. -/
theorem longPlugin_cut :
    ¬ExactOrRejected longLib (fun _ => ⟨true, true⟩) longText ⟨[], 0⟩ := by
  have hparse : longLib.tokenerParse longText = some longRoot := by
    dsimp only [longLib]
    rw [if_pos rfl]
  have hconf : configurationOf longLib longText = some ([.string (ascii "p")], longConfigs) := by
    rw [configurationOf, hparse]
    rfl
  intro h
  have hcut := h _ _ hconf
  rw [processCfgBuffer_of_some hconf] at hcut
  exact absurd hcut (by decide)

end Samples

end OpaeLibs.OpaeC.CfgBuffer
