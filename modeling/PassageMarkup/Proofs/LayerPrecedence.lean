/-
Module: PassageMarkup.Proofs.LayerPrecedence
Layer: Proofs
Purpose: Overrides over files over defaults. What a layer of a configuration says is compared apart from the
  libraries that put layers together: of each setting, the topmost layer that says something about it
  counts. A library respects the layers if every configuration that it builds over the defaults, from at
  most one file and overrides of the format and the level, is what its layers say. The library for TOML
  documents does.
Imports: Config.Load, Proofs.SettingLayers
Main exports: Given, Given.stack, Config.given, Given.ofOverrides, ConfigLibrary.RespectsLayers,
  layered_of_sources, settingIn?_of_overrides, ConfigLibrary.toml_respectsLayers
-/
import PassageMarkup.Config.Load
import PassageMarkup.Proofs.SettingLayers

namespace PassageMarkup

/-! ### What layers say -/

/-- What a layer says about the settings that decide a report. -/
structure Given where
  format : Option String
  calls : Option (List (String × Pattern))
deriving DecidableEq

/-- What layers say together, the topmost one first. -/
def Given.stack : List Given → Given
  | [] => ⟨none, none⟩
  | upper :: lower => ⟨upper.format.or (stack lower).format, upper.calls.or (stack lower).calls⟩

/-- What a configuration says. -/
def Config.given (config : Config) : Given :=
  ⟨some config.format, some config.calls⟩

/-- The keys of the settings that options override. -/
def optionKeys : List String :=
  ["output.format", "logging.level"]

/-- What overrides of such keys say: the last one of the format counts. -/
def Given.ofOverrides (overrides : List (String × String)) : Given :=
  ⟨overrides.reverse.lookup "output.format", none⟩

/-- A library that respects layers, where `given` is what it reads in a source: the defaults are read as they
are written, and overrides win over a file, and the file over the defaults. -/
structure ConfigLibrary.RespectsLayers (library : ConfigLibrary) (given : FileReader → Source → Given) :
    Prop where
  defaults : ∀ read, given read (.text defaultText) = ⟨some "ast-json", some []⟩
  built : ∀ {read : FileReader} {file : Option Source} {overrides : List (String × String)}
      {config : Config}, (∀ entry ∈ overrides, entry.1 ∈ optionKeys) →
    library.build read (.text defaultText :: file.toList)
        (overrides.map fun entry => (entry.1, .text entry.2)) = .ok config →
    Given.stack (Given.ofOverrides overrides ::
      (file.toList.map (given read) ++ [given read (.text defaultText)])) = config.given

/-- A file at most, between the topmost layer and the lowest one. -/
theorem Given.stack_file (top lowest : Given) (file : Option Source) (given : Source → Given) :
    stack (top :: (file.toList.map given ++ [lowest])) =
      ⟨top.format.or ((file.bind fun source => (given source).format).or lowest.format),
        top.calls.or ((file.bind fun source => (given source).calls).or lowest.calls)⟩ := by
  cases file <;> simp [stack]

/-! ### Overrides of TOML documents -/

namespace Config

/-- Names that are in lower case already. -/
theorem lowercase_groups : Text.lowercase "output" = "output" ∧ Text.lowercase "logging" = "logging" := by
  decide

/-- An override of a setting leaves the other groups alone. -/
theorem settingIn?_putAt {path : Path} {group : String} (h : group ≠ Text.lowercase path.first)
    (name : String) (value : Setting) (fields : Fields) :
    settingIn? group name (putAt path value fields) = settingIn? group name fields := by
  rcases exists_edit_putAt path value with ⟨edit, _, hput⟩
  have hlookup : (putAt path value fields).lookup group = fields.lookup group := by
    rw [hput, editFields, List.foldl_cons, List.foldl_nil, lookup_setKey, if_neg h]
  rw [settingIn?, settingIn?, hlookup]

theorem settingIn?_putAt_format (value : Setting) (hvalue : ∀ fields, value ≠ .table fields)
    (fields : Fields) :
    settingIn? "output" "format" (putAt ⟨"output", [.field "format"]⟩ value fields) = some value := by
  have hname : Text.lowercase "format" = "format" := by decide
  have hmerge : ∀ old, merge value old = value := by
    intro old
    cases value with
    | table inner => exact absurd rfl (hvalue inner)
    | _ => rfl
  have hput : putAt ⟨"output", [.field "format"]⟩ value fields =
      setKey "output" (.table (setKey "format" value
        (fieldsOf ((fields.lookup "output").getD .nil)))) fields := by
    simp [putAt, putSteps, fieldsOf, putField_eq, hmerge, lowercase_groups, hname]
  rw [hput]
  apply settingIn?_eq
  · rw [lookup_setKey, if_pos rfl]
  · rw [recordField?, lookup_setKey, if_pos rfl]

/-- What one override of the format or the level does to the settings that decide a report. -/
theorem settingIn?_of_putOverride {entry : String × String} (hkey : entry.1 ∈ optionKeys)
    {fields next : Fields} (h : putOverride fields (entry.1, .text entry.2) = .ok next) :
    settingIn? "output" "format" next =
        (([entry].lookup "output.format").map .text).or (settingIn? "output" "format" fields) ∧
      settingIn? "catalog" "macros" next = settingIn? "catalog" "macros" fields := by
  have hformat : pathOf "output.format" = .ok ⟨"output", [.field "format"]⟩ := by decide
  have hlevel : pathOf "logging.level" = .ok ⟨"logging", [.field "level"]⟩ := by decide
  obtain ⟨key, value⟩ := entry
  have hkeys : key = "output.format" ∨ key = "logging.level" := by simpa [optionKeys] using hkey
  rcases except_bind_eq_ok.1 h with ⟨path, hpath, hnext⟩
  cases hnext
  rcases hkeys with rfl | rfl
  · obtain rfl := Except.ok.inj (hformat.symm.trans hpath)
    refine ⟨?_, settingIn?_putAt (by decide) ..⟩
    rw [settingIn?_putAt_format _ (by simp)]
    rfl
  · obtain rfl := Except.ok.inj (hlevel.symm.trans hpath)
    exact ⟨settingIn?_putAt (by decide) .., settingIn?_putAt (by decide) ..⟩

/-- What overrides do to the settings that decide a report: the last override of the format decides it. -/
theorem settingIn?_of_overrides {overrides : List (String × String)}
    (hkeys : ∀ entry ∈ overrides, entry.1 ∈ optionKeys) {fields final : Fields}
    (h : (overrides.map fun entry => (entry.1, Setting.text entry.2)).foldlM putOverride fields =
      .ok final) :
    settingIn? "output" "format" final =
        ((Given.ofOverrides overrides).format.map .text).or (settingIn? "output" "format" fields) ∧
      settingIn? "catalog" "macros" final = settingIn? "catalog" "macros" fields := by
  induction overrides generalizing fields with
  | nil =>
      cases h
      exact ⟨rfl, rfl⟩
  | cons entry rest ih =>
      rcases List.forall_mem_cons.1 hkeys with ⟨hkey, hrest⟩
      rcases except_bind_eq_ok.1 h with ⟨next, hnext, hfinal⟩
      rcases settingIn?_of_putOverride hkey hnext with ⟨hformat, hcalls⟩
      rcases ih hrest hfinal with ⟨hlater, hsame⟩
      refine ⟨?_, hsame.trans hcalls⟩
      rw [hlater, hformat, Given.ofOverrides, Given.ofOverrides, List.reverse_cons, List.lookup_append,
        Option.map_or, Option.or_assoc]

/-! ### Files over the defaults -/

/-- What a source of TOML says; one that is missing or malformed says nothing. -/
def givenBy (read : FileReader) (source : Source) : Given :=
  let content := (contentOf read source).toOption.join
  ⟨fileValue? textOf "output" "format" content, fileValue? callsOf "catalog" "macros" content⟩

theorem mergeSource_text (read : FileReader) (fields : Fields) (content : String) :
    mergeSource read fields (.text content) = mergeDocument content fields := rfl

theorem givenBy_defaultText (read : FileReader) :
    givenBy read (.text defaultText) = ⟨some "ast-json", some []⟩ := by
  have hcontent (content : String) : givenBy read (.text content) =
      ⟨fileValue? textOf "output" "format" (some content),
        fileValue? callsOf "catalog" "macros" (some content)⟩ := rfl
  have hown : ownFields (some defaultText) = defaults := by
    rw [ownFields, Option.bind_some, mergeDocument_defaultText]
    rfl
  rw [hcontent, fileValue?, fileValue?, hown]
  decide

/-- The settings that sources over the defaults make. -/
theorem settings_defaultText (read : FileReader) (sources : List Source)
    (overrides : List (String × Setting)) :
    settings read (.text defaultText :: sources) overrides =
      sources.foldlM (mergeSource read) defaults >>= overrides.foldlM putOverride := by
  rw [settings, List.foldlM_cons, mergeSource_text, mergeDocument_defaultText]
  rfl

/-- At most one file over the defaults makes the settings of the file over the defaults. -/
theorem layered_of_sources {read : FileReader} {file : Option Source} {merged : Fields}
    (h : file.toList.foldlM (mergeSource read) defaults = .ok merged) :
    Layered (file.bind fun source => (contentOf read source).toOption.join) merged := by
  cases file with
  | none =>
      cases h
      exact .bare
  | some source =>
      rcases except_bind_eq_ok.1 h with ⟨fields, hsource, hmerged⟩
      cases hmerged
      rcases except_bind_eq_ok.1 hsource with ⟨content, hcontent, hmerge⟩
      rw [Option.bind_some, hcontent]
      cases content with
      | none =>
          cases hmerge
          exact .bare
      | some text => exact .file hmerge

/-- The further calls that the settings over the defaults are read as are those of the file. -/
theorem calls_eq_fileValue {content : Option String} {merged : Fields} (hlayered : Layered content merged)
    {calls : List (String × Pattern)}
    (hcalls : settingIn? "catalog" "macros" merged = none ∧ calls = [] ∨
      ∃ setting, settingIn? "catalog" "macros" merged = some setting ∧ callsOf setting = .ok calls) :
    (fileValue? callsOf "catalog" "macros" content).getD [] = calls := by
  have hdefault : IsDefault "catalog" "macros" (.list []) := ⟨rfl, rfl, rfl⟩
  have hvalue : callsOf (.list []) = .ok [] := rfl
  rcases hcalls with ⟨hnone, rfl⟩ | ⟨setting, hsetting, hread⟩
  · -- the default is gone, so the file has replaced the whole group, and without any calls
    rcases hlayered.file_or_default hdefault with hsame | ⟨hstands, _⟩
    · rw [hnone] at hsame
      simp [fileValue?, ← hsame]
    · rw [hnone] at hstands
      cases hstands
  · exact hlayered.getD_fileValue? hdefault hvalue rfl hsetting hread

/-- The format that settings are read as is the one of the overrides, or else of the file, or else of the
defaults. -/
theorem format_eq_layers {content : Option String} {merged : Fields} (hlayered : Layered content merged)
    {asked : Option String} {setting : Setting} {format : String}
    (hsetting : (asked.map Setting.text).or (settingIn? "output" "format" merged) = some setting)
    (hformat : textOf setting = .ok format) :
    asked.or ((fileValue? textOf "output" "format" content).or (some "ast-json")) = some format := by
  cases asked with
  | some wanted =>
      cases hsetting
      exact congrArg some (Except.ok.inj hformat)
  | none =>
      have hdefault : IsDefault "output" "format" (.text "ast-json") := ⟨rfl, rfl, rfl⟩
      have hvalue : textOf (.text "ast-json") = .ok "ast-json" := rfl
      rw [Option.none_or, Option.or_some]
      exact congrArg some (hlayered.getD_fileValue? hdefault hvalue rfl hsetting hformat)

end Config

open Config

/-- A file that is not asked for says nothing, like one without content. -/
theorem bind_givenBy (read : FileReader) (file : Option Source) :
    let content := file.bind fun source => (contentOf read source).toOption.join
    (file.bind fun source => (givenBy read source).format) = fileValue? textOf "output" "format" content ∧
      (file.bind fun source => (givenBy read source).calls) =
        fileValue? callsOf "catalog" "macros" content := by
  cases file <;> exact ⟨rfl, rfl⟩

/-- The library for TOML documents respects layers. -/
theorem ConfigLibrary.toml_respectsLayers : ConfigLibrary.toml.RespectsLayers givenBy where
  defaults := givenBy_defaultText
  built := by
    intro read file overrides config hkeys h
    rcases except_bind_eq_ok.1 h with ⟨fields, hsettings, hconfig⟩
    rw [settings_defaultText] at hsettings
    rcases except_bind_eq_ok.1 hsettings with ⟨merged, hmerged, hfields⟩
    have hlayered := layered_of_sources hmerged
    rcases settingIn?_of_overrides hkeys hfields with ⟨hformat, hsame⟩
    rcases ofSettings_eq_ok hconfig with ⟨⟨setting, hsetting, htext⟩, hcalls⟩
    rw [hformat] at hsetting
    rw [hsame] at hcalls
    rcases bind_givenBy read file with ⟨hformats, hcallss⟩
    rw [Given.stack_file, givenBy_defaultText, hformats, hcallss,
      format_eq_layers hlayered hsetting htext, Config.given, ← calls_eq_fileValue hlayered hcalls]
    simp [Given.ofOverrides]

end PassageMarkup
