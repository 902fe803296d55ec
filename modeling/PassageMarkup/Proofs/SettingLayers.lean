/-
Module: PassageMarkup.Proofs.SettingLayers
Layer: Proofs
Purpose: Which layer of a configuration decides. Whatever a file does to the settings that are there is one
  of four edits of the field of a name: it replaces the field, keeps it, edits the fields inside it, or makes
  a list of its items. Every edit keeps a default apart from what the file says on its own; so a default
  stands exactly where the file leaves it open, and a file that puts something else in place of a whole
  table has taken the defaults in it away.
Imports: Config.Load, Proofs.Coverage
Main exports: editFields, Edit, edit_merge, edit_putSteps, exists_edits_mergeDocument, FilledBy, Within,
  KeptByEdits, KeptByEdits.within, ownFields, defaults, mergeDocument_defaultText, Layered,
  Layered.file_or_default, settingIn?, fileValue?, Layered.getD_fileValue?, ofSettings_eq_ok
-/
import PassageMarkup.Config.Load
import PassageMarkup.Proofs.Coverage

namespace PassageMarkup.Config

/-! ### Edits -/

theorem lookup_setKey (key name : String) (value : Setting) (fields : Fields) :
    (setKey key value fields).lookup name = if name = key then some value else fields.lookup name := by
  induction fields with
  | nil => rw [setKey, lookup_entry]
  | cons field rest ih =>
      obtain ⟨other, old⟩ := field
      unfold setKey
      split
      · next hsame =>
        subst hsame
        by_cases h : name = other <;> simp only [lookup_entry, h, if_true, if_false]
      · next hother =>
        rw [lookup_entry, lookup_entry, ih]
        by_cases h : name = key
        · simp [h, Ne.symm hother]
        · simp [h]

/-- Edit fields by name, in order: an edit gets what is there under its name, if anything is. -/
def editFields (edits : List (String × (Option Setting → Setting))) (fields : Fields) : Fields :=
  edits.foldl (fun known edit => setKey edit.1 (edit.2 (known.lookup edit.1)) known) fields

/-- What merging and putting settings can do to one setting, if there is one. -/
inductive Edit : (Option Setting → Setting) → Prop where
  | replace (value : Setting) : Edit fun _ => value
  | keep : Edit fun old => old.getD (.table [])
  | fields (edits : List (String × (Option Setting → Setting))) (h : ∀ edit ∈ edits, Edit edit.2) :
      Edit fun old => .table (editFields edits (fieldsOf (old.getD .nil)))
  | items (change : List Setting → List Setting) :
      Edit fun old => .list (change (itemsOf (old.getD .nil)))

/-- What becomes of the setting of a name when one is merged into it. -/
def merge : Setting → Option Setting → Setting
  | .table incoming, old =>
      if incoming.isEmpty then old.getD (.table [])
      else .table (putAll incoming (fieldsOf (old.getD .nil)))
  | value, _ => value

theorem fieldsOf_getD (old : Option Setting) :
    fieldsOf (old.getD (.table [])) = fieldsOf (old.getD .nil) := by
  cases old <;> rfl

theorem putField_eq (name : String) (value : Setting) (fields : Fields) :
    putField name value fields =
      setKey (Text.lowercase name) (merge value (fields.lookup (Text.lowercase name))) fields := by
  cases value <;> simp only [putField, merge, fieldsOf_getD]

/-- The edits that merging some fields makes. -/
def mergeEdits (incoming : Fields) : List (String × (Option Setting → Setting)) :=
  incoming.map fun field => (Text.lowercase field.1, merge field.2)

theorem putAll_eq (incoming fields : Fields) :
    putAll incoming fields = editFields (mergeEdits incoming) fields := by
  induction incoming generalizing fields with
  | nil => simp [putAll, mergeEdits, editFields]
  | cons field rest ih =>
      rw [putAll, ih, putField_eq]
      rfl

mutual

theorem edit_merge : (value : Setting) → Edit (merge value)
  | .table incoming => by
      cases hincoming : incoming.isEmpty with
      | true =>
          have hmerge : merge (.table incoming) = fun old => old.getD (.table []) := by
            funext old
            simp [merge, hincoming]
          exact hmerge ▸ .keep
      | false =>
          have hmerge : merge (.table incoming) =
              fun old => .table (editFields (mergeEdits incoming) (fieldsOf (old.getD .nil))) := by
            funext old
            simp [merge, hincoming, putAll_eq]
          exact hmerge ▸ .fields _ (edit_mergeEdits incoming)
  | .nil => .replace .nil
  | .boolean value => .replace (.boolean value)
  | .integer value => .replace (.integer value)
  | .real value => .replace (.real value)
  | .text value => .replace (.text value)
  | .list items => .replace (.list items)

theorem edit_mergeEdits : (incoming : Fields) → ∀ edit ∈ mergeEdits incoming, Edit edit.2
  | [] => by simp [mergeEdits]
  | (_, value) :: rest => List.forall_mem_cons.2 ⟨edit_merge value, edit_mergeEdits rest⟩

end

/-- Putting a setting at the end of some steps is an edit of where the steps start. -/
theorem edit_putSteps (value : Setting) (step : Step) (steps : List Step) :
    Edit fun old => putSteps value (step :: steps) (old.getD .nil) := by
  induction steps generalizing step with
  | nil =>
      cases step with
      | field name =>
          have hput : (fun old : Option Setting => putSteps value [.field name] (old.getD .nil)) =
              fun old => .table
                (editFields [(Text.lowercase name, merge value)] (fieldsOf (old.getD .nil))) := by
            funext old
            simp [putSteps, putField_eq, editFields]
          exact hput ▸ .fields _ (by simpa using edit_merge value)
      | place index =>
          exact .items fun items => setPlace (placeOf index items.length) (.table []) value items
  | cons next rest ih =>
      cases step with
      | field name =>
          exact .fields [(Text.lowercase name, fun old => putSteps value (next :: rest) (old.getD .nil))]
            (by simpa using ih next)
      | place index =>
          exact .items fun items =>
            setPlace (placeOf index items.length) .nil
              (putSteps value (next :: rest) ((items[placeOf index items.length]?).getD .nil)) items

/-- Putting a setting at a path is an edit of the first field of the path. -/
theorem exists_edit_putAt (path : Path) (value : Setting) :
    ∃ edit, Edit edit ∧ ∀ fields,
      putAt path value fields = editFields [(Text.lowercase path.first, edit)] fields := by
  obtain ⟨first, steps⟩ := path
  cases steps with
  | nil => exact ⟨_, edit_merge value, fun fields => putField_eq first value fields⟩
  | cons step steps => exact ⟨_, edit_putSteps value step steps, fun fields => rfl⟩

theorem exists_edit_putNamed (name : String) (value : Setting) :
    ∃ key edit, Edit edit ∧ ∀ fields, putNamed name value fields = editFields [(key, edit)] fields := by
  unfold putNamed
  cases Path.read? name with
  | some path =>
      rcases exists_edit_putAt path value with ⟨edit, hedit, hput⟩
      exact ⟨_, edit, hedit, hput⟩
  | none => exact ⟨_, _, edit_merge value, fun fields => putField_eq name value fields⟩

/-- Putting settings by their names, in order, edits the fields that are there, whatever they are. -/
theorem exists_edits_foldl_putNamed (incoming : Fields) :
    ∃ edits, (∀ edit ∈ edits, Edit edit.2) ∧ ∀ fields,
      incoming.foldl (fun known entry => putNamed entry.1 entry.2 known) fields =
        editFields edits fields := by
  induction incoming with
  | nil => exact ⟨[], by simp, fun fields => rfl⟩
  | cons entry rest ih =>
      rcases exists_edit_putNamed entry.1 entry.2 with ⟨key, edit, hedit, hput⟩
      rcases ih with ⟨edits, hedits, hrest⟩
      refine ⟨(key, edit) :: edits, List.forall_mem_cons.2 ⟨hedit, hedits⟩, ?_⟩
      intro fields
      rw [List.foldl_cons, hrest, hput]
      rfl

theorem exists_edits_mergeDocument {content : String} {incoming : Fields}
    (h : Toml.readDocument? content = some incoming) :
    ∃ edits, (∀ edit ∈ edits, Edit edit.2) ∧
      ∀ fields, mergeDocument content fields = .ok (editFields edits fields) := by
  rcases exists_edits_foldl_putNamed incoming with ⟨edits, hedits, hput⟩
  refine ⟨edits, hedits, ?_⟩
  intro fields
  simp only [mergeDocument, h, hput]

/-! ### Defaults under a file -/

/-- The setting that a file makes on its own and the one over a default: the file leaves the default as it
is, having nothing there or an empty table, or both are the same. -/
inductive FilledBy (default : Setting) : Option Setting → Option Setting → Prop where
  | default {own : Option Setting} (h : own = none ∨ own = some (.table [])) :
      FilledBy default own (some default)
  | given (value : Setting) : FilledBy default (some value) (some value)

/-- A relation of what is at a name inside two settings: the second is a table, and the first is one or is
missing, or both have been replaced by the same setting. -/
inductive Within (name : String) (related : Option Setting → Option Setting → Prop) :
    Option Setting → Option Setting → Prop where
  | merged {own : Option Setting} {fields : Fields} (htable : own = none ∨ ∃ inner, own = some (.table inner))
      (h : related ((fieldsOf (own.getD .nil)).lookup name) (fields.lookup name)) :
      Within name related own (some (.table fields))
  | replaced (value : Setting) : Within name related (some value) (some value)

/-- A relation that holds on between two settings when both get the same edit. -/
structure KeptByEdits (related : Option Setting → Option Setting → Prop) : Prop where
  edited : ∀ {edit own known}, Edit edit → related own known → related (some (edit own)) (some (edit known))

/-- What edits keep between the settings of a name, edits of fields by name keep too. -/
theorem KeptByEdits.editFields {related : Option Setting → Option Setting → Prop}
    (hkept : KeptByEdits related) {edits : List (String × (Option Setting → Setting))}
    (hedits : ∀ edit ∈ edits, Edit edit.2) {name : String} {own known : Fields}
    (h : related (own.lookup name) (known.lookup name)) :
    related ((editFields edits own).lookup name) ((editFields edits known).lookup name) := by
  induction edits generalizing own known with
  | nil => exact h
  | cons edit rest ih =>
      rcases List.forall_mem_cons.1 hedits with ⟨hfirst, hrest⟩
      apply ih hrest
      rw [lookup_setKey, lookup_setKey]
      by_cases hname : name = edit.1
      · subst hname
        simpa using hkept.edited hfirst h
      · simpa [hname] using h

/-- A default that is neither a table nor a list with items is kept or given up as a whole. -/
theorem keptByEdits_filledBy {default : Setting} (hfields : fieldsOf default = [])
    (hitems : itemsOf default = []) : KeptByEdits (FilledBy default) := by
  constructor
  intro edit own known hedit h
  cases h with
  | given value => exact .given _
  | default hopen =>
      -- nothing is inside what the file has there, and nothing is inside the default
      have hinside : fieldsOf (own.getD .nil) = [] ∧ itemsOf (own.getD .nil) = [] := by
        rcases hopen with rfl | rfl <;> exact ⟨rfl, rfl⟩
      cases hedit with
      | replace value => exact .given value
      | keep =>
          apply FilledBy.default
          rcases hopen with rfl | rfl <;> exact .inr rfl
      | fields edits =>
          simp only [hinside.1, Option.getD_some, hfields]
          exact .given _
      | items change =>
          simp only [hinside.2, Option.getD_some, hitems]
          exact .given _

theorem KeptByEdits.within {related : Option Setting → Option Setting → Prop}
    (hkept : KeptByEdits related) (name : String) : KeptByEdits (Within name related) := by
  constructor
  intro edit own known hedit h
  cases h with
  | replaced value => exact .replaced _
  | @merged own fields htable h =>
      cases hedit with
      | replace value => exact .replaced value
      | keep =>
          have hsame : fieldsOf (own.getD (.table [])) = fieldsOf (own.getD .nil) := fieldsOf_getD own
          refine .merged ?_ ?_
          · rcases htable with rfl | ⟨inner, rfl⟩
            · exact .inr ⟨[], rfl⟩
            · exact .inr ⟨inner, rfl⟩
          · rw [Option.getD_some, hsame]
            exact h
      | fields edits hedits => exact .merged (.inr ⟨_, rfl⟩) (hkept.editFields hedits h)
      | items change =>
          -- a table has no items, so the list is made from nothing on both sides
          have hown : itemsOf (own.getD .nil) = [] := by
            rcases htable with rfl | ⟨inner, rfl⟩ <;> rfl
          have hknown : itemsOf ((some (Setting.table fields)).getD .nil) = [] := rfl
          simp only [hown, hknown]
          exact .replaced _

/-- The settings that a configuration file makes on its own; a file that is missing or malformed makes
none. -/
def ownFields (content : Option String) : Fields :=
  (content.bind fun text => (mergeDocument text []).toOption).getD []

/-- The settings that the defaults make. -/
def defaults : Fields :=
  [("output", .table [("format", .text "ast-json")]),
   ("logging", .table [("level", .text "warn")]),
   ("catalog", .table [("macros", .list [])])]

/-- The defaults are read as they are written. -/
theorem mergeDocument_defaultText : mergeDocument defaultText [] = .ok defaults := by
  -- the characters are taken line by line, since those of one long text take too long to compute
  rw [mergeDocument, Toml.readDocument?, defaultText, String.toList_join]
  simp only [List.flatMap_map, String.toList_append]
  decide +kernel

/-- What is over the defaults: nothing, or a file. -/
inductive Layered : Option String → Fields → Prop where
  | bare : Layered none defaults
  | file {text : String} {fields : Fields} (h : mergeDocument text defaults = .ok fields) :
      Layered (some text) fields

/-- A default that is alone in its group, and neither a table nor a list with items. -/
structure IsDefault (group name : String) (default : Setting) : Prop where
  lookup : defaults.lookup group = some (.table [(name, default)])
  fields : fieldsOf default = []
  items : itemsOf default = []

/-- Over the defaults, a file and the settings it makes on its own agree in each group but for the default
in it. -/
theorem Layered.within {content : Option String} {fields : Fields} (h : Layered content fields)
    {group name : String} {default : Setting} (hdefault : IsDefault group name default) :
    Within name (FilledBy default) ((ownFields content).lookup group) (fields.lookup group) := by
  have hstart : Within name (FilledBy default) (([] : Fields).lookup group) (defaults.lookup group) := by
    rw [hdefault.lookup]
    refine .merged (.inl rfl) ?_
    rw [lookup_entry, if_pos rfl]
    exact .default (.inl rfl)
  cases h with
  | bare => exact hstart
  | @file text fields hmerge =>
      cases hread : Toml.readDocument? text with
      | none => simp [mergeDocument, hread] at hmerge
      | some incoming =>
          rcases exists_edits_mergeDocument hread with ⟨edits, hedits, hdocument⟩
          obtain rfl : editFields edits defaults = fields := by
            rw [hdocument] at hmerge
            exact Except.ok.inj hmerge
          have hown : ownFields (some text) = editFields edits [] := by
            simp [ownFields, hdocument, Except.toOption]
          rw [hown]
          exact ((keptByEdits_filledBy hdefault.fields hdefault.items).within name).editFields hedits hstart

/-! ### Settings in their places -/

/-- The setting of a name in a group: by its name in a table, and as the first item of a list. -/
def settingIn? (group name : String) (fields : Fields) : Option Setting :=
  (fields.lookup group).bind fun setting => (recordField? name 0 setting).toOption.join

/-- Over the defaults, either a setting is what the file makes of it on its own, or the file leaves it open
and it is the default. -/
theorem Layered.file_or_default {content : Option String} {fields : Fields} (h : Layered content fields)
    {group name : String} {default : Setting} (hdefault : IsDefault group name default) :
    settingIn? group name fields = settingIn? group name (ownFields content) ∨
      settingIn? group name fields = some default ∧
        (settingIn? group name (ownFields content) = none ∨
          settingIn? group name (ownFields content) = some (.table [])) := by
  have hwithin := h.within hdefault
  unfold settingIn?
  revert hwithin
  generalize (ownFields content).lookup group = own
  generalize fields.lookup group = known
  intro hwithin
  cases hwithin with
  | replaced value => exact .inl rfl
  | @merged own fields htable hfilled =>
      have hown : (own.bind fun setting => (recordField? name 0 setting).toOption.join) =
          (fieldsOf (own.getD .nil)).lookup name := by
        rcases htable with rfl | ⟨inner, rfl⟩ <;> rfl
      have hknown : ((some (Setting.table fields)).bind fun setting =>
          (recordField? name 0 setting).toOption.join) = fields.lookup name := rfl
      rw [hown, hknown]
      generalize (fieldsOf (own.getD .nil)).lookup name = inside at hfilled
      generalize fields.lookup name = found at hfilled
      cases hfilled with
      | default hopen => exact .inr ⟨rfl, hopen⟩
      | given value => exact .inl rfl

/-- The value that a file gives to a setting by itself, if it can be read. -/
def fileValue? {α : Type} (read : Setting → Except ConfigError α) (group name : String)
    (content : Option String) : Option α :=
  (settingIn? group name (ownFields content)).bind fun own => (read own).toOption

/-- Over the defaults, a setting that can be read has the value that the file gives to it, or else that of
the default. -/
theorem Layered.getD_fileValue? {α : Type} {read : Setting → Except ConfigError α} {content : Option String}
    {fields : Fields} (h : Layered content fields) {group name : String} {default : Setting} {value : α}
    (hdefault : IsDefault group name default) (hread : read default = .ok value)
    (hempty : (read (.table [])).toOption = none) {setting : Setting} {found : α}
    (hsetting : settingIn? group name fields = some setting) (hfound : read setting = .ok found) :
    (fileValue? read group name content).getD value = found := by
  unfold fileValue?
  rcases h.file_or_default hdefault with hsame | ⟨hstands, hopen⟩
  · rw [← hsame, hsetting]
    simp [hfound, Except.toOption]
  · obtain rfl : default = setting := Option.some.inj (hstands.symm.trans hsetting)
    have hvalue : value = found := Except.ok.inj (hread.symm.trans hfound)
    rcases hopen with hopen | hopen
    · simp [hopen, hvalue]
    · simp [hopen, hempty, hvalue]

theorem required_eq_ok {name : String} {place : Nat} {setting value : Setting} :
    required name place setting = .ok value ↔ recordField? name place setting = .ok (some value) := by
  unfold required
  rw [except_bind_eq_ok]
  constructor
  · rintro ⟨field, hfield, hvalue⟩
    cases field with
    | none => cases hvalue
    | some found =>
        cases hvalue
        exact hfield
  · intro h
    exact ⟨some value, h, rfl⟩

theorem settingIn?_eq {group name : String} {fields : Fields} {setting : Setting} {found : Option Setting}
    (hgroup : fields.lookup group = some setting) (h : recordField? name 0 setting = .ok found) :
    settingIn? group name fields = found := by
  simp [settingIn?, hgroup, h, Except.toOption]

/-- A configuration has the format and the calls that the settings in their places are read as. -/
theorem ofSettings_eq_ok {fields : Fields} {config : Config} (h : ofSettings fields = .ok config) :
    (∃ setting, settingIn? "output" "format" fields = some setting ∧ textOf setting = .ok config.format) ∧
    (settingIn? "catalog" "macros" fields = none ∧ config.calls = [] ∨
      ∃ setting, settingIn? "catalog" "macros" fields = some setting ∧
        callsOf setting = .ok config.calls) := by
  unfold ofSettings at h
  simp only [except_bind_eq_ok, required_eq_ok] at h
  rcases h with
    ⟨output, houtput, setting, hsetting, format, hformat, _, _, _, _, _, _, catalog, hcatalog, h⟩
  have hplace := settingIn?_eq (Except.ok.inj houtput) hsetting
  have hgroup := Except.ok.inj hcatalog
  cases catalog with
  | none =>
      cases h
      refine ⟨⟨setting, hplace, hformat⟩, .inl ⟨?_, rfl⟩⟩
      simp [settingIn?, hgroup]
  | some catalog =>
      rcases except_bind_eq_ok.1 h with ⟨macros, hmacros, hcalls⟩
      have hinside := settingIn?_eq hgroup hmacros
      cases macros with
      | none =>
          cases hcalls
          exact ⟨⟨setting, hplace, hformat⟩, .inl ⟨hinside, rfl⟩⟩
      | some macros =>
          rcases except_bind_eq_ok.1 hcalls with ⟨calls, hread, hconfig⟩
          cases hconfig
          exact ⟨⟨setting, hplace, hformat⟩, .inr ⟨macros, hinside, hread⟩⟩

end PassageMarkup.Config
