/-
Module: PassageMarkup.Proofs.Writers
Layer: Proofs
Purpose: When a writer can fail. A value gives cause to fail where it refuses to be serialized, or has a map
  with a key that is no text, at any depth; data gives none. So a writer that fails for these causes only
  writes all data, and the standard writers are such writers.
Imports: Report.Serial
Main exports: Serial.GivesCause, Data.givesNoCause, Writers.Documented, exists_of_givesNoCause,
  Data.toData_toSerial, Writers.standard_toSerial, Writers.standard_documented
-/
import PassageMarkup.Report.Serial

namespace PassageMarkup

/-! ### Causes to fail -/

/-- A value that gives a writer cause to fail. -/
inductive Serial.GivesCause : Serial → Prop where
  | refusal (reason : String) : GivesCause (.refusal reason)
  | key {entries : List (Serial × Serial)} {key value : Serial} (hentry : (key, value) ∈ entries)
      (hkey : ∀ text, key ≠ .text text) : GivesCause (.map entries)
  | entry {entries : List (Serial × Serial)} {key value : Serial} (hentry : (key, value) ∈ entries)
      (h : value.GivesCause) : GivesCause (.map entries)
  | item {items : List Serial} {value : Serial} (hitem : value ∈ items) (h : value.GivesCause) :
      GivesCause (.list items)
  | field {fields : List (String × Serial)} {name : String} {value : Serial}
      (hfield : (name, value) ∈ fields) (h : value.GivesCause) : GivesCause (.record fields)

mutual

/-- Data has no maps, and nothing in it refuses. -/
theorem Data.givesNoCause : (data : Data) → ¬data.toSerial.GivesCause
  | .boolean _, h | .integer _, h | .real _, h | .text _, h => by cases h
  | .list items, h => by
      cases h with
      | item hitem h => exact givesNoCause_items items _ hitem h
  | .record fields, h => by
      cases h with
      | field hfield h => exact givesNoCause_fields fields _ _ hfield h

theorem givesNoCause_items : (items : List Data) → ∀ value ∈ itemsToSerial items, ¬value.GivesCause
  | [] => by simp [itemsToSerial]
  | item :: rest => List.forall_mem_cons.2 ⟨item.givesNoCause, givesNoCause_items rest⟩

theorem givesNoCause_fields : (fields : List (String × Data)) →
    ∀ name value, (name, value) ∈ fieldsToSerial fields → ¬value.GivesCause
  | [], _, _, h => by cases h
  | (_, data) :: rest, _, _, h => by
      rcases List.mem_cons.1 h with hfirst | hrest
      · cases hfirst
        exact data.givesNoCause
      · exact givesNoCause_fields rest _ _ hrest

end

/-- Writers that fail only on values that give cause. -/
structure Writers.Documented (writers : Writers) : Prop where
  json : ∀ {value reason}, writers.json value = .error reason → value.GivesCause
  yaml : ∀ {value reason}, writers.yaml value = .error reason → value.GivesCause

/-- What writes a value unless it gives cause writes all data. -/
theorem exists_of_givesNoCause {write : Serial → Except String String}
    (hfails : ∀ {value reason}, write value = .error reason → value.GivesCause) (data : Data) :
    ∃ text, write data.toSerial = .ok text := by
  cases hwrite : write data.toSerial with
  | ok text => exact ⟨text, rfl⟩
  | error reason => exact absurd (hfails hwrite) data.givesNoCause

/-! ### The standard writers -/

/-- A sequence fails where its first part does, or after it. -/
theorem except_bind_eq_error {ε α β : Type} {first : Except ε α} {second : α → Except ε β} {e : ε} :
    (first >>= second) = .error e ↔
      first = .error e ∨ ∃ a, first = .ok a ∧ second a = .error e := by
  cases first <;> simp [bind, Except.bind]

theorem except_map_eq_error {ε α β : Type} {result : Except ε α} {f : α → β} {e : ε} :
    (f <$> result) = .error e ↔ result = .error e := by
  cases result <;> simp [Functor.map, Except.map]

mutual

/-- Data is the data of what it hands to a writer. -/
theorem Data.toData_toSerial : (data : Data) → data.toSerial.toData = .ok data
  | .boolean _ | .integer _ | .real _ | .text _ => rfl
  | .list items => by
      rw [Data.toSerial, Serial.toData, itemsToData_itemsToSerial items]
      rfl
  | .record fields => by
      rw [Data.toSerial, Serial.toData, fieldsToData_fieldsToSerial fields]
      rfl

theorem itemsToData_itemsToSerial : (items : List Data) → itemsToData (itemsToSerial items) = .ok items
  | [] => rfl
  | item :: rest => by
      rw [itemsToSerial, itemsToData, item.toData_toSerial, itemsToData_itemsToSerial rest]
      rfl

theorem fieldsToData_fieldsToSerial :
    (fields : List (String × Data)) → fieldsToData (fieldsToSerial fields) = .ok fields
  | [] => rfl
  | (name, value) :: rest => by
      rw [fieldsToSerial, fieldsToData, value.toData_toSerial, fieldsToData_fieldsToSerial rest]
      rfl

end

/-- The standard writers write data as JSON and YAML. -/
theorem Writers.standard_toSerial (data : Data) :
    Writers.standard.json data.toSerial = .ok data.toJson ∧
      Writers.standard.yaml data.toSerial = .ok data.toYaml := by
  constructor <;> simp only [Writers.standard, data.toData_toSerial] <;> rfl

mutual

/-- What is no data gives cause. -/
theorem Serial.givesCause_of_toData {reason : String} :
    (value : Serial) → value.toData = .error reason → value.GivesCause
  | .boolean _, h | .integer _, h | .real _, h | .text _, h => by cases h
  | .list items, h => by
      rcases givesCause_of_itemsToData items (except_map_eq_error.1 h) with ⟨value, hitem, hcause⟩
      exact .item hitem hcause
  | .record fields, h => by
      rcases givesCause_of_fieldsToData fields (except_map_eq_error.1 h) with ⟨name, value, hfield, hcause⟩
      exact .field hfield hcause
  | .map entries, h => by
      rcases givesCause_of_entriesToData entries (except_map_eq_error.1 h) with
        ⟨key, value, hentry, hkey | hcause⟩
      · exact .key hentry hkey
      · exact .entry hentry hcause
  | .refusal reason, _ => .refusal reason

theorem givesCause_of_itemsToData {reason : String} : (items : List Serial) →
    itemsToData items = .error reason → ∃ value ∈ items, value.GivesCause
  | [], h => by cases h
  | item :: rest, h => by
      rcases except_bind_eq_error.1 h with hitem | ⟨data, -, hrest⟩
      · exact ⟨item, List.mem_cons_self, item.givesCause_of_toData hitem⟩
      · rcases givesCause_of_itemsToData rest (except_map_eq_error.1 hrest) with ⟨value, hmem, hcause⟩
        exact ⟨value, List.mem_cons_of_mem _ hmem, hcause⟩

theorem givesCause_of_fieldsToData {reason : String} : (fields : List (String × Serial)) →
    fieldsToData fields = .error reason → ∃ name value, (name, value) ∈ fields ∧ value.GivesCause
  | [], h => by cases h
  | (name, value) :: rest, h => by
      rcases except_bind_eq_error.1 h with hvalue | ⟨data, -, hrest⟩
      · exact ⟨name, value, List.mem_cons_self, value.givesCause_of_toData hvalue⟩
      · rcases givesCause_of_fieldsToData rest (except_map_eq_error.1 hrest) with
          ⟨later, value, hmem, hcause⟩
        exact ⟨later, value, List.mem_cons_of_mem _ hmem, hcause⟩

theorem givesCause_of_entriesToData {reason : String} : (entries : List (Serial × Serial)) →
    entriesToData entries = .error reason →
      ∃ key value, (key, value) ∈ entries ∧ ((∀ text, key ≠ .text text) ∨ value.GivesCause)
  | [], h => by cases h
  | (key, value) :: rest, h => by
      rcases except_bind_eq_error.1 h with hkey | ⟨name, -, h⟩
      · refine ⟨key, value, List.mem_cons_self, .inl ?_⟩
        rintro text rfl
        cases hkey
      · rcases except_bind_eq_error.1 h with hvalue | ⟨data, -, hrest⟩
        · exact ⟨key, value, List.mem_cons_self, .inr (value.givesCause_of_toData hvalue)⟩
        · rcases givesCause_of_entriesToData rest (except_map_eq_error.1 hrest) with
            ⟨later, value, hmem, hcause⟩
          exact ⟨later, value, List.mem_cons_of_mem _ hmem, hcause⟩

end

/-- The standard writers fail on nothing but what is no data. -/
theorem Writers.standard_documented : Writers.standard.Documented where
  json h := Serial.givesCause_of_toData _ (except_map_eq_error.1 h)
  yaml h := Serial.givesCause_of_toData _ (except_map_eq_error.1 h)

end PassageMarkup
