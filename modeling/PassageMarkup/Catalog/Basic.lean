/-
Module: PassageMarkup.Catalog.Basic
Layer: Catalog
Purpose: The catalog of known calls: a map from names to argument patterns. Names that differ only in
  case, hyphens and underscores name the same entry, and a later entry replaces an earlier one. The
  entries are kept in the order of their keys, so equal maps are equal catalogs.
Imports: Catalog.Pattern, Text.Lowercase
Main exports: canonicalName, Catalog, Catalog.insert, Catalog.get?, Catalog.check, Catalog.builtin
-/
import PassageMarkup.Catalog.Pattern
import PassageMarkup.Text.Lowercase

namespace PassageMarkup

/-- The key of a name: lower case, without hyphens and underscores. -/
def canonicalName (name : String) : String :=
  String.ofList ((name.toList.filter fun c => c != '-' && c != '_').flatMap Text.lowerChar)

/-- Put an entry into an ordered list of entries, replacing the one with the same key. -/
def insertEntry (key : String) (pattern : Pattern) :
    List (String × Pattern) → List (String × Pattern)
  | [] => [(key, pattern)]
  | (other, kept) :: rest =>
      if key = other then (key, pattern) :: rest
      else if key < other then (key, pattern) :: (other, kept) :: rest
      else (other, kept) :: insertEntry key pattern rest

/-- The keys of entries strictly increase. -/
def Increasing (entries : List (String × Pattern)) : Prop :=
  entries.Pairwise fun first second => first.1 < second.1

/-- Every entry after an insertion is the new one or an old one. -/
theorem mem_insertEntry {key : String} {pattern : Pattern} {entries : List (String × Pattern)}
    {entry : String × Pattern} (h : entry ∈ insertEntry key pattern entries) :
    entry = (key, pattern) ∨ entry ∈ entries := by
  induction entries with
  | nil => simpa [insertEntry] using h
  | cons head rest ih =>
    unfold insertEntry at h
    split at h
    · rcases List.mem_cons.1 h with hnew | hold
      · exact .inl hnew
      · exact .inr (List.mem_cons_of_mem _ hold)
    · split at h
      · simpa using h
      · rcases List.mem_cons.1 h with hhead | hrest
        · exact .inr (by simp [hhead])
        · rcases ih hrest with hnew | hold
          · exact .inl hnew
          · exact .inr (List.mem_cons_of_mem _ hold)

/-- Insertion keeps the keys in order. -/
theorem increasing_insertEntry (key : String) (pattern : Pattern)
    {entries : List (String × Pattern)} (h : Increasing entries) :
    Increasing (insertEntry key pattern entries) := by
  induction entries with
  | nil => simp [insertEntry, Increasing]
  | cons head rest ih =>
    obtain ⟨other, kept⟩ := head
    obtain ⟨hhead, hrest⟩ := List.pairwise_cons.1 h
    unfold insertEntry
    split
    · next heq => exact List.pairwise_cons.2 ⟨fun entry hmem => heq ▸ hhead entry hmem, hrest⟩
    · split
      · next hlt =>
        refine List.pairwise_cons.2 ⟨fun entry hmem => ?_, h⟩
        rcases List.mem_cons.1 hmem with rfl | hold
        · exact hlt
        · exact String.lt_trans hlt (hhead entry hold)
      · next hne hnlt =>
        refine List.pairwise_cons.2 ⟨fun entry hmem => ?_, ih hrest⟩
        rcases mem_insertEntry hmem with rfl | hold
        · refine String.not_le.1 fun hle => hne ?_
          exact String.le_antisymm hle (String.not_lt.1 hnlt)
        · exact hhead entry hold

/-- Looking up a key asks the first entry, then the others. -/
theorem lookup_entry {α : Type} (key name : String) (value : α) (rest : List (String × α)) :
    ((name, value) :: rest).lookup key = if key = name then some value else rest.lookup key := by
  by_cases h : key = name
  · simp [h]
  · have hbeq : (key == name) = false := beq_eq_false_iff_ne.2 h
    simp [List.lookup_cons, h, hbeq]

/-- An inserted key has the inserted pattern, and every other key keeps what it had. -/
theorem lookup_insertEntry (key other : String) (pattern : Pattern)
    (entries : List (String × Pattern)) :
    (insertEntry key pattern entries).lookup other =
      if other = key then some pattern else entries.lookup other := by
  induction entries with
  | nil => rw [insertEntry, lookup_entry]
  | cons head rest ih =>
    obtain ⟨name, kept⟩ := head
    unfold insertEntry
    split
    · next heq =>
      subst heq
      by_cases h : other = key <;> simp only [lookup_entry, h, if_true, if_false]
    · next hne =>
      split
      · rw [lookup_entry]
      · rw [lookup_entry, lookup_entry, ih]
        by_cases h : other = key
        · simp [h, hne]
        · simp [h]

/-- The known calls and their patterns. -/
structure Catalog where
  entries : List (String × Pattern)
  increasing : Increasing entries
deriving DecidableEq

/-- The catalog that knows no call. -/
def Catalog.empty : Catalog :=
  ⟨[], List.Pairwise.nil⟩

/-- Add an entry, or replace the one of the same key. -/
def Catalog.insert (catalog : Catalog) (name : String) (pattern : Pattern) : Catalog :=
  ⟨insertEntry (canonicalName name) pattern catalog.entries,
   increasing_insertEntry _ _ catalog.increasing⟩

/-- Add entries in order. -/
def Catalog.extend (catalog : Catalog) (entries : List (String × Pattern)) : Catalog :=
  entries.foldl (fun known entry => known.insert entry.1 entry.2) catalog

/-- The pattern of a call, if the catalog knows it. -/
def Catalog.get? (catalog : Catalog) (name : String) : Option Pattern :=
  catalog.entries.lookup (canonicalName name)

@[simp] theorem Catalog.get?_empty (name : String) : Catalog.empty.get? name = none := rfl

/-- The last entry for a key is the one that counts. -/
theorem Catalog.get?_insert (catalog : Catalog) (name other : String) (pattern : Pattern) :
    (catalog.insert name pattern).get? other =
      if canonicalName other = canonicalName name then some pattern else catalog.get? other :=
  lookup_insertEntry _ _ _ _

/-- Whether the catalog knows a call. -/
def Catalog.contains (catalog : Catalog) (name : String) : Bool :=
  (catalog.get? name).isSome

/-- Number of entries. -/
def Catalog.size (catalog : Catalog) : Nat :=
  catalog.entries.length

/-- Check a call: nothing to say about an unknown name, the pattern of a known name whose arguments
fit it, and otherwise what does not fit. -/
def Catalog.check (catalog : Catalog) (name : String) (arguments : Arguments) :
    Except Mismatch (Option Pattern) :=
  match catalog.get? name with
  | none => .ok none
  | some pattern => (pattern.check arguments).map fun _ => some pattern

/-- The calls that are known from the start. -/
def builtinEntries : List (String × Pattern) :=
  [("set", .keyword .to .variable .expression),
   ("link", .keyword .arrow .value .value),
   ("if", .positional [.expression]),
   ("else-if", .positional [.expression]),
   ("unless", .positional [.expression]),
   ("print", .positional [.expression]),
   ("else", .positional []),
   ("history", .positional []),
   ("go-to", .positional [.value]),
   ("live", .positional [.value]),
   ("display", .positional [.stringLiteral]),
   ("visited", .positional [.stringLiteral]),
   ("random", .positional [.value, .value]),
   ("either", .variadic 1 .value),
   ("a", .variadic 0 .expression),
   ("array", .variadic 0 .expression)]

/-- The catalog of the calls that are known from the start. -/
def Catalog.builtin : Catalog :=
  Catalog.empty.extend builtinEntries

end PassageMarkup
