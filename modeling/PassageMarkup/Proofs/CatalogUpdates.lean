/-
Module: PassageMarkup.Proofs.CatalogUpdates
Layer: Proofs
Purpose: Catalogs after any changes. Only the entries that the changes bring matter, in their order: of those
  whose names have one key the last counts, and where there is none the catalog keeps what it had. A catalog
  is told by what it answers for each key, so entries with different keys can change places; and the keys
  are those of the names that it knows, each of them once. Names that differ only in case, hyphens and
  underscores have one key.
Imports: Config.Loader, Proofs.Alphabets, Proofs.Resolution
Main exports: Change, Catalog.after, entriesOf, Catalog.after_eq_extend, Catalog.get?_extend,
  Catalog.eq_of_lookup, Catalog.insert_comm, Respelled, canonicalName_eq_of_respelled,
  canonicalName_eq_iff, canonicalName_canonicalName, Updates, catalog_last_entry_wins
-/
import PassageMarkup.Config.Loader
import PassageMarkup.Proofs.Alphabets
import PassageMarkup.Proofs.Resolution

namespace PassageMarkup

open Text Recognise

/-! ### Changes -/

/-- A change of a catalog. Since a catalog is a value, to insert an entry is also to have the catalog with one
entry more. -/
inductive Change where
  | insert (name : String) (pattern : Pattern)
  | extend (entries : List (String × Pattern))

/-- The catalog that a change makes of a catalog. -/
def Catalog.change (catalog : Catalog) : Change → Catalog
  | .insert name pattern => catalog.insert name pattern
  | .extend entries => catalog.extend entries

/-- The catalog after changes in order. -/
def Catalog.after (start : Catalog) (changes : List Change) : Catalog :=
  changes.foldl Catalog.change start

/-- The entries that a change brings. -/
def Change.entries : Change → List (String × Pattern)
  | .insert name pattern => [(name, pattern)]
  | .extend entries => entries

/-- The entries that changes bring, in order. -/
def entriesOf (changes : List Change) : List (String × Pattern) :=
  changes.flatMap Change.entries

theorem Catalog.extend_append (catalog : Catalog) (entries others : List (String × Pattern)) :
    catalog.extend (entries ++ others) = (catalog.extend entries).extend others := by
  simp only [Catalog.extend, List.foldl_append]

theorem Catalog.change_eq_extend (catalog : Catalog) (change : Change) :
    catalog.change change = catalog.extend change.entries := by
  cases change <;> rfl

/-- Changes are the entries they bring. -/
theorem Catalog.after_eq_extend (start : Catalog) (changes : List Change) :
    start.after changes = start.extend (entriesOf changes) := by
  induction changes generalizing start with
  | nil => rfl
  | cons change changes ih =>
      calc start.after (change :: changes)
          = (start.change change).after changes := rfl
        _ = (start.extend change.entries).extend (entriesOf changes) := by
            rw [ih, Catalog.change_eq_extend]
        _ = start.extend (entriesOf (change :: changes)) := (Catalog.extend_append _ _ _).symm

/-! ### Looking up -/

/-- The entries whose names have the key of a name. -/
def entriesFor (name : String) (entries : List (String × Pattern)) : List (String × Pattern) :=
  entries.filter fun entry => canonicalName entry.1 = canonicalName name

/-- The last entry for a name counts; without one the catalog answers as before. -/
theorem Catalog.get?_extend (catalog : Catalog) (entries : List (String × Pattern)) (name : String) :
    (catalog.extend entries).get? name =
      ((entriesFor name entries).getLast?.map Prod.snd).or (catalog.get? name) := by
  induction entries generalizing catalog with
  | nil => rfl
  | cons entry entries ih =>
      have hfirst : (catalog.extend (entry :: entries)).get? name =
          ((entriesFor name entries).getLast?.map Prod.snd).or
            ((catalog.insert entry.1 entry.2).get? name) := ih _
      rw [hfirst, Catalog.get?_insert]
      by_cases hkey : canonicalName entry.1 = canonicalName name
      · have hcons : entriesFor name (entry :: entries) = entry :: entriesFor name entries := by
          simp [entriesFor, hkey]
        rw [hcons, List.getLast?_cons, if_pos hkey.symm]
        cases (entriesFor name entries).getLast? <;> rfl
      · have hcons : entriesFor name (entry :: entries) = entriesFor name entries := by
          simp [entriesFor, hkey]
        rw [hcons, if_neg (Ne.symm hkey)]

/-! ### Catalogs with the same answers -/

/-- In increasing entries, looking up a key finds the entry with that key. -/
theorem Increasing.lookup_eq_some_iff {entries : List (String × Pattern)} (h : Increasing entries)
    {key : String} {pattern : Pattern} :
    entries.lookup key = some pattern ↔ (key, pattern) ∈ entries := by
  induction entries with
  | nil => simp
  | cons entry entries ih =>
      obtain ⟨other, kept⟩ := entry
      rcases List.pairwise_cons.1 h with ⟨hfirst, hrest⟩
      rw [lookup_entry, List.mem_cons, Prod.mk.injEq]
      split
      · next heq =>
        subst heq
        have hnot : (key, pattern) ∉ entries := fun hmem => String.lt_irrefl key (hfirst _ hmem)
        simp [hnot, eq_comm]
      · next hne => simp [hne, ih hrest]

theorem Increasing.nodup {entries : List (String × Pattern)} (h : Increasing entries) : entries.Nodup := by
  apply List.Pairwise.imp _ h
  rintro entry _ hlt rfl
  exact String.lt_irrefl _ hlt

/-- Catalogs that answer alike for every key are equal. -/
theorem Catalog.eq_of_lookup {catalog other : Catalog}
    (h : ∀ key, catalog.entries.lookup key = other.entries.lookup key) : catalog = other := by
  obtain ⟨entries, hentries⟩ := catalog
  obtain ⟨entries', hentries'⟩ := other
  have hperm : entries.Perm entries' := by
    rw [List.perm_ext_iff_of_nodup hentries.nodup hentries'.nodup]
    rintro ⟨key, pattern⟩
    rw [← hentries.lookup_eq_some_iff, h key, hentries'.lookup_eq_some_iff]
  have hsame : entries = entries' :=
    hperm.eq_of_pairwise (fun _ _ _ _ hlt hgt => absurd hgt (String.lt_asymm hlt)) hentries hentries'
  subst hsame
  rfl

theorem Catalog.lookup_insert (catalog : Catalog) (name key : String) (pattern : Pattern) :
    (catalog.insert name pattern).entries.lookup key =
      if key = canonicalName name then some pattern else catalog.entries.lookup key :=
  lookup_insertEntry _ _ _ _

/-- Entries with different keys can be inserted in either order. -/
theorem Catalog.insert_comm (catalog : Catalog) {first second : String}
    (h : canonicalName first ≠ canonicalName second) (pattern pattern' : Pattern) :
    (catalog.insert first pattern).insert second pattern' =
      (catalog.insert second pattern').insert first pattern := by
  apply Catalog.eq_of_lookup
  intro key
  simp only [Catalog.lookup_insert]
  by_cases hfirst : key = canonicalName first
  · have hsecond : key ≠ canonicalName second := hfirst ▸ h
    simp only [if_pos hfirst, if_neg hsecond]
  · simp only [if_neg hfirst]

theorem Catalog.extend_swap (catalog : Catalog) {first second : String × Pattern}
    (h : canonicalName first.1 ≠ canonicalName second.1) (before behind : List (String × Pattern)) :
    catalog.extend (before ++ first :: second :: behind) =
      catalog.extend (before ++ second :: first :: behind) := by
  rw [Catalog.extend_append, Catalog.extend_append]
  exact congrArg (fun known => Catalog.extend known behind) (Catalog.insert_comm _ h _ _)

/-! ### Keys -/

/-- The keys of a catalog. -/
def Catalog.keys (catalog : Catalog) : List String :=
  catalog.entries.map Prod.fst

theorem Catalog.nodup_keys (catalog : Catalog) : catalog.keys.Nodup := by
  rw [Catalog.keys, List.Nodup, List.pairwise_map]
  apply List.Pairwise.imp _ catalog.increasing
  intro entry other hlt heq
  exact String.lt_irrefl _ (heq ▸ hlt)

theorem Catalog.contains_iff {catalog : Catalog} {name : String} :
    catalog.contains name = true ↔ canonicalName name ∈ catalog.keys := by
  simp only [Catalog.contains, Catalog.get?, Option.isSome_iff_exists,
    catalog.increasing.lookup_eq_some_iff, Catalog.keys, List.mem_map, Prod.exists, exists_and_right,
    exists_eq_right]

/-- A catalog whose keys are those of names. -/
def Catalog.HasNames (catalog : Catalog) : Prop :=
  ∀ key ∈ catalog.keys, ∃ name, canonicalName name = key

theorem Catalog.hasNames_empty : Catalog.empty.HasNames := by
  intro key hmem
  cases hmem

theorem Catalog.HasNames.insert {catalog : Catalog} (h : catalog.HasNames) (name : String)
    (pattern : Pattern) : (catalog.insert name pattern).HasNames := by
  intro key hmem
  rcases List.mem_map.1 hmem with ⟨entry, hentry, rfl⟩
  rcases mem_insertEntry hentry with rfl | hold
  · exact ⟨name, rfl⟩
  · exact h entry.1 (List.mem_map_of_mem hold)

theorem Catalog.HasNames.extend {catalog : Catalog} (h : catalog.HasNames)
    (entries : List (String × Pattern)) : (catalog.extend entries).HasNames := by
  induction entries generalizing catalog with
  | nil => exact h
  | cons entry entries ih => exact ih (h.insert entry.1 entry.2)

theorem Catalog.hasNames_builtin : Catalog.builtin.HasNames :=
  Catalog.hasNames_empty.extend builtinEntries

/-- The keys of a catalog are those of the names that it knows. -/
theorem Catalog.HasNames.mem_keys_iff {catalog : Catalog} (h : catalog.HasNames) {key : String} :
    key ∈ catalog.keys ↔ ∃ name, canonicalName name = key ∧ catalog.contains name = true := by
  simp only [Catalog.contains_iff]
  constructor
  · intro hmem
    rcases h key hmem with ⟨name, rfl⟩
    exact ⟨name, rfl, hmem⟩
  · rintro ⟨name, rfl, hmem⟩
    exact hmem

/-! ### Spellings of a name -/

/-- A character that keys leave out. -/
def IsSeparator (c : Char) : Prop :=
  c = '-' ∨ c = '_'

instance (c : Char) : Decidable (IsSeparator c) :=
  inferInstanceAs (Decidable (_ ∨ _))

/-- Two spellings of one name: they differ only in case, hyphens and underscores. -/
inductive Respelled : List Char → List Char → Prop where
  | nil : Respelled [] []
  | left {c : Char} {cs ds : List Char} (hseparator : IsSeparator c) (h : Respelled cs ds) :
      Respelled (c :: cs) ds
  | right {d : Char} {cs ds : List Char} (hseparator : IsSeparator d) (h : Respelled cs ds) :
      Respelled cs (d :: ds)
  | letter {c d : Char} {cs ds : List Char} (hc : ¬IsSeparator c) (hd : ¬IsSeparator d)
      (hcase : lowerChar c = lowerChar d) (h : Respelled cs ds) : Respelled (c :: cs) (d :: ds)

/-- The characters of a key. -/
def keyChars (cs : List Char) : List Char :=
  (cs.filter fun c => c != '-' && c != '_').flatMap lowerChar

theorem keyChars_of_separator {c : Char} (h : IsSeparator c) (cs : List Char) :
    keyChars (c :: cs) = keyChars cs := by
  rcases h with rfl | rfl <;> rfl

theorem keyChars_of_letter {c : Char} (h : ¬IsSeparator c) (cs : List Char) :
    keyChars (c :: cs) = lowerChar c ++ keyChars cs := by
  have hkept : (c != '-' && c != '_') = true := by simpa [IsSeparator] using h
  simp only [keyChars, List.filter_cons, hkept, if_true, List.flatMap_cons]

theorem canonicalName_eq_iff_keyChars {first second : String} :
    canonicalName first = canonicalName second ↔ keyChars first.toList = keyChars second.toList :=
  String.ofList_inj

theorem Respelled.keyChars_eq {cs ds : List Char} (h : Respelled cs ds) : keyChars cs = keyChars ds := by
  induction h with
  | nil => rfl
  | left hseparator _ ih => rw [keyChars_of_separator hseparator, ih]
  | right hseparator _ ih => rw [keyChars_of_separator hseparator, ih]
  | letter hc hd hcase _ ih => rw [keyChars_of_letter hc, keyChars_of_letter hd, hcase, ih]

/-- Each character in ASCII has one in its lower case form, so a key can be read back letter by letter. -/
theorem respelled_of_keyChars_eq {cs ds : List Char} (hcs : ∀ c ∈ cs, c.toNat < 0x80)
    (hds : ∀ d ∈ ds, d.toNat < 0x80) (h : keyChars cs = keyChars ds) : Respelled cs ds := by
  induction cs generalizing ds with
  | nil =>
      induction ds with
      | nil => exact .nil
      | cons d ds ih =>
          rcases List.forall_mem_cons.1 hds with ⟨hd, hrest⟩
          by_cases hseparator : IsSeparator d
          · exact .right hseparator (ih hrest (h.trans (keyChars_of_separator hseparator ds)))
          · have hlower : lowerChar d = [d.toLower] := if_pos hd
            rw [keyChars_of_letter hseparator, hlower] at h
            cases h
  | cons c cs ih =>
      rcases List.forall_mem_cons.1 hcs with ⟨hc, hcrest⟩
      by_cases hcsep : IsSeparator c
      · exact .left hcsep (ih hcrest hds ((keyChars_of_separator hcsep cs).symm.trans h))
      · have hclower : lowerChar c = [c.toLower] := if_pos hc
        induction ds with
        | nil =>
            rw [keyChars_of_letter hcsep, hclower] at h
            cases h
        | cons d ds ihd =>
            rcases List.forall_mem_cons.1 hds with ⟨hd, hdrest⟩
            by_cases hdsep : IsSeparator d
            · exact .right hdsep (ihd hdrest (h.trans (keyChars_of_separator hdsep ds)))
            · have hdlower : lowerChar d = [d.toLower] := if_pos hd
              rw [keyChars_of_letter hcsep, keyChars_of_letter hdsep, hclower, hdlower] at h
              have hcase : lowerChar c = lowerChar d := by
                rw [hclower, hdlower, (List.cons.inj h).1]
              exact .letter hcsep hdsep hcase (ih hcrest hdrest (List.cons.inj h).2)

/-- Spellings of one name have one key. -/
theorem canonicalName_eq_of_respelled {first second : String}
    (h : Respelled first.toList second.toList) : canonicalName first = canonicalName second :=
  canonicalName_eq_iff_keyChars.2 h.keyChars_eq

/-- Names in ASCII have one key exactly if they are spellings of one name. -/
theorem canonicalName_eq_iff {first second : String} (hfirst : ∀ c ∈ first.toList, c.toNat < 0x80)
    (hsecond : ∀ c ∈ second.toList, c.toNat < 0x80) :
    canonicalName first = canonicalName second ↔ Respelled first.toList second.toList :=
  ⟨fun h => respelled_of_keyChars_eq hfirst hsecond (canonicalName_eq_iff_keyChars.1 h),
    canonicalName_eq_of_respelled⟩

/-! ### Keys as names -/

/-- A character that is left as it is in a key. -/
def IsKeyChar (c : Char) : Prop :=
  (c != '-' && c != '_') = true ∧ lowerChar c = [c]

instance (c : Char) : Decidable (IsKeyChar c) :=
  inferInstanceAs (Decidable (_ ∧ _))

/-- A name of such characters is its own key. -/
theorem canonicalName_of_isKeyChar {name : String} (h : ∀ c ∈ name.toList, IsKeyChar c) :
    canonicalName name = name := by
  have hlower {cs : List Char} (hcs : ∀ c ∈ cs, IsKeyChar c) : cs.flatMap lowerChar = cs := by
    induction cs with
    | nil => rfl
    | cons c cs ih =>
        rw [List.flatMap_cons, (hcs c List.mem_cons_self).2, ih fun d hd => hcs d (List.mem_cons_of_mem c hd)]
        rfl
  rw [canonicalName, List.filter_eq_self.2 fun c hc => (h c hc).1, hlower h, String.ofList_toList]

theorem isKeyChar_lowerChar {c : Char} (hascii : c.toNat < 0x80) (hkept : (c != '-' && c != '_') = true) :
    ∀ d ∈ lowerChar c, IsKeyChar d := by
  have hlower : lowerChar c = [c.toLower] := if_pos hascii
  have hkey : IsKeyChar c.toLower := by
    by_cases hupper : 'A'.val ≤ c.val ∧ c.val ≤ 'Z'.val
    · have hletters : ∀ n < 26, IsKeyChar (Char.ofNat (0x41 + n)).toLower := by decide
      have hfirst : 0x41 ≤ c.toNat := hupper.1
      have hlast : c.toNat ≤ 0x5A := hupper.2
      have hc := hletters (c.toNat - 0x41) (by omega)
      rwa [Nat.add_sub_cancel' hfirst, Char.ofNat_toNat] at hc
    · have hsame : c.toLower = c := dif_neg hupper
      rw [hsame] at hlower ⊢
      exact ⟨hkept, hlower⟩
  intro d hd
  rw [hlower, List.mem_singleton] at hd
  rw [hd]
  exact hkey

/-- The key of a name in ASCII is its own key. -/
theorem canonicalName_canonicalName {name : String} (h : ∀ c ∈ name.toList, c.toNat < 0x80) :
    canonicalName (canonicalName name) = canonicalName name := by
  apply canonicalName_of_isKeyChar
  intro d hd
  rw [canonicalName, String.toList_ofList] at hd
  rcases List.mem_flatMap.1 hd with ⟨c, hc, hlower⟩
  rcases List.mem_filter.1 hc with ⟨hmem, hkept⟩
  exact isKeyChar_lowerChar (h c hmem) hkept d hlower

theorem toNat_of_callHead {c : Char} (h : Kind.callHead.alphabet c = true) : c.toNat < 0x80 := by
  simp only [Kind.alphabet, isNameRest, Bool.or_eq_true, beq_iff_eq] at h
  rcases h with (((halphanum | rfl) | rfl) | rfl) | rfl
  · exact (toNat_of_isAlphanum halphanum).2
  all_goals decide

/-- The name of a call in a passage is in ASCII. -/
theorem CallText.ascii_name {source : String} {call : CallText} (hmem : call.head ∈ scan source)
    (hkind : call.head.kind = .callHead) : ∀ c ∈ call.name.toList, c.toNat < 0x80 := by
  have hread := recognise_of_leading (leading?_of_mem_scan hmem)
  intro c hc
  rw [CallText.name, String.toList_ofList] at hc
  have htext : c ∈ call.head.text.toList := List.mem_of_mem_drop (List.dropLast_subset _ hc)
  have halphabet := call.head.kind.within.chars hread c (by rwa [List.take_length])
  rw [hkind] at halphabet
  exact toNat_of_callHead halphabet

/-! ### Updates -/

/-- That a catalog is another one updated by entries in order: the last entry of a key counts. Names are known
if they have a pattern, the size is the number of keys of the names that are known, and the key of a call in
a passage is as good as its name. -/
structure Updates (start : Catalog) (entries : List (String × Pattern)) (catalog : Catalog) : Prop where
  get?_eq : ∀ name, catalog.get? name =
    ((entriesFor name entries).getLast?.map Prod.snd).or (start.get? name)
  contains_eq : ∀ name, catalog.contains name = (catalog.get? name).isSome
  size_eq : ∃ keys : List String, keys.Nodup ∧ keys.length = catalog.size ∧
    ∀ key, key ∈ keys ↔ ∃ name, canonicalName name = key ∧ catalog.contains name = true
  get?_key : ∀ source tokens, tokenize source = .ok tokens → ∀ call : CallText, call.head ∈ tokens →
    call.head.kind = .callHead → catalog.get? (canonicalName call.name) = catalog.get? call.name

theorem updates_extend {start : Catalog} (hstart : start.HasNames) (entries : List (String × Pattern)) :
    Updates start entries (start.extend entries) where
  get?_eq := start.get?_extend entries
  contains_eq _ := rfl
  size_eq := ⟨_, Catalog.nodup_keys _, List.length_map _, fun _ => (hstart.extend entries).mem_keys_iff⟩
  get?_key := by
    intro source tokens htokens call hmem hkind
    rw [tokenize_eq, Except.ok.injEq] at htokens
    subst htokens
    rw [Catalog.get?, canonicalName_canonicalName (call.ascii_name hmem hkind), Catalog.get?]

/-- However a catalog is changed, starting from the empty or the built-in one, for each key the last entry
counts; two entries with different keys that follow each other can change places; and a configuration
updates the built-in catalog by its calls in order. Names that differ only in case, hyphens and underscores
have one key, and among names in ASCII no others have. -/
theorem catalog_last_entry_wins :
    (∀ start changes, start = Catalog.empty ∨ start = Catalog.builtin →
      Updates start (entriesOf changes) (start.after changes)) ∧
    (∀ (start : Catalog) changes changes' before first second behind,
      canonicalName first.1 ≠ canonicalName second.1 →
      entriesOf changes = before ++ first :: second :: behind →
      entriesOf changes' = before ++ second :: first :: behind →
      start.after changes = start.after changes') ∧
    (∀ config : Config,
      config.catalog = Catalog.builtin.after (config.calls.map fun call => .insert call.1 call.2) ∧
      Updates .builtin config.calls config.catalog) ∧
    ∀ first second : String,
      (Respelled first.toList second.toList → canonicalName first = canonicalName second) ∧
      ((∀ c ∈ first.toList ++ second.toList, c.toNat < 0x80) →
        canonicalName first = canonicalName second → Respelled first.toList second.toList) := by
  refine ⟨?_, ?_, ?_, ?_⟩
  · intro start changes hstart
    have hnames : start.HasNames := by
      rcases hstart with rfl | rfl
      · exact Catalog.hasNames_empty
      · exact Catalog.hasNames_builtin
    rw [Catalog.after_eq_extend]
    exact updates_extend hnames _
  · intro start changes changes' before first second behind hkeys hentries hentries'
    rw [Catalog.after_eq_extend, hentries, Catalog.after_eq_extend, hentries', Catalog.extend_swap _ hkeys]
  · intro config
    have hentries : entriesOf (config.calls.map fun call => .insert call.1 call.2) = config.calls := by
      simp [entriesOf, List.flatMap_map, Change.entries]
    refine ⟨?_, updates_extend Catalog.hasNames_builtin config.calls⟩
    rw [Catalog.after_eq_extend, hentries, Config.catalog]
  · intro first second
    refine ⟨canonicalName_eq_of_respelled, ?_⟩
    intro hascii
    rcases List.forall_mem_append.1 hascii with ⟨hfirst, hsecond⟩
    exact (canonicalName_eq_iff hfirst hsecond).1

/-- Spellings of a built-in name and a name with an empty key: the last spelling counts, two entries change
places, and a configuration does the same; two spellings have one key, and one key tells two spellings. -/
theorem catalog_last_entry_wins_spellings :
    (Catalog.builtin.after
        [.insert "Go_To" (.positional []), .extend [("-_", .positional []), ("GOTO", .variadic 2 .value)]]).get?
          "go-to" = some (.variadic 2 .value) ∧
    Catalog.empty.after [.insert "GOTO" (.variadic 2 .value), .insert "-_" (.positional [])] =
      Catalog.empty.after [.extend [("-_", .positional []), ("GOTO", .variadic 2 .value)]] ∧
    (Config.catalog ⟨"ast-json", "warn", [("PRINT", .positional []), ("p-rint", .variadic 0 .value)]⟩).get?
      "print" = some (.variadic 0 .value) ∧
    canonicalName "Go_To" = canonicalName "go-to" ∧ Respelled "GOTO".toList "go_to".toList := by
  rcases catalog_last_entry_wins with ⟨hafter, hswap, hconfig, hkey⟩
  refine ⟨?_, ?_, ?_, ?_⟩
  · rw [(hafter _ _ (.inr rfl)).get?_eq]
    decide +kernel
  · have hkeys : canonicalName "GOTO" ≠ canonicalName "-_" := by decide
    exact hswap .empty _ _ [] ("GOTO", .variadic 2 .value) ("-_", .positional []) [] hkeys rfl rfl
  · rw [(hconfig _).2.get?_eq]
    decide +kernel
  · constructor
    · have hg : lowerChar 'G' = lowerChar 'g' := by decide
      have ht : lowerChar 'T' = lowerChar 't' := by decide
      apply (hkey "Go_To" "go-to").1
      exact .letter (by decide) (by decide) hg (.letter (by decide) (by decide) rfl
        (.left (.inr rfl) (.right (.inl rfl) (.letter (by decide) (by decide) ht
          (.letter (by decide) (by decide) rfl .nil)))))
    · have hall : ("GOTO".toList ++ "go_to".toList).all (fun c => c.toNat < 0x80) = true := by decide
      have hascii : ∀ c ∈ "GOTO".toList ++ "go_to".toList, c.toNat < 0x80 := fun c hmem =>
        of_decide_eq_true (List.all_eq_true.1 hall c hmem)
      exact (hkey "GOTO" "go_to").2 hascii (by decide)

end PassageMarkup
