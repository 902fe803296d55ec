/-
Module: PassageMarkup.Proofs.SpacingInvariance
Layer: Proofs
Purpose: The amount and sort of blank between the tokens of a passage is irrelevant. A passage whose gaps are
  replaced by other blanks has the same tokens, before and after its bracket runs are resolved, so it is
  read into the same phrases. What the two trees quote is alike, hence equal once every run of blanks is
  made one space; and where one passage is refused the other is, for the same cause.
Imports: Proofs.Relocation, Proofs.Respacing
Main exports: singleSpaced, singleSpacedChars_of_alike, QuotesInStrings, exists_moves, parse_respaced
-/
import PassageMarkup.Proofs.Relocation
import PassageMarkup.Proofs.Respacing

namespace PassageMarkup

open Text

/-! ### Runs of blanks as single spaces -/

/-- A character list in which every maximal run of blanks is one space. -/
def singleSpacedChars : List Char → List Char
  | [] => []
  | c :: cs =>
      if isBlank c then
        if cs.head?.any isBlank then singleSpacedChars cs else ' ' :: singleSpacedChars cs
      else c :: singleSpacedChars cs

/-- A text in which every maximal run of blanks is one space. -/
def singleSpaced (text : String) : String :=
  String.ofList (singleSpacedChars text.toList)

/-- A run of blanks counts as one. -/
theorem singleSpacedChars_gap {gap : List Char} (hgap : ∀ c ∈ gap, isBlank c = true) (hne : gap ≠ [])
    (cs : List Char) : singleSpacedChars (gap ++ cs) = singleSpacedChars (' ' :: cs) := by
  have hspace : isBlank ' ' = true := by decide
  induction gap with
  | nil => exact absurd rfl hne
  | cons c gap ih =>
      rcases List.forall_mem_cons.1 hgap with ⟨hc, hrest⟩
      cases gap with
      | nil => simp only [List.cons_append, List.nil_append, singleSpacedChars, hc, hspace, if_true]
      | cons d gap =>
          have hd : isBlank d = true := hrest d List.mem_cons_self
          rw [← ih hrest (by simp)]
          simp [singleSpacedChars, hc, hd]

/-- Whether a text does not end with a blank. -/
def endsSolid (cs : List Char) : Bool :=
  cs.getLast?.all fun c => !isBlank c

theorem endsSolid_of_append {front back : List Char} (h : endsSolid (front ++ back) = true) :
    endsSolid back = true := by
  cases hback : back.getLast? with
  | none => simp [endsSolid, hback]
  | some last =>
      rw [endsSolid, List.getLast?_append, hback, Option.some_or] at h
      rwa [endsSolid, hback]

/-- Behind blanks there is something, in a text that does not end with a blank. -/
theorem ne_nil_of_endsSolid {gap cs : List Char} (hgap : ∀ c ∈ gap, isBlank c = true) (hne : gap ≠ [])
    (h : endsSolid (gap ++ cs) = true) : cs ≠ [] := by
  rintro rfl
  have hblank := hgap _ (List.getLast_mem hne)
  simp [endsSolid, List.getLast?_eq_some_getLast hne, hblank] at h

theorem eq_nil_of_endsSolid {gap : List Char} (hgap : ∀ c ∈ gap, isBlank c = true)
    (h : endsSolid gap = true) : gap = [] := by
  rcases List.eq_nil_or_concat gap with hnil | ⟨front, last, rfl⟩
  · exact hnil
  · simp [endsSolid, hgap last (by simp)] at h

/-- Texts that are alike and not empty both start with a blank or both do not. -/
theorem Alike.head_blank {cs ds : List Char} (h : Alike cs ds) (hcs : cs ≠ []) (hds : ds ≠ []) :
    cs.head?.any isBlank = ds.head?.any isBlank := by
  rcases h.split with ⟨word, rest, other, rfl, rfl, _, hpauses, hpauses', _⟩
  cases word with
  | cons c word => rfl
  | nil =>
      have hblank : ∀ {text : List Char}, text ≠ [] → pauses text = true →
          text.head?.any isBlank = true := by
        intro text hne hpause
        cases text with
        | nil => exact absurd rfl hne
        | cons c text => exact hpause
      exact (hblank hcs hpauses).trans (hblank hds hpauses').symm

/-- Texts that are alike, and do not end with a blank, are equal once every run of blanks is one space. -/
theorem singleSpacedChars_of_alike {cs ds : List Char} (h : Alike cs ds) (hcs : endsSolid cs = true)
    (hds : endsSolid ds = true) : singleSpacedChars cs = singleSpacedChars ds := by
  -- a blank in front of texts that are alike is dropped in both or kept in both
  have hblank : ∀ {c cs ds}, isBlank c = true → Alike cs ds → cs ≠ [] → ds ≠ [] →
      singleSpacedChars cs = singleSpacedChars ds →
        singleSpacedChars (c :: cs) = singleSpacedChars (c :: ds) := by
    intro c cs ds hc halike hcs hds hsame
    rw [singleSpacedChars, singleSpacedChars, halike.head_blank hcs hds, hsame]
  induction h with
  | ends hgap hother => rw [eq_nil_of_endsSolid hgap hcs, eq_nil_of_endsSolid hother hds]
  | @char c cs ds hrest ih =>
      rw [← List.singleton_append] at hcs hds
      have hsame := ih (endsSolid_of_append hcs) (endsSolid_of_append hds)
      cases hc : isBlank c with
      | true =>
          have hsingle : ∀ d ∈ [c], isBlank d = true := by simpa using hc
          exact hblank hc hrest (ne_nil_of_endsSolid hsingle (by simp) hcs)
            (ne_nil_of_endsSolid hsingle (by simp) hds) hsame
      | false => simp only [singleSpacedChars, hc, Bool.false_eq_true, if_false, hsame]
  | gap hgap hne hother hother_ne hrest ih =>
      have hsame := ih (endsSolid_of_append hcs) (endsSolid_of_append hds)
      rw [singleSpacedChars_gap hgap hne, singleSpacedChars_gap hother hother_ne]
      exact hblank (by decide) hrest (ne_nil_of_endsSolid hgap hne hcs)
        (ne_nil_of_endsSolid hother hother_ne hds) hsame

theorem endsSolid_of_solidText {text : List Char} (h : SolidText text) : endsSolid text = true := by
  rcases h with ⟨_, last, hlast, hblank⟩
  simp [endsSolid, hlast, hblank]

/-! ### Quotes inside strings -/

/-- Every double quote of a passage lies inside one of its string literals. -/
def QuotesInStrings (source : String) (tokens : List Token) : Prop :=
  ∀ i < source.toList.length, source.toList[i]? = some '"' → ∃ token ∈ tokens,
    token.kind = .string ∧ token.start ≤ byteLength (source.toList.take i) ∧
      byteLength (source.toList.take i) < token.stop

instance (source : String) (tokens : List Token) : Decidable (QuotesInStrings source tokens) :=
  inferInstanceAs (Decidable (∀ i < source.toList.length, source.toList[i]? = some '"' →
    ∃ token ∈ tokens, token.kind = .string ∧ token.start ≤ byteLength (source.toList.take i) ∧
      byteLength (source.toList.take i) < token.stop))

/-- Tokens whose byte ranges have a byte in common are equal. -/
theorem eq_of_overlap {tokens : List Token}
    (h : tokens.Pairwise fun first second => first.stop ≤ second.start) {position : Nat} :
    ∀ first ∈ tokens, ∀ second ∈ tokens, first.start ≤ position → position < first.stop →
      second.start ≤ position → position < second.stop → first = second := by
  induction h with
  | nil => simp
  | @cons token tokens hfront _ ih =>
      intro first hfirst second hsecond hstart hstop hstart' hstop'
      rcases List.mem_cons.1 hfirst with rfl | hfirstLater <;>
        rcases List.mem_cons.1 hsecond with rfl | hsecondLater
      · rfl
      · have hle := hfront second hsecondLater
        omega
      · have hle := hfront first hfirstLater
        omega
      · exact ih first hfirstLater second hsecondLater hstart hstop hstart' hstop'

/-- A token other than a string literal then holds no quote. -/
theorem QuotesInStrings.not_mem {source : String} {tokens : List Token}
    (h : QuotesInStrings source tokens) (htiles : Tiles 0 source.toList tokens) :
    ∀ token ∈ tokens, token.kind ≠ .string → '"' ∉ token.text.toList := by
  intro token hmem hkind hquote
  rcases htiles.exists_part token hmem with ⟨before, text, behind, hsource, _, _, htext, hstart, hstop⟩
  rw [htext, String.toList_ofList] at hquote
  rcases List.append_of_mem hquote with ⟨front, back, rfl⟩
  have hplace : source.toList = (before ++ front) ++ '"' :: (back ++ behind) := by simp [hsource]
  have hat : source.toList[(before ++ front).length]? = some '"' := by
    rw [hplace, List.getElem?_append_right (Nat.le_refl _), Nat.sub_self, List.getElem?_cons_zero]
  have hbefore : source.toList.take (before ++ front).length = before ++ front := by
    rw [hplace, List.take_left]
  rcases h _ (List.getElem?_eq_some_iff.1 hat).1 hat with ⟨other, hother, hstring, hfrom, hto⟩
  rw [hbefore] at hfrom hto
  have hsize : 0 < byteLength ('"' :: back) := byteLength_pos (by simp)
  have hsame := eq_of_overlap htiles.pairwise token hmem other hother
    (by rw [hstart, byteLength_append]; omega)
    (by rw [hstop, hstart, byteLength_append, byteLength_append]; omega) hfrom hto
  exact hkind (hsame ▸ hstring)

/-! ### The two passages -/

/-- Tokens of the same kinds and texts are moved tokens. -/
theorem exists_moves : ∀ {tokens tokens' : List Token},
    tokens'.map Token.spelling = tokens.map Token.spelling → tokens.Nodup →
      ∃ f, Moves f ∧ tokens' = tokens.map f
  | [], tokens', hsame, _ => by
      rw [List.map_nil, List.map_eq_nil_iff] at hsame
      exact ⟨id, ⟨fun _ => rfl, fun _ => rfl⟩, hsame⟩
  | token :: tokens, tokens', hsame, hnodup => by
      rcases List.map_eq_cons_iff.1 hsame with ⟨token', rest', rfl, hfirst, hrest⟩
      rcases List.nodup_cons.1 hnodup with ⟨hnot, hnodup⟩
      rcases exists_moves hrest hnodup with ⟨f, hf, rfl⟩
      rcases Prod.mk.inj hfirst with ⟨hkind, htext⟩
      refine ⟨fun other => if other = token then token' else f other, ⟨?_, ?_⟩, ?_⟩
      · intro other
        by_cases hother : other = token
        · simp only [hother, if_true, hkind]
        · simp only [hother, if_false, hf.kind]
      · intro other
        by_cases hother : other = token
        · simp only [hother, if_true, htext]
        · simp only [hother, if_false, hf.text]
      · rw [List.map_cons, if_pos rfl]
        congr 1
        apply List.map_congr_left
        intro other hmem
        rw [if_neg]
        rintro rfl
        exact hnot hmem

theorem nodup_of_tiles {offset : Nat} {cs : List Char} {tokens : List Token}
    (h : Tiles offset cs tokens) : tokens.Nodup := by
  refine h.pairwise.imp_of_mem ?_
  rintro first second hfirst _ hle rfl
  have hlt := (h.start_lt_stop first hfirst).2
  omega

/-- What tokens in a row span does not end with a blank. -/
theorem endsSolid_of_span {source : String} {part : List Token} {first last : Token}
    {middle : List Char} (hpart : part <:+: tokensOf source) (hfirst : part.head? = some first)
    (hlast : part.getLast? = some last)
    (hslice : slice source first.start last.stop = String.ofList middle) : endsSolid middle = true := by
  rcases spanText_eq (tiles_tokensOf source) hpart hfirst hlast with ⟨chars, hsolid, _, hchars⟩
  have hsame : chars = middle := by simpa using congrArg String.toList (hchars.symm.trans hslice)
  exact endsSolid_of_solidText (hsame ▸ hsolid)

/-- Passages with the same resolved tokens, with gaps empty in the same places, quote the same up to their
blanks. -/
theorem Respaced.requotes {source moved : String} {gap gap' core core' : List Char} {f : Token → Token}
    (h : Respaced (byteLength gap) core (tokensOf source) (byteLength gap') core' (tokensOf moved))
    (hsource : source.toList = gap ++ core) (hmoved : moved.toList = gap' ++ core')
    (hf : Moves f) (htokens : tokensOf moved = (tokensOf source).map f) :
    Requotes singleSpaced f source moved := by
  refine ⟨hf, htokens, ?_⟩
  intro part first last hpart _ hfirst hlast
  rcases hpart with ⟨before, behind, hparts⟩
  rcases h.span htokens before part behind first last (by rw [← hparts, List.append_assoc]) hfirst hlast
    with ⟨front, middle, back, front', middle', back', rfl, rfl, halike, hstart, hstop, hstart', hstop'⟩
  have hsource' : source.toList = gap ++ front ++ middle ++ back := by simp [hsource]
  have hmoved' : moved.toList = gap' ++ front' ++ middle' ++ back' := by simp [hmoved]
  have hslice : slice source first.start last.stop = String.ofList middle := by
    rw [hstop, hstart, ← byteLength_append]
    exact slice_eq hsource'
  have hslice' : slice moved (f first).start (f last).stop = String.ofList middle' := by
    rw [hstop', hstart', ← byteLength_append]
    exact slice_eq hmoved'
  have hpart : part <:+: tokensOf source := ⟨before, behind, hparts⟩
  have hpart' : part.map f <:+: tokensOf moved := htokens ▸ hpart.map f
  rw [hslice, hslice', singleSpaced, singleSpaced, String.toList_ofList, String.toList_ofList]
  congr 1
  refine (singleSpacedChars_of_alike halike ?_ ?_).symm
  · exact endsSolid_of_span hpart hfirst hlast hslice
  · refine endsSolid_of_span hpart' ?_ ?_ hslice'
    · rw [List.head?_map, hfirst, Option.map_some]
    · rw [List.getLast?_map, hlast, Option.map_some]

/-- A passage stays the same, up to its blanks, when the gaps between its tokens are replaced. Every double
quote must be inside a string literal, as one that is left open would reach through the gaps. -/
theorem parse_respaced {source : String} {tokens : List Token} (htokens : tokenize source = .ok tokens)
    (hquotes : QuotesInStrings source tokens) {gaps : List String}
    (hgaps : Respaces (gapsFrom source 0 tokens) gaps) :
    ∃ others, tokenize (interleave gaps tokens) = .ok others ∧
      others.map Token.spelling = tokens.map Token.spelling ∧
      (resolveBrackets others).map Token.spelling = (resolveBrackets tokens).map Token.spelling ∧
      ∀ catalog, SameOutcome
        (fun program other => program.reword singleSpaced = other.reword singleSpaced)
        (parse catalog source) (parse catalog (interleave gaps tokens)) := by
  rw [tokenize_eq, Except.ok.injEq] at htokens
  subst htokens
  have hlexes := lexes_scan source
  rcases hlexes.respaced (List.nil_append _).symm rfl (hquotes.not_mem hlexes.tiles) hgaps 0 with
    ⟨gap, gap', core, core', others, hsource, hmoved, _, _, _, _, hlexes', hrespaced⟩
  have hscan := (scan?_of_lexes hlexes').2
  have hresolved := hrespaced.resolve (bracketSpelled_scan source) [] others
  rw [Nat.zero_add, Nat.zero_add] at hresolved
  rcases exists_moves hresolved.spelling (nodup_of_tiles (tiles_tokensOf source)) with ⟨f, hf, hmap⟩
  refine ⟨others, ?_, hrespaced.spelling, hresolved.spelling, ?_⟩
  · rw [tokenize_eq, hscan]
  · intro catalog
    refine parse_of_requotes (Respaced.requotes ?_ hsource hmoved hf ?_) catalog
    · rw [tokensOf, tokensOf, hscan]
      exact hresolved
    · rw [tokensOf, hscan]
      exact hmap

/-- Other blanks in front of, between and behind the tokens of a link and a call; the blanks inside the
string belong to it and stay. -/
theorem parse_respaced_link :
    let program : Program := ⟨[.link ⟨"go  on", "Hall"⟩, .unknownCall "box" "(box: \"x  y\")" none]⟩
    let other : Program := ⟨[.link ⟨"go\ton", "Hall"⟩, .unknownCall "box" "(box:\n\n\"x  y\")" none]⟩
    parse .empty "[[go  on->Hall]] (box: \"x  y\") " = .ok program ∧
      parse .empty "\n[[go\ton->Hall]]   (box:\n\n\"x  y\")" = .ok other ∧
      program.reword singleSpaced = other.reword singleSpaced := by
  intro program other
  have hprogram : parse .empty "[[go  on->Hall]] (box: \"x  y\") " = .ok program := by decide +kernel
  have hother : parse .empty "\n[[go\ton->Hall]]   (box:\n\n\"x  y\")" = .ok other := by decide +kernel
  have hquotes : QuotesInStrings "[[go  on->Hall]] (box: \"x  y\") "
      (scan "[[go  on->Hall]] (box: \"x  y\") ") := by decide +kernel
  have hgaps : Respaces (gapsFrom "[[go  on->Hall]] (box: \"x  y\") " 0
      (scan "[[go  on->Hall]] (box: \"x  y\") "))
        ["\n", "", "\t", "", "", "", "   ", "\n\n", "", ""] := by decide +kernel
  have hmoved : interleave ["\n", "", "\t", "", "", "", "   ", "\n\n", "", ""]
      (scan "[[go  on->Hall]] (box: \"x  y\") ") =
        "\n[[go\ton->Hall]]   (box:\n\n\"x  y\")" := by decide +kernel
  rcases parse_respaced (tokenize_eq _) hquotes hgaps with ⟨_, _, _, _, hparse⟩
  have hsame := hparse .empty
  rw [hmoved, hprogram, hother] at hsame
  cases hsame with
  | ok hrelated => exact ⟨hprogram, hother, hrelated⟩

end PassageMarkup
