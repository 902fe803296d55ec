/-
Module: PassageMarkup.Proofs.Gluing
Layer: Proofs
Purpose: Brackets may be glued together. Between two closing brackets, and between a bracket that opens a
  hook and one that opens a link, blanks can be taken out of an accepted passage without a change to its
  tree. The tokens in front of the place stay, those behind it move up, and together they are still
  regular for the shorter passage; so they are its tokens, although the scan may pair the brackets of the
  longer run in another way.
Imports: Proofs.Gaps, Proofs.Nesting, Proofs.Relocation, Proofs.Slices
Main exports: glue, Glues, Tiles.append, Tiles.shiftLeft, Seam, Token.closeUp, Seam.regular,
  Seam.relocates, parse_glue
-/
import PassageMarkup.Proofs.Gaps
import PassageMarkup.Proofs.Nesting
import PassageMarkup.Proofs.Relocation
import PassageMarkup.Proofs.Slices

namespace PassageMarkup

open Text

/-- Whether a kind of token closes a hook or a link. -/
def Kind.isClosing : Kind → Bool
  | .hookClose | .linkClose => true
  | _ => false

/-- Kinds of brackets between which blanks mean nothing: two closing brackets, or the opening bracket of a
hook and that of a link. -/
def Glues (first second : Kind) : Prop :=
  first.isClosing = true ∧ second.isClosing = true ∨ first = .hookOpen ∧ second = .linkOpen

theorem Glues.isBracket {first second : Kind} (h : Glues first second) : first.isBracket = true := by
  rcases h with ⟨hclosing, _⟩ | ⟨rfl, _⟩
  · cases first with
    | hookClose | linkClose => rfl
    | _ => cases hclosing
  · rfl

theorem Glues.not_hookOpen {first second : Kind} (h : Glues first second) :
    first = .hookOpen → second ≠ .hookOpen := by
  rintro rfl
  rcases h with ⟨hclosing, _⟩ | ⟨_, rfl⟩
  · cases hclosing
  · simp

/-- A passage without what stands between two of its tokens. -/
def glue (source : String) (first second : Token) : String :=
  slice source 0 first.stop ++ slice source second.start source.utf8ByteSize

/-! ### Joining and moving tilings -/

/-- Tilings of two texts in a row are a tiling of both. -/
theorem Tiles.append {offset : Nat} {front back : List Char} {first second : List Token}
    (hfirst : Tiles offset front first) (hsecond : Tiles (offset + byteLength front) back second) :
    Tiles offset (front ++ back) (first ++ second) := by
  induction hfirst with
  | done hgap => exact hsecond.blank hgap
  | @token offset gap text rest token tokens hgap hsolid hkind htext hstart hstop _ ih =>
      have hoffset : offset + byteLength (gap ++ (text ++ rest)) = token.stop + byteLength rest := by
        simp only [byteLength_append]
        omega
      rw [hoffset] at hsecond
      rw [List.append_assoc, List.append_assoc]
      exact .token hgap hsolid hkind htext hstart hstop (ih hsecond)

/-- The byte offset at which a tiled text starts only moves the byte ranges of its tokens. -/
theorem Tiles.shiftLeft {position : Nat} {cs : List Char} {tokens : List Token}
    (h : Tiles position cs tokens) : ∀ base offset, position = base + offset →
      Tiles offset cs (tokens.map (Token.shiftLeft base)) := by
  induction h with
  | done hgap =>
      intro base offset _
      exact .done hgap
  | @token position gap text rest token tokens hgap hsolid hkind htext hstart hstop _ ih =>
      intro base offset heq
      have hrest : token.stop = base + (token.shiftLeft base).stop := by
        simp only [Token.shiftLeft]
        omega
      refine .token hgap hsolid hkind htext ?_ ?_ (ih base _ hrest)
      · simp only [Token.shiftLeft]
        omega
      · simp only [Token.shiftLeft]
        omega

/-! ### The place between two tokens -/

/-- The place between the tokens `first` and `second` of a passage: `front` is the text in front of the
one, `back` the text from the other on, and `gap` the blanks between them. -/
structure Seam (source : String) (before : List Token) (first second : Token) (behind : List Token)
    (front gap back : List Char) : Prop where
  chars : source.toList = front ++ (first.text.toList ++ (gap ++ back))
  blank : ∀ c ∈ gap, isBlank c = true
  start : first.start = byteLength front
  stop : first.stop = byteLength front + byteLength first.text.toList
  next : second.start = first.stop + byteLength gap
  solid : SolidText first.text.toList
  kind_ne : first.kind ≠ .whitespace
  tiles_front : Tiles 0 front before
  tiles_back : Tiles second.start back (second :: behind)

theorem exists_seam {source : String} {before behind : List Token} {first second : Token}
    (h : Tiles 0 source.toList (before ++ first :: second :: behind)) :
    ∃ front gap back, Seam source before first second behind front gap back := by
  rcases h.around before first (second :: behind) rfl with
    ⟨front, rest, hchars, hstart, hstop, hsolid, hkind, hfront, hrest⟩
  rcases hrest.around [] second behind rfl with
    ⟨gap, back, rfl, hnext, hend, hsolid', hkind', hgap, hback⟩
  rw [Nat.zero_add] at hstart
  refine ⟨front, gap, second.text.toList ++ back, hchars, hgap.blank_of_nil, hstart, ?_, hnext, hsolid,
    hkind, hfront, ?_⟩
  · rw [hstop, hstart]
  · have hnone : ∀ c ∈ ([] : List Char), isBlank c = true := by simp
    exact .token hnone hsolid' hkind' (String.ofList_toList).symm rfl hend hback

section Seam

variable {source : String} {before behind : List Token} {first second : Token}
  {front gap back : List Char}

/-- Gluing takes out exactly the blanks. -/
theorem Seam.toList_glue (h : Seam source before first second behind front gap back) :
    (glue source first second).toList = front ++ (first.text.toList ++ back) := by
  have hfront : slice source 0 first.stop = String.ofList (front ++ first.text.toList) := by
    have hparts : source.toList = [] ++ (front ++ first.text.toList) ++ (gap ++ back) := by
      rw [h.chars]
      simp
    apply slice_of_parts hparts rfl
    rw [h.stop, byteLength_append]
    exact (Nat.zero_add _).symm
  have hback : slice source second.start source.utf8ByteSize = String.ofList back := by
    have hparts : source.toList = (front ++ (first.text.toList ++ gap)) ++ back ++ [] := by
      rw [h.chars]
      simp
    have hplace : second.start = byteLength (front ++ (first.text.toList ++ gap)) := by
      rw [h.next, h.stop, byteLength_append, byteLength_append, Nat.add_assoc]
    apply slice_of_parts hparts hplace
    rw [utf8ByteSize_eq, hparts, List.append_nil, byteLength_append, hplace]
  rw [glue, hfront, hback, String.toList_append, String.toList_ofList, String.toList_ofList,
    List.append_assoc]

/-- A place in the text behind, in the passage and in the glued one. -/
theorem Seam.chars_back (h : Seam source before first second behind front gap back) {x rest : List Char}
    (hback : back = x ++ rest) :
    source.toList = (front ++ first.text.toList ++ gap ++ x) ++ rest ∧
      (glue source first second).toList = (front ++ first.text.toList ++ x) ++ rest := by
  rw [h.toList_glue, h.chars, hback]
  simp

theorem Seam.place_back (h : Seam source before first second behind front gap back) {place : Nat}
    {x : List Char} (hplace : place = second.start + byteLength x) :
    place = byteLength (front ++ first.text.toList ++ gap ++ x) ∧
      place - byteLength gap = byteLength (front ++ first.text.toList ++ x) := by
  have hnext := h.next
  have hstop := h.stop
  simp only [byteLength_append]
  omega

theorem Seam.allBlank_between (h : Seam source before first second behind front gap back) :
    allBlank (slice source first.stop second.start) = true := by
  have hparts : source.toList = (front ++ first.text.toList) ++ gap ++ back := by
    rw [h.chars]
    simp
  have hslice : slice source first.stop second.start = String.ofList gap :=
    slice_of_parts hparts (by rw [h.stop, byteLength_append]) h.next
  rw [hslice, allBlank, String.toList_ofList, List.all_eq_true]
  exact h.blank

end Seam

/-! ### Moving up the tokens behind a place -/

/-- A token as it stands when `width` bytes in front of byte `place` are taken out. -/
def Token.closeUp (place width : Nat) (token : Token) : Token :=
  if token.start < place then token else token.shiftLeft width

theorem moves_closeUp (place width : Nat) : Moves (Token.closeUp place width) := by
  constructor
  · intro token
    unfold Token.closeUp
    split <;> rfl
  · intro token
    unfold Token.closeUp
    split <;> rfl

theorem BracketSpelled.of_moves {f : Token → Token} (hf : Moves f) {token : Token}
    (h : BracketSpelled token) : BracketSpelled (f token) := by
  constructor
  all_goals
    intro hkind
    rw [hf.kind] at hkind
    rw [hf.text]
  · exact h.linkOpen hkind
  · exact h.linkClose hkind
  · exact h.hookOpen hkind
  · exact h.hookClose hkind

theorem Nests.of_moves {f : Token → Token} (hf : Moves f) {opened : List OpenBracket}
    {tokens : List Token} (h : Nests opened tokens) : Nests opened (tokens.map f) := by
  induction h with
  | nil => exact .nil
  | cons hturn _ ih =>
      rw [← hf.kind] at hturn
      exact .cons hturn ih

/-- A bracket ends in a bracket character. -/
theorem BracketSpelled.exists_last {token : Token} (h : BracketSpelled token)
    (hkind : token.kind.isBracket = true) :
    ∃ pre c, token.text.toList = pre ++ [c] ∧ isBracketChar c = true := by
  have hspelled := h.bracket? hkind
  cases hk : token.kind with
  | linkOpen =>
      rw [hk] at hspelled
      exact ⟨['['], '[', (Option.some.inj hspelled).symm, rfl⟩
  | linkClose =>
      rw [hk] at hspelled
      exact ⟨[']'], ']', (Option.some.inj hspelled).symm, rfl⟩
  | hookOpen =>
      rw [hk] at hspelled
      exact ⟨[], '[', (Option.some.inj hspelled).symm, rfl⟩
  | hookClose =>
      rw [hk] at hspelled
      exact ⟨[], ']', (Option.some.inj hspelled).symm, rfl⟩
  | _ =>
      rw [hk] at hkind
      cases hkind

section Moved

variable {source : String} {before behind : List Token} {first second : Token}
  {front gap back : List Char}

theorem Seam.closeUp_front (h : Seam source before first second behind front gap back) {token : Token}
    (hmem : token ∈ before) : token.closeUp second.start (byteLength gap) = token := by
  rcases h.tiles_front.exists_part token hmem with ⟨x, text, y, hfront, _, _, _, hstart, _⟩
  have hlength : byteLength front = byteLength x + byteLength text + byteLength y := by
    rw [hfront, byteLength_append, byteLength_append]
  have hpos := byteLength_pos h.solid.ne_nil
  have hnext := h.next
  have hstop := h.stop
  exact if_pos (by omega)

theorem Seam.closeUp_first (h : Seam source before first second behind front gap back) :
    first.closeUp second.start (byteLength gap) = first := by
  have hpos := byteLength_pos h.solid.ne_nil
  have hnext := h.next
  have hstop := h.stop
  have hstart := h.start
  exact if_pos (by omega)

theorem Seam.closeUp_back (h : Seam source before first second behind front gap back) {token : Token}
    (hmem : token ∈ second :: behind) :
    token.closeUp second.start (byteLength gap) = token.shiftLeft (byteLength gap) := by
  have hle := (h.tiles_back.start_lt_stop token hmem).1
  exact if_neg (by omega)

theorem Seam.map_closeUp (h : Seam source before first second behind front gap back) :
    (before ++ first :: second :: behind).map (Token.closeUp second.start (byteLength gap)) =
      before ++ first :: (second :: behind).map (Token.shiftLeft (byteLength gap)) := by
  have hfront : before.map (Token.closeUp second.start (byteLength gap)) = before :=
    calc before.map (Token.closeUp second.start (byteLength gap))
        = before.map id := List.map_congr_left fun token hmem => h.closeUp_front hmem
      _ = before := List.map_id before
  have hback : (second :: behind).map (Token.closeUp second.start (byteLength gap)) =
      (second :: behind).map (Token.shiftLeft (byteLength gap)) :=
    List.map_congr_left fun token hmem => h.closeUp_back hmem
  rw [List.map_append, hfront, List.map_cons, h.closeUp_first, hback]

/-- The moved tokens tile the glued passage. -/
theorem Seam.tiles (h : Seam source before first second behind front gap back) :
    Tiles 0 (front ++ (first.text.toList ++ back))
      (before ++ first :: (second :: behind).map (Token.shiftLeft (byteLength gap))) := by
  have hnone : ∀ c ∈ ([] : List Char), isBlank c = true := by simp
  have hback : Tiles first.stop back
      ((second :: behind).map (Token.shiftLeft (byteLength gap))) :=
    h.tiles_back.shiftLeft (byteLength gap) first.stop (by rw [h.next, Nat.add_comm])
  apply h.tiles_front.append
  rw [Nat.zero_add]
  refine .token hnone h.solid h.kind_ne (String.ofList_toList).symm h.start ?_ hback
  rw [h.stop, h.start]

/-- A token in front of the place still leads. -/
theorem Seam.leads_front (h : Seam source before first second behind front gap back)
    (hfirst : BracketSpelled first) (hbracket : first.kind.isBracket = true) {token : Token}
    (hmem : token ∈ before) (hkind : token.kind.isBracket = false)
    (hleads : token.Leads source.toList) : token.Leads (glue source first second).toList := by
  rcases hfirst.exists_last hbracket with ⟨pre, c, htext, hc⟩
  rcases h.tiles_front.exists_part token hmem with ⟨x, text, y, rfl, _, _, hchars, hstart, _⟩
  rw [Nat.zero_add] at hstart
  have hcut : ∀ rest, (x ++ text ++ y) ++ (first.text.toList ++ rest) =
      x ++ ((text ++ (y ++ pre)) ++ c :: rest) := by
    intro rest
    rw [htext]
    simp
  rw [Token.Leads, h.chars, hcut, hstart, dropBytes_append] at hleads
  rw [Token.Leads, h.toList_glue, hcut, hstart, dropBytes_append]
  apply leading?_removeGap hc h.blank hkind ?_ hleads
  rw [hchars, String.toList_ofList, List.length_append]
  exact Nat.le_add_right _ _

/-- A token behind the place still leads, when it is moved. -/
theorem Seam.leads_back (h : Seam source before first second behind front gap back) {token : Token}
    (hmem : token ∈ second :: behind) (hleads : token.Leads source.toList) :
    (token.shiftLeft (byteLength gap)).Leads (glue source first second).toList := by
  rcases h.tiles_back.exists_part token hmem with ⟨x, text, y, hback, _, _, _, hstart, _⟩
  rw [List.append_assoc] at hback
  rcases h.chars_back hback with ⟨hold, hnew⟩
  rcases h.place_back hstart with ⟨hplace, hmoved⟩
  have hmoved : (token.shiftLeft (byteLength gap)).start =
      byteLength (front ++ first.text.toList ++ x) := hmoved
  rw [Token.Leads, hold, hplace, dropBytes_append] at hleads
  rw [Token.Leads, hnew, hmoved, dropBytes_append]
  exact hleads

/-- Hook brackets are still apart, if the two at the place are not both of that kind. -/
theorem Seam.apart (h : Seam source before first second behind front gap back)
    (hapart : (before ++ first :: second :: behind).IsChain HooksApart)
    (hkinds : first.kind = .hookOpen → second.kind ≠ .hookOpen) :
    (before ++ first :: (second :: behind).map (Token.shiftLeft (byteLength gap))).IsChain
      HooksApart := by
  have hparts : before ++ first :: second :: behind = (before ++ [first]) ++ second :: behind := by
    simp
  rw [hparts, List.isChain_append] at hapart
  rcases hapart with ⟨hfront, hback, _⟩
  have hmoved : ((second :: behind).map (Token.shiftLeft (byteLength gap))).IsChain HooksApart := by
    rw [List.isChain_map]
    refine List.IsChain.imp_of_mem_imp ?_ hback
    intro left right hleft hright happ hleftKind hrightKind htouch
    have hleftPlace := h.tiles_back.start_lt_stop left hleft
    have hrightPlace := h.tiles_back.start_lt_stop right hright
    have hnext := h.next
    have htouch : right.start - byteLength gap = left.stop - byteLength gap := htouch
    exact happ hleftKind hrightKind (by omega)
  have hjoined : ((before ++ [first]) ++
      (second :: behind).map (Token.shiftLeft (byteLength gap))).IsChain HooksApart := by
    rw [List.isChain_append]
    refine ⟨hfront, hmoved, ?_⟩
    intro last hlast next hnext hlastKind hnextKind
    obtain rfl : first = last := by simpa using hlast
    obtain rfl : second.shiftLeft (byteLength gap) = next := by simpa using hnext
    exact absurd hnextKind (hkinds hlastKind)
  simpa using hjoined

/-- The moved tokens are regular for the glued passage. -/
theorem Seam.regular (h : Seam source before first second behind front gap back)
    (hregular : Regular source.toList [] 0 source.toList (before ++ first :: second :: behind))
    (hbracket : first.kind.isBracket = true)
    (hkinds : first.kind = .hookOpen → second.kind ≠ .hookOpen) :
    Regular (glue source first second).toList [] 0 (glue source first second).toList
      ((before ++ first :: second :: behind).map
        (Token.closeUp second.start (byteLength gap))) where
  place := ⟨[], rfl, rfl⟩
  tiles := by
    rw [h.toList_glue, h.map_closeUp]
    exact h.tiles
  spelled := by
    intro token hmem
    rcases List.mem_map.1 hmem with ⟨old, hold, rfl⟩
    exact (hregular.spelled old hold).of_moves (moves_closeUp _ _)
  leads := by
    intro token hmem hkind
    rcases List.mem_map.1 hmem with ⟨old, hold, rfl⟩
    rw [(moves_closeUp _ _).kind] at hkind
    have hleads := hregular.leads old hold hkind
    rcases List.mem_append.1 hold with hmem | hmem
    · rw [h.closeUp_front hmem]
      exact h.leads_front (hregular.spelled first (by simp)) hbracket hmem hkind hleads
    rcases List.mem_cons.1 hmem with rfl | hmem
    · rw [hbracket] at hkind
      cases hkind
    · rw [h.closeUp_back hmem]
      exact h.leads_back hmem hleads
  apart := by
    rw [h.map_closeUp]
    exact h.apart hregular.apart hkinds
  nests := hregular.nests.of_moves (moves_closeUp _ _)

/-! ### Quoting the glued passage -/

/-- A part of a list without a given member lies on one side of it. -/
theorem infix_of_not_mem {α : Type} {part before behind : List α} {middle : α}
    (h : part <:+: before ++ middle :: behind) (hmiddle : middle ∉ part) :
    part <:+: before ∨ part <:+: behind := by
  have hstart : ∀ {rest : List α}, rest <+: middle :: behind → middle ∉ rest → rest = [] := by
    intro rest hpre hnot
    rcases List.prefix_cons_iff.1 hpre with rfl | ⟨more, rfl, _⟩
    · rfl
    · exact absurd List.mem_cons_self hnot
  rcases List.infix_append_iff.1 h with hbefore | hbehind | ⟨left, right, rfl, hleft, hright⟩
  · exact .inl hbefore
  · rcases List.infix_cons_iff.1 hbehind with hpre | hpart
    · rw [hstart hpre hmiddle]
      exact .inl List.nil_infix
    · exact .inr hpart
  · have hnone : right = [] := hstart hright fun hmem => hmiddle (List.mem_append_right _ hmem)
    rw [hnone, List.append_nil]
    exact .inl hleft.isInfix

/-- The moved tokens quote in the glued passage what they quoted before. -/
theorem Seam.relocates (h : Seam source before first second behind front gap back)
    (hbracket : first.kind.isBracket = true) :
    Relocates (Token.closeUp second.start (byteLength gap)) source (glue source first second)
      (before ++ first :: second :: behind) where
  toMoves := moves_closeUp _ _
  quotes := by
    intro part start stop hpart hplain hstart hstop
    have hnot : first ∉ part := by
      intro hmem
      have hfirst := hplain first hmem
      rw [hbracket] at hfirst
      cases hfirst
    have hstartMem : start ∈ part := List.mem_of_head? hstart
    have hstopMem : stop ∈ part := List.mem_of_getLast? hstop
    rcases infix_of_not_mem hpart hnot with hside | hside
    · rw [h.closeUp_front (hside.subset hstartMem), h.closeUp_front (hside.subset hstopMem)]
      rcases hside with ⟨skipped, rest, hparts⟩
      rcases h.tiles_front.span skipped part rest start stop (by rw [← hparts, List.append_assoc])
        hstart hstop with ⟨x, middle, y, hfront, _, hbegin, hend⟩
      rw [Nat.zero_add] at hbegin
      rw [slice_of_parts (by rw [h.toList_glue, hfront, List.append_assoc]) hbegin hend,
        slice_of_parts (by rw [h.chars, hfront, List.append_assoc]) hbegin hend]
    · have hback : part <:+: second :: behind := hside
      rw [h.closeUp_back (hback.subset hstartMem), h.closeUp_back (hback.subset hstopMem)]
      rcases hback with ⟨skipped, rest, hparts⟩
      rcases h.tiles_back.span skipped part rest start stop (by rw [← hparts, List.append_assoc])
        hstart hstop with ⟨x, middle, y, hback, _, hbegin, hend⟩
      rw [List.append_assoc] at hback
      rcases h.chars_back hback with ⟨hold, hnew⟩
      rcases h.place_back hbegin with ⟨hplace, hmoved⟩
      have hlast : stop.stop - byteLength gap = start.start - byteLength gap + byteLength middle := by
        rw [hend, hmoved, hplace]
        simp only [byteLength_append]
        omega
      rw [← List.append_assoc] at hold hnew
      exact (slice_of_parts hnew hmoved hlast).trans (slice_of_parts hold hplace hend).symm

end Moved

/-- In an accepted passage what stands between two closing brackets, or between a bracket that opens a
hook and the next that opens a link, is blank; and without it the passage has the same tree. -/
theorem parse_glue {catalog : Catalog} {source : String} {program : Program}
    (hparse : parse catalog source = .ok program) {before behind : List Token} {first second : Token}
    (htokens : tokensOf source = before ++ first :: second :: behind)
    (hglues : Glues first.kind second.kind) :
    allBlank (slice source first.stop second.start) = true ∧
      parse catalog (glue source first second) = .ok program := by
  have htiles := tiles_tokensOf source
  rw [htokens] at htiles
  rcases exists_seam htiles with ⟨front, gap, back, hseam⟩
  rcases parse_eq_ok_iff.1 hparse with ⟨phrases, hread, _⟩
  have hregular := regular_tokensOf hread
  rw [htokens] at hregular
  have hbracket : first.kind.isBracket = true := hglues.isBracket
  have hkinds : first.kind = .hookOpen → second.kind ≠ .hookOpen := hglues.not_hookOpen
  have hmoved := tokensOf_eq_of_regular (hseam.regular hregular hbracket hkinds)
  have hrelocates := hseam.relocates hbracket
  rw [← htokens] at hmoved hrelocates
  exact ⟨hseam.allBlank_between, parse_of_relocates hrelocates hmoved hparse⟩

/-- Two hooks around a link: the brackets that close the hooks become one `]]` for the scan, and the one
that opens the inner hook becomes part of a `[[`. -/
theorem parse_glue_around_link :
    let inner : Node := .call ⟨"if", none, [.value (.variable "b")], .positional [.expression]⟩
      (some [.link (.toSelf "x")])
    let outer : Node := .call ⟨"if", none, [.value (.variable "a")], .positional [.expression]⟩
      (some [inner])
    parse .builtin "(if: $a)[(if: $b)[ [[x]] ] ]" = .ok ⟨[outer]⟩ ∧
      parse .builtin "(if: $a)[(if: $b)[ [[x]] ]]" = .ok ⟨[outer]⟩ ∧
      parse .builtin "(if: $a)[(if: $b)[[[x]] ] ]" = .ok ⟨[outer]⟩ := by
  intro inner outer
  have hparse : parse .builtin "(if: $a)[(if: $b)[ [[x]] ] ]" = .ok ⟨[outer]⟩ := by decide +kernel
  have hclosing : tokensOf "(if: $a)[(if: $b)[ [[x]] ] ]" =
      (tokensOf "(if: $a)[(if: $b)[ [[x]] ] ]").take 11 ++
        ⟨.hookClose, "]", 25, 26⟩ :: ⟨.hookClose, "]", 27, 28⟩ :: [] := by decide +kernel
  have hopening : tokensOf "(if: $a)[(if: $b)[ [[x]] ] ]" =
      (tokensOf "(if: $a)[(if: $b)[ [[x]] ] ]").take 7 ++
        ⟨.hookOpen, "[", 17, 18⟩ :: ⟨.linkOpen, "[[", 19, 21⟩ ::
          (tokensOf "(if: $a)[(if: $b)[ [[x]] ] ]").drop 9 := by decide +kernel
  have hclosed := (parse_glue hparse hclosing (.inl ⟨rfl, rfl⟩)).2
  have hopened := (parse_glue hparse hopening (.inr ⟨rfl, rfl⟩)).2
  have hshut : glue "(if: $a)[(if: $b)[ [[x]] ] ]" ⟨.hookClose, "]", 25, 26⟩
      ⟨.hookClose, "]", 27, 28⟩ = "(if: $a)[(if: $b)[ [[x]] ]]" := by decide +kernel
  have hshown : glue "(if: $a)[(if: $b)[ [[x]] ] ]" ⟨.hookOpen, "[", 17, 18⟩
      ⟨.linkOpen, "[[", 19, 21⟩ = "(if: $a)[(if: $b)[[[x]] ] ]" := by decide +kernel
  rw [hshut] at hclosed
  rw [hshown] at hopened
  exact ⟨hparse, hclosed, hopened⟩

end PassageMarkup
