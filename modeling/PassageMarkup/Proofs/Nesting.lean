/-
Module: PassageMarkup.Proofs.Nesting
Layer: Proofs
Purpose: Which tokens a passage with well-nested brackets has. Reading keeps hooks and links in balance,
  and a link holds no brackets at all; so the resolved tokens of a passage that can be read open and close
  brackets in turn. The other way round, tokens that tile a passage, nest, and lead where they are no
  brackets are the resolved tokens of the passage, however the scan pairs the brackets of a run: a run of
  closing brackets closes one by one what is open, and a run of opening brackets has one reading only.
Imports: Mathlib.Data.List.Chain, Proofs.BracketRuns, Proofs.CallSpelling
Main exports: Turns, Nests, Reader.brackets, Steps.turns, Reads.nests, Token.Leads, HooksApart, Regular,
  Regular.resolves, tokensOf_eq_of_regular, regular_tokensOf
-/
import Mathlib.Data.List.Chain
import PassageMarkup.Proofs.BracketRuns
import PassageMarkup.Proofs.CallSpelling

namespace PassageMarkup

open Text Recognise

/-! ### Open brackets while reading -/

/-- What a token of a kind does to the open brackets, innermost first. Nothing is opened inside a link,
so no link is left open around a hook. -/
inductive Turns : List OpenBracket → Kind → List OpenBracket → Prop where
  | plain {opened : List OpenBracket} {kind : Kind} (hkind : kind.isBracket = false) :
      Turns opened kind opened
  | openHook {opened : List OpenBracket} (hinner : opened.head? ≠ some .link) :
      Turns opened .hookOpen (.hook :: opened)
  | openLink {opened : List OpenBracket} (hinner : opened.head? ≠ some .link) :
      Turns opened .linkOpen (.link :: opened)
  | closeHook {opened : List OpenBracket} (hinner : opened.head? ≠ some .link) :
      Turns (.hook :: opened) .hookClose opened
  | closeLink {opened : List OpenBracket} : Turns (.link :: opened) .linkClose opened

/-- Tokens whose brackets turn the open brackets one after the other. -/
inductive Nests : List OpenBracket → List Token → Prop where
  | nil {opened : List OpenBracket} : Nests opened []
  | cons {opened next : List OpenBracket} {token : Token} {tokens : List Token}
      (hturn : Turns opened token.kind next) (hrest : Nests next tokens) :
      Nests opened (token :: tokens)

/-- The brackets that are open in a state of reading. -/
def Reader.brackets (reader : Reader) : List OpenBracket :=
  match reader.reading with
  | .linking _ _ => .link :: reader.hooks.map fun _ => .hook
  | _ => reader.hooks.map fun _ => .hook

theorem head_hooks_ne_link (hooks : List OpenHook) :
    (hooks.map fun _ => OpenBracket.hook).head? ≠ some .link := by
  cases hooks <;> simp

/-- A step of reading turns the open brackets. -/
theorem Steps.turns {reader next : Reader} {token : Token} (h : Steps reader token next) :
    Turns reader.brackets token.kind next.brackets := by
  induction h with
  | attach hkind | openHook hkind =>
      rw [hkind]
      exact .openHook (head_hooks_ne_link _)
  | detach _ _ ih => exact ih
  | openLink hkind =>
      rw [hkind]
      exact .openLink (head_hooks_ne_link _)
  | closeHook hkind =>
      rw [hkind]
      exact .closeHook (head_hooks_ne_link _)
  | closeLink _ hkind =>
      rw [hkind]
      exact .closeLink
  | value hkind =>
      apply Turns.plain
      rcases hkind with hkind | hkind <;> rw [hkind] <;> rfl
  | text hkind => exact .plain (not_isBracket_of_isRun hkind)
  | linkText hkind => exact .plain (not_isBracket_of_isLinkText hkind)
  | plain hbracket => exact .plain hbracket
  | openCall hkind | nest hkind | unnest hkind | closeCall hkind | arrow _ hkind =>
      apply Turns.plain
      rw [hkind]
      rfl

theorem Reads.nests {reader last : Reader} {tokens : List Token} (h : Reads reader tokens last) :
    Nests reader.brackets tokens := by
  induction h with
  | nil => exact .nil
  | cons hstep _ ih => exact .cons hstep.turns ih

/-! ### Regular tokens -/

/-- A token that leads the text from its place on. -/
def Token.Leads (whole : List Char) (token : Token) : Prop :=
  leading? (dropBytes token.start whole) = some (token.kind, token.text.toList.length)

/-- Two hook brackets in a row have something between them; else they would be a link bracket. -/
def HooksApart (first second : Token) : Prop :=
  first.kind = .hookOpen → second.kind = .hookOpen → second.start ≠ first.stop

/-- Tokens for the part `cs` of a text, from byte `offset` on, in front of which some brackets are open:
they tile it, nest, are spelled as they must be, and lead where they are no brackets. -/
structure Regular (whole : List Char) (opened : List OpenBracket) (offset : Nat) (cs : List Char)
    (tokens : List Token) : Prop where
  place : ∃ front, whole = front ++ cs ∧ byteLength front = offset
  tiles : Tiles offset cs tokens
  spelled : ∀ token ∈ tokens, BracketSpelled token
  leads : ∀ token ∈ tokens, token.kind.isBracket = false → token.Leads whole
  apart : tokens.IsChain HooksApart
  nests : Nests opened tokens

/-- The spelling of a bracket. -/
def Kind.bracket? : Kind → Option (List Char)
  | .linkOpen => some ['[', '[']
  | .linkClose => some [']', ']']
  | .hookOpen => some ['[']
  | .hookClose => some [']']
  | _ => none

theorem bracket?_of_plain {kind : Kind} (h : kind.isBracket = false) : kind.bracket? = none := by
  cases kind with
  | linkOpen | linkClose | hookOpen | hookClose => cases h
  | _ => rfl

theorem BracketSpelled.bracket? {token : Token} (h : BracketSpelled token)
    (hkind : token.kind.isBracket = true) : token.kind.bracket? = some token.text.toList := by
  cases hk : token.kind with
  | linkOpen =>
      rw [h.linkOpen hk]
      rfl
  | linkClose =>
      rw [h.linkClose hk]
      rfl
  | hookOpen =>
      rw [h.hookOpen hk]
      rfl
  | hookClose =>
      rw [h.hookClose hk]
      rfl
  | _ =>
      rw [hk] at hkind
      cases hkind

theorem first_of_bracket? {kind : Kind} {c : Char} {cs : List Char}
    (h : kind.bracket? = some (c :: cs)) : c = '[' ∨ c = ']' := by
  cases kind with
  | linkOpen | hookOpen =>
      cases h
      exact .inl rfl
  | linkClose | hookClose =>
      cases h
      exact .inr rfl
  | _ => cases h

theorem Turns.eq_of_plain {opened next : List OpenBracket} {kind : Kind} (h : Turns opened kind next)
    (hkind : kind.isBracket = false) : opened = next := by
  cases h with
  | plain => rfl
  | openHook | openLink | closeHook | closeLink => cases hkind

/-- The first of some regular tokens, with its characters right in front of the rest. -/
structure FirstToken (opened next : List OpenBracket) (offset : Nat) (text rest : List Char)
    (token : Token) : Prop where
  solid : SolidText text
  kind_ne : token.kind ≠ .whitespace
  eq : token = ⟨token.kind, String.ofList text, offset, offset + byteLength text⟩
  spelled : BracketSpelled token
  turn : Turns opened token.kind next
  leading : token.kind.isBracket = false → leading? (text ++ rest) = some (token.kind, text.length)

section FirstToken

variable {opened next : List OpenBracket} {offset : Nat} {text rest : List Char} {token : Token}

theorem FirstToken.toList_text (h : FirstToken opened next offset text rest token) :
    token.text.toList = text := by
  rw [h.eq, String.toList_ofList]

theorem FirstToken.stop_eq (h : FirstToken opened next offset text rest token) :
    token.stop = offset + byteLength text := by
  rw [h.eq]

end FirstToken

section Regular

variable {whole : List Char} {opened : List OpenBracket} {offset : Nat} {cs : List Char}
  {token : Token} {tokens : List Token}

/-- Regular tokens are a first token behind blanks, and regular tokens behind it. -/
theorem Regular.uncons (h : Regular whole opened offset cs (token :: tokens)) :
    ∃ gap text rest next, cs = gap ++ (text ++ rest) ∧ (∀ c ∈ gap, isBlank c = true) ∧
      FirstToken opened next (offset + byteLength gap) text rest token ∧
      Regular whole next token.stop rest tokens := by
  rcases h with ⟨⟨front, rfl, hfront⟩, htiles, hspelled, hleads, hapart, hnests⟩
  rcases List.forall_mem_cons.1 hspelled with ⟨hspelledFirst, hspelledRest⟩
  rcases List.forall_mem_cons.1 hleads with ⟨hleadsFirst, hleadsRest⟩
  rw [List.isChain_cons] at hapart
  cases htiles with
  | @token _ gap text rest _ _ hgap hsolid hkind htext hstart hstop hrest =>
      cases hnests with
      | @cons _ next _ _ hturn hnestsRest =>
          refine ⟨gap, text, rest, next, rfl, hgap, ?_, ?_⟩
          · refine ⟨hsolid, hkind, ?_, hspelledFirst, hturn, ?_⟩
            · rcases token with ⟨kind, spelling, start, stop⟩
              simp only at htext hstart hstop
              rw [htext, hstop, hstart]
            · intro hbracket
              have hleading := hleadsFirst hbracket
              have hplace : token.start = byteLength (front ++ gap) := by
                rw [hstart, byteLength_append, hfront]
              rw [Token.Leads, hplace, ← List.append_assoc, dropBytes_append, htext,
                String.toList_ofList] at hleading
              exact hleading
          · refine ⟨⟨front ++ gap ++ text, by simp, ?_⟩, hrest, hspelledRest, hleadsRest, hapart.2,
              hnestsRest⟩
            simp only [byteLength_append]
            omega

/-- Where the text is solid, the first token starts at once. -/
theorem Regular.first {c : Char} (hc : isBlank c = false)
    (h : Regular whole opened offset (c :: cs) tokens) :
    ∃ token later text rest next, tokens = token :: later ∧ c :: cs = text ++ rest ∧
      FirstToken opened next offset text rest token ∧ Regular whole next token.stop rest later := by
  cases tokens with
  | nil =>
      have hblank := h.tiles.blank_of_nil c List.mem_cons_self
      rw [hc] at hblank
      cases hblank
  | cons token later =>
      rcases h.uncons with ⟨gap, text, rest, next, heq, hgap, hfirst, hrest⟩
      have hnone : gap = [] := by
        cases gap with
        | nil => rfl
        | cons d gap =>
            rw [List.cons_append] at heq
            rcases List.cons.inj heq with ⟨rfl, _⟩
            have hblank := hgap c List.mem_cons_self
            rw [hc] at hblank
            cases hblank
      subst hnone
      exact ⟨token, later, text, rest, next, rfl, heq, hfirst, hrest⟩

/-- Regular tokens for a text that starts with a bracket start with one. -/
theorem Regular.bracket {c : Char} (hc : c = '[' ∨ c = ']')
    (h : Regular whole opened offset (c :: cs) tokens) :
    ∃ kind text rest next later, c :: cs = text ++ rest ∧ kind.bracket? = some text ∧
      Turns opened kind next ∧
      tokens = ⟨kind, String.ofList text, offset, offset + byteLength text⟩ :: later ∧
      Regular whole next (offset + byteLength text) rest later := by
  have hblank : isBlank c = false := by
    rcases hc with rfl | rfl <;> decide
  rcases h.first hblank with ⟨token, later, text, rest, next, rfl, heq, hfirst, hrest⟩
  have hkind : token.kind.isBracket = true := by
    rw [← Bool.not_eq_false]
    intro hbracket
    have hlead := hfirst.leading hbracket
    rw [← heq] at hlead
    rw [isBracket_of_leading hc hlead] at hbracket
    cases hbracket
  have hspelling := hfirst.spelled.bracket? hkind
  rw [hfirst.toList_text] at hspelling
  rw [hfirst.stop_eq] at hrest
  exact ⟨token.kind, text, rest, next, later, heq, hspelling, hfirst.turn,
    congrArg (· :: later) hfirst.eq, hrest⟩

/-- Regular tokens for a text that starts with a closing bracket close what is innermost. -/
theorem Regular.closes (h : Regular whole opened offset (']' :: cs) tokens) :
    (∃ outer later, opened = .hook :: outer ∧ outer.head? ≠ some .link ∧
      tokens = ⟨.hookClose, "]", offset, offset + 1⟩ :: later ∧
      Regular whole outer (offset + 1) cs later) ∨
    ∃ outer later rest, opened = .link :: outer ∧ cs = ']' :: rest ∧
      tokens = ⟨.linkClose, "]]", offset, offset + 2⟩ :: later ∧
      Regular whole outer (offset + 2) rest later := by
  rcases h.bracket (.inr rfl) with ⟨kind, text, rest, next, later, heq, htext, hturn, rfl, hrest⟩
  cases hturn with
  | plain hbracket =>
      rw [bracket?_of_plain hbracket] at htext
      cases htext
  | openHook | openLink =>
      cases htext
      cases heq
  | closeHook hinner =>
      cases htext
      cases heq
      exact .inl ⟨next, later, rfl, hinner, rfl, hrest⟩
  | closeLink =>
      cases htext
      cases heq
      exact .inr ⟨next, later, rest, rfl, rfl, rfl, hrest⟩

/-- Regular tokens for a text that starts with an opening bracket open a hook or a link, and they are
inside no link. -/
theorem Regular.opens (h : Regular whole opened offset ('[' :: cs) tokens) :
    opened.head? ≠ some .link ∧
      ((∃ later, tokens = ⟨.hookOpen, "[", offset, offset + 1⟩ :: later ∧
        Regular whole (.hook :: opened) (offset + 1) cs later) ∨
      ∃ later rest, cs = '[' :: rest ∧ tokens = ⟨.linkOpen, "[[", offset, offset + 2⟩ :: later ∧
        Regular whole (.link :: opened) (offset + 2) rest later) := by
  rcases h.bracket (.inl rfl) with ⟨kind, text, rest, next, later, heq, htext, hturn, rfl, hrest⟩
  cases hturn with
  | plain hbracket =>
      rw [bracket?_of_plain hbracket] at htext
      cases htext
  | closeHook | closeLink =>
      cases htext
      cases heq
  | openHook hinner =>
      cases htext
      cases heq
      exact ⟨hinner, .inl ⟨later, rfl, hrest⟩⟩
  | openLink hinner =>
      cases htext
      cases heq
      exact ⟨hinner, .inr ⟨later, rest, rfl, rfl, hrest⟩⟩

/-- Inside a link no bracket is opened. -/
theorem Regular.head_inside_link (h : Regular whole (.link :: opened) offset cs tokens) :
    cs.head? ≠ some '[' := by
  intro hhead
  rcases List.head?_eq_some_iff.1 hhead with ⟨rest, rfl⟩
  exact h.opens.1 rfl

/-- The blanks in front of regular tokens may be passed over. -/
theorem Regular.skipGap (h : Regular whole opened offset cs (token :: tokens)) :
    ∃ gap c here, cs = gap ++ c :: here ∧ (∀ d ∈ gap, isBlank d = true) ∧ isBlank c = false ∧
      Regular whole opened (offset + byteLength gap) (c :: here) (token :: tokens) := by
  rcases h with ⟨⟨front, rfl, hfront⟩, htiles, hspelled, hleads, hapart, hnests⟩
  cases htiles with
  | @token _ gap text rest _ _ hgap hsolid hkind htext hstart hstop hrest =>
      rcases hsolid.1 with ⟨c, hc, hblank⟩
      rcases List.head?_eq_some_iff.1 hc with ⟨more, rfl⟩
      refine ⟨gap, c, more ++ rest, rfl, hgap, hblank, ?_, ?_, hspelled, hleads, hapart, hnests⟩
      · exact ⟨front ++ gap, by simp, by rw [byteLength_append, hfront]⟩
      · have hnone : ∀ d ∈ ([] : List Char), isBlank d = true := by simp
        exact Tiles.token hnone hsolid hkind htext hstart hstop hrest

/-- A regular token that starts with no bracket is none, and simply taken. -/
theorem Regular.plain {c : Char} (hblank : isBlank c = false) (hopen : c ≠ '[') (hclose : c ≠ ']')
    (h : Regular whole opened offset (c :: cs) tokens) :
    ∃ kind text rest later, c :: cs = text ++ rest ∧ kind ≠ .whitespace ∧ kind.isBracket = false ∧
      leading? (text ++ rest) = some (kind, text.length) ∧
      tokens = ⟨kind, String.ofList text, offset, offset + byteLength text⟩ :: later ∧
      Regular whole opened (offset + byteLength text) rest later := by
  rcases h.first hblank with ⟨token, later, text, rest, next, rfl, heq, hfirst, hrest⟩
  have hbracket : token.kind.isBracket = false := by
    rw [Bool.eq_false_iff]
    intro hbracket
    have hspelling := hfirst.spelled.bracket? hbracket
    rw [hfirst.toList_text] at hspelling
    rcases List.exists_cons_of_ne_nil hfirst.solid.ne_nil with ⟨d, more, rfl⟩
    rcases List.cons.inj heq with ⟨rfl, _⟩
    rcases first_of_bracket? hspelling with rfl | rfl
    · exact hopen rfl
    · exact hclose rfl
  have hsame : opened = next := hfirst.turn.eq_of_plain hbracket
  subst hsame
  rw [hfirst.stop_eq] at hrest
  exact ⟨token.kind, text, rest, later, heq, hfirst.kind_ne, hbracket, hfirst.leading hbracket,
    congrArg (· :: later) hfirst.eq, hrest⟩

end Regular

/-- Regular tokens are what their characters lex and resolve into. A bracket is looked at together with
one that touches it, because the scan may take both at once; so the induction is on the number of tokens. -/
theorem Regular.resolves {whole : List Char} {opened : List OpenBracket} {offset : Nat}
    {cs : List Char} {tokens : List Token} (h : Regular whole opened offset cs tokens) :
    Resolves opened offset cs tokens := by
  induction hlength : tokens.length using Nat.strong_induction_on
    generalizing opened offset cs tokens with
  | _ n ih =>
  have hrec : ∀ {opened offset cs later}, later.length < tokens.length →
      Regular whole opened offset cs later → Resolves opened offset cs later := by
    intro opened offset cs later hlt hlater
    exact ih later.length (hlength ▸ hlt) hlater rfl
  have htwo : ∀ (a b : Token) later, later.length < (a :: b :: later).length := by
    intro a b later
    exact Nat.lt_succ_of_lt (Nat.lt_succ_self _)
  cases tokens with
  | nil => exact resolves_blanks h.tiles.blank_of_nil
  | cons token later =>
      rcases h.skipGap with ⟨gap, c, here, rfl, hgap, hblank, hhere⟩
      apply Resolves.afterBlanks hgap (by simpa using hblank)
      by_cases hopen : c = '['
      · subst hopen
        rcases hhere.opens.2 with ⟨others, heq, hinside⟩ | ⟨others, rest, rfl, heq, hinside⟩
        · rw [heq] at hhere hrec ⊢
          by_cases htouch : here.head? = some '['
          · -- a second hook bracket would make a link bracket with the first, so a link follows
            rcases List.head?_eq_some_iff.1 htouch with ⟨more, rfl⟩
            rcases hinside.opens.2 with ⟨last, rfl, _⟩ | ⟨last, rest, rfl, rfl, hlink⟩
            · exact absurd rfl ((List.isChain_cons_cons.1 hhere.apart).1 rfl rfl)
            · exact .openBoth hlink.head_inside_link (hrec (htwo _ _ last) hlink)
          · exact .openHook htouch (hrec (by simp) hinside)
        · rw [heq] at hrec ⊢
          exact .openLink hinside.head_inside_link (hrec (by simp) hinside)
      by_cases hclose : c = ']'
      · subst hclose
        rcases hhere.closes with
          ⟨outer, others, rfl, hinner, heq, hrest⟩ | ⟨outer, others, rest, rfl, rfl, heq, hrest⟩
        · rw [heq] at hrec ⊢
          by_cases htouch : here.head? = some ']'
          · -- the bracket behind closes the next hook, for no link holds a hook
            rcases List.head?_eq_some_iff.1 htouch with ⟨more, rfl⟩
            rcases hrest.closes with ⟨next, last, rfl, _, rfl, hlast⟩ | ⟨next, last, rest, rfl, _⟩
            · exact .closeTwo (hrec (htwo _ _ last) hlast)
            · exact absurd rfl hinner
          · exact .closeHook htouch (hrec (by simp) hrest)
        · rw [heq] at hrec ⊢
          exact .closeLink (hrec (by simp) hrest)
      · rcases hhere.plain hblank hopen hclose with
          ⟨kind, text, rest, others, hcs, hkind, hbracket, hleading, heq, hrest⟩
        rw [heq] at hrec ⊢
        rw [hcs]
        exact .plain hkind hbracket hleading (hrec (by simp) hrest)

/-- Regular tokens of a whole passage are its resolved tokens. -/
theorem tokensOf_eq_of_regular {source : String} {tokens : List Token}
    (h : Regular source.toList [] 0 source.toList tokens) : tokensOf source = tokens := by
  rcases h.resolves with ⟨scanned, hlexes, hresolve⟩
  rw [tokensOf, resolveBrackets, (scan?_of_lexes hlexes).2]
  exact hresolve

/-! ### The tokens of a passage that can be read -/

/-- Every scanned token leads the text from its place on. -/
theorem Lexes.leads {offset : Nat} {cs : List Char} {tokens : List Token}
    (h : Lexes offset cs tokens) {whole : List Char} : ∀ front, whole = front ++ cs →
      byteLength front = offset → ∀ token ∈ tokens, token.Leads whole := by
  induction h with
  | nil => simp
  | @blank offset gap rest tokens _ _ ih =>
      intro front hwhole hfront
      apply ih (front ++ gap)
      · rw [hwhole, List.append_assoc]
      · rw [byteLength_append, hfront]
  | @token offset kind text rest tokens hleading _ _ ih =>
      intro front hwhole hfront token hmem
      rcases List.mem_cons.1 hmem with rfl | hmem
      · show leading? (dropBytes offset whole) = some (kind, (String.ofList text).toList.length)
        rw [hwhole, ← hfront, dropBytes_append, String.toList_ofList]
        exact hleading
      · refine ih (front ++ text) ?_ ?_ token hmem
        · rw [hwhole, List.append_assoc]
        · rw [byteLength_append, hfront]

/-- Behind a scanned hook bracket no bracket is opened at once. -/
def NoOpenBehind (first second : Token) : Prop :=
  first.kind = .hookOpen → second.start = first.stop →
    ¬ (second.kind = .hookOpen ∨ second.kind = .linkOpen)

theorem Lexes.noOpenBehind {offset : Nat} {cs : List Char} {tokens : List Token}
    (h : Lexes offset cs tokens) : tokens.IsChain NoOpenBehind := by
  induction h with
  | nil => exact .nil
  | blank _ _ ih => exact ih
  | @token offset kind text rest tokens hleading _ hrest ih =>
      rw [List.isChain_cons]
      refine ⟨?_, ih⟩
      intro second hsecond hkind htouches
      have hkind : kind = .hookOpen := hkind
      subst hkind
      obtain rfl : text = ['['] := text_of_exactly rfl hleading
      have hnot : rest.head? ≠ some '[' := by
        intro hhead
        rcases List.head?_eq_some_iff.1 hhead with ⟨more, rfl⟩
        rw [List.singleton_append, leading?_openTwo] at hleading
        cases hleading
      rcases List.head?_eq_some_iff.1 hsecond with ⟨later, rfl⟩
      intro hopen
      exact hnot (hrest.head_of_open hopen htouches)

section Resolved

variable {opened : List OpenBracket} {tokens resolved : List Token}

/-- The first resolved token starts where the first one did before, and it opens a hook only if that one
did or had a hook bracket directly behind its link bracket. -/
theorem Resolved.head (h : Resolved opened tokens resolved) {first : Token}
    (hfirst : first ∈ resolved.head?) : ∃ token rest, tokens = token :: rest ∧
      first.start = token.start ∧ (first.kind = .hookOpen →
        token.kind = .hookOpen ∨ ∃ next ∈ rest.head?, LinkThenHook token next) := by
  cases h with
  | nil => cases hfirst
  | @keep _ token rest _ =>
      obtain rfl := Option.some.inj hfirst
      exact ⟨_, rest, rfl, rfl, .inl⟩
  | @swap _ token next rest _ hopen _ =>
      obtain rfl := Option.some.inj hfirst
      exact ⟨token, next :: rest, rfl, rfl, fun _ => .inr ⟨next, rfl, hopen⟩⟩
  | @split _ token rest _ _ _ =>
      obtain rfl := Option.some.inj hfirst
      refine ⟨token, rest, rfl, rfl, ?_⟩
      intro hopen
      cases hopen

/-- A hook bracket that is the first resolved token was there before, or stood behind a link bracket;
either way something was opened at its place. -/
theorem Resolved.head_opens (h : Resolved opened tokens resolved) {first : Token}
    (hfirst : first ∈ resolved.head?) (hkind : first.kind = .hookOpen) :
    ∃ token ∈ tokens.head?, first.start = token.start ∧
      (token.kind = .hookOpen ∨ token.kind = .linkOpen) := by
  rcases h.head hfirst with ⟨token, rest, rfl, hstart, hopens⟩
  refine ⟨token, rfl, hstart, ?_⟩
  rcases hopens hkind with hhook | ⟨next, _, hrun⟩
  · exact .inl hhook
  · exact .inr hrun.1

/-- Resolving leaves no two hook brackets that touch. -/
theorem Resolved.hooksApart (h : Resolved opened tokens resolved) (hbehind : tokens.IsChain NoOpenBehind) :
    resolved.IsChain HooksApart := by
  have hcons : ∀ {token : Token} {rest : List Token}, token.kind ≠ .hookOpen →
      rest.IsChain HooksApart → (token :: rest).IsChain HooksApart := by
    intro token rest hkind hrest
    exact List.isChain_cons.2 ⟨fun _ _ hopen => absurd hopen hkind, hrest⟩
  induction h with
  | nil => exact .nil
  | keep _ _ hrest ih =>
      rw [List.isChain_cons] at hbehind ⊢
      refine ⟨?_, ih hbehind.2⟩
      intro second hsecond hkind hopen htouches
      rcases hrest.head_opens hsecond hopen with ⟨next, hnext, hstart, hopener⟩
      exact hbehind.1 next hnext hkind (hstart ▸ htouches) hopener
  | swap _ _ ih =>
      rw [List.isChain_cons_cons]
      refine ⟨?_, hcons (by simp) (ih hbehind.tail.tail)⟩
      intro _ hopen
      cases hopen
  | split _ _ ih => exact hcons (by simp) (hcons (by simp) (ih hbehind.tail))

end Resolved

/-- The resolved tokens of a passage that can be read are regular. -/
theorem regular_tokensOf {source : String} {phrases : List Phrase}
    (h : readPhrases (tokensOf source) = .ok phrases) :
    Regular source.toList [] 0 source.toList (tokensOf source) where
  place := ⟨[], rfl, rfl⟩
  tiles := tiles_tokensOf source
  spelled := (resolved_resolveFrom [] (scan source)).spelled (bracketSpelled_scan source)
  leads := by
    intro token hmem hbracket
    exact (lexes_scan source).leads [] rfl rfl token (mem_scan_of_mem_tokensOf hmem hbracket)
  apart := (resolved_resolveFrom [] (scan source)).hooksApart (lexes_scan source).noOpenBehind
  nests := by
    rcases readFrom_eq_ok_iff.1 h with ⟨last, hreads, _⟩
    exact hreads.nests

end PassageMarkup
