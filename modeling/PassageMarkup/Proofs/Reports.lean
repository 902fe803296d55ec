/-
Module: PassageMarkup.Proofs.Reports
Layer: Proofs
Purpose: Which reports there are. The names that are understood are those of the listed reports, and each of
  them asks for the report of that name: the first hyphen of a name stands behind the stage, since no stage
  has one. Programs and tokens give no writer cause to fail, so a listed report fails only where the passage
  is refused, and a report on the tokens never fails; a report that is not listed is never written.
Imports: Proofs.Lexing, Proofs.Writers, Report.Process
Main exports: splitAtHyphen?_eq_some_iff, find?_name_eq_some_iff, ReportKind.ofName?_eq_ok_iff,
  mem_available_of_process, Writers.Documented.exists_formatTokens,
  Writers.Documented.exists_formatProgram, Writers.Documented.process_eq_error_iff, reports_as_listed
-/
import PassageMarkup.Proofs.Lexing
import PassageMarkup.Proofs.Writers
import PassageMarkup.Report.Process

namespace PassageMarkup

/-! ### Names of reports -/

/-- A text is split at its first hyphen: there is none in the part in front. -/
theorem splitAtHyphen?_eq_some_iff {text front back : String} :
    splitAtHyphen? text = some (front, back) ↔ text = front ++ "-" ++ back ∧ '-' ∉ front.toList := by
  have hhyphen : ∀ c : Char, c ≠ '-' ↔ (c != '-') = true := by simp
  constructor
  · intro h
    simp only [splitAtHyphen?] at h
    split at h
    · cases h
    · next c rest hdrop =>
      cases h
      have hfirst := List.head?_dropWhile_not (· != '-') text.toList
      rw [hdrop] at hfirst
      obtain rfl : c = '-' := by simpa using hfirst
      constructor
      · rw [← String.toList_inj]
        simp only [String.toList_append, String.toList_ofList, List.append_assoc]
        exact (hdrop ▸ List.takeWhile_append_dropWhile).symm
      · intro hmem
        rw [String.toList_ofList] at hmem
        have hclass := List.all_eq_true.1 List.all_takeWhile _ hmem
        exact absurd hclass (by decide)
  · rintro ⟨rfl, hfront⟩
    have hall : ∀ c ∈ front.toList, (c != '-') = true := by
      intro c hc
      rw [← hhyphen]
      rintro rfl
      exact hfront hc
    have hsplit : (front ++ "-" ++ back).toList = front.toList ++ '-' :: back.toList := by simp
    simp only [splitAtHyphen?, hsplit, List.takeWhile_append_of_pos hall,
      List.dropWhile_append_of_pos hall]
    simp

/-- Looking for a name finds what has it, if each thing is found by its own name. -/
theorem find?_name_eq_some_iff {α : Type} {things : List α} {nameOf : α → String}
    (hfound : ∀ thing, things.find? (nameOf · == nameOf thing) = some thing) {name : String} {thing : α} :
    things.find? (nameOf · == name) = some thing ↔ nameOf thing = name := by
  constructor
  · intro h
    simpa using List.find?_some h
  · rintro rfl
    exact hfound thing

theorem Stage.ofName?_eq_some_iff {name : String} {stage : Stage} :
    Stage.ofName? name = some stage ↔ stage.name = name := by
  apply find?_name_eq_some_iff
  intro stage
  cases stage <;> decide

theorem Format.ofName?_eq_some_iff {name : String} {format : Format} :
    Format.ofName? name = some format ↔ format.name = name := by
  apply find?_name_eq_some_iff
  intro format
  cases format <;> decide

theorem Stage.hyphen_not_mem_name (stage : Stage) : '-' ∉ stage.name.toList := by
  cases stage <;> decide

/-- A name asks for the listed report of that name, and for nothing else. -/
theorem ReportKind.ofName?_eq_ok_iff {name : String} {kind : ReportKind} :
    ReportKind.ofName? name = .ok kind ↔ kind ∈ ReportKind.available ∧ kind.name = name := by
  constructor
  · intro h
    unfold ReportKind.ofName? at h
    split at h
    · cases h
    · next stageName formatName hsplit =>
      split at h
      · cases h
      · next stage hstage =>
        split at h
        · cases h
        · next format hformat =>
          split at h
          · next hlisted =>
            cases h
            rw [splitAtHyphen?_eq_some_iff] at hsplit
            rw [Stage.ofName?_eq_some_iff] at hstage
            rw [Format.ofName?_eq_some_iff] at hformat
            refine ⟨List.contains_iff_mem.1 hlisted, ?_⟩
            rw [ReportKind.name, hstage, hformat, hsplit.1]
          · cases h
  · rintro ⟨hlisted, rfl⟩
    obtain ⟨stage, format⟩ := kind
    have hsplit : splitAtHyphen? (ReportKind.name ⟨stage, format⟩) = some (stage.name, format.name) :=
      splitAtHyphen?_eq_some_iff.2 ⟨rfl, stage.hyphen_not_mem_name⟩
    have hstage : Stage.ofName? stage.name = some stage := Stage.ofName?_eq_some_iff.2 rfl
    have hformat : Format.ofName? format.name = some format := Format.ofName?_eq_some_iff.2 rfl
    simp only [ReportKind.ofName?, hsplit, hstage, hformat, List.contains_iff_mem.2 hlisted, if_true]

/-! ### Writing a report -/

section

variable {writers : Writers}

/-- The formats in which tokens can be written are listed for them, whatever writes them. -/
theorem mem_available_of_formatTokens {tokens : List Token} {format : Format} {text : String}
    (h : formatTokens writers tokens format = .ok text) : ⟨.token, format⟩ ∈ ReportKind.available := by
  cases format with
  | simple | json => decide
  | yaml | treeview => cases h

/-- The formats in which a program can be written are listed for it, whatever writes it. -/
theorem mem_available_of_formatProgram {program : Program} {format : Format} {text : String}
    (h : formatProgram writers program format = .ok text) : ⟨.ast, format⟩ ∈ ReportKind.available := by
  cases format with
  | json | yaml | treeview => decide
  | simple => cases h

/-- Tokens can be written in every format that is listed for them. -/
theorem Writers.Documented.exists_formatTokens (hwriters : writers.Documented) (tokens : List Token)
    {format : Format} (h : ⟨.token, format⟩ ∈ ReportKind.available) :
    ∃ text, formatTokens writers tokens format = .ok text := by
  cases format with
  | simple => exact ⟨_, rfl⟩
  | json =>
      rcases exists_of_givesNoCause hwriters.json (.list (tokens.map Token.toData)) with ⟨text, htext⟩
      exact ⟨text, by rw [formatTokens, htext]; rfl⟩
  | yaml | treeview => exact absurd h (by decide)

/-- A program can be written in every format that is listed for it. -/
theorem Writers.Documented.exists_formatProgram (hwriters : writers.Documented) (program : Program)
    {format : Format} (h : ⟨.ast, format⟩ ∈ ReportKind.available) :
    ∃ text, formatProgram writers program format = .ok text := by
  cases format with
  | json =>
      rcases exists_of_givesNoCause hwriters.json program.toData with ⟨text, htext⟩
      exact ⟨text, by rw [formatProgram, htext]; rfl⟩
  | yaml =>
      rcases exists_of_givesNoCause hwriters.yaml program.toData with ⟨text, htext⟩
      exact ⟨text, by rw [formatProgram, htext]; rfl⟩
  | treeview => exact ⟨_, rfl⟩
  | simple => exact absurd h (by decide)

theorem process_token (writers : Writers) (catalog : Catalog) (format : Format) (source : String) :
    process writers catalog ⟨.token, format⟩ source = formatTokens writers (scan source) format := by
  simp only [process, tokenize_eq]

/-- A report on the tree is refused as its passage is, or shows its program. -/
theorem process_ast (writers : Writers) (catalog : Catalog) (format : Format) (source : String) :
    (∃ refusal, parse catalog source = .error refusal ∧
      process writers catalog ⟨.ast, format⟩ source = .error (.parse refusal)) ∨
    ∃ program, parse catalog source = .ok program ∧
      process writers catalog ⟨.ast, format⟩ source = formatProgram writers program format := by
  cases hparse : parse catalog source with
  | error refusal => exact .inl ⟨refusal, rfl, by simp only [process, hparse]⟩
  | ok program => exact .inr ⟨program, rfl, by simp only [process, hparse]⟩

/-- A listed report fails exactly where it is one on the tree and the passage is refused. -/
theorem Writers.Documented.process_eq_error_iff (hwriters : writers.Documented) {kind : ReportKind}
    (h : kind ∈ ReportKind.available) {catalog : Catalog} {source : String} {error : ProcessError} :
    process writers catalog kind source = .error error ↔
      kind.stage = .ast ∧ ∃ refusal, parse catalog source = .error refusal ∧ error = .parse refusal := by
  obtain ⟨stage, format⟩ := kind
  cases stage with
  | token =>
      rcases hwriters.exists_formatTokens (scan source) h with ⟨text, htext⟩
      rw [process_token, htext]
      simp
  | ast =>
      rcases process_ast writers catalog format source with
        ⟨refusal, hparse, hprocess⟩ | ⟨program, hparse, hprocess⟩
      · rw [hprocess, hparse]
        simp [eq_comm]
      · rcases hwriters.exists_formatProgram program h with ⟨text, htext⟩
        rw [hprocess, htext, hparse]
        simp

/-- A report that is written is a listed one. -/
theorem mem_available_of_process {kind : ReportKind} {catalog : Catalog} {source text : String}
    (h : process writers catalog kind source = .ok text) : kind ∈ ReportKind.available := by
  obtain ⟨stage, format⟩ := kind
  cases stage with
  | token =>
      rw [process_token] at h
      exact mem_available_of_formatTokens h
  | ast =>
      rcases process_ast writers catalog format source with
        ⟨refusal, -, hprocess⟩ | ⟨program, -, hprocess⟩
      · rw [hprocess] at h
        cases h
      · rw [hprocess] at h
        exact mem_available_of_formatProgram h

end

/-- A name is understood exactly if it is listed, and then as the report that has this name. With writers
that fail only where a value gives cause, such a report fails exactly where it is one on the tree and the
passage is refused, with that refusal, and one on the tokens is always written. Whatever the writers, a
report that is not listed is never written. -/
theorem reports_as_listed :
    (∀ name, (∃ kind, ReportKind.ofName? name = .ok kind) ↔ name ∈ availableFormats) ∧
    (∀ name kind, ReportKind.ofName? name = .ok kind →
      kind.name = name ∧
      ∀ writers : Writers, writers.Documented → ∀ catalog source,
        (∀ error, process writers catalog kind source = .error error ↔
          kind.stage = .ast ∧ ∃ refusal, parse catalog source = .error refusal ∧ error = .parse refusal) ∧
        (kind.stage = .token → ∃ text, process writers catalog kind source = .ok text)) ∧
    ∀ kind, kind ∉ ReportKind.available →
      ∀ writers catalog source text, process writers catalog kind source ≠ .ok text := by
  refine ⟨?_, ?_, ?_⟩
  · intro name
    simp only [ReportKind.ofName?_eq_ok_iff, availableFormats, List.mem_map]
  · intro name kind h
    rcases ReportKind.ofName?_eq_ok_iff.1 h with ⟨hlisted, hname⟩
    refine ⟨hname, ?_⟩
    intro writers hwriters catalog source
    refine ⟨fun error => hwriters.process_eq_error_iff hlisted, ?_⟩
    intro hstage
    cases hprocess : process writers catalog kind source with
    | ok text => exact ⟨text, rfl⟩
    | error error =>
        have hast : kind.stage = .ast := ((hwriters.process_eq_error_iff hlisted).1 hprocess).1
        rw [hstage] at hast
        cases hast
  · intro kind hkind writers catalog source text h
    exact hkind (mem_available_of_process h)

/-- A bracket that closes nothing, with the standard writers: the tree has no report, for just that reason;
the tokens have one, written as JSON; and there is none in a format that is not listed for them. -/
theorem reports_as_listed_stray_bracket :
    (∃ kind, ReportKind.ofName? "ast-yaml" = .ok kind ∧ kind.name = "ast-yaml" ∧
      parse .builtin "oops ]" = .error (.trailingInput 5 "]") ∧
      process .standard .builtin kind "oops ]" = .error (.parse (.trailingInput 5 "]"))) ∧
    (∃ kind text, ReportKind.ofName? "token-json" = .ok kind ∧ kind.name = "token-json" ∧
      process .standard .builtin kind "oops ]" = .ok text ∧
      text = (Data.list ((scan "oops ]").map Token.toData)).toJson) ∧
    ∀ text, process .standard .builtin ⟨.token, .yaml⟩ "oops ]" ≠ .ok text := by
  rcases reports_as_listed with ⟨-, hreports, hothers⟩
  refine ⟨?_, ?_, hothers _ (by decide) _ _ _⟩
  · have hname : ReportKind.ofName? "ast-yaml" = .ok ⟨.ast, .yaml⟩ := by decide
    have hparse : parse .builtin "oops ]" = .error (.trailingInput 5 "]") := by decide +kernel
    rcases hreports _ _ hname with ⟨hkind, hprocess⟩
    exact ⟨_, hname, hkind, hparse,
      ((hprocess _ Writers.standard_documented _ _).1 _).2 ⟨rfl, _, hparse, rfl⟩⟩
  · have hname : ReportKind.ofName? "token-json" = .ok ⟨.token, .json⟩ := by decide
    rcases hreports _ _ hname with ⟨hkind, hprocess⟩
    rcases (hprocess _ Writers.standard_documented .builtin "oops ]").2 rfl with ⟨text, htext⟩
    refine ⟨_, text, hname, hkind, htext, ?_⟩
    rw [process_token, formatTokens, (Writers.standard_toSerial _).1] at htext
    exact (Except.ok.inj htext).symm

end PassageMarkup
