/-
Module: PassageMarkup.Proofs.ReportOutcomes
Layer: Proofs
Purpose: What a request for a report comes to, whatever surrounds the program. The format is the one that the
  command line asks for, or else the file, or else the default; the catalog is the built-in one with the
  calls of the file. A run ends in one of six ways: five of them print one message and the exit code 1, and
  the last one prints the whole report and nothing else. It ends so exactly if the configuration can be
  loaded, its format is the name of a report, the passage can be read and the report can be made of it.
Imports: CommandLine, Proofs.LayerPrecedence, Proofs.Reports
Main exports: Request.effectiveFormat, Request.effectiveCatalog, loader_of_request, effective_of_configure,
  Outcome.Prints, Outcome.Refuses, Ends, ends_run, Ends.eq_run, Request.Yields, report_whole_or_refused
-/
import PassageMarkup.CommandLine
import PassageMarkup.Proofs.LayerPrecedence
import PassageMarkup.Proofs.Reports

namespace PassageMarkup

/-! ### What is in effect -/

/-- The configuration file that a request names, which must be there. -/
def Request.file? (request : Request) : Option Source :=
  request.options.config.map fun path => .file path true

/-- The overrides that options make. -/
def Options.overrides (options : Options) : List (String × String) :=
  (options.format.map fun value => ("output.format", value)).toList ++
    (options.level.map fun value => ("logging.level", value)).toList

theorem Options.mem_optionKeys (options : Options) : ∀ entry ∈ options.overrides, entry.1 ∈ optionKeys := by
  obtain ⟨format, config, level⟩ := options
  cases format <;> cases level <;> simp [overrides, optionKeys]

theorem Options.format_ofOverrides (options : Options) :
    (Given.ofOverrides options.overrides).format = options.format := by
  obtain ⟨format, config, level⟩ := options
  cases format <;> cases level <;> simp [overrides, Given.ofOverrides, List.lookup_cons]

/-- An option that the library takes adds an override if it is given. -/
theorem loader_of_setOption {library : ConfigLibrary} {key option : String} {value : Option String}
    {start loader : Loader} (h : start.setOption library key option value = .ok loader) :
    loader = { start with
      overrides := start.overrides ++ (value.map fun text => (key, Setting.text text)).toList } := by
  cases value with
  | none =>
      cases h
      simp
  | some text =>
      rcases except_bind_eq_ok.1 (except_mapError_eq_ok.1 h) with ⟨_, _, hloader⟩
      cases hloader
      rfl

/-- The loader of a request has its file over the defaults, under its options. -/
theorem loader_of_request {library : ConfigLibrary} {request : Request} {loader : Loader}
    (h : request.loader library = .ok loader) :
    loader.sources = .text defaultText :: request.file?.toList ∧
      loader.overrides = request.options.overrides.map fun entry => (entry.1, .text entry.2) := by
  rcases except_bind_eq_ok.1 h with ⟨formatted, hformat, hlevel⟩
  rw [loader_of_setOption hlevel, loader_of_setOption hformat]
  obtain ⟨path, format, config, level⟩ := request
  cases config <;> cases format <;> cases level <;>
    simp [Loader.new, Loader.withFile, Request.file?, Options.overrides]

section

variable (given : FileReader → Source → Given)

/-- The format in effect: the one that is asked for, or else the one of the configuration file, or else the
default. -/
def Request.effectiveFormat (request : Request) (read : FileReader) : String :=
  (request.options.format.or (request.file?.bind fun source => (given read source).format)).getD "ast-json"

/-- The catalog in effect: the built-in one with the further calls of the configuration file. -/
def Request.effectiveCatalog (request : Request) (read : FileReader) : Catalog :=
  Catalog.builtin.extend ((request.file?.bind fun source => (given read source).calls).getD [])

end

/-- The configuration of a request has the format and the catalog in effect. -/
theorem effective_of_configure {library : ConfigLibrary} {given : FileReader → Source → Given}
    (hlibrary : library.RespectsLayers given) {read : FileReader} {request : Request} {config : Config}
    (h : request.configure library read = .ok config) :
    config.format = request.effectiveFormat given read ∧
      config.catalog = request.effectiveCatalog given read := by
  rcases except_bind_eq_ok.1 h with ⟨loader, hloader, hbuild⟩
  rcases loader_of_request hloader with ⟨hsources, hoverrides⟩
  rw [except_mapError_eq_ok, Loader.build, hsources, hoverrides] at hbuild
  have hlayers := hlibrary.built request.options.mem_optionKeys hbuild
  rw [Given.stack_file, hlibrary.defaults, Options.format_ofOverrides, Config.given, Given.mk.injEq] at hlayers
  rcases hlayers with ⟨hformat, hcalls⟩
  constructor
  · rw [← Option.or_assoc, Option.or_some, Option.some_inj] at hformat
    exact hformat.symm
  · rw [Given.ofOverrides, Option.none_or, Option.or_some, Option.some_inj] at hcalls
    rw [Config.catalog, Request.effectiveCatalog, hcalls]

/-! ### How a run ends -/

/-- A text that ends with a line feed. -/
def EndsLine (text : String) : Prop :=
  ∃ front, text = front ++ "\n"

/-- A report that is printed and nothing else: it is whole, with a line feed behind it unless it ends with
one. -/
structure Outcome.Prints (outcome : Outcome) (output : String) : Prop where
  code : outcome.code = 0
  err : outcome.err = ""
  out_of_endsLine : EndsLine output → outcome.out = output
  out_of_not_endsLine : ¬EndsLine output → outcome.out = output ++ "\n"

/-- A failure: it prints no part of a report, but a message. -/
structure Outcome.Refuses (outcome : Outcome) : Prop where
  code : outcome.code = 1
  out : outcome.out = ""
  err : outcome.err ≠ ""

theorem endsLine_iff {text : String} : EndsLine text ↔ text.toList.getLast? = some '\n' := by
  unfold EndsLine
  rw [List.getLast?_eq_some_iff]
  constructor
  · rintro ⟨front, rfl⟩
    exact ⟨front.toList, by simp⟩
  · rintro ⟨front, htext⟩
    refine ⟨String.ofList front, ?_⟩
    rw [← String.toList_inj, htext]
    simp

theorem Outcome.prints_withLineEnd (output : String) : Outcome.Prints ⟨0, withLineEnd output, ""⟩ output := by
  refine ⟨rfl, rfl, ?_, ?_⟩
  · intro h
    exact if_pos (endsLine_iff.1 h)
  · intro h
    exact if_neg (mt endsLine_iff.2 h)

theorem Outcome.refuses_failure (message : String) : (Outcome.failure message).Refuses := by
  refine ⟨rfl, rfl, ?_⟩
  intro h
  have hlength := congrArg String.length h
  simp [Outcome.failure] at hlength

/-- The ways in which a run can end, each with what has gone well before. -/
inductive Ends (environment : Environment) (request : Request) : Outcome → Prop where
  | unloaded {message : String}
      (hconfig : request.configure environment.library environment.read = .error message) :
      Ends environment request (.failure message)
  | unknown {config : Config} {error : ProcessError}
      (hconfig : request.configure environment.library environment.read = .ok config)
      (hname : ReportKind.ofName? config.format = .error error) :
      Ends environment request (.failure error.message)
  | unread {config : Config} {kind : ReportKind} {failure : ReadFailure}
      (hconfig : request.configure environment.library environment.read = .ok config)
      (hname : ReportKind.ofName? config.format = .ok kind)
      (hsource : environment.passage request.path = .error failure) :
      Ends environment request
        (.failure ("Error reading " ++ request.path ++ ": " ++ failure.message))
  | refused {config : Config} {kind : ReportKind} {text : String} {refusal : ParseError}
      (hconfig : request.configure environment.library environment.read = .ok config)
      (hname : ReportKind.ofName? config.format = .ok kind)
      (hsource : environment.passage request.path = .ok text)
      (hprocess : process environment.writers config.catalog kind text = .error (.parse refusal)) :
      Ends environment request (.failure (refusal.kindName ++ ": " ++ refusal.message))
  | failed {config : Config} {kind : ReportKind} {text : String} {error : ProcessError}
      (hconfig : request.configure environment.library environment.read = .ok config)
      (hname : ReportKind.ofName? config.format = .ok kind)
      (hsource : environment.passage request.path = .ok text)
      (hprocess : process environment.writers config.catalog kind text = .error error)
      (hother : ∀ refusal, error ≠ .parse refusal) :
      Ends environment request (.failure ("Error: " ++ error.message))
  | printed {config : Config} {kind : ReportKind} {text output : String}
      (hconfig : request.configure environment.library environment.read = .ok config)
      (hname : ReportKind.ofName? config.format = .ok kind)
      (hsource : environment.passage request.path = .ok text)
      (hprocess : process environment.writers config.catalog kind text = .ok output) :
      Ends environment request ⟨0, withLineEnd output, ""⟩

section

variable {environment : Environment} {request : Request}

/-- What a configuration that can be loaded leads to. -/
theorem prepare_of_configure {config : Config}
    (hconfig : request.configure environment.library environment.read = .ok config) :
    request.prepare environment.library environment.read =
      ((ReportKind.ofName? config.format).mapError ProcessError.message).map fun kind =>
        ⟨request.path, config.catalog, kind⟩ := by
  rw [Request.prepare, hconfig]
  rfl

/-- A run ends in one of the six ways. -/
theorem ends_run (environment : Environment) (request : Request) :
    Ends environment request (request.run environment) := by
  cases hconfig : request.configure environment.library environment.read with
  | error message =>
      have hprepare : request.prepare environment.library environment.read = .error message := by
        rw [Request.prepare, hconfig]
        rfl
      rw [Request.run, hprepare]
      exact .unloaded hconfig
  | ok config =>
      rw [Request.run, prepare_of_configure hconfig]
      cases hname : ReportKind.ofName? config.format with
      | error error => exact .unknown hconfig hname
      | ok kind =>
          simp only [Except.mapError, Except.map, Prepared.finish]
          cases hsource : environment.passage request.path with
          | error failure => exact .unread hconfig hname hsource
          | ok text =>
              dsimp only
              cases hprocess : process environment.writers config.catalog kind text with
              | ok output => exact .printed hconfig hname hsource hprocess
              | error error =>
                  cases error with
                  | parse refusal => exact .refused hconfig hname hsource hprocess
                  | _ => exact .failed hconfig hname hsource hprocess (by simp)

/-- A run ends in one way only. -/
theorem Ends.eq_run {outcome : Outcome} (h : Ends environment request outcome) :
    outcome = request.run environment := by
  cases h with
  | unloaded hconfig =>
      rw [Request.run, Request.prepare, hconfig]
      rfl
  | unknown hconfig hname =>
      rw [Request.run, prepare_of_configure hconfig, hname]
      rfl
  | unread hconfig hname hsource =>
      rw [Request.run, prepare_of_configure hconfig, hname]
      simp only [Except.mapError, Except.map, Prepared.finish, hsource]
  | refused hconfig hname hsource hprocess =>
      rw [Request.run, prepare_of_configure hconfig, hname]
      simp only [Except.mapError, Except.map, Prepared.finish, hsource, hprocess]
  | failed hconfig hname hsource hprocess hother =>
      rw [Request.run, prepare_of_configure hconfig, hname]
      simp only [Except.mapError, Except.map, Prepared.finish, hsource, hprocess]
  | printed hconfig hname hsource hprocess =>
      rw [Request.run, prepare_of_configure hconfig, hname]
      simp only [Except.mapError, Except.map, Prepared.finish, hsource, hprocess]

end

/-! ### Reports in effect -/

/-- The report that a request yields with the format and the catalog in effect. -/
def Request.Yields (given : FileReader → Source → Given) (environment : Environment) (request : Request)
    (output : String) : Prop :=
  ∃ kind text, ReportKind.ofName? (request.effectiveFormat given environment.read) = .ok kind ∧
    environment.passage request.path = .ok text ∧
    process environment.writers (request.effectiveCatalog given environment.read) kind text = .ok output

section

variable {given : FileReader → Source → Given} {environment : Environment} {request : Request}

/-- A run that does not fail has loaded the configuration and prints the report in effect. -/
theorem Ends.prints_or_refuses (hlibrary : environment.library.RespectsLayers given) {outcome : Outcome}
    (h : Ends environment request outcome) :
    ((∃ config, request.configure environment.library environment.read = .ok config) ∧
      ∃ output, request.Yields given environment output ∧ outcome.Prints output) ∨ outcome.Refuses := by
  cases h with
  | unloaded | unknown | unread | refused | failed => exact .inr (Outcome.refuses_failure _)
  | @printed config kind text output hconfig hname hsource hprocess =>
      rcases effective_of_configure hlibrary hconfig with ⟨hformat, hcatalog⟩
      rw [hformat] at hname
      rw [hcatalog] at hprocess
      exact .inl ⟨⟨config, hconfig⟩, output, ⟨kind, text, hname, hsource, hprocess⟩,
        Outcome.prints_withLineEnd output⟩

theorem ends_of_yields (hlibrary : environment.library.RespectsLayers given) {config : Config}
    (hconfig : request.configure environment.library environment.read = .ok config) {output : String}
    (h : request.Yields given environment output) :
    Ends environment request ⟨0, withLineEnd output, ""⟩ := by
  rcases effective_of_configure hlibrary hconfig with ⟨hformat, hcatalog⟩
  rcases h with ⟨kind, text, hname, hsource, hprocess⟩
  rw [← hformat] at hname
  rw [← hcatalog] at hprocess
  exact .printed hconfig hname hsource hprocess

end

/-- However command lines are understood, whatever can be read and whatever writes the text formats: with a
library in which overrides win over files and files over the defaults, a request for a report prints the
whole report that the format and the catalog in effect yield, and nothing else, or prints a message only. It
prints the report exactly if the configuration can be loaded, the format in effect is the name of a report,
the passage can be read and the report can be made of it. If just the passage is refused, then the message
names the cause and says it in words. -/
theorem report_whole_or_refused {environment : Environment} {given : FileReader → Source → Given}
    (hlibrary : environment.library.RespectsLayers given) {arguments : List String} {request : Request}
    (hasked : environment.understand arguments = .report request) :
    let outcome := environment.run arguments
    ((∃ output, request.Yields given environment output ∧ outcome.Prints output) ∨ outcome.Refuses) ∧
    ((∃ output, request.Yields given environment output ∧ outcome.Prints output) ↔
      (∃ config, request.configure environment.library environment.read = .ok config) ∧
        ∃ output, request.Yields given environment output) ∧
    ∀ config, request.configure environment.library environment.read = .ok config →
      config.format = request.effectiveFormat given environment.read ∧
      config.catalog = request.effectiveCatalog given environment.read ∧
      ∀ kind text refusal, ReportKind.ofName? config.format = .ok kind →
        environment.passage request.path = .ok text →
        process environment.writers config.catalog kind text = .error (.parse refusal) →
        outcome = ⟨1, "", refusal.kindName ++ ": " ++ refusal.message ++ "\n"⟩ := by
  intro outcome
  have hrun : outcome = request.run environment := by
    simp only [outcome, Environment.run, hasked]
    rfl
  have hends : Ends environment request outcome := hrun ▸ ends_run environment request
  refine ⟨?_, ⟨?_, ?_⟩, ?_⟩
  · rcases hends.prints_or_refuses hlibrary with ⟨_, hprints⟩ | hrefuses
    · exact .inl hprints
    · exact .inr hrefuses
  · rintro ⟨output, hyields, hprints⟩
    rcases hends.prints_or_refuses hlibrary with ⟨hconfig, _⟩ | hrefuses
    · exact ⟨hconfig, output, hyields⟩
    · exact absurd (hprints.code.symm.trans hrefuses.code) (by decide)
  · rintro ⟨⟨config, hconfig⟩, output, hyields⟩
    refine ⟨output, hyields, ?_⟩
    rw [hrun, ← (ends_of_yields hlibrary hconfig hyields).eq_run]
    exact Outcome.prints_withLineEnd output
  · intro config hconfig
    rcases effective_of_configure hlibrary hconfig with ⟨hformat, hcatalog⟩
    refine ⟨hformat, hcatalog, ?_⟩
    intro kind text refusal hname hsource hprocess
    exact hrun.trans (Ends.refused hconfig hname hsource hprocess).eq_run.symm

/-- With the library for TOML documents, a request has the configuration that is read off its settings: those
of its file over the defaults, under its options. -/
theorem configure_toml (read : FileReader) (request : Request) :
    request.configure .toml read =
      (request.file?.toList.foldlM (Config.mergeSource read) Config.defaults >>=
          (request.options.overrides.map fun entry => (entry.1, Setting.text entry.2)).foldlM
            Config.putOverride >>= Config.ofSettings).mapError
        fun error => "Error loading configuration: " ++ error.message := by
  have hloader : ∃ loader, request.loader .toml = .ok loader := by
    obtain ⟨path, format, config, level⟩ := request
    cases format <;> cases level <;> exact ⟨_, rfl⟩
  rcases hloader with ⟨loader, hloader⟩
  rcases loader_of_request hloader with ⟨hsources, hoverrides⟩
  rw [← Config.settings_defaultText, Request.configure, hloader, ← hsources, ← hoverrides]
  rfl

/-- Files around a working directory: a passage elsewhere, and below the working directory a configuration
file that asks for the tree view and knows one more call. -/
def surroundings : FileTree where
  top := [("home", .directory [("conf", .directory [("weft.toml", .file configuration)])]),
    ("tales", .directory [("one.tw", .file "(foo: 5)".toUTF8)])]
  working := ["home"]
where
  configuration := ("[output]\nformat = \"ast-treeviz\"\n[[catalog.macros]]\nname = \"foo\"\n" ++
    "pattern = [\"positional\", [\"variable\"]]\n").toUTF8

/-- The program with the standard libraries among these files, and nothing on the standard input. -/
def standardEnvironment : Environment :=
  ⟨Invocation.ofArguments, .toml, .standard, surroundings.read, .ok .empty⟩

/-- The format of the command line wins over that of the file, and its report on the tokens is printed; the
report that the file asks for is refused, since a call does not fit what the file says about it. The passage
is named from the topmost directory, and the configuration file without its ending. -/
theorem report_whole_or_refused_configured :
    (∃ request output,
      standardEnvironment.understand ["parse", "/tales/one.tw", "-c", "conf/weft", "-f", "token-simple"] =
        .report request ∧
      request.effectiveFormat Config.givenBy standardEnvironment.read = "token-simple" ∧
      request.Yields Config.givenBy standardEnvironment output ∧
      (standardEnvironment.run ["parse", "/tales/one.tw", "-c", "conf/weft", "-f", "token-simple"]).Prints
        output) ∧
    ∃ request,
      standardEnvironment.understand ["parse", "/tales/one.tw", "-c", "conf/weft"] = .report request ∧
      request.effectiveFormat Config.givenBy standardEnvironment.read = "ast-treeviz" ∧
      standardEnvironment.run ["parse", "/tales/one.tw", "-c", "conf/weft"] =
        ⟨1, "", "MacroShapeError: macro (foo:) argument 1: expected variable, found number\n"⟩ := by
  have hlibrary : standardEnvironment.library.RespectsLayers Config.givenBy :=
    ConfigLibrary.toml_respectsLayers
  have hsource : standardEnvironment.passage "/tales/one.tw" = .ok "(foo: 5)" := by decide +kernel
  constructor
  · have hasked : standardEnvironment.understand
        ["parse", "/tales/one.tw", "-c", "conf/weft", "-f", "token-simple"] =
          .report ⟨"/tales/one.tw", some "token-simple", some "conf/weft", none⟩ := by decide +kernel
    have hconfig : Request.configure .toml surroundings.read
        ⟨"/tales/one.tw", some "token-simple", some "conf/weft", none⟩ =
          .ok ⟨"token-simple", "warn", [("foo", .positional [.variable])]⟩ := by
      rw [configure_toml]
      decide +kernel
    have hname : ReportKind.ofName? "token-simple" = .ok ⟨.token, .simple⟩ := by decide
    have hprocess : ∀ catalog, process .standard catalog ⟨.token, .simple⟩ "(foo: 5)" =
        .ok "<macro-name> \"(foo:\" 0..5\n<number> \"5\" 6..7\n<close-paren> \")\" 7..8\n" := by
      intro catalog
      rw [process_token]
      decide +kernel
    rcases report_whole_or_refused hlibrary hasked with ⟨_, hprinted, heffective⟩
    have hformat := (heffective _ hconfig).1
    rcases hprinted.2 ⟨⟨_, hconfig⟩, _, _, _, hformat ▸ hname, hsource, hprocess _⟩ with
      ⟨output, houtput, hprints⟩
    exact ⟨_, output, hasked, hformat.symm, houtput, hprints⟩
  · have hasked : standardEnvironment.understand ["parse", "/tales/one.tw", "-c", "conf/weft"] =
        .report ⟨"/tales/one.tw", none, some "conf/weft", none⟩ := by decide +kernel
    have hconfig : Request.configure .toml surroundings.read
        ⟨"/tales/one.tw", none, some "conf/weft", none⟩ =
          .ok ⟨"ast-treeviz", "warn", [("foo", .positional [.variable])]⟩ := by
      rw [configure_toml]
      decide +kernel
    have hname : ReportKind.ofName? "ast-treeviz" = .ok ⟨.ast, .treeview⟩ := by decide
    have hprocess : process .standard
        (Config.mk "ast-treeviz" "warn" [("foo", .positional [.variable])]).catalog
        ⟨.ast, .treeview⟩ "(foo: 5)" =
          .error (.parse (.callShape "foo" ⟨"variable", "number", some 0⟩ 0 "(foo: 5)")) := by
      decide +kernel
    rcases (report_whole_or_refused hlibrary hasked).2.2 _ hconfig with ⟨hformat, _, hrefused⟩
    exact ⟨_, hasked, hformat.symm, hrefused _ _ _ hname hsource hprocess⟩

end PassageMarkup
