import Mathlib.Logic.ExistsUnique
import SyntaxGraph.Proofs.Shown

/-!
# How runs end

With all files known, a run ends in one of three ways. It shows a complete result and writes nothing
to the error output; or, of a parse only, it shows the report of a source at fault, with the status
1; or it fails, with a failure on the error output and nothing written. The status and what was
written tell the three apart (`Ends.ending_eq`), and a run fails exactly if its configuration file
gives no configuration or what its command reads is no text, in this order.

What is shown is settled by the files (`Files.Gives`), and not by the layout, so two runs that
differ in the layout alone show the same (`SameShown`).

Main statement: `run_ends`.
-/

namespace SyntaxGraph

/-! ## What a run reads -/

/-- The bytes that a run finds, or why there are none. -/
structure Files where
  file : String → Except IoError ByteArray
  stdin : Except IoError ByteArray

namespace Files

/-- A file as a text. -/
def text (files : Files) (path : String) : Except IoError String := files.file path >>= decodeUtf8

/-- The source of a parse: a file, or standard input. -/
def source (files : Files) : Option String → Except IoError String
  | some path => files.text path
  | none => files.stdin >>= decodeUtf8

/-- A request with its body. -/
def request (files : Files) (request : Request) : Option BodySource → Except IoError Request
  | none => .ok request
  | some (.text text) => .ok (request.withText text)
  | some (.file path) => (files.text path).map request.withText

/-- What a command reads, if it reads anything. -/
def input? (files : Files) : Command → Option (Except IoError String)
  | .parse file _ => some (files.source file)
  | .request _ _ (some (.file path)) _ => some (files.text path)
  | _ => none

def config (files : Files) (i : Invocation) : Except ParseError Config :=
  Config.load (i.config.map files.text)

/-- This is the configuration of an invocation: the default one if it names no file, and else the
one that the file gives. -/
inductive Configures (files : Files) (i : Invocation) : Config → Prop
  | default (noFile : i.config = none) : Configures files i {}
  | file {path text : String} {config : Config} (named : i.config = some path)
      (read : files.text path = .ok text) (given : config.IsGivenBy text) :
      Configures files i config

/-- The configuration file of an invocation is no text, or gives no configuration. -/
def ConfigFails (files : Files) (i : Invocation) : Prop := ∀ config, ¬ files.Configures i config

/-- What the command of an invocation reads is no text. -/
def InputFails (files : Files) (i : Invocation) : Prop :=
  ∃ e, files.input? i.command = some (.error e)

/-- Reading, with all files known. -/
def inputs (files : Files) : Inputs Id where
  file path := files.text path
  stdin := files.source none

/-- The outcome of a command line, with all files known. -/
def run (files : Files) (parser : TreeOptions → SourceParser) (arguments : List String) : Outcome :=
  runCommandLine parser files.inputs arguments

end Files

/-! ## Endings -/

/-- How a run can end. -/
inductive Ending where
  /-- with a complete result -/
  | result
  /-- with the report of a source at fault -/
  | fault
  | failure
  deriving DecidableEq, Repr

/-- The report of a source without a tree is that of a source at fault; all else is a result. -/
def Shown.ending : Shown → Ending
  | .report r => if r.success then .result else .fault
  | .response _ | .examples => .result

/-- What an invocation has to show, if everything that it reads can be read. -/
inductive Files.Gives (files : Files) (parser : TreeOptions → SourceParser) (i : Invocation) :
    Shown → Prop
  | report {config : Config} {file : Option String} {pretty : Bool} {source : String}
      (loaded : files.Configures i config) (command : i.command = .parse file pretty)
      (read : files.source file = .ok source) :
      Gives files parser i (.report (Router.report ⟨config, parser⟩ source))
  | response {config : Config} {method : Method} {path : String} {body : Option BodySource}
      {pretty : Bool} {request : Request} (loaded : files.Configures i config)
      (command : i.command = .request method path body pretty)
      (read : files.request ⟨method, path, none⟩ body = .ok request) :
      Gives files parser i (.response (Router.handle ⟨config, parser⟩ request))
  | examples {config : Config} {pretty : Bool} (loaded : files.Configures i config)
      (command : i.command = .examples pretty) : Gives files parser i .examples

/-- The outcome of an invocation is that of a run that ends so. -/
inductive Ends (files : Files) (parser : TreeOptions → SourceParser) (i : Invocation)
    (o : Outcome) : Ending → Prop
  | shows {shown : Shown} (gives : files.Gives parser i shown) (shows : o.Shows shown) :
      Ends files parser i o shown.ending
  | failure (text : String) (outcome : o = ⟨1, "", "Error: " ++ text⟩) :
      Ends files parser i o .failure

/-- The ending that an outcome shows. -/
def Outcome.ending (o : Outcome) : Ending :=
  if o.status = 0 then .result else if o.output = "" then .failure else .fault

section

variable {files : Files} {parser : TreeOptions → SourceParser} {i : Invocation} {o : Outcome}
  {ending : Ending}

theorem Outcome.Shows.ending_eq {shown : Shown} (h : o.Shows shown) : o.ending = shown.ending := by
  cases h with
  | @report text r _ _ =>
    have hline : text ++ "\n" ≠ "" := by simp
    rw [Outcome.ending, Shown.ending]
    cases r.success with
    | true => rfl
    | false => rw [if_neg Bool.false_ne_true, if_neg Nat.one_ne_zero, if_neg hline]; rfl
  | response => rfl
  | examples => rfl

/-- The status and what was written tell the endings apart. -/
theorem Ends.ending_eq (h : Ends files parser i o ending) : o.ending = ending := by
  cases h with
  | shows _ shows => exact shows.ending_eq
  | failure text outcome => rw [outcome]; rfl

theorem Shown.ending_ne_failure (shown : Shown) : shown.ending ≠ .failure := by
  cases shown with
  | report r =>
    rw [ending]
    cases r.success <;> exact nofun
  | response | examples => exact nofun

theorem Failure.exists_outcome_eq (f : Failure) :
    ∃ text, f.outcome = ⟨1, "", "Error: " ++ text⟩ := by
  refine ⟨f.attempt ++ (causesText f.causes ++ "\n"), ?_⟩
  rw [outcome, report, String.append_assoc, String.append_assoc]

theorem ends_failure (f : Failure) : Ends files parser i f.outcome .failure := by
  obtain ⟨text, htext⟩ := f.exists_outcome_eq
  exact .failure text htext

/-! ## Reading -/

theorem configures_iff {config : Config} :
    files.Configures i config ↔ files.config i = .ok config := by
  rw [Files.config]
  cases hpath : i.config with
  | none =>
    constructor
    · intro h
      cases h with
      | default => rfl
      | file named => cases hpath.symm.trans named
    · intro h
      cases h
      exact .default hpath
  | some path =>
    have hload : Config.load (some (files.text path)) = .ok config ↔
        ∃ text, files.text path = .ok text ∧ config.IsGivenBy text := by
      rw [Config.load, mapError_eq_ok_iff]
      cases files.text path <;> simp [Config.ofFile, Config.ofYaml_eq_ok_iff]
    rw [Option.map_some, hload]
    constructor
    · intro h
      cases h with
      | default noFile => cases hpath.symm.trans noFile
      | file named read given =>
        cases hpath.symm.trans named
        exact ⟨_, read, given⟩
    · rintro ⟨text, read, given⟩
      exact .file hpath read given

theorem configFails_iff : files.ConfigFails i ↔ ∃ e, files.config i = .error e := by
  simp only [Files.ConfigFails, configures_iff]
  cases files.config i <;> simp

/-- The body of a request cannot be read exactly if its file is no text. -/
theorem request_eq_error_iff {command : Command} {method : Method} {path : String}
    {body : Option BodySource} {pretty : Bool}
    (hcommand : command = .request method path body pretty) (request : Request) (e : IoError) :
    files.request request body = .error e ↔ files.input? command = some (.error e) := by
  subst hcommand
  match body with
  | none | some (.text _) => exact iff_of_false nofun nofun
  | some (.file path) =>
    rw [Files.request, Files.input?, Option.some.injEq]
    cases files.text path <;> simp [Except.map]

/-! ## Commands with a configuration -/

/-- The same command with this layout. -/
def Command.withPretty (pretty : Bool) : Command → Command
  | .parse file _ => .parse file pretty
  | .request method path body _ => .request method path body pretty
  | .examples _ => .examples pretty

theorem Command.exists_withPretty (c : Command) : ∃ pretty, c = c.withPretty pretty := by
  cases c with
  | parse _ pretty | request _ _ _ pretty | examples pretty => exact ⟨pretty, rfl⟩

section

variable {source : String} {e : IoError}

theorem runParse_of_ok {router : Router} {file : Option String}
    (read : files.source file = .ok source) (pretty : Bool) :
    router.runParse files.inputs file pretty = (router.report source).outcome pretty := by
  cases file with
  | some path =>
    have hread : files.inputs.file path = .ok source := read
    simp only [Router.runParse, hread]
    rfl
  | none =>
    have hread : files.inputs.stdin = .ok source := read
    simp only [Router.runParse, hread]
    rfl

theorem runParse_of_error (router : Router) {file : Option String}
    (read : files.source file = .error e) :
    ∃ f : Failure, ∀ pretty, router.runParse files.inputs file pretty = f.outcome := by
  cases file with
  | some path =>
    have hread : files.inputs.file path = .error e := read
    refine ⟨⟨"failed to read " ++ path, ParseError.chain (.io e)⟩, fun pretty => ?_⟩
    simp only [Router.runParse, hread]
    rfl
  | none =>
    have hread : files.inputs.stdin = .error e := read
    refine ⟨⟨"failed to read stdin", [e.message]⟩, fun pretty => ?_⟩
    simp only [Router.runParse, hread]
    rfl

theorem runRequest_of_ok {router : Router} {request sent : Request} {body : Option BodySource}
    (read : files.request request body = .ok sent) (pretty : Bool) :
    router.runRequest files.inputs request body pretty = (router.handle sent).outcome pretty := by
  match body with
  | none | some (.text _) =>
    cases read
    rfl
  | some (.file path) =>
    cases htext : files.text path with
    | error e =>
      rw [Files.request, htext] at read
      cases read
    | ok text =>
      rw [Files.request, htext] at read
      cases read
      have hread : files.inputs.file path = .ok text := htext
      simp only [Router.runRequest, hread]
      rfl

theorem runRequest_of_error (router : Router) {request : Request} {body : Option BodySource}
    (read : files.request request body = .error e) :
    ∃ f : Failure, ∀ pretty, router.runRequest files.inputs request body pretty = f.outcome := by
  match body with
  | none | some (.text _) => cases read
  | some (.file path) =>
    cases htext : files.text path with
    | ok text =>
      rw [Files.request, htext] at read
      cases read
    | error e =>
      have hread : files.inputs.file path = .error e := htext
      refine ⟨⟨"failed to read body from " ++ path, [e.message]⟩, fun pretty => ?_⟩
      simp only [Router.runRequest, hread]
      rfl

end

/-- Where the input of a command is no text, the command fails in any layout. -/
theorem run_of_inputFails (h : files.InputFails i) (router : Router) :
    ∃ f : Failure, ∀ pretty,
      router.run files.inputs (i.command.withPretty pretty) = f.outcome := by
  obtain ⟨e, he⟩ := h
  cases hcommand : i.command with
  | parse file written =>
    rw [hcommand] at he
    exact runParse_of_error router (Option.some.inj he)
  | request method path body written =>
    exact runRequest_of_error router
      ((request_eq_error_iff hcommand ⟨method, path, none⟩ e).2 he)
  | examples written =>
    rw [hcommand] at he
    cases he

/-- Where everything can be read, the command shows in any layout what the files give. -/
theorem shows_of_read (parser : TreeOptions → SourceParser) {config : Config}
    (loaded : files.config i = .ok config) (h : ¬ files.InputFails i) :
    ∃ shown, files.Gives parser i shown ∧ ∀ pretty,
      (Router.run ⟨config, parser⟩ files.inputs (i.command.withPretty pretty)).Shows shown := by
  cases hcommand : i.command with
  | parse file written =>
    cases hread : files.source file with
    | error e =>
      refine absurd ⟨e, ?_⟩ h
      rw [hcommand, Files.input?, hread]
    | ok source =>
      refine ⟨_, .report (configures_iff.2 loaded) hcommand hread, fun pretty => ?_⟩
      rw [Command.withPretty, Router.run, runParse_of_ok hread]
      exact ParseReport.shows_outcome _ pretty
  | request method path body written =>
    cases hread : files.request ⟨method, path, none⟩ body with
    | error e => exact absurd ⟨e, (request_eq_error_iff hcommand _ e).1 hread⟩ h
    | ok sent =>
      refine ⟨_, .response (configures_iff.2 loaded) hcommand hread, fun pretty => ?_⟩
      rw [Command.withPretty, Router.run, runRequest_of_ok hread]
      exact Response.shows_outcome (Router.sortKeys_body _ sent) pretty
  | examples written => exact ⟨_, .examples (configures_iff.2 loaded) hcommand, shows_examples⟩

/-! ## Runs -/

section

variable {arguments : List String}

theorem readConfig_eq (files : Files) (i : Invocation) :
    i.readConfig files.inputs = files.config i := by
  rw [Invocation.readConfig, Files.config]
  cases i.config <;> rfl

/-- The configuration is loaded before anything else. -/
theorem run_of_config_error {e : ParseError} (accepted : Invocation.ofArguments arguments = .ok i)
    (h : files.config i = .error e) :
    files.run parser arguments = Failure.outcome ⟨"failed to load config", e.chain⟩ := by
  rw [Files.run, runCommandLine, accepted]
  simp only [Invocation.run, readConfig_eq, h]
  rfl

theorem run_of_config {config : Config} (accepted : Invocation.ofArguments arguments = .ok i)
    (h : files.config i = .ok config) :
    files.run parser arguments = Router.run ⟨config, parser⟩ files.inputs i.command := by
  rw [Files.run, runCommandLine, accepted]
  simp only [Invocation.run, readConfig_eq, h]
  rfl

theorem ends_of_inputFails {config : Config}
    (accepted : Invocation.ofArguments arguments = .ok i) (loaded : files.config i = .ok config)
    (h : files.InputFails i) : Ends files parser i (files.run parser arguments) .failure := by
  obtain ⟨pretty, hpretty⟩ := i.command.exists_withPretty
  obtain ⟨f, hf⟩ := run_of_inputFails h ⟨config, parser⟩
  rw [run_of_config accepted loaded, hpretty, hf]
  exact ends_failure f

theorem shows_of_accepted {config : Config} (accepted : Invocation.ofArguments arguments = .ok i)
    (loaded : files.config i = .ok config) (h : ¬ files.InputFails i) :
    ∃ shown, files.Gives parser i shown ∧ (files.run parser arguments).Shows shown := by
  obtain ⟨pretty, hpretty⟩ := i.command.exists_withPretty
  obtain ⟨shown, hgives, hshows⟩ := shows_of_read parser loaded h
  refine ⟨shown, hgives, ?_⟩
  rw [run_of_config accepted loaded, hpretty]
  exact hshows pretty

theorem ends_failure_iff (accepted : Invocation.ofArguments arguments = .ok i) :
    Ends files parser i (files.run parser arguments) .failure ↔
      files.ConfigFails i ∨ files.InputFails i := by
  rw [configFails_iff]
  cases loaded : files.config i with
  | error e =>
    refine iff_of_true ?_ (.inl ⟨e, rfl⟩)
    rw [run_of_config_error accepted loaded]
    exact ends_failure _
  | ok config =>
    constructor
    · intro hfails
      by_cases hinput : files.InputFails i
      · exact .inr hinput
      · obtain ⟨shown, -, hshows⟩ := shows_of_accepted accepted loaded hinput
        exact absurd (hshows.ending_eq.symm.trans hfails.ending_eq) shown.ending_ne_failure
    · rintro (⟨e, he⟩ | hinput)
      · cases he
      · exact ends_of_inputFails accepted loaded hinput

theorem existsUnique_ends (accepted : Invocation.ofArguments arguments = .ok i) :
    ∃! ending, Ends files parser i (files.run parser arguments) ending := by
  have hends : ∃ ending, Ends files parser i (files.run parser arguments) ending := by
    by_cases hfails : files.ConfigFails i ∨ files.InputFails i
    · exact ⟨.failure, (ends_failure_iff accepted).2 hfails⟩
    · rw [not_or, configFails_iff] at hfails
      cases loaded : files.config i with
      | error e => exact absurd ⟨e, loaded⟩ hfails.1
      | ok config =>
        obtain ⟨shown, hgives, hshows⟩ := shows_of_accepted accepted loaded hfails.2
        exact ⟨shown.ending, .shows hgives hshows⟩
  obtain ⟨ending, h⟩ := hends
  exact ⟨ending, h, fun other hother => hother.ending_eq.symm.trans h.ending_eq⟩

end

/-! ## Two runs -/

/-- Two outcomes show the same: they are one failure, or both show one thing that the files give. -/
inductive SameShown (files : Files) (parser : TreeOptions → SourceParser) (i : Invocation)
    (o other : Outcome) : Prop
  | failure (text : String) (outcome : o = ⟨1, "", "Error: " ++ text⟩) (same : other = o)
  | shows {shown : Shown} (gives : files.Gives parser i shown) (shows : o.Shows shown)
      (showsOther : other.Shows shown)

theorem sameShown_failure (f : Failure) : SameShown files parser i f.outcome f.outcome := by
  obtain ⟨text, htext⟩ := f.exists_outcome_eq
  exact .failure text htext rfl

/-- Two runs with one configuration whose commands differ in the layout show the same. -/
theorem sameShown_of_accepted {arguments others : List String} {i' : Invocation}
    (accepted : Invocation.ofArguments arguments = .ok i)
    (accepted' : Invocation.ofArguments others = .ok i') (config : i'.config = i.config)
    {pretty : Bool} (command : i'.command = i.command.withPretty pretty) :
    SameShown files parser i (files.run parser arguments) (files.run parser others) := by
  have hconfig : files.config i' = files.config i := by rw [Files.config, config, Files.config]
  cases loaded : files.config i with
  | error e =>
    rw [run_of_config_error accepted loaded, run_of_config_error accepted' (hconfig.trans loaded)]
    exact sameShown_failure _
  | ok c =>
    obtain ⟨written, hwritten⟩ := i.command.exists_withPretty
    have hrun : Router.run ⟨c, parser⟩ files.inputs i.command =
        Router.run ⟨c, parser⟩ files.inputs (i.command.withPretty written) :=
      congrArg _ hwritten
    rw [run_of_config accepted loaded, run_of_config accepted' (hconfig.trans loaded), command,
      hrun]
    by_cases hinput : files.InputFails i
    · obtain ⟨f, hf⟩ := run_of_inputFails hinput ⟨c, parser⟩
      rw [hf, hf]
      exact sameShown_failure f
    · obtain ⟨shown, hgives, hshows⟩ := shows_of_read parser loaded hinput
      exact .shows hgives (hshows written) (hshows pretty)

theorem run_of_same_bytes {arguments others : List String} {i' : Invocation}
    (accepted : Invocation.ofArguments arguments = .ok i)
    (accepted' : Invocation.ofArguments others = .ok i') (config : i'.config = i.config)
    {path : String} {pretty : Bool} (command : i.command = .parse (some path) pretty)
    (command' : i'.command = .parse none pretty) (same : files.file path = files.stdin) :
    (files.run parser others).output = (files.run parser arguments).output ∧
      (files.run parser others).status = (files.run parser arguments).status := by
  have hconfig : files.config i' = files.config i := by rw [Files.config, config, Files.config]
  cases loaded : files.config i with
  | error e =>
    rw [run_of_config_error accepted loaded, run_of_config_error accepted' (hconfig.trans loaded)]
    exact ⟨rfl, rfl⟩
  | ok c =>
    have hsource : files.source none = files.source (some path) := by
      rw [Files.source, Files.source, Files.text, same]
    rw [run_of_config accepted loaded, run_of_config accepted' (hconfig.trans loaded), command,
      command', Router.run, Router.run]
    cases hread : files.source (some path) with
    | ok source =>
      rw [runParse_of_ok hread, runParse_of_ok (hsource.trans hread)]
      exact ⟨rfl, rfl⟩
    | error e =>
      -- the failures name what was tried, but on the error output
      obtain ⟨f, hf⟩ := runParse_of_error ⟨c, parser⟩ hread
      obtain ⟨f', hf'⟩ := runParse_of_error ⟨c, parser⟩ (hsource.trans hread)
      rw [hf, hf']
      exact ⟨rfl, rfl⟩

end

/-- **A run never mixes a result with a failure.** A command line that is accepted ends with a
complete result, with the report of a source at fault, or with a failure, and never in two of these
ways. It fails exactly if its configuration file gives no configuration, which is found out before
anything else, or if what the command reads is no text; bytes are a text if they are its UTF-8 form.
A file and standard input with the same bytes are parsed alike, and the layout does not change what
is shown. What is shown can be read back from the output, where no number is rounded; with a parser
of Python sources none is. -/
theorem run_ends (files : Files) (parser : TreeOptions → SourceParser) (arguments : List String)
    (i : Invocation) (accepted : Invocation.ofArguments arguments = .ok i) :
    let o := files.run parser arguments
    (∃! ending, Ends files parser i o ending) ∧
    (Ends files parser i o .failure ↔ files.ConfigFails i ∨ files.InputFails i) ∧
    (files.ConfigFails i →
      ∃ causes, o = Failure.outcome ⟨"failed to load config", causes⟩) ∧
    (∀ others i', Invocation.ofArguments others = .ok i' → i'.config = i.config →
      (∀ path pretty, i.command = .parse (some path) pretty → i'.command = .parse none pretty →
        files.file path = files.stdin →
          (files.run parser others).output = o.output ∧
            (files.run parser others).status = o.status) ∧
      ∀ pretty, i'.command = i.command.withPretty pretty →
        SameShown files parser i o (files.run parser others)) ∧
    (∀ bytes text, decodeUtf8 bytes = .ok text ↔ bytes = text.toUTF8) ∧
    ∀ tree?, ShowsExactly (pythonParser tree?) := by
  intro o
  refine ⟨existsUnique_ends accepted, ends_failure_iff accepted, fun hfails => ?_,
    fun others i' accepted' config => ⟨fun path pretty command command' same => ?_,
      fun pretty command => sameShown_of_accepted accepted accepted' config command⟩,
    fun _ _ => decodeUtf8_eq_ok_iff, showsExactly_pythonParser⟩
  · obtain ⟨e, he⟩ := configFails_iff.1 hfails
    exact ⟨e.chain, run_of_config_error accepted he⟩
  · exact run_of_same_bytes accepted accepted' config command command' same

/-- A parse of a file that is not there, with the file on standard input. -/
def pipedFiles : Files where
  file _ := .error .notFound
  stdin := .ok "x".toUTF8

/-- A parser that takes every source for an empty module. -/
def moduleParser (_ : TreeOptions) : SourceParser where
  language := "python"
  parse _ := .ok ⟨"module", []⟩

theorem run_ends_piped :
    Invocation.ofArguments ["parse", "a.py"] = .ok ⟨none, .parse (some "a.py") false⟩ ∧
    Invocation.ofArguments ["parse"] = .ok ⟨none, .parse none false⟩ ∧
    Ends pipedFiles moduleParser ⟨none, .parse (some "a.py") false⟩
      (pipedFiles.run moduleParser ["parse", "a.py"]) .failure ∧
    ∃ text, pipedFiles.run moduleParser ["parse"] = ⟨0, text ++ "\n", ""⟩ ∧
      Json.ReadsAs ParseReport.ofJson? text ((moduleParser {}).report "x") := by
  have named : Invocation.ofArguments ["parse", "a.py"] =
      .ok ⟨none, .parse (some "a.py") false⟩ := by rfl
  have piped : Invocation.ofArguments ["parse"] = .ok ⟨none, .parse none false⟩ := by rfl
  refine ⟨named, piped, ?_, ?_⟩
  · exact (run_ends pipedFiles moduleParser _ _ named).2.1.2 (.inr ⟨.notFound, rfl⟩)
  · obtain ⟨⟨ending, hends, -⟩, hfails, -⟩ := run_ends pipedFiles moduleParser _ _ piped
    generalize pipedFiles.run moduleParser ["parse"] = o at hends hfails
    cases hends with
    | failure text outcome =>
      rcases hfails.1 (.failure text outcome) with hconfig | ⟨e, he⟩
      · exact absurd (.default rfl) (hconfig {})
      · cases he
    | shows gives shows =>
      cases gives with
      | response _ command => cases command
      | examples _ command => cases command
      | report loaded command read =>
        rw [configures_iff] at loaded
        cases loaded
        cases command
        cases read
        cases shows with
        | report written reads =>
          have noFloat : NoFloat ((moduleParser {}).report "x").scalars := by
            intro s hs
            obtain ⟨raw, hraw, hs⟩ := SourceParser.scalars_report s hs
            cases hraw
            cases hs
          exact ⟨_, rfl, reads ⟨by decide, noFloat⟩⟩

end SyntaxGraph
