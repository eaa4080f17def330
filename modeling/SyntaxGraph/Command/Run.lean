import SyntaxGraph.Api.Router
import SyntaxGraph.Command.Invocation
import SyntaxGraph.Config.Yaml

/-!
# Running commands

A run ends with a status and what it wrote to its two outputs. The configuration is loaded before
anything else. A failure outside of a parse is reported on the error output and nothing is
written to the other; a source at fault is a result like any other, with a status of its own.

What a run reads is a parameter, in any monad: `IO` for a program, and `Id` where all files are
known.
-/

namespace SyntaxGraph

/-! ## Files -/

/-- How files and standard input are read. -/
structure Inputs (m : Type → Type) where
  file : String → m (Except IoError String)
  stdin : m (Except IoError String)

/-- The configuration of a text read from a file. -/
def Config.ofFile (content : Except IoError String) : Except ConfigError Config :=
  match content with
  | .ok text => ofYaml text
  | .error e => .error (.io e)

/-- The configuration of a file, if one is named, and else the defaults. -/
def Config.load (content : Option (Except IoError String)) : Except ParseError Config :=
  match content with
  | none => .ok {}
  | some content => (Config.ofFile content).mapError .config

/-- The report of a source read from a file. -/
def SourceParser.reportFile (parser : SourceParser) (content : Except IoError String) :
    Except ParseError ParseReport :=
  match content with
  | .ok source => .ok (parser.report source)
  | .error e => .error (.io e)

/-! ## Outcomes -/

/-- How a run ended. -/
structure Outcome where
  status : Nat
  output : String := ""
  errors : String := ""
  deriving DecidableEq, Inhabited, Repr

/-- A failure of a run: what was tried, and the causes, each the cause of the one before it. -/
structure Failure where
  attempt : String
  causes : List String
  deriving DecidableEq, Inhabited, Repr

namespace Failure

/-- A cause whose first line comes after a lead; its other lines are indented. -/
def causeText (lead indent cause : String) : String :=
  "\n" ++ lead ++ ("\n" ++ indent).intercalate (cause.splitOn "\n")

/-- Causes with their numbers. -/
def numberedText (number : Nat) : List String → String
  | [] => ""
  | cause :: rest =>
    let digits := toString number
    let lead := String.ofList (List.replicate (5 - digits.length) ' ') ++ digits ++ ": "
    causeText lead "       " cause ++ numberedText (number + 1) rest

/-- The texts of the causes; a single one has no number. -/
def causesText : List String → String
  | [] => ""
  | [cause] => "\n\nCaused by:" ++ causeText "    " "    " cause
  | causes => "\n\nCaused by:" ++ numberedText 0 causes

/-- The report of a failure. -/
def report (f : Failure) : String := "Error: " ++ f.attempt ++ causesText f.causes ++ "\n"

/-- A run that failed. -/
def outcome (f : Failure) : Outcome := { status := 1, errors := f.report }

end Failure

/-- The causes behind a failure of a configuration. -/
def ConfigError.causes : ConfigError → List String
  | .io cause => [cause.message]
  | .yaml detail => [detail]
  | _ => []

/-- A failure and the causes behind it. -/
def ParseError.chain (e : ParseError) : List String :=
  e.message :: match e with
    | .config cause => cause.message :: cause.causes
    | .io cause => [cause.message]
    | _ => []

/-! ## Commands -/

/-- A value as a line of output. -/
def jsonLine (pretty : Bool) (value : Json) : String :=
  (if pretty then value.pretty else value.compact) ++ "\n"

/-- The outcome of a parse; a source without a tree has the status 1. -/
def ParseReport.outcome (pretty : Bool) (r : ParseReport) : Outcome :=
  { status := if r.success then 0 else 1, output := jsonLine pretty r.toJson }

/-- The outcome of a request, whatever its response. -/
def Response.outcome (pretty : Bool) (r : Response) : Outcome :=
  { status := 0, output := toString r.status ++ "\n" ++ jsonLine pretty r.body }

variable {m : Type → Type} [Monad m]

namespace Router

/-- Parse a file or standard input. -/
def runParse (router : Router) (inputs : Inputs m) (file : Option String) (pretty : Bool) :
    m Outcome := do
  match file with
  | some path =>
    match (router.parser router.config.tree).reportFile (← inputs.file path) with
    | .ok report => return report.outcome pretty
    | .error e => return Failure.outcome ⟨"failed to read " ++ path, e.chain⟩
  | none =>
    match ← inputs.stdin with
    | .ok source => return (router.report source).outcome pretty
    | .error e => return Failure.outcome ⟨"failed to read stdin", [e.message]⟩

def runRequest (router : Router) (inputs : Inputs m) (request : Request)
    (body : Option BodySource) (pretty : Bool) : m Outcome := do
  match body with
  | none => return (router.handle request).outcome pretty
  | some (.text text) => return (router.handle (request.withText text)).outcome pretty
  | some (.file path) =>
    match ← inputs.file path with
    | .ok text => return (router.handle (request.withText text)).outcome pretty
    | .error e => return Failure.outcome ⟨"failed to read body from " ++ path, [e.message]⟩

def run (router : Router) (inputs : Inputs m) : Command → m Outcome
  | .parse file pretty => router.runParse inputs file pretty
  | .request method path body pretty => router.runRequest inputs ⟨method, path, none⟩ body pretty
  | .examples pretty => return { status := 0, output := jsonLine pretty exampleObject }

end Router

/-- Read the configuration file of an invocation, if it names one. -/
def Invocation.readConfig (i : Invocation) (inputs : Inputs m) : m (Except ParseError Config) := do
  match i.config with
  | none => return Config.load none
  | some path => return Config.load (some (← inputs.file path))

def Invocation.run (parser : TreeOptions → SourceParser) (inputs : Inputs m) (i : Invocation) :
    m Outcome := do
  match ← i.readConfig inputs with
  | .ok config => Router.run ⟨config, parser⟩ inputs i.command
  | .error e => return Failure.outcome ⟨"failed to load config", e.chain⟩

/-- Run a command line. Arguments that cannot be read have the status 2, unless they ask for an
explanation. -/
def runCommandLine (parser : TreeOptions → SourceParser) (inputs : Inputs m)
    (arguments : List String) : m Outcome :=
  match Invocation.ofArguments arguments with
  | .ok invocation => invocation.run parser inputs
  | .error .help => return { status := 0, output := ArgumentError.help.message ++ "\n" }
  | .error e => return { status := 2, errors := "error: " ++ e.message ++ "\n" }

end SyntaxGraph
