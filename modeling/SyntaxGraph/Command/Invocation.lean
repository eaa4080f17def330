import SyntaxGraph.Api.Request
import SyntaxGraph.Command.Arguments

/-!
# Invocations

What the command line asks for: a command and the configuration file to run it with. The option
`config` is known before the command and after it; what stands after the command counts.
-/

namespace SyntaxGraph

/-- Where the body of a request comes from. -/
inductive BodySource where
  | text (body : String)
  | file (path : String)
  deriving DecidableEq, Repr

/-- What is to be done. -/
inductive Command where
  /-- parse a file, or standard input without one -/
  | parse (file : Option String) (pretty : Bool)
  | request (method : Method) (path : String) (body : Option BodySource) (pretty : Bool)
  | examples (pretty : Bool)
  deriving DecidableEq, Repr

/-- A command and its configuration file. -/
structure Invocation where
  config : Option String
  command : Command
  deriving DecidableEq, Repr

namespace Command

/-- The option that names the configuration file. -/
def configOption : OptionKind := ⟨"config", some 'c', .path "config"⟩

/-- The arguments in front of a command. -/
def leadingKinds : ArgumentKinds := ⟨[configOption], [], []⟩

/-- The arguments of the command `parse`. -/
def parseKinds : ArgumentKinds := ⟨[configOption], ["pretty"], [.path "FILE"]⟩

/-- Parse the file of a word, if there is one. -/
def parseOf (a : Arguments) : Except ArgumentError Command :=
  .ok (.parse a.words.head? (a.flags.contains "pretty"))

/-- The method that a word names. -/
def readMethod (name : String) : Except ArgumentError Method :=
  match Method.ofName name with
  | .ok method => .ok method
  | .error e => .error (.invalidWord "METHOD" e.message)

/-- The arguments of the command `request`. -/
def requestKinds : ArgumentKinds :=
  { options := [configOption, ⟨"body", none, .any⟩, ⟨"body-file", none, .path "body-file"⟩]
    flags := ["pretty"]
    words := [fun name => (readMethod name).map fun _ => (), .any] }

/-- The body of a request; it has one source at most. -/
def bodyOf (a : Arguments) : Except ArgumentError (Option BodySource) :=
  match a.values.lookup "body", a.values.lookup "body-file" with
  | some _, some _ => .error (.conflict "body" "body-file")
  | some text, none => .ok (some (.text text))
  | none, some path => .ok (some (.file path))
  | none, none => .ok none

/-- A request of two words, its method and its path. -/
def requestOf (a : Arguments) : Except ArgumentError Command :=
  match a.words with
  | method :: path :: _ => do
    return .request (← readMethod method) path (← bodyOf a) (a.flags.contains "pretty")
  | [_] => .error (.missingWord "PATH")
  | [] => .error (.missingWord "METHOD")

/-- The arguments of the command `examples`. -/
def examplesKinds : ArgumentKinds := ⟨[configOption], ["pretty"], []⟩

/-- Print the examples. -/
def examplesOf (a : Arguments) : Except ArgumentError Command :=
  .ok (.examples (a.flags.contains "pretty"))

/-- The arguments that a command knows, and how it is made of them. -/
def ofName? : String → Option (ArgumentKinds × (Arguments → Except ArgumentError Command))
  | "parse" => some (parseKinds, parseOf)
  | "request" => some (requestKinds, requestOf)
  | "examples" => some (examplesKinds, examplesOf)
  | _ => none

/-- The answer to `help`, which takes the name of one command at most. -/
def explain : List String → ArgumentError
  | [] => .help
  | [name] => if name = "help" || (ofName? name).isSome then .help else .unknownArgument name
  | name :: extra :: _ =>
    .unknownArgument (if name = "help" || (ofName? name).isSome then extra else name)

end Command

/-- The invocation of a list of arguments. -/
def Invocation.ofArguments (arguments : List String) : Except ArgumentError Invocation := do
  let (leading, rest) ← Arguments.read Command.leadingKinds true {} arguments
  match rest with
  | [] => .error .missingCommand
  | name :: own =>
    match Command.ofName? name with
    | none => .error (if name = "help" then Command.explain own else .unknownArgument name)
    | some (kinds, make) =>
      let (a, _) ← Arguments.read kinds false {} own
      let config := (a.values.lookup "config").or (leading.values.lookup "config")
      return ⟨config, ← make a⟩

end SyntaxGraph
