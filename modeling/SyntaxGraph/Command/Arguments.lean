/-!
# Command line arguments

An argument is an option with a value, a flag, or a word. An option is written `--name value`,
`--name=value`, `-n value`, `-nvalue` or `-n=value`; it takes the next argument for its value
unless that looks like an option itself. After `--` every argument is a word. No option and no
flag may be given twice.

Arguments are read from left to right, and the first one at fault decides. To ask for an
explanation counts as a fault, too: it is answered unless something before it is wrong.
-/

namespace SyntaxGraph

/-- Why arguments cannot be read. -/
inductive ArgumentError where
  /-- an explanation was asked for -/
  | help
  | unknownArgument (argument : String)
  | missingValue (name : String)
  | emptyValue (name : String)
  | repeated (name : String)
  | missingCommand
  | missingWord (name : String)
  | invalidWord (name message : String)
  | conflict (first second : String)
  deriving DecidableEq, Inhabited, Repr

def ArgumentError.message : ArgumentError → String
  | .help => "usage: parse [FILE] | request METHOD PATH | examples"
  | .unknownArgument argument => "unexpected argument '" ++ argument ++ "' found"
  | .missingValue name => "a value is required for '" ++ name ++ "' but none was supplied"
  | .emptyValue name => "the value for '" ++ name ++ "' is empty"
  | .repeated name => "the argument '" ++ name ++ "' cannot be used multiple times"
  | .missingCommand => "a subcommand is required but one was not provided"
  | .missingWord name => "the required argument '" ++ name ++ "' was not provided"
  | .invalidWord name message => "invalid value for '" ++ name ++ "': " ++ message
  | .conflict first second =>
    "the argument '" ++ first ++ "' cannot be used with '" ++ second ++ "'"

/-- What a value has to be. -/
abbrev ValueCheck := String → Except ArgumentError Unit

/-- An option that is known. -/
structure OptionKind where
  name : String
  short : Option Char
  check : ValueCheck

/-- The arguments that are known. -/
structure ArgumentKinds where
  options : List OptionKind
  flags : List String
  /-- the words, in their order -/
  words : List ValueCheck

/-- Every value is taken. -/
def ValueCheck.any : ValueCheck := fun _ => .ok ()

/-- An empty value is refused. -/
def ValueCheck.path (name : String) : ValueCheck := fun value =>
  if value.isEmpty then .error (.emptyValue name) else .ok ()

/-- Arguments by their kind, words in their order. -/
structure Arguments where
  values : List (String × String) := []
  flags : List String := []
  words : List String := []
  deriving Inhabited

namespace Arguments

/-- How an argument is written. -/
inductive Form where
  /-- two hyphens -/
  | separator
  | long (name : String) (value : Option String)
  | short (name : Char) (value : Option String)
  | word (text : String)

/-- The form of an argument; a lone hyphen is a word. -/
def form (argument : String) : Form :=
  match argument.toList with
  | ['-', '-'] => .separator
  | '-' :: '-' :: rest =>
    match rest.dropWhile (· ≠ '=') with
    | [] => .long (String.ofList rest) none
    | _ :: value => .long (String.ofList (rest.takeWhile (· ≠ '='))) (some (String.ofList value))
  | ['-'] => .word "-"
  | '-' :: name :: [] => .short name none
  | '-' :: name :: '=' :: value => .short name (some (String.ofList value))
  | '-' :: name :: value => .short name (some (String.ofList value))
  | _ => .word argument

/-- An argument that can be the value of the option before it. -/
def isValue (argument : String) : Bool :=
  match form argument with
  | .word _ => true
  | _ => false

/-- The option that an argument names. -/
def option? (kinds : ArgumentKinds) : Form → Option OptionKind
  | .long name _ => kinds.options.find? (·.name = name)
  | .short name _ => kinds.options.find? (·.short = some name)
  | _ => none

/-- The value that an argument brings along. -/
def ownValue? : Form → Option String
  | .long _ value | .short _ value => value
  | _ => none

/-- The argument is a known flag. -/
def flag? (kinds : ArgumentKinds) : Form → Option String
  | .long name none => kinds.flags.find? (· = name)
  | _ => none

/-- The argument asks for an explanation. -/
def isHelp : Form → Bool
  | .long "help" none | .short 'h' _ => true
  | _ => false

/-- Take an option. -/
def addValue (a : Arguments) (kind : OptionKind) (value : String) :
    Except ArgumentError Arguments := do
  if (a.values.lookup kind.name).isSome then .error (.repeated kind.name)
  else
    kind.check value
    return { a with values := (kind.name, value) :: a.values }

/-- Take a flag. -/
def addFlag (a : Arguments) (name : String) : Except ArgumentError Arguments :=
  if a.flags.contains name then .error (.repeated name)
  else .ok { a with flags := name :: a.flags }

/-- Take a word. -/
def addWord (kinds : ArgumentKinds) (a : Arguments) (text : String) :
    Except ArgumentError Arguments := do
  match kinds.words[a.words.length]? with
  | none => .error (.unknownArgument text)
  | some check =>
    check text
    return { a with words := a.words ++ [text] }

/-- Read arguments, after those already read. With `leading`, only up to the first word, which is
left with what follows it. -/
def read (kinds : ArgumentKinds) (leading : Bool) (a : Arguments) :
    List String → Except ArgumentError (Arguments × List String)
  | [] => .ok (a, [])
  | argument :: rest =>
    match form argument with
    | .word text =>
      if leading then .ok (a, argument :: rest)
      else do read kinds leading (← a.addWord kinds text) rest
    | .separator =>
      if leading then .error (.unknownArgument argument)
      else do return (← rest.foldlM (addWord kinds) a, [])
    | named =>
      match option? kinds named with
      | some kind =>
        match ownValue? named with
        | some value => do read kinds leading (← a.addValue kind value) rest
        | none =>
          match rest with
          | [] => .error (.missingValue kind.name)
          | value :: after =>
            if isValue value then do read kinds leading (← a.addValue kind value) after
            else .error (.missingValue kind.name)
      | none =>
        match flag? kinds named with
        | some name => do read kinds leading (← a.addFlag name) rest
        | none =>
          if isHelp named then .error .help else .error (.unknownArgument argument)

end Arguments

end SyntaxGraph
