import SyntaxGraph.Api.Response
import SyntaxGraph.Config.Basic
import SyntaxGraph.Json.Text
import SyntaxGraph.Text.Blank

/-!
# Parse requests

The body of a parse request is an object with a source text under `code` and maybe the name of
its language under `language`. What is wrong with a body is looked for in this order: there is
no code, the language is no name, it cannot be served, the code is no text, the code is blank.
-/

namespace SyntaxGraph

/-- A source text to parse, and its language in lower case. -/
structure ParseRequest where
  code : String
  language : String
  deriving DecidableEq, Repr

namespace ParseRequest

/-- The members of a body that is an object. -/
def members? : Option Json → Option (List (String × Json))
  | some (.object members) => some members
  | _ => none

/-- The refusal of a value that should be a text. -/
def notText (key : String) (value : Json) : ApiError :=
  .internal ("'" ++ key ++ "' must be a string, got " ++ value.sortKeys.compact)

/-- The language in lower case; without a name it is the assumed one. -/
def languageOf (o : ApiOptions) : Option Json → Except ApiError String
  | none | some .null => .ok (Text.lowercase o.defaultLanguage)
  | some (.string s) => .ok (Text.lowercase s)
  | some other => .error (notText "language" other)

/-- The code, if it is a text that is not blank. -/
def codeOf : Json → Except ApiError String
  | .string s => if (Text.trim s).isEmpty then .error .emptyCode else .ok s
  | other => .error (notText "code" other)

/-- The parse request of a body. -/
def ofBody (o : ApiOptions) (body : Option Json) : Except ApiError ParseRequest :=
  match members? body with
  | none => .error .missingCode
  | some members =>
    match members.lookup "code" with
    | none => .error .missingCode
    | some code => do
      let language ← languageOf o (members.lookup "language")
      if isSupportedLanguage language then return ⟨← codeOf code, language⟩
      else .error (.unsupportedLanguage language)

end ParseRequest

end SyntaxGraph
