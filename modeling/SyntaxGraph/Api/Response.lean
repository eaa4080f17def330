import SyntaxGraph.Json.Basic

/-!
# Responses and request errors

Every failure of a request has a status and a text that the client sees. The detail of an
internal error stays inside.
-/

namespace SyntaxGraph

/-- A status and a body. -/
structure Response where
  status : Nat
  body : Json
  deriving BEq, Inhabited

namespace Response

/-- The response of a request that was answered; its body has its keys in order. -/
def ok (body : Json) : Response := ⟨200, body.sortKeys⟩

def isSuccess (r : Response) : Bool := 200 ≤ r.status && r.status < 300

end Response

/-- Why a request is not answered. -/
inductive ApiError where
  /-- no body, no object, or no code in it -/
  | missingCode
  /-- the language in lower case -/
  | unsupportedLanguage (language : String)
  | emptyCode
  | notFound
  | internal (detail : String)
  deriving DecidableEq, Inhabited, Repr

namespace ApiError

def status : ApiError → Nat
  | .missingCode | .unsupportedLanguage _ | .emptyCode => 400
  | .notFound => 404
  | .internal _ => 500

def message : ApiError → String
  | .missingCode => "Missing 'code' field"
  | .unsupportedLanguage language => "Language '" ++ language ++ "' not yet supported"
  | .emptyCode => "Code cannot be empty"
  | .notFound => "Endpoint not found"
  | .internal _ => "Internal server error"

def toResponse (e : ApiError) : Response :=
  ⟨e.status, .object [("error", .string e.message)]⟩

end ApiError

end SyntaxGraph
