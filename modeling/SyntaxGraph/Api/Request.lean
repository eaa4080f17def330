import SyntaxGraph.Json.Written

/-!
# Requests

A request names a method and a path. It has a body only if it came with one that is JSON.
-/

namespace SyntaxGraph

/-- What a request asks to be done. -/
inductive Method where
  | get
  | post
  | put
  | patch
  | delete
  | head
  | options
  deriving DecidableEq, Inhabited, Repr

/-- A name that is no method's, in upper case. -/
structure UnknownMethod where
  name : String
  deriving DecidableEq, Repr

/-- The text of the refusal. -/
def UnknownMethod.message (e : UnknownMethod) : String :=
  "unknown HTTP method '" ++ e.name ++ "'"

namespace Method

def all : List Method := [.get, .post, .put, .patch, .delete, .head, .options]

def name : Method → String
  | .get => "GET"
  | .post => "POST"
  | .put => "PUT"
  | .patch => "PATCH"
  | .delete => "DELETE"
  | .head => "HEAD"
  | .options => "OPTIONS"

/-- The method of a name; the case of ASCII letters does not count. -/
def ofName (s : String) : Except UnknownMethod Method :=
  let upper := s.map Char.toUpper
  match all.find? fun m => m.name = upper with
  | some m => .ok m
  | none => .error ⟨upper⟩

end Method

/-- A request. -/
structure Request where
  method : Method
  path : String
  body : Option Json := none
  deriving Inhabited

namespace Request

/-- The request with a body given as a text; a text that is not JSON is no body. -/
def withText (r : Request) (text : String) : Request :=
  { r with body := (Json.ofText text).toOption }

/-- The path up to its first question mark. -/
def route (r : Request) : String :=
  String.ofList (r.path.toList.takeWhile (· ≠ '?'))

end Request

end SyntaxGraph
