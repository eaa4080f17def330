import SyntaxGraph.Api.Examples
import SyntaxGraph.Api.ParseRequest
import SyntaxGraph.Api.Request
import SyntaxGraph.Wire.Report

/-!
# Answering requests

A router has a configuration and a parser for every choice of tree options. It answers three
routes: a parse, the examples unless they are switched off, and a sign of life. Everything else
is not found. Every request has a response.
-/

namespace SyntaxGraph

/-- What answers requests. -/
structure Router where
  config : Config
  /-- the parser that gives trees with these options -/
  parser : TreeOptions → SourceParser

namespace Router

/-- The route of parse requests. -/
def parseRoute : String := "/api/parse"

def examplesRoute : String := "/api/examples"

def healthRoute : String := "/api/health"

def healthBody : Json :=
  .object [("status", .string "ok"), ("message", .string "Parser Visualizer Backend is running")]

/-- Parse a source with the configured tree options. -/
def report (router : Router) (source : String) : ParseReport :=
  (router.parser router.config.tree).report source

/-- Answer a parse request. A source at fault is reported, not refused. -/
def parse (router : Router) (body : Option Json) : Except ApiError Response := do
  let request ← ParseRequest.ofBody router.config.api body
  return .ok (router.report request.code).toJson

/-- Find what answers a request. -/
def dispatch (router : Router) (request : Request) : Except ApiError Response :=
  if request.method = .post ∧ request.route = parseRoute then router.parse request.body
  else if request.method = .get ∧ request.route = examplesRoute
      ∧ router.config.api.examplesEnabled then
    .ok (.ok exampleObject)
  else if request.method = .get ∧ request.route = healthRoute then .ok (.ok healthBody)
  else .error .notFound

def handle (router : Router) (request : Request) : Response :=
  match router.dispatch request with
  | .ok response => response
  | .error e => e.toResponse

end Router

end SyntaxGraph
