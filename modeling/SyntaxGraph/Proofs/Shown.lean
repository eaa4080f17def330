import SyntaxGraph.Command.Run
import SyntaxGraph.Proofs.ReportScalars

/-!
# What outcomes show

A run that does not fail shows a report, a response or the examples. An outcome shows one of these
if its output can be read as such: the output is a text with a line feed, behind a line with the
status in the case of a response, and the text denotes the JSON form of what is shown. The layout of
the text is left open, so two outcomes can show the same.

A text denotes a report only as far as the report is exact. With a parser of Python sources all
reports are, and so is everything else that is shown (`showsExactly_pythonParser`).
-/

namespace SyntaxGraph

/-- What a run shows. -/
inductive Shown where
  | report (report : ParseReport)
  | response (response : Response)
  | examples

/-- The outcome shows this, and nothing on the error output. The text is always one of the value as
it is written; what it denotes is said where no number is rounded. -/
inductive Outcome.Shows : Outcome → Shown → Prop
  | report {text : String} {r : ParseReport}
      (written : Json.Written.ofText text = .ok r.toJson.written)
      (reads : r.IsExact → Json.ReadsAs ParseReport.ofJson? text r) :
      Shows ⟨if r.success then 0 else 1, text ++ "\n", ""⟩ (.report r)
  | response {text : String} {r : Response}
      (written : Json.Written.ofText text = .ok r.body.written)
      (denotes : r.body.IsWhole → Json.Denotes text r.body) :
      Shows ⟨0, toString r.status ++ "\n" ++ text ++ "\n", ""⟩ (.response r)
  | examples {text : String}
      (denotes : Json.Denotes text
        (.object (exampleSnippets.entries.map fun e => (e.1, .string e.2)))) :
      Shows ⟨0, text ++ "\n", ""⟩ .examples

/-! ## Layouts -/

section

variable (pretty : Bool) (value : Json)

theorem ofText_layout : Json.Written.ofText (if pretty then value.pretty else value.compact) =
    .ok value.written := by
  cases pretty with
  | true => exact value.ofText_layouts.2
  | false => exact value.ofText_layouts.1

variable {value}

theorem denotes_layout (whole : value.IsWhole) :
    Json.Denotes (if pretty then value.pretty else value.compact) value.sortKeys := by
  cases pretty with
  | true => exact (Json.denotes_layouts whole).2
  | false => exact (Json.denotes_layouts whole).1

end

theorem ParseReport.shows_outcome (r : ParseReport) (pretty : Bool) :
    (r.outcome pretty).Shows (.report r) := by
  refine .report (ofText_layout pretty r.toJson) fun exact => ?_
  cases pretty with
  | true => exact exact.readsAs_layouts.2
  | false => exact exact.readsAs_layouts.1

/-- A response is shown if its body is in key order. -/
theorem Response.shows_outcome {r : Response} (sorted : r.body.sortKeys = r.body) (pretty : Bool) :
    (r.outcome pretty).Shows (.response r) := by
  rw [Response.outcome, jsonLine, ← String.append_assoc]
  refine .response (ofText_layout pretty r.body) fun whole => ?_
  have hdenotes := denotes_layout pretty whole
  rwa [sorted] at hdenotes

theorem isWhole_exampleObject : exampleObject.IsWhole := by
  rw [exampleObject, Json.isWhole_object, List.forall_mem_map]
  exact fun e _ => Json.isWhole_string e.2

theorem sortKeys_exampleObject : exampleObject.sortKeys = exampleObject := by
  have hentries : SortedMap.ofList
      (exampleSnippets.entries.map fun e => (e.1, Json.string e.2)) =
        ⟨exampleSnippets.entries.map fun e => (e.1, .string e.2),
          List.pairwise_map.2 exampleSnippets.sorted⟩ :=
    SortedMap.ofList_eq_of_perm (.refl _)
  rw [exampleObject, Json.sortKeys, Json.sortKeysMembers_eq, List.map_map]
  exact congrArg (fun m : SortedMap Json => Json.object m.entries) hentries

theorem shows_examples (pretty : Bool) :
    Outcome.Shows ⟨0, jsonLine pretty exampleObject, ""⟩ .examples := by
  have hdenotes := denotes_layout pretty isWhole_exampleObject
  rw [sortKeys_exampleObject] at hdenotes
  exact .examples hdenotes

/-! ## Responses -/

namespace Router

variable (router : Router) (request : Request)

/-- A response is a report in key order, the examples, the sign of life or a refusal. -/
theorem handle_cases :
    (∃ r, ParseRequest.ofBody router.config.api request.body = .ok r ∧
      router.handle request = .ok (router.report r.code).toJson) ∨
    router.handle request = .ok exampleObject ∨ router.handle request = .ok healthBody ∨
    ∃ e : ApiError, router.handle request = e.toResponse := by
  rw [handle, dispatch]
  split_ifs
  · rw [Router.parse]
    cases ParseRequest.ofBody router.config.api request.body with
    | ok r => exact .inl ⟨r, rfl, rfl⟩
    | error e => exact .inr (.inr (.inr ⟨e, rfl⟩))
  · exact .inr (.inl rfl)
  · exact .inr (.inr (.inl rfl))
  · exact .inr (.inr (.inr ⟨.notFound, rfl⟩))

theorem sortKeys_body : (router.handle request).body.sortKeys = (router.handle request).body := by
  rcases router.handle_cases request with ⟨r, -, h⟩ | h | h | ⟨e, h⟩ <;> rw [h]
  · exact Json.sortKeys_sortKeys _
  · exact Json.sortKeys_sortKeys _
  · exact Json.sortKeys_sortKeys _
  · rfl

/-- The body of a response is whole if the report in it is exact. -/
theorem isWhole_body (exact : ∀ r, ParseRequest.ofBody router.config.api request.body = .ok r →
    (router.report r.code).IsExact) : (router.handle request).body.IsWhole := by
  rcases router.handle_cases request with ⟨r, hr, h⟩ | h | h | ⟨e, h⟩ <;> rw [h]
  · exact (exact r hr).isWhole_toJson.sortKeys
  · exact isWhole_exampleObject.sortKeys
  · exact Json.IsWhole.sortKeys (Json.isWhole_object.2 (by simp [Json.isWhole_string]))
  · exact Json.isWhole_object.2 (by simp [Json.isWhole_string])

end Router

/-- With this parser, nothing is rounded in what is shown of sources that have few enough lines. -/
structure ShowsExactly (parser : TreeOptions → SourceParser) : Prop where
  report : ∀ options source, countLines source < UInt64.size →
    ((parser options).report source).IsExact
  response : ∀ config request,
    (∀ r, ParseRequest.ofBody config.api request.body = .ok r → countLines r.code < UInt64.size) →
      (Router.handle ⟨config, parser⟩ request).body.IsWhole

theorem showsExactly_pythonParser (tree? : String → Option SyntaxNode) :
    ShowsExactly (pythonParser tree?) where
  report options _ lines := isExact_pythonParser tree? options lines
  response config request lines := by
    refine Router.isWhole_body ⟨config, pythonParser tree?⟩ request fun r hr => ?_
    exact isExact_pythonParser tree? config.tree (lines r hr)

end SyntaxGraph
