import SyntaxGraph.Proofs.Answers

/-!
# Requests that are answered alike

What of a request reaches its response. Two outcomes are the same to a client if they are one
answer, or two refusals with one response (`SameToClient`): the detail of an internal error is no
part of the response. Chains of steps keep outcomes the same (`SameToClient.bind`).

Bodies are `Alike` if neither has code, or if both have the same code, or both a code that is no
text, and name the same language. Languages are looked at in lower case, and nothing in place of a
language names the one that the configuration assumes. Whatever else a body holds is not looked at,
and of a path only what precedes its first question mark.

Main statement: `handle_eq_of_alike`.
-/

namespace SyntaxGraph

/-! ## Outcomes that a client cannot tell apart -/

/-- Two outcomes are one answer, or two refusals with one response. -/
inductive SameToClient {α : Type} : Except ApiError α → Except ApiError α → Prop
  | answer (a : α) : SameToClient (.ok a) (.ok a)
  | refusal {e e' : ApiError} (response : e.toResponse = e'.toResponse) :
      SameToClient (.error e) (.error e')

namespace SameToClient

variable {α β : Type} {x y : Except ApiError α}

theorem refl (x : Except ApiError α) : SameToClient x x := by
  cases x with
  | ok a => exact .answer a
  | error e => exact .refusal rfl

/-- Steps that go on in the same way end in the same way. -/
theorem bind {f g : α → Except ApiError β} (h : SameToClient x y)
    (step : ∀ a, SameToClient (f a) (g a)) : SameToClient (x >>= f) (y >>= g) := by
  cases h with
  | answer a => exact step a
  | refusal response => exact .refusal response

end SameToClient

/-- All internal errors have one response. -/
theorem ApiError.toResponse_internal (detail detail' : String) :
    (internal detail).toResponse = (internal detail').toResponse := rfl

/-! ## Bodies -/

namespace ParseRequest

/-- There is nothing in place of a language. -/
def Unnamed (language : Option Json) : Prop := language = none ∨ language = some .null

/-- The value is neither `null` nor a text. -/
def NoName (v : Json) : Prop := v ≠ .null ∧ ∀ s, v ≠ .string s

/-- What stands for the language in two bodies names the same one, or no language at all. -/
inductive SameLanguage (o : ApiOptions) : Option Json → Option Json → Prop
  | unnamed {a b : Option Json} : Unnamed a → Unnamed b → SameLanguage o a b
  | assumed {a : Option Json} {s : String} : Unnamed a →
      Text.lowercase s = Text.lowercase o.defaultLanguage → SameLanguage o a (some (.string s))
  | assumed' {a : Option Json} {s : String} : Unnamed a →
      Text.lowercase s = Text.lowercase o.defaultLanguage → SameLanguage o (some (.string s)) a
  | named {s t : String} : Text.lowercase s = Text.lowercase t →
      SameLanguage o (some (.string s)) (some (.string t))
  | noName {v w : Json} : NoName v → NoName w → SameLanguage o (some v) (some w)

/-- The code of two bodies is the same, or no text in both. -/
def SameCode (code code' : Json) : Prop :=
  code = code' ∨ (∀ s, code ≠ .string s) ∧ ∀ s, code' ≠ .string s

def NoCode (body : Option Json) : Prop :=
  ∀ members, body = some (.object members) → members.lookup "code" = none

/-- Two bodies ask for the same parse, or lack the same. -/
inductive Alike (o : ApiOptions) : Option Json → Option Json → Prop
  | noCode {a b : Option Json} : NoCode a → NoCode b → Alike o a b
  | code {members members' : List (String × Json)} {code code' : Json} :
      members.lookup "code" = some code → members'.lookup "code" = some code' →
      SameCode code code' →
      SameLanguage o (members.lookup "language") (members'.lookup "language") →
      Alike o (some (.object members)) (some (.object members'))

variable {o : ApiOptions}

theorem languageOf_of_unnamed {language : Option Json} (h : Unnamed language) :
    languageOf o language = .ok (Text.lowercase o.defaultLanguage) := by
  rcases h with rfl | rfl <;> rfl

theorem SameLanguage.sameToClient {a b : Option Json} (h : SameLanguage o a b) :
    SameToClient (languageOf o a) (languageOf o b) := by
  cases h with
  | unnamed ha hb =>
    rw [languageOf_of_unnamed ha, languageOf_of_unnamed hb]
    exact .answer _
  | assumed ha hs =>
    rw [languageOf_of_unnamed ha, languageOf, hs]
    exact .answer _
  | assumed' ha hs =>
    rw [languageOf_of_unnamed ha, languageOf, hs]
    exact .answer _
  | named hst =>
    rw [languageOf, languageOf, hst]
    exact .answer _
  | noName hv hw =>
    rw [languageOf_of_no_name hv.1 hv.2, languageOf_of_no_name hw.1 hw.2]
    exact .refusal (ApiError.toResponse_internal _ _)

theorem SameCode.sameToClient {code code' : Json} (h : SameCode code code') :
    SameToClient (codeOf code) (codeOf code') := by
  rcases h with rfl | ⟨hcode, hcode'⟩
  · exact .refl _
  · rw [codeOf_of_no_text hcode, codeOf_of_no_text hcode']
    exact .refusal (ApiError.toResponse_internal _ _)

/-- **Bodies that are alike are read to outcomes that a client cannot tell apart.** -/
theorem Alike.sameToClient {a b : Option Json} (h : Alike o a b) :
    SameToClient (ofBody o a) (ofBody o b) := by
  cases h with
  | noCode ha hb =>
    rw [ofBody_of_no_code ha, ofBody_of_no_code hb]
    exact .refl _
  | code hcode hcode' same language =>
    simp only [ofBody, members?, hcode, hcode']
    refine language.sameToClient.bind fun l => ?_
    split
    · exact same.sameToClient.bind fun _ => .refl _
    · exact .refl _

end ParseRequest

/-! ## Requests -/

namespace Router

variable {router : Router} {first second : Request}

/-- At every other route, the method and the route settle the response. -/
theorem handle_eq_of_other_route (method : first.method = second.method)
    (route : first.route = second.route)
    (other : ¬ (first.method = .post ∧ first.route = parseRoute)) :
    router.handle first = router.handle second := by
  have other' : ¬ (second.method = .post ∧ second.route = parseRoute) := by
    rwa [← method, ← route]
  rw [handle, handle, dispatch, dispatch, if_neg other, if_neg other', method, route]

/-- At the route of parses, the outcome of reading the body does. -/
theorem handle_eq_of_sameToClient (post : first.method = .post) (post' : second.method = .post)
    (route : first.route = parseRoute) (route' : second.route = parseRoute)
    (same : SameToClient (ParseRequest.ofBody router.config.api first.body)
      (ParseRequest.ofBody router.config.api second.body)) :
    router.handle first = router.handle second := by
  rw [handle_of_route post route, handle_of_route post' route']
  generalize ParseRequest.ofBody router.config.api first.body = x at same ⊢
  generalize ParseRequest.ofBody router.config.api second.body = y at same ⊢
  cases same with
  | answer => rfl
  | refusal response => exact response

end Router

/-- **What of a request reaches its response.** Two requests with one method, whose paths agree up
to the first question mark, have the same response, whatever their bodies are; at the route of
parses, if their bodies are alike. -/
theorem handle_eq_of_alike (router : Router) (place : String) (first second : Request)
    (method : first.method = second.method) (hfirst : first.StandsAt place)
    (hsecond : second.StandsAt place)
    (alike : first.method = .post → place = "/api/parse" →
      ParseRequest.Alike router.config.api first.body second.body) :
    router.handle first = router.handle second := by
  have hroute := hfirst.route
  have hroute' := hsecond.route
  by_cases hparse : first.method = .post ∧ place = "/api/parse"
  · obtain ⟨post, rfl⟩ := hparse
    exact Router.handle_eq_of_sameToClient post (method ▸ post) hroute hroute'
      (alike post rfl).sameToClient
  · refine Router.handle_eq_of_other_route method (hroute.trans hroute'.symm) ?_
    rwa [hroute]

/-- A request for a parse whose code is no text and which names no language. -/
def unnamedRequest : Request where
  method := .post
  path := "/api/parse"
  body := some (.object [("code", .array [.int 1])])

/-- The same with a query, other code, a language in capitals and a key that nobody asked for. -/
def shoutedRequest : Request where
  method := .post
  path := "/api/parse?trace=1?"
  body := some (.object [("secret", .string "x"), ("language", .string "PYTHON"),
    ("code", .bool true)])

theorem handle_eq_of_alike_shouted :
    ParseRequest.Alike idleRouter.config.api unnamedRequest.body shoutedRequest.body ∧
    idleRouter.handle unnamedRequest = idleRouter.handle shoutedRequest := by
  have same : ParseRequest.SameCode (.array [.int 1]) (.bool true) := .inr ⟨nofun, nofun⟩
  have alike : ParseRequest.Alike idleRouter.config.api unnamedRequest.body shoutedRequest.body :=
    .code rfl rfl same (.assumed (.inl rfl) (by decide))
  exact ⟨alike, handle_eq_of_alike idleRouter "/api/parse" unnamedRequest shoutedRequest rfl
    ⟨by decide, .inl rfl⟩ ⟨by decide, .inr ⟨"trace=1?", by decide⟩⟩ fun _ _ => alike⟩

end SyntaxGraph
