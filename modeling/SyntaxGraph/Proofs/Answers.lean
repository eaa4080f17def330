import Mathlib.Data.List.TakeWhile
import SyntaxGraph.Api.Router
import SyntaxGraph.Config.Yaml
import SyntaxGraph.Proofs.Lowercasing
import SyntaxGraph.Proofs.ReportScalars

/-!
# The contract of parse requests

A parse request is looked at in a fixed order: is there code, is the language a name, can it be
served, is the code a text, is it blank. The first thing wrong settles the answer; if nothing is
wrong the source is parsed, and its report is the answer, whether or not the parse succeeded.

A configuration is refused when it is loaded, if its language cannot be served, and a request that
names no language is served in that language. The two agree because both look at the language in
lower case, and a name in lower case does not change when it is lowercased again.

Main statement: `parse_contract`.
-/

namespace SyntaxGraph

/-! ## Blank texts -/

theorem Text.trim_isEmpty_iff (s : String) :
    (Text.trim s).isEmpty = true ↔ ∀ c ∈ s.toList, Text.isBlank c = true := by
  have htrim : (Text.trim s).isEmpty = true ↔
      ∀ c ∈ s.toList.dropWhile Text.isBlank, Text.isBlank c = true := by
    rw [Text.trim, String.isEmpty_iff, String.ofList_eq_empty_iff, List.reverse_eq_nil_iff,
      List.dropWhile_eq_nil_iff]
    simp only [List.mem_reverse]
  rw [htrim]
  constructor
  · intro h c hc
    rw [← List.takeWhile_append_dropWhile (p := Text.isBlank) (l := s.toList),
      List.mem_append] at hc
    rcases hc with hc | hc
    · exact List.mem_takeWhile_imp hc
    · exact h c hc
  · exact fun h c hc => h c ((List.dropWhile_sublist _).mem hc)

/-! ## Languages -/

theorem isSupportedLanguage_lowercase (s : String) :
    isSupportedLanguage (Text.lowercase s) = isSupportedLanguage s := by
  rw [isSupportedLanguage, isSupportedLanguage, Text.lowercase_lowercase]

/-- A configuration that is the default one or was read from a text. -/
def Config.Loaded (c : Config) : Prop := c = {} ∨ ∃ text, Config.ofYaml text = .ok c

theorem Config.Loaded.serves {c : Config} (h : c.Loaded) :
    isSupportedLanguage c.api.defaultLanguage = true := by
  rcases h with rfl | ⟨text, h⟩
  · decide
  · exact (isSupportedLanguage_iff _).2 (Config.ofYaml_eq_ok_iff.1 h).serves

/-! ## Requests for a parse -/

/-- The path of the request is the place, or the place and a query. -/
structure Request.StandsAt (request : Request) (place : String) : Prop where
  noQuery : '?' ∉ place.toList
  path : request.path = place ∨ ∃ query, request.path = place ++ "?" ++ query

theorem Request.StandsAt.route {request : Request} {place : String} (h : request.StandsAt place) :
    request.route = place := by
  have hplace : ∀ c ∈ place.toList, decide (c ≠ '?') = true := by
    intro c hc
    refine decide_eq_true fun heq => h.noQuery ?_
    rwa [heq] at hc
  rw [Request.route]
  rcases h.path with hpath | ⟨query, hpath⟩
  · rw [hpath, List.takeWhile_eq_self_iff.2 hplace, String.ofList_toList]
  · have hlist : request.path.toList = place.toList ++ '?' :: query.toList := by
      rw [hpath, String.toList_append, String.toList_append, List.append_assoc]
      rfl
    rw [hlist, List.takeWhile_append_of_pos hplace, List.takeWhile_cons_of_neg (by simp),
      List.append_nil, String.ofList_toList]

/-- The request is one for a parse: its path is the route, or the route and a query. -/
structure Request.AsksForParse (request : Request) : Prop where
  post : request.method = .post
  path : request.path = "/api/parse" ∨ ∃ query, request.path = "/api/parse?" ++ query

theorem Request.AsksForParse.route {request : Request} (h : request.AsksForParse) :
    request.route = Router.parseRoute :=
  StandsAt.route ⟨by decide, h.path⟩

namespace Router

variable {router : Router} {request : Request}

/-- The response of a refusal: a status and a text. -/
def refusal (status : Nat) (text : String) : Response := ⟨status, .object [("error", .string text)]⟩

theorem handle_of_route (post : request.method = .post) (route : request.route = parseRoute) :
    router.handle request =
      match ParseRequest.ofBody router.config.api request.body with
      | .ok r => .ok (router.report r.code).toJson
      | .error e => e.toResponse := by
  rw [handle, dispatch, if_pos ⟨post, route⟩, Router.parse]
  cases ParseRequest.ofBody router.config.api request.body <;> rfl

theorem handle_of_asksForParse (asks : request.AsksForParse) :
    router.handle request =
      match ParseRequest.ofBody router.config.api request.body with
      | .ok r => .ok (router.report r.code).toJson
      | .error e => e.toResponse :=
  handle_of_route asks.post asks.route

end Router

/-! ## Bodies -/

namespace ParseRequest

variable {o : ApiOptions} {body : Option Json} {members : List (String × Json)} {code : Json}

theorem ofBody_of_no_code
    (h : ∀ members, body = some (.object members) → members.lookup "code" = none) :
    ofBody o body = .error .missingCode := by
  rw [ofBody]
  cases hmembers : members? body with
  | none => rfl
  | some members =>
    have hbody : body = some (.object members) := by
      unfold members? at hmembers
      split at hmembers
      · cases hmembers
        rfl
      · cases hmembers
    simp only [h members hbody]

/-- With code in it, a body is refused for its language before the code is looked at. -/
theorem ofBody_of_code (hbody : body = some (.object members))
    (hcode : members.lookup "code" = some code) :
    ofBody o body =
      match languageOf o (members.lookup "language") with
      | .error e => .error e
      | .ok language =>
        if isSupportedLanguage language then (codeOf code).map (⟨·, language⟩)
        else .error (.unsupportedLanguage language) := by
  subst hbody
  rw [ofBody, members?]
  simp only [hcode]
  cases languageOf o (members.lookup "language") with
  | error e => rfl
  | ok language =>
    show (if isSupportedLanguage language = true then _ else _) = _
    cases codeOf code <;> rfl

/-- What stands for the language can be served: nothing, or a name that can. -/
def Serves (language : Option Json) : Prop :=
  language = none ∨ language = some .null ∨
    ∃ s, language = some (.string s) ∧ Text.lowercase s ∈ supportedLanguages

/-- A language that can be served is not refused: nothing stands for a default that can be. -/
theorem languageOf_of_serves {language : Option Json}
    (default : isSupportedLanguage o.defaultLanguage = true) (h : Serves language) :
    ∃ l, languageOf o language = .ok l ∧ isSupportedLanguage l = true := by
  rcases h with rfl | rfl | ⟨s, rfl, hs⟩
  · exact ⟨_, rfl, (isSupportedLanguage_lowercase _).trans default⟩
  · exact ⟨_, rfl, (isSupportedLanguage_lowercase _).trans default⟩
  · exact ⟨_, rfl, (isSupportedLanguage_lowercase s).trans ((isSupportedLanguage_iff s).2 hs)⟩

theorem ofBody_of_serves (default : isSupportedLanguage o.defaultLanguage = true)
    (hbody : body = some (.object members)) (hcode : members.lookup "code" = some code)
    (h : Serves (members.lookup "language")) :
    ∃ l, ofBody o body = (codeOf code).map (⟨·, l⟩) := by
  obtain ⟨l, hl, hserved⟩ := languageOf_of_serves default h
  refine ⟨l, ?_⟩
  simp only [ofBody_of_code hbody hcode, hl, if_pos hserved]

theorem languageOf_of_no_name {v : Json} (hnull : v ≠ .null) (htext : ∀ s, v ≠ .string s) :
    languageOf o (some v) = .error (notText "language" v) := by
  cases v with
  | null => exact absurd rfl hnull
  | string s => exact absurd rfl (htext s)
  | _ => rfl

/-- A name that is none of a language that can be served is given back in lower case. -/
theorem ofBody_of_unserved {s : String} (hbody : body = some (.object members))
    (hcode : members.lookup "code" = some code)
    (hs : members.lookup "language" = some (.string s))
    (unserved : Text.lowercase s ∉ supportedLanguages) :
    ofBody o body = .error (.unsupportedLanguage (Text.lowercase s)) := by
  have hno : ¬ isSupportedLanguage (Text.lowercase s) = true := by
    rwa [isSupportedLanguage_lowercase, isSupportedLanguage_iff]
  simp only [ofBody_of_code hbody hcode, hs, languageOf, if_neg hno]

theorem codeOf_of_no_text (htext : ∀ s, code ≠ .string s) :
    codeOf code = .error (notText "code" code) := by
  cases code with
  | string s => exact absurd rfl (htext s)
  | _ => rfl

theorem codeOf_of_blank {s : String} (blank : ∀ c ∈ s.toList, Text.isBlank c = true) :
    codeOf (.string s) = .error .emptyCode := by
  rw [codeOf, if_pos ((Text.trim_isEmpty_iff s).2 blank)]

theorem codeOf_of_not_blank {s : String} (h : ∃ c ∈ s.toList, Text.isBlank c = false) :
    codeOf (.string s) = .ok s := by
  obtain ⟨c, hc, hblank⟩ := h
  rw [codeOf, if_neg]
  intro hempty
  rw [(Text.trim_isEmpty_iff s).1 hempty c hc] at hblank
  cases hblank

end ParseRequest

/-- Where the language can be served, the answer is the report of the code, or what is wrong with
the code. -/
theorem Router.handle_of_serves {router : Router} {request : Request}
    (default : isSupportedLanguage router.config.api.defaultLanguage = true)
    (asks : request.AsksForParse) {members : List (String × Json)} {code : Json}
    (hbody : request.body = some (.object members)) (hcode : members.lookup "code" = some code)
    (serves : ParseRequest.Serves (members.lookup "language")) :
    router.handle request =
      match ParseRequest.codeOf code with
      | .ok source => ⟨200, (router.report source).toJson.sortKeys⟩
      | .error e => e.toResponse := by
  obtain ⟨l, hl⟩ := ParseRequest.ofBody_of_serves default hbody hcode serves
  rw [handle_of_asksForParse asks, hl]
  cases ParseRequest.codeOf code <;> rfl

/-- No answer about the code is one about the language. -/
theorem ParseRequest.toResponse_ne_of_codeOf {code : Json} {e : ApiError}
    (h : codeOf code = .error e) (s : String) :
    e.toResponse ≠ Router.refusal 400 ("Language '" ++ s ++ "' not yet supported") := by
  intro heq
  unfold codeOf at h
  split at h
  · split at h
    · cases h
      have htext : "Code cannot be empty" = "Language '" ++ s ++ "' not yet supported" := by
        simpa [ApiError.toResponse, ApiError.message, Router.refusal] using
          congrArg Response.body heq
      have hlist := congrArg (fun t : String => t.toList.head?) htext
      simp [String.toList_append] at hlist
    · cases h
  · cases h
    have hstatus : (500 : Nat) = 400 := congrArg Response.status heq
    omega

/-! ## The contract -/

/-- The response hands out the report: its body is the JSON form of the report in key order. It has
all keys of a report, and the report is read back from it, if its floats are finite. -/
structure Response.HandsOut (response : Response) (report : ParseReport) : Prop where
  eq : response = ⟨200, report.toJson.sortKeys⟩
  keys : ∃ members, response.body = .object members ∧
    (members.map (·.1)).Perm ["success", "tree", "error", "lines", "flattened"]
  reads : report.lines < UInt64.size → AllFinite report.scalars →
    ParseReport.ofJson? response.body = some report

theorem Response.handsOut (report : ParseReport) :
    Response.HandsOut ⟨200, report.toJson.sortKeys⟩ report where
  eq := rfl
  keys := Json.exists_sortKeys_object (by simp)
  reads := ParseReport.ofJson?_rearranged Json.rearranges_sortKeys

/-- **The contract of parse requests**, for every configuration that is loaded. The first of these
settles the answer: there is no code; the language is neither missing, `null` nor a text; it is a
text that is not the name of a language that can be served; the code is no text; it is blank.
Otherwise the answer hands out the report of the source, whose floats are finite if it is one of
Python. So a request that names no language is not refused for it, as a configuration is loaded for
the same languages as are served, and from exactly the texts that give it. -/
theorem parse_contract (router : Router) (request : Request) (loaded : router.config.Loaded)
    (asks : request.AsksForParse) :
    let answer := router.handle request
    ((∀ members, request.body = some (.object members) → members.lookup "code" = none) →
      answer = Router.refusal 400 "Missing 'code' field") ∧
    (∀ members code, request.body = some (.object members) → members.lookup "code" = some code →
      (∀ v, members.lookup "language" = some v → v ≠ .null → (∀ s, v ≠ .string s) →
        answer = Router.refusal 500 "Internal server error") ∧
      (∀ s, members.lookup "language" = some (.string s) → Text.lowercase s ∉ supportedLanguages →
        answer = Router.refusal 400 ("Language '" ++ Text.lowercase s ++ "' not yet supported")) ∧
      (ParseRequest.Serves (members.lookup "language") →
        ((∀ s, code ≠ .string s) → answer = Router.refusal 500 "Internal server error") ∧
        ∀ source, code = .string source →
          ((∀ c ∈ source.toList, Text.isBlank c = true) →
            answer = Router.refusal 400 "Code cannot be empty") ∧
          ((∃ c ∈ source.toList, Text.isBlank c = false) →
            answer.HandsOut ((router.parser router.config.tree).report source))) ∧
      (members.lookup "language" = none ∨ members.lookup "language" = some .null →
        ∀ s, answer ≠ Router.refusal 400 ("Language '" ++ s ++ "' not yet supported"))) ∧
    (∀ c : Config, c.validate = .ok () ↔
      Text.lowercase c.api.defaultLanguage ∈ supportedLanguages) ∧
    (∀ text (c : Config), Config.ofYaml text = .ok c ↔ c.IsGivenBy text) ∧
    ∀ tree? options source,
      AllFinite ((pythonParser tree? options).report source).scalars := by
  intro answer
  have default := loaded.serves
  have hanswer : answer = _ := Router.handle_of_asksForParse asks
  refine ⟨fun h => ?_, fun members code hbody hcode => ⟨?_, ?_, ?_, ?_⟩,
    fun c => Config.validate_eq_ok_iff, fun text c => Config.ofYaml_eq_ok_iff,
    fun tree? options source => (noFloat_pythonParser tree? options source).allFinite⟩
  · rw [hanswer, ParseRequest.ofBody_of_no_code h]
    rfl
  · intro v hv hnull htext
    rw [hanswer, ParseRequest.ofBody_of_code hbody hcode, hv,
      ParseRequest.languageOf_of_no_name hnull htext]
    rfl
  · intro s hs hunserved
    rw [hanswer, ParseRequest.ofBody_of_unserved hbody hcode hs hunserved]
    rfl
  · intro serves
    have hcodes : answer = _ := Router.handle_of_serves default asks hbody hcode serves
    refine ⟨fun htext => ?_, fun source hsource => ⟨fun blank => ?_, fun h => ?_⟩⟩
    · rw [hcodes, ParseRequest.codeOf_of_no_text htext]
      rfl
    · rw [hcodes, hsource, ParseRequest.codeOf_of_blank blank]
      rfl
    · rw [hcodes, hsource, ParseRequest.codeOf_of_not_blank h]
      exact Response.handsOut _
  · intro hnone s
    have serves : ParseRequest.Serves (members.lookup "language") := hnone.imp_right .inl
    have hcodes : answer = _ := Router.handle_of_serves default asks hbody hcode serves
    rw [hcodes]
    cases hread : ParseRequest.codeOf code with
    | ok source =>
      intro heq
      have hstatus : (200 : Nat) = 400 := congrArg Response.status heq
      omega
    | error e => exact ParseRequest.toResponse_ne_of_codeOf hread s

/-- A router with the default configuration whose parser has no answer. -/
def idleRouter : Router where
  config := {}
  parser _ := ⟨"python", fun _ => .error .noTree⟩

/-- A request for a parse, with a query. -/
def queriedRequest (code language : Json) : Request where
  method := .post
  path := "/api/parse?trace=1"
  body := some (.object [("code", code), ("language", language)])

/-- A language in capitals is served; blank code and another language are refused. -/
theorem parse_contract_queried :
    let answer code language := idleRouter.handle (queriedRequest code language)
    idleRouter.config.Loaded ∧ (queriedRequest (.string " x") (.string "PYTHON")).AsksForParse ∧
    (answer (.string " x") (.string "PYTHON")).status = 200 ∧
    ParseReport.ofJson? (answer (.string " x") (.string "PYTHON")).body =
      some (idleRouter.report " x") ∧
    answer (.string "\t\u3000") .null = Router.refusal 400 "Code cannot be empty" ∧
    answer (.int 3) (.string "RUBY") =
      Router.refusal 400 "Language 'ruby' not yet supported" := by
  intro answer
  have loaded : idleRouter.config.Loaded := .inl rfl
  have hpath : "/api/parse?trace=1" = "/api/parse?" ++ "trace=1" := by decide
  have asks : ∀ code language, (queriedRequest code language).AsksForParse :=
    fun _ _ => ⟨rfl, .inr ⟨"trace=1", hpath⟩⟩
  have contract := fun code language =>
    (parse_contract idleRouter (queriedRequest code language) loaded
      (asks code language)).2.1 _ code rfl rfl
  have hserved := (contract (.string " x") (.string "PYTHON")).2.2.1
    (.inr (.inr ⟨"PYTHON", rfl, by decide⟩))
  have hanswer := (hserved.2 " x" rfl).2 ⟨'x', by decide, by decide⟩
  have hblank := (contract (.string "\t\u3000") .null).2.2.1 (.inr (.inl rfl))
  have hblanks : "\t\u3000".toList.all Text.isBlank = true := by decide
  have hother := (contract (.int 3) (.string "RUBY")).2.1 "RUBY" rfl (by decide)
  have hlower : Text.lowercase "RUBY" = "ruby" := by decide
  rw [hlower] at hother
  exact ⟨loaded, asks _ _, congrArg Response.status hanswer.eq, hanswer.reads (by decide) nofun,
    (hblank.2 _ rfl).1 (List.all_eq_true.1 hblanks), hother⟩

end SyntaxGraph
