import SyntaxGraph.Config.Basic
import SyntaxGraph.Yaml.Document
import SyntaxGraph.Yaml.Plain
import SyntaxGraph.Yaml.Quoting

/-!
# Configurations as YAML texts

A configuration text is one mapping with a schema version and two sections. A section that is
missing or empty has its defaults; keys that are not known or stand twice are refused. Plain
scalars are read by the kind that is expected, so `true` is a truth value where one is expected
and a text where a text is.

Main statement: `ofYaml_eq_ok_iff`, a configuration is read exactly from the texts that give it.
-/

namespace SyntaxGraph

namespace Yaml

/-! ## Expected kinds -/

/-- The full name of a tag for a kind of scalar. -/
def coreTag (kind : String) : String := "tag:yaml.org,2002:" ++ kind

/-- The text of a scalar that may be read by its kind: a plain one, or a literal block with the
tag of the kind. -/
def kindText? (kind : String) : Node → Option String
  | .scalar tag style text =>
    if style = .plain || (style = .literal && tag = some (coreTag kind)) then some text else none
  | _ => none

namespace Document

def readBool (d : Document) (node : Node) : Except Fault Bool := do
  match (kindText? "bool" (← d.resolve node)).bind readBool? with
  | some b => return b
  | none => .error .mismatch

def readWord (d : Document) (node : Node) : Except Fault UInt32 := do
  match (kindText? "int" (← d.resolve node)).bind readNat? with
  | some n => if n < UInt32.size then return UInt32.ofNat n else .error .mismatch
  | none => .error .mismatch

/-- A text: any scalar. -/
def readText (d : Document) (node : Node) : Except Fault String := do
  match ← d.resolve node with
  | .scalar _ _ text => return text
  | _ => .error .mismatch

/-- A value that may be missing, or nothing. -/
def readOptional {α : Type} (d : Document) (read : Node → Except Fault α) :
    Option Node → Except Fault (Option α)
  | none => .ok none
  | some node => do
    match ← d.resolve node with
    | .scalar tag .plain text =>
      if tag = some (coreTag "null") then
        if isNull text then return none else .error .mismatch
      else if tag.isNone && (text.isEmpty || isNull text) then return none
      else return some (← read (.scalar tag .plain text))
    | resolved => return some (← read resolved)

/-- The texts of keys with their values, after those already read. -/
def readKeys (d : Document) (known : List String) (done : List (String × Node)) :
    List (Node × Node) → Except Fault (List (String × Node))
  | [] => .ok done
  | (key, value) :: rest => do
    let text ← d.readText key
    if !known.contains text then .error (.unknownKey text)
    else if (done.lookup text).isSome then .error (.repeatedKey text)
    else d.readKeys known ((text, value) :: done) rest

/-- The values of a mapping with known keys. Where nothing is written, the mapping is empty. -/
def readMapping (d : Document) (known : List String) (node : Node) :
    Except Fault (List (String × Node)) := do
  match ← d.resolve node with
  | .mapping entries => d.readKeys known [] entries
  | .scalar _ .plain text => if text.isEmpty then .ok [] else .error .mismatch
  | _ => .error .mismatch

/-- The value of a key, or its default. -/
def readDefault {α : Type} (read : Node → Except Fault α) (default : α) :
    Option Node → Except Fault α
  | none => .ok default
  | some node => read node

end Document

end Yaml

/-! ## Reading -/

open Yaml in
/-- Tree options from their section. -/
def TreeOptions.ofNode (d : Document) (node : Node) : Except Fault TreeOptions := do
  let values ← d.readMapping ["include_positions", "include_leaf_text", "include_comments"] node
  let base : TreeOptions := {}
  let flag (key : String) (default : Bool) :=
    Document.readDefault d.readBool default (values.lookup key)
  return {
    includePositions := ← flag "include_positions" base.includePositions
    includeLeafText := ← flag "include_leaf_text" base.includeLeafText
    includeComments := ← flag "include_comments" base.includeComments }

open Yaml in
/-- Request options from their section. -/
def ApiOptions.ofNode (d : Document) (node : Node) : Except Fault ApiOptions := do
  let values ← d.readMapping ["default_language", "examples_enabled"] node
  let base : ApiOptions := {}
  return {
    defaultLanguage := ← Document.readDefault d.readText base.defaultLanguage
      (values.lookup "default_language")
    examplesEnabled := ← Document.readDefault d.readBool base.examplesEnabled
      (values.lookup "examples_enabled") }

namespace Config

/-- What a configuration text holds. -/
structure Sections where
  version : Option UInt32 := none
  tree : Option TreeOptions := none
  api : Option ApiOptions := none

open Yaml in
/-- The sections of a text. A text without a document has none. -/
def Sections.ofDocument (d : Document) : Except Fault Sections := do
  match d.root with
  | none => return {}
  | some root =>
    let values ← d.readMapping ["version", "converter", "api"] root
    return {
      version := ← d.readOptional d.readWord (values.lookup "version")
      tree := ← d.readOptional (TreeOptions.ofNode d) (values.lookup "converter")
      api := ← d.readOptional (ApiOptions.ofNode d) (values.lookup "api") }

/-- The schema versions that can be read. -/
def supportedVersions : List UInt32 := [1]

/-- The configuration of the sections. -/
def ofSections (s : Sections) : Except ConfigError Config :=
  match s.version with
  | none => .error .missingVersion
  | some version =>
    if supportedVersions.contains version then
      let c : Config := ⟨s.tree.getD {}, s.api.getD {}⟩
      match c.validate with
      | .ok () => .ok c
      | .error e => .error e
    else .error (.unsupportedVersion version supportedVersions)

/-- The configuration of a text. -/
def ofYaml (s : String) : Except ConfigError Config :=
  match Yaml.Document.ofText s >>= Sections.ofDocument with
  | .ok sections => ofSections sections
  | .error fault => .error (.yaml fault.message)

/-- The text gives this configuration. It has the version that can be read, a section that is
missing from it has its defaults, and the language to assume can be served. -/
structure IsGivenBy (c : Config) (text : String) : Prop where
  sections : ∃ s, Yaml.Document.ofText text >>= Sections.ofDocument = .ok s ∧
    s.version = some 1 ∧ c = ⟨s.tree.getD {}, s.api.getD {}⟩
  serves : Text.lowercase c.api.defaultLanguage ∈ supportedLanguages

section

variable {c : Config} {text : String}

theorem ofSections_eq_ok_iff {s : Sections} :
    ofSections s = .ok c ↔ s.version = some 1 ∧ c = ⟨s.tree.getD {}, s.api.getD {}⟩ ∧
      Text.lowercase c.api.defaultLanguage ∈ supportedLanguages := by
  rw [ofSections]
  cases s.version with
  | none => simp
  | some version =>
    dsimp only
    rw [Option.some.injEq]
    split
    · rename_i hsupported
      have hversion : version = 1 := List.mem_singleton.1 (List.contains_iff_mem.1 hsupported)
      rw [and_iff_right hversion]
      cases hvalid : validate ⟨s.tree.getD {}, s.api.getD {}⟩ with
      | ok =>
        have hserves := validate_eq_ok_iff.1 hvalid
        constructor
        · intro heq
          cases heq
          exact ⟨rfl, hserves⟩
        · rintro ⟨rfl, -⟩
          rfl
      | error e =>
        constructor
        · intro heq
          cases heq
        · rintro ⟨rfl, hserves⟩
          cases hvalid.symm.trans (validate_eq_ok_iff.2 hserves)
    · rename_i hother
      constructor
      · intro heq
        cases heq
      · rintro ⟨rfl, -⟩
        exact absurd rfl hother

/-- A configuration is read exactly from the texts that give it. -/
theorem ofYaml_eq_ok_iff : ofYaml text = .ok c ↔ c.IsGivenBy text := by
  rw [ofYaml]
  cases hsections : Yaml.Document.ofText text >>= Sections.ofDocument with
  | ok s =>
    refine ofSections_eq_ok_iff.trans ⟨?_, ?_⟩
    · rintro ⟨hversion, hc, hserves⟩
      exact ⟨⟨s, hsections, hversion, hc⟩, hserves⟩
    · rintro ⟨⟨s', hs', hversion, hc⟩, hserves⟩
      cases hsections.symm.trans hs'
      exact ⟨hversion, hc, hserves⟩
  | error fault =>
    constructor
    · intro h
      cases h
    · rintro ⟨⟨s, hs, -⟩, -⟩
      cases hsections.symm.trans hs

end

/-! ## Writing -/

def boolText (b : Bool) : String := if b then "true" else "false"

/-- The text of a configuration, with every key. -/
def toYaml (c : Config) : String :=
  "version: 1\n"
    ++ "converter:\n"
    ++ "  include_positions: " ++ boolText c.tree.includePositions ++ "\n"
    ++ "  include_leaf_text: " ++ boolText c.tree.includeLeafText ++ "\n"
    ++ "  include_comments: " ++ boolText c.tree.includeComments ++ "\n"
    ++ "api:\n"
    ++ "  default_language: " ++ Yaml.writeText 4 2 c.api.defaultLanguage
    ++ "  examples_enabled: " ++ boolText c.api.examplesEnabled ++ "\n"

end Config

end SyntaxGraph
