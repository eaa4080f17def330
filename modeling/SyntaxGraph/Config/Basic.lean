import SyntaxGraph.Config.Error
import SyntaxGraph.Text.Lowercase
import SyntaxGraph.TreeOptions

/-!
# Configurations

What trees carry and how requests are answered. Every value has a default. A configuration is
*valid* when the language that it assumes is one that can be served; letter case does not count.
-/

namespace SyntaxGraph

/-- How requests are answered. -/
structure ApiOptions where
  /-- the language of a parse request that names none -/
  defaultLanguage : String := "python"
  /-- the example snippets are served -/
  examplesEnabled : Bool := true
  deriving DecidableEq, Repr

instance : Inhabited ApiOptions := ⟨{}⟩

/-- A configuration. -/
structure Config where
  tree : TreeOptions := {}
  api : ApiOptions := {}
  deriving DecidableEq, Repr

instance : Inhabited Config := ⟨{}⟩

/-- The languages that can be served. -/
def supportedLanguages : List String := ["python"]

/-- A language can be served, in whatever case it is written. -/
def isSupportedLanguage (language : String) : Bool :=
  supportedLanguages.contains (Text.lowercase language)

theorem isSupportedLanguage_iff (s : String) :
    isSupportedLanguage s = true ↔ Text.lowercase s ∈ supportedLanguages := by
  rw [isSupportedLanguage, List.contains_iff_mem]

/-- Refuse a configuration that is not valid. -/
def Config.validate (c : Config) : Except ConfigError Unit :=
  if isSupportedLanguage c.api.defaultLanguage then .ok ()
  else .error (.invalid "api.default_language"
    ("'" ++ c.api.defaultLanguage ++ "' is not one of: " ++ ", ".intercalate supportedLanguages))

theorem Config.validate_eq_ok_iff {c : Config} :
    c.validate = .ok () ↔ Text.lowercase c.api.defaultLanguage ∈ supportedLanguages := by
  rw [← isSupportedLanguage_iff, Config.validate]
  split
  · exact iff_of_true rfl ‹_›
  · exact iff_of_false nofun ‹_›

end SyntaxGraph
