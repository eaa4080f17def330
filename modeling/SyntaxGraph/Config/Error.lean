import SyntaxGraph.IoError

/-!
# Failures of a configuration
-/

namespace SyntaxGraph

/-- Why a configuration cannot be used. -/
inductive ConfigError where
  | missingVersion
  | unsupportedVersion (found : UInt32) (supported : List UInt32)
  /-- a value outside what can be served -/
  | invalid (field message : String)
  | io (cause : IoError)
  /-- the text is no YAML, or its values do not fit -/
  | yaml (detail : String)
  deriving DecidableEq, Inhabited, Repr

def ConfigError.message : ConfigError → String
  | .missingVersion =>
    "Missing 'version' field in configuration file. "
      ++ "Add 'version: 1' to the top of your YAML file."
  | .unsupportedVersion found supported =>
    "Unsupported configuration version " ++ toString found.toNat ++ ". Supported versions: "
      ++ ", ".intercalate (supported.map fun v => toString v.toNat)
  | .invalid field message => "Invalid value for '" ++ field ++ "': " ++ message
  | .io cause => "IO error: " ++ cause.message
  | .yaml detail => "YAML parsing error: " ++ detail

end SyntaxGraph
