/-!
# Failures of reading

A file or standard input is read as a UTF-8 text. `TextSource` is what such a reading answers.
-/

namespace SyntaxGraph

/-- Why a text could not be read. -/
inductive IoError where
  | notFound
  /-- the bytes are not UTF-8 -/
  | notUtf8
  /-- any other failure, in the words of the system -/
  | other (message : String)
  deriving DecidableEq, Inhabited, Repr

def IoError.message : IoError → String
  | .notFound => "No such file or directory (os error 2)"
  | .notUtf8 => "stream did not contain valid UTF-8"
  | .other message => message

/-- The bytes of a file or stream as a text. -/
def decodeUtf8 (bytes : ByteArray) : Except IoError String :=
  match String.fromUTF8? bytes with
  | some text => .ok text
  | none => .error .notUtf8

/-- Bytes are a text exactly if they are its UTF-8 form. -/
theorem decodeUtf8_eq_ok_iff {bytes : ByteArray} {text : String} :
    decodeUtf8 bytes = .ok text ↔ bytes = text.toUTF8 := by
  by_cases hvalid : bytes.IsValidUTF8
  · have hread : String.fromUTF8? bytes = some (String.fromUTF8 bytes hvalid) := dif_pos hvalid
    rw [decodeUtf8, hread]
    constructor
    · intro h
      cases h
      rfl
    · rintro rfl
      rfl
  · have hread : String.fromUTF8? bytes = none := dif_neg hvalid
    rw [decodeUtf8, hread]
    constructor
    · intro h
      cases h
    · rintro rfl
      exact absurd text.isValidUTF8 hvalid

end SyntaxGraph
