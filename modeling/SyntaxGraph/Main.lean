import SyntaxGraph.Command.Run
import SyntaxGraph.SyntaxNode.Rows

/-!
# The command line program

The program parses nothing itself: it looks the syntax tree of a source up in a table. The table
is a JSON file with the tables of sources as members; the environment variable `SYNTAX_TABLE`
names it. A source that the table does not list has no tree.
-/

open SyntaxGraph

/-- A reading that may fail. -/
def readText (read : IO ByteArray) : IO (Except IoError String) := do
  match ← read.toBaseIO with
  | .ok bytes => return decodeUtf8 bytes
  | .error (.noFileOrDirectory ..) => return .error .notFound
  | .error e => return .error (.other (toString e))

/-- The bytes of a stream up to its end, after those already read. -/
partial def readToEnd (stream : IO.FS.Stream) (done : ByteArray) : IO ByteArray := do
  let bytes ← stream.read 65536
  if bytes.isEmpty then return done else readToEnd stream (done ++ bytes)

/-- The files of the system and standard input. -/
def systemInputs : Inputs IO where
  file path := readText (IO.FS.readBinFile path)
  stdin := readText do readToEnd (← IO.getStdin) .empty

/-- The table of syntax trees. -/
def readTable : IO Json := do
  match ← IO.getEnv "SYNTAX_TABLE" with
  | none => return .null
  | some path =>
    match ← systemInputs.file path with
    | .ok text => return (Json.ofText text).toOption.getD .null
    | .error _ => return .null

/-- Run the command line of the process. -/
def main (arguments : List String) : IO UInt32 := do
  let table ← readTable
  let parser := pythonParser fun source => (table.get? source).bind SyntaxNode.ofJson?
  let outcome ← runCommandLine parser systemInputs arguments
  (← IO.getStdout).putStr outcome.output
  (← IO.getStderr).putStr outcome.errors
  return UInt32.ofNat outcome.status
