import SyntaxGraph.Json.Basic

/-!
# Example snippets

Short sources to try the parser on.
-/

namespace SyntaxGraph

/-- Lines, each with its end. -/
def textOfLines (lines : List String) : String :=
  lines.foldl (fun text line => text ++ line ++ "\n") ""

/-- The example sources by name. -/
def exampleSnippets : SortedMap String := .ofList [
  ("hello_world", "print(\"Hello, World!\")"),
  ("function", textOfLines [
    "def greet(name):",
    "    return f\"Hello, \x7bname\x7d!\"",
    "",
    "result = greet(\"Alice\")"]),
  ("class", textOfLines [
    "class Person:",
    "    def __init__(self, name, age):",
    "        self.name = name",
    "        self.age = age",
    "    ",
    "    def introduce(self):",
    "        return f\"I am \x7bself.name\x7d, \x7bself.age\x7d years old\"",
    "",
    "p = Person(\"Bob\", 30)"]),
  ("loop_and_condition", textOfLines [
    "for i in range(10):",
    "    if i % 2 == 0:",
    "        print(f\"\x7bi\x7d is even\")",
    "    else:",
    "        print(f\"\x7bi\x7d is odd\")"]),
  ("lambda", textOfLines [
    "numbers = [1, 2, 3, 4, 5]",
    "squared = list(map(lambda x: x ** 2, numbers))",
    "filtered = list(filter(lambda x: x > 5, squared))"])]

/-- The examples as an object in key order. -/
def exampleObject : Json := .object (exampleSnippets.entries.map fun e => (e.1, .string e.2))

end SyntaxGraph
