import SchemaModules.Text.DigitTable
import SchemaModules.Text.Split

/-!
# Importable path segments

A segment of a module path must be an identifier. Dashes become underscores, a leading digit gets
an underscore before it, and a reserved word one behind it.
-/

namespace SchemaModules.Naming

open Text

/-- The reserved words of Python, which no module or variable can be called. -/
def reservedWords : List String := [
  "False", "None", "True", "and", "as", "assert", "async", "await", "break", "class", "continue",
  "def", "del", "elif", "else", "except", "finally", "for", "from", "global", "if", "import", "in",
  "is", "lambda", "nonlocal", "not", "or", "pass", "raise", "return", "try", "while", "with",
  "yield"]

def isDigit (c : Char) : Bool :=
  digitRanges.any fun (first, last) => first ≤ c.toNat && c.toNat ≤ last

def dashesToUnderscores (segment : List Char) : List Char :=
  segment.map fun c => if c = '-' then '_' else c

def guardDigit : List Char → List Char
  | [] => []
  | c :: rest => if isDigit c then '_' :: c :: rest else c :: rest

def guardReserved (identifier : String) : String :=
  if reservedWords.contains identifier then identifier ++ "_" else identifier

/-- `v1-beta` gives `v1_beta`, `1st` gives `_1st`, and `class` gives `class_`. -/
def importable (segment : String) : String :=
  guardReserved (String.ofList (guardDigit (dashesToUnderscores segment.toList)))

end SchemaModules.Naming
