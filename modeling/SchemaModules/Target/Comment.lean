import SchemaModules.Text.Blank
import SchemaModules.Text.Split

/-!
# Comments

Free text as comments of the target languages: line comments, one per line of the text, and block
comments, whose text cannot close them.
-/

namespace SchemaModules.Target

open Text

/-- One line comment per line, without blanks at its end. -/
def lineComments (mark text : String) : List String :=
  (splitLines text.toList).map fun line =>
    String.ofList (stripEnd (mark.toList ++ ' ' :: line))

/-- Every `*/` with a backslash before each of its characters. -/
def guardClosers : List Char → List Char
  | [] => []
  | '*' :: '/' :: rest => '\\' :: '*' :: '\\' :: '/' :: guardClosers rest
  | c :: rest => c :: guardClosers rest

/-- A block comment with one line per line of the text; only line feeds end lines. -/
def blockComment (text : String) : String :=
  let lines := (splitAt '\n' text.toList).map fun line =>
    " * " ++ String.ofList (guardClosers line)
  "/**\n" ++ unlines lines ++ " */\n"

end SchemaModules.Target
