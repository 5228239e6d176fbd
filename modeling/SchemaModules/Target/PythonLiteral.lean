import SchemaModules.Json.Shown
import SchemaModules.Text.Blank

/-!
# Literals of Python modules

Schema constants are literals with one entry per line, each followed by a comma. Docstrings are
triple-quoted literals whose text cannot close them.
-/

namespace SchemaModules.Python

open Text

def oneIndent : String := "    "

def indentOf (level : Nat) : String := String.join (List.replicate level oneIndent)

mutual

/-- A value as a literal whose closing bracket is indented by `level` steps. -/
def literal (level : Nat) : Json → String
  | .obj [] => "\x7b\x7d"
  | .arr [] => "[]"
  | .obj members =>
    "\x7b\n" ++ join "\n" (memberLiterals (level + 1) members) ++ "\n" ++ indentOf level ++ "\x7d"
  | .arr items =>
    "[\n" ++ join "\n" (itemLiterals (level + 1) items) ++ "\n" ++ indentOf level ++ "]"
  | .str text => doubleQuoted text
  | value => value.shown

def memberLiterals (level : Nat) : List (String × Json) → List String
  | [] => []
  | (key, value) :: rest =>
    (indentOf level ++ doubleQuoted key ++ ": " ++ literal level value ++ ",") ::
      memberLiterals level rest

def itemLiterals (level : Nat) : List Json → List String
  | [] => []
  | item :: rest => (indentOf level ++ literal level item ++ ",") :: itemLiterals level rest

end

/-- Doubles backslashes and escapes three quotes in a row. -/
def escapeDocstring : List Char → List Char
  | [] => []
  | '\\' :: rest => '\\' :: '\\' :: escapeDocstring rest
  | '"' :: '"' :: '"' :: rest =>
    '\\' :: '"' :: '\\' :: '"' :: '\\' :: '"' :: escapeDocstring rest
  | c :: rest => c :: escapeDocstring rest

/-- A space after a last quote keeps it apart from the closing quotes. -/
def guardLastQuote (text : List Char) : List Char :=
  if text.getLast? = some '"' then text ++ [' '] else text

def tripleQuote : String := "\"\"\""

/-- A docstring. A text of several lines puts the closing quotes on a line of their own; lines
after the first are indented and have no blanks at their end. -/
def docstring (indent text : String) : String :=
  match splitLines (guardLastQuote (escapeDocstring (strip text.toList))) with
  | [] => tripleQuote ++ tripleQuote
  | [line] => tripleQuote ++ String.ofList line ++ tripleQuote
  | first :: rest =>
    let body := rest.map fun line => String.ofList (stripEnd (indent.toList ++ line))
    tripleQuote ++ String.ofList first ++ "\n" ++ join "\n" body ++ "\n" ++ indent ++ tripleQuote

end SchemaModules.Python
