import SchemaModules.Json.Basic
import SchemaModules.Text.Quoted
import SchemaModules.Text.Split

/-!
# Values in messages and instances

The form in which messages and instances of value classes show a value, and in which schema
constants write single values.
-/

namespace SchemaModules.Json

open Number Text

def shownReal : DecimalLayout := ⟨-4, 15, 2, "inf", "nan"⟩

def shownBool (value : Bool) : String := if value then "True" else "False"

mutual

def shown : Json → String
  | null => "None"
  | bool value => shownBool value
  | int value => toString value
  | real value => value.write shownReal
  | str text => shownText text
  | arr items => "[" ++ join ", " (shownItems items) ++ "]"
  | obj members => "\x7b" ++ join ", " (shownMembers members) ++ "\x7d"

def shownItems : List Json → List String
  | [] => []
  | item :: rest => shown item :: shownItems rest

def shownMembers : List (String × Json) → List String
  | [] => []
  | (key, value) :: rest => (shownText key ++ ": " ++ shown value) :: shownMembers rest

end

/-- A text as it is; any other value as it is shown inside a message. -/
def plain : Json → String
  | str text => text
  | value => shown value

end SchemaModules.Json
