import SchemaModules.Json.Basic
import SchemaModules.Text.Quoted
import SchemaModules.Text.Split

/-!
# Writing JSON values

One line with a space after each separator, or one line per member, indented by two spaces per
level. Members come in their order, and numbers are written so that they read back.
-/

namespace SchemaModules.Json

open Number Text

/-- Plain notation for decimal exponents -4 to 15, whole values keep `.0`, exponents have a sign
and two digits. -/
def realLayout : DecimalLayout := ⟨-4, 15, 2, "Infinity", "NaN"⟩

mutual

/-- One line, texts quoted by `quote`. -/
def onOneLine (quote : String → String) : Json → String
  | null => "null"
  | bool value => if value then "true" else "false"
  | int value => toString value
  | real value => value.write realLayout
  | str text => quote text
  | arr items => "[" ++ join ", " (itemsOnOneLine quote items) ++ "]"
  | obj members => "\x7b" ++ join ", " (membersOnOneLine quote members) ++ "\x7d"

def itemsOnOneLine (quote : String → String) : List Json → List String
  | [] => []
  | item :: rest => onOneLine quote item :: itemsOnOneLine quote rest

def membersOnOneLine (quote : String → String) : List (String × Json) → List String
  | [] => []
  | (key, value) :: rest =>
    (quote key ++ ": " ++ onOneLine quote value) :: membersOnOneLine quote rest

end

/-- One line; characters outside ASCII stand for themselves. -/
def compact (value : Json) : String := value.onOneLine doubleQuoted

/-- One line of ASCII characters. -/
def ascii (value : Json) : String := value.onOneLine asciiQuoted

def spaces (count : Nat) : String := String.ofList (List.replicate count ' ')

mutual

/-- One line per item and member. The first line is not indented, since it follows a key. -/
def indented (level : Nat) : Json → String
  | arr [] => "[]"
  | obj [] => "\x7b\x7d"
  | arr items =>
    "[\n" ++ join ",\n" (indentedItems (level + 1) items) ++ "\n" ++ spaces (2 * level) ++ "]"
  | obj members =>
    "\x7b\n" ++ join ",\n" (indentedMembers (level + 1) members) ++ "\n" ++ spaces (2 * level) ++
      "\x7d"
  | value => compact value

def indentedItems (level : Nat) : List Json → List String
  | [] => []
  | item :: rest => (spaces (2 * level) ++ indented level item) :: indentedItems level rest

def indentedMembers (level : Nat) : List (String × Json) → List String
  | [] => []
  | (key, value) :: rest =>
    (spaces (2 * level) ++ doubleQuoted key ++ ": " ++ indented level value) ::
      indentedMembers level rest

end

end SchemaModules.Json
