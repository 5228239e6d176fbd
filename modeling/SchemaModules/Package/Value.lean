import SchemaModules.Definition
import SchemaModules.Fault

/-!
# Instances of value classes

An instance is a mapping tagged with its class. Its members come from the version and kind of the
definition, then from the data, then from the named arguments; a later source overrides the value
of an earlier one in its place.
-/

namespace SchemaModules.Package

open Schema

structure Value where
  className : String
  members : List (String × Json)

/-- The class name and the members, as messages show them. -/
def Value.text (value : Value) : String :=
  value.className ++ "(" ++ (Json.obj value.members).shown ++ ")"

/-- Sets members one after the other. -/
def override (members changes : List (String × Json)) : List (String × Json) :=
  changes.foldl (fun set (key, value) => Json.setMember key value set) members

mutual

/-- The names that a module looks up when it reads a constant written as JSON text, in order: those
of the null value, of the truth values and of the numbers that are not finite. A sign stands before
the name. -/
def namesRead : Json → List String
  | .null => ["null"]
  | .bool true => ["true"]
  | .bool false => ["false"]
  | .real .nan => ["NaN"]
  | .real (.infinite negative) => [if negative then "-Infinity" else "Infinity"]
  | .arr items => namesReadInItems items
  | .obj members => namesReadInMembers members
  | _ => []

def namesReadInItems : List Json → List String
  | [] => []
  | item :: rest => namesRead item ++ namesReadInItems rest

def namesReadInMembers : List (String × Json) → List String
  | [] => []
  | (_, value) :: rest => namesRead value ++ namesReadInMembers rest

end

/-- The fault of reading names in a module that binds the given ones. A name can be bound to a class
or a type, which has no opposite. -/
def readingFault? (isBound : String → Bool) : List String → Option Fault
  | [] => none
  | "-Infinity" :: _ => some (if isBound "Infinity" then .unusableValue else .unboundName)
  | name :: rest => if isBound name then readingFault? isBound rest else some .unboundName

/-- The members that a kind gives to every instance. -/
def derivedMembers : Option GroupVersionKind → List (String × Json)
  | none => []
  | some kind => [("apiVersion", kind.apiVersion), ("kind", kind.kind)]

/-- The members that a kind gives to every instance, once its constants have been read in a module
that binds the given names. -/
def kindMembers (isBound : String → Bool) (kind : Option GroupVersionKind) :
    Except Fault (List (String × Json)) :=
  match readingFault? isBound (namesReadInMembers (derivedMembers kind)) with
  | some fault => .error fault
  | none => .ok (derivedMembers kind)

/-- The keys under which a constructor has read something else than the constant that was meant. -/
def misreadKeys (kind : Option GroupVersionKind) : List String :=
  ((derivedMembers kind).filter fun (_, value) => !(namesRead value).isEmpty).map Prod.fst

/-- The members of the data of an instance. An empty value of any kind stands for no data. -/
def dataMembers (data : Json) : Except Fault (List (String × Json)) :=
  match data with
  | .obj members => .ok members
  | data => if data.isTruthy then .error .unusableValue else .ok []

/-- The arguments of a constructor that are given by position; no named argument can be passed
under their names. -/
def positionalNames : List String := ["self", "data"]

/-- Whether an argument is passed by its name that is given by position as well. -/
def repeatsPosition (named : List (String × Json)) : Bool :=
  named.any fun (key, _) => positionalNames.contains key

/-- The members of a new instance of a value class, made in a module that binds the given names. An
instance that keeps something misread is given up, since its members are no JSON values. -/
def newMembers (isBound : String → Bool) (kind : Option GroupVersionKind) (data : Json)
    (named : List (String × Json)) : Except Fault (List (String × Json)) := do
  if repeatsPosition named then throw .unusableValue
  let initial ← kindMembers isBound kind
  let given ← dataMembers data
  if (misreadKeys kind).any fun key => !((given ++ named).map Prod.fst).contains key then
    throw .foreignValue
  return override (override initial given) named

end SchemaModules.Package
