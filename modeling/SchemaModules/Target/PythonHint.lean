import SchemaModules.Naming.Names
import SchemaModules.Schema.TypeExpr
import SchemaModules.Target.Comment
import SchemaModules.Target.PythonLiteral

/-!
# Type hints of Python modules

A structural type becomes a type hint. Python has no anonymous records, so each record nested in a
type is declared under a name of its own before the declaration that mentions it. A `Scope` holds
the declarations made so far, the names they took and the typing names they need.
-/

namespace SchemaModules.Python

open Naming Schema Text

/-- Names that a module takes from the typing module, in the order of an import line: constants
first, then by spelling. -/
inductive TypingName
  | typeChecking
  | any
  | notRequired
  | typeAlias
  | typedDict
  deriving DecidableEq, Repr

namespace TypingName

def all : List TypingName := [typeChecking, any, notRequired, typeAlias, typedDict]

def text : TypingName → String
  | typeChecking => "TYPE_CHECKING"
  | any => "Any"
  | notRequired => "NotRequired"
  | typeAlias => "TypeAlias"
  | typedDict => "TypedDict"

end TypingName

inductive TypeHint
  | any
  | text
  | number
  | truth
  | none
  | textOrNumber
  /-- The interface of another definition. -/
  | interface (name : String)
  /-- A record declared in the same module. -/
  | record (name : String)
  | list (item : TypeHint)
  | dict (value : TypeHint)
  deriving DecidableEq

def TypeHint.render : TypeHint → String
  | any => "Any"
  | text => "str"
  | number => "float"
  | truth => "bool"
  | none => "None"
  | textOrNumber => "str | float"
  | interface name => interfaceName name
  | record name => name
  | list item => "list[" ++ item.render ++ "]"
  | dict value => "dict[str, " ++ value.render ++ "]"

/-- The remark of a record on the hint of all other keys, which stands behind the fields. -/
def TypeHint.remark (hint : TypeHint) : String := "# Additional properties: " ++ hint.render

def primitiveHint : Primitive → TypeHint
  | .string => .text
  | .number => .number
  | .boolean => .truth
  | .null => .none

/-- A key of a record. A quoted hint is not evaluated when the module is loaded, so it may name
definitions of other modules. -/
structure RecordField where
  name : String
  comment : Option String
  hint : TypeHint
  quoted : Bool
  required : Bool

structure Record where
  name : String
  fields : List RecordField
  /-- The hint of all other keys, which a record can only mention in a comment. -/
  index : Option TypeHint

def renderHint (quoted : Bool) (hint : TypeHint) : String :=
  if quoted then doubleQuoted hint.render else hint.render

def RecordField.render (field : RecordField) : List String :=
  let comments :=
    match field.comment.filter (!·.isEmpty) with
    | some text => (Target.lineComments "#" text).map (indentOf 2 ++ ·)
    | none => []
  let hint := renderHint field.quoted field.hint
  let hint := if field.required then hint else "NotRequired[" ++ hint ++ "]"
  comments ++ [indentOf 2 ++ doubleQuoted field.name ++ ": " ++ hint ++ ","]

/-- The functional form of a record declaration, which admits any key. -/
def Record.render (record : Record) : String :=
  let index :=
    match record.index with
    | some hint => [indentOf 2 ++ hint.remark]
    | none => []
  join "\n" (
    [record.name ++ " = TypedDict(", indentOf 1 ++ doubleQuoted record.name ++ ",",
      indentOf 1 ++ "\x7b"] ++
    record.fields.flatMap RecordField.render ++ index ++ [indentOf 1 ++ "\x7d,", ")"])

structure Scope where
  /-- Names of records, declared or about to be. -/
  reserved : List String := []
  /-- The records declared so far, in order. -/
  records : List Record := []
  imports : List TypingName := []

def Scope.needs (scope : Scope) (name : TypingName) : Scope :=
  { scope with imports := name :: scope.imports }

/-- The first of `wanted2`, `wanted3`, … that is not taken, counted from `number`. Among more
numbers than taken names one is free. -/
def numberedName (taken : List String) (wanted : String) : (tries number : Nat) → String
  | 0, number => wanted ++ toString number
  | tries + 1, number =>
    let name := wanted ++ toString number
    if taken.contains name then numberedName taken wanted tries (number + 1) else name

/-- `wanted` itself unless it is taken, else with the least number from two on that makes it
new. -/
def freshName (taken : List String) (wanted : String) : String :=
  if taken.contains wanted then numberedName taken wanted taken.length 2 else wanted

/-- Reserves a name for a record. Different properties may ask for the same one. -/
def Scope.reserve (scope : Scope) (wanted : String) : String × Scope :=
  let name := freshName scope.reserved wanted
  (name, { scope with reserved := name :: scope.reserved })

def Scope.declare (scope : Scope) (record : Record) : Scope :=
  { scope with records := scope.records ++ [record] }

/-- The name asked for by a record nested under a property. It begins with an underscore, so it is
no interface name. -/
def nestedName (parent property : String) : String :=
  let base := String.ofList (parent.toList.dropWhile (· == '_'))
  let suffix := String.ofList (pascalCase property.toList)
  "_" ++ base ++ (if suffix.isEmpty then "Value" else suffix)

mutual

/-- The hint of a type; `wanted` names the record if the type is one. -/
def hintOf (wanted : String) (scope : Scope) : TypeExpr → TypeHint × Scope
  | .any => (.any, scope)
  | .primitive primitive => (primitiveHint primitive, scope)
  | .textOrNumber => (.textOrNumber, scope)
  | .reference name => (.interface name, scope)
  | .array item =>
    let (item, scope) := hintOf (wanted ++ "Item") scope item
    (.list item, scope)
  | .object [] index =>
    let (index, scope) := indexHint (wanted ++ "Value") scope index
    (.dict (index.getD .any), scope)
  | .object fields index =>
    let (name, scope) := scope.reserve wanted
    let (fields, scope) := fieldHints name (scope.needs .typedDict) fields
    let (index, scope) := indexHint (nestedName name "value") scope index
    (.record name, scope.declare ⟨name, fields, index⟩)

def indexHint (wanted : String) (scope : Scope) : Option TypeExpr → Option TypeHint × Scope
  | none => (none, scope)
  | some type =>
    let (hint, scope) := hintOf wanted scope type
    (some hint, scope)

def fieldHints (parent : String) (scope : Scope) :
    List (Field × TypeExpr) → List RecordField × Scope
  | [] => ([], scope)
  | (field, type) :: rest =>
    let (hint, scope) := hintOf (nestedName parent field.name) scope type
    let scope := if field.required then scope else scope.needs .notRequired
    let quoted := !type.references.isEmpty
    let (rest, scope) := fieldHints parent scope rest
    (⟨field.name, field.comment, hint, quoted, field.required⟩ :: rest, scope)

end

/-- The record of an object type under a name already reserved. -/
def recordOf (name : String) (scope : Scope) (fields : List (Field × TypeExpr))
    (index : Option TypeExpr) : Record × Scope :=
  let (fields, scope) := fieldHints name (scope.needs .typedDict) fields
  let (index, scope) := indexHint (nestedName name "value") scope index
  (⟨name, fields, index⟩, scope)

/-- The import line of the typing names in use, if there are any. -/
def typingImport (imports : List TypingName) : List String :=
  match TypingName.all.filter imports.contains with
  | [] => []
  | names => ["from typing import " ++ join ", " (names.map TypingName.text)]

end SchemaModules.Python
