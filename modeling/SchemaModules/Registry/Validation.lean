import SchemaModules.Fault
import SchemaModules.Number.Magnitude
import SchemaModules.Registry.Pattern
import SchemaModules.Registry.Validator
import SchemaModules.Text.Split

/-!
# The validator of the program

An instance is checked against a schema keyword by keyword, in the order of the schema's members.
Keywords concern instances of the kinds they are made for, and are satisfied by all others; unknown
keywords are satisfied by every instance. A schema that cannot be evaluated ends the check with a
fault, which counts only when it is reached.

References are resolved when they are reached. Whatever stands beside a reference is ignored.
Nothing else in the library depends on how this validator works.
-/

namespace SchemaModules

open Number Text

/-- What a check found before it ended: whether a keyword was violated, and the fault at which it
ended, if any. -/
structure Verdict where
  violated : Bool
  failure : Option Fault

namespace Verdict

def passed : Verdict := ⟨false, none⟩

def broken : Verdict := ⟨true, none⟩

def failed (fault : Fault) : Verdict := ⟨false, some fault⟩

def require (condition : Bool) : Verdict := ⟨!condition, none⟩

def ofExcept : Except Fault Bool → Verdict
  | .ok condition => require condition
  | .error fault => failed fault

/-- A second check after a first one, unless a fault ended the first. -/
def andThen (first : Verdict) (second : Unit → Verdict) : Verdict :=
  match first.failure with
  | some _ => first
  | none =>
    let other := second ()
    ⟨first.violated || other.violated, other.failure⟩

/-- Checks in order. -/
def all {α : Type} (check : α → Verdict) : List α → Verdict
  | [] => passed
  | a :: rest => (check a).andThen fun () => all check rest

/-- The answer of a check that is given up at the first violation. -/
def quick (verdict : Verdict) : Except Fault Bool :=
  match verdict.violated, verdict.failure with
  | true, _ => .ok false
  | false, some fault => .error fault
  | false, none => .ok true

/-- The answer of a check that looks for all violations. -/
def thorough (verdict : Verdict) : Except Fault Bool :=
  match verdict.failure with
  | some fault => .error fault
  | none => .ok (!verdict.violated)

end Verdict

namespace Validation

def isNumber : Json → Bool
  | .int _ | .real _ => true
  | _ => false

/-- A whole number may be written with a point. -/
def isInteger : Json → Bool
  | .int _ => true
  | .real value => (Magnitude.ofDouble value).isWhole
  | _ => false

/-- Whether an instance is of the named type; nothing for a name that names no type. -/
def ofType? (name : String) (value : Json) : Option Bool :=
  match name with
  | "array" => some value.arr?.isSome
  | "boolean" => some (value matches .bool _)
  | "integer" => some (isInteger value)
  | "null" => some (value matches .null)
  | "number" => some (isNumber value)
  | "object" => some value.isObject
  | "string" => some value.str?.isSome
  | _ => none

/-- The items that a list holds; a text is a list of its characters, an object of its keys. -/
def itemsOf : Json → Except Fault (List Json)
  | .arr items => .ok items
  | .str text => .ok (text.toList.map fun c => .str (String.singleton c))
  | .obj members => .ok (members.map fun (key, _) => .str key)
  | _ => .error .unusableValue

/-- The number that a limit stands for. -/
def limitOf : Json → Except Fault Magnitude
  | .int value => .ok (.ofInt value)
  | .real value => .ok (.ofDouble value)
  | .bool value => .ok (.ofInt (if value then 1 else 0))
  | _ => .error .unusableValue

/-- The number that an instance is. -/
def magnitude? : Json → Option Magnitude
  | .int value => some (.ofInt value)
  | .real value => some (.ofDouble value)
  | _ => none

/-! ## Keywords -/

/-- Whether an instance is of one of the listed types. A list ends at the first that fits. -/
def isOneOf (value : Json) : List Json → Except Fault Bool
  | [] => .ok false
  | .str name :: rest =>
    match ofType? name value with
    | some true => .ok true
    | some false => isOneOf value rest
    | none => .error .unknownType
  | .arr _ :: _ | .obj _ :: _ => .error .unusableValue
  | _ :: _ => .error .unknownType

def checkType (types value : Json) : Except Fault Bool :=
  match types with
  | .str name => isOneOf value [.str name]
  | types => do isOneOf value (← itemsOf types)

/-- Whether an entry of a list of keys is a key of the members. -/
def isKey (members : List (String × Json)) : Json → Verdict
  | .str key => .require (members.lookup key).isSome
  | .arr _ | .obj _ => .failed .unusableValue
  | _ => .broken

def checkRequired (required value : Json) : Verdict :=
  match value with
  | .obj members =>
    match itemsOf required with
    | .ok keys => .all (isKey members) keys
    | .error fault => .failed fault
  | _ => .passed

def checkEnum (options value : Json) : Except Fault Bool := do
  return (← itemsOf options).any fun option => option.same value

/-- Compares a number with a limit. -/
def checkNumber (accepts : (value limit : Magnitude) → Bool) (limit value : Json) :
    Except Fault Bool :=
  match magnitude? value with
  | some value => return accepts value (← limitOf limit)
  | none => .ok true

/-- Compares a count with a limit, if the instance has such a count. -/
def checkCount (accepts : (count limit : Magnitude) → Bool) (limit : Json) :
    Option Nat → Except Fault Bool
  | some count => return accepts (.ofInt count) (← limitOf limit)
  | none => .ok true

def atLeast (value limit : Magnitude) : Bool := !value.less limit

def atMost (value limit : Magnitude) : Bool := !limit.less value

def above (value limit : Magnitude) : Bool := !(value.less limit || value.equal limit)

def below (value limit : Magnitude) : Bool := !(limit.less value || value.equal limit)

def textLength? (value : Json) : Option Nat := value.str?.map String.length

def itemCount? (value : Json) : Option Nat := value.arr?.map List.length

def memberCount? (value : Json) : Option Nat := value.obj?.map List.length

/-- Whether a number is a multiple of a divisor. A floating-point divisor divides what leaves a
whole quotient after rounding; a quotient beyond the range is not rounded. -/
def isMultiple (value divisor : Ratio) (rounded : Bool) : Bool :=
  let quotient := value.divide divisor
  if rounded then
    match (Double.ofRatio quotient).toRatio? with
    | some near => near.isWhole
    | none => quotient.isWhole
  else quotient.isWhole

def checkMultiple (divisor value : Json) : Except Fault Bool :=
  match magnitude? value with
  | none => .ok true
  | some value => do
    match value, ← limitOf divisor with
    | .exact a, .exact b =>
      if b.numerator = 0 then throw .divisionByZero
      return isMultiple a b (divisor matches .real _)
    | _, _ => return false

/-- Whether no two items are equal. -/
def allDistinct : List Json → Bool
  | [] => true
  | item :: rest => !rest.any item.same && allDistinct rest

def checkUnique (unique value : Json) : Bool :=
  match value with
  | .arr items => !unique.isTruthy || allDistinct items
  | _ => true

/-- A pattern that is not read constrains nothing. -/
def checkPattern (pattern value : Json) : Except Fault Bool :=
  match value, pattern with
  | .str text, .str pattern => .ok (((TextPattern.read? pattern).map (·.found text)).getD true)
  | .str _, _ => .error .unusableValue
  | _, _ => .ok true

/-- How a schema is applied to an instance. -/
abbrev Descent := (schema value : Json) → Verdict

def checkProperties (descend : Descent) (properties value : Json) : Verdict :=
  match value, properties with
  | .obj members, .obj schemas =>
    .all (fun (key, schema) =>
      match members.lookup key with
      | some member => descend schema member
      | none => .passed) schemas
  | .obj _, _ => .failed .missingPart
  | _, _ => .passed

/-- Whether a key counts as declared. -/
def isDeclared (properties : Option Json) (key : String) : Except Fault Bool :=
  match properties with
  | none => .ok false
  | some (.obj members) => .ok (members.lookup key).isSome
  | some (.arr items) => .ok (items.any fun item => item.str? == some key)
  | some (.str text) => .ok (occursIn key.toList text.toList)
  | some _ => .error .unusableValue

/-- The members whose keys are not declared. -/
def undeclared (properties : Option Json) :
    List (String × Json) → Except Fault (List (String × Json))
  | [] => .ok []
  | (key, member) :: rest => do
    let declared ← isDeclared properties key
    let others ← undeclared properties rest
    return if declared then others else (key, member) :: others

def checkAdditional (descend : Descent) (properties : Option Json) (additional value : Json) :
    Verdict :=
  match value with
  | .obj members =>
    match undeclared properties members with
    | .error fault => .failed fault
    | .ok extras =>
      if additional.isObject then .all (fun (_, member) => descend additional member) extras
      else .require (additional.isTruthy || extras.isEmpty)
  | _ => .passed

/-- One schema for all items, or a list of schemas for the first items. -/
def checkItems (descend : Descent) (schema value : Json) : Verdict :=
  match value, schema with
  | .arr items, .arr schemas => .all (fun (schema, item) => descend schema item) (schemas.zip items)
  | .arr items, schema => .all (descend schema) items
  | _, _ => .passed

def checkAllOf (descend : Descent) (schemas value : Json) : Verdict :=
  match itemsOf schemas with
  | .ok schemas => .all (descend · value) schemas
  | .error fault => .failed fault

/-- What follows the first schema that the instance satisfies; nothing if there is none. -/
def afterMatch (descend : Descent) (value : Json) :
    List Json → Except Fault (Option (List Json))
  | [] => .ok none
  | schema :: rest => do
    if ← (descend schema value).thorough then return some rest else afterMatch descend value rest

def checkAnyOf (descend : Descent) (schemas value : Json) : Except Fault Bool := do
  return (← afterMatch descend value (← itemsOf schemas)).isSome

/-- How many of the schemas the instance satisfies. -/
def countMatches (descend : Descent) (value : Json) : List Json → Except Fault Nat
  | [] => .ok 0
  | schema :: rest => do
    let matching ← (descend schema value).quick
    let others ← countMatches descend value rest
    return if matching then others + 1 else others

def checkOneOf (descend : Descent) (schemas value : Json) : Except Fault Bool := do
  match ← afterMatch descend value (← itemsOf schemas) with
  | none => return false
  | some rest => return (← countMatches descend value rest) == 0

def checkNot (descend : Descent) (schema value : Json) : Except Fault Bool := do
  return !(← (descend schema value).quick)

def hexPair? (a b : Char) : Option Nat := do
  return (← Json.Reader.hexValue? a) * 16 + (← Json.Reader.hexValue? b)

/-- The bytes of a text in which `%` and two hexadecimal digits stand for a byte. -/
def percentDecoded : List Char → List Nat
  | [] => []
  | '%' :: a :: b :: rest =>
    match hexPair? a b with
    | some byte => byte :: percentDecoded rest
    | none => 37 :: percentDecoded (a :: b :: rest)
  | c :: rest => (String.singleton c).toUTF8.toList.map UInt8.toNat ++ percentDecoded rest

/-- A pointer segment: `~1` stands for a slash and `~0` for a tilde. -/
def unescaped : List Char → List Char
  | [] => []
  | '~' :: '1' :: rest => '/' :: unescaped rest
  | '~' :: '0' :: rest => '~' :: unescaped rest
  | c :: rest => c :: unescaped rest

/-- The item at an index, counted from the end if it is negative. -/
def itemAt? (items : List Json) (index : Int) : Option Json :=
  let place := if index < 0 then index + items.length else index
  if place < 0 then none else items[place.toNat]?

/-- The value at a path of segments. -/
def valueAt : List (List Char) → Json → Except Fault Json
  | [], value => .ok value
  | segment :: rest, value => do
    match value with
    | .obj members =>
      match members.lookup (String.ofList (unescaped segment)) with
      | some member => valueAt rest member
      | none => throw .unresolvedReference
    | value =>
      let items ← itemsOf value
      match (String.ofList segment).toInt? with
      | none => throw .invalidIndex
      | some index =>
        match itemAt? items index with
        | some item => valueAt rest item
        | none => throw .unresolvedReference

/-- The part of a document that a fragment points to. -/
def fragmentOf (document : Json) (fragment : List Char) : Except Fault Json :=
  match fragment with
  | [] => .ok document
  | '/' :: pointer =>
    match decodeUtf8 (percentDecoded pointer) with
    | .ok text => valueAt (splitAt '/' text.toList) document
    | .error _ => .error .unresolvedReference
  | _ => .error .unresolvedReference

/-- The document and the schema in it that a reference leads to. A reference names a registered
document, or the current one by no name, and may point into it behind a `#`. -/
def resolve (documents : Documents) (current : Json) (reference : String) :
    Except Fault (Json × Json) := do
  let name := String.ofList (reference.toList.takeWhile (· != '#'))
  let fragment := (reference.toList.dropWhile (· != '#')).drop 1
  let document ←
    if name.isEmpty then pure current
    else
      match documents.lookup name with
      | some document => pure document
      | none => throw .unresolvedReference
  return (document, ← fragmentOf document fragment)

/-- Applies the schema that a reference leads to, inside the document it is in. -/
def checkReference (documents : Documents) (descendIn : Json → Descent)
    (current reference value : Json) : Verdict :=
  match reference with
  | .str reference =>
    match resolve documents current reference with
    | .ok (document, schema) => descendIn document schema value
    | .error fault => .failed fault
  | _ => .failed .missingPart

/-! ## Schemas -/

/-- One keyword of a schema with the given members. -/
def checkKeyword (descend : Descent) (reference : Json → Json → Verdict)
    (members : List (String × Json)) (key : String) (keyword value : Json) : Verdict :=
  match key with
  | "$ref" => reference keyword value
  | "type" => .ofExcept (checkType keyword value)
  | "properties" => checkProperties descend keyword value
  | "required" => checkRequired keyword value
  | "additionalProperties" =>
    checkAdditional descend (members.lookup "properties") keyword value
  | "items" => checkItems descend keyword value
  | "enum" => .ofExcept (checkEnum keyword value)
  | "const" => .require (keyword.same value)
  | "allOf" => checkAllOf descend keyword value
  | "anyOf" => .ofExcept (checkAnyOf descend keyword value)
  | "oneOf" => .ofExcept (checkOneOf descend keyword value)
  | "not" => .ofExcept (checkNot descend keyword value)
  | "minimum" => .ofExcept (checkNumber atLeast keyword value)
  | "maximum" => .ofExcept (checkNumber atMost keyword value)
  | "exclusiveMinimum" => .ofExcept (checkNumber above keyword value)
  | "exclusiveMaximum" => .ofExcept (checkNumber below keyword value)
  | "multipleOf" => .ofExcept (checkMultiple keyword value)
  | "minLength" => .ofExcept (checkCount atLeast keyword (textLength? value))
  | "maxLength" => .ofExcept (checkCount atMost keyword (textLength? value))
  | "minItems" => .ofExcept (checkCount atLeast keyword (itemCount? value))
  | "maxItems" => .ofExcept (checkCount atMost keyword (itemCount? value))
  | "minProperties" => .ofExcept (checkCount atLeast keyword (memberCount? value))
  | "maxProperties" => .ofExcept (checkCount atMost keyword (memberCount? value))
  | "uniqueItems" => .require (checkUnique keyword value)
  | "pattern" => .ofExcept (checkPattern keyword value)
  | _ => .passed

/-- The keywords that count: a reference stands alone. -/
def effective (members : List (String × Json)) : List (String × Json) :=
  match members.lookup "$ref" with
  | none | some .null => members
  | some reference => [("$ref", reference)]

/-- Checks an instance against a schema inside a document. Only schemas that lead back to
themselves for the same instance use up the fuel. -/
def check (documents : Documents) : (fuel : Nat) → (document : Json) → Descent
  | 0, _, _, _ => .failed .circularSchema
  | fuel + 1, document, schema, value =>
    match schema with
    | .bool accepts => .require accepts
    | .obj members =>
      .all (fun (key, keyword) =>
        checkKeyword (check documents fuel document)
          (checkReference documents (check documents fuel) document) members key keyword value)
        (effective members)
    | _ => .failed .missingPart

/-- For each level of the instance, a check that does not run in a circle meets each value of the
documents and of the schema that it starts with twice at most: once on the way to all violations and
once on the way to the first. -/
def fuelFor (documents : Documents) (schema value : Json) : Nat :=
  2 * (schema.size + Json.sizeMembers documents) * (value.depth + 1) + 1

/-- The validator that the program uses. It gives up at the first violation. -/
def draft7 : Validator := fun documents schema value =>
  (check documents (fuelFor documents schema value) schema schema value).quick

end Validation

end SchemaModules
