import SchemaModules.Json.Basic

/-!
# Schema nodes

A schema is any JSON value found where a schema is expected. It is read into one of a closed set of
nodes, and never refused: a shape that no other node covers is unknown. Only the root of a
definition counts as an object when it says nothing about its type.
-/

namespace SchemaModules.Schema

structure Property where
  name : String
  required : Bool

inductive Node
  | reference (description : Option String) (target : String)
  | object (description : Option String) (properties : List (Property × Node))
      (required : List Json) (additional : Option Node)
  | string (description : Option String) (format : Option String)
  | number (description : Option String)
  | boolean (description : Option String)
  | array (description : Option String) (items : Option Node)
  | null (description : Option String)
  | unknown (description : Option String)
  deriving Inhabited

def Node.description : Node → Option String
  | reference description _ | object description _ _ _ | string description _
  | number description | boolean description | array description _ | null description
  | unknown description => description

def Node.isObject : Node → Bool
  | object .. => true
  | _ => false

/-- What the member of a schema says in words; anything but a text counts as absent. -/
def textMember (members : List (String × Json)) (key : String) : Option String :=
  (members.lookup key).bind Json.str?

/-- The list under `required`; anything but a list requires nothing. -/
def requiredNames (members : List (String × Json)) : List Json :=
  ((members.lookup "required").bind Json.arr?).getD []

/-- Whether a list of values holds a text. -/
def holdsText (values : List Json) (text : String) : Bool :=
  values.any fun value => value.str? == some text

/-- Whether additional properties are described: absent, `null` and `false` describe none. -/
def describesAdditional : Option Json → Bool
  | none | some .null | some (.bool false) => false
  | some _ => true

mutual

/-- The node of a schema. A reference hides everything beside it but the description. -/
def Node.ofSchema : Json → Node
  | .obj members =>
    let description := textMember members "description"
    match textMember members "$ref" with
    | some target => .reference description target
    | none =>
      match textMember members "type" with
      | some "object" =>
        let required := requiredNames members
        let additional :=
          if describesAdditional (members.lookup "additionalProperties") then
            memberNode "additionalProperties" members
          else none
        .object description (propertyNodes required members) required additional
      | some "string" => .string description (textMember members "format")
      | some "number" | some "integer" => .number description
      | some "boolean" => .boolean description
      | some "array" => .array description (memberNode "items" members)
      | some "null" => .null description
      | _ => .unknown description
  | _ => .unknown none

/-- The node of the member of that name. -/
def memberNode (wanted : String) : List (String × Json) → Option Node
  | [] => none
  | (key, value) :: rest =>
    if key = wanted then some (Node.ofSchema value) else memberNode wanted rest

/-- The declared properties, in order. -/
def propertyNodes (required : List Json) : List (String × Json) → List (Property × Node)
  | [] => []
  | (key, value) :: rest =>
    if key = "properties" then fieldNodes required value else propertyNodes required rest

/-- The properties of a mapping from names to schemas; any other value declares none. -/
def fieldNodes (required : List Json) : Json → List (Property × Node)
  | .obj members => memberNodes required members
  | _ => []

def memberNodes (required : List Json) : List (String × Json) → List (Property × Node)
  | [] => []
  | (name, schema) :: rest =>
    (⟨name, holdsText required name⟩, Node.ofSchema schema) :: memberNodes required rest

end

/-- A missing value counts as one that says nothing. -/
def saysSomething : Option Json → Bool
  | none => false
  | some value => value.isTruthy

/-- The members of a definition's root, with `type: object` set when it says neither a type nor a
reference. -/
def withRootType (members : List (String × Json)) : List (String × Json) :=
  if saysSomething (members.lookup "type") || saysSomething (members.lookup "$ref") then members
  else Json.setMember "type" (.str "object") members

/-- The kind of API object that a definition describes. The parts are whatever values the
annotation holds, the empty text standing for those that say nothing. -/
structure GroupVersionKind where
  group : Json
  version : Json
  kind : Json

def partOrEmpty (entry : List (String × Json)) (key : String) : Json :=
  match entry.lookup key with
  | some value => if value.isTruthy then value else .str ""
  | none => .str ""

/-- The first entry under `x-kubernetes-group-version-kind`, if it is an object. -/
def GroupVersionKind.ofMembers? (members : List (String × Json)) : Option GroupVersionKind :=
  match members.lookup "x-kubernetes-group-version-kind" with
  | some (.arr (.obj entry :: _)) =>
    some ⟨partOrEmpty entry "group", partOrEmpty entry "version", partOrEmpty entry "kind"⟩
  | _ => none

/-- A definition read from its schema. Only a mapping can be annotated with a kind. -/
structure Root where
  body : Node
  kind : Option GroupVersionKind

def Root.ofSchema : Json → Root
  | .obj members =>
    let members := withRootType members
    ⟨Node.ofSchema (.obj members), GroupVersionKind.ofMembers? members⟩
  | _ => ⟨.unknown none, none⟩

end SchemaModules.Schema
