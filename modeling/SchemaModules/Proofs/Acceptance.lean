import SchemaModules.Proofs.JsonPaths
import SchemaModules.Registry.Validation

/-!
# What acceptance says

A validator is a parameter of all that is said about validation. What is relied on of it is written
down here: that it accepts by runs that come to an end, and what the keywords that types are made
from say when such a run accepts an instance. Nothing is assumed of any other keyword, nor of what
a validator does when it does not accept.
-/

namespace SchemaModules.Validator

open Validation

/-- Acceptance by the runs of a validator, in which schemas are applied inside each other up to a
depth. A schema stands in a document, and references lead to the given documents. -/
abbrev Acceptance :=
  (depth : Nat) → (documents : Documents) → (document schema value : Json) → Prop

/-- Draft 7 of JSON schema, as far as types depend on it. Keywords count only where there is no
reference, which hides what stands beside it. The key of a name, that is the name with a `#` behind
it, leads to the document of the name, unless the document with the reference sets an identifier of
its own. This is said of the given names alone. -/
structure Draft7 (named : String → Prop) (accepts : Acceptance) : Prop where
  /-- A run applies one schema at least, and a schema is a mapping or a truth value. -/
  schema : ∀ {depth documents document schema value},
    accepts depth documents document schema value →
      0 < depth ∧ (schema = .bool true ∨ schema.isObject = true)
  reference : ∀ {depth documents document members value reference},
    accepts (depth + 1) documents document (.obj members) value →
      members.lookup "$ref" = some reference → ∃ text, reference = .str text ∧
        ∀ name, named name → text = name ++ "#" → document.hasKey "$id" = false →
          ∃ target, documents.lookup name = some target ∧
            accepts depth documents target target value
  type : ∀ {depth documents document members value name},
    accepts (depth + 1) documents document (.obj members) value →
      members.lookup "$ref" = none → members.lookup "type" = some (.str name) →
        ofType? name value = some true
  properties : ∀ {depth documents document members entries properties},
    accepts (depth + 1) documents document (.obj members) (.obj entries) →
      members.lookup "$ref" = none → members.lookup "properties" = some properties →
        ∃ schemas, properties = .obj schemas ∧ ∀ {key schema member}, (key, schema) ∈ schemas →
          entries.lookup key = some member → accepts depth documents document schema member
  required : ∀ {depth documents document members entries names key},
    accepts (depth + 1) documents document (.obj members) (.obj entries) →
      members.lookup "$ref" = none → members.lookup "required" = some (.arr names) →
        .str key ∈ names → (entries.lookup key).isSome = true
  additionalProperties : ∀ {depth documents document members entries additional key member},
    accepts (depth + 1) documents document (.obj members) (.obj entries) →
      members.lookup "$ref" = none → members.lookup "patternProperties" = none →
        members.lookup "additionalProperties" = some additional → additional.isObject = true →
          (key, member) ∈ entries →
            (∀ {properties}, members.lookup "properties" = some properties →
              ∃ schemas, properties = .obj schemas ∧ schemas.lookup key = none) →
                accepts depth documents document additional member
  items : ∀ {depth documents document members schema items item},
    accepts (depth + 1) documents document (.obj members) (.arr items) →
      members.lookup "$ref" = none → members.lookup "items" = some schema →
        schema.isObject = true → item ∈ items → accepts depth documents document schema item
  oneOf : ∀ {depth documents document members schemas value},
    accepts (depth + 1) documents document (.obj members) value →
      members.lookup "$ref" = none → members.lookup "oneOf" = some (.arr schemas) →
        ∃ schema ∈ schemas, accepts depth documents document schema value

/-- What a validator accepts, it accepts by a run of the kind that draft 7 describes. -/
def FollowsDraft7 (validator : Validator) (named : String → Prop) : Prop :=
  ∃ accepts : Acceptance, Draft7 named accepts ∧ ∀ {documents schema value},
    validator documents schema value = .ok true →
      ∃ depth, accepts depth documents schema schema value

end SchemaModules.Validator
