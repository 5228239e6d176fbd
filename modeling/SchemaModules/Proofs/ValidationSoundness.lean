import SchemaModules.Proofs.CheckedKeywords
import SchemaModules.Proofs.DocumentMembers
import SchemaModules.Proofs.Inhabitation
import SchemaModules.Proofs.RegistrationFrame
import SchemaModules.Proofs.TypeReferences

/-!
# Soundness of types for validation

An instance that a registry accepts for a definition is an instance of the definition's type. The
type and the registry document are two readings of one schema, and the first is never stricter than
what the second enforces. The validator is any that follows draft 7. The induction goes over the
depth of its accepting runs, since schemas can refer to each other in circles.
-/

namespace SchemaModules.Package

open Naming Registry Schema Validator

variable {package : Package} {definition : Definition} {accepts : Acceptance}
  {documents : Documents} {depth : Nat} {lead key : String} {members entries : List (String × Json)}
  {items : List Json} {document value : Json}

def typeNamed (package : Package) (name : String) : Option TypeExpr :=
  (package.definitions.lookup name).map (·.type)

theorem typeNamed_of_defines (h : package.Defines definition) :
    package.typeNamed definition.names.name = some definition.type := by
  rw [typeNamed, h]
  rfl

/-- What a set of definitions has to keep to. References name definitions of the set, no property is
taken for documentation, the definition with a document of its own is declared as what that document
says, and two keywords that change the meaning of others do not occur. -/
structure Regular (package : Package) : Prop where
  closed : ∀ {definition}, package.Defines definition →
    ∀ name ∈ definition.dependencies.map Names.name,
      (package.definitions.lookup name).isSome = true
  plain : ∀ {definition}, package.Defines definition →
    ∀ name ∈ definition.type.fieldNames, isDocumentation name = false
  intOrString : ∀ {definition}, package.definitions.lookup intOrStringName = some definition →
    definition.type = .textOrNumber
  unread : ∀ {definition}, package.Defines definition →
    definition.document.hasKey "patternProperties" = false ∧
      definition.document.hasKey "$id" = false

/-- A check of regularity. -/
def isRegular (package : Package) : Bool :=
  package.definitions.all fun (name, definition) ↦
    definition.dependencies.all (fun dependency ↦
      (package.definitions.lookup dependency.name).isSome) &&
    definition.type.fieldNames.all (fun field ↦ !isDocumentation field) &&
    (name != intOrStringName || definition.type matches .textOrNumber) &&
    !definition.document.hasKey "patternProperties" && !definition.document.hasKey "$id"

theorem regular_of_isRegular (h : package.isRegular = true) : package.Regular := by
  have hentry {entry : String × Definition} (hmem : entry ∈ package.definitions) :=
    List.all_eq_true.mp h entry hmem
  simp only [Bool.and_eq_true, List.all_eq_true, bne_iff_ne, Bool.not_eq_true', Bool.or_eq_true]
    at hentry
  refine ⟨?_, ?_, ?_, ?_⟩
  · intro definition hdefines name hname
    obtain ⟨dependency, hdependency, rfl⟩ := List.mem_map.mp hname
    exact (hentry hdefines.mem).1.1.1.1 dependency hdependency
  · intro definition hdefines
    exact (hentry hdefines.mem).1.1.1.2
  · intro definition hlookup
    obtain ⟨⟨⟨⟨_, _⟩, hdeclared⟩, _⟩, _⟩ := hentry (mem_of_lookup hlookup)
    rcases hdeclared with hother | hdeclared
    · exact absurd rfl hother
    · split at hdeclared
      · assumption
      · cases hdeclared
  · intro definition hdefines
    exact ⟨(hentry hdefines.mem).1.2, (hentry hdefines.mem).2⟩

/-- A type whose fields all stand in documents and whose references name definitions. -/
structure Enforced (package : Package) (type : TypeExpr) : Prop where
  fields : ∀ name ∈ type.fieldNames, isDocumentation name = false
  references : ∀ name ∈ type.references, package.Named name

theorem Enforced.item {item : TypeExpr} (h : package.Enforced (.array item)) :
    package.Enforced item where
  fields := by simpa [TypeExpr.fieldNames] using h.fields
  references := by simpa [TypeExpr.references] using h.references

theorem Enforced.field {fields : List (Field × TypeExpr)} {index : Option TypeExpr}
    (h : package.Enforced (.object fields index)) {entry : Field × TypeExpr}
    (hentry : entry ∈ fields) :
    isDocumentation entry.1.name = false ∧ package.Enforced entry.2 := by
  obtain ⟨hname, hnames⟩ := mem_namesOfFields hentry
  have hfields := h.fields
  have hreferences := h.references
  simp only [TypeExpr.fieldNames, TypeExpr.references, List.mem_append] at hfields hreferences
  refine ⟨hfields _ (Or.inl hname), fun name hmem ↦ hfields _ (Or.inl (hnames hmem)), ?_⟩
  intro name hmem
  refine hreferences name (Or.inl ?_)
  rw [fieldReferences_eq_flatMap]
  exact List.mem_flatMap.mpr ⟨entry, hentry, hmem⟩

theorem Enforced.index {fields : List (Field × TypeExpr)} {type : TypeExpr}
    (h : package.Enforced (.object fields (some type))) : package.Enforced type where
  fields name hname := h.fields name (by
    rw [TypeExpr.fieldNames, namesOfIndex]
    exact List.mem_append_right _ hname)
  references name hname := h.references name (by
    rw [TypeExpr.references, indexReferences]
    exact List.mem_append_right _ hname)

theorem Regular.enforced (h : package.Regular) {conventions : Conventions} {name : String}
    {schema : Json} (hdefines : package.Defines (.of conventions name schema)) :
    package.Enforced (Definition.of conventions name schema).type where
  fields := h.plain hdefines
  references := by
    intro target htarget
    rcases Definition.mem_dependencies_of_mem_references htarget with hown | hdependency
    · rw [hown]
      exact hdefines.named
    · exact h.closed hdefines target hdependency

/-! ## Runs on the document of a schema -/

/-- Soundness for the runs of a given depth, on documents in which nothing changes what references
and undeclared members mean. -/
def SoundAt (package : Package) (accepts : Acceptance) (documents : Documents) (depth : Nat) :
    Prop :=
  ∀ {lead key schema document value}, package.Enforced (schemaType lead schema) →
    document.hasKey "$id" = false →
    (documentMember lead key schema).hasKey "patternProperties" = false →
    accepts depth documents document (documentMember lead key schema) value →
    Inhabits package.typeNamed (schemaType lead schema) value

/-- A run that accepts an instance for the document of a schema without a reference. -/
structure Accepting (accepts : Acceptance) (documents : Documents) (depth : Nat) (document : Json)
    (lead : String) (members : List (String × Json)) (value : Json) : Prop where
  run : accepts (depth + 1) documents document (.obj (documentMembers lead members)) value
  unreferred : (documentMembers lead members).lookup "$ref" = none
  identifier : document.hasKey "$id" = false
  patterns : (Json.obj (documentMembers lead members)).hasKey "patternProperties" = false

/-- The keyword of the document that a keyword of the schema has become. -/
theorem lookup_documentMembers_eq_some (lead : String) (hkey : isDocumentation key = false)
    {schema : Json} (hlookup : members.lookup key = some schema) :
    (documentMembers lead members).lookup key = some (documentMember lead key schema) := by
  rw [lookup_documentMembers_of_keyword hkey, hlookup]
  rfl

theorem Accepting.patterns_of_lookup
    (h : Accepting accepts documents depth document lead members value) {keyword : Json}
    (hlookup : (documentMembers lead members).lookup key = some keyword) :
    keyword.hasKey "patternProperties" = false :=
  (Json.hasKey_obj_eq_false h.patterns (mem_of_lookup hlookup)).2

theorem Accepting.ofType (hdraft : Draft7 package.Named accepts)
    (h : Accepting accepts documents depth document lead members value)
    {name : String} (htype : textMember members "type" = some name) :
    Validation.ofType? name value = some true := by
  apply hdraft.type h.run h.unreferred
  rw [lookup_documentMembers_eq_some lead (by decide) (textMember_eq_some_iff.mp htype)]
  simp [documentMember]

theorem Accepting.required (hdraft : Draft7 package.Named accepts)
    (h : Accepting accepts documents depth document lead members (.obj entries)) {name : String}
    (hrequired : holdsText (requiredNames members) name = true) :
    (entries.lookup name).isSome = true := by
  cases hlookup : members.lookup "required" with
  | none => simp [requiredNames, hlookup, holdsText] at hrequired
  | some required =>
    have hkeyword := lookup_documentMembers_eq_some lead (by decide) hlookup
    cases required with
    | arr items =>
      have hmem : .str name ∈ items := by
        simpa [requiredNames, hlookup, Json.arr?, holdsText_iff] using hrequired
      rw [documentMember_arr, withoutDocumentation] at hkeyword
      refine hdraft.required h.run h.unreferred hkeyword ?_
      rw [itemsWithoutDocumentation_eq_map]
      exact List.mem_map.mpr ⟨.str name, hmem, by simp [withoutDocumentation]⟩
    | _ => simp [requiredNames, hlookup, holdsText, Json.arr?] at hrequired

theorem Accepting.declared (hdraft : Draft7 package.Named accepts)
    (hsound : package.SoundAt accepts documents depth)
    (h : Accepting accepts documents depth document lead members (.obj entries))
    {property : String × Json} (hproperty : property ∈ propertySchemas members)
    (hplain : isDocumentation property.1 = false)
    (henforced : package.Enforced (schemaType lead property.2))
    (hvalue : entries.lookup property.1 = some value) :
    Inhabits package.typeNamed (schemaType lead property.2) value := by
  obtain ⟨schemas, hlookup, hmem⟩ := mem_propertySchemas.mp hproperty
  have hkeyword := lookup_documentMembers_eq_some lead (by decide) hlookup
  rw [documentMember_obj] at hkeyword
  have hdocument : (property.1, documentMember lead property.1 property.2) ∈
      documentMembers lead schemas := mem_documentMembers hplain hmem
  obtain ⟨found, heq, haccepted⟩ := hdraft.properties h.run h.unreferred hkeyword
  obtain rfl := Json.obj.inj heq
  exact hsound henforced h.identifier
    (Json.hasKey_obj_eq_false (h.patterns_of_lookup hkeyword) hdocument).2
    (haccepted hdocument hvalue)

/-- A key that no property has is not declared in the document either. Where properties are declared
by something that is no mapping, no object is accepted. -/
theorem Accepting.notDeclared (hdraft : Draft7 package.Named accepts)
    (h : Accepting accepts documents depth document lead members (.obj entries))
    (hkey : ∀ property ∈ propertySchemas members, property.1 ≠ key) {properties : Json}
    (hlookup : (documentMembers lead members).lookup "properties" = some properties) :
    ∃ schemas, properties = .obj schemas ∧ schemas.lookup key = none := by
  obtain ⟨found, rfl, -⟩ := hdraft.properties h.run h.unreferred hlookup
  refine ⟨found, rfl, ?_⟩
  rw [lookup_documentMembers_of_keyword (by decide)] at hlookup
  obtain ⟨properties, hproperties, hdocument⟩ := Option.map_eq_some_iff.mp hlookup
  have hobject : properties.isObject = true := by
    have hsame : (documentMember lead "properties" properties).isObject = properties.isObject :=
      isObject_documentMember
    rw [← hsame, hdocument]
    rfl
  cases properties with
  | obj schemas =>
    have hnone : schemas.lookup key = none := by
      rw [List.lookup_eq_none_iff]
      intro property hmem
      have hproperty := mem_propertySchemas.mpr ⟨schemas, hproperties, hmem⟩
      exact bne_iff_ne.mpr (hkey property hproperty).symm
    rw [documentMember_obj] at hdocument
    rw [← Json.obj.inj hdocument, lookup_documentMembers, hnone]
    simp
  | _ => cases hobject

theorem Accepting.undeclared (hdraft : Draft7 package.Named accepts)
    (hsound : package.SoundAt accepts documents depth)
    (h : Accepting accepts documents depth document lead members (.obj entries))
    {additional : Json} (hlookup : members.lookup "additionalProperties" = some additional)
    (henforced : package.Enforced (schemaType lead additional))
    (hmember : (key, value) ∈ entries)
    (hkey : ∀ property ∈ propertySchemas members, property.1 ≠ key) :
    Inhabits package.typeNamed (schemaType lead additional) value := by
  cases hobject : additional.isObject with
  | false =>
    rw [schemaType_of_not_object hobject]
    exact .any
  | true =>
    have hkeyword := lookup_documentMembers_eq_some lead (by decide) hlookup
    have hpatterns : (documentMembers lead members).lookup "patternProperties" = none := by
      rw [List.lookup_eq_none_iff]
      rintro ⟨name, keyword⟩ hmem
      exact bne_iff_ne.mpr (Json.hasKey_obj_eq_false h.patterns hmem).1.symm
    have haccepted := hdraft.additionalProperties h.run h.unreferred hpatterns hkeyword
      (isObject_documentMember.trans hobject) hmember (h.notDeclared hdraft hkey)
    exact hsound henforced h.identifier (h.patterns_of_lookup hkeyword) haccepted

theorem Accepting.eachItem (hdraft : Draft7 package.Named accepts)
    (hsound : package.SoundAt accepts documents depth)
    (h : Accepting accepts documents depth document lead members (.arr items))
    (henforced : package.Enforced (itemType lead members)) (hitem : value ∈ items) :
    Inhabits package.typeNamed (itemType lead members) value := by
  rw [itemType] at henforced ⊢
  cases hlookup : members.lookup "items" with
  | none => exact .any
  | some schema =>
    rw [hlookup] at henforced
    rw [Option.map_some, Option.getD_some] at henforced ⊢
    cases hobject : schema.isObject with
    | false =>
      rw [schemaType_of_not_object hobject]
      exact .any
    | true =>
      have hkeyword := lookup_documentMembers_eq_some lead (by decide) hlookup
      have haccepted := hdraft.items h.run h.unreferred hkeyword
        (isObject_documentMember.trans hobject) hitem
      exact hsound henforced h.identifier (h.patterns_of_lookup hkeyword) haccepted

theorem Accepting.object (hdraft : Draft7 package.Named accepts)
    (hsound : package.SoundAt accepts documents depth)
    (h : Accepting accepts documents depth document lead members (.obj entries))
    (henforced : package.Enforced
      (.object (declaredFields lead members) (indexType lead members))) :
    Inhabits package.typeNamed (.object (declaredFields lead members) (indexType lead members))
      (.obj entries) := by
  have hfield {property : String × Json} (hproperty : property ∈ propertySchemas members) :=
    henforced.field (List.mem_map_of_mem hproperty)
  refine .object ?_ ?_ ?_
  · intro entry hentry hrequired
    obtain ⟨property, _, rfl⟩ := List.mem_map.mp hentry
    exact h.required hdraft hrequired
  · intro entry hentry value hvalue
    obtain ⟨property, hproperty, rfl⟩ := List.mem_map.mp hentry
    obtain ⟨hplain, hinner⟩ := hfield hproperty
    exact h.declared hdraft hsound hproperty hplain hinner hvalue
  · intro type htype member hmember hothers
    rw [htype] at henforced
    rw [indexType] at htype
    split at htype
    · obtain ⟨additional, hlookup, rfl⟩ := Option.map_eq_some_iff.mp htype
      refine h.undeclared hdraft hsound hlookup henforced.index hmember ?_
      intro property hproperty
      exact hothers _ (List.mem_map_of_mem hproperty)
    · cases htype

/-- A schema without a reference. -/
theorem Accepting.inhabits (hdraft : Draft7 package.Named accepts)
    (hsound : package.SoundAt accepts documents depth)
    (h : Accepting accepts documents depth document lead members value)
    (henforced : package.Enforced (schemaType lead (.obj members))) :
    Inhabits package.typeNamed (schemaType lead (.obj members)) value := by
  have hreference : textMember members "$ref" = none := by
    have hnone := h.unreferred
    rw [lookup_documentMembers_of_keyword (by decide), Option.map_eq_none_iff] at hnone
    simp [textMember, hnone]
  revert henforced
  rw [schemaType_obj, hreference]
  simp only
  split
  · rename_i htype
    intro henforced
    have hvalue := h.ofType hdraft htype
    cases value with
    | obj entries => exact h.object hdraft hsound henforced
    | _ => simp [Validation.ofType?, Json.isObject] at hvalue
  · rename_i htype
    intro _
    split
    · exact .text (inhabits_string (h.ofType hdraft htype))
    · exact inhabits_string (h.ofType hdraft htype)
  · rename_i htype
    intro _
    exact inhabits_number (h.ofType hdraft htype)
  · rename_i htype
    intro _
    exact inhabits_integer (h.ofType hdraft htype)
  · rename_i htype
    intro _
    exact inhabits_boolean (h.ofType hdraft htype)
  · rename_i htype
    intro henforced
    have hvalue := h.ofType hdraft htype
    cases value with
    | arr items => exact .array fun item hitem ↦ h.eachItem hdraft hsound henforced.item hitem
    | _ => simp [Validation.ofType?, Json.arr?] at hvalue
  · rename_i htype
    intro _
    exact inhabits_null (h.ofType hdraft htype)
  · intro _
    exact .any

/-! ## Registered documents -/

/-- The document that replaces a declared text accepts texts and whole numbers. -/
theorem inhabits_of_intOrStringDocument (hdraft : Draft7 package.Named accepts)
    (h : accepts depth documents document intOrStringDocument value) :
    Inhabits package.typeNamed .textOrNumber value := by
  have hdepth {depth : Nat} {schema : Json} (h : accepts depth documents document schema value) :
      ∃ less, depth = less + 1 := Nat.exists_eq_add_one.mpr (hdraft.schema h).1
  obtain ⟨less, rfl⟩ := hdepth h
  obtain ⟨schema, hschema, haccepted⟩ := hdraft.oneOf h rfl rfl
  obtain ⟨less, rfl⟩ := hdepth haccepted
  rcases List.mem_pair.mp hschema with rfl | rfl
  · exact .text (inhabits_string (hdraft.type haccepted rfl rfl))
  · exact .number (inhabits_integer (hdraft.type haccepted rfl rfl))

theorem SoundAt.ownDocument (hdraft : Draft7 package.Named accepts)
    (hsound : package.SoundAt accepts documents depth) (hregular : package.Regular)
    {config : Config} {definitions : List (String × Json)}
    (hpackage : Package.of config definitions = .ok package)
    (hdefines : package.Defines definition)
    (h : accepts depth documents definition.document definition.document value) :
    Inhabits package.typeNamed definition.type value := by
  obtain ⟨hpatterns, hidentifier⟩ := hregular.unread hdefines
  obtain ⟨schema, conventions, _, _, hdefinition⟩ := schema_of_lookup hpackage hdefines
  generalize definition.names.name = name at hdefinition
  subst hdefinition
  have henforced := hregular.enforced hdefines
  by_cases hname : name = intOrStringName
  · subst hname
    rw [hregular.intOrString hdefines]
    rw [Definition.document_of, registryDocument_intOrString] at h
    exact inhabits_of_intOrStringDocument hdraft h
  · cases schema with
    | obj members =>
      rw [Definition.document_of, registryDocument_obj hname] at h hpatterns hidentifier
      exact hsound henforced hidentifier hpatterns h
    | _ => exact .any

/-- A reference leads to a registered document, and no document takes the place of a function. -/
theorem SoundAt.resolved (hdraft : Draft7 package.Named accepts)
    (hsound : package.SoundAt accepts documents depth) (hregular : package.Regular)
    {config : Config} {definitions : List (String × Json)}
    (hpackage : Package.of config definitions = .ok package)
    (hdocuments : ∀ {name document}, documents.lookup name = some document →
      package.Registrable name document)
    {name : String} (hnamed : package.Named name) {reference : Json}
    (hreference : members.lookup "$ref" = some reference) (hkey : reference = .str (name ++ "#"))
    (hidentifier : document.hasKey "$id" = false)
    (h : accepts (depth + 1) documents document (.obj members) value) :
    ∃ type, package.typeNamed name = some type ∧ Inhabits package.typeNamed type value := by
  obtain ⟨text, htext, hresolved⟩ := hdraft.reference h hreference
  obtain rfl : text = name ++ "#" := Json.str.inj (htext.symm.trans hkey)
  obtain ⟨target, hlookup, haccepted⟩ := hresolved name hnamed rfl hidentifier
  obtain ⟨definition, hdefines, rfl, rfl | rfl⟩ := hdocuments hlookup
  · exact ⟨definition.type, typeNamed_of_defines hdefines,
      hsound.ownDocument hdraft hregular hpackage hdefines haccepted⟩
  · obtain ⟨_, hnull | hobject⟩ := hdraft.schema haccepted
    · cases hnull
    · cases hobject

theorem soundAt (hdraft : Draft7 package.Named accepts) {config : Config}
    {definitions : List (String × Json)} (hpackage : Package.of config definitions = .ok package)
    (hregular : package.Regular)
    (hdocuments : ∀ {name document}, documents.lookup name = some document →
      package.Registrable name document)
    (depth : Nat) : package.SoundAt accepts documents depth := by
  induction depth with
  | zero =>
    intro lead key schema document value _ _ _ h
    exact absurd (hdraft.schema h).1 (Nat.lt_irrefl 0)
  | succ depth ih =>
    intro lead key schema document value henforced hidentifier hpatterns h
    cases hobject : schema.isObject with
    | false =>
      rw [schemaType_of_not_object hobject]
      exact .any
    | true =>
      cases schema with
      | obj members =>
        rw [documentMember_obj] at h hpatterns
        cases hreference : (documentMembers lead members).lookup "$ref" with
        | none =>
          have haccepting : Accepting accepts documents depth document lead members value :=
            ⟨h, hreference, hidentifier, hpatterns⟩
          exact haccepting.inhabits hdraft ih henforced
        | some reference =>
          obtain ⟨text, rfl, -⟩ := hdraft.reference h hreference
          have hmember := hreference
          rw [lookup_documentMembers_of_keyword (by decide)] at hmember
          obtain ⟨original, hvalue, hrewritten⟩ := Option.map_eq_some_iff.mp hmember
          obtain ⟨written, rfl, hkey⟩ := documentMember_ref_eq_str hrewritten
          have htype :
              schemaType lead (.obj members) = .reference (referenceTarget lead written) := by
            rw [schemaType_obj, textMember_eq_some_iff.mpr hvalue]
          rw [htype] at henforced ⊢
          have hnamed : package.Named (referenceTarget lead written) :=
            henforced.references _ (by simp [TypeExpr.references])
          obtain ⟨type, hfound, hinhabits⟩ := ih.resolved hdraft hregular hpackage hdocuments
            hnamed hreference (congrArg Json.str hkey) hidentifier h
          exact .reference hfound hinhabits
      | _ => cases hobject

/-- An instance that the registry filled by a definition's function accepts for that definition is
an instance of the definition's type, for every validator that follows draft 7 and resolves the keys
of the definitions' names to their documents. -/
theorem inhabits_of_isValid {validator : Validator} {config : Config}
    {definitions : List (String × Json)}
    (hpackage : Package.of config definitions = .ok package) (hregular : package.Regular)
    (hvalidator : validator.FollowsDraft7 package.Named)
    (hdefines : package.Defines definition) (value : Json)
    (hvalid : (package.register definition {}).1.isValid validator definition.names.name value =
      .ok true) :
    Inhabits package.typeNamed definition.type value := by
  have hgrows := register_grows (wellNamed_of_eq_ok hpackage) hdefines {}
  generalize (package.register definition {}).1 = registry at hgrows hvalid
  have hdocuments {name : String} {document : Json}
      (hfound : registry.documents.lookup name = some document) :
      package.Registrable name document := by
    rcases hgrows.added (mem_of_document? hfound) with hold | ⟨hregistrable, _⟩
    · cases hold
    · exact hregistrable
  obtain ⟨accepts, hdraft, hruns⟩ := hvalidator
  rw [isValid] at hvalid
  split at hvalid
  · obtain ⟨depth, haccepted⟩ := hruns hvalid
    obtain ⟨less, rfl⟩ := Nat.exists_eq_add_one.mpr (hdraft.schema haccepted).1
    have hsound : package.SoundAt accepts registry.documents less :=
      soundAt hdraft hpackage hregular hdocuments less
    obtain ⟨type, htype, hinhabits⟩ := hsound.resolved hdraft hregular hpackage hdocuments
      hdefines.named rfl rfl (by simp [referenceTo, Json.hasKey, Json.membersHaveKey]) haccepted
    rw [typeNamed_of_defines hdefines] at htype
    cases htype
    exact hinhabits
  · cases hvalid

/-- A definition that refers to itself, and the one that stands for texts and whole numbers. -/
def portDefinitions : List (String × Json) :=
  [("x.Port", .obj [("required", .arr [.str "number"]),
      ("properties", .obj [
        ("number", .obj [("$ref", .str ("#/definitions/" ++ intOrStringName))]),
        ("next", .obj [("$ref", .str "#/definitions/x.Port")])])]),
    (intOrStringName, .obj [("type", .str "string"), ("format", .str "int-or-string")])]

def portInstance : Json :=
  .obj [("number", .int 80), ("next", .obj [("number", .str "http")])]

theorem inhabits_portInstance :
    ∃ package definition, Package.of {} portDefinitions = .ok package ∧ package.Regular ∧
      Validation.draft7.FollowsDraft7 package.Named ∧
      package.definitions.lookup "x.Port" = some definition ∧ package.Defines definition ∧
      (package.register definition {}).1.isValid Validation.draft7 definition.names.name
        portInstance = .ok true ∧
      Inhabits package.typeNamed definition.type portInstance := by
  have hchecked : (Package.of {} portDefinitions).toOption.any (fun package ↦
      package.isRegular && package.definitions.all (Validation.isFlat ·.1) &&
        (package.definitions.lookup "x.Port").any fun definition ↦
          ((package.register definition {}).1.isValid Validation.draft7 definition.names.name
            portInstance).toOption == some true) = true := by
    decide +kernel
  obtain ⟨package, hpackage, hchecked⟩ := exists_eq_ok_of_check hchecked
  obtain ⟨hchecked, haccepted⟩ := Bool.and_eq_true_iff.mp hchecked
  obtain ⟨hregular, hflat⟩ := Bool.and_eq_true_iff.mp hchecked
  obtain ⟨definition, hlookup, hanswer⟩ := (Option.any_eq_true _ _).mp haccepted
  have hregular := regular_of_isRegular hregular
  have hvalidator : Validation.draft7.FollowsDraft7 package.Named :=
    Validation.followsDraft7_draft7 fun _ ↦ Validation.flatKey_of_lookup hflat
  have hdefines := (wellNamed_of_eq_ok hpackage).defines_of_lookup hlookup
  have hvalid : (package.register definition {}).1.isValid Validation.draft7
      definition.names.name portInstance = .ok true := by
    cases hanswered : (package.register definition {}).1.isValid Validation.draft7
        definition.names.name portInstance with
    | error fault => simp [hanswered, Except.toOption] at hanswer
    | ok answer => simpa [hanswered, Except.toOption] using hanswer
  refine ⟨package, definition, hpackage, hregular, hvalidator, hlookup, hdefines, hvalid, ?_⟩
  exact inhabits_of_isValid hpackage hregular hvalidator hdefines portInstance hvalid

end SchemaModules.Package
