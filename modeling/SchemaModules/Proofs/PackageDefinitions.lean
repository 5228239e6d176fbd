import SchemaModules.Package.Basic
import SchemaModules.Proofs.Lookup

/-!
# Definitions of loaded packages

A package keeps its definitions under their names, each derived from its own schema. Whatever the
module of a definition imports is again a definition of the package.
-/

namespace SchemaModules

open Naming

namespace Definition

variable {conventions : Conventions} {name : String} {schema : Json}

theorem document_of : (Definition.of conventions name schema).document =
    Schema.registryDocument conventions.referenceLead name schema := rfl

end Definition

namespace Package

variable {config : Config} {definitions : List (String × Json)} {package : Package}
  {definition : Definition} {name : String}

/-- A definition of the package, found under its own name. -/
def Defines (package : Package) (definition : Definition) : Prop :=
  package.definitions.lookup definition.names.name = some definition

/-- A name that a definition of the package has. -/
def Named (package : Package) (name : String) : Prop :=
  (package.definitions.lookup name).isSome = true

theorem Defines.named (h : package.Defines definition) : package.Named definition.names.name := by
  rw [Named, h]
  rfl

theorem Defines.mem (h : package.Defines definition) :
    (definition.names.name, definition) ∈ package.definitions :=
  mem_of_lookup h

theorem Defines.eq_of_name {other : Definition} (h : package.Defines definition)
    (hother : package.Defines other) (hname : definition.names.name = other.names.name) :
    definition = other := by
  rw [Defines, ← hname, h] at hother
  exact Option.some.inj hother

/-! ## Packages made from a document -/

theorem analyze_eq_ok {schema : Json} (h : Output.analyze config name schema = .ok definition) :
    ∃ conventions, config.conventions schema = .ok conventions ∧
      definition = .of conventions name schema := by
  cases hconventions : config.conventions schema with
  | error fault => simp [Output.analyze, hconventions, bind, Except.bind] at h
  | ok conventions =>
    simp only [Output.analyze, hconventions, bind, Except.bind, pure, Except.pure,
      Except.ok.injEq] at h
    exact ⟨conventions, rfl, h.symm⟩

theorem schema_of_mem_definedIn {defined : List (String × Definition)}
    (h : definedIn config definitions = .ok defined) (hmem : (name, definition) ∈ defined) :
    ∃ schema, (name, schema) ∈ definitions ∧
      Output.analyze config name schema = .ok definition := by
  induction definitions generalizing defined with
  | nil =>
    simp only [definedIn, Except.ok.injEq] at h
    simp [← h] at hmem
  | cons entry rest ih =>
    obtain ⟨first, schema⟩ := entry
    simp only [definedIn, bind, Except.bind, pure, Except.pure] at h
    split at h
    · cases h
    split at h
    · obtain ⟨found, hfound, hanalyze⟩ := ih h hmem
      exact ⟨found, List.mem_cons_of_mem _ hfound, hanalyze⟩
    split at h
    · cases h
    split at h
    · cases h
    · rename_i hanalyze _ others hothers
      cases h
      rcases List.mem_cons.mp hmem with heq | hrest
      · cases heq
        exact ⟨schema, List.mem_cons_self, hanalyze⟩
      · obtain ⟨found, hfound, hanalyze⟩ := ih hothers hrest
        exact ⟨found, List.mem_cons_of_mem _ hfound, hanalyze⟩

theorem definedIn_of_eq_ok (h : Package.of config definitions = .ok package) :
    definedIn config definitions = .ok package.definitions ∧ package.config = config := by
  simp only [Package.of, bind, Except.bind] at h
  split at h
  · cases h
  · rename_i defined hdefined
    split at h
    · cases h
      exact ⟨hdefined, rfl⟩
    · cases h

/-- Each definition of a package is derived from a schema of the document, under the conventions
that hold for that schema. -/
theorem schema_of_lookup (h : Package.of config definitions = .ok package)
    (hlookup : package.definitions.lookup name = some definition) :
    ∃ schema conventions, (name, schema) ∈ definitions ∧
      config.conventions schema = .ok conventions ∧
      definition = .of conventions name schema := by
  obtain ⟨schema, hschema, hanalyze⟩ :=
    schema_of_mem_definedIn (definedIn_of_eq_ok h).1 (mem_of_lookup hlookup)
  obtain ⟨conventions, hconventions, hdefinition⟩ := analyze_eq_ok hanalyze
  exact ⟨schema, conventions, hschema, hconventions, hdefinition⟩

/-- A check of the package that a document makes. -/
theorem exists_eq_ok_of_check {check : Package → Bool}
    (h : (Package.of config definitions).toOption.any check = true) :
    ∃ package, Package.of config definitions = .ok package ∧ check package = true := by
  cases hpackage : Package.of config definitions with
  | error fault => simp [hpackage, Except.toOption] at h
  | ok package => exact ⟨package, rfl, by simpa [hpackage, Except.toOption] using h⟩

theorem registryDocument_isObject (lead name : String) (schema : Json) :
    (Schema.registryDocument lead name schema).isObject = true := by
  unfold Schema.registryDocument
  split
  · rfl
  · split <;> rfl

/-- Every definition is kept under its own name and has a mapping as its document. -/
structure WellNamed (package : Package) : Prop where
  named : ∀ {name definition}, package.definitions.lookup name = some definition →
    definition.names.name = name
  document_isObject : ∀ {definition}, package.Defines definition →
    definition.document.isObject = true

theorem wellNamed_of_eq_ok (h : Package.of config definitions = .ok package) :
    package.WellNamed where
  named hlookup := by
    obtain ⟨_, _, _, _, rfl⟩ := schema_of_lookup h hlookup
    rfl
  document_isObject hdefines := by
    obtain ⟨schema, conventions, _, _, hdefinition⟩ := schema_of_lookup h hdefines
    rw [hdefinition, Definition.document_of]
    exact registryDocument_isObject _ _ _

/-! ## Imports -/

theorem WellNamed.defines_of_lookup (h : package.WellNamed)
    (hlookup : package.definitions.lookup name = some definition) :
    package.Defines definition := by
  rw [Defines, h.named hlookup]
  exact hlookup

/-- Whatever holds the module at a place of the tree, it is a definition of the package. -/
theorem WellNamed.defines_of_find (h : package.WellNamed) {path : List String}
    (hfind : (package.tree.find? path).bind (package.definitions.lookup ·) = some definition) :
    package.Defines definition := by
  obtain ⟨name, _, hlookup⟩ := Option.bind_eq_some_iff.mp hfind
  exact h.defines_of_lookup hlookup

theorem WellNamed.defines_of_load (h : package.WellNamed) {path : List String}
    (hload : package.load path = .ok (.definition definition)) : package.Defines definition := by
  unfold load at hload
  split at hload
  · cases hload
  split at hload
  · cases hload
  split at hload
  · rename_i found hfound
    cases hload
    exact h.defines_of_find hfound
  · cases hload

/-- The index of a directory passes on names of definitions alone. -/
theorem WellNamed.defines_of_mem_indexBindings (h : package.WellNamed) {index : ModuleTree.Index}
    (hmem : (name, some definition) ∈ package.indexBindings index) :
    package.Defines definition := by
  rcases List.mem_append.mp hmem with hmodule | hpackage
  · obtain ⟨segment, _, hbinding⟩ := List.mem_flatMap.mp hmodule
    rcases List.mem_cons.mp hbinding with hsegment | hexport
    · cases hsegment
    · cases hfind : (package.tree.find? (index.path ++ [segment])).bind
          (package.definitions.lookup ·) with
      | none => simp [hfind] at hexport
      | some found =>
        obtain rfl : found = definition := by
          simp only [hfind, Option.map_some, Option.getD_some] at hexport
          obtain ⟨_, _, heq⟩ := List.mem_map.mp hexport
          cases heq
          rfl
        exact h.defines_of_find hfind
  · obtain ⟨_, _, heq⟩ := List.mem_map.mp hpackage
    cases heq

theorem WellNamed.defines_of_exporter (h : package.WellNamed) {path : List String} {place : Place}
    (hload : package.load path = .ok place)
    (hexporter : package.exporter? name place = some definition) : package.Defines definition := by
  cases place with
  | definition found =>
    cases hexporter
    exact h.defines_of_load hload
  | directory index =>
    have hlookup := Option.join_eq_some_iff.mp hexporter
    exact h.defines_of_mem_indexBindings (List.mem_reverse.mp (mem_of_lookup hlookup))
  | support => cases hexporter

theorem WellNamed.defines_of_importFor (h : package.WellNamed) {dependency : Names}
    (himport : package.importFor dependency = .ok definition) : package.Defines definition := by
  unfold importFor at himport
  cases hload : package.load dependency.path with
  | error fault => simp [hload, bind, Except.bind] at himport
  | ok place =>
    simp only [hload, bind, Except.bind] at himport
    split at himport
    · cases himport
    · rename_i exporter hexporter
      split at himport
      · cases himport
        exact h.defines_of_exporter hload hexporter
      · cases himport

theorem importAll_cons_eq_ok {dependency : Names} {rest : List Names}
    {imports : List (String × Definition)}
    (h : package.importAll (dependency :: rest) = .ok imports) :
    ∃ imported others, package.importFor dependency = .ok imported ∧
      package.importAll rest = .ok others ∧
      imports = (dependency.addSchemaName, imported) :: others := by
  simp only [importAll, bind, Except.bind, pure, Except.pure] at h
  split at h
  · cases h
  · rename_i imported himported
    split at h
    · cases h
    · rename_i others hothers
      cases h
      exact ⟨imported, others, himported, hothers, rfl⟩

theorem WellNamed.defines_of_importAll (h : package.WellNamed) {dependencies : List Names}
    {imports : List (String × Definition)} (himports : package.importAll dependencies = .ok imports)
    (hmem : (name, definition) ∈ imports) : package.Defines definition := by
  induction dependencies generalizing imports with
  | nil =>
    cases himports
    cases hmem
  | cons dependency rest ih =>
    obtain ⟨imported, others, hfirst, hrest, rfl⟩ := importAll_cons_eq_ok himports
    rcases List.mem_cons.mp hmem with heq | hothers
    · cases heq
      exact h.defines_of_importFor hfirst
    · exact ih hrest hothers

/-- Functions are imported under the names that the dependencies give them. -/
theorem map_fst_importAll {dependencies : List Names} {imports : List (String × Definition)}
    (himports : package.importAll dependencies = .ok imports) :
    imports.map Prod.fst = dependencies.map Names.addSchemaName := by
  induction dependencies generalizing imports with
  | nil =>
    cases himports
    rfl
  | cons dependency rest ih =>
    obtain ⟨imported, others, _, hrest, rfl⟩ := importAll_cons_eq_ok himports
    simp [ih hrest]

/-- Whatever a registering function calls is the function of a definition. -/
theorem WellNamed.defines_of_calledFor (h : package.WellNamed) {dependencies : List Names}
    {imports : List (String × Definition)} (himports : package.importAll dependencies = .ok imports)
    (hcalled : definition ∈ calledFor imports) : package.Defines definition := by
  obtain ⟨⟨imported, _⟩, _, hlookup⟩ := List.mem_filterMap.mp hcalled
  exact h.defines_of_importAll himports (List.mem_reverse.mp (mem_of_lookup hlookup))

end Package

end SchemaModules
