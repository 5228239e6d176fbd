import SchemaModules.Output.Generate
import SchemaModules.Proofs.ModuleLines
import SchemaModules.Proofs.TypeReferences

/-!
# Imports of interfaces

A module imports the interfaces of its dependencies. Whatever definition its type mentions is a
dependency or the definition itself, so every interface that a module names is imported or its own.
-/

namespace SchemaModules

open Naming

variable {config : Config} {name target : String} {schema : Json} {definition : Definition}

theorem nodup_eraseDups {α : Type} [BEq α] [LawfulBEq α] (values : List α) :
    values.eraseDups.Nodup := by
  cases values with
  | nil => simp
  | cons value rest =>
    rw [List.eraseDups_cons, List.nodup_cons]
    exact ⟨by simp, nodup_eraseDups _⟩
termination_by values.length
decreasing_by
  have := List.length_filter_le (fun other ↦ !other == value) rest
  simp_all only [List.length_cons]
  omega

/-- A definition can be analysed as soon as the configuration says what names and references begin
with. -/
theorem exists_analyze_eq_ok (hname : (Config.leadText? config.definitionLead).isSome)
    (hreference : (Config.leadText? config.referenceLead).isSome) (name : String) (schema : Json) :
    ∃ definition, Output.analyze config name schema = .ok definition := by
  obtain ⟨nameLead, hnameLead⟩ := Option.isSome_iff_exists.mp hname
  obtain ⟨referenceLead, hreferenceLead⟩ := Option.isSome_iff_exists.mp hreference
  have hconventions :
      config.conventions schema = .ok ⟨config.language, nameLead, referenceLead⟩ := by
    simp [Config.conventions, hnameLead, hreferenceLead, pure, Except.pure]
  exact ⟨_, bind_eq_ok_iff.mpr ⟨_, hconventions, rfl⟩⟩

/-- The lines by which a module of the given language imports the interface of a dependency. -/
def interfaceImport (language : Language) (definition : Definition) (dependency : Names) :
    Except Fault (List String) :=
  match language with
  | .python => .ok [Python.interfaceImport definition dependency]
  | .typescript => TypeScript.dependencyImport definition.names dependency

theorem hasLines_interfaceImport {language : Language} {dependency : Names} {comment text : String}
    (hmem : dependency ∈ definition.dependencies)
    (h : Output.renderDefinition language definition comment = .ok text) :
    ∃ lines, interfaceImport language definition dependency = .ok lines ∧ HasLines text lines := by
  cases language with
  | python =>
    rw [Output.renderDefinition, Except.ok.injEq] at h
    have hlines := Python.hasLines_interfaceImport (m := .of definition)
      (by rwa [Python.definition_of]) comment
    rw [h, Python.definition_of] at hlines
    exact ⟨_, rfl, hlines⟩
  | typescript => exact TypeScript.hasLines_dependencyImport hmem h

/-- What a definition's module names and what it imports. -/
structure ImportsInterfaces (language : Language) (definition : Definition) : Prop where
  /-- Each definition mentioned in the type is the module's own or a dependency. -/
  mentioned : ∀ target ∈ definition.type.references, target = definition.names.name ∨
    ∃ dependency ∈ definition.dependencies,
      dependency.name = target ∧ dependency.interfaceName = interfaceName target
  /-- The module imports the interface of each dependency. -/
  imported : ∀ dependency ∈ definition.dependencies, ∀ {comment text},
    Output.renderDefinition language definition comment = .ok text →
      ∃ lines, interfaceImport language definition dependency = .ok lines ∧ HasLines text lines
  distinct : (definition.dependencies.map Names.name).Nodup
  others : ∀ dependency ∈ definition.dependencies, dependency.name ≠ definition.names.name

theorem importsInterfaces_of (language : Language) (conventions : Conventions) (name : String)
    (schema : Json) : ImportsInterfaces language (.of conventions name schema) where
  mentioned target hmentioned := by
    refine (Definition.mem_dependencies_of_mem_references hmentioned).imp_right fun hmem ↦ ?_
    obtain ⟨dependency, hdependency, rfl⟩ := List.mem_map.mp hmem
    refine ⟨dependency, hdependency, rfl, ?_⟩
    obtain ⟨found, _, rfl⟩ := List.mem_map.mp hdependency
    rfl
  imported dependency hdependency _ _ := hasLines_interfaceImport hdependency
  distinct := by
    rw [Definition.map_name_dependencies]
    exact nodup_eraseDups _
  others dependency hdependency := by
    have hmem := List.mem_map_of_mem (f := Names.name) hdependency
    rw [Definition.map_name_dependencies] at hmem
    exact (Schema.mem_othersOnce.mp hmem).2

/-- Under any configuration, the module of an analysed definition imports every interface that its
type mentions. With leads to cut off, every schema can be analysed. -/
theorem analyze_importsInterfaces (config : Config) (name : String) (schema : Json) :
    ((Config.leadText? config.definitionLead).isSome →
      (Config.leadText? config.referenceLead).isSome →
        ∃ definition, Output.analyze config name schema = .ok definition) ∧
      ∀ definition, Output.analyze config name schema = .ok definition →
        definition.names.name = name ∧ ImportsInterfaces config.language definition := by
  refine ⟨fun hname hreference ↦ exists_analyze_eq_ok hname hreference name schema, ?_⟩
  intro definition hanalyze
  obtain ⟨conventions, _, rfl⟩ := Package.analyze_eq_ok hanalyze
  exact ⟨rfl, importsInterfaces_of config.language conventions name schema⟩

/-- A schema with a property called `$ref`, a reference to its own definition and one to another
inside an array of mappings. -/
def selfReferringSchema : Json :=
  .obj [("properties", .obj [
    ("$ref", .obj [("type", .str "string")]),
    ("next", .obj [("$ref", .str "#/definitions/x.A")]),
    ("parts", .obj [("type", .str "array"), ("items", .obj [("type", .str "object"),
      ("additionalProperties", .obj [("$ref", .str "#/definitions/x.B")])])])])]

theorem analyze_importsInterfaces_selfReferringSchema :
    ∃ definition, Output.analyze {} "x.A" selfReferringSchema = .ok definition ∧
      definition.type.references = ["x.A", "x.B"] ∧
      definition.dependencies.map Names.name = ["x.B"] ∧
      ImportsInterfaces .python definition := by
  obtain ⟨hreturns, himports⟩ := analyze_importsInterfaces {} "x.A" selfReferringSchema
  obtain ⟨definition, hanalyze⟩ := hreturns rfl rfl
  obtain rfl : .of ⟨.python, "io.k8s.", "#/definitions/"⟩ "x.A" selfReferringSchema = definition :=
    Except.ok.inj hanalyze
  exact ⟨_, hanalyze, by decide +kernel, by decide +kernel, (himports _ hanalyze).2⟩

end SchemaModules
