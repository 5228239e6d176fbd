import SchemaModules.Proofs.CompiledModules
import SchemaModules.Proofs.GenerationOutcome
import SchemaModules.Proofs.InterfaceImports
import SchemaModules.Proofs.RegistrationOrder

/-!
# Calls of references

A module imports the registering function of each reference under a name made of the class name of
the reference. Class names are not unique: dots and dashes are dropped and first letters raised.
Where two references of a definition share one, the function imported last is called for both.

The main statement says that every reference has its own names and its own call exactly when the
class names of the references are distinct.
-/

namespace SchemaModules

open Naming

variable {package : Package} {definition : Definition} {config : Config} {commandLine : String}
  {definitions : List (String × Json)} {imports : List (String × Definition)}
  {formatter : Option Output.Formatter}

namespace Definition

variable {conventions : Conventions} {name : String} {schema : Json}

theorem map_addSchemaName_dependencies :
    (Definition.of conventions name schema).dependencies.map Names.addSchemaName =
      ((Definition.of conventions name schema).dependencies.map Names.className).map
        (· ++ "AddSchema") := by
  simp only [Definition.of, Conventions.dependencies, List.map_map]
  rfl

theorem map_interfaceName_dependencies :
    (Definition.of conventions name schema).dependencies.map Names.interfaceName =
      ((Definition.of conventions name schema).dependencies.map Names.className).map
        ("I" ++ ·) := by
  simp only [Definition.of, Conventions.dependencies, List.map_map]
  rfl

theorem nodup_addSchemaNames_iff :
    ((Definition.of conventions name schema).dependencies.map Names.addSchemaName).Nodup ↔
      ((Definition.of conventions name schema).dependencies.map Names.className).Nodup := by
  rw [map_addSchemaName_dependencies]
  apply List.nodup_map_iff
  intro first second h
  simpa using h

theorem nodup_interfaceNames_iff :
    ((Definition.of conventions name schema).dependencies.map Names.interfaceName).Nodup ↔
      ((Definition.of conventions name schema).dependencies.map Names.className).Nodup := by
  rw [map_interfaceName_dependencies]
  apply List.nodup_map_iff
  intro first second h
  simpa using h

end Definition

namespace Package

/-! ## Imports and calls -/

/-- Each import is the function found for a dependency, under the name that the dependency gives
it. -/
theorem forall₂_importAll {dependencies : List Names}
    (himports : package.importAll dependencies = .ok imports) :
    List.Forall₂ (fun dependency entry ↦ package.importFor dependency = .ok entry.2 ∧
      entry.1 = dependency.addSchemaName) dependencies imports := by
  induction dependencies generalizing imports with
  | nil =>
    cases himports
    exact .nil
  | cons dependency rest ih =>
    obtain ⟨imported, others, hfirst, hrest, rfl⟩ := importAll_cons_eq_ok himports
    exact .cons ⟨hfirst, rfl⟩ (ih hrest)

theorem calledFor_eq_map (default : Definition) (imports : List (String × Definition)) :
    calledFor imports =
      (imports.map Prod.fst).map fun name ↦ (imports.reverse.lookup name).getD default := by
  rw [List.map_map]
  apply List.filterMap_eq_map_iff_forall_eq_some.mpr
  intro entry hentry
  have hname : entry.1 ∈ imports.reverse.map Prod.fst :=
    List.mem_map_of_mem (List.mem_reverse.mpr hentry)
  obtain ⟨function, hfunction⟩ := exists_lookup_eq_some hname
  simp [hfunction]

theorem calledFor_eq_of_nodup (h : (imports.map Prod.fst).Nodup) :
    calledFor imports = imports.map Prod.snd := by
  apply List.filterMap_eq_map_iff_forall_eq_some.mpr
  intro entry hentry
  apply lookup_eq_some_of_mem _ (List.mem_reverse.mpr hentry)
  rwa [List.map_reverse, List.nodup_reverse]

theorem calledNames_eq_ok_iff {names : List String} : package.calledNames definition = .ok names ↔
    ∃ imports, package.importAll definition.dependencies = .ok imports ∧
      (calledFor imports).map (·.names.name) = names := by
  rw [calledNames, bind_eq_ok_iff]
  simp [pure, Except.pure]

/-- If every reference is called, the functions of different references have different names. -/
theorem nodup_addSchemaNames_of_calledNames
    (hnodup : (definition.dependencies.map Names.name).Nodup)
    (h : package.calledNames definition = .ok (definition.dependencies.map Names.name)) :
    (definition.dependencies.map Names.addSchemaName).Nodup := by
  obtain ⟨imports, himports, hcalled⟩ := calledNames_eq_ok_iff.mp h
  rw [← hcalled, calledFor_eq_map definition, map_fst_importAll himports] at hnodup
  exact (hnodup.of_map _).of_map _

/-- The functions imported for the references of a definition are the references' own. -/
def ImportsOwn (package : Package) (definition : Definition) : Prop :=
  ∀ dependency ∈ definition.dependencies, ∃ imported,
    package.importFor dependency = .ok imported ∧ imported.names.name = dependency.name

theorem ImportsOwn.exists_importAll {dependencies : List Names}
    (h : ∀ dependency ∈ dependencies, ∃ imported,
      package.importFor dependency = .ok imported ∧ imported.names.name = dependency.name) :
    ∃ imports, package.importAll dependencies = .ok imports ∧
      imports.map (·.2.names.name) = dependencies.map Names.name := by
  induction dependencies with
  | nil => exact ⟨[], rfl, rfl⟩
  | cons dependency rest ih =>
    obtain ⟨⟨imported, himported, hname⟩, hrest⟩ := List.forall_mem_cons.mp h
    obtain ⟨imports, himports, hnames⟩ := ih hrest
    refine ⟨(dependency.addSchemaName, imported) :: imports, ?_, by simp [hname, hnames]⟩
    rw [importAll, himported, himports]
    rfl

/-- References with functions of different names are all called. -/
theorem ImportsOwn.calledNames_eq (h : package.ImportsOwn definition)
    (hnodup : (definition.dependencies.map Names.addSchemaName).Nodup) :
    package.calledNames definition = .ok (definition.dependencies.map Names.name) := by
  obtain ⟨imports, himports, hnames⟩ := ImportsOwn.exists_importAll h
  rw [← map_fst_importAll himports] at hnodup
  apply calledNames_eq_ok_iff.mpr
  refine ⟨imports, himports, ?_⟩
  rw [calledFor_eq_of_nodup hnodup, ← hnames, List.map_map]
  rfl

/-- The references of a definition do not shadow each other in its module, and whatever is imported
for them is called, one function for each reference. -/
structure CallsEachReference (package : Package) (definition : Definition) : Prop where
  functions : (definition.dependencies.map Names.addSchemaName).Nodup
  interfaces : (definition.dependencies.map Names.interfaceName).Nodup
  called : ∀ {imports}, package.importAll definition.dependencies = .ok imports →
    List.Forall₂ (fun dependency function ↦ package.importFor dependency = .ok function)
      definition.dependencies (calledFor imports)

theorem callsEachReference_of_nodup
    (hfunctions : (definition.dependencies.map Names.addSchemaName).Nodup)
    (hinterfaces : (definition.dependencies.map Names.interfaceName).Nodup) :
    package.CallsEachReference definition := by
  refine ⟨hfunctions, hinterfaces, ?_⟩
  intro imports himports
  rw [← map_fst_importAll himports] at hfunctions
  rw [calledFor_eq_of_nodup hfunctions, List.forall₂_map_right_iff]
  exact (forall₂_importAll himports).imp fun _ _ hentry ↦ hentry.1

/-! ## Packages of runs that return -/

theorem definedIn_eq_mapM
    (h : ∀ definition ∈ definitions, ∃ ignored, config.ignores definition.1 = .ok ignored) :
    definedIn config definitions =
      (config.kept definitions).mapM fun definition ↦ do
        return (definition.1, ← Output.analyze config definition.1 definition.2) := by
  induction definitions with
  | nil => rfl
  | cons definition rest ih =>
    obtain ⟨⟨ignored, hignored⟩, hrest⟩ := List.forall_mem_cons.mp h
    rw [definedIn, hignored, ih hrest, Config.kept_cons, Config.isIgnored_eq hignored]
    cases ignored with
    | true => rfl
    | false =>
      rw [if_neg Bool.false_ne_true, List.mapM_cons]
      cases Output.analyze config definition.1 definition.2 <;> rfl

theorem map_placement_of_definedIn {defined : List (String × Definition)}
    (hignores : ∀ definition ∈ definitions, ∃ ignored, config.ignores definition.1 = .ok ignored)
    (h : definedIn config definitions = .ok defined) :
    defined.map (fun entry ↦ (entry.1, entry.2.names.path)) = config.placements definitions := by
  rw [definedIn_eq_mapM hignores, mapM_eq_ok_iff] at h
  rw [Config.placements]
  generalize config.kept definitions = kept at h
  induction h with
  | nil => rfl
  | cons hone _ ih =>
    obtain ⟨definition, hanalyze, hentry⟩ := bind_eq_ok_iff.mp hone
    obtain rfl := Except.ok.inj hentry
    rw [List.map_cons, List.map_cons, ih, Output.path_of_analyze hanalyze]

/-- What has been compiled can be loaded. -/
theorem exists_definedIn_eq_ok {comment : String} {compiled : List Output.CompiledModule}
    (h : Output.compileKept config comment definitions = .ok compiled) :
    ∃ defined, definedIn config definitions = .ok defined := by
  have hignores := Output.ignores_of_compileKept_eq_ok h
  rw [Output.compileKept_eq_mapM _ hignores] at h
  rw [definedIn_eq_mapM hignores, exists_mapM_eq_ok_iff]
  intro entry hentry
  obtain ⟨module, -, hmodule⟩ := exists_result_of_mapM_eq_ok h hentry
  obtain ⟨definition, hanalyze, -⟩ := bind_eq_ok_iff.mp hmodule
  exact ⟨_, bind_eq_ok_iff.mpr ⟨definition, hanalyze, rfl⟩⟩

/-- A run that returns makes a package with a module for each definition that is compiled. -/
theorem exists_package_of_generate {files : List Output.GeneratedFile}
    (h : (Output.generate formatter config commandLine definitions).outcome.2 = .ok files) :
    ∃ package, Package.of config definitions = .ok package ∧
      ∀ entry ∈ config.kept definitions, ∃ definition,
        Output.analyze config entry.1 entry.2 = .ok definition ∧
          (entry.1, definition) ∈ package.definitions := by
  rw [Output.outcome_generate] at h
  obtain ⟨compiled, hcompiled, hassemble⟩ := bind_eq_ok_iff.mp h
  have hignores := Output.ignores_of_compileKept_eq_ok hcompiled
  obtain ⟨defined, hdefined⟩ := exists_definedIn_eq_ok hcompiled
  rw [Output.assemble_eq] at hassemble
  obtain ⟨_, -, hrest⟩ := bind_eq_ok_iff.mp hassemble
  obtain ⟨tree, htree, -⟩ := bind_eq_ok_iff.mp hrest
  rw [Output.moduleTree_eq_ok_iff, Output.map_placement_of_compileKept hcompiled,
    ← map_placement_of_definedIn hignores hdefined] at htree
  refine ⟨⟨config, tree, defined⟩, ?_, ?_⟩
  · rw [Package.of, hdefined]
    simp [htree, bind, Except.bind, pure, Except.pure]
  · intro entry hentry
    rw [definedIn_eq_mapM hignores] at hdefined
    obtain ⟨result, hresult, hstep⟩ := exists_result_of_mapM_eq_ok hdefined hentry
    obtain ⟨definition, hanalyze, hpair⟩ := bind_eq_ok_iff.mp hstep
    obtain rfl := Except.ok.inj hpair
    exact ⟨definition, hanalyze, hresult⟩

/-- In the package of a run that returns, the references of a definition have names and calls of
their own exactly when their class names are distinct. So it is for the calls alone, as long as the
functions that are imported are the references' own. -/
theorem callsEachReference_iff {files : List Output.GeneratedFile}
    (h : (Output.generate formatter config commandLine definitions).outcome.2 = .ok files) :
    ∃ package, Package.of config definitions = .ok package ∧
      ∀ entry ∈ config.kept definitions, ∃ definition,
        Output.analyze config entry.1 entry.2 = .ok definition ∧
          (entry.1, definition) ∈ package.definitions ∧
          (package.CallsEachReference definition ↔
            (definition.dependencies.map Names.className).Nodup) ∧
          (package.ImportsOwn definition →
            (package.calledNames definition = .ok (definition.dependencies.map Names.name) ↔
              (definition.dependencies.map Names.className).Nodup)) := by
  obtain ⟨package, hpackage, hdefined⟩ := exists_package_of_generate h
  refine ⟨package, hpackage, ?_⟩
  intro entry hentry
  obtain ⟨definition, hanalyze, hmem⟩ := hdefined entry hentry
  obtain ⟨conventions, -, rfl⟩ := analyze_eq_ok hanalyze
  refine ⟨_, hanalyze, hmem, ?_, ?_⟩
  · rw [← Definition.nodup_addSchemaNames_iff]
    refine ⟨CallsEachReference.functions, fun hnodup ↦ callsEachReference_of_nodup hnodup ?_⟩
    rwa [Definition.nodup_interfaceNames_iff, ← Definition.nodup_addSchemaNames_iff]
  · intro hown
    rw [← Definition.nodup_addSchemaNames_iff]
    have hnames := (importsInterfaces_of config.language conventions entry.1 entry.2).distinct
    exact ⟨nodup_addSchemaNames_of_calledNames hnames, hown.calledNames_eq⟩

/-- A definition with references in several directories. -/
def referringDefinitions : List (String × Json) :=
  [("x.Foo", .obj [("properties", .obj [("a", .obj [("$ref", .str "#/definitions/x.a-b")]),
      ("b", .obj [("$ref", .str "#/definitions/x.a.c")])])]),
    ("x.a-b", .obj [("type", .str "object")]), ("x.a.c", .obj [("type", .str "object")])]

theorem callsEachReference_referringDefinitions :
    ∃ package definition, Package.of {} referringDefinitions = .ok package ∧
      ("x.Foo", definition) ∈ package.definitions ∧
      definition.dependencies.map Names.name = ["x.a-b", "x.a.c"] ∧
      package.CallsEachReference definition := by
  have hfree : ModuleTree.ConflictFree (Config.placements {} referringDefinitions) := by
    decide +kernel
  obtain ⟨files, hfiles⟩ := Output.exists_generate_of_conflictFree Output.programName hfree
  obtain ⟨package, hpackage, hdefinitions⟩ := callsEachReference_iff hfiles
  have hkept : ("x.Foo", _) ∈ Config.kept {} referringDefinitions := List.mem_cons_self
  obtain ⟨definition, hanalyze, hmem, hcalls, -⟩ := hdefinitions _ hkept
  obtain rfl : .of ⟨.python, "io.k8s.", "#/definitions/"⟩ "x.Foo" _ = definition :=
    Except.ok.inj hanalyze
  exact ⟨package, _, hpackage, hmem, by decide +kernel, hcalls.mpr (by decide +kernel)⟩

/-- Two references with one class name, `XAB`. -/
def clashingDefinitions : List (String × Json) :=
  [("x.Foo", .obj [("properties", .obj [("a", .obj [("$ref", .str "#/definitions/x.a-b")]),
      ("b", .obj [("$ref", .str "#/definitions/x.a.b")])])]),
    ("x.a-b", .obj [("type", .str "object")]), ("x.a.b", .obj [("type", .str "object")])]

/-- The function imported last is called twice, and the other reference is never registered. -/
theorem not_callsEachReference_clashingDefinitions :
    (∃ files,
        (Output.generate none {} Output.programName clashingDefinitions).outcome.2 = .ok files) ∧
      ∃ package definition, Package.of {} clashingDefinitions = .ok package ∧
        package.Defines definition ∧
        definition.dependencies.map Names.name = ["x.a-b", "x.a.b"] ∧
        ¬package.CallsEachReference definition ∧
        (package.register definition {}).2.isOk ∧
        (package.register definition {}).1.names = ["x.a.b", "x.Foo"] := by
  refine ⟨Output.exists_generate_of_conflictFree _ (by decide +kernel), ?_⟩
  have hchecked : (Package.of {} clashingDefinitions).toOption.any (fun package ↦
      (package.definitions.lookup "x.Foo").any fun definition ↦
        decide (definition.dependencies.map Names.name = ["x.a-b", "x.a.b"] ∧
          ¬(definition.dependencies.map Names.addSchemaName).Nodup ∧
          (package.register definition {}).2.isOk ∧
          (package.register definition {}).1.names = ["x.a.b", "x.Foo"])) = true := by
    decide +kernel
  obtain ⟨package, hpackage, hchecked⟩ := exists_eq_ok_of_check hchecked
  obtain ⟨definition, hlookup, hchecked⟩ := (Option.any_eq_true _ _).mp hchecked
  obtain ⟨hreferences, hclash, hreturned, hnames⟩ := of_decide_eq_true hchecked
  exact ⟨package, definition, hpackage, (wellNamed_of_eq_ok hpackage).defines_of_lookup hlookup,
    hreferences, fun hcalls ↦ hclash hcalls.functions, hreturned, hnames⟩

end Package

end SchemaModules
