import SchemaModules.Proofs.CompiledModules
import SchemaModules.Proofs.ModuleLines
import SchemaModules.Proofs.ModulePaths
import SchemaModules.Proofs.PlacedModules

/-!
# Outcomes of generation

Every stage of a run has a result for every document, apart from two that need the last segment of
a path. As long as no module path is empty, and for TypeScript no path of an imported module, a run
is refused exactly for conflicts of placements.
-/

namespace SchemaModules

open Naming ModuleTree

variable {config : Config} {definitions : List (String × Json)} {name comment commandLine : String}
  {schema : Json} {definition : Definition} {source target : List String} {α β : Type}
  {formatter : Option Output.Formatter}

/-! ## Faults other than conflicts -/

/-- A result that is no conflict of placements. -/
def NoConflict (result : Except Fault α) : Prop :=
  ∀ conflict, result ≠ .error (.placement conflict)

theorem noConflict_ok (value : α) : NoConflict (.ok value) := by
  intro conflict h
  cases h

theorem NoConflict.bind {first : Except Fault α} {next : α → Except Fault β}
    (hfirst : NoConflict first) (hnext : ∀ value, NoConflict (next value)) :
    NoConflict (first >>= next) := by
  intro conflict h
  rcases bind_eq_error_iff.mp h with hfault | ⟨value, -, hfault⟩
  · exact hfirst conflict hfault
  · exact hnext value conflict hfault

theorem NoConflict.mapM {step : α → Except Fault β} (hstep : ∀ input, NoConflict (step input))
    (inputs : List α) : NoConflict (inputs.mapM step) := by
  intro conflict h
  obtain ⟨input, -, hfault⟩ := exists_step_of_mapM_eq_error h
  exact hstep input conflict hfault

namespace TypeScript

theorem joinPath_ne_empty {first : String} (hfirst : first ≠ "") (rest : List String) :
    joinPath (first :: rest) ≠ "" := by
  rw [joinPath]
  induction rest generalizing first with
  | nil => exact hfirst
  | cons next rest ih =>
    rw [List.foldl_cons]
    apply ih
    rw [joinPath.step]
    split
    · next hslash =>
      rintro rfl
      simp at hslash
    · split <;> simp [hfirst]

theorem relativeImport_nil (source : List String) :
    relativeImport source [] = .error .unusableValue := rfl

theorem exists_relativeImport_eq_ok (source : List String) (hne : target ≠ [])
    (hsegments : ∀ segment ∈ target, segment ≠ "") :
    ∃ way, relativeImport source target = .ok way := by
  obtain ⟨first, rest, rfl⟩ := List.exists_cons_of_ne_nil hne
  have hpath : joinPath (first :: rest) ≠ "" :=
    joinPath_ne_empty (hsegments first List.mem_cons_self) rest
  simp [relativeImport, hpath, pure, Except.pure]

theorem noConflict_relativeImport (source target : List String) :
    NoConflict (relativeImport source target) := by
  intro conflict h
  rw [relativeImport] at h
  split at h
  · cases h
  · simp only at h
    split at h <;> cases h

theorem noConflict_render (definition : Definition) (comment : String) :
    NoConflict (render definition comment) := by
  have himport (dependency : Names) :
      NoConflict (dependencyImport definition.names dependency) :=
    (noConflict_relativeImport _ _).bind fun _ ↦ noConflict_ok _
  exact (NoConflict.mapM himport _).bind fun _ ↦ (noConflict_relativeImport _ _).bind fun _ ↦
    (noConflict_relativeImport _ _).bind fun _ ↦ noConflict_ok _

/-- A module can be rendered if the path of each module that it imports has a last segment. -/
theorem exists_render_eq_ok_iff
    (hsegments :
      ∀ dependency ∈ definition.dependencies, ∀ segment ∈ dependency.path, segment ≠ "") :
    (∃ text, render definition comment = .ok text) ↔
      ∀ dependency ∈ definition.dependencies, dependency.path ≠ [] := by
  constructor
  · rintro ⟨text, htext⟩ dependency hdependency hpath
    obtain ⟨lines, hlines, -⟩ := hasLines_dependencyImport hdependency htext
    rw [dependencyImport, hpath, relativeImport_nil] at hlines
    cases hlines
  · intro hpaths
    have himport : ∀ dependency ∈ definition.dependencies,
        ∃ lines, dependencyImport definition.names dependency = .ok lines := by
      intro dependency hdependency
      obtain ⟨way, hway⟩ := exists_relativeImport_eq_ok definition.names.path
        (hpaths dependency hdependency) (hsegments dependency hdependency)
      exact ⟨_, bind_eq_ok_iff.mpr ⟨way, hway, rfl⟩⟩
    obtain ⟨imports, himports⟩ := exists_mapM_eq_ok_iff.mpr himport
    have hregistry : registryModule ≠ [] := by decide
    have hbase : baseModule ≠ [] := by decide
    obtain ⟨registryPath, hregistryPath⟩ :=
      exists_relativeImport_eq_ok definition.names.path hregistry (by decide)
    obtain ⟨basePath, hbasePath⟩ :=
      exists_relativeImport_eq_ok definition.names.path hbase (by decide)
    exact ⟨_, render_eq_ok_iff.mpr
      ⟨imports, himports, registryPath, hregistryPath, basePath, hbasePath, rfl⟩⟩

end TypeScript

namespace Config

/-- The fields that generation depends on hold values of their kinds. -/
structure WellTyped (config : Config) : Prop where
  definitionLead : ∃ lead, config.definitionLead = .str lead
  referenceLead : ∃ lead, config.referenceLead = .str lead
  ignored : ∃ names : List String, config.ignored = .arr (names.map .str)
  formatter : config.formatter.isSome

/-- The conventions of a configuration. -/
def ownConventions (config : Config) : Conventions :=
  ⟨config.language, config.nameLead, (leadText? config.referenceLead).getD ""⟩

theorem wellTyped_of_language (language : Language) : WellTyped { language } :=
  ⟨⟨"io.k8s.", rfl⟩, ⟨"#/definitions/", rfl⟩, ⟨[], rfl⟩, rfl⟩

theorem WellTyped.analyze_eq (h : config.WellTyped) (name : String) (schema : Json) :
    Output.analyze config name schema = .ok (.of config.ownConventions name schema) := by
  obtain ⟨nameLead, hname⟩ := h.definitionLead
  obtain ⟨referenceLead, hreference⟩ := h.referenceLead
  simp [Output.analyze, Config.conventions, ownConventions, Config.nameLead, hname, hreference,
    leadText?, pure, Except.pure, bind, Except.bind]

theorem WellTyped.exists_ignores_eq_ok (h : config.WellTyped) (name : String) :
    ∃ ignored, config.ignores name = .ok ignored := by
  obtain ⟨names, hnames⟩ := h.ignored
  exact ⟨Schema.holdsText (names.map .str) name, by rw [ignores, hnames]⟩

end Config

namespace Output

theorem noConflict_compileOne (h : config.WellTyped) (comment name : String) (schema : Json) :
    NoConflict (compileOne config comment name schema) := by
  rw [compileOne, h.analyze_eq]
  refine NoConflict.bind (noConflict_ok _) fun definition ↦ ?_
  refine NoConflict.bind ?_ fun _ ↦ noConflict_ok _
  cases config.language with
  | python => exact noConflict_ok _
  | typescript => exact TypeScript.noConflict_render definition comment

/-- A definition is compiled unless its module imports one without a path. -/
theorem exists_compileOne_eq_ok_iff (h : config.WellTyped) (comment name : String)
    (schema : Json) :
    (∃ compiled, compileOne config comment name schema = .ok compiled) ↔
      (config.language = .typescript →
        ∀ dependency ∈ (Definition.of config.ownConventions name schema).dependencies,
          dependency.path ≠ []) := by
  have hrender : (∃ compiled, compileOne config comment name schema = .ok compiled) ↔
      ∃ content, renderDefinition config.language (.of config.ownConventions name schema) comment =
        .ok content := by
    rw [compileOne, h.analyze_eq]
    constructor
    · rintro ⟨compiled, hcompiled⟩
      obtain ⟨definition, hdefinition, hrest⟩ := bind_eq_ok_iff.mp hcompiled
      obtain rfl := Except.ok.inj hdefinition
      obtain ⟨content, hcontent, -⟩ := bind_eq_ok_iff.mp hrest
      exact ⟨content, hcontent⟩
    · rintro ⟨content, hcontent⟩
      exact ⟨_, bind_eq_ok_iff.mpr ⟨_, rfl, bind_eq_ok_iff.mpr ⟨content, hcontent, rfl⟩⟩⟩
  rw [hrender]
  cases hlanguage : config.language with
  | python => simp [renderDefinition]
  | typescript =>
    rw [renderDefinition, TypeScript.exists_render_eq_ok_iff]
    · simp
    · intro dependency hdependency segment hsegment
      obtain ⟨other, -, rfl⟩ := List.mem_map.mp hdependency
      exact (isSegment_of_mem_modulePath hsegment).ne_empty

/-- The dependencies of the definitions that are compiled all have a module path. -/
def DependenciesPlaced (config : Config) (definitions : List (String × Json)) : Prop :=
  ∀ definition ∈ config.kept definitions,
    ∀ dependency ∈ (Definition.of config.ownConventions definition.1 definition.2).dependencies,
      dependency.path ≠ []

theorem compileKept_eq_mapM_of_wellTyped (h : config.WellTyped) (comment : String)
    (definitions : List (String × Json)) : compileKept config comment definitions =
      (config.kept definitions).mapM fun definition ↦
        compileOne config comment definition.1 definition.2 :=
  compileKept_eq_mapM comment fun definition _ ↦ h.exists_ignores_eq_ok definition.1

theorem noConflict_compileKept (h : config.WellTyped) (comment : String)
    (definitions : List (String × Json)) : NoConflict (compileKept config comment definitions) := by
  rw [compileKept_eq_mapM_of_wellTyped h]
  exact NoConflict.mapM (fun definition ↦ noConflict_compileOne h comment _ _) _

theorem exists_compileKept_eq_ok_iff (h : config.WellTyped) (comment : String)
    (definitions : List (String × Json)) :
    (∃ compiled, compileKept config comment definitions = .ok compiled) ↔
      (config.language = .typescript → DependenciesPlaced config definitions) := by
  rw [compileKept_eq_mapM_of_wellTyped h, exists_mapM_eq_ok_iff]
  simp only [exists_compileOne_eq_ok_iff h comment]
  constructor
  · intro hplaced hlanguage definition hdefinition
    exact hplaced definition hdefinition hlanguage
  · intro hplaced definition hdefinition hlanguage
    exact hplaced hlanguage definition hdefinition

/-- What a run relies on of the formatter, if there is one: each text that it is given it formats,
or else it says that the text is not Python. -/
def Answers (formatter : Option Formatter) (config : Config) : Prop :=
  ∀ installed ∈ formatter, ∀ settings ∈ config.formatter, ∀ version content fault,
    installed.format version settings.lineLength content ≠ .failed fault

/-- A formatter that also understands the settings. -/
structure Formats (formatter : Option Formatter) (config : Config) : Prop where
  answers : Answers formatter config
  version : ∀ installed ∈ formatter, ∀ settings ∈ config.formatter,
    ∃ version, installed.version? settings.targetVersion = .ok version

theorem formats_none (config : Config) : Formats none config where
  answers := by simp [Answers]
  version := by simp

theorem exists_format_eq_ok {installed : Formatter} {settings : FormatterSettings}
    {version : Option String} (hanswers : Answers (some installed) config)
    (hsettings : config.formatter = some settings)
    (hversion : installed.version? settings.targetVersion = .ok version) (content : String) :
    ∃ text, format (some installed) settings content = .ok text := by
  simp only [format, hversion, bind, Except.bind, pure, Except.pure]
  cases hanswer : installed.format version settings.lineLength content with
  | text formatted => exact ⟨formatted, rfl⟩
  | rejected => exact ⟨content, rfl⟩
  | failed fault => exact absurd hanswer (hanswers installed rfl settings hsettings _ _ _)

theorem exists_formatted_eq_ok (h : config.formatter.isSome) (hformats : Formats formatter config)
    (content : String) : ∃ text, formatted formatter config content = .ok text := by
  obtain ⟨settings, hsettings⟩ := Option.isSome_iff_exists.mp h
  rw [formatted, hsettings]
  cases config.language with
  | typescript => exact ⟨content, rfl⟩
  | python =>
    simp only
    split
    · cases formatter with
      | none => exact ⟨content, rfl⟩
      | some installed =>
        obtain ⟨version, hversion⟩ := hformats.version installed rfl settings hsettings
        exact exists_format_eq_ok hformats.answers hsettings hversion content
    · exact ⟨content, rfl⟩

theorem noConflict_formatted (h : config.formatter.isSome) (hformats : Formats formatter config)
    (content : String) : NoConflict (formatted formatter config content) := by
  obtain ⟨text, htext⟩ := exists_formatted_eq_ok h hformats content
  rw [htext]
  exact noConflict_ok text

theorem exists_moduleFile_eq_ok_iff (language : Language) (path : List String) :
    (∃ file, moduleFile language path = .ok file) ↔ path ≠ [] := by
  rw [moduleFile]
  cases hlast : path.getLast? with
  | none => simp [List.getLast?_eq_none_iff.mp hlast]
  | some leaf =>
    have hne : path ≠ [] := by
      rintro rfl
      cases hlast
    simp [hne]

theorem noConflict_moduleFile (language : Language) (path : List String) :
    NoConflict (moduleFile language path) := by
  rw [moduleFile]
  split
  · intro conflict h
    cases h
  · exact noConflict_ok _

/-- The file of a module follows from its path, unless the path has no last segment. -/
theorem exists_definitionFile_eq_ok_iff (h : config.formatter.isSome)
    (hformats : Formats formatter config) (compiled : CompiledModule) :
    (∃ file, definitionFile formatter config compiled = .ok file) ↔ compiled.path ≠ [] := by
  rw [← exists_moduleFile_eq_ok_iff config.language]
  constructor
  · rintro ⟨file, hfile⟩
    obtain ⟨path, hpath, -⟩ := bind_eq_ok_iff.mp hfile
    exact ⟨path, hpath⟩
  · rintro ⟨path, hpath⟩
    obtain ⟨text, htext⟩ := exists_formatted_eq_ok h hformats compiled.content
    exact ⟨_, bind_eq_ok_iff.mpr ⟨path, hpath, bind_eq_ok_iff.mpr ⟨text, htext, rfl⟩⟩⟩

theorem noConflict_definitionFile (h : config.formatter.isSome)
    (hformats : Formats formatter config) (compiled : CompiledModule) :
    NoConflict (definitionFile formatter config compiled) :=
  (noConflict_moduleFile _ _).bind fun _ ↦
    (noConflict_formatted h hformats _).bind fun _ ↦ noConflict_ok _

theorem exists_indexFileOf_eq_ok (h : config.formatter.isSome)
    (hformats : Formats formatter config) (comment : String) (index : ModuleTree.Index) :
    ∃ file, indexFileOf formatter config comment index = .ok file := by
  obtain ⟨text, htext⟩ :=
    exists_formatted_eq_ok h hformats (renderIndex config.language comment index)
  exact ⟨_, bind_eq_ok_iff.mpr ⟨text, htext, rfl⟩⟩

variable {compiled : List CompiledModule}

theorem exists_modules_eq_ok_iff (h : config.formatter.isSome)
    (hformats : Formats formatter config) :
    (∃ modules, compiled.mapM (definitionFile formatter config) = .ok modules) ↔
      ∀ module ∈ compiled, module.path ≠ [] := by
  rw [exists_mapM_eq_ok_iff]
  exact forall₂_congr fun module _ ↦ exists_definitionFile_eq_ok_iff h hformats module

theorem exists_moduleTree_eq_ok_iff : (∃ tree, moduleTree compiled = .ok tree) ↔
    ConflictFree (compiled.map fun module ↦ (module.name, module.path)) := by
  simp only [moduleTree_eq_ok_iff]
  exact exists_build_eq_ok_iff

theorem exists_assemble_eq_ok_iff (h : config.formatter.isSome)
    (hformats : Formats formatter config) :
    (∃ files, assemble formatter config comment compiled = .ok files) ↔
      ConflictFree (compiled.map fun module ↦ (module.name, module.path)) := by
  rw [assemble_eq]
  constructor
  · rintro ⟨files, hfiles⟩
    obtain ⟨modules, -, hrest⟩ := bind_eq_ok_iff.mp hfiles
    obtain ⟨tree, htree, -⟩ := bind_eq_ok_iff.mp hrest
    exact exists_moduleTree_eq_ok_iff.mp ⟨tree, htree⟩
  · intro hfree
    have hpaths : ∀ module ∈ compiled, module.path ≠ [] := fun module hmodule ↦
      hfree.ne_nil _ (List.mem_map_of_mem hmodule)
    obtain ⟨modules, hmodules⟩ := (exists_modules_eq_ok_iff h hformats).mpr hpaths
    obtain ⟨tree, htree⟩ := exists_moduleTree_eq_ok_iff.mpr hfree
    have hindex : ∀ index ∈ tree.indexes,
        ∃ file, indexFileOf formatter config comment index = .ok file :=
      fun index _ ↦ exists_indexFileOf_eq_ok h hformats comment index
    obtain ⟨indexes, hindexes⟩ := exists_mapM_eq_ok_iff.mpr hindex
    exact ⟨_, bind_eq_ok_iff.mpr ⟨modules, hmodules,
      bind_eq_ok_iff.mpr ⟨tree, htree, bind_eq_ok_iff.mpr ⟨indexes, hindexes, rfl⟩⟩⟩⟩

/-- Conflicts are found only after each module has got its file. -/
theorem exists_assemble_eq_conflict_iff (h : config.formatter.isSome)
    (hformats : Formats formatter config) :
    (∃ conflict, assemble formatter config comment compiled = .error (.placement conflict)) ↔
      (∀ module ∈ compiled, module.path ≠ []) ∧
        ¬ConflictFree (compiled.map fun module ↦ (module.name, module.path)) := by
  constructor
  · rintro ⟨conflict, hconflict⟩
    refine ⟨?_, fun hfree ↦ ?_⟩
    · rw [assemble_eq] at hconflict
      rcases bind_eq_error_iff.mp hconflict with hmodules | ⟨modules, hmodules, -⟩
      · exact absurd hmodules (NoConflict.mapM (noConflict_definitionFile h hformats) _ conflict)
      · exact (exists_modules_eq_ok_iff h hformats).mp ⟨modules, hmodules⟩
    · obtain ⟨files, hfiles⟩ := (exists_assemble_eq_ok_iff h hformats).mpr hfree
      rw [hfiles] at hconflict
      cases hconflict
  · rintro ⟨hpaths, hconflict⟩
    obtain ⟨modules, hmodules⟩ := (exists_modules_eq_ok_iff h hformats).mpr hpaths
    cases htree : moduleTree compiled with
    | ok tree => exact absurd (exists_moduleTree_eq_ok_iff.mp ⟨tree, htree⟩) hconflict
    | error fault =>
      obtain ⟨conflict, rfl⟩ := exists_conflict_of_moduleTree_eq_error htree
      refine ⟨conflict, ?_⟩
      rw [assemble_eq]
      exact bind_eq_error_iff.mpr (.inr ⟨modules, hmodules, bind_eq_error_iff.mpr (.inl htree)⟩)

/-! ## Runs -/

theorem paths_of_compileKept (h : compileKept config comment definitions = .ok compiled) :
    (∀ module ∈ compiled, module.path ≠ []) ↔
      ∀ placement ∈ config.placements definitions, placement.2 ≠ [] := by
  rw [← map_placement_of_compileKept h]
  simp

/-- A run returns if every imported module has a path and placements are free of conflicts. -/
theorem exists_generate_eq_ok_iff (h : config.WellTyped) (hformats : Formats formatter config)
    (commandLine : String) (definitions : List (String × Json)) :
    (∃ files, (generate formatter config commandLine definitions).outcome.2 = .ok files) ↔
      (config.language = .typescript → DependenciesPlaced config definitions) ∧
        ConflictFree (config.placements definitions) := by
  rw [outcome_generate, ← exists_compileKept_eq_ok_iff h (generationComment config commandLine)]
  constructor
  · rintro ⟨files, hfiles⟩
    obtain ⟨compiled, hcompiled, hassemble⟩ := bind_eq_ok_iff.mp hfiles
    rw [← map_placement_of_compileKept hcompiled]
    exact ⟨⟨compiled, hcompiled⟩,
      (exists_assemble_eq_ok_iff h.formatter hformats).mp ⟨files, hassemble⟩⟩
  · rintro ⟨⟨compiled, hcompiled⟩, hfree⟩
    rw [← map_placement_of_compileKept hcompiled] at hfree
    obtain ⟨files, hfiles⟩ := (exists_assemble_eq_ok_iff h.formatter hformats).mpr hfree
    exact ⟨files, bind_eq_ok_iff.mpr ⟨compiled, hcompiled, hfiles⟩⟩

/-- Python modules can be made of all definitions without conflicts. -/
theorem exists_generate_of_conflictFree (commandLine : String)
    (hfree : ConflictFree (Config.placements {} definitions)) :
    ∃ files, (generate none {} commandLine definitions).outcome.2 = .ok files :=
  (exists_generate_eq_ok_iff (Config.wellTyped_of_language .python) (formats_none _) _ _).mpr
    ⟨by simp, hfree⟩

/-- A run is refused for a conflict if every module has a path, imported ones included, and the
placements are not free of conflicts. -/
theorem exists_generate_eq_conflict_iff (h : config.WellTyped) (hformats : Formats formatter config)
    (commandLine : String) (definitions : List (String × Json)) :
    (∃ conflict, (generate formatter config commandLine definitions).outcome.2 =
        .error (.placement conflict)) ↔
      (config.language = .typescript → DependenciesPlaced config definitions) ∧
        (∀ placement ∈ config.placements definitions, placement.2 ≠ []) ∧
          ¬ConflictFree (config.placements definitions) := by
  rw [outcome_generate, ← exists_compileKept_eq_ok_iff h (generationComment config commandLine)]
  constructor
  · rintro ⟨conflict, hconflict⟩
    rcases bind_eq_error_iff.mp hconflict with hcompiled | ⟨compiled, hcompiled, hassemble⟩
    · exact absurd hcompiled (noConflict_compileKept h _ _ conflict)
    · rw [← paths_of_compileKept hcompiled, ← map_placement_of_compileKept hcompiled]
      exact ⟨⟨compiled, hcompiled⟩,
        (exists_assemble_eq_conflict_iff h.formatter hformats).mp ⟨conflict, hassemble⟩⟩
  · rintro ⟨⟨compiled, hcompiled⟩, hrefused⟩
    rw [← paths_of_compileKept hcompiled, ← map_placement_of_compileKept hcompiled] at hrefused
    obtain ⟨conflict, hconflict⟩ :=
      (exists_assemble_eq_conflict_iff h.formatter hformats).mpr hrefused
    exact ⟨conflict, bind_eq_error_iff.mpr (.inr ⟨compiled, hcompiled, hconflict⟩)⟩

/-- A run that is refused exactly for conflicts of placements, and returns otherwise. -/
structure ReportsConflicts (formatter : Option Formatter) (config : Config) (commandLine : String)
    (definitions : List (String × Json)) : Prop where
  refused_iff : (∃ conflict,
      (generate formatter config commandLine definitions).outcome.2 =
        .error (.placement conflict)) ↔
    ¬ConflictFree (config.placements definitions)
  returned : ConflictFree (config.placements definitions) →
    ∃ files, (generate formatter config commandLine definitions).outcome.2 = .ok files

/-- A run reports exactly the conflicts of its placements when no module path is empty and, for
TypeScript, no path of an imported module is. -/
theorem reportsConflicts_iff (h : config.WellTyped) (hformats : Formats formatter config)
    (commandLine : String) (definitions : List (String × Json)) :
    ReportsConflicts formatter config commandLine definitions ↔
      (∀ placement ∈ config.placements definitions, placement.2 ≠ []) ∧
        (config.language = .typescript → DependenciesPlaced config definitions) := by
  constructor
  · rintro ⟨hrefused, hreturned⟩
    by_cases hfree : ConflictFree (config.placements definitions)
    · exact ⟨hfree.ne_nil, ((exists_generate_eq_ok_iff h hformats _ _).mp (hreturned hfree)).1⟩
    · obtain ⟨hplaced, hpaths, -⟩ :=
        (exists_generate_eq_conflict_iff h hformats _ _).mp (hrefused.mpr hfree)
      exact ⟨hpaths, hplaced⟩
  · rintro ⟨hpaths, hplaced⟩
    constructor
    · rw [exists_generate_eq_conflict_iff h hformats]
      exact ⟨fun hconflict ↦ hconflict.2.2, fun hconflict ↦ ⟨hplaced, hpaths, hconflict⟩⟩
    · exact fun hfree ↦ (exists_generate_eq_ok_iff h hformats _ _).mpr ⟨hplaced, hfree⟩

/-- A module that refers to another one, which would be in its directory. -/
def nestedDefinitions : List (String × Json) :=
  [("x.A", .obj [("items", .obj [("$ref", .str "#/definitions/x.A.B")])]),
    ("x.A.B", .obj [("type", .str "object")])]

theorem reportsConflicts_nestedDefinitions :
    Config.WellTyped { language := .typescript } ∧
      ReportsConflicts none { language := .typescript } programName nestedDefinitions ∧
      ¬ConflictFree (Config.placements { language := .typescript } nestedDefinitions) := by
  have htyped := Config.wellTyped_of_language .typescript
  have hformats := formats_none { language := .typescript }
  refine ⟨htyped,
    (reportsConflicts_iff htyped hformats programName nestedDefinitions).mpr ⟨?_, ?_⟩, ?_⟩
  · decide +kernel
  · rw [DependenciesPlaced]
    decide +kernel
  · decide +kernel

/-- A definition without a module path is refused, but for no conflict of placements, and a module
that imports such a definition stops a run in which all placements are free of conflicts. -/
theorem not_reportsConflicts_unplaced :
    ¬ReportsConflicts none {} programName [("", .obj [("type", .str "object")])] ∧
      ¬ReportsConflicts none { language := .typescript } programName
        [("x.A", .obj [("$ref", .str "#/definitions/io.k8s.")])] := by
  constructor
  · intro h
    have hplacement :
        ("", []) ∈ Config.placements {} [("", .obj [("type", .str "object")])] := by
      decide +kernel
    have hrefused := h.refused_iff.mpr fun hfree ↦ hfree.ne_nil _ hplacement rfl
    have houtcome := (exists_generate_eq_conflict_iff (Config.wellTyped_of_language .python)
      (formats_none _) _ _).mp hrefused
    exact houtcome.2.1 _ hplacement rfl
  · intro h
    have hunplaced : ¬DependenciesPlaced { language := .typescript }
        [("x.A", .obj [("$ref", .str "#/definitions/io.k8s.")])] := by
      rw [DependenciesPlaced]
      decide +kernel
    have hreturned := h.returned (by decide +kernel)
    have houtcome := (exists_generate_eq_ok_iff (Config.wellTyped_of_language .typescript)
      (formats_none _) _ _).mp hreturned
    exact hunplaced (houtcome.1 rfl)

end Output

end SchemaModules
