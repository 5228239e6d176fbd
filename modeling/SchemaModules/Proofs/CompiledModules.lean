import Mathlib.Data.List.Basic
import SchemaModules.Output.Generate
import SchemaModules.Proofs.FallibleSteps
import SchemaModules.Proofs.PackageDefinitions

/-!
# Compiled modules

What a run compiles, with its reports left aside. The definitions that are not ignored are compiled
one after the other, each on its own, and their names and module paths depend on nothing but the
configuration.
-/

namespace SchemaModules

open Naming

variable {α : Type} {formatter : Option Output.Formatter} {config : Config}
  {definitions : List (String × Json)} {name comment commandLine : String} {schema : Json}

namespace Config

/-- What definition names begin with before their path. -/
def nameLead (config : Config) : String := (leadText? config.definitionLead).getD ""

def isIgnored (config : Config) (name : String) : Bool :=
  (config.ignores name).toOption.getD false

/-- The definitions that are compiled. -/
def kept (config : Config) (definitions : List (String × Json)) : List (String × Json) :=
  definitions.filter fun definition ↦ !config.isIgnored definition.1

theorem kept_cons (config : Config) (definition : String × Json)
    (rest : List (String × Json)) : config.kept (definition :: rest) =
      if config.isIgnored definition.1 then config.kept rest
      else definition :: config.kept rest := by
  rw [kept, List.filter_cons]
  cases config.isIgnored definition.1 <;> rfl

theorem isIgnored_eq {ignored : Bool} (h : config.ignores name = .ok ignored) :
    config.isIgnored name = ignored := by
  rw [isIgnored, h]
  rfl

/-- The names and module paths of the definitions that are compiled. -/
def placements (config : Config) (definitions : List (String × Json)) :
    List (String × List String) :=
  (config.kept definitions).map fun definition ↦
    (definition.1, modulePath config.language config.nameLead definition.1)

theorem eq_of_conventions_eq_ok {conventions : Conventions}
    (h : config.conventions schema = .ok conventions) :
    conventions.language = config.language ∧ conventions.nameLead = config.nameLead := by
  rw [Config.conventions] at h
  cases hname : leadText? config.definitionLead with
  | none => simp [hname] at h
  | some lead =>
    rw [Config.nameLead, hname]
    simp only [hname] at h
    split at h
    · obtain rfl := Except.ok.inj h
      exact ⟨rfl, rfl⟩
    · split at h
      · obtain rfl := Except.ok.inj h
        exact ⟨rfl, rfl⟩
      · cases h

end Config

namespace Output

/-- Compiles one definition. -/
def compileOne (config : Config) (comment name : String) (schema : Json) :
    Except Fault CompiledModule := do
  let definition ← analyze config name schema
  let content ← renderDefinition config.language definition comment
  return ⟨name, definition.names.path, definition.dependencies.map (·.name), content⟩

/-- Compiles the definitions that are not ignored. -/
def compileKept (config : Config) (comment : String) :
    List (String × Json) → Except Fault (List CompiledModule)
  | [] => return []
  | (name, schema) :: rest => do
    if ← config.ignores name then compileKept config comment rest
    else
      let compiled ← compileOne config comment name schema
      let others ← compileKept config comment rest
      return compiled :: others

/-- A compiler of the same configuration, and the same one if it compiles to TypeScript. -/
structure Compiler.Continues (compiler next : Compiler) : Prop where
  config_eq : next.config = compiler.config
  eq_of_typescript : compiler.config.language = .typescript → next = compiler

theorem Compiler.continues_refl (compiler : Compiler) : compiler.Continues compiler :=
  ⟨rfl, fun _ ↦ rfl⟩

theorem Compiler.Continues.trans {compiler next last : Compiler} (h : compiler.Continues next)
    (hlast : next.Continues last) : compiler.Continues last where
  config_eq := hlast.config_eq.trans h.config_eq
  eq_of_typescript hlanguage :=
    (hlast.eq_of_typescript (h.config_eq ▸ hlanguage)).trans (h.eq_of_typescript hlanguage)

/-- What a compiler has declared before does not show in a module. -/
theorem Compiler.exists_render_eq (compiler : Compiler) (definition : Definition)
    (comment : String) : ∃ next, compiler.Continues next ∧
      compiler.render definition comment =
        (renderDefinition compiler.config.language definition comment).map
          fun content ↦ (content, next) := by
  obtain ⟨config, scope⟩ := compiler
  rw [render]
  cases hlanguage : config.language with
  | python =>
    refine ⟨⟨config, (Python.Module.declare definition scope).2⟩, ⟨rfl, ?_⟩, rfl⟩
    intro h
    cases hlanguage.symm.trans h
  | typescript => exact ⟨_, continues_refl _, rfl⟩

theorem Compiler.yields_compile (compiler : Compiler) (comment name : String) (schema : Json) :
    Yields (compiler.compile comment name schema) (do
      let definition ← analyze compiler.config name schema
      let (content, compiler) ← compiler.render definition comment
      return (⟨name, definition.names.path, definition.dependencies.map (·.name), content⟩,
        compiler)) :=
  (yields_mk _).bind fun _ ↦ ((yields_mk _).bind fun _ ↦ yields_pure _).reported _

/-- Compiling gives the module of the definition and leaves a compiler to go on with. -/
theorem Compiler.exists_compile_eq (compiler : Compiler) (comment name : String) (schema : Json)
    (events : List Event) : ∃ next, compiler.Continues next ∧
      ((compiler.compile comment name schema).run.run events).1 =
        (compileOne compiler.config comment name schema).map fun compiled ↦ (compiled, next) := by
  rw [compiler.yields_compile comment name schema events, compileOne]
  cases analyze compiler.config name schema with
  | error fault => exact ⟨compiler, continues_refl compiler, rfl⟩
  | ok definition =>
    obtain ⟨next, hnext, hrender⟩ := compiler.exists_render_eq definition comment
    refine ⟨next, hnext, ?_⟩
    simp only [bind, Except.bind, hrender]
    cases renderDefinition compiler.config.language definition comment <;> rfl

/-- What follows a module that was compiled depends on no declarations of the compiler. -/
theorem yields_compile_bind {compiler : Compiler} {next : CompiledModule × Compiler → Logged α}
    {follow : CompiledModule → Except Fault α}
    (h : ∀ compiled other, compiler.Continues other →
      Yields (next (compiled, other)) (follow compiled)) :
    Yields (compiler.compile comment name schema >>= next)
      (compileOne compiler.config comment name schema >>= follow) := by
  intro events
  obtain ⟨other, hother, hrun⟩ := compiler.exists_compile_eq comment name schema events
  rw [run_bind]
  generalize (compiler.compile comment name schema).run.run events = outcome at hrun
  obtain ⟨result, later⟩ := outcome
  subst hrun
  cases compileOne compiler.config comment name schema with
  | error fault => rfl
  | ok compiled => exact h compiled other hother later

theorem yields_compile_cons (compiler : Compiler) (name : String) (schema : Json)
    {rest : List (String × Json)}
    (h : ∀ compiler, Yields (compileAll compiler comment rest)
      (compileKept compiler.config comment rest)) :
    Yields
      (do
        let (compiled, compiler) ← compiler.compile comment name schema
        let others ← compileAll compiler comment rest
        return compiled :: others)
      (do
        let compiled ← compileOne compiler.config comment name schema
        let others ← compileKept compiler.config comment rest
        return compiled :: others) := by
  refine yields_compile_bind fun compiled next hnext ↦ ?_
  rw [← hnext.config_eq]
  exact (h next).bind fun _ ↦ yields_pure _

theorem yields_compileAll (compiler : Compiler) (comment : String)
    (definitions : List (String × Json)) :
    Yields (compileAll compiler comment definitions)
      (compileKept compiler.config comment definitions) := by
  induction definitions generalizing compiler with
  | nil => exact yields_pure []
  | cons definition rest ih =>
    obtain ⟨name, schema⟩ := definition
    rw [compileAll, compileKept]
    refine (yields_mk _).bind fun ignored ↦ ?_
    cases ignored with
    | true => exact (ih compiler).reported _
    | false =>
      have hcompiled := yields_compile_cons compiler name schema ih
      rw [if_neg Bool.false_ne_true, if_neg Bool.false_ne_true]
      cases hschema : schema.isObject with
      | true => exact hcompiled
      | false => exact hcompiled.reported (.notAMapping name)

/-- The files of a run follow from the compiled definitions. -/
theorem outcome_generate (formatter : Option Formatter) (config : Config) (commandLine : String)
    (definitions : List (String × Json)) :
    (generate formatter config commandLine definitions).outcome.2 =
      (compileKept config (generationComment config commandLine) definitions >>=
        assemble formatter config (generationComment config commandLine)) := by
  apply Yields.outcome
  refine (yields_compileAll _ _ _).bind fun compiled ↦ ?_
  generalize generationComment config commandLine = comment
  have hfiles := (yields_mk (assemble formatter config comment compiled)).bind
    fun files ↦ (yields_pure files).reported (.generated files.length compiled.length)
  have hsame : (assemble formatter config comment compiled >>= Except.ok) =
      assemble formatter config comment compiled := bind_pure _
  rwa [hsame] at hfiles

theorem ignores_of_compileKept_eq_ok {compiled : List CompiledModule}
    (h : compileKept config comment definitions = .ok compiled) :
    ∀ definition ∈ definitions, ∃ ignored, config.ignores definition.1 = .ok ignored := by
  induction definitions generalizing compiled with
  | nil => simp
  | cons definition rest ih =>
    rw [compileKept] at h
    obtain ⟨ignored, hignored, hrun⟩ := bind_eq_ok_iff.mp h
    have hrest : ∃ others, compileKept config comment rest = .ok others := by
      cases ignored with
      | true => exact ⟨_, hrun⟩
      | false =>
        obtain ⟨_, -, hothers⟩ := bind_eq_ok_iff.mp hrun
        obtain ⟨others, hothers, -⟩ := bind_eq_ok_iff.mp hothers
        exact ⟨others, hothers⟩
    obtain ⟨others, hothers⟩ := hrest
    exact List.forall_mem_cons.mpr ⟨⟨ignored, hignored⟩, ih hothers⟩

theorem compileKept_eq_mapM (comment : String)
    (h : ∀ definition ∈ definitions, ∃ ignored, config.ignores definition.1 = .ok ignored) :
    compileKept config comment definitions =
      (config.kept definitions).mapM fun definition ↦
        compileOne config comment definition.1 definition.2 := by
  induction definitions with
  | nil => rfl
  | cons definition rest ih =>
    obtain ⟨⟨ignored, hignored⟩, hrest⟩ := List.forall_mem_cons.mp h
    rw [compileKept, hignored, ih hrest, Config.kept_cons, Config.isIgnored_eq hignored]
    cases ignored with
    | true => rfl
    | false =>
      rw [if_neg Bool.false_ne_true, List.mapM_cons]
      rfl

theorem path_of_analyze {definition : Definition}
    (h : analyze config name schema = .ok definition) :
    definition.names.path = modulePath config.language config.nameLead name := by
  obtain ⟨conventions, hconventions, rfl⟩ := Package.analyze_eq_ok h
  obtain ⟨hlanguage, hlead⟩ := Config.eq_of_conventions_eq_ok hconventions
  rw [← hlanguage, ← hlead]
  rfl

theorem placement_of_compileOne {compiled : CompiledModule}
    (h : compileOne config comment name schema = .ok compiled) :
    (compiled.name, compiled.path) = (name, modulePath config.language config.nameLead name) := by
  obtain ⟨definition, hanalyze, hrender⟩ := bind_eq_ok_iff.mp h
  obtain ⟨content, -, hcompiled⟩ := bind_eq_ok_iff.mp hrender
  obtain rfl := Except.ok.inj hcompiled
  rw [← path_of_analyze hanalyze]

/-- Names and module paths do not depend on how the definitions are compiled. -/
theorem map_placement_of_compileKept {compiled : List CompiledModule}
    (h : compileKept config comment definitions = .ok compiled) :
    compiled.map (fun module ↦ (module.name, module.path)) = config.placements definitions := by
  rw [compileKept_eq_mapM comment (ignores_of_compileKept_eq_ok h), mapM_eq_ok_iff] at h
  rw [Config.placements]
  generalize config.kept definitions = kept at h
  induction h with
  | nil => rfl
  | cons hone _ ih => rw [List.map_cons, List.map_cons, ih, placement_of_compileOne hone]

/-! ## Assembled files -/

/-- The tree of compiled definitions. -/
def moduleTree (compiled : List CompiledModule) : Except Fault ModuleTree :=
  (ModuleTree.build (compiled.map fun module ↦ (module.name, module.path))).mapError .placement

def supportModules (language : Language) : List GeneratedFile :=
  (supportFiles language).map fun (name, content) ↦ ⟨Files.Path.ofText name, .support, content⟩

theorem assemble_eq (formatter : Option Formatter) (config : Config) (comment : String)
    (compiled : List CompiledModule) :
    assemble formatter config comment compiled = (do
      let modules ← compiled.mapM (definitionFile formatter config)
      let tree ← moduleTree compiled
      let indexes ← tree.indexes.mapM (indexFileOf formatter config comment)
      return modules ++ indexes ++ supportModules config.language) := by
  rw [assemble, moduleTree]
  cases ModuleTree.build (compiled.map fun module ↦ (module.name, module.path)) <;> rfl

theorem moduleTree_eq_ok_iff {compiled : List CompiledModule} {tree : ModuleTree} :
    moduleTree compiled = .ok tree ↔
      ModuleTree.build (compiled.map fun module ↦ (module.name, module.path)) = .ok tree :=
  mapError_eq_ok_iff

theorem exists_conflict_of_moduleTree_eq_error {compiled : List CompiledModule} {fault : Fault}
    (h : moduleTree compiled = .error fault) : ∃ conflict, fault = .placement conflict := by
  obtain ⟨conflict, -, hfault⟩ := mapError_eq_error_iff.mp h
  exact ⟨conflict, hfault.symm⟩

end Output

end SchemaModules
