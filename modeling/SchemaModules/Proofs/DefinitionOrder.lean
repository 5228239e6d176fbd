import Mathlib.Data.List.Perm.Basic
import SchemaModules.Proofs.DirectoryIndexes
import SchemaModules.Proofs.GenerationOutcome

/-!
# The order of definitions

A compiler compiles every definition as if it were its first one. Therefore the order of definitions
shows in nothing but the order of files and the order of lines in indexes.
-/

namespace SchemaModules.Output

open ModuleTree

variable {α β : Type} {formatter : Option Formatter} {config : Config}
  {definitions others : List (String × Json)} {comment name commandLine : String} {schema : Json}

/-- What a compiler is asked to do. -/
inductive Task
  | compile (comment name : String) (schema : Json)
  | translate (wanted : String) (type : Option Schema.TypeExpr)

/-- The compiler after a task. One that fails leaves it as it was. -/
def Compiler.after (compiler : Compiler) : Task → Compiler
  | .compile comment name schema =>
    match (compiler.compile comment name schema).outcome.2 with
    | .ok (_, next) => next
    | .error _ => compiler
  | .translate wanted type => (compiler.translate wanted type).2

theorem Compiler.continues_after (compiler : Compiler) (task : Task) :
    compiler.Continues (compiler.after task) := by
  cases task with
  | compile comment name schema =>
    obtain ⟨next, hnext, hrun⟩ := compiler.exists_compile_eq comment name schema []
    have houtcome : (compiler.compile comment name schema).outcome.2 = _ := hrun
    rw [after, houtcome]
    cases compileOne compiler.config comment name schema with
    | ok compiled => exact hnext
    | error fault => exact continues_refl compiler
  | translate wanted type =>
    obtain ⟨config, scope⟩ := compiler
    rw [after]
    cases type with
    | none => exact continues_refl _
    | some type =>
      rw [translate]
      cases hlanguage : config.language with
      | python => exact ⟨rfl, fun h ↦ by cases hlanguage.symm.trans h⟩
      | typescript => exact continues_refl _

theorem Compiler.continues_foldl (compiler : Compiler) (tasks : List Task) :
    compiler.Continues (tasks.foldl Compiler.after compiler) := by
  induction tasks generalizing compiler with
  | nil => exact continues_refl compiler
  | cons task rest ih => exact (compiler.continues_after task).trans (ih _)

/-- What a compiler does with a definition depends on nothing that it did before. -/
theorem Compiler.Continues.compile_eq {compiler next : Compiler} (h : compiler.Continues next)
    (comment name : String) (schema : Json) :
    next.compile comment name schema = compiler.compile comment name schema := by
  have hrender (definition : Definition) :
      next.render definition comment = compiler.render definition comment := by
    cases hlanguage : compiler.config.language with
    | typescript => rw [h.eq_of_typescript hlanguage]
    | python =>
      rw [render, render, h.config_eq, hlanguage]
      rfl
  simp only [compile, h.config_eq, hrender]

/-- Steps that are taken in another order give the same results in another order. -/
theorem exists_mapM_eq_ok_of_perm {step : α → Except Fault β} {inputs reordered : List α}
    {results : List β} (hperm : inputs.Perm reordered) (h : inputs.mapM step = .ok results) :
    ∃ found, reordered.mapM step = .ok found ∧ results.Perm found := by
  obtain ⟨found, hsteps, hfound⟩ := List.perm_comp_forall₂ hperm.symm (mapM_eq_ok_iff.mp h)
  exact ⟨found, mapM_eq_ok_iff.mpr hsteps, hfound.symm⟩

theorem exists_compileKept_eq_ok_of_perm {compiled : List CompiledModule}
    (hperm : definitions.Perm others) (h : compileKept config comment definitions = .ok compiled) :
    ∃ found, compileKept config comment others = .ok found ∧ compiled.Perm found := by
  have hignores := ignores_of_compileKept_eq_ok h
  rw [compileKept_eq_mapM comment hignores] at h
  rw [compileKept_eq_mapM comment fun definition hdefinition ↦
    hignores definition (hperm.mem_iff.mpr hdefinition)]
  exact exists_mapM_eq_ok_of_perm (hperm.filter _) h

/-! ## Files that agree -/

/-- Index files of one directory that list the same, in any order. The lines of one are those of the
other in another order, as they are before they are formatted; without a formatter they stay so. -/
structure SameIndex (formatter : Option Formatter) (config : Config) (comment : String)
    (file other : GeneratedFile) : Prop where
  path_eq : file.path = other.path
  exists_index : ∃ index found, indexFileOf formatter config comment index = .ok file ∧
    indexFileOf formatter config comment found = .ok other ∧ index.path = found.path ∧
    index.modules.Perm found.modules ∧ index.packages.Perm found.packages
  exists_lines : ∃ lines reordered, lines.Perm reordered ∧
    formatted formatter config (Text.unlines lines) = .ok file.content ∧
    formatted formatter config (Text.unlines reordered) = .ok other.content

/-- Files that agree apart from their order and the order of lines in indexes. -/
structure SameFiles (formatter : Option Formatter) (config : Config) (comment : String)
    (files others : List GeneratedFile) : Prop where
  perm_modules : (files.filter (·.kind ≠ .index)).Perm (others.filter (·.kind ≠ .index))
  same_indexes : ∃ reordered, List.Perm reordered (others.filter (·.kind = .index)) ∧
    List.Forall₂ (SameIndex formatter config comment) (files.filter (·.kind = .index)) reordered

/-- Runs that both fail, or return files that agree. -/
def SameOutcome (formatter : Option Formatter) (config : Config) (comment : String) :
    Except Fault (List GeneratedFile) → Except Fault (List GeneratedFile) → Prop
  | .ok files, .ok others => SameFiles formatter config comment files others
  | .error _, .error _ => True
  | _, _ => False

theorem exists_lines_renderIndex (language : Language) (comment : String) {index found : Index}
    (hmodules : index.modules.Perm found.modules) (hpackages : index.packages.Perm found.packages) :
    ∃ lines reordered, List.Perm lines reordered ∧
      renderIndex language comment index = Text.unlines lines ∧
      renderIndex language comment found = Text.unlines reordered := by
  cases language with
  | python =>
    exact ⟨_, _, ((hmodules.map _).append_left _).append (hpackages.map _), rfl, rfl⟩
  | typescript =>
    exact ⟨_, _, ((hmodules.map _).append_left _).append (hpackages.flatMap_right _), rfl, rfl⟩

variable {tree other inner found : ModuleTree} {path : List String}
  {placements reordered : List (String × List String)}

theorem represents_of_perm (hperm : placements.Perm reordered) (h : Represents tree reordered) :
    Represents tree placements where
  find?_eq_some_iff path name := by rw [h.find?_eq_some_iff, hperm.mem_iff]
  isSome_directory?_iff path := by
    rw [h.isSome_directory?_iff]
    simp only [hperm.mem_iff]
  distinct := h.distinct

/-- Directories at one path of two such trees list the same. -/
theorem perm_listed (htree : Represents tree placements) (hother : Represents other placements)
    (hinner : tree.directory? path = some inner) (hfound : other.directory? path = some found) :
    (moduleNames inner).Perm (moduleNames found) ∧
      (directoryNames inner).Perm (directoryNames found) := by
  have hdistinct := distinct_of_directory? htree.distinct hinner
  have hsame := distinct_of_directory? hother.distinct hfound
  have hmodules := (moduleNames_sublist_keys inner).nodup hdistinct.nodup_keys
  have hdirectories := (directoryNames_sublist_keys inner).nodup hdistinct.nodup_keys
  constructor
  · refine (List.perm_ext_iff_of_nodup hmodules
      ((moduleNames_sublist_keys found).nodup hsame.nodup_keys)).mpr fun key ↦ ?_
    rw [hdistinct.mem_moduleNames_iff, hsame.mem_moduleNames_iff]
    have hne : [key] ≠ [] := List.cons_ne_nil _ _
    simp only [← find?_append hinner hne, ← find?_append hfound hne, htree.find?_eq_some_iff,
      hother.find?_eq_some_iff]
  · refine (List.perm_ext_iff_of_nodup hdirectories
      ((directoryNames_sublist_keys found).nodup hsame.nodup_keys)).mpr fun key ↦ ?_
    rw [hdistinct.mem_directoryNames_iff, hsame.mem_directoryNames_iff, ← directory?_append hinner,
      ← directory?_append hfound, htree.isSome_directory?_iff, hother.isSome_directory?_iff]

/-- Trees of the same placements have indexes of the same directories, which list the same. -/
theorem exists_indexes_perm (htree : Represents tree placements)
    (hother : Represents other placements) : ∃ indexes, List.Perm indexes other.indexes ∧
      List.Forall₂ (fun index listed ↦ index.path = listed.path ∧
        index.modules.Perm listed.modules ∧ index.packages.Perm listed.packages)
        tree.indexes indexes := by
  obtain ⟨hnodup, hpaths⟩ := indexes_path_spec htree.distinct
  have hdirectory : ∀ path inner, tree.directory? path = some inner →
      ∃ found, other.directory? path = some found := by
    intro path inner hinner
    have hsome := (htree.isSome_directory?_iff path).mp (Option.isSome_iff_exists.mpr ⟨_, hinner⟩)
    exact Option.isSome_iff_exists.mp ((hother.isSome_directory?_iff path).mpr hsome)
  let listed (index : Index) : Index :=
    indexOf index.path ((other.directory? index.path).getD [])
  have hlisted : (tree.indexes.map listed).map Index.path = tree.indexes.map Index.path := by
    rw [List.map_map]
    rfl
  refine ⟨tree.indexes.map listed, (List.perm_ext_iff_of_nodup ?_ ?_).mpr ?_, ?_⟩
  · exact (hlisted ▸ hnodup).of_map
  · exact (indexes_path_spec hother.distinct).1.of_map
  · intro index
    rw [List.mem_map, mem_indexes_iff hother.distinct]
    constructor
    · rintro ⟨first, hfirst, rfl⟩
      obtain ⟨path, inner, hinner, rfl⟩ := (mem_indexes_iff htree.distinct first).mp hfirst
      obtain ⟨found, hfound⟩ := hdirectory path inner hinner
      exact ⟨path, found, hfound, by simp [listed, indexOf, hfound]⟩
    · rintro ⟨path, found, hfound, rfl⟩
      have hsome := (hother.isSome_directory?_iff path).mp
        (Option.isSome_iff_exists.mpr ⟨_, hfound⟩)
      obtain ⟨first, hfirst, rfl⟩ := List.mem_map.mp
        ((hpaths path).mpr ((htree.isSome_directory?_iff path).mpr hsome))
      exact ⟨first, hfirst, by simp [listed, hfound]⟩
  · rw [List.forall₂_map_right_iff, List.forall₂_same]
    intro index hindex
    obtain ⟨path, inner, hinner, rfl⟩ := (mem_indexes_iff htree.distinct index).mp hindex
    obtain ⟨found, hfound⟩ := hdirectory path inner hinner
    refine ⟨rfl, ?_⟩
    simpa [listed, indexOf, hfound] using perm_listed htree hother hinner hfound

/-! ## Runs on reordered definitions -/

/-- Whether a content can be formatted depends on the configuration only. -/
theorem exists_formatted_eq_ok_of_eq_ok (hanswers : Answers formatter config)
    {content text : String} (h : formatted formatter config content = .ok text) (other : String) :
    ∃ found, formatted formatter config other = .ok found := by
  rw [formatted] at h ⊢
  cases hlanguage : config.language with
  | typescript => exact ⟨other, rfl⟩
  | python =>
    cases hsettings : config.formatter with
    | none => simp [hlanguage, hsettings] at h
    | some settings =>
      simp only [hlanguage, hsettings] at h ⊢
      by_cases henabled : settings.enabled.isTruthy
      · rw [if_pos henabled] at h ⊢
        cases formatter with
        | none => exact ⟨other, rfl⟩
        | some installed =>
          cases hversion : installed.version? settings.targetVersion with
          | ok version => exact exists_format_eq_ok hanswers hsettings hversion other
          | error fault => simp [format, hversion, bind, Except.bind] at h
      · rw [if_neg henabled]
        exact ⟨other, rfl⟩

theorem indexFileOf_eq_ok_iff {index : Index} {file : GeneratedFile} :
    indexFileOf formatter config comment index = .ok file ↔
      ∃ text, formatted formatter config (renderIndex config.language comment index) = .ok text ∧
        file = ⟨indexFile config.language index.path, .index, text⟩ := by
  rw [indexFileOf, bind_eq_ok_iff]
  refine exists_congr fun text ↦ and_congr_right fun _ ↦ ?_
  simp [pure, Except.pure, eq_comm]

theorem sameIndex_of_indexFileOf {index listed : Index} {file other : GeneratedFile}
    (h : index.path = listed.path ∧ index.modules.Perm listed.modules ∧
      index.packages.Perm listed.packages)
    (hfile : indexFileOf formatter config comment index = .ok file)
    (hother : indexFileOf formatter config comment listed = .ok other) :
    SameIndex formatter config comment file other := by
  obtain ⟨text, htext, rfl⟩ := indexFileOf_eq_ok_iff.mp hfile
  obtain ⟨found, hfound, rfl⟩ := indexFileOf_eq_ok_iff.mp hother
  obtain ⟨lines, reordered, hlines, hrendered, hreordered⟩ :=
    exists_lines_renderIndex config.language comment h.2.1 h.2.2
  rw [hrendered] at htext
  rw [hreordered] at hfound
  exact ⟨by rw [h.1], ⟨index, listed, hfile, hother, h⟩, lines, reordered, hlines, htext, hfound⟩

theorem forall₂_sameIndex {indexes listed : List Index} {files others : List GeneratedFile}
    (h : List.Forall₂ (fun index listed ↦ index.path = listed.path ∧
      index.modules.Perm listed.modules ∧ index.packages.Perm listed.packages) indexes listed)
    (hfiles : indexes.mapM (indexFileOf formatter config comment) = .ok files)
    (hothers : listed.mapM (indexFileOf formatter config comment) = .ok others) :
    List.Forall₂ (SameIndex formatter config comment) files others := by
  rw [mapM_eq_ok_iff] at hfiles hothers
  induction h generalizing files others with
  | nil =>
    cases hfiles
    cases hothers
    exact .nil
  | cons hindex _ ih =>
    obtain _ | ⟨hfile, hfiles⟩ := hfiles
    obtain _ | ⟨hother, hothers⟩ := hothers
    exact .cons (sameIndex_of_indexFileOf hindex hfile hother) (ih hfiles hothers)

theorem kind_of_definitionFile {compiled : CompiledModule} {file : GeneratedFile}
    (h : definitionFile formatter config compiled = .ok file) : file.kind = .definition := by
  obtain ⟨path, -, hrest⟩ := bind_eq_ok_iff.mp h
  obtain ⟨content, -, hfile⟩ := bind_eq_ok_iff.mp hrest
  rw [← Except.ok.inj hfile]

theorem kind_of_mem_modules {compiled : List CompiledModule} {modules : List GeneratedFile}
    (h : compiled.mapM (definitionFile formatter config) = .ok modules) :
    ∀ file ∈ modules, file.kind = .definition := by
  intro file hfile
  obtain ⟨module, -, hmodule⟩ := exists_input_of_mapM_eq_ok h hfile
  exact kind_of_definitionFile hmodule

theorem kind_of_mem_indexFiles {indexes : List Index} {files : List GeneratedFile}
    (h : indexes.mapM (indexFileOf formatter config comment) = .ok files) :
    ∀ file ∈ files, file.kind = .index := by
  intro file hfile
  obtain ⟨index, -, hindex⟩ := exists_input_of_mapM_eq_ok h hfile
  obtain ⟨text, -, rfl⟩ := indexFileOf_eq_ok_iff.mp hindex
  rfl

/-- Only the files of indexes are indexes. -/
theorem filter_kind_eq {modules indexes : List GeneratedFile} (language : Language)
    (hmodules : ∀ file ∈ modules, file.kind = .definition)
    (hindexes : ∀ file ∈ indexes, file.kind = .index) :
    (modules ++ indexes ++ supportModules language).filter (·.kind ≠ .index) =
        modules ++ supportModules language ∧
      (modules ++ indexes ++ supportModules language).filter (·.kind = .index) = indexes := by
  have hsupport : ∀ file ∈ supportModules language, file.kind = .support := by
    intro file hfile
    obtain ⟨entry, -, rfl⟩ := List.mem_map.mp hfile
    rfl
  have hkeep : modules.filter (·.kind ≠ .index) = modules ∧
      modules.filter (·.kind = .index) = [] :=
    ⟨List.filter_eq_self.mpr fun file hfile ↦ by simp [hmodules file hfile],
      List.filter_eq_nil_iff.mpr fun file hfile ↦ by simp [hmodules file hfile]⟩
  have hlast : (supportModules language).filter (·.kind ≠ .index) = supportModules language ∧
      (supportModules language).filter (·.kind = .index) = [] :=
    ⟨List.filter_eq_self.mpr fun file hfile ↦ by simp [hsupport file hfile],
      List.filter_eq_nil_iff.mpr fun file hfile ↦ by simp [hsupport file hfile]⟩
  have hlisted : indexes.filter (·.kind ≠ .index) = [] ∧
      indexes.filter (·.kind = .index) = indexes :=
    ⟨List.filter_eq_nil_iff.mpr fun file hfile ↦ by simp [hindexes file hfile],
      List.filter_eq_self.mpr fun file hfile ↦ by simp [hindexes file hfile]⟩
  simp only [List.filter_append, hkeep, hlast, hlisted, List.append_nil, List.nil_append, and_self]

/-- Compiled definitions in another order make files that agree. -/
theorem exists_assemble_eq_ok_of_perm (hanswers : Answers formatter config)
    {compiled reordered : List CompiledModule} {files : List GeneratedFile}
    (hperm : compiled.Perm reordered) (h : assemble formatter config comment compiled = .ok files) :
    ∃ others, assemble formatter config comment reordered = .ok others ∧
      SameFiles formatter config comment files others := by
  rw [assemble_eq] at h ⊢
  obtain ⟨modules, hmodules, hrest⟩ := bind_eq_ok_iff.mp h
  obtain ⟨tree, htree, hrest⟩ := bind_eq_ok_iff.mp hrest
  obtain ⟨indexes, hindexes, hfiles⟩ := bind_eq_ok_iff.mp hrest
  obtain rfl := Except.ok.inj hfiles
  obtain ⟨found, hfound, hmodulesPerm⟩ := exists_mapM_eq_ok_of_perm hperm hmodules
  -- The index of the root shows that contents can be formatted.
  obtain ⟨root, -, hroot⟩ := exists_result_of_mapM_eq_ok hindexes
    (List.mem_append_right _ (List.mem_singleton_self (indexOf [] tree)))
  obtain ⟨content, hcontent, -⟩ := indexFileOf_eq_ok_iff.mp hroot
  have hplacements := hperm.map fun module : CompiledModule ↦ (module.name, module.path)
  have hrepresents := represents_of_build_eq_ok (moduleTree_eq_ok_iff.mp htree)
  obtain ⟨other, hother⟩ := exists_moduleTree_eq_ok_iff.mpr
    (hrepresents.conflictFree.mono hplacements.symm.subset)
  have hsame := represents_of_perm hplacements
    (represents_of_build_eq_ok (moduleTree_eq_ok_iff.mp hother))
  obtain ⟨listed, hlisted, hindex⟩ := exists_indexes_perm hrepresents hsame
  obtain ⟨listedFiles, hlistedFiles⟩ : ∃ listedFiles,
      listed.mapM (indexFileOf formatter config comment) = .ok listedFiles := by
    refine exists_mapM_eq_ok_iff.mpr fun index _ ↦ ?_
    obtain ⟨text, htext⟩ := exists_formatted_eq_ok_of_eq_ok hanswers hcontent
      (renderIndex config.language comment index)
    exact ⟨_, indexFileOf_eq_ok_iff.mpr ⟨text, htext, rfl⟩⟩
  obtain ⟨otherFiles, hotherFiles, hfilesPerm⟩ := exists_mapM_eq_ok_of_perm hlisted hlistedFiles
  refine ⟨_, bind_eq_ok_iff.mpr ⟨found, hfound, bind_eq_ok_iff.mpr ⟨other, hother,
    bind_eq_ok_iff.mpr ⟨otherFiles, hotherFiles, rfl⟩⟩⟩, ?_⟩
  have hfilter := filter_kind_eq config.language (kind_of_mem_modules hmodules)
    (kind_of_mem_indexFiles hindexes)
  have hotherFilter := filter_kind_eq config.language (kind_of_mem_modules hfound)
    (kind_of_mem_indexFiles hotherFiles)
  constructor
  · rw [hfilter.1, hotherFilter.1]
    exact hmodulesPerm.append_right _
  · rw [hfilter.2, hotherFilter.2]
    exact ⟨listedFiles, hfilesPerm, forall₂_sameIndex hindex hindexes hlistedFiles⟩

theorem exists_generate_eq_ok_of_perm (hanswers : Answers formatter config)
    {files : List GeneratedFile} (hperm : definitions.Perm others)
    (h : (generate formatter config commandLine definitions).outcome.2 = .ok files) :
    ∃ found, (generate formatter config commandLine others).outcome.2 = .ok found ∧
      SameFiles formatter config (generationComment config commandLine) files found := by
  rw [outcome_generate] at h ⊢
  obtain ⟨compiled, hcompiled, hfiles⟩ := bind_eq_ok_iff.mp h
  obtain ⟨reordered, hreordered, hmodules⟩ := exists_compileKept_eq_ok_of_perm hperm hcompiled
  obtain ⟨found, hfound, hsame⟩ := exists_assemble_eq_ok_of_perm hanswers hmodules hfiles
  exact ⟨found, bind_eq_ok_iff.mpr ⟨reordered, hreordered, hfound⟩, hsame⟩

/-- A configuration under which neither earlier work nor the order of definitions matters. -/
structure OrderFree (formatter : Option Formatter) (config : Config) : Prop where
  compile_eq : ∀ (tasks : List Task) (comment name : String) (schema : Json),
    Compiler.compile (tasks.foldl Compiler.after { config }) comment name schema =
      Compiler.compile { config } comment name schema
  generate_perm : ∀ (commandLine : String) (definitions others : List (String × Json)),
    definitions.Perm others →
      SameOutcome formatter config (generationComment config commandLine)
        (generate formatter config commandLine definitions).outcome.2
        (generate formatter config commandLine others).outcome.2

/-- Neither earlier work of a compiler nor the order of definitions matters, unless there is a
formatter and it fails. -/
theorem orderFree (config : Config) (hanswers : Answers formatter config) :
    OrderFree formatter config where
  compile_eq tasks comment name schema :=
    (Compiler.continues_foldl { config } tasks).compile_eq comment name schema
  generate_perm commandLine definitions others hperm := by
    cases hfirst : (generate formatter config commandLine definitions).outcome.2 with
    | ok files =>
      obtain ⟨found, hfound, hsame⟩ := exists_generate_eq_ok_of_perm hanswers hperm hfirst
      rw [hfound]
      exact hsame
    | error fault =>
      cases hsecond : (generate formatter config commandLine others).outcome.2 with
      | error other => trivial
      | ok files =>
        obtain ⟨found, hfound, -⟩ := exists_generate_eq_ok_of_perm hanswers hperm.symm hsecond
        rw [hfirst] at hfound
        cases hfound

/-- A formatter that finds every text in its final form. -/
def contentFormatter : Formatter where
  isVersion name := name == "PY312"
  format _ _ content := .text content

/-- A configuration with which Python modules are formatted. -/
def formattingConfig : Config := { formatter := some { enabled := .bool true } }

def siblingDefinitions : List (String × Json) :=
  [("x.A", .obj [("type", .str "object")]), ("x.B", .obj [("type", .str "string")])]

theorem orderFree_formattingConfig :
    Answers (some contentFormatter) formattingConfig ∧
      OrderFree (some contentFormatter) formattingConfig ∧
      ∃ files, (generate (some contentFormatter) formattingConfig programName
        siblingDefinitions).outcome.2 = .ok files := by
  have hanswers : Answers (some contentFormatter) formattingConfig := by
    rintro installed hinstalled settings - version content fault hanswer
    obtain rfl := Option.some.inj hinstalled
    cases hanswer
  have htyped : formattingConfig.WellTyped :=
    ⟨⟨"io.k8s.", rfl⟩, ⟨"#/definitions/", rfl⟩, ⟨[], rfl⟩, rfl⟩
  have hformats : Formats (some contentFormatter) formattingConfig := by
    refine ⟨hanswers, ?_⟩
    rintro installed - settings hsettings
    obtain rfl := Option.some.inj hsettings
    exact ⟨_, rfl⟩
  refine ⟨hanswers, orderFree _ hanswers, (exists_generate_eq_ok_iff htyped hformats _ _).mpr ?_⟩
  refine ⟨?_, by decide +kernel⟩
  rintro ⟨⟩

end SchemaModules.Output
