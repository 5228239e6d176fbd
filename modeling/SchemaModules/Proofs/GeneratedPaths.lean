import SchemaModules.Proofs.GenerationOutcome

/-!
# Paths of generated files

Every generated file is the module at some path: that of a definition, the index module of a
directory, or a support module at the top. Definitions are kept apart from each other only. One that
takes the path of an index or of a support module loses its file.
-/

namespace SchemaModules

open Naming ModuleTree

variable {formatter : Option Output.Formatter} {config : Config}
  {definitions : List (String × Json)} {comment commandLine : String}
  {language : Language} {segment leaf : String} {path directory first second : List String}

/-! ## Files of modules -/

/-- A segment that stays one part of the path of a file. -/
structure IsPlain (segment : String) : Prop extends IsSegment segment where
  no_slash : '/' ∉ segment.toList

instance : DecidablePred IsPlain := fun segment ↦
  decidable_of_iff (IsSegment segment ∧ '/' ∉ segment.toList)
    ⟨fun h ↦ ⟨h.1, h.2⟩, fun h ↦ ⟨h.toIsSegment, h.no_slash⟩⟩

theorem IsPlain.isPart (h : IsPlain segment) : IsPart segment := by
  refine ⟨h.ne_empty, ?_, h.no_slash⟩
  rintro rfl
  exact h.no_dot (by decide)

/-- The name of the module that re-exports a directory. -/
def Language.indexModule : Language → String
  | python => "__init__"
  | typescript => "index"

/-- The paths of the support modules. -/
def supportPaths : Language → List (List String)
  | .python => [Python.baseModule, Python.registryModule]
  | .typescript => [TypeScript.registryModule, TypeScript.baseModule]

namespace Output

/-- The file name of a module. -/
def fileName (language : Language) (leaf : String) : String :=
  leaf ++ "." ++ language.fileExtension

/-- The file of the module at a path. -/
def filePath (language : Language) (path : List String) : Files.Path :=
  ⟨"", path.dropLast ++ [fileName language (path.getLast?.getD "")]⟩

theorem filePath_concat (language : Language) (directory : List String) (leaf : String) :
    filePath language (directory ++ [leaf]) = ⟨"", directory ++ [fileName language leaf]⟩ := by
  simp [filePath]

theorem eq_of_filePath_eq (hfirst : first ≠ []) (hsecond : second ≠ [])
    (h : filePath language first = filePath language second) : first = second := by
  obtain ⟨above, leaf, rfl⟩ := (List.eq_nil_or_concat' first).resolve_left hfirst
  obtain ⟨other, name, rfl⟩ := (List.eq_nil_or_concat' second).resolve_left hsecond
  rw [filePath_concat, filePath_concat] at h
  obtain ⟨rfl, hname⟩ := List.append_inj' (Files.Path.mk.inj h).2 rfl
  have hleaf : leaf = name := by simpa [fileName] using hname
  rw [hleaf]

theorem isPart_fileName (h : IsPlain leaf) (language : Language) :
    IsPart (fileName language leaf) := by
  obtain ⟨c, rest, hleaf⟩ : ∃ c rest, leaf.toList = c :: rest :=
    List.exists_cons_of_ne_nil (by simpa using h.ne_empty)
  have hextension : '/' ∉ language.fileExtension.toList := by cases language <;> decide
  refine ⟨?_, ?_, ?_⟩
  · simp [fileName]
  · intro hdot
    have hchars := congrArg String.toList hdot
    simp only [fileName, String.toList_append, hleaf, List.cons_append] at hchars
    have hfirst : c = '.' := (List.cons.inj hchars).1
    apply h.no_dot
    rw [hleaf, hfirst]
    exact List.mem_cons_self
  · simpa [fileName] using ⟨h.no_slash, hextension⟩

/-- The file of the module at a path, wherever the texts of its segments lead. -/
def writtenPath (language : Language) (path : List String) : Files.Path :=
  Files.Path.ofTexts (path.dropLast ++ [fileName language (path.getLast?.getD "")])

theorem writtenPath_concat (language : Language) (directory : List String) (leaf : String) :
    writtenPath language (directory ++ [leaf]) =
      Files.Path.ofTexts (directory ++ [fileName language leaf]) := by
  simp [writtenPath]

theorem writtenPath_eq_filePath (hne : path ≠ []) (hplain : ∀ segment ∈ path, IsPlain segment) :
    writtenPath language path = filePath language path := by
  obtain ⟨above, leaf, rfl⟩ := (List.eq_nil_or_concat' path).resolve_left hne
  rw [writtenPath_concat, filePath_concat]
  apply ofTexts_eq
  intro text htext
  rcases List.mem_append.mp htext with habove | hleaf
  · exact (hplain text (List.mem_append_left _ habove)).isPart
  · obtain rfl := List.mem_singleton.mp hleaf
    exact isPart_fileName (hplain leaf (by simp)) language

theorem moduleFile_eq_ok (hne : path ≠ []) :
    moduleFile language path = .ok (writtenPath language path) := by
  obtain ⟨above, leaf, rfl⟩ := (List.eq_nil_or_concat' path).resolve_left hne
  rw [writtenPath_concat]
  simp [moduleFile, fileName]

theorem indexFile_eq (language : Language) (directory : List String) :
    indexFile language directory = writtenPath language (directory ++ [language.indexModule]) := by
  rw [writtenPath_concat, indexFile]
  cases language <;> rfl

theorem map_path_supportModules (language : Language) :
    (supportModules language).map GeneratedFile.path =
      (supportPaths language).map (writtenPath language) := by
  cases language <;> decide +kernel

theorem path_of_definitionFile {compiled : CompiledModule} {file : GeneratedFile}
    (hne : compiled.path ≠ []) (h : definitionFile formatter config compiled = .ok file) :
    file.path = writtenPath config.language compiled.path := by
  obtain ⟨target, htarget, hrest⟩ := bind_eq_ok_iff.mp h
  obtain ⟨content, -, hfile⟩ := bind_eq_ok_iff.mp hrest
  rw [moduleFile_eq_ok hne] at htarget
  rw [Except.ok.inj htarget, ← Except.ok.inj hfile]

theorem path_of_indexFileOf {index : ModuleTree.Index} {file : GeneratedFile}
    (h : indexFileOf formatter config comment index = .ok file) :
    file.path = writtenPath config.language (index.path ++ [config.language.indexModule]) := by
  obtain ⟨content, -, hfile⟩ := bind_eq_ok_iff.mp h
  rw [← indexFile_eq, ← Except.ok.inj hfile]

theorem map_path_of_mapM {α : Type} {step : α → Except Fault GeneratedFile} {inputs : List α}
    {files : List GeneratedFile} {pathOf : α → Files.Path} (h : inputs.mapM step = .ok files)
    (hpath : ∀ input ∈ inputs, ∀ file, step input = .ok file → file.path = pathOf input) :
    files.map GeneratedFile.path = inputs.map pathOf := by
  have hsteps := mapM_eq_ok_iff.mp h
  clear h
  induction hsteps with
  | nil => rfl
  | cons hfile _ ih =>
    obtain ⟨hfirst, hrest⟩ := List.forall_mem_cons.mp hpath
    rw [List.map_cons, List.map_cons, hfirst _ hfile, ih hrest]

/-- The paths that the modules of an output take: those of definitions, those of indexes, and those
of support modules. -/
def takenPaths (language : Language) (placements : List (String × List String))
    (directories : List (List String)) : List (List String) :=
  placements.map Prod.snd ++
    (directories.map (· ++ [language.indexModule]) ++ supportPaths language)

theorem ne_nil_of_mem_takenPaths {placements : List (String × List String)}
    {directories : List (List String)} (hfree : ConflictFree placements)
    (h : path ∈ takenPaths language placements directories) : path ≠ [] := by
  have hsupport : ∀ path ∈ supportPaths language, path ≠ [] := by cases language <;> decide
  rcases List.mem_append.mp h with hown | hother
  · obtain ⟨placement, hplacement, rfl⟩ := List.mem_map.mp hown
    exact hfree.ne_nil placement hplacement
  rcases List.mem_append.mp hother with hindex | hmember
  · obtain ⟨directory, -, rfl⟩ := List.mem_map.mp hindex
    simp
  · exact hsupport path hmember

/-- What the directories of placements are. -/
def IsDirectoryOf (placements : List (String × List String)) (directory : List String) : Prop :=
  directory = [] ∨ ∃ placement ∈ placements, directory <+: placement.2 ∧ directory ≠ placement.2

/-- What holds of the segments of all placements holds of those of their directories. -/
theorem IsDirectoryOf.forall_mem {placements : List (String × List String)}
    {holds : String → Prop} (h : IsDirectoryOf placements directory)
    (hplacements : ∀ placement ∈ placements, ∀ segment ∈ placement.2, holds segment) :
    ∀ segment ∈ directory, holds segment := by
  rcases h with rfl | ⟨placement, hplacement, hlead, -⟩
  · simp
  · exact fun segment hsegment ↦ hplacements placement hplacement segment (hlead.subset hsegment)

/-- Files that are those of all modules of an output, in order, wherever their paths lead. -/
structure WrittenAt (language : Language) (placements : List (String × List String))
    (directories : List (List String)) (files : List GeneratedFile) : Prop where
  conflictFree : ConflictFree placements
  nodup : directories.Nodup
  mem_iff : ∀ directory, directory ∈ directories ↔ IsDirectoryOf placements directory
  map_path : files.map GeneratedFile.path =
    (takenPaths language placements directories).map (writtenPath language)

/-- What holds of the segments of all placements, and of the names that indexes and support modules
have, holds of all segments. -/
theorem WrittenAt.forall_mem {placements : List (String × List String)}
    {directories : List (List String)} {files : List GeneratedFile} {holds : String → Prop}
    (h : WrittenAt language placements directories files)
    (hplacements : ∀ placement ∈ placements, ∀ segment ∈ placement.2, holds segment)
    (hindex : holds language.indexModule)
    (hsupport : ∀ path ∈ supportPaths language, ∀ segment ∈ path, holds segment) :
    ∀ path ∈ takenPaths language placements directories, ∀ segment ∈ path, holds segment := by
  intro path hpath segment hsegment
  rcases List.mem_append.mp hpath with hown | hother
  · obtain ⟨placement, hplacement, rfl⟩ := List.mem_map.mp hown
    exact hplacements placement hplacement segment hsegment
  rcases List.mem_append.mp hother with hdirectory | hmember
  · obtain ⟨directory, hmem, rfl⟩ := List.mem_map.mp hdirectory
    rcases List.mem_append.mp hsegment with habove | hlast
    · exact ((h.mem_iff directory).mp hmem).forall_mem hplacements segment habove
    · obtain rfl := List.mem_singleton.mp hlast
      exact hindex
  · exact hsupport path hmember segment hsegment

theorem exists_writtenAt_of_generate {files : List GeneratedFile}
    (h : (generate formatter config commandLine definitions).outcome.2 = .ok files) :
    ∃ directories,
      WrittenAt config.language (config.placements definitions) directories files := by
  rw [outcome_generate] at h
  obtain ⟨compiled, hcompiled, hassemble⟩ := bind_eq_ok_iff.mp h
  rw [assemble_eq] at hassemble
  obtain ⟨modules, hmodules, hrest⟩ := bind_eq_ok_iff.mp hassemble
  obtain ⟨tree, htree, hrest⟩ := bind_eq_ok_iff.mp hrest
  obtain ⟨indexes, hindexes, hfiles⟩ := bind_eq_ok_iff.mp hrest
  have hplacements := map_placement_of_compileKept hcompiled
  have hrepresents := represents_of_build_eq_ok (moduleTree_eq_ok_iff.mp htree)
  rw [hplacements] at hrepresents
  have hfree := hrepresents.conflictFree
  obtain ⟨hnodup, hmem⟩ := indexes_path_spec hrepresents.distinct
  have hmodulePath : ∀ module ∈ compiled, ∀ file,
      definitionFile formatter config module = .ok file →
      file.path = writtenPath config.language module.path := by
    intro module hmodule file hfile
    have hplacement : (module.name, module.path) ∈ config.placements definitions := by
      rw [← hplacements]
      exact List.mem_map_of_mem hmodule
    exact path_of_definitionFile (hfree.ne_nil _ hplacement) hfile
  have hindexPath : ∀ index ∈ tree.indexes, ∀ file,
      indexFileOf formatter config (generationComment config commandLine) index = .ok file →
      file.path = writtenPath config.language (index.path ++ [config.language.indexModule]) :=
    fun _ _ _ hfile ↦ path_of_indexFileOf hfile
  refine ⟨tree.indexes.map Index.path, hfree, hnodup,
    fun directory ↦ (hmem directory).trans (hrepresents.isSome_directory?_iff directory), ?_⟩
  calc files.map GeneratedFile.path
    _ = modules.map GeneratedFile.path ++ (indexes.map GeneratedFile.path ++
          (supportModules config.language).map GeneratedFile.path) := by
      rw [← Except.ok.inj hfiles, List.append_assoc, List.map_append, List.map_append]
    _ = compiled.map (fun module ↦ writtenPath config.language module.path) ++
          (tree.indexes.map (fun index ↦
            writtenPath config.language (index.path ++ [config.language.indexModule])) ++
          (supportPaths config.language).map (writtenPath config.language)) := by
      rw [map_path_of_mapM hmodules hmodulePath, map_path_of_mapM hindexes hindexPath,
        map_path_supportModules]
    _ = _ := by
      rw [takenPaths, ← hplacements]
      simp [Function.comp_def]

/-- Files that are those of all modules of an output, in order. -/
structure FilesAt (language : Language) (placements : List (String × List String))
    (directories : List (List String)) (files : List GeneratedFile) : Prop where
  conflictFree : ConflictFree placements
  nodup : directories.Nodup
  mem_iff : ∀ directory, directory ∈ directories ↔ IsDirectoryOf placements directory
  map_path : files.map GeneratedFile.path =
    (takenPaths language placements directories).map (filePath language)

/-- No segment of a module path holds a slash. -/
def SlashFree (placements : List (String × List String)) : Prop :=
  ∀ placement ∈ placements, ∀ segment ∈ placement.2, '/' ∉ segment.toList

instance : DecidablePred SlashFree := fun placements ↦
  inferInstanceAs (Decidable (∀ placement ∈ placements, ∀ segment ∈ placement.2,
    '/' ∉ segment.toList))

theorem isPlain_of_slashFree (h : SlashFree (config.placements definitions)) :
    ∀ placement ∈ config.placements definitions, ∀ segment ∈ placement.2, IsPlain segment := by
  intro placement hplacement segment hsegment
  obtain ⟨definition, -, rfl⟩ := List.mem_map.mp hplacement
  exact ⟨isSegment_of_mem_modulePath hsegment, h _ hplacement segment hsegment⟩

theorem exists_filesAt_of_generate {files : List GeneratedFile}
    (hslash : SlashFree (config.placements definitions))
    (h : (generate formatter config commandLine definitions).outcome.2 = .ok files) :
    ∃ directories,
      FilesAt config.language (config.placements definitions) directories files := by
  obtain ⟨directories, hwritten⟩ := exists_writtenAt_of_generate h
  refine ⟨directories, hwritten.conflictFree, hwritten.nodup, hwritten.mem_iff, ?_⟩
  rw [hwritten.map_path]
  apply List.map_congr_left
  intro path hpath
  apply writtenPath_eq_filePath (ne_nil_of_mem_takenPaths hwritten.conflictFree hpath)
  refine hwritten.forall_mem (isPlain_of_slashFree hslash) ?_ ?_ path hpath <;>
    cases config.language <;> decide

/-! ## Distinct paths -/

/-- No definition takes the path of an index or of a support module. -/
def KeepsClear (language : Language) (placements : List (String × List String)) : Prop :=
  ∀ placement ∈ placements,
    placement.2.getLast? ≠ some language.indexModule ∧ placement.2 ∉ supportPaths language

instance (language : Language) : DecidablePred (KeepsClear language) := fun placements ↦
  inferInstanceAs (Decidable (∀ placement ∈ placements,
    placement.2.getLast? ≠ some language.indexModule ∧ placement.2 ∉ supportPaths language))

theorem nodup_map_snd {placements : List (String × List String)} (hfree : ConflictFree placements)
    (hnames : (placements.map Prod.fst).Nodup) : (placements.map Prod.snd).Nodup := by
  refine List.Nodup.map_on ?_ (List.Nodup.of_map Prod.fst hnames)
  intro first hfirst second hsecond hpath
  exact Prod.ext (hfree.same_name first hfirst second hsecond hpath) hpath

theorem nodup_indexes_append_support {directories : List (List String)}
    (hnodup : directories.Nodup) (language : Language) :
    (directories.map (· ++ [language.indexModule]) ++ supportPaths language).Nodup := by
  have hindexes : (directories.map (· ++ [language.indexModule])).Nodup :=
    hnodup.map fun first second hsame ↦ List.append_cancel_right hsame
  have hsupport : (supportPaths language).Nodup := by cases language <;> decide
  have hlast : ∀ path ∈ supportPaths language, path.getLast? ≠ some language.indexModule := by
    cases language <;> decide
  refine List.nodup_append.mpr ⟨hindexes, hsupport, ?_⟩
  rintro path hindex other hother rfl
  obtain ⟨directory, -, rfl⟩ := List.mem_map.mp hindex
  exact hlast _ hother List.getLast?_concat

theorem nodup_takenPaths_iff {placements : List (String × List String)}
    {directories : List (List String)} (hfree : ConflictFree placements)
    (hnames : (placements.map Prod.fst).Nodup) (hnodup : directories.Nodup)
    (hmem : ∀ directory, directory ∈ directories ↔ IsDirectoryOf placements directory) :
    (takenPaths language placements directories).Nodup ↔ KeepsClear language placements := by
  rw [takenPaths, List.nodup_append]
  constructor
  · rintro ⟨-, -, hdisjoint⟩ placement hplacement
    have hpath : placement.2 ∈ placements.map Prod.snd := List.mem_map_of_mem hplacement
    constructor
    · intro hlast
      obtain ⟨directory, hconcat⟩ := List.getLast?_eq_some_iff.mp hlast
      have hdirectory : directory ∈ directories :=
        (hmem directory).mpr (.inr ⟨placement, hplacement, by simp [hconcat], by simp [hconcat]⟩)
      have hindex : directory ++ [language.indexModule] ∈
          directories.map (· ++ [language.indexModule]) := List.mem_map_of_mem hdirectory
      exact hdisjoint _ hpath _ (List.mem_append_left _ hindex) hconcat
    · intro hsupport
      exact hdisjoint _ hpath _ (List.mem_append_right _ hsupport) rfl
  · intro hclear
    refine ⟨nodup_map_snd hfree hnames, nodup_indexes_append_support hnodup language, ?_⟩
    rintro path hpath other hother rfl
    obtain ⟨placement, hplacement, rfl⟩ := List.mem_map.mp hpath
    obtain ⟨hlast, hsupport⟩ := hclear placement hplacement
    rcases List.mem_append.mp hother with hindex | hmember
    · obtain ⟨directory, -, hconcat⟩ := List.mem_map.mp hindex
      apply hlast
      rw [← hconcat]
      exact List.getLast?_concat
    · exact hsupport hmember

theorem FilesAt.nodup_iff {placements : List (String × List String)}
    {directories : List (List String)} {files : List GeneratedFile}
    (h : FilesAt language placements directories files)
    (hnames : (placements.map Prod.fst).Nodup) :
    (files.map GeneratedFile.path).Nodup ↔ KeepsClear language placements := by
  rw [h.map_path, ← nodup_takenPaths_iff h.conflictFree hnames h.nodup h.mem_iff]
  constructor
  · exact List.Nodup.of_map _
  · apply List.Nodup.map_on
    intro first hfirst second hsecond hsame
    exact eq_of_filePath_eq (ne_nil_of_mem_takenPaths h.conflictFree hfirst)
      (ne_nil_of_mem_takenPaths h.conflictFree hsecond) hsame

/-- The names of compiled definitions are distinct when those of a document are. -/
theorem nodup_placements (h : (definitions.map Prod.fst).Nodup) :
    ((config.placements definitions).map Prod.fst).Nodup := by
  have hkept : ((config.kept definitions).map Prod.fst).Nodup :=
    h.sublist (List.filter_sublist.map Prod.fst)
  simpa [Config.placements, Function.comp_def] using hkept

/-- The files of a run have distinct paths exactly when no definition takes the path of an index or
of a support module. -/
theorem nodup_map_path_iff {files : List GeneratedFile}
    (hnames : (definitions.map Prod.fst).Nodup)
    (hslash : SlashFree (config.placements definitions))
    (h : (generate formatter config commandLine definitions).outcome.2 = .ok files) :
    (files.map GeneratedFile.path).Nodup ↔
      KeepsClear config.language (config.placements definitions) := by
  obtain ⟨directories, hfiles⟩ := exists_filesAt_of_generate hslash h
  exact hfiles.nodup_iff (nodup_placements hnames)

/-- Two definitions in directories of their own. -/
def plainDefinitions : List (String × Json) :=
  [("io.k8s.api.core.v1.Pod", .obj [("type", .str "object")]),
    ("x.A", .obj [("$ref", .str "#/definitions/io.k8s.api.core.v1.Pod")])]

theorem nodup_map_path_plainDefinitions :
    (plainDefinitions.map Prod.fst).Nodup ∧
      SlashFree (Config.placements {} plainDefinitions) ∧
      ∃ files, (generate none {} programName plainDefinitions).outcome.2 = .ok files ∧
        (files.map GeneratedFile.path).Nodup := by
  have hnames : (plainDefinitions.map Prod.fst).Nodup := by decide +kernel
  have hslash : SlashFree (Config.placements {} plainDefinitions) := by decide +kernel
  have hfree : ConflictFree (Config.placements {} plainDefinitions) := by decide +kernel
  obtain ⟨files, hfiles⟩ := exists_generate_of_conflictFree programName hfree
  exact ⟨hnames, hslash, files, hfiles,
    (nodup_map_path_iff hnames hslash hfiles).mpr (by decide +kernel)⟩

/-- The modules of definitions come first among the files of a run. -/
theorem exists_modules_of_generate {files : List GeneratedFile}
    (h : (generate formatter config commandLine definitions).outcome.2 = .ok files) :
    ∃ modules, modules <+: files ∧
      (compileKept config (generationComment config commandLine) definitions >>=
        fun compiled ↦ compiled.mapM (definitionFile formatter config)) = .ok modules := by
  rw [outcome_generate] at h
  obtain ⟨compiled, hcompiled, hassemble⟩ := bind_eq_ok_iff.mp h
  rw [assemble_eq] at hassemble
  obtain ⟨modules, hmodules, hrest⟩ := bind_eq_ok_iff.mp hassemble
  obtain ⟨tree, -, hrest⟩ := bind_eq_ok_iff.mp hrest
  obtain ⟨indexes, -, hfiles⟩ := bind_eq_ok_iff.mp hrest
  refine ⟨modules, ?_, bind_eq_ok_iff.mpr ⟨compiled, hcompiled, hmodules⟩⟩
  rw [← Except.ok.inj hfiles, List.append_assoc]
  exact List.prefix_append _ _

def registryDefinition : List (String × Json) := [("_registry", .obj [("type", .str "object")])]

def slashedDefinitions : List (String × Json) :=
  [("a/b", .obj [("type", .str "object")]), ("a.b", .obj [("type", .str "object")])]

/-- A definition named as a support module loses its file, and so does one of two definitions whose
names differ in a slash and a dot. -/
theorem not_nodup_map_path :
    (∃ files, (generate none {} programName registryDefinition).outcome.2 = .ok files ∧
        ¬(files.map GeneratedFile.path).Nodup) ∧
      ∃ files, (generate none {} programName slashedDefinitions).outcome.2 = .ok files ∧
        ¬(files.map GeneratedFile.path).Nodup := by
  constructor
  · have hfree : ConflictFree (Config.placements {} registryDefinition) := by decide +kernel
    obtain ⟨files, hfiles⟩ := exists_generate_of_conflictFree programName hfree
    obtain ⟨directories, hpaths⟩ := exists_filesAt_of_generate (by decide +kernel) hfiles
    refine ⟨files, hfiles, ?_⟩
    rw [hpaths.nodup_iff (nodup_placements (by decide +kernel))]
    decide +kernel
  · have hfree : ConflictFree (Config.placements {} slashedDefinitions) := by decide +kernel
    obtain ⟨files, hfiles⟩ := exists_generate_of_conflictFree programName hfree
    obtain ⟨modules, hfirst, hmodules⟩ := exists_modules_of_generate hfiles
    have hchecked : (compileKept {} (generationComment {} programName) slashedDefinitions >>=
        fun compiled ↦ compiled.mapM (definitionFile none {})).toOption.any
          (fun modules ↦ decide (¬(modules.map GeneratedFile.path).Nodup)) = true := by
      decide +kernel
    rw [hmodules] at hchecked
    exact ⟨files, hfiles, fun hnodup ↦
      of_decide_eq_true hchecked (hnodup.sublist (hfirst.sublist.map GeneratedFile.path))⟩

end Output

end SchemaModules
