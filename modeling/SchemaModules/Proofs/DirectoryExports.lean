import SchemaModules.Proofs.DirectoryIndexes
import SchemaModules.Proofs.ModuleLines

/-!
# Names exported by a directory

The index of a directory re-exports what its modules export, and its sub-directories under names of
their own. All these names are derived from the names of definitions by rules that forget something,
so two of them may be the same. The main statement says for which definitions no directory exports
one name for two things.
-/

namespace SchemaModules

open Naming

variable {conventions : Conventions} {language : Language} {names : List String}
  {tree : ModuleTree} {index : ModuleTree.Index} {name key first second : String}
  {path : List String} {definition : Definition}

/-! ## Exported names -/

namespace TypeScript

/-- What stands between the word that exports a declaration and the name of it. -/
def declarationKeywords : List String := ["interface ", "type ", "class ", "const ", "function "]

/-- A line that exports a name, as that of a declaration or as another one for it. -/
inductive Line.Exports (line : Line) (name : String) : Prop
  | declaration (comment keyword rest : String) (hkeyword : keyword ∈ declarationKeywords)
    (htext : line.text = comment ++ "export " ++ keyword ++ name ++ rest)
  | alias (long : String)
    (htext : line.text = "export \x7b " ++ long ++ " as " ++ name ++ " \x7d;")

/-- The lines export the names that they are said to. -/
def ExportAsSaid (lines : List Line) : Prop :=
  ∀ line ∈ lines, ∀ name, line.exported? = some name → line.Exports name

@[simp]
theorem exportAsSaid_append {first second : List Line} :
    ExportAsSaid (first ++ second) ↔ ExportAsSaid first ∧ ExportAsSaid second :=
  List.forall_mem_append

@[simp]
theorem exportAsSaid_plainLines (texts : List String) : ExportAsSaid (plainLines texts) := by
  intro line hline name hname
  obtain ⟨text, -, rfl⟩ := List.mem_map.mp hline
  cases hname

theorem exportAsSaid_declare (comment : String) {keyword : String} (name rest : String)
    (hkeyword : keyword ∈ declarationKeywords) :
    ExportAsSaid [.declare comment keyword name rest] := by
  intro line hline exported hexported
  obtain rfl := List.mem_singleton.mp hline
  obtain rfl := Option.some.inj hexported
  exact .declaration comment keyword rest hkeyword rfl

theorem exportAsSaid_aliasExports (names : Names) : ExportAsSaid (aliasExports names) := by
  have hnames : ExportAsSaid ((aliases names).map fun pair ↦ .rename pair.2 pair.1) := by
    intro line hline exported hexported
    obtain ⟨pair, -, rfl⟩ := List.mem_map.mp hline
    obtain rfl := Option.some.inj hexported
    exact .alias pair.2 rfl
  rw [aliasExports]
  split
  · exact exportAsSaid_append.mpr ⟨nofun, hnames⟩
  · exact exportAsSaid_append.mpr ⟨exportAsSaid_plainLines _, hnames⟩

theorem exportAsSaid_declarations (definition : Definition) (basePath : String) :
    ExportAsSaid (declarations definition basePath) := by
  rw [declarations]
  split <;>
  · simp only [exportAsSaid_append, exportAsSaid_plainLines, true_and, and_true]
    exact ⟨exportAsSaid_declare _ _ _ (by decide), exportAsSaid_declare _ _ _ (by decide)⟩

theorem exportAsSaid_moduleLines (definition : Definition) (comment registryPath basePath : String)
    (imports : List (List String)) :
    ExportAsSaid (moduleLines definition comment registryPath basePath imports) := by
  simp only [moduleLines, addSchemaFunction, exportAsSaid_append, exportAsSaid_plainLines, true_and,
    and_true]
  exact ⟨⟨⟨exportAsSaid_declarations _ _, exportAsSaid_declare _ _ _ (by decide)⟩,
    exportAsSaid_declare _ _ _ (by decide)⟩, exportAsSaid_aliasExports _⟩

@[simp]
theorem exported_plainLines (texts : List String) :
    (plainLines texts).filterMap Line.exported? = [] := by
  simp [plainLines]

theorem exported_declarations (definition : Definition) (basePath : String) :
    (declarations definition basePath).filterMap Line.exported? =
      [definition.names.interfaceName, definition.names.className] := by
  rw [declarations]
  split <;> simp [Line.declare]

theorem exported_aliasExports (names : Names) :
    (aliasExports names).filterMap Line.exported? = (aliases names).map Prod.fst := by
  rw [aliasExports, List.filterMap_append, List.filterMap_map]
  split <;> simp [Function.comp_def, Line.rename]

/-- A module exports just the names that are listed, each by a line of its own. -/
theorem exports_of_render {comment text : String} (htext : render definition comment = .ok text) :
    ∃ lines : List Line, text = Text.unlines (lines.map Line.text) ∧
      lines.filterMap Line.exported? = exports definition.names ∧ ExportAsSaid lines := by
  obtain ⟨imports, -, registryPath, -, basePath, -, hlines⟩ := render_eq_ok_iff.mp htext
  refine ⟨_, hlines, ?_, exportAsSaid_moduleLines definition comment registryPath basePath imports⟩
  simp [moduleLines, addSchemaFunction, exported_declarations, exported_aliasExports, Line.declare,
    exports]

end TypeScript

def shortNames : Language → Names → List String
  | .python, names => (Python.aliases names).map Prod.fst
  | .typescript, names => (TypeScript.aliases names).map Prod.fst

def exportedNames : Language → Names → List String
  | .python, names => Python.exports names
  | .typescript, names => TypeScript.exports names

/-- The name under which an index exports a sub-directory. -/
def packageName : Language → String → String
  | .python, package => package
  | .typescript, package => TypeScript.packageAlias package

/-- The names of a module that do not depend on the last part of the name of its definition. -/
def longNames (className : String) : List String :=
  ["I" ++ className, className, className ++ "Schema", className ++ "AddSchema"]

theorem mem_exportedNames_iff (conventions : Conventions) (definition : String) :
    name ∈ exportedNames language (conventions.names definition) ↔
      name ∈ longNames (className definition) ∨
        name ∈ shortNames language (conventions.names definition) := by
  cases language with
  | python => rw [exportedNames, Python.exports, List.mem_eraseDups, List.mem_append]; rfl
  | typescript => rw [exportedNames, TypeScript.exports, List.mem_append]; rfl

/-- A class name that makes a long name of its own definition one of the other definition's. -/
def Repeats (first second : String) : Prop :=
  first ∈ [second, "I" ++ second, second ++ "Add", second ++ "Schema", second ++ "AddSchema"] ∨
    "I" ++ first ∈ [second ++ "Schema", second ++ "AddSchema"]

instance (first second : String) : Decidable (Repeats first second) :=
  inferInstanceAs (Decidable (_ ∨ _))

theorem disjoint_longNames_iff :
    (longNames first).Disjoint (longNames second) ↔
      ¬Repeats first second ∧ ¬Repeats second first := by
  -- One suffix ends in the other, so that two names with different suffixes may be the same.
  have hadd (text : String) : text ++ "AddSchema" = text ++ "Add" ++ "Schema" := by
    rw [String.append_assoc]
    rfl
  simp only [List.disjoint_left, longNames, Repeats, List.mem_cons, List.not_mem_nil, or_false,
    forall_eq_or_imp, forall_eq, hadd, String.append_left_inj, String.append_right_inj]
  grind

namespace ModuleTree

variable {placements : List (String × List String)}

theorem Represents.mem_modules_iff (h : Represents tree placements)
    (hindex : index ∈ tree.indexes) :
    key ∈ index.modules ↔ ∃ name, tree.find? (index.path ++ [key]) = some name := by
  obtain ⟨path, inner, hinner, rfl⟩ := (mem_indexes_iff h.distinct index).mp hindex
  rw [indexOf, (distinct_of_directory? h.distinct hinner).mem_moduleNames_iff]
  simp only [find?_append hinner (List.cons_ne_nil _ _)]

theorem Represents.mem_packages_iff (h : Represents tree placements)
    (hindex : index ∈ tree.indexes) :
    key ∈ index.packages ↔ ∃ placement ∈ placements,
      index.path ++ [key] <+: placement.2 ∧ index.path ++ [key] ≠ placement.2 := by
  obtain ⟨path, inner, hinner, rfl⟩ := (mem_indexes_iff h.distinct index).mp hindex
  rw [indexOf, (distinct_of_directory? h.distinct hinner).mem_directoryNames_iff,
    ← directory?_append hinner, h.isSome_directory?_iff]
  simp

end ModuleTree

/-! ## Unambiguous directories -/

open ModuleTree

/-- The names that the module at a path exports. -/
def exportsAt (conventions : Conventions) (tree : ModuleTree) (path : List String) : List String :=
  match tree.find? path with
  | some name => exportedNames conventions.language (conventions.names name)
  | none => []

/-- No name is exported by two modules of a directory, none by two of its sub-directories, and none
by a module and a sub-directory. -/
@[mk_iff]
structure Unambiguous (conventions : Conventions) (tree : ModuleTree) (index : Index) : Prop where
  modules : ∀ first ∈ index.modules, ∀ second ∈ index.modules, first ≠ second →
    ∀ name ∈ exportsAt conventions tree (index.path ++ [first]),
      name ∉ exportsAt conventions tree (index.path ++ [second])
  packages : ∀ first ∈ index.packages, ∀ second ∈ index.packages, first ≠ second →
    packageName conventions.language first ≠ packageName conventions.language second
  apart : ∀ package ∈ index.packages, ∀ module ∈ index.modules,
    packageName conventions.language package ∉
      exportsAt conventions tree (index.path ++ [module])

instance (conventions : Conventions) (tree : ModuleTree) (index : Index) :
    Decidable (Unambiguous conventions tree index) :=
  decidable_of_iff' _ (unambiguous_iff _ _ _)

def placementsOf (conventions : Conventions) (names : List String) : List (String × List String) :=
  names.map fun name ↦ (name, (conventions.names name).path)

/-- Some definition lies below the sub-directory `key` of a directory. -/
def HasPackage (conventions : Conventions) (names path : List String) (key : String) : Prop :=
  ∃ name ∈ names, path ++ [key] <+: (conventions.names name).path ∧
    path ++ [key] ≠ (conventions.names name).path

/-- The names of definitions and the directories they lie in keep all exported names of a directory
apart. -/
structure KeepsApart (conventions : Conventions) (names : List String) : Prop where
  classes : ∀ first ∈ names, ∀ second ∈ names, first ≠ second →
    Python.packageOf (conventions.names first) = Python.packageOf (conventions.names second) →
      ¬Repeats (className first) (className second)
  shorts : ∀ first ∈ names, ∀ second ∈ names, first ≠ second →
    Python.packageOf (conventions.names first) = Python.packageOf (conventions.names second) →
      ∀ short ∈ shortNames conventions.language (conventions.names first),
        short ∉ exportedNames conventions.language (conventions.names second)
  packages : ∀ path first second, HasPackage conventions names path first →
    HasPackage conventions names path second → first ≠ second →
      packageName conventions.language first ≠ packageName conventions.language second
  apart : ∀ name ∈ names, ∀ key,
    HasPackage conventions names (Python.packageOf (conventions.names name)) key →
      packageName conventions.language key ∉
        exportedNames conventions.language (conventions.names name)

theorem mem_placementsOf_iff : (name, path) ∈ placementsOf conventions names ↔
    name ∈ names ∧ (conventions.names name).path = path := by
  simp only [placementsOf, List.mem_map, Prod.mk.injEq]
  constructor
  · rintro ⟨_, hname, rfl, hpath⟩
    exact ⟨hname, hpath⟩
  · rintro ⟨hname, hpath⟩
    exact ⟨name, hname, rfl, hpath⟩

theorem exportsAt_of_find? (h : tree.find? path = some name) :
    exportsAt conventions tree path =
      exportedNames conventions.language (conventions.names name) := by
  rw [exportsAt, h]

theorem hasPackage_iff (h : Represents tree (placementsOf conventions names))
    (hindex : index ∈ tree.indexes) :
    key ∈ index.packages ↔ HasPackage conventions names index.path key := by
  rw [h.mem_packages_iff hindex, HasPackage, placementsOf]
  simp only [List.mem_map, exists_exists_and_eq_and]

theorem exists_index_of_hasPackage (h : Represents tree (placementsOf conventions names))
    (hpackage : HasPackage conventions names path key) :
    ∃ index ∈ tree.indexes, index.path = path := by
  obtain ⟨name, hname, hlead, -⟩ := hpackage
  have hdirectory := (h.isSome_directory?_iff path).mpr
    (.inr ⟨_, mem_placementsOf_iff.mpr ⟨hname, rfl⟩, above_isStrictPrefix hlead⟩)
  exact List.mem_map.mp (((indexes_path_spec h.distinct).2 path).mpr hdirectory)

/-- The module of a definition is listed by the index of its directory. -/
theorem exists_index_of_mem (h : Represents tree (placementsOf conventions names))
    (hname : name ∈ names) : ∃ index ∈ tree.indexes, ∃ leaf ∈ index.modules,
      index.path = Python.packageOf (conventions.names name) ∧
        (conventions.names name).path = index.path ++ [leaf] := by
  have hplaced : (name, (conventions.names name).path) ∈ placementsOf conventions names :=
    mem_placementsOf_iff.mpr ⟨hname, rfl⟩
  have hmodule := h.mem_exports_modules_iff.mpr (List.mem_map_of_mem hplaced)
  obtain ⟨above, leaf, hpath⟩ :=
    (List.eq_nil_or_concat' (conventions.names name).path).resolve_left
      (h.conflictFree.ne_nil _ hplaced)
  rw [hpath] at hmodule
  obtain ⟨index, hindex, rfl, hleaf⟩ := append_mem_exports_iff.mp hmodule
  exact ⟨index, hindex, leaf, hleaf, by rw [Python.packageOf, hpath, List.dropLast_concat], hpath⟩

/-- Two definitions of one directory have no exported name in common. -/
def ExportsDisjoint (conventions : Conventions) (names : List String) : Prop :=
  ∀ first ∈ names, ∀ second ∈ names, first ≠ second →
    Python.packageOf (conventions.names first) = Python.packageOf (conventions.names second) →
      ∀ name ∈ exportedNames conventions.language (conventions.names first),
        name ∉ exportedNames conventions.language (conventions.names second)

theorem exportsDisjoint_iff : ExportsDisjoint conventions names ↔
    (∀ first ∈ names, ∀ second ∈ names, first ≠ second →
      Python.packageOf (conventions.names first) = Python.packageOf (conventions.names second) →
        ¬Repeats (className first) (className second)) ∧
    ∀ first ∈ names, ∀ second ∈ names, first ≠ second →
      Python.packageOf (conventions.names first) = Python.packageOf (conventions.names second) →
        ∀ short ∈ shortNames conventions.language (conventions.names first),
          short ∉ exportedNames conventions.language (conventions.names second) := by
  constructor
  · intro h
    refine ⟨fun first hfirst second hsecond hne hsame ↦ ?_,
      fun first hfirst second hsecond hne hsame short hshort ↦ ?_⟩
    · have hlong : (longNames (className first)).Disjoint (longNames (className second)) := by
        intro name hname hother
        exact h first hfirst second hsecond hne hsame name
          ((mem_exportedNames_iff conventions first).mpr (.inl hname))
          ((mem_exportedNames_iff conventions second).mpr (.inl hother))
      exact (disjoint_longNames_iff.mp hlong).1
    · exact h first hfirst second hsecond hne hsame short
        ((mem_exportedNames_iff conventions first).mpr (.inr hshort))
  · rintro ⟨hclasses, hshorts⟩ first hfirst second hsecond hne hsame name hname hother
    -- The conditions on classes and on short names are each used in both orders.
    have hlong := disjoint_longNames_iff.mpr ⟨hclasses first hfirst second hsecond hne hsame,
      hclasses second hsecond first hfirst hne.symm hsame.symm⟩
    rcases (mem_exportedNames_iff conventions first).mp hname with hname | hname
    · rcases (mem_exportedNames_iff conventions second).mp hother with hother | hother
      · exact hlong hname hother
      · exact hshorts second hsecond first hfirst hne.symm hsame.symm name hother
          ((mem_exportedNames_iff conventions first).mpr (.inl hname))
    · exact hshorts first hfirst second hsecond hne hsame name hname hother

theorem exportsDisjoint_of_unambiguous (h : Represents tree (placementsOf conventions names))
    (hall : ∀ index ∈ tree.indexes, Unambiguous conventions tree index) :
    ExportsDisjoint conventions names := by
  intro first hfirst second hsecond hne hsame
  obtain ⟨index, hindex, leaf, hleaf, hpackage, hpath⟩ := exists_index_of_mem h hfirst
  obtain ⟨other, hother, leaf', hleaf', hpackage', hpath'⟩ := exists_index_of_mem h hsecond
  obtain rfl : index = other := List.inj_on_of_nodup_map (indexes_path_spec h.distinct).1 hindex
    hother (hpackage.trans (hsame.trans hpackage'.symm))
  have hdiffer : leaf ≠ leaf' := by
    rintro rfl
    have hplaced := mem_placementsOf_iff.mpr ⟨hfirst, hpath⟩
    have hplaced' := mem_placementsOf_iff.mpr ⟨hsecond, hpath'⟩
    exact hne (h.conflictFree.same_name _ hplaced _ hplaced' rfl)
  have hfind := (h.find?_eq_some_iff _ first).mpr (mem_placementsOf_iff.mpr ⟨hfirst, hpath⟩)
  have hfind' := (h.find?_eq_some_iff _ second).mpr (mem_placementsOf_iff.mpr ⟨hsecond, hpath'⟩)
  have hmodules := (hall index hindex).modules leaf hleaf leaf' hleaf' hdiffer
  rwa [exportsAt_of_find? hfind, exportsAt_of_find? hfind'] at hmodules

/-- Where a definition is found, it is one of the placed ones and lies in that directory. -/
theorem of_find?_eq_some (h : Represents tree (placementsOf conventions names))
    (hfind : tree.find? (path ++ [key]) = some name) :
    name ∈ names ∧ Python.packageOf (conventions.names name) = path := by
  obtain ⟨hname, hpath⟩ := mem_placementsOf_iff.mp ((h.find?_eq_some_iff _ name).mp hfind)
  exact ⟨hname, by rw [Python.packageOf, hpath, List.dropLast_concat]⟩

theorem modules_of_exportsDisjoint (h : Represents tree (placementsOf conventions names))
    (hdisjoint : ExportsDisjoint conventions names) (hindex : index ∈ tree.indexes)
    (hfirst : first ∈ index.modules) (hsecond : second ∈ index.modules) (hne : first ≠ second) :
    ∀ name ∈ exportsAt conventions tree (index.path ++ [first]),
      name ∉ exportsAt conventions tree (index.path ++ [second]) := by
  obtain ⟨name, hfind⟩ := (h.mem_modules_iff hindex).mp hfirst
  obtain ⟨other, hfind'⟩ := (h.mem_modules_iff hindex).mp hsecond
  obtain ⟨hname, hpackage⟩ := of_find?_eq_some h hfind
  obtain ⟨hother, hpackage'⟩ := of_find?_eq_some h hfind'
  have hdiffer : name ≠ other := by
    rintro rfl
    have hpath := (mem_placementsOf_iff.mp ((h.find?_eq_some_iff _ _).mp hfind)).2
    have hpath' := (mem_placementsOf_iff.mp ((h.find?_eq_some_iff _ _).mp hfind')).2
    exact hne (by simpa using hpath.symm.trans hpath')
  rw [exportsAt_of_find? hfind, exportsAt_of_find? hfind']
  exact hdisjoint name hname other hother hdiffer (hpackage.trans hpackage'.symm)

/-- The indexes of a tree that was built are unambiguous exactly when the names of its definitions
keep all exported names apart. -/
theorem forall_unambiguous_iff (hbuild : build (placementsOf conventions names) = .ok tree) :
    (∀ index ∈ tree.indexes, Unambiguous conventions tree index) ↔
      KeepsApart conventions names := by
  have h := represents_of_build_eq_ok hbuild
  constructor
  · intro hall
    obtain ⟨hclasses, hshorts⟩ := exportsDisjoint_iff.mp (exportsDisjoint_of_unambiguous h hall)
    refine ⟨hclasses, hshorts, ?_, ?_⟩
    · intro path first second hfirst hsecond hne
      obtain ⟨index, hindex, rfl⟩ := exists_index_of_hasPackage h hfirst
      exact (hall index hindex).packages first ((hasPackage_iff h hindex).mpr hfirst) second
        ((hasPackage_iff h hindex).mpr hsecond) hne
    · intro name hname key hkey
      obtain ⟨index, hindex, leaf, hleaf, hpackage, hpath⟩ := exists_index_of_mem h hname
      have hfind := (h.find?_eq_some_iff _ name).mpr (mem_placementsOf_iff.mpr ⟨hname, hpath⟩)
      have hapart := (hall index hindex).apart key
        ((hasPackage_iff h hindex).mpr (hpackage ▸ hkey)) leaf hleaf
      rwa [exportsAt_of_find? hfind] at hapart
  · intro hkeeps index hindex
    have hdisjoint := exportsDisjoint_iff.mpr ⟨hkeeps.classes, hkeeps.shorts⟩
    refine ⟨fun first hfirst second hsecond hne ↦
      modules_of_exportsDisjoint h hdisjoint hindex hfirst hsecond hne, ?_, ?_⟩
    · intro first hfirst second hsecond hne
      exact hkeeps.packages index.path first second ((hasPackage_iff h hindex).mp hfirst)
        ((hasPackage_iff h hindex).mp hsecond) hne
    · intro package hpackage module hmodule
      obtain ⟨name, hfind⟩ := (h.mem_modules_iff hindex).mp hmodule
      obtain ⟨hname, hdirectory⟩ := of_find?_eq_some h hfind
      rw [exportsAt_of_find? hfind]
      exact hkeeps.apart name hname package
        (hdirectory.symm ▸ (hasPackage_iff h hindex).mp hpackage)

def plainConventions : Conventions := ⟨.typescript, "x.", "#/definitions/"⟩

def plainNames : List String := ["x.v1.Foo", "x.v1.Bar", "x.Baz"]

theorem forall_unambiguous_plainNames : ∃ tree,
    build (placementsOf plainConventions plainNames) = .ok tree ∧
      ∀ index ∈ tree.indexes, Unambiguous plainConventions tree index := by
  have hchecked : ∀ name ∈ plainNames, ∀ other ∈ plainNames,
      (name ≠ other → Python.packageOf (plainConventions.names name) =
        Python.packageOf (plainConventions.names other) →
          ¬Repeats (className name) (className other) ∧
            ∀ short ∈ shortNames .typescript (plainConventions.names name),
              short ∉ exportedNames .typescript (plainConventions.names other)) ∧
      ∀ key ∈ (plainConventions.names other).path,
        packageName .typescript key ∉
          exportedNames .typescript (plainConventions.names name) := by
    decide +kernel
  have hpackages : ∀ name ∈ plainNames, ∀ first ∈ (plainConventions.names name).path,
      ∀ other ∈ plainNames, ∀ second ∈ (plainConventions.names other).path, first ≠ second →
        packageName .typescript first ≠ packageName .typescript second := by
    decide +kernel
  have hfree : ConflictFree (placementsOf plainConventions plainNames) := by decide +kernel
  obtain ⟨tree, hbuild⟩ := exists_build_eq_ok_iff.mpr hfree
  refine ⟨tree, hbuild, (forall_unambiguous_iff hbuild).mpr ⟨?_, ?_, ?_, ?_⟩⟩
  · exact fun first hfirst second hsecond hne hsame ↦
      ((hchecked first hfirst second hsecond).1 hne hsame).1
  · exact fun first hfirst second hsecond hne hsame ↦
      ((hchecked first hfirst second hsecond).1 hne hsame).2
  · rintro path first second ⟨name, hname, hfirst, -⟩ ⟨other, hother, hsecond, -⟩ hne
    exact hpackages name hname first (hfirst.subset (by simp)) other hother second
      (hsecond.subset (by simp)) hne
  · rintro name hname key ⟨other, hother, hlead, -⟩
    exact (hchecked name hname other hother).2 key (hlead.subset (by simp))

/-- Two definitions of one directory, the second named after the document of the first. -/
def namesWithSchema : List String := ["x.Foo", "x.FooSchema"]

/-- In both languages the name of the document is that of the other class. -/
theorem not_forall_unambiguous_namesWithSchema :
    (∃ tree, build (placementsOf ⟨.python, "", "#/definitions/"⟩ namesWithSchema) = .ok tree ∧
      ¬∀ index ∈ tree.indexes, Unambiguous ⟨.python, "", "#/definitions/"⟩ tree index) ∧
    ∃ tree, build (placementsOf ⟨.typescript, "", "#/definitions/"⟩ namesWithSchema) = .ok tree ∧
      ¬∀ index ∈ tree.indexes, Unambiguous ⟨.typescript, "", "#/definitions/"⟩ tree index := by
  have hfails (language : Language)
      (hfree : ConflictFree (placementsOf ⟨language, "", "#/definitions/"⟩ namesWithSchema))
      (hshared : ∀ name ∈ namesWithSchema,
        Python.packageOf (Conventions.names ⟨language, "", "#/definitions/"⟩ name) = ["x"] ∧
          "XFooSchema" ∈ exportedNames language
            (Conventions.names ⟨language, "", "#/definitions/"⟩ name)) :
      ∃ tree, build (placementsOf ⟨language, "", "#/definitions/"⟩ namesWithSchema) = .ok tree ∧
        ¬∀ index ∈ tree.indexes, Unambiguous ⟨language, "", "#/definitions/"⟩ tree index := by
    obtain ⟨tree, hbuild⟩ := exists_build_eq_ok_iff.mpr hfree
    refine ⟨tree, hbuild, fun hall ↦ ?_⟩
    obtain ⟨hfirst, hexports⟩ := hshared "x.Foo" (by decide)
    obtain ⟨hsecond, hrepeats⟩ := hshared "x.FooSchema" (by decide)
    exact exportsDisjoint_of_unambiguous (represents_of_build_eq_ok hbuild) hall "x.Foo"
      (by decide) "x.FooSchema" (by decide) (by decide) (hfirst.trans hsecond.symm) "XFooSchema"
      hexports hrepeats
  exact ⟨hfails .python (by decide +kernel) (by decide +kernel),
    hfails .typescript (by decide +kernel) (by decide +kernel)⟩

end SchemaModules
