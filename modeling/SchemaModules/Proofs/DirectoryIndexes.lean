import Mathlib.Data.List.Induction
import SchemaModules.Proofs.PlacedModules

/-!
# Indexes of directories

The indexes of a module tree re-export all of its modules. Each module is listed by the index of
its directory, and each directory but the root by the index of the directory it is in, which stands
behind its own. From the root, exports therefore lead to every module, and in one way only.
-/

namespace SchemaModules.ModuleTree

variable {tree inner : ModuleTree} {index inside : Index} {name key leaf : String}
  {path above rest : List String} {placements : List (String × List String)}
  {indexes chain : List Index}

/-! ## What an index lists -/

theorem Distinct.nodup_keys (h : Distinct tree) : (keys tree).Nodup := by
  induction h with
  | nil => exact List.nodup_nil
  | module hkey hrest ih => exact List.nodup_cons.mpr ⟨hkey, ih⟩
  | directory hkey hinner hrest ihinner ihrest => exact List.nodup_cons.mpr ⟨hkey, ihrest⟩

theorem Distinct.lookup_eq_some_iff (h : Distinct tree) {entry : TreeEntry} :
    tree.lookup key = some entry ↔ (key, entry) ∈ tree :=
  ⟨mem_of_lookup, lookup_eq_some_of_mem h.nodup_keys⟩

theorem moduleNames_sublist_keys (tree : ModuleTree) : (moduleNames tree).Sublist (keys tree) := by
  induction tree with
  | nil => exact .slnil
  | cons first rest ih =>
    obtain ⟨key, entry⟩ := first
    cases entry with
    | module name => exact ih.cons_cons key
    | directory inner => exact ih.cons key

theorem directoryNames_sublist_keys (tree : ModuleTree) :
    (directoryNames tree).Sublist (keys tree) := by
  induction tree with
  | nil => exact .slnil
  | cons first rest ih =>
    obtain ⟨key, entry⟩ := first
    cases entry with
    | module name => exact ih.cons key
    | directory inner => exact ih.cons_cons key

theorem Distinct.mem_moduleNames_iff (h : Distinct tree) :
    key ∈ moduleNames tree ↔ ∃ name, tree.find? [key] = some name := by
  simp only [find?_singleton, h.lookup_eq_some_iff, moduleNames, List.mem_filterMap]
  constructor
  · rintro ⟨⟨segment, entry⟩, hentry, hkey⟩
    cases entry with
    | module name =>
      obtain rfl := Option.some.inj hkey
      exact ⟨name, hentry⟩
    | directory inner => cases hkey
  · rintro ⟨name, hentry⟩
    exact ⟨(key, .module name), hentry, rfl⟩

theorem directory?_singleton :
    tree.directory? [key] = some inner ↔ tree.lookup key = some (.directory inner) := by
  rw [directory?]
  cases tree.lookup key with
  | none => simp
  | some entry => cases entry <;> simp [directory?]

theorem Distinct.mem_directoryNames_iff (h : Distinct tree) :
    key ∈ directoryNames tree ↔ (tree.directory? [key]).isSome := by
  simp only [Option.isSome_iff_exists, directory?_singleton, h.lookup_eq_some_iff, directoryNames,
    List.mem_filterMap]
  constructor
  · rintro ⟨⟨segment, entry⟩, hentry, hkey⟩
    cases entry with
    | module name => cases hkey
    | directory inner =>
      obtain rfl := Option.some.inj hkey
      exact ⟨inner, hentry⟩
  · rintro ⟨inner, hentry⟩
    exact ⟨(key, .directory inner), hentry, rfl⟩

theorem directory?_append (h : tree.directory? path = some inner) (rest : List String) :
    tree.directory? (path ++ rest) = inner.directory? rest := by
  induction path generalizing tree with
  | nil =>
    obtain rfl := Option.some.inj h
    rfl
  | cons segment path ih =>
    rw [directory?] at h
    rw [List.cons_append, directory?]
    cases hlookup : tree.lookup segment with
    | none => simp [hlookup] at h
    | some entry => cases entry with
      | module name => simp [hlookup] at h
      | directory below =>
        simp only [hlookup] at h ⊢
        exact ih h

theorem find?_append (h : tree.directory? path = some inner) (hrest : rest ≠ []) :
    tree.find? (path ++ rest) = inner.find? rest := by
  induction path generalizing tree with
  | nil =>
    obtain rfl := Option.some.inj h
    rfl
  | cons segment path ih =>
    rw [directory?] at h
    rw [List.cons_append, find?_cons (by simp [hrest]), child, directory?]
    cases hlookup : tree.lookup segment with
    | none => simp [hlookup] at h
    | some entry => cases entry with
      | module name => simp [hlookup] at h
      | directory below =>
        simp only [hlookup] at h
        exact ih h

theorem distinct_of_directory? (h : Distinct tree) (hinner : tree.directory? path = some inner) :
    Distinct inner := by
  induction path generalizing tree with
  | nil =>
    obtain rfl := Option.some.inj hinner
    exact h
  | cons segment path ih =>
    by_cases hpath : path = []
    · have hchild := h.child segment
      rw [hpath] at hinner
      rwa [ModuleTree.child, hinner] at hchild
    · rw [directory?_cons hpath] at hinner
      exact ih (h.child segment) hinner

/-- The paths of what indexes list, each index its own names. -/
def exports (names : Index → List String) (indexes : List Index) : List (List String) :=
  indexes.flatMap fun index ↦ (names index).map fun name ↦ index.path ++ [name]

theorem append_mem_exports_iff {names : Index → List String} :
    path ++ [key] ∈ exports names indexes ↔
      ∃ index ∈ indexes, index.path = path ∧ key ∈ names index := by
  simp only [exports, List.mem_flatMap, List.mem_map]
  constructor
  · rintro ⟨index, hindex, name, hname, hpath⟩
    obtain ⟨rfl, hkey⟩ := List.append_inj' hpath rfl
    obtain rfl := List.singleton_inj.mp hkey
    exact ⟨index, hindex, rfl, hname⟩
  · rintro ⟨index, hindex, rfl, hkey⟩
    exact ⟨index, hindex, key, hkey, rfl⟩

theorem nil_notMem_exports (names : Index → List String) (indexes : List Index) :
    [] ∉ exports names indexes := by
  simp [exports]

theorem nodup_exports {names : Index → List String} (hpaths : (indexes.map Index.path).Nodup)
    (hnames : ∀ index ∈ indexes, (names index).Nodup) : (exports names indexes).Nodup := by
  refine List.nodup_flatMap.mpr ⟨?_, ?_⟩
  · intro index hindex
    exact (hnames index hindex).map fun first second h ↦ by simpa using h
  · refine (List.pairwise_map.mp hpaths).imp fun {first second} hdiffer path hfirst hsecond ↦ ?_
    obtain ⟨name, -, rfl⟩ := List.mem_map.mp hfirst
    obtain ⟨other, -, hsame⟩ := List.mem_map.mp hsecond
    exact hdiffer (List.append_inj' hsame rfl).1.symm

theorem above_isStrictPrefix (h : above ++ [key] <+: path) : above <+: path ∧ above ≠ path := by
  refine ⟨(List.prefix_append _ _).trans h, ?_⟩
  rintro rfl
  have hlength := h.length_le
  rw [List.length_append, List.length_singleton] at hlength
  omega

/-- The modules of the indexes are those of the tree. -/
theorem Represents.mem_exports_modules_iff (h : Represents tree placements) :
    path ∈ exports Index.modules tree.indexes ↔ path ∈ placements.map Prod.snd := by
  rcases List.eq_nil_or_concat' path with rfl | ⟨above, key, rfl⟩
  · refine iff_of_false (nil_notMem_exports _ _) fun hmem ↦ ?_
    obtain ⟨placement, hplacement, hnil⟩ := List.mem_map.mp hmem
    exact h.conflictFree.ne_nil placement hplacement hnil
  rw [append_mem_exports_iff, List.mem_map]
  constructor
  · rintro ⟨index, hindex, rfl, hkey⟩
    obtain ⟨path, inner, hinner, rfl⟩ := (mem_indexes_iff h.distinct index).mp hindex
    obtain ⟨name, hname⟩ :=
      (distinct_of_directory? h.distinct hinner).mem_moduleNames_iff.mp hkey
    refine ⟨(name, path ++ [key]), (h.find?_eq_some_iff _ name).mp ?_, rfl⟩
    rw [find?_append hinner (List.cons_ne_nil _ _), hname]
  · rintro ⟨⟨name, path⟩, hmem, rfl⟩
    have hdirectory := (h.isSome_directory?_iff above).mpr
      (.inr ⟨_, hmem, above_isStrictPrefix (List.prefix_refl _)⟩)
    obtain ⟨inner, hinner⟩ := Option.isSome_iff_exists.mp hdirectory
    have hfind := (h.find?_eq_some_iff _ name).mpr hmem
    rw [find?_append hinner (List.cons_ne_nil _ _)] at hfind
    exact ⟨indexOf above inner, (mem_indexes_iff h.distinct _).mpr ⟨above, inner, hinner, rfl⟩, rfl,
      (distinct_of_directory? h.distinct hinner).mem_moduleNames_iff.mpr ⟨name, hfind⟩⟩

/-- The packages of the indexes are the directories below the root. -/
theorem Represents.mem_exports_packages_iff (h : Represents tree placements) :
    path ∈ exports Index.packages tree.indexes ↔ path ≠ [] ∧ (tree.directory? path).isSome := by
  rcases List.eq_nil_or_concat' path with rfl | ⟨above, key, rfl⟩
  · exact iff_of_false (nil_notMem_exports _ _) fun hnil ↦ hnil.1 rfl
  rw [append_mem_exports_iff, and_iff_right (by simp)]
  constructor
  · rintro ⟨index, hindex, rfl, hkey⟩
    obtain ⟨path, inner, hinner, rfl⟩ := (mem_indexes_iff h.distinct index).mp hindex
    rw [indexOf, directory?_append hinner]
    exact (distinct_of_directory? h.distinct hinner).mem_directoryNames_iff.mp hkey
  · intro hdirectory
    have habove : (tree.directory? above).isSome := by
      rw [h.isSome_directory?_iff] at hdirectory ⊢
      rcases hdirectory with hnil | ⟨placement, hmem, hlead, -⟩
      · simp at hnil
      · exact .inr ⟨placement, hmem, above_isStrictPrefix hlead⟩
    obtain ⟨inner, hinner⟩ := Option.isSome_iff_exists.mp habove
    rw [directory?_append hinner] at hdirectory
    exact ⟨indexOf above inner, (mem_indexes_iff h.distinct _).mpr ⟨above, inner, hinner, rfl⟩, rfl,
      (distinct_of_directory? h.distinct hinner).mem_directoryNames_iff.mpr hdirectory⟩

/-- The parent of a directory is a directory, and its index comes later. -/
theorem Represents.exists_parent_behind (h : Represents tree placements)
    {before after : List Index} (hsplit : tree.indexes = before ++ index :: after)
    (hpath : index.path ≠ []) : ∃ parent ∈ after, parent.path = index.path.dropLast := by
  have hindex : index ∈ tree.indexes := by simp [hsplit]
  obtain ⟨path, inner, hinner, rfl⟩ := (mem_indexes_iff h.distinct index).mp hindex
  obtain ⟨above, key, rfl⟩ := (List.eq_nil_or_concat' path).resolve_left hpath
  have hpackage := h.mem_exports_packages_iff.mpr
    ⟨hpath, Option.isSome_iff_exists.mpr ⟨inner, hinner⟩⟩
  obtain ⟨parent, hparent, rfl, -⟩ := append_mem_exports_iff.mp hpackage
  refine ⟨parent, ?_, by simp [indexOf]⟩
  have hpairwise := pairwise_indexes h.distinct
  rw [hsplit] at hparent hpairwise
  rcases List.mem_append.mp hparent with hbefore | hrest
  · have hlead := (List.pairwise_append.mp hpairwise).2.2 parent hbefore _ List.mem_cons_self
    exact absurd (List.prefix_append _ _) hlead
  · refine (List.mem_cons.mp hrest).resolve_left fun hself ↦ ?_
    have hlength := congrArg (fun index ↦ index.path.length) hself
    simp [indexOf] at hlength

/-- Every directory on the way to a module lists something. -/
theorem Represents.exists_listed (h : Represents tree placements)
    (hindex : index ∈ tree.indexes) {placement : String × List String}
    (hmem : placement ∈ placements) (hlead : index.path <+: placement.2)
    (hproper : index.path ≠ placement.2) : ∃ key, key ∈ index.modules ∨ key ∈ index.packages := by
  have hnodup := (indexes_path_spec h.distinct).1
  obtain ⟨rest, hrest⟩ := hlead
  obtain ⟨key, rest, rfl⟩ := List.exists_cons_of_ne_nil fun hnil : rest = [] ↦
    hproper (by rw [← hrest, hnil, List.append_nil])
  rw [List.append_cons] at hrest
  refine ⟨key, ?_⟩
  by_cases hleaf : rest = []
  · have hmodule := h.mem_exports_modules_iff.mpr (List.mem_map_of_mem hmem)
    rw [← hrest, hleaf, List.append_nil] at hmodule
    obtain ⟨found, hfound, hsame, hkey⟩ := append_mem_exports_iff.mp hmodule
    rw [List.inj_on_of_nodup_map hnodup hfound hindex hsame] at hkey
    exact .inl hkey
  · have hdirectory := (h.isSome_directory?_iff (index.path ++ [key])).mpr
      (.inr ⟨placement, hmem, ⟨rest, hrest⟩, by rw [← hrest]; simpa using hleaf⟩)
    have hpackage := h.mem_exports_packages_iff.mpr ⟨by simp, hdirectory⟩
    obtain ⟨found, hfound, hsame, hkey⟩ := append_mem_exports_iff.mp hpackage
    rw [List.inj_on_of_nodup_map hnodup hfound hindex hsame] at hkey
    exact .inr hkey

/-- No directory is empty, except the root where there is no module. -/
theorem Represents.eq_nil_of_empty (h : Represents tree placements) (hindex : index ∈ tree.indexes)
    (hmodules : index.modules = []) (hpackages : index.packages = []) :
    index.path = [] ∧ placements = [] := by
  have hnone {placement : String × List String} (hmem : placement ∈ placements)
      (hlead : index.path <+: placement.2) : index.path = placement.2 := by
    by_contra hproper
    obtain ⟨key, hkey⟩ := h.exists_listed hindex hmem hlead hproper
    simp [hmodules, hpackages] at hkey
  have hroot : index.path = [] := by
    have hpath := ((indexes_path_spec h.distinct).2 _).mp (List.mem_map_of_mem hindex)
    rcases (h.isSome_directory?_iff _).mp hpath with hnil | ⟨placement, hmem, hlead, hproper⟩
    · exact hnil
    · exact absurd (hnone hmem hlead) hproper
  refine ⟨hroot, List.eq_nil_iff_forall_not_mem.mpr fun placement hmem ↦ ?_⟩
  have hnil := hnone hmem (hroot ▸ List.nil_prefix)
  exact h.conflictFree.ne_nil placement hmem (hnil.symm.trans hroot)

/-! ## Chains of exports -/

/-- A chain of indexes from that of the root, each listed as a package by the one before. -/
inductive Opens (indexes : List Index) : List Index → Index → Prop
  | root {index : Index} (hmem : index ∈ indexes) (hpath : index.path = []) :
    Opens indexes [index] index
  | package {chain : List Index} {index inside : Index} {key : String}
    (hchain : Opens indexes chain index) (hmem : inside ∈ indexes)
    (hpath : inside.path = index.path ++ [key]) (hkey : key ∈ index.packages) :
    Opens indexes (chain ++ [inside]) inside

theorem Opens.mem (h : Opens indexes chain index) : index ∈ indexes := by
  cases h with
  | root hmem hpath => exact hmem
  | package hchain hmem hpath hkey => exact hmem

/-- Where no two indexes have one path, there is one chain to a directory at most. -/
theorem Opens.unique {other : List Index} (hpaths : (indexes.map Index.path).Nodup)
    (h : Opens indexes chain index) (hother : Opens indexes other inside)
    (hsame : index.path = inside.path) : chain = other := by
  induction h generalizing other inside with
  | root hmem hpath =>
    cases hother with
    | root hroot hnil => rw [List.inj_on_of_nodup_map hpaths hmem hroot hsame]
    | package hchain hinside hstep hkey =>
      rw [hpath, hstep] at hsame
      simp at hsame
  | package hchain hmem hpath hkey ih =>
    cases hother with
    | root hroot hnil =>
      rw [hpath, hnil] at hsame
      simp at hsame
    | package hbefore hinside hstep hname =>
      rw [List.inj_on_of_nodup_map hpaths hmem hinside hsame]
      rw [hpath, hstep] at hsame
      rw [ih hbefore (List.append_inj' hsame rfl).1]

/-- Packages lead from the root to every directory. -/
theorem Represents.exists_opens (h : Represents tree placements)
    (hinner : tree.directory? path = some inner) :
    ∃ chain, Opens tree.indexes chain (indexOf path inner) := by
  induction path using List.reverseRecOn generalizing inner with
  | nil => exact ⟨_, .root ((mem_indexes_iff h.distinct _).mpr ⟨[], inner, hinner, rfl⟩) rfl⟩
  | append_singleton above key ih =>
    have hpackage := h.mem_exports_packages_iff.mpr
      ⟨by simp, Option.isSome_iff_exists.mpr ⟨inner, hinner⟩⟩
    obtain ⟨index, hindex, hpath, hkey⟩ := append_mem_exports_iff.mp hpackage
    obtain ⟨path, outer, houter, rfl⟩ := (mem_indexes_iff h.distinct index).mp hindex
    obtain rfl : path = above := hpath
    obtain ⟨chain, hchain⟩ := ih houter
    exact ⟨_, .package hchain ((mem_indexes_iff h.distinct _).mpr ⟨_, inner, hinner, rfl⟩) rfl hkey⟩

/-- Exactly one chain of packages leads from the root to a module. -/
theorem Represents.existsUnique_chain (h : Represents tree placements)
    {placement : String × List String} (hmem : placement ∈ placements) :
    ∃! chain, ∃ index, Opens tree.indexes chain index ∧
      ∃ leaf ∈ index.modules, placement.2 = index.path ++ [leaf] := by
  have hmodule := h.mem_exports_modules_iff.mpr (List.mem_map_of_mem hmem)
  obtain ⟨above, key, hpath⟩ :=
    (List.eq_nil_or_concat' placement.2).resolve_left (h.conflictFree.ne_nil placement hmem)
  rw [hpath] at hmodule ⊢
  obtain ⟨index, hindex, rfl, hkey⟩ := append_mem_exports_iff.mp hmodule
  obtain ⟨path, inner, hinner, rfl⟩ := (mem_indexes_iff h.distinct index).mp hindex
  obtain ⟨chain, hchain⟩ := h.exists_opens hinner
  refine ⟨chain, ⟨_, hchain, key, hkey, rfl⟩, ?_⟩
  rintro other ⟨index, hother, leaf, -, hsame⟩
  have hpaths := (indexes_path_spec h.distinct).1
  exact hother.unique hpaths hchain (List.append_inj' hsame rfl).1.symm

/-- Indexes through which the root re-exports exactly the given placements. -/
structure ReExports (placements : List (String × List String)) (indexes : List Index) : Prop where
  nodup_paths : (indexes.map Index.path).Nodup
  parent_behind : ∀ before index after, indexes = before ++ index :: after → index.path ≠ [] →
    ∃ parent ∈ after, parent.path = index.path.dropLast
  root_last : ∃ others root, indexes = others ++ [root] ∧ root.path = []
  nodup_modules : (exports Index.modules indexes).Nodup
  mem_modules_iff : ∀ path, path ∈ exports Index.modules indexes ↔ path ∈ placements.map Prod.snd
  nodup_packages : (exports Index.packages indexes).Nodup
  mem_packages_iff : ∀ path, path ∈ exports Index.packages indexes ↔
    path ≠ [] ∧ path ∈ indexes.map Index.path
  existsUnique_chain : ∀ placement ∈ placements, ∃! chain, ∃ index,
    Opens indexes chain index ∧ ∃ leaf ∈ index.modules, placement.2 = index.path ++ [leaf]
  eq_nil_of_empty : ∀ index ∈ indexes, index.modules = [] → index.packages = [] →
    index.path = [] ∧ placements = []

/-- The indexes of a tree that was built re-export exactly the modules it was built from. -/
theorem reExports_of_build (hbuild : build placements = .ok tree) :
    ReExports placements tree.indexes := by
  have h := represents_of_build_eq_ok hbuild
  obtain ⟨hnodup, hpaths⟩ := indexes_path_spec h.distinct
  have hkeys : ∀ index ∈ tree.indexes, index.modules.Nodup ∧ index.packages.Nodup := by
    intro index hindex
    obtain ⟨path, inner, hinner, rfl⟩ := (mem_indexes_iff h.distinct index).mp hindex
    have hdistinct := (distinct_of_directory? h.distinct hinner).nodup_keys
    exact ⟨hdistinct.sublist (moduleNames_sublist_keys inner),
      hdistinct.sublist (directoryNames_sublist_keys inner)⟩
  exact {
    nodup_paths := hnodup
    parent_behind := fun before index after ↦ h.exists_parent_behind
    root_last := ⟨indexesBelow [] tree, indexOf [] tree, rfl, rfl⟩
    nodup_modules := nodup_exports hnodup fun index hindex ↦ (hkeys index hindex).1
    mem_modules_iff := fun path ↦ h.mem_exports_modules_iff
    nodup_packages := nodup_exports hnodup fun index hindex ↦ (hkeys index hindex).2
    mem_packages_iff := fun path ↦ by rw [h.mem_exports_packages_iff, hpaths]
    existsUnique_chain := fun placement ↦ h.existsUnique_chain
    eq_nil_of_empty := fun index ↦ h.eq_nil_of_empty }

/-- Two definitions of one group and one that is nested deeper. -/
def nestedPlacements : List (String × List String) :=
  [("apps.Deployment", ["apps", "deployment"]), ("apps.v1.Spec", ["apps", "v1", "spec"]),
    ("Quantity", ["quantity"])]

theorem reExports_nestedPlacements :
    ∃ tree, build nestedPlacements = .ok tree ∧ ReExports nestedPlacements tree.indexes :=
  ⟨_, rfl, reExports_of_build rfl⟩

end SchemaModules.ModuleTree
