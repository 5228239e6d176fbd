import Mathlib.Data.List.Nodup
import Mathlib.Tactic.MkIffOfInductiveProp
import SchemaModules.Proofs.FallibleSteps
import SchemaModules.Proofs.ModuleTrees

/-!
# Trees of placements

A placement is a name and the path of its module. A tree that was built holds exactly the given
placements, and building is refused only if two of them are in each other's way. The tree has one
index for each of its directories.
-/

namespace SchemaModules.ModuleTree

variable {tree final : ModuleTree} {name key segment : String} {path : List String}
  {placed placements : List (String × List String)}

/-! ## Conflicts -/

/-- Placements of which none is in the way of another: no path is empty, a path belongs to one name
and does not go through another one. -/
@[mk_iff]
structure ConflictFree (placements : List (String × List String)) : Prop where
  ne_nil : ∀ placement ∈ placements, placement.2 ≠ []
  same_name : ∀ first ∈ placements, ∀ second ∈ placements, first.2 = second.2 → first.1 = second.1
  prefix_eq : ∀ first ∈ placements, ∀ second ∈ placements, first.2 <+: second.2 →
    first.2 = second.2

instance : DecidablePred ConflictFree := fun _ ↦ decidable_of_iff' _ (conflictFree_iff _)

/-- A tree that holds the given placements and the directories they need. -/
structure Represents (tree : ModuleTree) (placed : List (String × List String)) : Prop where
  find?_eq_some_iff : ∀ path name, tree.find? path = some name ↔ (name, path) ∈ placed
  isSome_directory?_iff : ∀ path, (tree.directory? path).isSome ↔
    path = [] ∨ ∃ placement ∈ placed, path <+: placement.2 ∧ path ≠ placement.2
  distinct : Distinct tree

theorem represents_nil : Represents [] [] where
  find?_eq_some_iff path name := by simp [find?_nil_tree]
  isSome_directory?_iff path := by
    cases path with
    | nil => simp [directory?]
    | cons segment rest => simp [directory?]
  distinct := .nil

theorem Represents.conflictFree (h : Represents tree placed) : ConflictFree placed where
  ne_nil := by
    rintro ⟨name, path⟩ hmem rfl
    have hfind := (h.find?_eq_some_iff [] name).mpr hmem
    simp at hfind
  same_name := by
    rintro ⟨first, path⟩ hfirst ⟨second, _⟩ hsecond rfl
    have hname := (h.find?_eq_some_iff path first).mpr hfirst
    rw [(h.find?_eq_some_iff path second).mpr hsecond] at hname
    exact (Option.some.inj hname).symm
  prefix_eq := by
    rintro ⟨first, path⟩ hfirst second hsecond hlead
    by_contra hproper
    have hdirectory := (h.isSome_directory?_iff path).mpr (.inr ⟨second, hsecond, hlead, hproper⟩)
    have hfind := (h.find?_eq_some_iff path first).mpr hfirst
    rw [find?_eq_none_of_directory? hdirectory] at hfind
    cases hfind

/-- Conflict-free placements leave room for the next one. -/
theorem Represents.admits (h : Represents tree placed)
    (hfree : ConflictFree (placed ++ [(name, path)])) : Admits tree name path where
  ne_nil := hfree.ne_nil (name, path) (by simp)
  same_name := by
    intro other hother
    have hmem := (h.find?_eq_some_iff path other).mp hother
    exact hfree.same_name _ (List.mem_append_left _ hmem) (name, path) (by simp) rfl
  no_directory := by
    by_contra hdirectory
    rcases (h.isSome_directory?_iff path).mp (Option.isSome_iff_ne_none.mpr hdirectory) with
      hnil | ⟨placement, hmem, hlead, hproper⟩
    · exact hfree.ne_nil (name, path) (by simp) hnil
    · exact hproper (hfree.prefix_eq (name, path) (by simp) placement
        (List.mem_append_left _ hmem) hlead)
  no_module_above := by
    intro above hlead hproper
    by_contra hsome
    obtain ⟨other, hother⟩ := Option.ne_none_iff_exists'.mp hsome
    have hmem := (h.find?_eq_some_iff above other).mp hother
    exact hproper (hfree.prefix_eq _ (List.mem_append_left _ hmem) (name, path) (by simp) hlead)

theorem Represents.adds (h : Represents tree placed) (hadmits : Admits tree name path)
    (hadds : Adds tree name path final) : Represents final (placed ++ [(name, path)]) where
  find?_eq_some_iff target other := by
    rw [hadds.find?_eq, List.mem_append, List.mem_singleton, Prod.mk.injEq]
    split
    · next htarget =>
      subst htarget
      rw [Option.some.injEq, ← h.find?_eq_some_iff]
      constructor
      · rintro rfl
        exact .inr ⟨rfl, rfl⟩
      · rintro (hother | ⟨rfl, -⟩)
        · exact (hadmits.same_name other hother).symm
        · rfl
    · next htarget => simp [h.find?_eq_some_iff, htarget]
  isSome_directory?_iff target := by
    rw [hadds.isSome_directory?_iff, h.isSome_directory?_iff, or_assoc]
    simp [or_and_right, exists_or]
  distinct := hadds.distinct h.distinct

/-- What one insertion into a tree of placements does. -/
theorem Represents.insert_eq_ok (h : Represents tree placed)
    (hinsert : tree.insert name path = .ok final) :
    Represents final (placed ++ [(name, path)]) := by
  have hspec := insertBelow_spec name path [] tree
  rw [insert] at hinsert
  rw [hinsert] at hspec
  exact h.adds hspec.1 hspec.2

theorem Represents.exists_insert_eq_ok (h : Represents tree placed)
    (hfree : ConflictFree (placed ++ [(name, path)])) :
    ∃ final, tree.insert name path = .ok final := by
  have hspec := insertBelow_spec name path [] tree
  rw [insert]
  cases hrun : insertBelow name [] path tree with
  | ok final => exact ⟨final, rfl⟩
  | error conflict =>
    rw [hrun] at hspec
    exact absurd (h.admits hfree) hspec

theorem ConflictFree.mono {fewer : List (String × List String)} (h : ConflictFree placements)
    (hsubset : fewer ⊆ placements) : ConflictFree fewer where
  ne_nil placement hmem := h.ne_nil placement (hsubset hmem)
  same_name first hfirst second hsecond :=
    h.same_name first (hsubset hfirst) second (hsubset hsecond)
  prefix_eq first hfirst second hsecond :=
    h.prefix_eq first (hsubset hfirst) second (hsubset hsecond)

theorem represents_of_foldlM_eq_ok {definitions : List (String × List String)}
    (h : Represents tree placed)
    (hrun : definitions.foldlM (fun tree (name, path) ↦ tree.insert name path) tree = .ok final) :
    Represents final (placed ++ definitions) := by
  induction definitions generalizing tree placed with
  | nil =>
    obtain rfl := Except.ok.inj hrun
    rwa [List.append_nil]
  | cons placement rest ih =>
    rw [List.foldlM_cons] at hrun
    obtain ⟨middle, hinsert, hrest⟩ := bind_eq_ok_iff.mp hrun
    have := ih (h.insert_eq_ok hinsert) hrest
    rwa [List.append_assoc] at this

theorem exists_foldlM_eq_ok {definitions : List (String × List String)}
    (h : Represents tree placed) (hfree : ConflictFree (placed ++ definitions)) :
    ∃ final,
      definitions.foldlM (fun tree (name, path) ↦ tree.insert name path) tree = .ok final := by
  induction definitions generalizing tree placed with
  | nil => exact ⟨tree, rfl⟩
  | cons placement rest ih =>
    rw [List.append_cons] at hfree
    obtain ⟨middle, hinsert⟩ := h.exists_insert_eq_ok (hfree.mono (List.subset_append_left _ _))
    obtain ⟨final, hrest⟩ := ih (h.insert_eq_ok hinsert) hfree
    exact ⟨final, by rw [List.foldlM_cons]; exact bind_eq_ok_iff.mpr ⟨middle, hinsert, hrest⟩⟩

/-- A tree that was built holds exactly the given placements. -/
theorem represents_of_build_eq_ok (h : build placements = .ok tree) : Represents tree placements :=
  represents_of_foldlM_eq_ok represents_nil h

/-- Building succeeds for exactly those placements that are free of conflicts. -/
theorem exists_build_eq_ok_iff :
    (∃ tree, build placements = .ok tree) ↔ ConflictFree placements := by
  constructor
  · rintro ⟨tree, htree⟩
    exact (represents_of_build_eq_ok htree).conflictFree
  · exact exists_foldlM_eq_ok represents_nil

/-! ## Indexes -/

theorem directory?_of_notMem_keys (h : segment ∉ keys tree) (rest : List String) :
    tree.directory? (segment :: rest) = none := by
  have hlookup : tree.lookup segment = none := lookup_eq_none_iff_notMem.mpr h
  rw [directory?, hlookup]

theorem directory?_cons_module (h : key ∉ keys tree) (name segment : String) (rest : List String) :
    directory? ((key, .module name) :: tree) (segment :: rest) =
      tree.directory? (segment :: rest) := by
  by_cases hsegment : segment = key
  · subst hsegment
    rw [directory?_of_notMem_keys h, directory?, lookup_cons_eq_ite, if_pos rfl]
  · rw [directory?, directory?, lookup_cons_eq_ite, if_neg hsegment]

theorem directory?_cons_directory_eq_some_iff (h : key ∉ keys tree) (inner found : ModuleTree)
    (segment : String) (rest : List String) :
    directory? ((key, .directory inner) :: tree) (segment :: rest) = some found ↔
      (segment = key ∧ inner.directory? rest = some found) ∨
        tree.directory? (segment :: rest) = some found := by
  by_cases hsegment : segment = key
  · subst hsegment
    rw [directory?_of_notMem_keys h, directory?, lookup_cons_eq_ite, if_pos rfl]
    simp
  · rw [directory?, directory?, lookup_cons_eq_ite, if_neg hsegment]
    simp [hsegment]

/-- The indexes below a directory are those of the directories in it. -/
theorem mem_indexesBelow_iff (h : Distinct tree) (above : List String) (index : Index) :
    index ∈ indexesBelow above tree ↔
      ∃ segment rest inner, tree.directory? (segment :: rest) = some inner ∧
        index = indexOf (above ++ segment :: rest) inner := by
  induction h generalizing above with
  | nil => simp [indexesBelow, directory?]
  | module hkey hrest ih =>
    rw [indexesBelow, ih]
    · simp only [directory?_cons_module hkey]
    · simp
  | @directory key inner rest hkey hinner hrest ihinner ihrest =>
    rw [indexesBelow, List.mem_append, List.mem_cons, ihinner, ihrest]
    simp only [directory?_cons_directory_eq_some_iff hkey]
    constructor
    · rintro (⟨segment, below, found, hfound, rfl⟩ | rfl | ⟨segment, below, found, hfound, rfl⟩)
      · exact ⟨key, segment :: below, found, .inl ⟨rfl, hfound⟩, by simp⟩
      · exact ⟨key, [], inner, .inl ⟨rfl, rfl⟩, rfl⟩
      · exact ⟨segment, below, found, .inr hfound, rfl⟩
    · rintro ⟨segment, below, found, ⟨rfl, hfound⟩ | hfound, rfl⟩
      · cases below with
        | nil =>
          obtain rfl := Option.some.inj hfound
          exact .inr (.inl rfl)
        | cons next others => exact .inl ⟨next, others, found, hfound, by simp⟩
      · exact .inr (.inr ⟨segment, below, found, hfound, rfl⟩)

theorem mem_keys_of_directory? {rest : List String} {inner : ModuleTree}
    (h : tree.directory? (segment :: rest) = some inner) : segment ∈ keys tree := by
  by_contra hkey
  rw [directory?_of_notMem_keys hkey] at h
  cases h

/-- No index stands before one for a directory in its own. -/
theorem pairwise_indexesBelow (h : Distinct tree) (above : List String) :
    (indexesBelow above tree).Pairwise fun earlier later ↦ ¬earlier.path <+: later.path := by
  induction h generalizing above with
  | nil =>
    rw [indexesBelow]
    exact .nil
  | module hkey hrest ih =>
    rw [indexesBelow]
    · exact ih above
    · simp
  | @directory key inner rest hkey hinner hrest ihinner ihrest =>
    -- Paths below the directory are longer than its own, and all others begin with another name.
    have hother : ∀ later ∈ indexesBelow above rest,
        ∀ below, ¬above ++ key :: below <+: later.path := by
      intro later hlater below hlead
      obtain ⟨segment, others, found, hfound, rfl⟩ := (mem_indexesBelow_iff hrest _ _).mp hlater
      rw [indexOf, List.prefix_append_right_inj, List.cons_prefix_cons] at hlead
      exact hkey (hlead.1 ▸ mem_keys_of_directory? hfound)
    rw [indexesBelow]
    refine List.pairwise_append.mpr ⟨ihinner _, List.pairwise_cons.mpr ⟨?_, ihrest above⟩, ?_⟩
    · exact fun later hlater ↦ hother later hlater []
    · intro earlier hearlier later hlater
      obtain ⟨segment, others, found, -, rfl⟩ := (mem_indexesBelow_iff hinner _ _).mp hearlier
      rcases List.mem_cons.mp hlater with rfl | hrest
      · intro hlead
        have hlength := hlead.length_le
        simp [indexOf] at hlength
      · rw [indexOf, List.append_assoc]
        exact hother later hrest (segment :: others)

/-- The indexes of a tree are those of its directories. -/
theorem mem_indexes_iff (h : Distinct tree) (index : Index) : index ∈ tree.indexes ↔
    ∃ path inner, tree.directory? path = some inner ∧ index = indexOf path inner := by
  rw [indexes, List.mem_append, List.mem_singleton, mem_indexesBelow_iff h]
  constructor
  · rintro (⟨segment, rest, inner, hinner, rfl⟩ | rfl)
    · exact ⟨segment :: rest, inner, hinner, rfl⟩
    · exact ⟨[], tree, rfl, rfl⟩
  · rintro ⟨path, inner, hinner, rfl⟩
    cases path with
    | nil =>
      obtain rfl := Option.some.inj hinner
      exact .inr rfl
    | cons segment rest => exact .inl ⟨segment, rest, inner, hinner, rfl⟩

theorem pairwise_indexes (h : Distinct tree) :
    tree.indexes.Pairwise fun earlier later ↦ ¬earlier.path <+: later.path := by
  refine List.pairwise_append.mpr ⟨pairwise_indexesBelow h [], List.pairwise_singleton _ _, ?_⟩
  intro earlier hearlier later hlater
  obtain ⟨segment, rest, inner, -, rfl⟩ := (mem_indexesBelow_iff h _ _).mp hearlier
  rw [List.mem_singleton.mp hlater]
  simp [indexOf]

/-- There is exactly one index for each directory of a tree. -/
theorem indexes_path_spec (h : Distinct tree) :
    (tree.indexes.map Index.path).Nodup ∧
      ∀ path, path ∈ tree.indexes.map Index.path ↔ (tree.directory? path).isSome := by
  constructor
  · rw [List.nodup_iff_pairwise_ne, List.pairwise_map]
    refine (pairwise_indexes h).imp ?_
    intro earlier later hlead hsame
    exact hlead (hsame ▸ List.prefix_refl earlier.path)
  · intro path
    rw [List.mem_map, Option.isSome_iff_exists]
    constructor
    · rintro ⟨index, hindex, rfl⟩
      obtain ⟨path, inner, hinner, rfl⟩ := (mem_indexes_iff h index).mp hindex
      exact ⟨inner, hinner⟩
    · rintro ⟨inner, hinner⟩
      exact ⟨indexOf path inner, (mem_indexes_iff h _).mpr ⟨path, inner, hinner, rfl⟩, rfl⟩

end SchemaModules.ModuleTree
