import SchemaModules.Proofs.PlacedModules

/-!
# Conflicts of placements

A tree of placements is built exactly if they are free of conflicts, in whatever order they come.
The conflict that a refusal names depends on the order, but it is always one between two of the
placements, or that of one with an empty path.
-/

namespace SchemaModules.ModuleTree

open Text

variable {tree : ModuleTree} {name segment : String} {path rest above : List String}
  {placed placements definitions : List (String × List String)} {conflict : PlacementConflict}

/-! ## One insertion -/

/-- What is in the way of a module in the directory at `above`. -/
inductive Blocks (tree : ModuleTree) (name : String) (above path : List String) :
    PlacementConflict → Prop
  | emptyPath (hpath : path = []) : Blocks tree name above path (.emptyPath name)
  | directoryIsModule {lead : List String} {owner : String} (hlead : lead <+: path)
      (hproper : lead ≠ path) (howner : tree.find? lead = some owner) :
      Blocks tree name above path (.directoryIsModule name (join "/" (above ++ lead)) owner)
  | moduleIsDirectory (hdirectory : (tree.directory? path).isSome) (hpath : path ≠ []) :
      Blocks tree name above path (.moduleIsDirectory name (join "/" (above ++ path)))
  | samePath {other : String} (hother : tree.find? path = some other) (hname : other ≠ name) :
      Blocks tree name above path (.samePath other name (join "/" (above ++ path)))

/-- What is in the way inside a directory is in the way from above it. -/
theorem Blocks.cons (h : Blocks (tree.child segment) name (above ++ [segment]) rest conflict)
    (hrest : rest ≠ []) : Blocks tree name above (segment :: rest) conflict := by
  have happend (lead : List String) : above ++ [segment] ++ lead = above ++ segment :: lead := by
    simp
  cases h with
  | emptyPath hpath => exact absurd hpath hrest
  | @directoryIsModule lead owner hlead hproper howner =>
    have hne : lead ≠ [] := by
      rintro rfl
      simp at howner
    rw [happend]
    exact .directoryIsModule (by simpa using hlead) (by simpa using hproper)
      (by rwa [find?_cons hne])
  | moduleIsDirectory hdirectory hpath =>
    rw [happend]
    exact .moduleIsDirectory (by rwa [directory?_cons hrest]) (List.cons_ne_nil _ _)
  | samePath hother hname =>
    rw [happend]
    exact .samePath (by rwa [find?_cons hrest]) hname

theorem blocks_singleton (h : insertBelow name above [segment] tree = .error conflict) :
    Blocks tree name above [segment] conflict := by
  rw [insertBelow] at h
  cases hlookup : tree.lookup segment with
  | none => simp [hlookup] at h
  | some entry => cases entry with
    | directory inner =>
      obtain rfl : _ = conflict := by simpa [hlookup] using h
      exact .moduleIsDirectory (by simp [directory?, hlookup]) (List.cons_ne_nil _ _)
    | module other =>
      by_cases hname : other = name
      · simp [hlookup, hname] at h
      · obtain rfl : _ = conflict := by simpa [hlookup, hname] using h
        exact .samePath ((find?_singleton _ _ _).mpr hlookup) hname

/-- An insertion that is refused names what is in the way. -/
theorem blocks_of_insertBelow_eq_error
    (h : insertBelow name above path tree = .error conflict) :
    Blocks tree name above path conflict := by
  induction path generalizing above tree with
  | nil =>
    obtain rfl : _ = conflict := by simpa [insertBelow] using h
    exact .emptyPath rfl
  | cons segment rest ih =>
    by_cases hrest : rest = []
    · subst hrest
      exact blocks_singleton h
    cases hmodule : tree.find? [segment] with
    | some owner =>
      have hlookup := (find?_singleton tree segment owner).mp hmodule
      rw [insertBelow, hlookup] at h
      · obtain rfl : _ = conflict := by simpa using h
        exact .directoryIsModule (by simp) (by simpa using Ne.symm hrest) hmodule
      · exact hrest
    | none =>
      rw [insertBelow_cons hrest hmodule] at h
      cases hrun : insertBelow name (above ++ [segment]) rest (tree.child segment) with
      | ok inner => simp [hrun, Except.map] at h
      | error cause =>
        obtain rfl : cause = conflict := by simpa [hrun, Except.map] using h
        exact (ih hrun).cons hrest

/-! ## All placements -/

/-- A conflict between placements, as a refusal names it. -/
inductive Conflicts (placements : List (String × List String)) : PlacementConflict → Prop
  | emptyPath {name : String} (hname : (name, []) ∈ placements) :
      Conflicts placements (.emptyPath name)
  | directoryIsModule {name owner : String} {path longer : List String}
      (hname : (name, longer) ∈ placements) (howner : (owner, path) ∈ placements)
      (hlead : path <+: longer) (hproper : path ≠ longer) :
      Conflicts placements (.directoryIsModule name (join "/" path) owner)
  | moduleIsDirectory {name other : String} {path longer : List String}
      (hname : (name, path) ∈ placements) (hother : (other, longer) ∈ placements)
      (hlead : path <+: longer) (hproper : path ≠ longer) :
      Conflicts placements (.moduleIsDirectory name (join "/" path))
  | samePath {first second : String} {path : List String} (hfirst : (first, path) ∈ placements)
      (hsecond : (second, path) ∈ placements) (hname : first ≠ second) :
      Conflicts placements (.samePath first second (join "/" path))

theorem Conflicts.mono {more : List (String × List String)} (h : Conflicts placements conflict)
    (hsubset : placements ⊆ more) : Conflicts more conflict := by
  cases h with
  | emptyPath hname => exact .emptyPath (hsubset hname)
  | directoryIsModule hname howner hlead hproper =>
    exact .directoryIsModule (hsubset hname) (hsubset howner) hlead hproper
  | moduleIsDirectory hname hother hlead hproper =>
    exact .moduleIsDirectory (hsubset hname) (hsubset hother) hlead hproper
  | samePath hfirst hsecond hname => exact .samePath (hsubset hfirst) (hsubset hsecond) hname

/-- What is in the way of a placement is one of those that the tree holds. -/
theorem Represents.conflicts (h : Represents tree placed)
    (hblocks : Blocks tree name [] path conflict) :
    Conflicts (placed ++ [(name, path)]) conflict := by
  have hself : (name, path) ∈ placed ++ [(name, path)] := by simp
  have hheld {other : String} {target : List String} (hother : tree.find? target = some other) :
      (other, target) ∈ placed ++ [(name, path)] :=
    List.mem_append_left _ ((h.find?_eq_some_iff target other).mp hother)
  cases hblocks with
  | emptyPath hpath => exact .emptyPath (hpath ▸ hself)
  | directoryIsModule hlead hproper howner =>
    exact .directoryIsModule hself (hheld howner) hlead hproper
  | moduleIsDirectory hdirectory hpath =>
    obtain ⟨⟨other, longer⟩, hother, hlead, hproper⟩ :=
      ((h.isSome_directory?_iff path).mp hdirectory).resolve_left hpath
    exact .moduleIsDirectory hself (List.mem_append_left _ hother) hlead hproper
  | samePath hother hname => exact .samePath (hheld hother) hself hname

theorem conflicts_of_foldlM_eq_error (h : Represents tree placed)
    (hrun : definitions.foldlM (fun tree (name, path) ↦ tree.insert name path) tree =
      .error conflict) : Conflicts (placed ++ definitions) conflict := by
  induction definitions generalizing tree placed with
  | nil => cases hrun
  | cons placement rest ih =>
    rw [List.foldlM_cons] at hrun
    rcases bind_eq_error_iff.mp hrun with hinsert | ⟨middle, hinsert, hrest⟩
    · refine (h.conflicts (blocks_of_insertBelow_eq_error hinsert)).mono ?_
      rw [List.append_cons placed placement rest]
      exact List.subset_append_left _ _
    · rw [List.append_cons]
      exact ih (h.insert_eq_ok hinsert) hrest

theorem conflicts_of_build_eq_error (h : build placements = .error conflict) :
    Conflicts placements conflict :=
  conflicts_of_foldlM_eq_error represents_nil h

/-- A refused list of placements is refused in every order, each time for one of its conflicts. -/
theorem exists_conflict_of_perm {order : List (String × List String)}
    (h : ¬ConflictFree placements) (horder : order.Perm placements) :
    ∃ conflict, build order = .error conflict ∧ Conflicts placements conflict := by
  cases hbuild : build order with
  | error conflict => exact ⟨conflict, rfl, (conflicts_of_build_eq_error hbuild).mono horder.subset⟩
  | ok tree =>
    have hfree := (represents_of_build_eq_ok hbuild).conflictFree
    exact absurd (hfree.mono horder.symm.subset) h

/-- Trees are built exactly from conflict-free lists and then hold what was listed; any other list
is refused for one of its conflicts, whatever its order. -/
theorem build_accepts_conflictFree (placements : List (String × List String)) :
    ((∃ tree, build placements = .ok tree) ↔ ConflictFree placements) ∧
      (¬ConflictFree placements → ∀ order, order.Perm placements →
        ∃ conflict, build order = .error conflict ∧ Conflicts placements conflict) ∧
      ∀ tree, build placements = .ok tree →
        ∀ path name, tree.find? path = some name ↔ (name, path) ∈ placements := by
  refine ⟨exists_build_eq_ok_iff, fun hconflict order ↦ exists_conflict_of_perm hconflict, ?_⟩
  exact fun tree hbuild ↦ (represents_of_build_eq_ok hbuild).find?_eq_some_iff

-- One conflict, met from either side.
example : build [("a", ["a"]), ("a.b", ["a", "b"])] =
    .error (.directoryIsModule "a.b" "a" "a") := rfl

example : build [("a.b", ["a", "b"]), ("a", ["a"])] = .error (.moduleIsDirectory "a" "a") := rfl

end SchemaModules.ModuleTree
