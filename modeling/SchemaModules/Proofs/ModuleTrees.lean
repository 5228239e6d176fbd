import Mathlib.Data.List.Basic
import SchemaModules.ModuleTree
import SchemaModules.Proofs.Lookup

/-!
# Module trees

A tree is looked at through the paths at which it has modules and directories. Inserting a module
adds its path and the directories above it, and nothing else. It is refused only if something else
is in the way.
-/

namespace SchemaModules.ModuleTree

variable {tree final inner : ModuleTree} {entry : TreeEntry} {name key segment : String}
  {path rest above : List String}

/-! ## Paths in a tree -/

/-- The directory of that name, an empty one if there is none. -/
def child (tree : ModuleTree) (segment : String) : ModuleTree := (tree.directory? [segment]).getD []

theorem lookup_setEntry (key : String) (entry : TreeEntry) (tree : ModuleTree) (segment : String) :
    (setEntry key entry tree).lookup segment =
      if segment = key then some entry else tree.lookup segment := by
  induction tree with
  | nil => rw [setEntry, lookup_cons_eq_ite]
  | cons first rest ih =>
    obtain ⟨name, other⟩ := first
    rw [setEntry]
    by_cases hname : name = key
    · subst hname
      rw [if_pos rfl, lookup_cons_eq_ite, lookup_cons_eq_ite]
      split <;> rfl
    · rw [if_neg hname, lookup_cons_eq_ite, lookup_cons_eq_ite, ih]
      by_cases hsegment : segment = name
      · have hother : segment ≠ key := fun h ↦ hname (hsegment ▸ h)
        rw [if_pos hsegment, if_neg hother, if_pos hsegment]
      · rw [if_neg hsegment, if_neg hsegment]

@[simp]
theorem find?_nil_path (tree : ModuleTree) : tree.find? [] = none := by rw [find?]

theorem find?_singleton (tree : ModuleTree) (leaf name : String) :
    tree.find? [leaf] = some name ↔ tree.lookup leaf = some (.module name) := by
  rw [find?]
  cases tree.lookup leaf with
  | none => simp
  | some entry => cases entry <;> simp

theorem find?_nil_tree (path : List String) : find? [] path = none := by
  match path with
  | [] => rfl
  | [_] => rfl
  | _ :: _ :: _ => rfl

theorem directory?_nil_tree (hpath : path ≠ []) : directory? [] path = none := by
  cases path with
  | nil => exact absurd rfl hpath
  | cons segment rest => rfl

theorem find?_cons (hrest : rest ≠ []) :
    tree.find? (segment :: rest) = (tree.child segment).find? rest := by
  obtain ⟨next, others, rfl⟩ := List.exists_cons_of_ne_nil hrest
  rw [find?, child, directory?]
  · cases tree.lookup segment with
    | none => exact (find?_nil_tree _).symm
    | some entry => cases entry with
      | module name => exact (find?_nil_tree _).symm
      | directory inner => rfl
  · simp

theorem directory?_cons (hrest : rest ≠ []) :
    tree.directory? (segment :: rest) = (tree.child segment).directory? rest := by
  rw [directory?, child, directory?]
  cases tree.lookup segment with
  | none => exact (directory?_nil_tree hrest).symm
  | some entry => cases entry with
    | module name => exact (directory?_nil_tree hrest).symm
    | directory inner => rfl

theorem child_cons (key : String) (entry : TreeEntry) (tree : ModuleTree) (segment : String) :
    child ((key, entry) :: tree) segment =
      if segment = key then child [(key, entry)] key else tree.child segment := by
  by_cases h : segment = key
  · simp [child, directory?, h]
  · simp [child, directory?, lookup_cons_eq_ite, h]

theorem child_setEntry (segment key : String) (inner tree : ModuleTree) :
    (setEntry key (.directory inner) tree).child segment =
      if segment = key then inner else tree.child segment := by
  rw [child, child, directory?, lookup_setEntry]
  by_cases h : segment = key
  · simp [h, directory?]
  · rw [if_neg h, if_neg h, ← directory?]

/-- No path leads to a module and to a directory. -/
theorem find?_eq_none_of_directory? (h : (tree.directory? path).isSome) :
    tree.find? path = none := by
  induction path generalizing tree with
  | nil => exact find?_nil_path tree
  | cons segment rest ih =>
    by_cases hrest : rest = []
    · subst hrest
      rw [directory?] at h
      rw [find?]
      cases hlookup : tree.lookup segment with
      | none => rfl
      | some entry => cases entry with
        | module name => simp [hlookup] at h
        | directory inner => rfl
    · rw [directory?_cons hrest] at h
      rw [find?_cons hrest]
      exact ih h

/-- The names in a directory. -/
def keys (tree : ModuleTree) : List String := tree.map Prod.fst

/-- A tree in which no directory has two entries of one name. -/
inductive Distinct : ModuleTree → Prop
  | nil : Distinct []
  | module {key name : String} {rest : ModuleTree} (hkey : key ∉ keys rest)
      (hrest : Distinct rest) : Distinct ((key, .module name) :: rest)
  | directory {key : String} {inner rest : ModuleTree} (hkey : key ∉ keys rest)
      (hinner : Distinct inner) (hrest : Distinct rest) : Distinct ((key, .directory inner) :: rest)

theorem mem_keys_setEntry : segment ∈ keys (setEntry key entry tree) ↔
    segment = key ∨ segment ∈ keys tree := by
  induction tree with
  | nil => simp [setEntry, keys]
  | cons first rest ih =>
    obtain ⟨name, other⟩ := first
    rw [setEntry]
    split
    · next hname => simp [keys, hname]
    · simp only [keys, List.map_cons, List.mem_cons] at ih ⊢
      rw [ih]
      exact or_left_comm

theorem distinct_cons (hkey : key ∉ keys tree) (htree : Distinct tree)
    (hentry : ∀ inner, entry = .directory inner → Distinct inner) :
    Distinct ((key, entry) :: tree) := by
  cases entry with
  | module name => exact .module hkey htree
  | directory inner => exact .directory hkey (hentry inner rfl) htree

theorem Distinct.setEntry (h : Distinct tree) (key : String)
    (hentry : ∀ inner, entry = .directory inner → Distinct inner) :
    Distinct (setEntry key entry tree) := by
  have hnew {name : String} {rest : ModuleTree} (hname : name ≠ key) (hrest : name ∉ keys rest) :
      name ∉ keys (ModuleTree.setEntry key entry rest) := fun hmem ↦
    (mem_keys_setEntry.mp hmem).elim hname hrest
  induction h with
  | nil => exact distinct_cons (by simp [keys]) .nil hentry
  | module hkey hrest ih =>
    rw [ModuleTree.setEntry]
    split
    · exact distinct_cons hkey hrest hentry
    · next hname => exact .module (hnew hname hkey) ih
  | directory hkey hinner hrest ihinner ihrest =>
    rw [ModuleTree.setEntry]
    split
    · exact distinct_cons hkey hrest hentry
    · next hname => exact .directory (hnew hname hkey) hinner ihrest

theorem Distinct.child (h : Distinct tree) (segment : String) : Distinct (tree.child segment) := by
  induction h with
  | nil => exact .nil
  | @module key name rest hkey hrest ih =>
    rw [child_cons]
    split
    · simpa [ModuleTree.child, directory?] using Distinct.nil
    · exact ih
  | @directory key inner rest hkey hinner hrest ihinner ihrest =>
    rw [child_cons]
    split
    · simpa [ModuleTree.child, directory?] using hinner
    · exact ihrest

/-! ## Insertion -/

/-- A tree in which there is room for a module. -/
structure Admits (tree : ModuleTree) (name : String) (path : List String) : Prop where
  ne_nil : path ≠ []
  same_name : ∀ other, tree.find? path = some other → other = name
  no_directory : tree.directory? path = none
  no_module_above : ∀ above, above <+: path → above ≠ path → tree.find? above = none

/-- What a tree holds after a module was added. -/
structure Adds (tree : ModuleTree) (name : String) (path : List String) (final : ModuleTree) :
    Prop where
  find?_eq : ∀ target, final.find? target = if target = path then some name else tree.find? target
  isSome_directory?_iff : ∀ target, (final.directory? target).isSome ↔
    (tree.directory? target).isSome ∨ target <+: path ∧ target ≠ path
  distinct : Distinct tree → Distinct final

theorem admits_cons_iff (hrest : rest ≠ []) : Admits tree name (segment :: rest) ↔
    tree.find? [segment] = none ∧ Admits (tree.child segment) name rest := by
  constructor
  · intro h
    refine ⟨h.no_module_above _ (by simp) (by simpa using hrest.symm), hrest, ?_, ?_, ?_⟩
    · exact fun other hother ↦ h.same_name other (by rwa [find?_cons hrest])
    · rw [← directory?_cons hrest]
      exact h.no_directory
    · intro above hlead hproper
      by_cases hnil : above = []
      · rw [hnil, find?_nil_path]
      · rw [← find?_cons hnil]
        exact h.no_module_above _ (by simpa using hlead) (by simpa using hproper)
  · rintro ⟨hnone, h⟩
    refine ⟨List.cons_ne_nil _ _, ?_, ?_, ?_⟩
    · exact fun other hother ↦ h.same_name other (by rwa [← find?_cons hrest])
    · rw [directory?_cons hrest]
      exact h.no_directory
    · intro above hlead hproper
      rcases List.prefix_cons_iff.mp hlead with rfl | ⟨below, rfl, hbelow⟩
      · exact find?_nil_path tree
      · by_cases hnil : below = []
        · rw [hnil, hnone]
        · rw [find?_cons hnil]
          exact h.no_module_above _ hbelow (by simpa using hproper)

theorem Adds.cons (h : Adds (tree.child segment) name rest inner) (hrest : rest ≠ [])
    (hnone : tree.find? [segment] = none) :
    Adds tree name (segment :: rest) (setEntry segment (.directory inner) tree) where
  find?_eq := by
    intro target
    match target with
    | [] => simp
    | [leaf] =>
      rw [if_neg fun h ↦ hrest (List.cons.inj h).2.symm]
      by_cases hleaf : leaf = segment
      · rw [hleaf, hnone, find?, lookup_setEntry, if_pos rfl]
      · simp [find?, lookup_setEntry, hleaf]
    | first :: next :: others =>
      have hothers : next :: others ≠ [] := List.cons_ne_nil _ _
      rw [find?_cons hothers, find?_cons hothers, child_setEntry]
      by_cases hfirst : first = segment
      · rw [if_pos hfirst, h.find?_eq, hfirst]
        simp
      · rw [if_neg hfirst, if_neg (by simp [hfirst])]
  isSome_directory?_iff := by
    intro target
    match target with
    | [] => simp [directory?]
    | [leaf] =>
      by_cases hleaf : leaf = segment
      · simp [directory?, lookup_setEntry, hleaf, hrest.symm]
      · simp [directory?, lookup_setEntry, hleaf]
    | first :: next :: others =>
      have hothers : next :: others ≠ [] := List.cons_ne_nil _ _
      rw [directory?_cons hothers, directory?_cons hothers, child_setEntry]
      by_cases hfirst : first = segment
      · rw [if_pos hfirst, h.isSome_directory?_iff, hfirst, List.prefix_cons_inj]
        simp
      · simp [hfirst]
  distinct := by
    intro htree
    refine htree.setEntry segment fun other hother ↦ ?_
    obtain rfl := TreeEntry.directory.inj hother
    exact h.distinct (htree.child segment)

theorem insertBelow_cons (hrest : rest ≠ []) (hnone : tree.find? [segment] = none) :
    insertBelow name above (segment :: rest) tree =
      (insertBelow name (above ++ [segment]) rest (tree.child segment)).map
        fun inner ↦ setEntry segment (.directory inner) tree := by
  rw [insertBelow]
  · rw [find?] at hnone
    rw [child, directory?]
    cases hlookup : tree.lookup segment with
    | none => rfl
    | some entry => cases entry with
      | module owner => simp [hlookup] at hnone
      | directory inner => rfl
  · exact hrest

theorem proper_prefix_singleton {target : List String} (hlead : target <+: [segment])
    (hproper : target ≠ [segment]) : target = [] := by
  rcases List.prefix_cons_iff.mp hlead with rfl | ⟨below, rfl, hbelow⟩
  · rfl
  · exact absurd (congrArg (segment :: ·) (List.prefix_nil.mp hbelow)) hproper

theorem admits_singleton (hother : ∀ other, tree.find? [segment] = some other → other = name)
    (hnone : tree.directory? [segment] = none) : Admits tree name [segment] where
  ne_nil := List.cons_ne_nil _ _
  same_name := hother
  no_directory := hnone
  no_module_above above hlead hproper := by
    rw [proper_prefix_singleton hlead hproper, find?_nil_path]

/-- A module is the only thing that changes: directories above it, and what they hold, stay. -/
theorem adds_singleton
    (hfind : ∀ target,
      final.find? target = if target = [segment] then some name else tree.find? target)
    (hdirectory : ∀ target, (final.directory? target).isSome ↔ (tree.directory? target).isSome)
    (hdistinct : Distinct tree → Distinct final) : Adds tree name [segment] final where
  find?_eq := hfind
  isSome_directory?_iff target := by
    rw [hdirectory, iff_self_or]
    rintro ⟨hlead, hproper⟩
    rw [proper_prefix_singleton hlead hproper]
    rfl
  distinct := hdistinct

theorem adds_setEntry_module (name : String) (hnone : tree.lookup segment = none) :
    Adds tree name [segment] (setEntry segment (.module name) tree) := by
  have hchild (first : String) :
      (setEntry segment (.module name) tree).child first = tree.child first := by
    by_cases hfirst : first = segment
    · simp [child, directory?, lookup_setEntry, hfirst, hnone]
    · simp [child, directory?, lookup_setEntry, hfirst]
  refine adds_singleton (fun target ↦ ?_) (fun target ↦ ?_) (·.setEntry segment (by simp))
  · match target with
    | [] => simp
    | [leaf] => by_cases hleaf : leaf = segment <;> simp [find?, lookup_setEntry, hleaf]
    | first :: next :: others =>
      rw [find?_cons (List.cons_ne_nil _ _), find?_cons (List.cons_ne_nil _ _), hchild]
      simp
  · match target with
    | [] => simp [directory?]
    | [leaf] =>
      by_cases hleaf : leaf = segment <;> simp [directory?, lookup_setEntry, hleaf, hnone]
    | first :: next :: others =>
      rw [directory?_cons (List.cons_ne_nil _ _), directory?_cons (List.cons_ne_nil _ _), hchild]

theorem insertBelow_singleton (name segment : String) (above : List String) (tree : ModuleTree) :
    match insertBelow name above [segment] tree with
    | .ok final => Admits tree name [segment] ∧ Adds tree name [segment] final
    | .error _ => ¬Admits tree name [segment] := by
  rw [insertBelow]
  cases hlookup : tree.lookup segment with
  | none =>
    exact ⟨admits_singleton (by simp [find?, hlookup]) (by simp [directory?, hlookup]),
      adds_setEntry_module name hlookup⟩
  | some entry => cases entry with
    | directory inner =>
      intro h
      have hnone := h.no_directory
      simp [directory?, hlookup] at hnone
    | module other =>
      have hfind : tree.find? [segment] = some other := (find?_singleton _ _ _).mpr hlookup
      by_cases hsame : other = name
      · subst hsame
        simp only [↓reduceIte]
        refine ⟨admits_singleton (by simp [hfind]) (by simp [directory?, hlookup]),
          adds_singleton (fun target ↦ ?_) (fun _ ↦ Iff.rfl) id⟩
        split
        · next htarget => rw [htarget, hfind]
        · rfl
      · simp only [hsame, ↓reduceIte]
        exact fun h ↦ hsame (h.same_name other hfind)

/-- An insertion takes place if there is room for the module, and is refused otherwise. -/
theorem insertBelow_spec (name : String) (path above : List String) (tree : ModuleTree) :
    match insertBelow name above path tree with
    | .ok final => Admits tree name path ∧ Adds tree name path final
    | .error _ => ¬Admits tree name path := by
  induction path generalizing above tree with
  | nil =>
    rw [insertBelow]
    exact fun h ↦ h.ne_nil rfl
  | cons segment rest ih =>
    by_cases hrest : rest = []
    · rw [hrest]
      exact insertBelow_singleton name segment above tree
    cases hmodule : tree.find? [segment] with
    | some owner =>
      have hlookup := (find?_singleton tree segment owner).mp hmodule
      rw [insertBelow, hlookup]
      · intro h
        have := h.no_module_above [segment] (by simp) (by simpa using Ne.symm hrest)
        simp [hmodule] at this
      · exact hrest
    | none =>
      rw [insertBelow_cons hrest hmodule]
      have hinner := ih (above ++ [segment]) (tree.child segment)
      cases hrun : insertBelow name (above ++ [segment]) rest (tree.child segment) with
      | ok inner =>
        rw [hrun] at hinner
        exact ⟨(admits_cons_iff hrest).mpr ⟨hmodule, hinner.1⟩, hinner.2.cons hrest hmodule⟩
      | error conflict =>
        rw [hrun] at hinner
        exact fun h ↦ hinner ((admits_cons_iff hrest).mp h).2

end SchemaModules.ModuleTree
