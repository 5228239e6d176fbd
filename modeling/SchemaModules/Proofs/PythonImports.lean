import SchemaModules.Proofs.JoinedPaths
import SchemaModules.Proofs.ModuleLines

/-!
# Imports of Python modules

An import names a module by the way to it from the package of the importing module. A reader of such
names, which knows nothing of how they are made, comes from there to the module that was meant and
never leaves the outermost package.
-/

namespace SchemaModules.Python

open Naming Text

variable {target shared up down : List String}

/-! ## Reading a name -/

/-- How many dots a name begins with. -/
def leadingDots (name : String) : Nat := (name.toList.takeWhile (· = '.')).length

/-- The path behind the first dots of a name. -/
def pathBehindDots (name : String) : List String :=
  let rest := name.toList.dropWhile (· = '.')
  if rest.isEmpty then [] else splitParts '.' (String.ofList rest)

/-- The module that a name leads to from a package. One dot stays in the package, each further dot
leads one package up, and the rest of the name leads down. A name leads nowhere if it begins with no
dot or goes up from the outermost package. -/
def resolveModule (package : List String) (name : String) : Option (List String) :=
  match leadingDots name with
  | 0 => none
  | above + 1 =>
    if package.length < above then none
    else some (package.take (package.length - above) ++ pathBehindDots name)

theorem head?_join_segments (hdown : ∀ segment ∈ down, IsSegment segment) :
    (join "." down).toList.head? ≠ some '.' := by
  cases down with
  | nil => simp [join]
  | cons first rest =>
    have hfirst := hdown first List.mem_cons_self
    rw [head?_join_cons "." rest hfirst.ne_empty]
    intro hdot
    exact hfirst.no_dot (List.mem_of_mem_head? hdot)

theorem takeWhile_dots {rest : List Char} (n : Nat) (hrest : rest.head? ≠ some '.') :
    (List.replicate n '.' ++ rest).takeWhile (· = '.') = List.replicate n '.' ∧
      (List.replicate n '.' ++ rest).dropWhile (· = '.') = rest := by
  have hdots : ∀ c ∈ List.replicate n '.', decide (c = '.') = true := by
    intro c hc
    simpa using List.eq_of_mem_replicate hc
  rw [List.takeWhile_append_of_pos hdots, List.dropWhile_append_of_pos hdots]
  cases rest with
  | nil => simp
  | cons c others =>
    have hc : c ≠ '.' := by simpa using hrest
    simp [hc]

/-! ## Making a name -/

theorem toList_relativeModule (h : commonLength (shared ++ up) (shared ++ down) = shared.length) :
    (relativeModule (shared ++ up) (shared ++ down)).toList =
      List.replicate (up.length + 1) '.' ++ (join "." down).toList := by
  rw [relativeModule, h]
  simp

/-- A relative name begins with one dot for each package that it leaves, and one more. -/
theorem leadingDots_relativeModule (hdown : ∀ segment ∈ down, IsSegment segment)
    (h : commonLength (shared ++ up) (shared ++ down) = shared.length) :
    leadingDots (relativeModule (shared ++ up) (shared ++ down)) = up.length + 1 := by
  have hdots := (takeWhile_dots (up.length + 1) (head?_join_segments hdown)).1
  rw [leadingDots, toList_relativeModule h, hdots, List.length_replicate]

theorem pathBehindDots_relativeModule (hdown : ∀ segment ∈ down, IsSegment segment)
    (h : commonLength (shared ++ up) (shared ++ down) = shared.length) :
    pathBehindDots (relativeModule (shared ++ up) (shared ++ down)) = down := by
  have hdots := (takeWhile_dots (up.length + 1) (head?_join_segments hdown)).2
  rw [pathBehindDots, toList_relativeModule h, hdots]
  cases down with
  | nil => rfl
  | cons first rest =>
    have hfirst := (hdown first List.mem_cons_self).ne_empty
    obtain ⟨others, hothers⟩ := toList_join_cons "." first rest
    have hsome : (join "." (first :: rest)).toList.isEmpty = false := by
      simp [hothers, hfirst]
    have hparts : ∀ part ∈ first :: rest, '.' ∉ part.toList := fun part hpart ↦
      (hdown part hpart).no_dot
    simp only [hsome, Bool.false_eq_true, ↓reduceIte, String.ofList_toList]
    exact splitParts_join (List.cons_ne_nil _ _) hparts

/-- The name of a module leads to it from the package that it is made for. -/
theorem resolveModule_relativeModule (package : List String)
    (htarget : ∀ segment ∈ target, IsSegment segment) :
    resolveModule package (relativeModule package target) = some target := by
  obtain ⟨shared, up, down, rfl, rfl, hlength⟩ := exists_append_of_commonLength package target
  have hdown : ∀ segment ∈ down, IsSegment segment := fun segment hsegment ↦
    htarget segment (List.mem_append_right _ hsegment)
  have hbelow : ¬(shared ++ up).length < up.length := by simp
  have hkept : (shared ++ up).take ((shared ++ up).length - up.length) = shared := by simp
  rw [resolveModule, leadingDots_relativeModule hdown hlength]
  simp only [hbelow, ↓reduceIte, hkept, pathBehindDots_relativeModule hdown hlength]

theorem leadingDots_relativeModule_le (package : List String)
    (htarget : ∀ segment ∈ target, IsSegment segment) :
    leadingDots (relativeModule package target) ≤ package.length + 1 := by
  obtain ⟨shared, up, down, rfl, rfl, hlength⟩ := exists_append_of_commonLength package target
  have hdown : ∀ segment ∈ down, IsSegment segment := fun segment hsegment ↦
    htarget segment (List.mem_append_right _ hsegment)
  calc leadingDots (relativeModule (shared ++ up) (shared ++ down))
    _ = up.length + 1 := leadingDots_relativeModule hdown hlength
    _ ≤ (shared ++ up).length + 1 := by simp

/-- Each dependency of a definition is imported by a line whose name leads to the dependency. -/
theorem exists_import_resolving {conventions : Conventions} {name : String} {schema : Json}
    {dependency : Names} (hmem : dependency ∈ (Definition.of conventions name schema).dependencies)
    (comment : String) :
    ∃ imported, HasLines ((Module.of (.of conventions name schema)).render comment)
        [indentOf 1 ++ ("from " ++ imported ++ " import " ++ dependency.interfaceName)] ∧
      resolveModule (packageOf (conventions.names name)) imported = some dependency.path := by
  have hsegments : ∀ segment ∈ dependency.path, IsSegment segment := by
    obtain ⟨target, -, rfl⟩ := List.mem_map.mp hmem
    exact fun segment hsegment ↦ isSegment_of_mem_modulePath hsegment
  have hline := hasLines_interfaceImport (m := .of (.of conventions name schema))
    (by rwa [definition_of]) comment
  rw [definition_of] at hline
  exact ⟨_, hline, resolveModule_relativeModule _ hsegments⟩

/-- Relative names of modules are read as they are meant, and have no more dots than lead to the
outermost package. -/
theorem relativeModule_leadsToTarget (package : List String)
    (htarget : ∀ segment ∈ target, IsSegment segment) :
    resolveModule package (relativeModule package target) = some target ∧
      leadingDots (relativeModule package target) ≤ package.length + 1 := by
  constructor
  · exact resolveModule_relativeModule package htarget
  · exact leadingDots_relativeModule_le package htarget

/-- A package as a module two levels further in names it: the name is dots alone. -/
theorem relativeModule_leadsToTarget_enclosing :
    (∀ segment ∈ ["api"], IsSegment segment) ∧
      relativeModule ["api", "core", "v1"] ["api"] = "..." ∧
      resolveModule ["api", "core", "v1"] "..." = some ["api"] ∧ leadingDots "..." ≤ 4 := by
  have htarget : ∀ segment ∈ ["api"], IsSegment segment := by decide
  have hname : relativeModule ["api", "core", "v1"] ["api"] = "..." := by decide +kernel
  have hleads := relativeModule_leadsToTarget ["api", "core", "v1"] htarget
  rw [hname] at hleads
  exact ⟨htarget, hname, hleads⟩

end SchemaModules.Python
