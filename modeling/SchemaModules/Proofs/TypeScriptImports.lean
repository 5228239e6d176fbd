import SchemaModules.Proofs.GeneratedPaths
import SchemaModules.Proofs.JoinedPaths

/-!
# Imports of TypeScript modules

An import names a module by the way to it from the directory of the importing module. Joined to that
directory and followed from the root, such a name comes to the module that was meant, and no part of
it goes up from the root.
-/

namespace SchemaModules.TypeScript

open Naming Text

variable {first part : String} {parts source target above shared up down : List String}

/-! ## Following a path -/

/-- One step along a path that may not leave the root: nothing, if the step goes up from it. -/
def enter? (above : List String) (part : String) : Option (List String) :=
  if part = ".." then above.tail? else some (enter above part)

/-- What a path comes to when it is followed from the root part by part: nothing, if it ever goes up
from the root. -/
def reach? (path : String) : Option (List String) :=
  ((splitParts '/' path).foldlM enter? []).map List.reverse

/-- What is reached within the root is what the path resolves to. -/
theorem resolvePath_of_reach {path : String} (h : reach? path = some target) :
    resolvePath path = target := by
  have hfold : ∀ {parts above found : List String}, parts.foldlM enter? above = some found →
      parts.foldl enter above = found := by
    intro parts
    induction parts with
    | nil => exact Option.some.inj
    | cons part parts ih =>
      intro above found hfound
      obtain ⟨next, hnext, hrest⟩ := Option.bind_eq_some_iff.mp hfound
      have henter : enter above part = next := by
        rw [enter?] at hnext
        split at hnext
        · next hup =>
          cases above with
          | nil => cases hnext
          | cons directory above => simpa [enter, hup] using hnext
        · exact Option.some.inj hnext
      rw [List.foldl_cons, henter]
      exact ih hrest
  obtain ⟨found, hfound, rfl⟩ := Option.map_eq_some_iff.mp h
  rw [resolvePath, hfold hfound]

theorem enter?_of_isPlain (h : IsPlain part) (above : List String) :
    enter? above part = some (part :: above) := by
  have hdots : part ≠ ".." := by
    rintro rfl
    exact h.no_dot (by decide)
  have hdot : part ≠ "." := by
    rintro rfl
    exact h.no_dot (by decide)
  simp [enter?, enter, hdots, hdot, h.ne_empty]

theorem foldlM_enter?_plain (hplain : ∀ part ∈ parts, IsPlain part) (above : List String) :
    parts.foldlM enter? above = some (parts.reverse ++ above) := by
  induction parts generalizing above with
  | nil => rfl
  | cons part parts ih =>
    obtain ⟨hpart, hrest⟩ := List.forall_mem_cons.mp hplain
    rw [List.foldlM_cons, enter?_of_isPlain hpart, Option.bind_eq_bind, Option.bind_some, ih hrest]
    simp

/-- The parts that lead up by a number of directories. Going nowhere takes a part as well. -/
def upward : Nat → List String
  | 0 => ["."]
  | n => List.replicate n ".."

theorem foldlM_enter?_upward (left above : List String) :
    (upward left.length).foldlM enter? (left ++ above) = some above := by
  have hparents : (List.replicate left.length "..").foldlM enter? (left ++ above) = some above := by
    induction left with
    | nil => rfl
    | cons directory left ih =>
      rw [List.length_cons, List.replicate_succ, List.foldlM_cons]
      exact ih
  cases left with
  | nil => simp [upward, enter?, enter]
  | cons directory left => exact hparents

theorem foldl_step_concat {last : String} (hplain : ∀ part ∈ parts, IsPlain part)
    (hfirst : first ≠ "") (hend : first.toList.getLast? ≠ some '/')
    (hlast : last.toList.head? ≠ some '/') :
    (parts ++ [last]).foldl joinPath.step first = join "/" (first :: (parts ++ [last])) := by
  -- The text so far never ends in a slash, so each step puts one behind it.
  have hstep {next : String} (hnext : next.toList.head? ≠ some '/') {before : String}
      (hbefore : before ≠ "") (hopen : before.toList.getLast? ≠ some '/') :
      joinPath.step before next = before ++ "/" ++ next := by
    simp [joinPath.step, hnext, hbefore, hopen]
  induction parts generalizing first with
  | nil => exact hstep hlast hfirst hend
  | cons part parts ih =>
    obtain ⟨hpart, hrest⟩ := List.forall_mem_cons.mp hplain
    have hhead : part.toList.head? ≠ some '/' := fun hslash ↦
      hpart.no_slash (List.mem_of_mem_head? hslash)
    have hpartEnd : (first ++ "/" ++ part).toList.getLast? ≠ some '/' := by
      have hsome : part.toList ≠ [] := by simpa using hpart.ne_empty
      rw [String.toList_append, List.getLast?_append, List.getLast?_eq_some_getLast hsome]
      intro hslash
      exact hpart.no_slash (Option.some.inj hslash ▸ List.getLast_mem hsome)
    rw [List.cons_append, List.foldl_cons, hstep hhead hfirst hend,
      ih hrest (by simp) hpartEnd]
    rfl

/-- Plain parts are joined by slashes, whatever the last one is, unless it begins with a slash. -/
theorem joinPath_concat {last : String} (hplain : ∀ part ∈ parts, IsPlain part)
    (hlast : last.toList.head? ≠ some '/') :
    joinPath (parts ++ [last]) = join "/" (parts ++ [last]) := by
  cases parts with
  | nil => rfl
  | cons first parts =>
    obtain ⟨hfirst, hrest⟩ := List.forall_mem_cons.mp hplain
    have hend : first.toList.getLast? ≠ some '/' := fun hslash ↦
      hfirst.no_slash (List.mem_of_mem_getLast? hslash)
    exact foldl_step_concat hrest hfirst.ne_empty hend hlast

theorem joinPath_plain (hplain : ∀ part ∈ parts, IsPlain part) :
    joinPath parts = join "/" parts := by
  rcases List.eq_nil_or_concat' parts with rfl | ⟨before, last, rfl⟩
  · rfl
  · have hlast : IsPlain last := hplain last (by simp)
    apply joinPath_concat
    · exact fun part hpart ↦ hplain part (List.mem_append_left _ hpart)
    · exact fun hslash ↦ hlast.no_slash (List.mem_of_mem_head? hslash)

theorem reach?_join (hne : parts ≠ []) (hslash : ∀ part ∈ parts, '/' ∉ part.toList) :
    reach? (join "/" parts) = (parts.foldlM enter? []).map List.reverse := by
  rw [reach?, show "/" = String.singleton '/' from rfl, splitParts_join hne hslash]

/-- The text of a plain path leads to it. -/
theorem resolvePath_joinPath (hplain : ∀ part ∈ parts, IsPlain part) :
    resolvePath (joinPath parts) = parts := by
  rw [joinPath_plain hplain]
  by_cases hne : parts = []
  · subst hne
    decide
  · apply resolvePath_of_reach
    rw [reach?_join hne fun part hpart ↦ (hplain part hpart).no_slash, foldlM_enter?_plain hplain]
    simp

/-! ## Names of modules -/

/-- A way that begins with a dot, as the name of a module has to. -/
def dotted (way : String) : String := if way.toList.head? = some '.' then way else "./" ++ way

theorem relativeImport_eq_ok (source : List String) (hne : target ≠ [])
    (hsegments : ∀ segment ∈ target, segment ≠ "") :
    relativeImport source target = .ok (dotted (relativePath
      (resolvePath (joinPath source.dropLast)) (resolvePath (joinPath target)))) := by
  obtain ⟨first, rest, rfl⟩ := List.exists_cons_of_ne_nil hne
  have hpath : joinPath (first :: rest) ≠ "" :=
    joinPath_ne_empty (hsegments first List.mem_cons_self) rest
  simp [relativeImport, dotted, hpath, pure, Except.pure]

/-- The way between two directories goes up from the first and down to the second. -/
theorem dotted_relativePath (hdown : ∀ part ∈ down, IsPlain part)
    (h : sharedLength (shared ++ up) (shared ++ down) = shared.length) :
    dotted (relativePath (shared ++ up) (shared ++ down)) =
      join "/" (upward up.length ++ down) := by
  have hup : (shared ++ up).length - shared.length = up.length := by simp
  have hrest : (shared ++ down).drop shared.length = down := by simp
  rw [relativePath, h, hup, hrest]
  cases up with
  | nil =>
    cases down with
    | nil => rfl
    | cons first rest =>
      have hfirst := hdown first List.mem_cons_self
      have hhead : (join "/" (first :: rest)).toList.head? ≠ some '.' := by
        rw [head?_join_cons "/" rest hfirst.ne_empty]
        exact fun hdot ↦ hfirst.no_dot (List.mem_of_mem_head? hdot)
      calc dotted (join "/" (first :: rest))
        _ = "./" ++ join "/" (first :: rest) := if_neg hhead
        _ = "." ++ "/" ++ join "/" (first :: rest) := rfl
        _ = join "/" ("." :: first :: rest) := String.intercalate_cons_cons.symm
  | cons directory up =>
    have hhead : (join "/" (List.replicate (up.length + 1) ".." ++ down)).toList.head? =
        some '.' := by
      rw [List.replicate_succ, List.cons_append, head?_join_cons "/" _ (by decide)]
      rfl
    exact if_pos hhead

theorem upward_ne_nil (n : Nat) : upward n ≠ [] := by
  cases n <;> simp [upward]

theorem head?_join_upward (n : Nat) (rest : List String) :
    (join "/" (upward n ++ rest)).toList.head? = some '.' := by
  cases n with
  | zero => exact head?_join_cons "/" rest (by decide)
  | succ n =>
    rw [upward, List.replicate_succ, List.cons_append, head?_join_cons "/" _ (by decide)]
    · rfl
    · simp

theorem slash_notMem_upward (n : Nat) : ∀ part ∈ upward n, '/' ∉ part.toList := by
  cases n with
  | zero => decide
  | succ n =>
    intro part hpart
    rw [List.eq_of_mem_replicate hpart]
    decide

/-- From the directory of a module, the name of another leads there within the root. -/
theorem reach?_joinPath (hdirectory : ∀ part ∈ shared ++ up, IsPlain part)
    (hdown : ∀ part ∈ down, IsPlain part) :
    reach? (joinPath (shared ++ up ++ [join "/" (upward up.length ++ down)])) =
      some (shared ++ down) := by
  have hsome : upward up.length ++ down ≠ [] :=
    List.append_ne_nil_of_left_ne_nil (upward_ne_nil _) _
  have hlast : (join "/" (upward up.length ++ down)).toList.head? ≠ some '/' := by
    rw [head?_join_upward]
    decide
  have hslash : ∀ part ∈ shared ++ up ++ (upward up.length ++ down), '/' ∉ part.toList := by
    intro part hpart
    rcases List.mem_append.mp hpart with hmem | hmem
    · exact (hdirectory part hmem).no_slash
    · rcases List.mem_append.mp hmem with hmem | hmem
      · exact slash_notMem_upward _ part hmem
      · exact (hdown part hmem).no_slash
  -- The way leads down the directory, back up to what is common, and down to the target.
  have hback := foldlM_enter?_upward up.reverse shared.reverse
  rw [List.length_reverse] at hback
  calc reach? (joinPath (shared ++ up ++ [join "/" (upward up.length ++ down)]))
    _ = reach? (join "/" (shared ++ up ++ (upward up.length ++ down))) := by
      rw [joinPath_concat hdirectory hlast, join_concat_join hsome]
    _ = ((shared ++ up ++ (upward up.length ++ down)).foldlM enter? []).map List.reverse :=
      reach?_join (List.append_ne_nil_of_right_ne_nil _ hsome) hslash
    _ = some (shared ++ down) := by
      rw [List.foldlM_append, foldlM_enter?_plain hdirectory, Option.bind_eq_bind, Option.bind_some,
        List.append_nil, List.reverse_append, List.foldlM_append, hback, Option.bind_eq_bind,
        Option.bind_some, foldlM_enter?_plain hdown]
      simp

/-- The name of a module goes up to the last common directory and down from there. -/
theorem exists_relativeImport_eq_join (hsource : ∀ segment ∈ source, IsPlain segment)
    (hne : target ≠ []) (htarget : ∀ segment ∈ target, IsPlain segment) :
    ∃ shared up down, source.dropLast = shared ++ up ∧ target = shared ++ down ∧
      relativeImport source target = .ok (join "/" (upward up.length ++ down)) := by
  have hdirectory : ∀ segment ∈ source.dropLast, IsPlain segment := fun segment hsegment ↦
    hsource segment (List.dropLast_subset source hsegment)
  have hname := relativeImport_eq_ok source hne fun segment hsegment ↦
    (htarget segment hsegment).ne_empty
  rw [resolvePath_joinPath hdirectory, resolvePath_joinPath htarget] at hname
  obtain ⟨shared, up, down, hshared, rfl, hlength⟩ :=
    exists_append_of_commonLength source.dropLast target
  rw [hshared, ← sharedLength_eq_commonLength] at hlength
  have hdown : ∀ segment ∈ down, IsPlain segment := fun segment hsegment ↦
    htarget segment (List.mem_append_right _ hsegment)
  rw [hshared, dotted_relativePath hdown hlength] at hname
  exact ⟨shared, up, down, hshared, rfl, hname⟩

theorem reach?_relativeImport {name : String} (hsource : ∀ segment ∈ source, IsPlain segment)
    (hne : target ≠ []) (htarget : ∀ segment ∈ target, IsPlain segment)
    (h : relativeImport source target = .ok name) :
    reach? (joinPath (source.dropLast ++ [name])) = some target := by
  obtain ⟨shared, up, down, hshared, rfl, hname⟩ :=
    exists_relativeImport_eq_join hsource hne htarget
  obtain rfl := Except.ok.inj (hname.symm.trans h)
  have hdirectory : ∀ segment ∈ shared ++ up, IsPlain segment := fun segment hsegment ↦
    hsource segment (List.dropLast_subset source (hshared ▸ hsegment))
  rw [hshared]
  exact reach?_joinPath hdirectory fun segment hsegment ↦
    htarget segment (List.mem_append_right _ hsegment)

/-- Each dependency of a definition is imported by lines whose name leads to the dependency. -/
theorem exists_import_reaching {definition : Definition} {dependency : Names}
    {comment text : String} (hsource : ∀ segment ∈ definition.names.path, IsPlain segment)
    (hne : dependency.path ≠ []) (htarget : ∀ segment ∈ dependency.path, IsPlain segment)
    (hmem : dependency ∈ definition.dependencies) (h : render definition comment = .ok text) :
    ∃ imported, HasLines text ["import \x7b", dependency.interfaceName ++ ",",
        dependency.addSchemaName, "\x7d from \"" ++ imported ++ "\";"] ∧
      reach? (joinPath (definition.names.path.dropLast ++ [imported])) = some dependency.path := by
  obtain ⟨lines, hlines, htext⟩ := hasLines_dependencyImport hmem h
  obtain ⟨imported, himported, hreturned⟩ := bind_eq_ok_iff.mp hlines
  obtain rfl := Except.ok.inj hreturned
  exact ⟨imported, htext, reach?_relativeImport hsource hne htarget himported⟩

/-- The name of a module begins with a dot, and leads to it from the directory of the importing
module without leaving the output root. -/
theorem relativeImport_leadsToTarget (hsource : ∀ segment ∈ source, IsPlain segment)
    (hne : target ≠ []) (htarget : ∀ segment ∈ target, IsPlain segment) :
    ∃ name, relativeImport source target = .ok name ∧ name.toList.head? = some '.' ∧
      reach? (joinPath (source.dropLast ++ [name])) = some target := by
  obtain ⟨shared, up, down, -, -, hname⟩ := exists_relativeImport_eq_join hsource hne htarget
  refine ⟨_, hname, ?_, ?_⟩
  · exact head?_join_upward up.length down
  · exact reach?_relativeImport hsource hne htarget hname

/-- A module in a directory beside that of the importing one. -/
theorem relativeImport_leadsToTarget_beside :
    ((∀ segment ∈ ["api", "apps", "Set"], IsPlain segment) ∧ ["api", "core", "Pod"] ≠ [] ∧
      ∀ segment ∈ ["api", "core", "Pod"], IsPlain segment) ∧
    relativeImport ["api", "apps", "Set"] ["api", "core", "Pod"] = .ok "../core/Pod" ∧
      reach? (joinPath (["api", "apps", "Set"].dropLast ++ ["../core/Pod"])) =
        some ["api", "core", "Pod"] := by
  have hsource : ∀ segment ∈ ["api", "apps", "Set"], IsPlain segment := by decide
  have htarget : ∀ segment ∈ ["api", "core", "Pod"], IsPlain segment := by decide
  have hne : ["api", "core", "Pod"] ≠ [] := List.cons_ne_nil _ _
  have hname : relativeImport ["api", "apps", "Set"] ["api", "core", "Pod"] =
      .ok "../core/Pod" := rfl
  obtain ⟨name, hfound, -, hreach⟩ := relativeImport_leadsToTarget hsource hne htarget
  obtain rfl := Except.ok.inj (hfound.symm.trans hname)
  exact ⟨⟨hsource, hne, htarget⟩, hname, hreach⟩

end SchemaModules.TypeScript
