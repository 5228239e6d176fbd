import SchemaModules.Proofs.DocumentMembers
import SchemaModules.Proofs.JsonPaths

/-!
# Paths into registry documents

A path leads somewhere in a registry document exactly when it does so in the schema, with the type
of the root added, and no key on it is documentation. What it leads to is what stands in the schema,
rewritten as the last step demands.
-/

namespace SchemaModules.Schema

open Json (Step)

variable {lead key : String} {members : List (String × Json)}

def isDocumentationStep : Step → Bool
  | .key name => isDocumentation name
  | .index _ => false

/-! ## Steps and paths -/

/-- What a value one step down becomes in a document. -/
def documentStep (lead : String) : Step → Json → Json
  | .key name => documentMember lead name
  | .index _ => withoutDocumentation

theorem child?_withoutDocumentation (value : Json) (step : Step) :
    (withoutDocumentation value).child? step =
      if isDocumentationStep step then none
      else (value.child? step).map withoutDocumentation := by
  cases value with
  | obj members =>
    cases step with
    | key name =>
      simp only [withoutDocumentation, Json.child?, isDocumentationStep]
      exact lookup_membersWithoutDocumentation name members
    | index place => simp [withoutDocumentation, Json.child?, isDocumentationStep]
  | arr items =>
    cases step with
    | key name => simp [withoutDocumentation, Json.child?]
    | index place =>
      simp [withoutDocumentation, Json.child?, isDocumentationStep,
        itemsWithoutDocumentation_eq_map]
  | _ => simp [withoutDocumentation, Json.child?]

theorem child?_documentMember (lead key : String) (value : Json) (step : Step) :
    (documentMember lead key value).child? step =
      if isDocumentationStep step then none
      else (value.child? step).map (documentStep lead step) := by
  cases value with
  | obj members =>
    cases step with
    | key name =>
      simp only [documentMember_obj, Json.child?, isDocumentationStep]
      exact lookup_documentMembers lead name members
    | index place => simp [Json.child?, isDocumentationStep]
  | arr items =>
    rw [documentMember_arr, child?_withoutDocumentation]
    cases step <;> rfl
  | str text => by_cases hkey : key = "$ref" <;> simp [documentMember, hkey, Json.child?]
  | _ => simp [documentMember, withoutDocumentation, Json.child?]

/-- What a value at the end of a path becomes in a document, below the member `key`. -/
def documentAt (lead key : String) : List Step → Json → Json
  | [] => documentMember lead key
  | .key name :: path => documentAt lead name path
  | .index _ :: _ => withoutDocumentation

theorem follow_withoutDocumentation (value : Json) (path : List Step) :
    (withoutDocumentation value).follow path =
      if path.any isDocumentationStep then none
      else (value.follow path).map withoutDocumentation := by
  induction path generalizing value with
  | nil => simp
  | cons step path ih =>
    rw [Json.follow_cons, Json.follow_cons, child?_withoutDocumentation, List.any_cons]
    by_cases hstep : isDocumentationStep step
    · simp [hstep]
    · rw [if_neg hstep, Bool.eq_false_iff.mpr hstep, Bool.false_or]
      cases value.child? step with
      | none => simp
      | some child => simpa using ih child

theorem follow_documentMember (lead key : String) (value : Json) (path : List Step) :
    (documentMember lead key value).follow path =
      if path.any isDocumentationStep then none
      else (value.follow path).map (documentAt lead key path) := by
  induction path generalizing key value with
  | nil => simp [documentAt]
  | cons step path ih =>
    rw [Json.follow_cons, Json.follow_cons, child?_documentMember, List.any_cons]
    by_cases hstep : isDocumentationStep step
    · simp [hstep]
    · rw [if_neg hstep, Bool.eq_false_iff.mpr hstep, Bool.false_or]
      cases value.child? step with
      | none => simp
      | some child =>
        cases step with
        | key name => simpa [documentStep, documentAt] using ih name child
        | index place =>
          simpa [documentStep, documentAt] using follow_withoutDocumentation child path

/-- Through objects alone the last key decides. -/
theorem documentAt_keys {path : List Step} (hkeys : ∀ step ∈ path, step.isKey = true)
    (name : String) : documentAt lead key (path ++ [.key name]) = documentMember lead name := by
  induction path generalizing key with
  | nil => rfl
  | cons step path ih =>
    cases step with
    | key other => exact ih fun step hstep ↦ hkeys step (List.mem_cons_of_mem _ hstep)
    | index place => simp [Json.Step.isKey] at hkeys

/-- Inside an array nothing but documentation changes. -/
theorem documentAt_index {path : List Step} (hindex : ∃ step ∈ path, step.isKey = false) :
    documentAt lead key path = withoutDocumentation := by
  induction path generalizing key with
  | nil => simp at hindex
  | cons step path ih =>
    cases step with
    | key other =>
      apply ih
      simpa [Json.Step.isKey] using hindex
    | index place => rfl

/-- What a registry document has at a place. -/
theorem follow_registryDocument {name : String} (hname : name ≠ intOrStringName)
    (path : List Step) :
    (registryDocument lead name (.obj members)).follow path =
      if path.any isDocumentationStep then none
      else ((Json.obj (withRootType members)).follow path).map (documentAt lead "" path) := by
  rw [registryDocument_obj hname, follow_documentMember]

/-! ## The type of the root -/

theorem lookup_setMember (key name : String) (value : Json) (members : List (String × Json)) :
    (Json.setMember name value members).lookup key =
      if key = name then some value else members.lookup key := by
  induction members with
  | nil =>
    by_cases hkey : key = name
    · simp [Json.setMember, hkey]
    · simp [Json.setMember, List.lookup_cons, beq_eq_false_iff_ne.mpr hkey, hkey]
  | cons member rest ih =>
    obtain ⟨first, other⟩ := member
    rw [Json.setMember]
    by_cases hfirst : first = name
    · subst hfirst
      by_cases hkey : key = first
      · simp [hkey]
      · simp [List.lookup_cons, beq_eq_false_iff_ne.mpr hkey, hkey]
    · rw [if_neg hfirst, List.lookup_cons, List.lookup_cons, ih]
      by_cases hkey : key = first
      · subst hkey
        simp [hfirst]
      · simp [beq_eq_false_iff_ne.mpr hkey]

/-- The type of the root is all that is added: where it is, nothing was below its key. -/
theorem follow_withRootType {path : List Step} (hroot : path ≠ []) (htype : path ≠ [.key "type"]) :
    (Json.obj (withRootType members)).follow path = (Json.obj members).follow path := by
  rw [withRootType]
  split
  · rfl
  · rename_i hsilent
    simp only [Bool.or_eq_true, not_or, Bool.not_eq_true] at hsilent
    cases path with
    | nil => exact absurd rfl hroot
    | cons step path =>
      rw [Json.follow_cons, Json.follow_cons]
      cases step with
      | index place => rfl
      | key name =>
        rw [Json.child?, Json.child?, lookup_setMember]
        by_cases hname : name = "type"
        · subst hname
          rw [if_pos rfl]
          cases path with
          | nil => exact absurd rfl htype
          | cons second rest =>
            cases hlookup : members.lookup "type" with
            | none => rfl
            | some value =>
              rw [hlookup] at hsilent
              have hvalue := Json.child?_eq_none_of_not_truthy hsilent.1 second
              have htext : (Json.str "object").child? second = none := rfl
              simp [Json.follow_cons, hvalue, htext]
        · rw [if_neg hname]

end SchemaModules.Schema
