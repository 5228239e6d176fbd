import SchemaModules.Proofs.FallibleSteps
import SchemaModules.Proofs.NestedValues
import SchemaModules.Proofs.VerdictOrder

/-!
# Checks made by checks

To check an instance against a schema, other checks are made: with schemas that stand in the
keywords, of the same instance or of what is in it, and with the schemas that references lead to.
The verdict depends on the verdicts of these, and on nothing else that registries differ in.
-/

namespace SchemaModules.Validation

variable {documents others : Documents} {first second : Descent}
  {document keyword schema value inner : Json} {schemas items rest : List Json}
  {members : List (String × Json)} {key text : String}

/-! ## Keywords -/

/-- What a keyword may apply to what: schemas inside its value, or what is no schema, to the
instance itself or to something less deep. -/
structure Applies (keyword value schema inner : Json) : Prop where
  schema : schema ∈ keyword.values ∨ schema.isObject = false
  inner : inner = value ∨ inner.depth < value.depth

theorem Applies.of_itemsOf (hitems : itemsOf keyword = .ok items) (hschema : schema ∈ items) :
    Applies keyword value schema value := by
  refine ⟨?_, Or.inl rfl⟩
  cases keyword with
  | arr entries =>
    cases hitems
    exact Or.inl (Json.mem_values_of_item hschema)
  | str text =>
    cases hitems
    obtain ⟨c, _, rfl⟩ := List.mem_map.mp hschema
    exact Or.inr rfl
  | obj entries =>
    cases hitems
    obtain ⟨entry, _, rfl⟩ := List.mem_map.mp hschema
    exact Or.inr rfl
  | _ => cases hitems

theorem mem_of_mem_undeclared {properties : Option Json} {extras : List (String × Json)}
    (h : undeclared properties members = .ok extras) {member : String × Json}
    (hmember : member ∈ extras) : member ∈ members := by
  induction members generalizing extras with
  | nil =>
    cases h
    cases hmember
  | cons entry others ih =>
    obtain ⟨name, value⟩ := entry
    obtain ⟨declared, -, hrest⟩ := bind_eq_ok_iff.mp h
    obtain ⟨found, hfound, hextras⟩ := bind_eq_ok_iff.mp hrest
    obtain rfl := Except.ok.inj hextras
    split at hmember
    · exact List.mem_cons_of_mem _ (ih hfound hmember)
    · rcases List.mem_cons.mp hmember with rfl | hothers
      · exact List.mem_cons_self
      · exact List.mem_cons_of_mem _ (ih hfound hothers)

theorem subset_of_afterMatch {descend : Descent}
    (h : afterMatch descend value items = .ok (some rest)) : rest ⊆ items := by
  induction items with
  | nil => cases h
  | cons schema others ih =>
    obtain ⟨matching, -, hrest⟩ := bind_eq_ok_iff.mp h
    split at hrest
    · obtain rfl := Option.some.inj (Except.ok.inj hrest)
      exact List.subset_cons_self _ _
    · exact List.Subset.trans (ih hrest) (List.subset_cons_self _ _)

theorem afterMatch_approximates
    (h : ∀ schema ∈ items, (first schema value).Approximates (second schema value)) :
    ApproximatesAnswer (afterMatch first value items) (afterMatch second value items) := by
  induction items with
  | nil => exact .refl _
  | cons schema others ih =>
    obtain ⟨hschema, hothers⟩ := List.forall_mem_cons.mp h
    refine hschema.thorough.bind fun matching _ ↦ ?_
    split
    · exact .refl _
    · exact ih hothers

theorem countMatches_approximates
    (h : ∀ schema ∈ items, (first schema value).Approximates (second schema value)) :
    ApproximatesAnswer (countMatches first value items) (countMatches second value items) := by
  induction items with
  | nil => exact .refl _
  | cons schema others ih =>
    obtain ⟨hschema, hothers⟩ := List.forall_mem_cons.mp h
    refine hschema.quick.bind fun matching _ ↦ ?_
    exact (ih hothers).bind fun _ _ ↦ .refl _

section Keywords

variable (h : ∀ schema inner, Applies keyword value schema inner →
  (first schema inner).Approximates (second schema inner))

include h

theorem checkProperties_approximates :
    (checkProperties first keyword value).Approximates (checkProperties second keyword value) := by
  unfold checkProperties
  split
  · rename_i members schemas
    apply Verdict.approximates_all
    intro property hproperty
    cases hmember : members.lookup property.1 with
    | none => simp only [hmember]; rfl
    | some member =>
      simp only [hmember]
      exact h _ _ ⟨Or.inl (Json.mem_values_of_member hproperty),
        Or.inr (Json.depth_lt_of_mem_members (mem_of_lookup hmember))⟩
  · rfl
  · rfl

theorem checkAdditional_approximates (properties : Option Json) :
    (checkAdditional first properties keyword value).Approximates
      (checkAdditional second properties keyword value) := by
  unfold checkAdditional
  split
  · split
    · rfl
    · rename_i extras hextras
      split
      · apply Verdict.approximates_all
        intro member hmember
        exact h _ _ ⟨Or.inl keyword.mem_values_self,
          Or.inr (Json.depth_lt_of_mem_members (mem_of_mem_undeclared hextras hmember))⟩
      · rfl
  · rfl

theorem checkItems_approximates :
    (checkItems first keyword value).Approximates (checkItems second keyword value) := by
  unfold checkItems
  split
  · apply Verdict.approximates_all
    intro pair hpair
    obtain ⟨hschema, hitem⟩ := List.of_mem_zip hpair
    exact h _ _ ⟨Or.inl (Json.mem_values_of_item hschema),
      Or.inr (Json.depth_lt_of_mem_items hitem)⟩
  · apply Verdict.approximates_all
    intro item hitem
    exact h _ _ ⟨Or.inl keyword.mem_values_self, Or.inr (Json.depth_lt_of_mem_items hitem)⟩
  · rfl

theorem checkAllOf_approximates :
    (checkAllOf first keyword value).Approximates (checkAllOf second keyword value) := by
  unfold checkAllOf
  split
  · rename_i schemas hschemas
    apply Verdict.approximates_all
    intro schema hschema
    exact h _ _ (.of_itemsOf hschemas hschema)
  · rfl

theorem checkAnyOf_approximates :
    ApproximatesAnswer (checkAnyOf first keyword value) (checkAnyOf second keyword value) := by
  refine (ApproximatesAnswer.refl (itemsOf keyword)).bind fun schemas hschemas ↦ ?_
  have hitems := afterMatch_approximates fun schema hschema ↦
    h schema value (.of_itemsOf hschemas hschema)
  exact hitems.bind fun _ _ ↦ .refl _

theorem checkOneOf_approximates :
    ApproximatesAnswer (checkOneOf first keyword value) (checkOneOf second keyword value) := by
  refine (ApproximatesAnswer.refl (itemsOf keyword)).bind fun schemas hschemas ↦ ?_
  have hitems : ∀ schema ∈ schemas, (first schema value).Approximates (second schema value) :=
    fun schema hschema ↦ h schema value (.of_itemsOf hschemas hschema)
  refine (afterMatch_approximates hitems).bind fun found hfound ↦ ?_
  cases found with
  | none => exact .refl _
  | some rest =>
    have hrest := countMatches_approximates fun schema hschema ↦
      hitems schema (subset_of_afterMatch hfound hschema)
    exact hrest.bind fun _ _ ↦ .refl _

theorem checkNot_approximates :
    ApproximatesAnswer (checkNot first keyword value) (checkNot second keyword value) := by
  have hschema := h keyword value ⟨Or.inl keyword.mem_values_self, Or.inl rfl⟩
  exact hschema.quick.bind fun _ _ ↦ .refl _

/-- Keywords without schemas in them make no checks at all. -/
theorem checkKeyword_approximates {firstReference secondReference : Json → Json → Verdict}
    (hreference : key = "$ref" →
      (firstReference keyword value).Approximates (secondReference keyword value)) :
    (checkKeyword first firstReference members key keyword value).Approximates
      (checkKeyword second secondReference members key keyword value) := by
  unfold checkKeyword
  split
  · exact hreference rfl
  · rfl
  · exact checkProperties_approximates h
  · rfl
  · exact checkAdditional_approximates h _
  · exact checkItems_approximates h
  · rfl
  · rfl
  · exact checkAllOf_approximates h
  · exact Verdict.approximates_ofExcept (checkAnyOf_approximates h)
  · exact Verdict.approximates_ofExcept (checkOneOf_approximates h)
  · exact Verdict.approximates_ofExcept (checkNot_approximates h)
  all_goals rfl

end Keywords

/-! ## Schemas -/

/-- The checks of a schema, when `descendIn` stands for the checks that it makes. -/
def evaluate (documents : Documents) (descendIn : Json → Descent) (document schema value : Json) :
    Verdict :=
  match schema with
  | .bool accepts => .require accepts
  | .obj members =>
    .all (fun (key, keyword) ↦
      checkKeyword (descendIn document) (checkReference documents descendIn document) members key
        keyword value)
      (effective members)
  | _ => .failed .missingPart

theorem check_succ (documents : Documents) (fuel : Nat) (document schema value : Json) :
    check documents (fuel + 1) document schema value =
      evaluate documents (check documents fuel) document schema value := by
  cases schema <;> rfl

/-- The check of a schema that is no mapping makes no other. -/
theorem check_of_not_object (documents others : Documents) (fuel otherFuel : Nat)
    (hobject : schema.isObject = false) :
    check documents (fuel + 1) document schema value =
      check others (otherFuel + 1) document schema value := by
  cases schema with
  | obj members => cases hobject
  | _ => rfl

/-- The checks that the check of an instance may make, with the document that the schema is in. -/
inductive Calls (documents : Documents) (document schema value : Json) : Json → Json → Json → Prop
  | keyword {inner found : Json} (hschema : found ∈ schema.values ∨ found.isObject = false)
      (hinner : inner = value ∨ inner.depth < value.depth) :
    Calls documents document schema value document found inner
  | reference {members : List (String × Json)} {text : String} {target found : Json}
      (hschema : schema = .obj members) (hmember : ("$ref", .str text) ∈ members)
      (hresolve : resolve documents document text = .ok (target, found)) :
    Calls documents document schema value target found value

theorem mem_of_mem_effective {member : String × Json} (h : member ∈ effective members) :
    member ∈ members := by
  unfold effective at h
  split at h
  · exact h
  · exact h
  · rename_i hlookup
    rw [List.mem_singleton.mp h]
    exact mem_of_lookup hlookup

/-- Two checks compare as those that they make, in registries that resolve the references of the
schema alike. -/
theorem evaluate_approximates {first second : Json → Descent}
    (hresolve : ∀ {members text}, schema = .obj members → ("$ref", .str text) ∈ members →
      resolve documents document text = resolve others document text)
    (hcalls : ∀ {target found inner}, Calls documents document schema value target found inner →
      (first target found inner).Approximates (second target found inner)) :
    (evaluate documents first document schema value).Approximates
      (evaluate others second document schema value) := by
  cases schema with
  | obj members =>
    apply Verdict.approximates_all
    rintro ⟨key, keyword⟩ hmember
    have hmem := mem_of_mem_effective hmember
    apply checkKeyword_approximates
    · intro found inner happlies
      exact hcalls (.keyword (happlies.schema.imp_left
        fun hfound ↦ Json.values_subset (Json.mem_values_of_member hmem) hfound) happlies.inner)
    · rintro rfl
      unfold checkReference
      split
      · rename_i text
        rw [← hresolve rfl hmem]
        cases hresolved : resolve documents document text with
        | error fault => rfl
        | ok result => exact hcalls (.reference rfl hmem hresolved)
      · rfl
  | _ => rfl

/-- Two checks agree if those that they make do. -/
theorem evaluate_congr {first second : Json → Descent}
    (hresolve : ∀ {members text}, schema = .obj members → ("$ref", .str text) ∈ members →
      resolve documents document text = resolve others document text)
    (hcalls : ∀ {target found inner}, Calls documents document schema value target found inner →
      first target found inner = second target found inner) :
    evaluate documents first document schema value =
      evaluate others second document schema value := by
  apply Verdict.Approximates.antisymm
  · exact evaluate_approximates hresolve fun hcall ↦ Or.inl (hcalls hcall)
  · apply evaluate_approximates fun hschema hmember ↦ (hresolve hschema hmember).symm
    intro target found inner hcall
    have hsame : Calls documents document schema value target found inner := by
      cases hcall with
      | keyword hfound hinner => exact .keyword hfound hinner
      | reference hschema hmember hresolved =>
        exact .reference hschema hmember ((hresolve hschema hmember).trans hresolved)
    exact Or.inl (hcalls hsame).symm

end SchemaModules.Validation
