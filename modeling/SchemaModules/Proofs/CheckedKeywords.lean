import SchemaModules.Proofs.Acceptance
import SchemaModules.Proofs.Lookup

/-!
# Checks that accept

The validator of the program follows draft 7. It accepts an instance when its check finds no
violation and comes to its end. Then every keyword that counts has accepted the instance, and the
keywords that types are made from say what they are meant to say. Schemas inside keywords are
checked by a function that stays a parameter up to the end.
-/

namespace SchemaModules

namespace Verdict

def Accepted (verdict : Verdict) : Prop := verdict.violated = false ∧ verdict.failure = none

@[simp]
theorem not_accepted_failed (fault : Fault) : ¬ (failed fault).Accepted := by
  simp [Accepted, failed]

@[simp]
theorem accepted_require {condition : Bool} : (require condition).Accepted ↔ condition = true := by
  simp [Accepted, require]

@[simp]
theorem accepted_ofExcept {answer : Except Fault Bool} :
    (ofExcept answer).Accepted ↔ answer = .ok true := by
  cases answer <;> simp [ofExcept]

theorem accepted_andThen {first : Verdict} {second : Unit → Verdict} :
    (first.andThen second).Accepted ↔ first.Accepted ∧ (second ()).Accepted := by
  rcases first with ⟨violated, failure | fault⟩
  · simp [andThen, Accepted, and_assoc]
  · simp [andThen, Accepted]

theorem accepted_all {α : Type} {check : α → Verdict} {list : List α} :
    (all check list).Accepted ↔ ∀ a ∈ list, (check a).Accepted := by
  induction list with
  | nil => simp [all, passed, Accepted]
  | cons a rest ih => rw [all, accepted_andThen, ih, List.forall_mem_cons]

theorem quick_eq_ok_true {verdict : Verdict} : verdict.quick = .ok true ↔ verdict.Accepted := by
  rcases verdict with ⟨_ | _, failure | fault⟩ <;> simp [quick, Accepted]

theorem thorough_eq_ok_true {verdict : Verdict} :
    verdict.thorough = .ok true ↔ verdict.Accepted := by
  rcases verdict with ⟨_ | _, failure | fault⟩ <;> simp [thorough, Accepted]

end Verdict

namespace Validation

variable {descend : Descent} {documents : Documents} {document value member item : Json}
  {members schemas : List (String × Json)} {items : List Json} {key name : String}

theorem checkType_str :
    checkType (.str name) value = .ok true ↔ ofType? name value = some true := by
  simp only [checkType, isOneOf]
  rcases ofType? name value with _ | _ | _ <;> simp

/-- A required text is a key of the instance. -/
theorem lookup_of_checkRequired
    (h : (checkRequired (.arr items) (.obj members)).Accepted) (hkey : .str key ∈ items) :
    (members.lookup key).isSome = true := by
  have hentry := Verdict.accepted_all.mp h _ hkey
  simpa [isKey] using hentry

theorem accepted_of_checkProperties
    (h : (checkProperties descend (.obj schemas) (.obj members)).Accepted) {schema : Json}
    (hschema : (key, schema) ∈ schemas) (hmember : members.lookup key = some member) :
    (descend schema member).Accepted := by
  have hentry := Verdict.accepted_all.mp h _ hschema
  simpa [hmember] using hentry

theorem exists_obj_of_checkProperties {properties : Json}
    (h : (checkProperties descend properties (.obj members)).Accepted) :
    ∃ schemas, properties = .obj schemas := by
  cases properties with
  | obj schemas => exact ⟨schemas, rfl⟩
  | _ => simp [checkProperties] at h

theorem mem_undeclared {properties : Option Json} {extras : List (String × Json)}
    (h : undeclared properties members = .ok extras) (hmember : (key, member) ∈ members)
    (hdeclared : isDeclared properties key = .ok false) : (key, member) ∈ extras := by
  induction members generalizing extras with
  | nil => cases hmember
  | cons first rest ih =>
    obtain ⟨name, value⟩ := first
    simp only [undeclared, bind, Except.bind, pure, Except.pure] at h
    split at h
    · cases h
    · rename_i declared hfirst
      split at h
      · cases h
      · rename_i others hothers
        cases h
        rcases List.mem_cons.mp hmember with heq | hrest
        · cases heq
          rw [hdeclared] at hfirst
          cases hfirst
          simp
        · have hmem := ih hothers hrest
          split
          · exact hmem
          · exact List.mem_cons_of_mem _ hmem

/-- A schema of additional properties holds for every member that is not declared. -/
theorem accepted_of_checkAdditional {properties : Option Json} {additional : Json}
    (h : (checkAdditional descend properties additional (.obj members)).Accepted)
    (hobject : additional.isObject = true) (hmember : (key, member) ∈ members)
    (hdeclared : isDeclared properties key = .ok false) :
    (descend additional member).Accepted := by
  simp only [checkAdditional] at h
  split at h
  · simp at h
  · rename_i extras hextras
    rw [if_pos hobject] at h
    exact Verdict.accepted_all.mp h _ (mem_undeclared hextras hmember hdeclared)

theorem accepted_of_checkItems {schema : Json}
    (h : (checkItems descend schema (.arr items)).Accepted) (hobject : schema.isObject = true)
    (hitem : item ∈ items) : (descend schema item).Accepted := by
  cases schema with
  | obj members => exact Verdict.accepted_all.mp h _ hitem
  | _ => cases hobject

/-- An instance that satisfies exactly one schema satisfies one. -/
theorem exists_of_afterMatch {rest : List Json}
    (h : afterMatch descend value items = .ok (some rest)) :
    ∃ schema ∈ items, (descend schema value).Accepted := by
  induction items with
  | nil => cases h
  | cons schema others ih =>
    simp only [afterMatch, bind, Except.bind, pure, Except.pure] at h
    split at h
    · cases h
    · rename_i matching hmatching
      split at h
      · rename_i hmatches
        subst hmatches
        exact ⟨schema, List.mem_cons_self, Verdict.thorough_eq_ok_true.mp hmatching⟩
      · obtain ⟨found, hmem, haccepted⟩ := ih h
        exact ⟨found, List.mem_cons_of_mem _ hmem, haccepted⟩

theorem exists_of_checkOneOf (h : checkOneOf descend (.arr items) value = .ok true) :
    ∃ schema ∈ items, (descend schema value).Accepted := by
  simp only [checkOneOf, itemsOf, bind, Except.bind, pure, Except.pure] at h
  split at h
  · cases h
  · rename_i result hresult
    split at h
    · cases h
    · exact exists_of_afterMatch hresult

/-- The ways for a mapping to accept an instance: through the reference that stands in it, or
keyword by keyword where there is none. -/
theorem accepted_check_obj {fuel : Nat}
    (h : (check documents (fuel + 1) document (.obj members) value).Accepted) :
    (∃ text target schema, members.lookup "$ref" = some (.str text) ∧
      resolve documents document text = .ok (target, schema) ∧
      (check documents fuel target schema value).Accepted) ∨
    (members.lookup "$ref" = none ∧ ∀ {key keyword}, members.lookup key = some keyword →
      (checkKeyword (check documents fuel document)
        (checkReference documents (check documents fuel) document) members key keyword
        value).Accepted) := by
  have hentries := Verdict.accepted_all.mp h
  cases hreference : members.lookup "$ref" with
  | none =>
    refine Or.inr ⟨rfl, ?_⟩
    intro key keyword hlookup
    have heffective : effective members = members := by simp [effective, hreference]
    rw [heffective] at hentries
    exact hentries (key, keyword) (mem_of_lookup hlookup)
  | some reference =>
    have hmem : ("$ref", reference) ∈ effective members := by
      cases reference with
      | null => simpa [effective, hreference] using mem_of_lookup hreference
      | _ => simp [effective, hreference]
    have hchecked : (checkReference documents (check documents fuel) document reference
        value).Accepted := hentries _ hmem
    cases reference with
    | str text =>
      refine Or.inl ?_
      simp only [checkReference] at hchecked
      split at hchecked
      · rename_i target schema hresolve
        exact ⟨text, target, schema, rfl, hresolve, hchecked⟩
      · simp at hchecked
    | _ => simp [checkReference] at hchecked

/-- Only mappings and truth values are schemas. -/
theorem accepted_check {fuel : Nat} {schema : Json}
    (h : (check documents fuel document schema value).Accepted) :
    ∃ less, fuel = less + 1 ∧ (schema = .bool true ∨ schema.isObject = true) := by
  cases fuel with
  | zero => simp [check] at h
  | succ less =>
    refine ⟨less, rfl, ?_⟩
    cases schema with
    | obj members => exact Or.inr rfl
    | bool accepts => simpa [check, Json.isObject] using h
    | _ => simp [check] at h

/-- The key of a name leads to the whole document of the name, if there is one. -/
def FlatKey (name : String) : Prop :=
  ∀ documents current, resolve documents current (name ++ "#") =
    match documents.lookup name with
    | some document => .ok (document, document)
    | none => .error .unresolvedReference

/-- Whether a name is not empty and holds no `#`. -/
def isFlat (name : String) : Bool := name != "" && !name.toList.contains '#'

theorem flatKey_of_isFlat {name : String} (h : isFlat name = true) : FlatKey name := by
  simp only [isFlat, Bool.and_eq_true, bne_iff_ne, Bool.not_eq_true', List.contains_eq_mem,
    decide_eq_false_iff_not] at h
  obtain ⟨hempty, hhash⟩ := h
  intro documents current
  have hplain : ∀ c ∈ name.toList, (c != '#') = true := by
    intro c hc
    exact bne_iff_ne.mpr fun heq ↦ hhash (heq ▸ hc)
  have htext : (name ++ "#").toList = name.toList ++ ['#'] := by simp
  have htake : (name ++ "#").toList.takeWhile (· != '#') = name.toList := by
    rw [htext, List.takeWhile_append_of_pos hplain]
    simp
  have hdrop : (name ++ "#").toList.dropWhile (· != '#') = ['#'] := by
    rw [htext, List.dropWhile_append_of_pos hplain]
    simp
  have hname : name.isEmpty = false := by simpa using hempty
  simp only [resolve, htake, hdrop, String.ofList_toList, hname]
  cases documents.lookup name with
  | none => rfl
  | some document => rfl

theorem flatKey_of_lookup {α : Type} {entries : List (String × α)}
    (h : entries.all (isFlat ·.1) = true) (hname : (entries.lookup name).isSome = true) :
    FlatKey name := by
  obtain ⟨entry, hlookup⟩ := Option.isSome_iff_exists.mp hname
  exact flatKey_of_isFlat (List.all_eq_true.mp h _ (mem_of_lookup hlookup))

/-! ## The validator as a whole -/

/-- Of a schema without a reference every keyword is checked. -/
theorem accepted_checkKeyword {fuel : Nat}
    (h : (check documents (fuel + 1) document (.obj members) value).Accepted)
    (hreference : members.lookup "$ref" = none) {keyword : Json}
    (hlookup : members.lookup key = some keyword) :
    (checkKeyword (check documents fuel document)
      (checkReference documents (check documents fuel) document) members key keyword
      value).Accepted := by
  rcases accepted_check_obj h with ⟨text, _, _, hsome, _⟩ | ⟨_, hkeywords⟩
  · rw [hreference] at hsome
    cases hsome
  · exact hkeywords hlookup

theorem isDeclared_eq_false
    (h : ∀ {properties}, members.lookup "properties" = some properties →
      ∃ schemas, properties = .obj schemas ∧ schemas.lookup key = none) :
    isDeclared (members.lookup "properties") key = .ok false := by
  cases hlookup : members.lookup "properties" with
  | none => rfl
  | some properties =>
    obtain ⟨schemas, rfl, hnone⟩ := h hlookup
    simp [isDeclared, hnone]

/-- Checks that accept are runs as draft 7 has them, for names with flat keys. -/
theorem draft7_check {named : String → Prop} (hflat : ∀ name, named name → FlatKey name) :
    Validator.Draft7 named fun depth documents document schema value ↦
      (check documents depth document schema value).Accepted where
  schema h := by
    obtain ⟨less, rfl, hschema⟩ := accepted_check h
    exact ⟨Nat.succ_pos less, hschema⟩
  reference h hlookup := by
    rcases accepted_check_obj h with ⟨text, target, schema, hsome, hresolve, haccepted⟩ | ⟨hnone, _⟩
    · obtain rfl := Option.some.inj (hlookup.symm.trans hsome)
      refine ⟨text, rfl, ?_⟩
      rintro name hnamed rfl -
      rw [hflat name hnamed] at hresolve
      split at hresolve
      · rename_i found hfound
        cases hresolve
        exact ⟨_, hfound, haccepted⟩
      · cases hresolve
    · rw [hlookup] at hnone
      cases hnone
  type h hreference hlookup :=
    checkType_str.mp (Verdict.accepted_ofExcept.mp (accepted_checkKeyword h hreference hlookup))
  properties h hreference hlookup := by
    have hchecked := accepted_checkKeyword h hreference hlookup
    obtain ⟨schemas, rfl⟩ := exists_obj_of_checkProperties hchecked
    exact ⟨schemas, rfl, fun hschema hmember ↦ accepted_of_checkProperties hchecked hschema hmember⟩
  required h hreference hlookup hkey :=
    lookup_of_checkRequired (accepted_checkKeyword h hreference hlookup) hkey
  additionalProperties h hreference _ hlookup hobject hmember hdeclared :=
    accepted_of_checkAdditional (accepted_checkKeyword h hreference hlookup) hobject hmember
      (isDeclared_eq_false hdeclared)
  items h hreference hlookup hobject hitem :=
    accepted_of_checkItems (accepted_checkKeyword h hreference hlookup) hobject hitem
  oneOf h hreference hlookup :=
    exists_of_checkOneOf (Verdict.accepted_ofExcept.mp (accepted_checkKeyword h hreference hlookup))

theorem followsDraft7_draft7 {named : String → Prop} (hflat : ∀ name, named name → FlatKey name) :
    Validator.FollowsDraft7 draft7 named :=
  ⟨_, draft7_check hflat, fun hvalid ↦ ⟨_, Verdict.quick_eq_ok_true.mp hvalid⟩⟩

end Validation

end SchemaModules
