import Mathlib.Data.List.Nodup
import Mathlib.Data.List.TakeWhile
import SchemaModules.Json.Reader
import SchemaModules.Proofs.DocumentMembers
import SchemaModules.Proofs.NestedValues
import SchemaModules.Proofs.TypeReferences

/-!
# Values that can be read back

No object has a key twice, and every number is read back from the form in which it is shown. For a
whole number that is so unless it is too long to be read. Whatever of a schema goes into a registry
document keeps both properties.
-/

namespace SchemaModules.Json

open Number Reader

variable {value : Json} {items : List Json} {members : List (String × Json)} {key : String}
  {digits : List Char}

/-! ## Numbers -/

/-- Characters of words and of numbers. -/
def isWordChar (c : Char) : Bool := c.isAlphanum || c = '_' || c = '.' || c = '+' || c = '-'

/-- The number that a whole word stands for. -/
def readNumber (word : List Char) : Option Json :=
  if word.all isWordChar then
    match number ⟨word, 0⟩ with
    | .ok (value, after) => if after.rest.isEmpty then some value else none
    | .error _ => none
  else none

theorem digitsValue_eq_ofDigitChars (digits : List Char) :
    digitsValue digits = Nat.ofDigitChars 10 digits 0 := by
  rw [digitsValue, Nat.ofDigitChars_eq_foldl]
  congr
  funext value digit
  rw [Nat.mul_comm]
  rfl

theorem digitsValue_toDigits (n : Nat) : digitsValue (Nat.toDigits 10 n) = n := by
  rw [digitsValue_eq_ofDigitChars, Nat.ofDigitChars_ten_toDigits]

/-- Digits begin with a zero only if there is nothing else. -/
theorem head?_toDigits {n : Nat} (hn : n ≠ 0) : (Nat.toDigits 10 n).head? ≠ some '0' := by
  induction n using Nat.strongRecOn with
  | ind n ih =>
    by_cases hsmall : n < 10
    · have hdigit : ∀ digit < 10, digit ≠ 0 → [Nat.digitChar digit].head? ≠ some '0' := by decide
      rw [Nat.toDigits_of_lt_base hsmall]
      exact hdigit n hsmall hn
    · have hquotient : n / 10 ≠ 0 := by omega
      rw [Nat.toDigits_of_base_le (by decide) (by omega),
        List.head?_append_of_ne_nil _ Nat.toDigits_ne_nil]
      exact ih (n / 10) (by omega) hquotient

/-- The sign that stands before digits. -/
def signText (negative : Bool) : List Char := if negative then ['-'] else []

/-- Digits in a row are a whole number. -/
theorem number_digits (negative : Bool) (hne : digits ≠ []) (hdigits : ∀ c ∈ digits, c.isDigit)
    (hhead : digits.head? ≠ some '0') (hlength : digits.length ≤ maxDigits) :
    number ⟨signText negative ++ digits, 0⟩ =
      .ok (.int (if negative then -digitsValue digits else digitsValue digits),
        ⟨[], (signText negative ++ digits).length⟩) := by
  obtain ⟨c, others, rfl⟩ := List.exists_cons_of_ne_nil hne
  have hzero : c ≠ '0' := by simpa using hhead
  have hminus : c ≠ '-' := by
    rintro rfl
    exact absurd (hdigits '-' List.mem_cons_self) (by decide)
  have hsplit : splitDigits (c :: others) = (c :: others, []) := by
    rw [splitDigits, List.takeWhile_eq_self_iff.mpr hdigits, List.dropWhile_eq_nil_iff.mpr hdigits]
  have hmany : ¬maxDigits < (c :: others).length := Nat.not_lt.mpr hlength
  have hsign : splitSign (signText negative ++ c :: others) = (negative, c :: others) := by
    cases negative with
    | true => rfl
    | false =>
      unfold splitSign
      split
      · next heq => exact absurd (List.cons.inj heq).1 hminus
      · rfl
  have hwhole : wholeDigits (c :: others) = (c :: others, []) := by
    unfold wholeDigits
    split
    · next heq => exact absurd (List.cons.inj heq).1 hzero
    · exact hsplit
  have hread : (if negative then 1 else 0) + (c :: others).length =
      (signText negative ++ c :: others).length := by
    cases negative <;> simp [signText, Nat.add_comm]
  rw [number]
  simp only [hsign, hwhole, fractionDigits, exponentDigits, hmany, List.isEmpty_cons,
    List.isEmpty_nil, Bool.false_eq_true, ↓reduceIte, List.append_nil, Nat.add_zero, hread,
    Cursor.advance, List.drop_length, Nat.zero_add]

theorem readNumber_digits (negative : Bool) {n : Nat} (hn : n ≠ 0)
    (hlength : (Nat.toDigits 10 n).length ≤ maxDigits) :
    readNumber (signText negative ++ Nat.toDigits 10 n) =
      some (.int (if negative then -n else n)) := by
  have hdigits : ∀ c ∈ Nat.toDigits 10 n, c.isDigit := fun c hc ↦
    Nat.isDigit_of_mem_toDigits (by decide) (by decide) hc
  have hword : (signText negative ++ Nat.toDigits 10 n).all isWordChar := by
    rw [List.all_append, Bool.and_eq_true]
    refine ⟨by cases negative <;> decide, List.all_eq_true.mpr fun c hc ↦ ?_⟩
    simp [isWordChar, Char.isAlphanum, hdigits c hc]
  rw [readNumber, if_pos hword,
    number_digits negative Nat.toDigits_ne_nil hdigits (head?_toDigits hn) hlength,
    digitsValue_toDigits]
  rfl

/-- A whole number that is not too long is read back. -/
theorem readNumber_int {n : Int} (h : (Nat.toDigits 10 n.natAbs).length ≤ maxDigits) :
    readNumber (Json.int n).shown.toList = some (.int n) := by
  cases n with
  | ofNat n =>
    have htext : (Json.int (.ofNat n)).shown.toList = signText false ++ Nat.toDigits 10 n := by
      change (toString n).toList = _
      rw [Nat.toString_eq_ofList_toDigits, String.toList_ofList]
      rfl
    rw [htext]
    by_cases hn : n = 0
    · rw [hn]
      rfl
    · exact readNumber_digits false hn h
  | negSucc n =>
    have htext : (Json.int (.negSucc n)).shown.toList =
        signText true ++ Nat.toDigits 10 (n + 1) := by
      change ("-" ++ toString (n + 1)).toList = _
      simp only [String.toList_append, Nat.toString_eq_ofList_toDigits, String.toList_ofList]
      rfl
    rw [htext]
    exact readNumber_digits true n.succ_ne_zero h

/-! ## Readable values -/

/-- What a value itself has to do with reading back, whatever is in it. -/
def ReadsAlone : Json → Prop
  | .obj members => (members.map Prod.fst).Nodup
  | .int n => (Nat.toDigits 10 n.natAbs).length ≤ maxDigits
  | .real x => readNumber (Json.real x).shown.toList = some (.real x)
  | _ => True

/-- A value in which no object has a key twice and every number is read back. -/
def Readable (value : Json) : Prop := ∀ inner ∈ value.values, inner.ReadsAlone

theorem readable_arr_iff : (Json.arr items).Readable ↔ ∀ item ∈ items, item.Readable := by
  constructor
  · intro h item hitem inner hinner
    exact h inner (mem_values_arr.mpr (.inr ⟨item, hitem, hinner⟩))
  · intro h inner hinner
    rcases mem_values_arr.mp hinner with rfl | ⟨item, hitem, hfound⟩
    · trivial
    · exact h item hitem inner hfound

theorem readable_obj_iff : (Json.obj members).Readable ↔
    (members.map Prod.fst).Nodup ∧ ∀ member ∈ members, member.2.Readable := by
  constructor
  · intro h
    refine ⟨h _ (mem_values_self _), fun member hmember inner hinner ↦ ?_⟩
    exact h inner (mem_values_obj.mpr (.inr ⟨member, hmember, hinner⟩))
  · intro ⟨hkeys, hmembers⟩ inner hinner
    rcases mem_values_obj.mp hinner with rfl | ⟨member, hmember, hfound⟩
    · exact hkeys
    · exact hmembers member hmember inner hfound

/-- A value with nothing in it has only itself to be read. -/
theorem readable_iff_readsAlone (h : value.values = [value]) :
    value.Readable ↔ value.ReadsAlone := by
  rw [Readable, h]
  exact List.forall_mem_singleton

theorem readable_str (text : String) : (Json.str text).Readable :=
  (readable_iff_readsAlone rfl).mpr trivial

/-- Members that are kept, with other values under their keys. -/
theorem Readable.filter_map (h : (Json.obj members).Readable) (change : String → Json → Json)
    (keep : String → Bool)
    (hchange : ∀ member ∈ members, (change member.1 member.2).Readable) :
    (Json.obj ((members.filter fun member ↦ keep member.1).map
      fun member ↦ (member.1, change member.1 member.2))).Readable := by
  rw [readable_obj_iff] at h ⊢
  constructor
  · rw [List.map_map]
    exact h.1.sublist (List.filter_sublist.map _)
  · intro member hmember
    obtain ⟨kept, hkept, rfl⟩ := List.mem_map.mp hmember
    exact hchange kept (List.mem_filter.mp hkept).1

theorem setMember_of_not_mem (hkey : key ∉ members.map Prod.fst) (value : Json) :
    setMember key value members = members ++ [(key, value)] := by
  induction members with
  | nil => rfl
  | cons member rest ih =>
    obtain ⟨name, old⟩ := member
    simp only [List.map_cons, List.mem_cons, not_or] at hkey
    rw [setMember, if_neg (Ne.symm hkey.1), ih hkey.2, List.cons_append]

theorem map_fst_setMember_of_mem (hkey : key ∈ members.map Prod.fst) (value : Json) :
    (setMember key value members).map Prod.fst = members.map Prod.fst := by
  induction members with
  | nil => cases hkey
  | cons member rest ih =>
    obtain ⟨name, old⟩ := member
    rw [setMember]
    by_cases hname : name = key
    · rw [if_pos hname, List.map_cons, List.map_cons]
    · have hrest : key ∈ rest.map Prod.fst := (List.mem_cons.mp hkey).resolve_left (Ne.symm hname)
      rw [if_neg hname, List.map_cons, List.map_cons, ih hrest]

theorem foldl_setMember (taken : List (String × Json))
    (h : ((taken ++ members).map Prod.fst).Nodup) :
    members.foldl (fun set (key, value) ↦ setMember key value set) taken = taken ++ members := by
  induction members generalizing taken with
  | nil => simp
  | cons member rest ih =>
    obtain ⟨name, value⟩ := member
    have hname : name ∉ taken.map Prod.fst := by
      rw [List.map_append, List.map_cons] at h
      exact fun htaken ↦ (List.disjoint_of_nodup_append h) htaken List.mem_cons_self
    rw [List.append_cons] at h ⊢
    simp only [List.foldl_cons, setMember_of_not_mem hname]
    exact ih _ h

/-- Where no key comes twice, members are taken as they come. -/
theorem ofMembers_eq_obj (h : (members.map Prod.fst).Nodup) : ofMembers members = .obj members := by
  rw [ofMembers, foldl_setMember [] h, List.nil_append]

theorem nodup_setMember (hmembers : (members.map Prod.fst).Nodup) (key : String) (value : Json) :
    ((setMember key value members).map Prod.fst).Nodup := by
  by_cases hkey : key ∈ members.map Prod.fst
  · rw [map_fst_setMember_of_mem hkey]
    exact hmembers
  · rw [setMember_of_not_mem hkey, List.map_append]
    exact hmembers.append (List.nodup_singleton key) (List.disjoint_singleton.mpr hkey)

theorem Readable.setMember (h : (Json.obj members).Readable) (hvalue : value.Readable)
    (key : String) : (Json.obj (setMember key value members)).Readable := by
  rw [readable_obj_iff] at h ⊢
  constructor
  · exact nodup_setMember h.1 key value
  · intro member hmember
    rcases Schema.mem_setMember hmember with rfl | hold
    · exact hvalue
    · exact h.2 member hold

end SchemaModules.Json

namespace SchemaModules.Schema

open Json

variable {lead key name : String} {value schema : Json} {members : List (String × Json)}

theorem readable_withoutDocumentation (h : value.Readable) :
    (withoutDocumentation value).Readable := by
  induction value using Json.nested_induction with
  | arr items ih =>
    rw [readable_arr_iff] at h
    rw [withoutDocumentation, itemsWithoutDocumentation_eq_map, readable_arr_iff]
    intro item hitem
    obtain ⟨before, hbefore, rfl⟩ := List.mem_map.mp hitem
    exact ih before hbefore (h before hbefore)
  | obj members ih =>
    rw [withoutDocumentation, membersWithoutDocumentation_eq_map]
    refine h.filter_map (fun _ ↦ withoutDocumentation) (!isDocumentation ·) fun member hmember ↦ ?_
    exact ih member hmember ((readable_obj_iff.mp h).2 member hmember)
  | _ => simpa [withoutDocumentation] using h

theorem readable_documentMember (h : value.Readable) (lead key : String) :
    (documentMember lead key value).Readable := by
  induction value using Json.nested_induction generalizing key with
  | str text =>
    rw [documentMember]
    split <;> exact readable_str _
  | arr items =>
    rw [documentMember_arr]
    exact readable_withoutDocumentation h
  | obj members ih =>
    rw [documentMember_obj, documentMembers_eq_map]
    refine h.filter_map (documentMember lead) (!isDocumentation ·) fun member hmember ↦ ?_
    exact ih member hmember ((readable_obj_iff.mp h).2 member hmember) member.1
  | _ => simpa [documentMember, withoutDocumentation] using h

theorem readable_withRootType (h : (Json.obj members).Readable) :
    (Json.obj (withRootType members)).Readable := by
  rw [withRootType]
  split
  · exact h
  · exact h.setMember (readable_str "object") "type"

theorem readable_intOrStringDocument : intOrStringDocument.Readable := by
  simp [intOrStringDocument, readable_obj_iff, readable_arr_iff, readable_str]

/-- The registry document of a readable schema is readable. -/
theorem readable_registryDocument (h : schema.Readable) (lead name : String) :
    (registryDocument lead name schema).Readable := by
  by_cases hname : name = intOrStringName
  · rw [hname, registryDocument_intOrString]
    exact readable_intOrStringDocument
  · cases schema with
    | obj members =>
      rw [registryDocument_obj hname]
      exact readable_documentMember (readable_withRootType h) lead ""
    | _ => simp [registryDocument, hname, readable_obj_iff]

end SchemaModules.Schema
