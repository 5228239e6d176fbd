import Mathlib.Data.List.Basic
import SchemaModules.Proofs.BlockComments
import SchemaModules.Proofs.NestedTypes
import SchemaModules.Proofs.QuotedTexts
import SchemaModules.Proofs.TypeReferences
import SchemaModules.Target.TypeScriptModule

/-!
# Reading types back

A reader of the types that modules declare. It passes over comments and takes every other name for
an interface. Whatever stands behind the text of a type, the reader finds the outline of the type
and stops behind it, so two types with one text have one outline.
-/

namespace SchemaModules.TypeScript

open Naming Schema Text

variable {type item first second : TypeExpr} {fields : List (Field × TypeExpr)}
  {index : Option TypeExpr} {word rest : List Char} {name lead : String} {fuel : Nat}

/-! ## The reader -/

/-- Characters of names. -/
def isNameChar (c : Char) : Bool := c.isAlphanum || c = '_'

/-- What follows a text that has to come next. -/
def expect (lead : String) (chars : List Char) : Option (List Char) :=
  if lead.toList.isPrefixOf chars then some (chars.drop lead.toList.length) else none

/-- What follows a comment and its line feed, if a comment comes next. -/
def skipRemark : List Char → Option (List Char)
  | '/' :: '*' :: inner => (Target.afterComment inner).bind (expect "\n")
  | chars => some chars

/-- Whether a property is required, which a question mark denies. -/
def readMark : List Char → Bool × List Char
  | '?' :: rest => (false, rest)
  | rest => (true, rest)

/-- The type of a name that takes no arguments. -/
def namedType (word rest : List Char) : Option (TypeExpr × List Char) :=
  if word.head? = some 'I' then some (.reference (String.ofList word), rest)
  else
    match String.ofList word with
    | "any" => some (.any, rest)
    | "number" => some (.primitive .number, rest)
    | "boolean" => some (.primitive .boolean, rest)
    | "null" => some (.primitive .null, rest)
    | "string" =>
      match expect " | number" rest with
      | some rest => some (.textOrNumber, rest)
      | none => some (.primitive .string, rest)
    | _ => none

mutual

/-- A type and what follows it. -/
def readType : (fuel : Nat) → List Char → Option (TypeExpr × List Char)
  | 0, _ => none
  | fuel + 1, '\x7b' :: rest => do
    let (fields, index, rest) ← readMembers fuel (← expect "\n" rest)
    return (.object fields index, rest)
  | fuel + 1, chars =>
    let word := chars.takeWhile isNameChar
    let rest := chars.dropWhile isNameChar
    if word = "Array".toList then do
      let (item, rest) ← readType fuel (← expect "<" rest)
      return (.array item, ← expect ">" rest)
    else namedType word rest

/-- Properties, an index signature if there is one, and what follows the closing brace. -/
def readMembers : (fuel : Nat) → List Char →
    Option (List (Field × TypeExpr) × Option TypeExpr × List Char)
  | 0, _ => none
  | _ + 1, '\x7d' :: rest => some ([], none, rest)
  | fuel + 1, '[' :: rest => do
    let (type, rest) ← readType fuel (← expect "key: string]: " rest)
    return ([], some type, ← expect ";\n\x7d" rest)
  | fuel + 1, chars => do
    let (name, rest) ← readQuoted '"' (← expect "\"" (← skipRemark chars))
    let (required, rest) := readMark rest
    let (type, rest) ← readType fuel (← expect ": " rest)
    let (fields, index, rest) ← readMembers fuel (← expect ";\n" rest)
    return ((⟨String.ofList name, required, none⟩, type) :: fields, index, rest)

end

@[simp]
theorem expect_append (lead : String) (rest : List Char) :
    expect lead (lead.toList ++ rest) = some rest := by
  simp [expect]

/-- What may stand behind a type: the end of its property or of the array that it is in. -/
def EndsType (rest : List Char) : Prop := ∀ c, rest.head? = some c → c = ';' ∨ c = '>'

theorem endsType_nil : EndsType [] := nofun

theorem endsType_cons {c : Char} (h : c = ';' ∨ c = '>') (rest : List Char) :
    EndsType (c :: rest) := by
  rintro _ ⟨rfl⟩
  exact h

theorem EndsType.dropWhile (h : EndsType rest) : rest.takeWhile isNameChar = [] ∧
    rest.dropWhile isNameChar = rest := by
  cases rest with
  | nil => simp
  | cons c others =>
    have hc : isNameChar c = false := by rcases h c rfl with rfl | rfl <;> decide
    simp [hc]

theorem EndsType.expect_eq_none (h : EndsType rest) : expect " | number" rest = none := by
  have hlead : " | number".toList.isPrefixOf rest = false := by
    cases rest with
    | nil => rfl
    | cons c others => rcases h c rfl with rfl | rfl <;> rfl
  rw [expect, hlead]
  rfl

/-- A name is read up to its end. -/
theorem readType_word (hword : word.all isNameChar) (hne : word ≠ [])
    (hrest : rest.takeWhile isNameChar = [] ∧ rest.dropWhile isNameChar = rest) :
    readType (fuel + 1) (word ++ rest) =
      if word = "Array".toList then do
        let (item, rest) ← readType fuel (← expect "<" rest)
        return (.array item, ← expect ">" rest)
      else namedType word rest := by
  rw [List.all_eq_true] at hword
  obtain ⟨c, others, rfl⟩ := List.exists_cons_of_ne_nil hne
  have htake : ((c :: others) ++ rest).takeWhile isNameChar = c :: others := by
    rw [List.takeWhile_append_of_pos hword, hrest.1, List.append_nil]
  have hdrop : ((c :: others) ++ rest).dropWhile isNameChar = rest := by
    rw [List.dropWhile_append_of_pos hword, hrest.2]
  rw [readType]
  · rw [htake, hdrop]
  · rintro rest' heq
    obtain rfl := (List.cons.inj heq).1
    have hbrace := hword '\x7b' List.mem_cons_self
    revert hbrace
    decide

/-! ## Types -/

/-- A type whose interface names are names to the reader. -/
def HasPlainNames (type : TypeExpr) : Prop :=
  ∀ name ∈ type.references, (interfaceName name).toList.all isNameChar

instance (type : TypeExpr) : Decidable (HasPlainNames type) :=
  inferInstanceAs (Decidable (∀ name ∈ type.references, (interfaceName name).toList.all isNameChar))

/-- With enough fuel the reader finds the outline of a type and stops behind its text. -/
def ReadsBack (type : TypeExpr) : Prop :=
  ∃ enough, ∀ fuel, enough ≤ fuel → ∀ rest, EndsType rest →
    readType fuel ((typeText type).toList ++ rest) = some (type.outline, rest)

theorem readsBack_of_word (hword : (typeText type).toList.all isNameChar)
    (hne : typeText type ≠ "") (harray : (typeText type).toList ≠ "Array".toList)
    (hnamed : ∀ rest, EndsType rest →
      namedType (typeText type).toList rest = some (type.outline, rest)) : ReadsBack type := by
  refine ⟨1, fun fuel hfuel rest hrest ↦ ?_⟩
  obtain ⟨fuel, rfl⟩ := Nat.exists_eq_add_of_le' hfuel
  rw [readType_word hword (by simpa using hne) hrest.dropWhile, if_neg harray]
  exact hnamed rest hrest

theorem readsBack_any : ReadsBack .any :=
  readsBack_of_word (by decide) (by decide) (by decide) fun _ _ ↦ rfl

theorem readsBack_primitive (primitive : Primitive) : ReadsBack (.primitive primitive) := by
  cases primitive with
  | string =>
    refine readsBack_of_word (by decide) (by decide) (by decide) fun rest hrest ↦ ?_
    have hnumber := hrest.expect_eq_none
    simp [namedType, typeText, primitiveType, hnumber, TypeExpr.outline]
  | _ => exact readsBack_of_word (by decide) (by decide) (by decide) fun _ _ ↦ rfl

theorem readsBack_textOrNumber : ReadsBack .textOrNumber := by
  refine ⟨1, fun fuel hfuel rest hrest ↦ ?_⟩
  obtain ⟨fuel, rfl⟩ := Nat.exists_eq_add_of_le' hfuel
  have htext : (typeText .textOrNumber).toList = "string".toList ++ " | number".toList := by decide
  have hspace : (" | number".toList ++ rest).takeWhile isNameChar = [] ∧
      (" | number".toList ++ rest).dropWhile isNameChar = " | number".toList ++ rest := ⟨rfl, rfl⟩
  rw [htext, List.append_assoc, readType_word (by decide) (by decide) hspace, if_neg (by decide),
    namedType, if_neg (by decide), String.ofList_toList]
  simp only [expect_append, TypeExpr.outline]

theorem readsBack_reference (h : HasPlainNames (.reference name)) :
    ReadsBack (.reference name) := by
  have htext : typeText (.reference name) = interfaceName name := by rw [typeText]
  have hhead := head?_interfaceName name
  refine readsBack_of_word ?_ ?_ ?_ ?_ <;> rw [htext]
  · exact h name (by simp [TypeExpr.references])
  · intro hempty
    simp [hempty] at hhead
  · intro harray
    simp [harray] at hhead
  · intro rest _
    rw [namedType, if_pos hhead, String.ofList_toList, TypeExpr.outline]

theorem ReadsBack.array (h : ReadsBack item) : ReadsBack (.array item) := by
  obtain ⟨enough, hread⟩ := h
  refine ⟨enough + 1, fun fuel hfuel rest hrest ↦ ?_⟩
  obtain ⟨fuel, rfl⟩ := Nat.exists_eq_add_of_le' (Nat.le_trans (Nat.le_add_left 1 enough) hfuel)
  have htext : (typeText (.array item)).toList ++ rest =
      "Array".toList ++ ("<".toList ++ ((typeText item).toList ++ (">".toList ++ rest))) := by
    simp [typeText]
  have hopen (inner : List Char) : ("<".toList ++ inner).takeWhile isNameChar = [] ∧
      ("<".toList ++ inner).dropWhile isNameChar = "<".toList ++ inner := ⟨rfl, rfl⟩
  rw [htext, readType_word (by decide) (by decide) (hopen _), if_pos rfl, expect_append]
  simp only [Option.bind_eq_bind, Option.bind_some]
  rw [hread fuel (by omega) (">".toList ++ rest) (endsType_cons (.inr rfl) rest)]
  simp only [Option.bind_some, expect_append]
  rfl

theorem skipRemark_remark (comment : Option String) (inner : List Char) :
    skipRemark ((remark comment).toList ++ '"' :: inner) = some ('"' :: inner) := by
  rw [remark]
  cases comment.filter (!·.isEmpty) with
  | none => rfl
  | some text =>
    obtain ⟨body, hbody, hend⟩ := Target.afterComment_blockComment text ('"' :: inner)
    simp only [hbody, skipRemark, hend, Option.bind_some]
    rfl

theorem readMark_append (required : Bool) (rest : List Char) :
    readMark ((if required then "" else "?").toList ++ (": ".toList ++ rest)) =
      (required, ": ".toList ++ rest) := by
  cases required <;> rfl

/-- A comment or a quoted name begins a property. -/
theorem readMembers_property {chars : List Char}
    (hchars : chars.head? = some '/' ∨ chars.head? = some '"') :
    readMembers (fuel + 1) chars = do
      let (name, rest) ← readQuoted '"' (← expect "\"" (← skipRemark chars))
      let (required, rest) := readMark rest
      let (type, rest) ← readType fuel (← expect ": " rest)
      let (fields, index, rest) ← readMembers fuel (← expect ";\n" rest)
      return ((⟨String.ofList name, required, none⟩, type) :: fields, index, rest) := by
  rw [readMembers]
  all_goals
    rintro rest rfl
    simp at hchars

theorem head?_property (comment : Option String) (inner : List Char) :
    ((remark comment).toList ++ '"' :: inner).head? = some '/' ∨
      ((remark comment).toList ++ '"' :: inner).head? = some '"' := by
  rw [remark]
  cases comment.filter (!·.isEmpty) with
  | none => exact .inr rfl
  | some text =>
    obtain ⟨body, hbody, -⟩ := Target.afterComment_blockComment text ('"' :: inner)
    exact .inl (congrArg List.head? hbody)

/-- With enough fuel the reader finds the outlines of all members. -/
def MembersReadBack (fields : List (Field × TypeExpr)) (index : Option TypeExpr) : Prop :=
  ∃ enough, ∀ fuel, enough ≤ fuel → ∀ rest,
    readMembers fuel ((fieldTexts fields ++ indexText index ++ "\x7d").toList ++ rest) =
      some (fieldOutlines fields, indexOutline index, rest)

theorem membersReadBack_nil (hindex : ∀ type ∈ index, ReadsBack type) :
    MembersReadBack [] index := by
  cases index with
  | none =>
    refine ⟨1, fun fuel hfuel rest ↦ ?_⟩
    obtain ⟨fuel, rfl⟩ := Nat.exists_eq_add_of_le' hfuel
    rfl
  | some type =>
    obtain ⟨enough, hread⟩ := hindex type rfl
    refine ⟨enough + 1, fun fuel hfuel rest ↦ ?_⟩
    obtain ⟨fuel, rfl⟩ := Nat.exists_eq_add_of_le' (Nat.le_trans (Nat.le_add_left 1 enough) hfuel)
    have hopen : "[key: string]: ".toList = '[' :: "key: string]: ".toList := by decide
    have hclose : ";\n\x7d".toList = ";\n".toList ++ "\x7d".toList := by decide
    have htext : (fieldTexts [] ++ indexText (some type) ++ "\x7d").toList ++ rest =
        '[' :: ("key: string]: ".toList ++ ((typeText type).toList ++
          (";\n\x7d".toList ++ rest))) := by
      unfold fieldTexts indexText
      simp only [String.empty_append, String.toList_append, hopen, hclose, List.cons_append,
        List.append_assoc]
    rw [htext, readMembers, expect_append]
    simp only [Option.bind_eq_bind, Option.bind_some]
    rw [hread fuel (by omega) (";\n\x7d".toList ++ rest) (endsType_cons (.inl rfl) _)]
    simp only [Option.bind_some, expect_append]
    rfl

theorem MembersReadBack.cons (h : MembersReadBack fields index) (field : Field)
    (htype : ReadsBack type) : MembersReadBack ((field, type) :: fields) index := by
  obtain ⟨enough, hread⟩ := h
  obtain ⟨enoughType, hreadType⟩ := htype
  refine ⟨max enough enoughType + 1, fun fuel hfuel rest ↦ ?_⟩
  obtain ⟨fuel, rfl⟩ := Nat.exists_eq_add_of_le' (Nat.le_trans (Nat.le_add_left 1 _) hfuel)
  obtain ⟨inner, hquoted, hname⟩ := readQuoted_doubleQuoted field.name
    ((if field.required then "" else "?").toList ++ (": ".toList ++ ((typeText type).toList ++
      (";\n".toList ++ ((fieldTexts fields ++ indexText index ++ "\x7d").toList ++ rest)))))
  have htext : (fieldTexts ((field, type) :: fields) ++ indexText index ++ "\x7d").toList ++ rest =
      (remark field.comment).toList ++ '"' :: inner := by
    rw [← hquoted]
    simp [fieldTexts]
  rw [htext, readMembers_property (head?_property _ _), skipRemark_remark]
  have hinner : expect "\"" ('"' :: inner) = some inner := expect_append "\"" inner
  simp only [Option.bind_eq_bind, Option.bind_some, hinner, hname, readMark_append, expect_append]
  rw [hreadType fuel (by omega) (";\n".toList ++ _) (endsType_cons (.inl rfl) _)]
  simp only [Option.bind_some, expect_append, hread fuel (by omega) rest]
  simp [fieldOutlines]

theorem membersReadBack (hfields : ∀ entry ∈ fields, ReadsBack entry.2)
    (hindex : ∀ type ∈ index, ReadsBack type) : MembersReadBack fields index := by
  induction fields with
  | nil => exact membersReadBack_nil hindex
  | cons entry others ih =>
    obtain ⟨hentry, hothers⟩ := List.forall_mem_cons.mp hfields
    exact (ih hothers).cons entry.1 hentry

theorem MembersReadBack.object (h : MembersReadBack fields index) :
    ReadsBack (.object fields index) := by
  obtain ⟨enough, hread⟩ := h
  refine ⟨enough + 1, fun fuel hfuel rest _ ↦ ?_⟩
  obtain ⟨fuel, rfl⟩ := Nat.exists_eq_add_of_le' (Nat.le_trans (Nat.le_add_left 1 enough) hfuel)
  have htext : (typeText (.object fields index)).toList ++ rest =
      '\x7b' :: ("\n".toList ++
        ((fieldTexts fields ++ indexText index ++ "\x7d").toList ++ rest)) := by
    simp [typeText]
  rw [htext, readType, expect_append]
  simp only [Option.bind_eq_bind, Option.bind_some, hread fuel (by omega) rest]
  rfl

theorem HasPlainNames.ofField {entry : Field × TypeExpr} (h : HasPlainNames (.object fields index))
    (hentry : entry ∈ fields) : HasPlainNames entry.2 := by
  intro name hname
  refine h name (List.mem_append_left _ ?_)
  rw [fieldReferences_eq_flatMap]
  exact List.mem_flatMap.mpr ⟨entry, hentry, hname⟩

theorem HasPlainNames.ofIndex (h : HasPlainNames (.object fields index)) (htype : type ∈ index) :
    HasPlainNames type := by
  obtain rfl := htype
  exact fun name hname ↦ h name (List.mem_append_right _ hname)

theorem readsBack (h : HasPlainNames type) : ReadsBack type := by
  induction type using TypeExpr.nested_induction with
  | any => exact readsBack_any
  | primitive primitive => exact readsBack_primitive primitive
  | textOrNumber => exact readsBack_textOrNumber
  | reference name => exact readsBack_reference h
  | array item ih => exact (ih h).array
  | object fields index hfields hindex =>
    refine (membersReadBack (fun entry hentry ↦ ?_) fun type htype ↦ ?_).object
    · exact hfields entry hentry (h.ofField hentry)
    · exact hindex type htype (h.ofIndex htype)

/-- Types with one text differ in nothing but comments and the definitions behind equal interface
names. -/
theorem outline_eq_of_typeText_eq (hfirst : HasPlainNames first) (hsecond : HasPlainNames second)
    (h : typeText first = typeText second) : first.outline = second.outline := by
  obtain ⟨enoughFirst, hreadFirst⟩ := readsBack hfirst
  obtain ⟨enoughSecond, hreadSecond⟩ := readsBack hsecond
  have hread := hreadFirst (max enoughFirst enoughSecond) (Nat.le_max_left _ _) [] endsType_nil
  rw [h, hreadSecond _ (Nat.le_max_right _ _) [] endsType_nil] at hread
  exact (Prod.mk.inj (Option.some.inj hread)).1.symm

/-- A record whose one field has a comment and points to a definition. -/
def remarkedRecord (comment name : String) : TypeExpr :=
  .object [(⟨"*/", false, some comment⟩, .array (.reference name))] none

theorem outline_remarkedRecord :
    (HasPlainNames (remarkedRecord "*/" "io.v1-a.Pod") ∧
      HasPlainNames (remarkedRecord "\\*\\/" "io.v1.a.pod") ∧
      typeText (remarkedRecord "*/" "io.v1-a.Pod") =
        typeText (remarkedRecord "\\*\\/" "io.v1.a.pod")) ∧
    (remarkedRecord "*/" "io.v1-a.Pod").outline =
      (remarkedRecord "\\*\\/" "io.v1.a.pod").outline := by
  have hfirst : HasPlainNames (remarkedRecord "*/" "io.v1-a.Pod") := by decide +kernel
  have hsecond : HasPlainNames (remarkedRecord "\\*\\/" "io.v1.a.pod") := by decide +kernel
  have h : typeText (remarkedRecord "*/" "io.v1-a.Pod") =
      typeText (remarkedRecord "\\*\\/" "io.v1.a.pod") := by decide +kernel
  exact ⟨⟨hfirst, hsecond, h⟩, outline_eq_of_typeText_eq hfirst hsecond h⟩

end SchemaModules.TypeScript
