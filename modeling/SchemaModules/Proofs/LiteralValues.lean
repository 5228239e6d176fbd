import SchemaModules.Proofs.ModuleLines
import SchemaModules.Proofs.QuotedTexts
import SchemaModules.Proofs.ReadableValues
import SchemaModules.Proofs.TextLines

/-!
# Values of literals

A reader of literals: texts between quotes, numbers, the three constants, and lists and mappings of
literals. Inside brackets gaps and line ends mean nothing, and a comma may stand behind the last
entry. Of entries with one key the first gives the place and the last the value. The reader knows no
other expression, and gives nothing where it meets one. What it reads from the literal of a value is
the value.
-/

namespace SchemaModules.Python

open Json Naming Schema Text

variable {value item : Json} {items : List Json} {members : List (String × Json)}
  {chars word rest : List Char} {level fuel : Nat} {key name : String}

/-! ## The reader -/

/-- What stands between the tokens of a literal, inside brackets. -/
def isGap (c : Char) : Bool := c = ' ' || c = '\t' || c = '\n' || c = '\x0c'

def skipGaps (chars : List Char) : List Char := chars.dropWhile isGap

/-- The value of a word: a number or a constant. -/
def wordValue (word : List Char) : Option Json :=
  (readNumber word).or
    ([("None", .null), ("True", .bool true), ("False", .bool false)].lookup (String.ofList word))

/-- A text from behind its opening quote. Three quotes in a row would begin a text of another
kind. -/
def readText (quote : Char) (inner : List Char) : Option (String × List Char) :=
  if [quote, quote].isPrefixOf inner then none
  else (readQuoted quote inner).map fun (text, rest) ↦ (String.ofList text, rest)

mutual

/-- A literal and what follows it. -/
def readLiteral : (fuel : Nat) → List Char → Option (Json × List Char)
  | 0, _ | _, [] => none
  | fuel + 1, '[' :: inner => do
    let (items, rest) ← readItems fuel (skipGaps inner)
    return (.arr items, rest)
  | fuel + 1, '\x7b' :: inner => do
    let (members, rest) ← readMembers fuel (skipGaps inner)
    return (ofMembers members, rest)
  | _ + 1, c :: inner =>
    if c = '"' || c = '\x27' then do
      let (text, rest) ← readText c inner
      return (.str text, rest)
    else do
      let value ← wordValue ((c :: inner).takeWhile isWordChar)
      return (value, (c :: inner).dropWhile isWordChar)

/-- The items of a list from the next one on, and what follows the closing bracket. -/
def readItems : (fuel : Nat) → List Char → Option (List Json × List Char)
  | 0, _ => none
  | _ + 1, ']' :: rest => some ([], rest)
  | fuel + 1, chars => do
    let (item, rest) ← readLiteral fuel chars
    match skipGaps rest with
    | ']' :: rest => return ([item], rest)
    | ',' :: rest =>
      let (items, rest) ← readItems fuel (skipGaps rest)
      return (item :: items, rest)
    | _ => none

/-- The entries of a mapping from the next one on, and what follows the closing bracket. -/
def readMembers : (fuel : Nat) → List Char → Option (List (String × Json) × List Char)
  | 0, _ => none
  | _ + 1, '\x7d' :: rest => some ([], rest)
  | fuel + 1, quote :: inner => do
    if quote ≠ '"' ∧ quote ≠ '\x27' then none
    let (key, rest) ← readText quote inner
    match skipGaps rest with
    | ':' :: rest =>
      let (value, rest) ← readLiteral fuel (skipGaps rest)
      match skipGaps rest with
      | '\x7d' :: rest => return ([(key, value)], rest)
      | ',' :: rest =>
        let (members, rest) ← readMembers fuel (skipGaps rest)
        return ((key, value) :: members, rest)
      | _ => none
    | _ => none
  | _ + 1, [] => none

end

/-- The value of a text that is one literal and nothing else. Two steps for each character are
fuel enough. -/
def evaluate (text : String) : Option Json :=
  match readLiteral (2 * text.toList.length) text.toList with
  | some (value, []) => some value
  | _ => none

theorem skipGaps_indentOf (level : Nat) (rest : List Char) :
    skipGaps ((indentOf level).toList ++ rest) = skipGaps rest := by
  induction level with
  | zero => rfl
  | succ level ih =>
    have hindent : (indentOf (level + 1)).toList =
        ' ' :: ' ' :: ' ' :: ' ' :: (indentOf level).toList := by
      rw [indentOf, List.replicate_succ, String.join_cons, String.toList_append]
      rfl
    rw [hindent]
    exact ih

/-- What may follow a literal: nothing that would go on with a word or with a text. -/
def EndsLiteral (rest : List Char) : Prop := ∀ c ∈ rest.head?, c ≠ '"' ∧ isWordChar c = false

theorem endsLiteral_nil : EndsLiteral [] := nofun

theorem endsLiteral_cons {c : Char} (hquote : c ≠ '"') (hword : isWordChar c = false)
    (rest : List Char) : EndsLiteral (c :: rest) := by
  intro first hfirst
  obtain rfl := Option.some.inj hfirst
  exact ⟨hquote, hword⟩

theorem EndsLiteral.takeWhile_dropWhile (h : EndsLiteral rest) :
    rest.takeWhile isWordChar = [] ∧ rest.dropWhile isWordChar = rest := by
  cases rest with
  | nil => exact ⟨rfl, rfl⟩
  | cons c others => simp [(h c rfl).2]

/-- A word is read up to its end. -/
theorem readLiteral_word (hword : word.all isWordChar) (hne : word ≠ [])
    (hvalue : wordValue word = some value) (hends : EndsLiteral rest) :
    readLiteral (fuel + 1) (word ++ rest) = some (value, rest) := by
  rw [List.all_eq_true] at hword
  obtain ⟨c, others, rfl⟩ := List.exists_cons_of_ne_nil hne
  have hc : isWordChar c := hword c List.mem_cons_self
  have hquotes : ¬(c = '"' || c = '\x27') := by
    intro h
    rcases Bool.or_eq_true_iff.mp h with h | h <;> rw [of_decide_eq_true h] at hc <;>
      revert hc <;> decide
  obtain ⟨htake, hdrop⟩ := hends.takeWhile_dropWhile
  have hread : ((c :: others) ++ rest).takeWhile isWordChar = c :: others := by
    rw [List.takeWhile_append_of_pos hword, htake, List.append_nil]
  have hrest : ((c :: others) ++ rest).dropWhile isWordChar = rest := by
    rw [List.dropWhile_append_of_pos hword, hdrop]
  rw [List.cons_append] at hread hrest ⊢
  rw [readLiteral]
  · rw [if_neg hquotes, hread, hrest, hvalue]
    rfl
  all_goals
    rintro rfl
    revert hc
    decide

theorem exists_escapeInJson_eq_cons (c : Char) :
    ∃ first others, escapeInJson c = first :: others ∧ first ≠ '"' := by
  rw [escapeInJson]
  split
  · exact ⟨'\\', [c], rfl, by decide⟩
  · next hmark =>
    simp only [Bool.or_eq_true, decide_eq_true_eq, not_or] at hmark
    split
    · rw [escapeControl.eq_def]
      split <;> exact ⟨'\\', _, rfl, by decide⟩
    · exact ⟨c, [], rfl, hmark.1⟩

/-- A text between double quotes is read back, unless a third quote follows an empty one. -/
theorem readText_doubleQuoted (text : String) (hends : EndsLiteral rest) :
    ∃ inner, (doubleQuoted text).toList ++ rest = '"' :: inner ∧
      readText '"' inner = some (text, rest) := by
  obtain ⟨inner, hinner, hread⟩ := readQuoted_doubleQuoted text rest
  refine ⟨inner, hinner, ?_⟩
  have hshort : ['"', '"'].isPrefixOf inner = false := by
    rw [toList_doubleQuoted, List.cons_append] at hinner
    obtain rfl := (List.cons.inj hinner).2
    cases text.toList with
    | nil =>
      cases rest with
      | nil => rfl
      | cons c others => simp [List.isPrefixOf, Ne.symm (hends c rfl).1]
    | cons c others =>
      obtain ⟨first, escaped, hescape, hfirst⟩ := exists_escapeInJson_eq_cons c
      simp [hescape, List.isPrefixOf, hfirst.symm]
  rw [readText, hshort, hread]
  simp

/-! ## Values -/

/-- A literal is read back as the value, whatever follows it. -/
def ReadsBack (level : Nat) (value : Json) : Prop :=
  ∀ fuel rest, 2 * (literal level value).toList.length ≤ fuel → EndsLiteral rest →
    readLiteral fuel ((literal level value).toList ++ rest) = some (value, rest)

theorem readsBack_of_word (hword : (literal level value).toList.all isWordChar)
    (hvalue : wordValue (literal level value).toList = some value) : ReadsBack level value := by
  intro fuel rest hfuel hends
  have hne : (literal level value).toList ≠ [] := by
    intro hempty
    rw [hempty] at hvalue
    cases hvalue
  have hlength := List.length_pos_iff.mpr hne
  obtain ⟨fuel, rfl⟩ := Nat.exists_eq_add_of_le' (show 1 ≤ fuel by omega)
  exact readLiteral_word hword hne hvalue hends

theorem readsBack_of_number (hliteral : literal level value = value.shown)
    (h : readNumber value.shown.toList = some value) : ReadsBack level value := by
  have hword : value.shown.toList.all isWordChar := by
    rw [readNumber] at h
    by_contra hother
    rw [if_neg hother] at h
    cases h
  apply readsBack_of_word
  · rwa [hliteral]
  · rw [hliteral, wordValue, h]
    rfl

theorem readsBack_str (level : Nat) (text : String) : ReadsBack level (.str text) := by
  intro fuel rest hfuel hends
  have hlength : 0 < (literal level (.str text)).toList.length := by
    simp [literal, toList_doubleQuoted]
  obtain ⟨fuel, rfl⟩ := Nat.exists_eq_add_of_le' (show 1 ≤ fuel by omega)
  obtain ⟨inner, hinner, hread⟩ := readText_doubleQuoted text hends
  rw [literal, hinner, readLiteral, if_pos (by decide), hread]
  · rfl
  all_goals decide

theorem readLiteral_eq_none {c : Char} (hword : isWordChar c = false)
    (hopen : c ∉ ['[', '\x7b', '"', '\x27']) : readLiteral fuel (c :: rest) = none := by
  simp only [List.mem_cons, List.not_mem_nil, or_false, not_or] at hopen
  obtain ⟨hlist, hmapping, hdouble, hsingle⟩ := hopen
  cases fuel with
  | zero => rw [readLiteral]
  | succ fuel =>
    rw [readLiteral, if_neg (by simp [hdouble, hsingle]),
      List.takeWhile_cons_of_neg (by simp [hword])]
    · rfl
    all_goals assumption

/-- A literal begins with no gap and with no closing bracket. -/
theorem skipGaps_eq_of_readLiteral {result : Json × List Char}
    (h : readLiteral fuel chars = some result) :
    skipGaps chars = chars ∧ (∀ rest, chars ≠ ']' :: rest) := by
  cases chars with
  | nil => exact ⟨rfl, by simp⟩
  | cons c inner =>
    -- Neither gaps nor closing brackets begin anything that the reader knows.
    have hother (closer : Char) (hword : isWordChar closer = false)
        (hopen : closer ∉ ['[', '\x7b', '"', '\x27']) : c ≠ closer := by
      rintro rfl
      rw [readLiteral_eq_none hword hopen] at h
      cases h
    constructor
    · have hgap : isGap c = false := by
        simp [isGap, hother ' ', hother '\t', hother '\n', hother '\x0c', isWordChar]
      exact List.dropWhile_cons_of_neg (by simp [hgap])
    · intro rest hclose
      exact hother ']' (by decide) (by decide) (List.cons.inj hclose).1

/-- An item and the comma behind it. -/
theorem readItems_of_readLiteral (h : readLiteral fuel chars = some (item, ',' :: rest)) :
    readItems (fuel + 1) (skipGaps chars) =
      (readItems fuel (skipGaps rest)).map fun (items, rest) ↦ (item :: items, rest) := by
  obtain ⟨hgaps, hclose⟩ := skipGaps_eq_of_readLiteral h
  rw [hgaps, readItems, h]
  · have hcomma : skipGaps (',' :: rest) = ',' :: rest := rfl
    simp only [Option.bind_eq_bind, Option.bind_some, hcomma]
    cases readItems fuel (skipGaps rest) <;> rfl
  · exact fun rest ↦ hclose rest

/-- An entry and the comma behind it. -/
theorem readMembers_of_readLiteral (h : readLiteral fuel chars = some (value, ',' :: rest)) :
    readMembers (fuel + 1) (skipGaps ((doubleQuoted key).toList ++ ':' :: ' ' :: chars)) =
      (readMembers fuel (skipGaps rest)).map
        fun (members, rest) ↦ ((key, value) :: members, rest) := by
  have hends : EndsLiteral (':' :: ' ' :: chars) := endsLiteral_cons (by decide) (by decide) _
  obtain ⟨inner, hinner, hread⟩ := readText_doubleQuoted key hends
  have hquote : skipGaps ('"' :: inner) = '"' :: inner := rfl
  have hcolon : skipGaps (':' :: ' ' :: chars) = ':' :: ' ' :: chars := rfl
  have hspace : skipGaps (' ' :: chars) = chars := (skipGaps_eq_of_readLiteral h).1
  have hcomma : skipGaps (',' :: rest) = ',' :: rest := rfl
  rw [hinner, hquote, readMembers, if_neg (by decide), hread]
  · simp only [Option.bind_eq_bind, Option.bind_some, hcolon, hspace, h, hcomma]
    cases readMembers fuel (skipGaps rest) <;> rfl
  · decide

/-- The lines of a list are read up to the closing bracket. -/
theorem readItems_itemLiterals (hitems : ∀ item ∈ items, ReadsBack level item) (closing : Nat)
    (rest : List Char) (hfuel : 2 * (unlines (itemLiterals level items)).toList.length < fuel) :
    readItems fuel (skipGaps ((unlines (itemLiterals level items)).toList ++
      ((indentOf closing).toList ++ ']' :: rest))) = some (items, rest) := by
  induction items generalizing fuel with
  | nil =>
    obtain ⟨fuel, rfl⟩ := Nat.exists_eq_add_of_le' (show 1 ≤ fuel by omega)
    have hempty : (unlines (itemLiterals level [])).toList = [] := rfl
    rw [hempty, List.nil_append, skipGaps_indentOf]
    rfl
  | cons item items ih =>
    obtain ⟨hitem, hothers⟩ := List.forall_mem_cons.mp hitems
    obtain ⟨fuel, rfl⟩ := Nat.exists_eq_add_of_le' (show 1 ≤ fuel by omega)
    have hlines (tail : List Char) :
        (unlines (itemLiterals level (item :: items))).toList ++ tail =
          (indentOf level).toList ++ ((literal level item).toList ++
            ',' :: '\n' :: ((unlines (itemLiterals level items)).toList ++ tail)) := by
      rw [itemLiterals, toList_unlines_cons]
      simp
    have hlength := congrArg List.length (hlines [])
    simp only [List.append_nil, List.length_append, List.length_cons] at hlength
    have hread := hitem fuel (',' :: '\n' :: ((unlines (itemLiterals level items)).toList ++
      ((indentOf closing).toList ++ ']' :: rest))) (by omega)
      (endsLiteral_cons (by decide) (by decide) _)
    have hline (chars : List Char) : skipGaps ('\n' :: chars) = skipGaps chars := rfl
    rw [hlines, skipGaps_indentOf, readItems_of_readLiteral hread, hline,
      ih hothers (by omega)]
    rfl

/-- The lines of a mapping are read up to the closing bracket. -/
theorem readMembers_memberLiterals (hmembers : ∀ member ∈ members, ReadsBack level member.2)
    (closing : Nat) (rest : List Char)
    (hfuel : 2 * (unlines (memberLiterals level members)).toList.length < fuel) :
    readMembers fuel (skipGaps ((unlines (memberLiterals level members)).toList ++
      ((indentOf closing).toList ++ '\x7d' :: rest))) = some (members, rest) := by
  induction members generalizing fuel with
  | nil =>
    obtain ⟨fuel, rfl⟩ := Nat.exists_eq_add_of_le' (show 1 ≤ fuel by omega)
    have hempty : (unlines (memberLiterals level [])).toList = [] := rfl
    rw [hempty, List.nil_append, skipGaps_indentOf]
    rfl
  | cons member members ih =>
    obtain ⟨key, value⟩ := member
    have hvalue : ReadsBack level value := hmembers (key, value) List.mem_cons_self
    have hothers := (List.forall_mem_cons.mp hmembers).2
    obtain ⟨fuel, rfl⟩ := Nat.exists_eq_add_of_le' (show 1 ≤ fuel by omega)
    have hlines (tail : List Char) :
        (unlines (memberLiterals level ((key, value) :: members))).toList ++ tail =
          (indentOf level).toList ++ ((doubleQuoted key).toList ++ ':' :: ' ' ::
            ((literal level value).toList ++
              ',' :: '\n' :: ((unlines (memberLiterals level members)).toList ++ tail))) := by
      rw [memberLiterals, toList_unlines_cons]
      simp
    have hlength := congrArg List.length (hlines [])
    simp only [List.append_nil, List.length_append, List.length_cons] at hlength
    have hread := hvalue fuel (',' :: '\n' :: ((unlines (memberLiterals level members)).toList ++
      ((indentOf closing).toList ++ '\x7d' :: rest))) (by omega)
      (endsLiteral_cons (by decide) (by decide) _)
    have hline (chars : List Char) : skipGaps ('\n' :: chars) = skipGaps chars := rfl
    rw [hlines, skipGaps_indentOf, readMembers_of_readLiteral hread, hline,
      ih hothers (by omega)]
    rfl

theorem readsBack_arr (hitems : ∀ item ∈ items, ReadsBack (level + 1) item) :
    ReadsBack level (.arr items) := by
  intro fuel rest hfuel _
  cases items with
  | nil =>
    have htext : (literal level (.arr [])).toList = ['[', ']'] := by
      rw [literal]
      rfl
    rw [htext] at hfuel ⊢
    obtain ⟨fuel, rfl⟩ := Nat.exists_eq_add_of_le' (Nat.le_trans (by decide : 2 ≤ 4) hfuel)
    rfl
  | cons item items =>
    have hlines (rest : List Char) : (literal level (.arr (item :: items))).toList ++ rest =
        '[' :: '\n' :: ((unlines (itemLiterals (level + 1) (item :: items))).toList ++
          ((indentOf level).toList ++ ']' :: rest)) := by
      rw [literal, itemLiterals, ← join_lines]
      · simp
      · simp
    have hlength := congrArg List.length (hlines [])
    simp only [List.append_nil, List.length_append, List.length_cons] at hlength
    obtain ⟨fuel, rfl⟩ := Nat.exists_eq_add_of_le' (show 1 ≤ fuel by omega)
    have hline (chars : List Char) : skipGaps ('\n' :: chars) = skipGaps chars := rfl
    rw [hlines, readLiteral, hline, readItems_itemLiterals hitems level rest (by omega)]
    rfl

theorem readsBack_obj (hkeys : (members.map Prod.fst).Nodup)
    (hmembers : ∀ member ∈ members, ReadsBack (level + 1) member.2) :
    ReadsBack level (.obj members) := by
  intro fuel rest hfuel _
  cases members with
  | nil =>
    have htext : (literal level (.obj [])).toList = ['\x7b', '\x7d'] := by
      rw [literal]
      rfl
    rw [htext] at hfuel ⊢
    obtain ⟨fuel, rfl⟩ := Nat.exists_eq_add_of_le' (Nat.le_trans (by decide : 2 ≤ 4) hfuel)
    rfl
  | cons member members =>
    have hlines (rest : List Char) : (literal level (.obj (member :: members))).toList ++ rest =
        '\x7b' :: '\n' :: ((unlines (memberLiterals (level + 1) (member :: members))).toList ++
          ((indentOf level).toList ++ '\x7d' :: rest)) := by
      rw [literal, memberLiterals, ← join_lines]
      · simp
      · simp
    have hlength := congrArg List.length (hlines [])
    simp only [List.append_nil, List.length_append, List.length_cons] at hlength
    obtain ⟨fuel, rfl⟩ := Nat.exists_eq_add_of_le' (show 1 ≤ fuel by omega)
    have hline (chars : List Char) : skipGaps ('\n' :: chars) = skipGaps chars := rfl
    rw [hlines, readLiteral, hline, readMembers_memberLiterals hmembers level rest (by omega),
      ← ofMembers_eq_obj hkeys]
    rfl

/-- The induction is on the value, whose parts have literals one level further in. -/
theorem readsBack (h : value.Readable) (level : Nat) : ReadsBack level value := by
  induction value using Json.nested_induction generalizing level with
  | null =>
    have htext : literal level .null = "None" := by simp [literal, shown]
    exact readsBack_of_word (by rw [htext]; decide) (by rw [htext]; rfl)
  | bool value =>
    have htext : literal level (.bool value) = shownBool value := by simp [literal, shown]
    cases value <;> exact readsBack_of_word (by rw [htext]; decide) (by rw [htext]; rfl)
  | int n =>
    exact readsBack_of_number (by simp [literal]) (readNumber_int (h _ (mem_values_self (.int n))))
  | real x => exact readsBack_of_number (by simp [literal]) (h _ (mem_values_self _))
  | str text => exact readsBack_str level text
  | arr items ih =>
    rw [readable_arr_iff] at h
    exact readsBack_arr fun item hitem ↦ ih item hitem (h item hitem) (level + 1)
  | obj members ih =>
    rw [readable_obj_iff] at h
    exact readsBack_obj h.1 fun member hmember ↦
      ih member hmember (h.2 member hmember) (level + 1)

theorem evaluate_literal (h : value.Readable) (level : Nat) :
    evaluate (literal level value) = some value := by
  have hread := readsBack h level _ [] le_rfl endsLiteral_nil
  rw [List.append_nil] at hread
  rw [evaluate, hread]

example : evaluate "\x7b'a': [-1, True], 'b': \"\", 'a': None,\x7d" =
    some (.obj [("a", .null), ("b", .str "")]) := by cbv

example : evaluate "['a' 'b']" = none := by cbv

/-- The schema constant of a module: the lines that annotate and set its name, in which a literal
stands for the value. -/
def HasConstant (text name : String) (value : Json) : Prop :=
  ∃ shown, HasLines text [name ++ ": dict[str, Any] = " ++ shown] ∧ evaluate shown = some value

theorem hasLines_constant (m : Module) (comment : String) :
    HasLines (m.render comment) [m.definition.names.schemaName ++ ": dict[str, Any] = " ++
      literal 0 m.definition.document] := by
  have hpart : HasLines (m.render comment) ["", "", m.definition.names.schemaName ++
      ": dict[str, Any] = " ++ literal 0 m.definition.document] := by
    rw [render_eq_unlines]
    exact hasLines_of_mem_parts (by simp [moduleParts])
  exact hpart.of_mem (by simp)

/-- The literal of a value has that value, and the constant of a module the registry document of
its definition. -/
theorem literal_evaluates (h : value.Readable) :
    (∀ level, evaluate (literal level value) = some value) ∧
    ∀ (conventions : Conventions) (name comment : String),
      HasConstant ((Module.of (.of conventions name value)).render comment)
        (conventions.names name).schemaName
        (registryDocument conventions.referenceLead name value) := by
  refine ⟨evaluate_literal h, fun conventions name comment ↦ ?_⟩
  have hlines := hasLines_constant (Module.of (.of conventions name value)) comment
  have hdocument := readable_registryDocument h conventions.referenceLead name
  rw [definition_of] at hlines
  exact ⟨_, hlines, evaluate_literal hdocument 0⟩

/-- A schema with a negative number, a fraction, and texts that need escapes. -/
def escapedSchema : Json := .obj [
  ("type", .str "object"), ("minimum", .int (-7)), ("multipleOf", .real (.ofDecimal false 5 (-1))),
  ("enum", .arr [.str "a\"b\\c\n\x01é", .bool true, .null, .arr [], .obj []])]

theorem literal_evaluates_escapedSchema : escapedSchema.Readable ∧
    evaluate (literal 1 escapedSchema) = some escapedSchema ∧
    HasConstant ((Module.of (.of ⟨.python, "", "#/definitions/"⟩ "x.Pod" escapedSchema)).render "")
      (Conventions.names ⟨.python, "", "#/definitions/"⟩ "x.Pod").schemaName
      (registryDocument "#/definitions/" "x.Pod" escapedSchema) := by
  have hint : ReadsAlone (.int (-7)) := show (Nat.toDigits 10 7).length ≤ 4300 by decide
  have hreal : ReadsAlone (.real (.ofDecimal false 5 (-1))) := rfl
  have hleaves : (Json.int (-7)).Readable ∧ (Json.real (.ofDecimal false 5 (-1))).Readable ∧
      (Json.bool true).Readable ∧ Json.null.Readable :=
    ⟨(readable_iff_readsAlone rfl).mpr hint, (readable_iff_readsAlone rfl).mpr hreal,
      (readable_iff_readsAlone rfl).mpr trivial, (readable_iff_readsAlone rfl).mpr trivial⟩
  have h : escapedSchema.Readable := by
    simpa [escapedSchema, readable_obj_iff, readable_arr_iff, readable_str] using hleaves
  exact ⟨h, (literal_evaluates h).1 1,
    (literal_evaluates h).2 ⟨.python, "", "#/definitions/"⟩ "x.Pod" ""⟩

end SchemaModules.Python
