import SchemaModules.Json.Reader
import SchemaModules.Text.Quoted

/-!
# Reading quoted texts

A reader of quoted texts that knows the escapes on which the languages of the generated modules
agree. A text between double quotes is read back from it, and the reader stops behind the closing
quote whatever follows.
-/

namespace SchemaModules.Text

open Json.Reader

variable {text rest : List Char} {c : Char}

/-- The character of an escape that is no number. -/
def plainEscape? : Char → Option Char
  | '"' => some '"'
  | '\x27' => some '\x27'
  | '\\' => some '\\'
  | 'b' => some '\x08'
  | 'f' => some '\x0c'
  | 'n' => some '\n'
  | 'r' => some '\r'
  | 't' => some '\t'
  | 'v' => some '\x0b'
  | _ => none

/-- The character with a number, unless the number is one half of a surrogate pair. -/
def character? (code : Nat) : Option Char :=
  if code.isValidChar then some (Char.ofNat code) else none

/-- The text up to the closing quote, and what follows the quote. -/
def readQuoted (quote : Char) : List Char → Option (List Char × List Char)
  | [] => none
  | '\\' :: 'u' :: a :: b :: c :: d :: rest => do
    let first ← character? (← hexUnit? a b c d)
    let (text, rest) ← readQuoted quote rest
    return (first :: text, rest)
  | '\\' :: 'x' :: a :: b :: rest => do
    let first ← character? (← hexUnit? '0' '0' a b)
    let (text, rest) ← readQuoted quote rest
    return (first :: text, rest)
  | '\\' :: mark :: rest => do
    let first ← plainEscape? mark
    let (text, rest) ← readQuoted quote rest
    return (first :: text, rest)
  | c :: rest => do
    if c = quote then return ([], rest)
    if c.toNat < 0x20 || c = '\\' then none
    let (text, rest) ← readQuoted quote rest
    return (c :: text, rest)

/-- A reader that goes on behind a character. -/
def afterChar (c : Char) (read : Option (List Char × List Char)) : Option (List Char × List Char) :=
  read.map fun (text, rest) ↦ (c :: text, rest)

theorem readQuoted_of_unescaped (hquote : c ≠ '"') (hescape : c ≠ '\\') (hcontrol : 0x20 ≤ c.toNat)
    (rest : List Char) : readQuoted '"' (c :: rest) = afterChar c (readQuoted '"' rest) := by
  have hbelow : ¬c.toNat < 0x20 := Nat.not_lt.mpr hcontrol
  rw [readQuoted]
  · simp only [hquote, hescape, hbelow, ↓reduceIte, decide_false, Bool.or_self]
    cases readQuoted '"' rest <;> rfl
  all_goals
    intros
    simp_all

theorem readQuoted_of_plainEscape {mark : Char} (hmark : plainEscape? mark = some c)
    (rest : List Char) :
    readQuoted '"' ('\\' :: mark :: rest) = afterChar c (readQuoted '"' rest) := by
  rw [readQuoted]
  · rw [hmark]
    cases readQuoted '"' rest <;> rfl
  all_goals
    intros
    simp_all [plainEscape?]

/-- The digits of a control character give it back. -/
theorem exists_hexDigits_of_control (hcontrol : c.toNat < 0x20) :
    ∃ first second, hexDigits 4 c.toNat = ['0', '0', first, second] ∧
      hexUnit? '0' '0' first second = some c.toNat := by
  have hall : ∀ code < 0x20, ∃ first second, hexDigits 4 code = ['0', '0', first, second] ∧
      hexUnit? '0' '0' first second = some code := by
    intro code hcode
    refine ⟨(hexDigits 4 code).getD 2 '0', (hexDigits 4 code).getD 3 '0', ?_⟩
    revert code
    decide
  exact hall _ hcontrol

theorem readQuoted_of_control (hcontrol : c.toNat < 0x20) (rest : List Char) :
    readQuoted '"' ('\\' :: 'u' :: hexDigits 4 c.toNat ++ rest) =
      afterChar c (readQuoted '"' rest) := by
  obtain ⟨first, second, hdigits, hvalue⟩ := exists_hexDigits_of_control hcontrol
  have hchar : character? c.toNat = some c := by
    rw [character?, if_pos (show c.toNat.isValidChar from c.valid), Char.ofNat_toNat]
  simp only [hdigits, List.cons_append, List.nil_append, readQuoted, hvalue, Option.bind_eq_bind,
    Option.bind_some, hchar]
  cases readQuoted '"' rest <;> rfl

/-- One character is read from its escape. -/
theorem readQuoted_escapeInJson (c : Char) (rest : List Char) :
    readQuoted '"' (escapeInJson c ++ rest) = afterChar c (readQuoted '"' rest) := by
  rw [escapeInJson]
  split
  · next hmark =>
    have hplain : plainEscape? c = some c := by
      rcases Bool.or_eq_true_iff.mp hmark with hquote | hescape
      · rw [of_decide_eq_true hquote]
        rfl
      · rw [of_decide_eq_true hescape]
        rfl
    exact readQuoted_of_plainEscape hplain rest
  · next hmark =>
    simp only [Bool.or_eq_true, decide_eq_true_eq, not_or] at hmark
    split
    · next hcontrol =>
      rw [escapeControl.eq_def]
      split
      case h_6 => exact readQuoted_of_control hcontrol rest
      all_goals exact readQuoted_of_plainEscape rfl rest
    · next hcontrol =>
      exact readQuoted_of_unescaped hmark.1 hmark.2 (Nat.le_of_not_lt hcontrol) rest

theorem readQuoted_flatMap (text rest : List Char) :
    readQuoted '"' (text.flatMap escapeInJson ++ '"' :: rest) = some (text, rest) := by
  induction text with
  | nil => simp [readQuoted]
  | cons c text ih => rw [List.flatMap_cons, List.append_assoc, readQuoted_escapeInJson, ih]; rfl

theorem toList_doubleQuoted (text : String) :
    (doubleQuoted text).toList = '"' :: (text.toList.flatMap escapeInJson ++ ['"']) :=
  String.toList_ofList

/-- A quoted text is read back, and nothing behind it is. -/
theorem readQuoted_doubleQuoted (text : String) (rest : List Char) :
    ∃ inner, (doubleQuoted text).toList ++ rest = '"' :: inner ∧
      readQuoted '"' inner = some (text.toList, rest) := by
  refine ⟨_, by rw [toList_doubleQuoted, List.cons_append], ?_⟩
  rw [List.append_assoc]
  exact readQuoted_flatMap text.toList rest

end SchemaModules.Text
