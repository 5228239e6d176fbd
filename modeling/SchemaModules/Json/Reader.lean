import SchemaModules.Json.Basic

/-!
# Reading JSON

A reader of JSON texts that also takes `NaN`, `Infinity` and `-Infinity`. A text that is no JSON
is refused with the first place where reading cannot go on. Places are counted in characters, and
lines end at line feeds.
-/

namespace SchemaModules.Json

open Number

inductive Obstacle
  | value
  | memberName
  | colon
  | comma
  | unterminatedText
  | controlCharacter
  | escape
  | unicodeEscape
  | extraData
  | byteOrderMark

def Obstacle.message : Obstacle → String
  | value => "Expecting value"
  | memberName => "Expecting property name enclosed in double quotes"
  | colon => "Expecting ':' delimiter"
  | comma => "Expecting ',' delimiter"
  | unterminatedText => "Unterminated string starting at"
  | controlCharacter => "Invalid control character at"
  | escape => "Invalid \\escape"
  | unicodeEscape => "Invalid \\uXXXX escape"
  | extraData => "Extra data"
  | byteOrderMark => "Unexpected UTF-8 BOM (decode using utf-8-sig)"

/-- Why a text is refused. -/
inductive ReadFault
  | stuck (obstacle : Obstacle) (line column position : Nat)
  | tooManyDigits (count : Nat)

def ReadFault.message : ReadFault → String
  | stuck obstacle line column position =>
    s!"{obstacle.message}: line {line} column {column} (char {position})"
  | tooManyDigits count =>
    s!"Exceeds the limit (4300 digits) for integer string conversion: value has {count} digits; " ++
      "use sys.set_int_max_str_digits() to increase the limit"

namespace Reader

/-- Whole numbers with more digits than this are refused. -/
def maxDigits : Nat := 4300

inductive Stop
  | stuck (obstacle : Obstacle) (position : Nat)
  | tooManyDigits (count : Nat)

/-- The characters not read yet, and how many were read. -/
structure Cursor where
  rest : List Char
  position : Nat

def Cursor.advance (c : Cursor) (count : Nat) : Cursor := ⟨c.rest.drop count, c.position + count⟩

def isSpace (c : Char) : Bool := c = ' ' || c = '\t' || c = '\n' || c = '\r'

def Cursor.skipSpace (c : Cursor) : Cursor := c.advance (c.rest.takeWhile isSpace).length

def hexValue? (c : Char) : Option Nat :=
  if c.isDigit then some (c.toNat - 48)
  else if 'a' ≤ c ∧ c ≤ 'f' then some (c.toNat - 87)
  else if 'A' ≤ c ∧ c ≤ 'F' then some (c.toNat - 55)
  else none

def hexUnit? (a b c d : Char) : Option Nat := do
  let a ← hexValue? a
  let b ← hexValue? b
  let c ← hexValue? c
  let d ← hexValue? d
  return ((a * 16 + b) * 16 + c) * 16 + d

def simpleEscape? : Char → Option Char
  | '"' => some '"'
  | '\\' => some '\\'
  | '/' => some '/'
  | 'b' => some '\x08'
  | 'f' => some '\x0c'
  | 'n' => some '\n'
  | 'r' => some '\r'
  | 't' => some '\t'
  | _ => none

/-- The code points of a text whose opening quote stands at `start`; escapes of 16-bit units are
not joined yet. `units` holds what was read, last first. -/
def textUnits (start : Nat) (units : List Nat) (position : Nat) :
    List Char → Except Stop (List Nat × Cursor)
  | [] => .error (.stuck .unterminatedText start)
  | '"' :: rest => .ok (units.reverse, ⟨rest, position + 1⟩)
  | '\\' :: 'u' :: a :: b :: c :: d :: rest =>
    match rest.isEmpty, hexUnit? a b c d with
    | false, some unit => textUnits start (unit :: units) (position + 6) rest
    | _, _ => .error (.stuck .unicodeEscape (position + 1))
  | '\\' :: 'u' :: _ => .error (.stuck .unicodeEscape (position + 1))
  | ['\\'] => .error (.stuck .unterminatedText start)
  | '\\' :: c :: rest =>
    match simpleEscape? c with
    | some plain => textUnits start (plain.toNat :: units) (position + 2) rest
    | none => .error (.stuck .escape position)
  | c :: rest =>
    if c.toNat < 0x20 then .error (.stuck .controlCharacter position)
    else textUnits start (c.toNat :: units) (position + 1) rest

def isHighSurrogate (unit : Nat) : Bool := 0xD800 ≤ unit && unit ≤ 0xDBFF

def isLowSurrogate (unit : Nat) : Bool := 0xDC00 ≤ unit && unit ≤ 0xDFFF

/-- Joins surrogate pairs. A surrogate without its partner becomes the replacement character. -/
def joinUnits : List Nat → List Char
  | [] => []
  | [unit] =>
    [if isHighSurrogate unit || isLowSurrogate unit then '\ufffd' else Char.ofNat unit]
  | first :: second :: rest =>
    if isHighSurrogate first && isLowSurrogate second then
      Char.ofNat (0x10000 + (first - 0xD800) * 0x400 + (second - 0xDC00)) :: joinUnits rest
    else
      (if isHighSurrogate first || isLowSurrogate first then '\ufffd' else Char.ofNat first) ::
        joinUnits (second :: rest)

/-- A text, the cursor standing behind its opening quote. -/
def text (c : Cursor) : Except Stop (String × Cursor) := do
  let (units, after) ← textUnits (c.position - 1) [] c.position c.rest
  return (String.ofList (joinUnits units), after)

def digitsValue (digits : List Char) : Nat :=
  digits.foldl (fun value digit => value * 10 + (digit.toNat - 48)) 0

def splitDigits (chars : List Char) : List Char × List Char :=
  (chars.takeWhile Char.isDigit, chars.dropWhile Char.isDigit)

/-- Whether there is a minus sign first, and what follows it. -/
def splitSign : List Char → Bool × List Char
  | '-' :: rest => (true, rest)
  | rest => (false, rest)

/-- Digits without leading zeros, and what follows them. -/
def wholeDigits : List Char → List Char × List Char
  | '0' :: rest => (['0'], rest)
  | rest => splitDigits rest

/-- The digits after a point, if a point with a digit after it comes next. -/
def fractionDigits : List Char → List Char × List Char
  | '.' :: rest =>
    match splitDigits rest with
    | ([], _) => ([], '.' :: rest)
    | parts => parts
  | rest => ([], rest)

/-- The exponent and the number of characters it takes, if an exponent part comes next. -/
def exponentDigits (chars : List Char) : Option (Int × Nat) :=
  match chars with
  | mark :: rest =>
    if mark = 'e' || mark = 'E' then
      let (negative, signed, rest) :=
        match rest with
        | '-' :: rest => (true, 1, rest)
        | '+' :: rest => (false, 1, rest)
        | rest => (false, 0, rest)
      match splitDigits rest with
      | ([], _) => none
      | (digits, _) =>
        let size : Int := digitsValue digits
        some (if negative then -size else size, 1 + signed + digits.length)
    else none
  | [] => none

/-- A number: no leading zeros, a fraction and an exponent only when complete. What follows the
longest number is left for the next reader. -/
def number (c : Cursor) : Except Stop (Json × Cursor) :=
  let (negative, afterSign) := splitSign c.rest
  let (whole, afterWhole) := wholeDigits afterSign
  let (fraction, afterFraction) := fractionDigits afterWhole
  let fractionLength := if fraction.isEmpty then 0 else fraction.length + 1
  let length := (if negative then 1 else 0) + whole.length + fractionLength
  let digits := digitsValue (whole ++ fraction)
  if whole.isEmpty then .error (.stuck .value c.position)
  else
    match exponentDigits afterFraction with
    | some (exponent, exponentLength) =>
      .ok (.real (.ofDecimal negative digits (exponent - fraction.length)),
        c.advance (length + exponentLength))
    | none =>
      if fraction.isEmpty then
        if maxDigits < whole.length then .error (.tooManyDigits whole.length)
        else .ok (.int (if negative then -digits else digits), c.advance length)
      else .ok (.real (.ofDecimal negative digits (-(fraction.length : Int))), c.advance length)

/-- The words that stand for a value. -/
def words : List (String × Json) := [
  ("null", .null), ("true", .bool true), ("false", .bool false), ("NaN", .real .nan),
  ("Infinity", .real (.infinite false)), ("-Infinity", .real (.infinite true))]

def word? (c : Cursor) : Option (Json × Cursor) :=
  (words.find? fun (word, _) => word.toList.isPrefixOf c.rest).map fun (word, value) =>
    (value, c.advance word.length)

mutual

/-- A value that begins at the cursor. `fuel` bounds the steps; twice the length of the text is
always enough, since every second step reads a character. -/
def value : (fuel : Nat) → Cursor → Except Stop (Json × Cursor)
  | 0, c => .error (.stuck .value c.position)
  | fuel + 1, c =>
    match c.rest with
    | '"' :: _ => do
      let (text, after) ← text (c.advance 1)
      return (.str text, after)
    | '[' :: _ =>
      let inside := (c.advance 1).skipSpace
      match inside.rest with
      | ']' :: _ => .ok (.arr [], inside.advance 1)
      | _ => items fuel [] inside
    | '\x7b' :: _ =>
      let inside := (c.advance 1).skipSpace
      match inside.rest with
      | '\x7d' :: _ => .ok (.obj [], inside.advance 1)
      | _ => memberList fuel [] inside
    | _ =>
      match word? c with
      | some found => .ok found
      | none => number c

/-- The items of an array from the cursor on; `read` holds those before it, last first. -/
def items : (fuel : Nat) → (read : List Json) → Cursor → Except Stop (Json × Cursor)
  | 0, _, c => .error (.stuck .value c.position)
  | fuel + 1, read, c => do
    let (item, after) ← value fuel c
    let after := after.skipSpace
    match after.rest with
    | ']' :: _ => return (.arr (item :: read).reverse, after.advance 1)
    | ',' :: _ => items fuel (item :: read) (after.advance 1).skipSpace
    | _ => throw (.stuck .comma after.position)

/-- The members of an object from the cursor on; `read` holds those before it in order. -/
def memberList : (fuel : Nat) → (read : List (String × Json)) → Cursor → Except Stop (Json × Cursor)
  | 0, _, c => .error (.stuck .value c.position)
  | fuel + 1, read, c => do
    match c.rest with
    | '"' :: _ =>
      let (name, afterName) ← text (c.advance 1)
      let afterName := afterName.skipSpace
      match afterName.rest with
      | ':' :: _ =>
        let (item, after) ← value fuel (afterName.advance 1).skipSpace
        let read := setMember name item read
        let after := after.skipSpace
        match after.rest with
        | '\x7d' :: _ => return (.obj read, after.advance 1)
        | ',' :: _ => memberList fuel read (after.advance 1).skipSpace
        | _ => throw (.stuck .comma after.position)
      | _ => throw (.stuck .colon afterName.position)
    | _ => throw (.stuck .memberName c.position)

end

/-- Exactly one value, with blanks around it. -/
def document (chars : List Char) : Except Stop Json := do
  if chars.head? = some '\ufeff' then throw (.stuck .byteOrderMark 0)
  let (result, after) ← value (2 * chars.length + 2) (Cursor.skipSpace ⟨chars, 0⟩)
  let after := after.skipSpace
  if after.rest.isEmpty then return result
  else throw (.stuck .extraData after.position)

/-- Line and column of a place, both counted from one. -/
def place (chars : List Char) (position : Nat) : Nat × Nat :=
  let before := chars.take position
  (before.count '\n' + 1, (before.reverse.takeWhile (· ≠ '\n')).length + 1)

end Reader

/-- Reads a text that holds one JSON value. -/
def read (text : String) : Except ReadFault Json :=
  let chars := text.toList
  match Reader.document chars with
  | .ok value => .ok value
  | .error (.tooManyDigits count) => .error (.tooManyDigits count)
  | .error (.stuck obstacle position) =>
    let (line, column) := Reader.place chars position
    .error (.stuck obstacle line column position)

end SchemaModules.Json
