import SchemaModules.Text.PrintableTable

/-!
# Quoted texts

Two ways to write a text between quotes. `doubleQuoted` is the JSON string, which escapes the
quote, the backslash and the control characters below the space. `shownText` is the form in which
texts appear inside messages: between apostrophes unless that would need more escapes, and with
everything that cannot be printed written as a number.
-/

namespace SchemaModules.Text

/-- Hexadecimal digits of `n`, at least `width` of them. -/
def hexDigits (width n : Nat) : List Char :=
  let digits := Nat.toDigits 16 n
  List.replicate (width - digits.length) '0' ++ digits

def escapeControl (c : Char) : List Char :=
  match c with
  | '\n' => ['\\', 'n']
  | '\r' => ['\\', 'r']
  | '\t' => ['\\', 't']
  | '\x08' => ['\\', 'b']
  | '\x0c' => ['\\', 'f']
  | c => '\\' :: 'u' :: hexDigits 4 c.toNat

def escapeInJson (c : Char) : List Char :=
  if c = '"' || c = '\\' then ['\\', c]
  else if c.toNat < 0x20 then escapeControl c
  else [c]

/-- A JSON string in which characters outside ASCII stand for themselves. -/
def doubleQuoted (text : String) : String :=
  String.ofList ('"' :: text.toList.flatMap escapeInJson ++ ['"'])

/-- The code units of 16 bits that encode a character. -/
def codeUnits (c : Char) : List Nat :=
  let code := c.toNat
  if code < 0x10000 then [code]
  else [0xD800 + (code - 0x10000) / 0x400, 0xDC00 + (code - 0x10000) % 0x400]

def escapeInAscii (c : Char) : List Char :=
  if c.toNat < 0x7F then escapeInJson c
  else (codeUnits c).flatMap fun unit => '\\' :: 'u' :: hexDigits 4 unit

/-- A JSON string of ASCII characters only. -/
def asciiQuoted (text : String) : String :=
  String.ofList ('"' :: text.toList.flatMap escapeInAscii ++ ['"'])

def isPrintable (c : Char) : Bool :=
  printableRanges.any fun (first, last) => first ≤ c.toNat && c.toNat ≤ last

def escapeShown (quote c : Char) : List Char :=
  let code := c.toNat
  if c = quote || c = '\\' then ['\\', c]
  else if c = '\n' then ['\\', 'n']
  else if c = '\r' then ['\\', 'r']
  else if c = '\t' then ['\\', 't']
  else if isPrintable c then [c]
  else if code ≤ 0xFF then '\\' :: 'x' :: hexDigits 2 code
  else if code ≤ 0xFFFF then '\\' :: 'u' :: hexDigits 4 code
  else '\\' :: 'U' :: hexDigits 8 code

def shownText (text : String) : String :=
  let chars := text.toList
  let quote := if chars.contains '\x27' && !chars.contains '"' then '"' else '\x27'
  String.ofList (quote :: chars.flatMap (escapeShown quote) ++ [quote])

end SchemaModules.Text
