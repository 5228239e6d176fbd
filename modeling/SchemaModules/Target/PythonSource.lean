import SchemaModules.Fault
import SchemaModules.Naming.Identifier
import SchemaModules.Text.IdentifierTable

/-!
# Checking Python sources

A check that refuses what cannot be a Python module: open brackets and texts, characters and
numbers that do not exist, functions, classes and imports without a proper name, two operands in a
row, and statements that begin with an operator or assign to a constant. Whatever is generated from
a name that is no identifier fails one of these, and every proper module passes.
-/

namespace SchemaModules.Python

open Naming Text

inductive Token
  | name (text : String)
  | number
  | text
  | symbol (symbol : Char)
  | lineEnd
  deriving DecidableEq, Repr

def isAsciiLetter (c : Char) : Bool := c.isAlpha || c = '_'

def inRanges (ranges : List (Nat × Nat)) (c : Char) : Bool :=
  ranges.any fun (first, last) => first ≤ c.toNat && c.toNat ≤ last

def beginsIdentifier (c : Char) : Bool :=
  isAsciiLetter c || (127 < c.toNat && inRanges identifierStartRanges c)

def continuesIdentifier (c : Char) : Bool :=
  isAsciiLetter c || c.isDigit || (127 < c.toNat && inRanges identifierContinueRanges c)

/-- Letters that may stand before the opening quote of a text. -/
def textMarks : List String :=
  ["r", "u", "b", "f", "br", "rb", "fr", "rf"]

def isTextMark (name : List Char) : Bool :=
  textMarks.contains (String.ofList (name.map Char.toLower))

/-- What follows the closing quote of a text on one line. -/
def afterText (quote : Char) : List Char → Option (List Char)
  | [] => none
  | '\\' :: _ :: rest => afterText quote rest
  | '\n' :: _ => none
  | c :: rest => if c = quote then some rest else afterText quote rest

/-- What follows the three closing quotes of a text. -/
def afterLongText (quote : Char) : List Char → Option (List Char)
  | [] => none
  | '\\' :: _ :: rest => afterLongText quote rest
  | a :: b :: c :: rest =>
    if a = quote && b = quote && c = quote then some rest else afterLongText quote (b :: c :: rest)
  | _ :: rest => afterLongText quote rest

/-- What follows a text, the input beginning behind its first quote. -/
def skipText (quote : Char) : List Char → Option (List Char)
  | a :: b :: rest =>
    if a = quote && b = quote then afterLongText quote rest else afterText quote (a :: b :: rest)
  | rest => afterText quote rest

def isHexDigit (c : Char) : Bool :=
  c.isDigit || ('a' ≤ c && c ≤ 'f') || ('A' ≤ c && c ≤ 'F')

def isDigitOrGap (c : Char) : Bool := c.isDigit || c = '_'

/-- Whether letters and digits in a row are a number: a base and its digits, or decimal digits,
perhaps with an exponent and the mark of imaginary numbers. -/
def isNumber (word : List Char) : Bool :=
  match word with
  | '0' :: mark :: digits =>
    if mark = 'x' || mark = 'X' then !digits.isEmpty && digits.all fun c => isHexDigit c || c = '_'
    else if mark = 'o' || mark = 'O' || mark = 'b' || mark = 'B' then
      !digits.isEmpty && digits.all isDigitOrGap
    else isDecimal word
  | _ => isDecimal word
where
  isDecimal (word : List Char) : Bool :=
    match word.dropWhile isDigitOrGap with
    | [] => true
    | mark :: rest =>
      if mark = 'e' || mark = 'E' then
        let rest := rest.dropWhile isDigitOrGap
        rest.isEmpty || rest = ['j'] || rest = ['J']
      else rest.isEmpty && (mark = 'j' || mark = 'J')

def symbols : List Char := "()[]\x7b\x7d+-*/%@&|^~<>=:,;.".toList

/-- The tokens of a source, or nothing where none can be read. Line ends inside brackets are kept.
Every step reads a character, so the length of the source is fuel enough. -/
def tokens : (fuel : Nat) → List Char → Option (List Token)
  | 0, _ => some []
  | _, [] => some []
  | fuel + 1, c :: rest =>
    if c = '\n' || c = '\r' then (tokens fuel rest).map (.lineEnd :: ·)
    else if c = ' ' || c = '\t' || c = '\x0c' then tokens fuel rest
    else if c = '#' then tokens fuel (rest.dropWhile fun c => c != '\n' && c != '\r')
    else if c = '\\' then
      match rest with
      | '\n' :: rest => tokens fuel rest
      | _ => none
    else if c = '"' || c = '\x27' then do
      let after ← skipText c rest
      return .text :: (← tokens fuel after)
    else if beginsIdentifier c then
      let name := c :: rest.takeWhile continuesIdentifier
      let after := rest.dropWhile continuesIdentifier
      match after with
      | quote :: inner =>
        if (quote = '"' || quote = '\x27') && isTextMark name then do
          let after ← skipText quote inner
          return .text :: (← tokens fuel after)
        else (tokens fuel after).map (.name (String.ofList name) :: ·)
      | [] => (tokens fuel after).map (.name (String.ofList name) :: ·)
    else if c.isDigit then
      let word := c :: rest.takeWhile continuesIdentifier
      let after := rest.dropWhile continuesIdentifier
      if isNumber word then (tokens fuel after).map (.number :: ·) else none
    else if c = '!' then
      match rest with
      | '=' :: rest => (tokens fuel rest).map (.symbol '=' :: ·)
      | _ => none
    else if symbols.contains c then (tokens fuel rest).map (.symbol c :: ·)
    else none

/-- The bracket that an opening bracket asks for. -/
def closerOf : Char → Option Char
  | '(' => some ')'
  | '[' => some ']'
  | '\x7b' => some '\x7d'
  | _ => none

def isCloser (c : Char) : Bool := c = ')' || c = ']' || c = '\x7d'

/-- The statements of a source: tokens between line ends that are outside all brackets. `awaited`
holds the closing brackets still to come and `current` the tokens of this line, last first. -/
def statements (awaited : List Char) (current : List Token) :
    List Token → Option (List (List Token))
  | [] => if awaited.isEmpty then some [current.reverse] else none
  | .lineEnd :: rest =>
    if awaited.isEmpty then (statements [] [] rest).map (current.reverse :: ·)
    else statements awaited current rest
  | .symbol c :: rest =>
    match closerOf c with
    | some closer => statements (closer :: awaited) (.symbol c :: current) rest
    | none =>
      if isCloser c then
        match awaited with
        | closer :: awaited =>
          if closer = c then statements awaited (.symbol c :: current) rest else none
        | [] => none
      else statements awaited (.symbol c :: current) rest
  | token :: rest => statements awaited (token :: current) rest

def constants : List String := ["None", "True", "False"]

/-- A word of the language that is no value. -/
def isConnective (word : String) : Bool :=
  reservedWords.contains word && !constants.contains word

def Token.isOperand : Token → Bool
  | .name word => !isConnective word
  | .number | .text => true
  | _ => false

def Token.endsOperand : Token → Bool
  | .symbol c => isCloser c
  | token => token.isOperand

/-- Two operands follow each other, texts apart, which join. -/
def hasNeighbours : List Token → Bool
  | .text :: .text :: rest => hasNeighbours (.text :: rest)
  | a :: b :: rest => (a.endsOperand && b.isOperand) || hasNeighbours (b :: rest)
  | _ => false

def isProperName (word : String) : Bool := !reservedWords.contains word

/-- Functions have a name and parameters, classes a name and then a bracket or a colon. -/
def namesDefinitions : List Token → Bool
  | .name "def" :: .name word :: .symbol '(' :: rest => isProperName word && namesDefinitions rest
  | .name "def" :: _ => false
  | .name "class" :: .name word :: .symbol c :: rest =>
    isProperName word && (c = '(' || c = ':') && namesDefinitions rest
  | .name "class" :: _ => false
  | _ :: rest => namesDefinitions rest
  | [] => true

/-- Names that may be imported, alone or in a list. -/
def isImportList (tokens : List Token) : Bool :=
  !tokens.isEmpty && tokens.all fun
    | .name word => isProperName word || word = "as"
    | .symbol c => c = ',' || c = '(' || c = ')' || c = '*' || c = '.'
    | _ => false

/-- A dotted module name, dots first. -/
def isModuleName (tokens : List Token) : Bool :=
  !tokens.isEmpty && tokens.all fun
    | .name word => isProperName word
    | .symbol c => c = '.'
    | _ => false

def isImport (rest : List Token) : Bool :=
  match rest.span (· != .name "import") with
  | (module, _ :: list) => isModuleName module && isImportList list
  | (_, []) => false

/-- Symbols with which a statement may begin. -/
def opensStatement (c : Char) : Bool := "([\x7b+-~@*.".toList.contains c

def isStatement (tokens : List Token) : Bool :=
  namesDefinitions tokens &&
  match tokens with
  | .name "from" :: rest => isImport rest
  | .name "import" :: rest => isImportList rest
  | .name "match" :: _ | .name "case" :: _ | .name "type" :: _ => true
  | .name word :: .symbol c :: _ =>
    !(constants.contains word && (c = '=' || c = ':')) && !hasNeighbours tokens
  | .symbol c :: _ => opensStatement c && !hasNeighbours tokens
  | _ => !hasNeighbours tokens

/-- Whether a text can be a Python module. -/
def isSource (chars : List Char) : Bool :=
  match (tokens chars.length chars).bind (statements [] []) with
  | some lines => lines.all isStatement
  | none => false

/-- Refuses a text that cannot be a Python module, such as one that holds a NUL character. -/
def checkSource (source : String) : Except Fault Unit :=
  let chars := source.toList
  if isSource chars && !chars.contains '\x00' then .ok () else .error .invalidSource

end SchemaModules.Python
