/-!
# Blank characters and line breaks

Blank characters are the separators of every script together with the control characters that
move the cursor or separate fields. Lines end at any vertical break; a carriage return and a line
feed after it end one line.
-/

namespace SchemaModules.Text

def isBlank (c : Char) : Bool :=
  let code := c.toNat
  (0x9 ≤ code && code ≤ 0xD) || (0x1C ≤ code && code ≤ 0x20) || code == 0x85 || code == 0xA0 ||
    code == 0x1680 || (0x2000 ≤ code && code ≤ 0x200A) || code == 0x2028 || code == 0x2029 ||
    code == 0x202F || code == 0x205F || code == 0x3000

/-- Drops what satisfies the condition at the end. -/
def dropEndWhile (drop : Char → Bool) (text : List Char) : List Char :=
  (text.reverse.dropWhile drop).reverse

def strip (text : List Char) : List Char := dropEndWhile isBlank (text.dropWhile isBlank)

def stripEnd (text : List Char) : List Char := dropEndWhile isBlank text

def isLineBreak (c : Char) : Bool :=
  let code := c.toNat
  (0xA ≤ code && code ≤ 0xD) || (0x1C ≤ code && code ≤ 0x1E) || code == 0x85 || code == 0x2028 ||
    code == 0x2029

/-- The lines of a text, where `line` holds the characters read of the current one, last first. -/
def splitLinesFrom (line : List Char) : List Char → List (List Char)
  | [] => if line.isEmpty then [] else [line.reverse]
  | '\r' :: '\n' :: rest => line.reverse :: splitLinesFrom [] rest
  | c :: rest =>
    if isLineBreak c then line.reverse :: splitLinesFrom [] rest
    else splitLinesFrom (c :: line) rest

/-- The lines of a text without their breaks. A break at the very end opens no further line. -/
def splitLines (text : List Char) : List (List Char) := splitLinesFrom [] text

end SchemaModules.Text
