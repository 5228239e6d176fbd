/-!
# Text patterns

Patterns are sequences of single characters, of sets of characters in brackets, or of the point
that stands for any character but a line break; each may be followed by `*`, `+` or `?`. A leading
`^` ties a pattern to the beginning of the text, a trailing `$` to its end. Patterns with anything
else are not read.
-/

namespace SchemaModules

namespace TextPattern

inductive CharSet
  | one (c : Char)
  | notBreak
  /-- Ranges from a first to a last character; `negated` admits all others. -/
  | among (negated : Bool) (ranges : List (Char × Char))

def CharSet.admits : CharSet → Char → Bool
  | one expected, c => c == expected
  | notBreak, c => c != '\n'
  | among negated ranges, c => negated != ranges.any fun (low, high) => low ≤ c && c ≤ high

inductive Piece
  | once (set : CharSet)
  | optional (set : CharSet)
  | many (set : CharSet)

/-- The end of a text, or the line break that ends it. -/
def atEnd : List Char → Bool
  | [] | ['\n'] => true
  | _ => false

/-- Whether the pieces match a beginning of the text, up to its end when `anchored`. -/
def matchesHere (anchored : Bool) : List Piece → List Char → Bool
  | [], s => !anchored || atEnd s
  | .once _ :: _, [] => false
  | .once set :: rest, c :: s => set.admits c && matchesHere anchored rest s
  | .optional _ :: rest, [] => matchesHere anchored rest []
  | .optional set :: rest, c :: s =>
    matchesHere anchored rest (c :: s) || (set.admits c && matchesHere anchored rest s)
  | .many _ :: rest, [] => matchesHere anchored rest []
  | .many set :: rest, c :: s =>
    matchesHere anchored rest (c :: s) ||
      (set.admits c && matchesHere anchored (.many set :: rest) s)
termination_by pieces s => (pieces.length, s.length)

/-- Whether the pieces match at some place of the text. -/
def occurs (anchored : Bool) (pieces : List Piece) : List Char → Bool
  | [] => matchesHere anchored pieces []
  | c :: s => matchesHere anchored pieces (c :: s) || occurs anchored pieces s

/-- Characters with a meaning of their own. -/
def isSpecial (c : Char) : Bool := "^$\\.[]*+?()|\x7b\x7d".toList.contains c

/-- The ranges up to the closing bracket, and what follows it. -/
def readRanges : List Char → Option (List (Char × Char) × List Char)
  | [] => none
  | ']' :: rest => some ([], rest)
  | low :: '-' :: high :: rest =>
    if low = '\\' || low = '[' || high = '\\' || high = ']' then none
    else (readRanges rest).map fun (ranges, rest) => ((low, high) :: ranges, rest)
  | c :: rest =>
    if c = '\\' || c = '[' then none
    else (readRanges rest).map fun (ranges, rest) => ((c, c) :: ranges, rest)

def readSet : List Char → Option (CharSet × List Char)
  | [] => none
  | '.' :: rest => some (.notBreak, rest)
  | '[' :: '^' :: rest => (readRanges rest).map fun (ranges, rest) => (.among true ranges, rest)
  | '[' :: rest => (readRanges rest).map fun (ranges, rest) => (.among false ranges, rest)
  | c :: rest => if isSpecial c then none else some (.one c, rest)

/-- The pieces of a set with the repetition that follows it. -/
def readRepeat (set : CharSet) : List Char → List Piece × List Char
  | '*' :: rest => ([.many set], rest)
  | '+' :: rest => ([.once set, .many set], rest)
  | '?' :: rest => ([.optional set], rest)
  | rest => ([.once set], rest)

/-- The pieces up to the end of the pattern, and whether it is tied to the end of the text. Each
piece takes at least one character, so `fuel` is the length of the pattern. -/
def readPieces : (fuel : Nat) → List Char → Option (List Piece × Bool)
  | _, [] => some ([], false)
  | _, ['$'] => some ([], true)
  | 0, _ => none
  | fuel + 1, s => do
    let (set, s) ← readSet s
    let (pieces, s) := readRepeat set s
    let (others, anchored) ← readPieces fuel s
    return (pieces ++ others, anchored)

end TextPattern

open TextPattern

structure TextPattern where
  fromStart : Bool
  toEnd : Bool
  pieces : List Piece

namespace TextPattern

def read? (pattern : String) : Option TextPattern :=
  let (fromStart, s) :=
    match pattern.toList with
    | '^' :: rest => (true, rest)
    | rest => (false, rest)
  (readPieces s.length s).map fun (pieces, toEnd) => ⟨fromStart, toEnd, pieces⟩

def found (pattern : TextPattern) (text : String) : Bool :=
  if pattern.fromStart then matchesHere pattern.toEnd pattern.pieces text.toList
  else occurs pattern.toEnd pattern.pieces text.toList

end TextPattern

end SchemaModules
