/-!
# Cutting and joining texts

Leading and trailing parts are cut off only when they are there, and an empty part never is.
-/

namespace SchemaModules.Text

def dropLeading (lead text : List Char) : List Char :=
  if lead.isPrefixOf text then text.drop lead.length else text

def dropTrailing (trail text : List Char) : List Char :=
  if trail.isSuffixOf text then text.take (text.length - trail.length) else text

/-- The parts between separators, empty ones included: there is one more part than separators. -/
def splitAt (separator : Char) : List Char → List (List Char)
  | [] => [[]]
  | c :: rest =>
    if c = separator then [] :: splitAt separator rest
    else
      match splitAt separator rest with
      | [] => [[c]]
      | part :: parts => (c :: part) :: parts

/-- Whether `part` occurs in `text`. -/
def occursIn (part : List Char) : List Char → Bool
  | [] => part.isEmpty
  | c :: rest => part.isPrefixOf (c :: rest) || occursIn part rest

def stripLead (text lead : String) : String :=
  String.ofList (dropLeading lead.toList text.toList)

def stripTrail (text trail : String) : String :=
  String.ofList (dropTrailing trail.toList text.toList)

def splitParts (separator : Char) (text : String) : List String :=
  (splitAt separator text.toList).map String.ofList

def join (separator : String) (parts : List String) : String := separator.intercalate parts

/-- One line per entry, each ended by a line feed. -/
def unlines (lines : List String) : String := String.join (lines.map (· ++ "\n"))

end SchemaModules.Text
