import SchemaModules.Text.CaseTable

/-!
# Case of identifiers

Changes of case touch one character of a segment and keep the rest, so acronyms survive. Upper
and lower case are the full mappings: one character may become several.
-/

namespace SchemaModules.Text

def mapCase (runs : List CaseRun) (expansions : List (Nat × List Nat)) (c : Char) : List Char :=
  match expansions.lookup c.toNat with
  | some codes => codes.map Char.ofNat
  | none =>
    match runs.find? (·.covers c.toNat) with
    | some run => [Char.ofNat (c.toNat + run.shift).toNat]
    | none => [c]

def upperChar (c : Char) : List Char := mapCase upperRuns upperExpansions c

def lowerChar (c : Char) : List Char := mapCase lowerRuns lowerExpansions c

def upperFirst : List Char → List Char
  | [] => []
  | c :: rest => upperChar c ++ rest

def lowerFirst : List Char → List Char
  | [] => []
  | c :: rest => lowerChar c ++ rest

/-- The maximal runs of characters that are no separators, in order. -/
def segments (isSeparator : Char → Bool) : List Char → List (List Char)
  | [] => []
  | c :: rest =>
    if isSeparator c then segments isSeparator rest
    else
      (c :: rest.takeWhile (!isSeparator ·)) ::
        segments isSeparator (rest.dropWhile (!isSeparator ·))
termination_by text => text.length
decreasing_by
  · simp
  · have := (List.dropWhile_suffix (l := rest) (!isSeparator ·)).length_le
    simp only [List.length_cons]
    omega

/-- The segments joined, every one but the first capitalised: `core-v1_pod` gives `coreV1Pod`. -/
def camelCase (isSeparator : Char → Bool) (text : List Char) : List Char :=
  match segments isSeparator text with
  | [] => []
  | first :: others => lowerFirst first ++ others.flatMap upperFirst

/-- The words of a text: runs of small letters, a capital with the small letters after it, and
runs of digits. Only ASCII letters and digits belong to words. -/
def asciiWords : List Char → List (List Char)
  | [] => []
  | c :: rest =>
    if c.isLower || c.isUpper then
      (c :: rest.takeWhile Char.isLower) :: asciiWords (rest.dropWhile Char.isLower)
    else if c.isDigit then
      (c :: rest.takeWhile Char.isDigit) :: asciiWords (rest.dropWhile Char.isDigit)
    else asciiWords rest
termination_by text => text.length
decreasing_by
  · have := (List.dropWhile_suffix (l := rest) Char.isLower).length_le
    simp only [List.length_cons]
    omega
  · have := (List.dropWhile_suffix (l := rest) Char.isDigit).length_le
    simp only [List.length_cons]
    omega
  · simp

def capitalize : List Char → List Char
  | [] => []
  | c :: rest => c.toUpper :: rest

/-- `first_name` and `firstName` both give `FirstName`. -/
def pascalCase (text : List Char) : List Char := (asciiWords text).flatMap capitalize

end SchemaModules.Text
