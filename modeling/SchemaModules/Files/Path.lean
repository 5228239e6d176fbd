import SchemaModules.Text.Split

/-!
# Paths

A path is a root, if it has one, and the parts below it. Empty parts and parts that stay in place
are left out when a path is read, while parts that go up are kept.
-/

namespace SchemaModules.Files

open Text

structure Path where
  /-- Empty for a relative path. -/
  root : String
  parts : List String
  deriving DecidableEq, Repr

namespace Path

def empty : Path := ⟨"", []⟩

def isAbsolute (path : Path) : Bool := !path.root.isEmpty

/-- Two slashes at the beginning are a root of their own, any other number is one slash. -/
def rootOf (text : String) : String :=
  match text.toList with
  | '/' :: '/' :: '/' :: _ => "/"
  | '/' :: '/' :: _ => "//"
  | '/' :: _ => "/"
  | _ => ""

def ofText (text : String) : Path :=
  ⟨rootOf text, (splitParts '/' text).filter fun part => part != "" && part != "."⟩

/-- The second path seen from the first. An absolute path is the same from everywhere. -/
def append (base path : Path) : Path :=
  if path.isAbsolute then path else ⟨base.root, base.parts ++ path.parts⟩

instance : Append Path := ⟨append⟩

def ofTexts (texts : List String) : Path :=
  texts.foldl (fun path text => path ++ ofText text) empty

def text (path : Path) : String :=
  if path.root.isEmpty && path.parts.isEmpty then "." else path.root ++ join "/" path.parts

/-- The last part; a root alone has none. -/
def name (path : Path) : String := path.parts.getLast?.getD ""

def parent (path : Path) : Path := ⟨path.root, path.parts.dropLast⟩

/-- What stands behind the last point of a name, the point included. A point at either end of the
name begins no suffix. -/
def suffix (path : Path) : String :=
  let after := path.name.toList.reverse.takeWhile (· != '.')
  let before := path.name.toList.reverse.dropWhile (· != '.')
  if after.isEmpty || before.length ≤ 1 then "" else "." ++ String.ofList after.reverse

end Path

end SchemaModules.Files
