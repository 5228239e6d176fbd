import SchemaModules.Fault
import SchemaModules.Text.Split

/-!
# Relative imports between TypeScript modules

A module is named by the way from the directory of the importing module: up by `..` to the last
common directory, then down. Paths are taken below one root, and a path never leads above it.
-/

namespace SchemaModules.TypeScript

open Text

/-- Joins path texts with slashes. A text that begins with a slash discards what came before. -/
def joinPath : List String → String
  | [] => ""
  | first :: rest => rest.foldl step first
where
  step (path next : String) : String :=
    if next.toList.head? = some '/' then next
    else if path.isEmpty || path.toList.getLast? = some '/' then path ++ next
    else path ++ "/" ++ next

/-- One step along a path, the directories above being listed innermost first. -/
def enter (above : List String) (part : String) : List String :=
  if part = "" || part = "." then above
  else if part = ".." then above.drop 1
  else part :: above

/-- The directories on the way from the root to a path. -/
def resolvePath (path : String) : List String :=
  ((splitParts '/' path).foldl enter []).reverse

def sharedLength : List String → List String → Nat
  | a :: as, b :: bs => if a = b then sharedLength as bs + 1 else 0
  | _, _ => 0

/-- The way from one directory to a path. -/
def relativePath (start target : List String) : String :=
  let shared := sharedLength start target
  match List.replicate (start.length - shared) ".." ++ target.drop shared with
  | [] => "."
  | parts => join "/" parts

/-- The name of the module at `target` as seen from the module at `source`. It begins with a dot,
so it is never taken for the name of a package. -/
def relativeImport (source target : List String) : Except Fault String := do
  if target.isEmpty then throw .unusableValue
  let path := joinPath target
  if path.isEmpty then throw .noTargetPath
  let way := relativePath (resolvePath (joinPath source.dropLast)) (resolvePath path)
  return if way.toList.head? = some '.' then way else "./" ++ way

end SchemaModules.TypeScript
