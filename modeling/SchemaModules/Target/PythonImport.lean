import SchemaModules.Text.Split

/-!
# Relative imports between Python modules

A module is named from inside a package by dots and the rest of its path. One dot is the package
itself, and each further dot is one package up.
-/

namespace SchemaModules.Python

/-- How many segments two paths have in common at their beginning. -/
def commonLength : List String → List String → Nat
  | a :: as, b :: bs => if a = b then commonLength as bs + 1 else 0
  | _, _ => 0

/-- The name of the module at `target` as seen from the modules of `package`. -/
def relativeModule (package target : List String) : String :=
  let common := commonLength package target
  String.ofList (List.replicate (package.length - common + 1) '.') ++
    Text.join "." (target.drop common)

end SchemaModules.Python
