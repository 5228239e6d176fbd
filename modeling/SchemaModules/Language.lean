/-!
# Target languages
-/

namespace SchemaModules

inductive Language
  | python
  | typescript
  deriving DecidableEq, Repr

namespace Language

def all : List Language := [python, typescript]

/-- The short name by which options and configurations choose a language. -/
def label : Language → String
  | python => "python"
  | typescript => "ts"

def ofLabel? (label : String) : Option Language := all.find? (·.label == label)

/-- Extension of module files, without the point. -/
def fileExtension : Language → String
  | python => "py"
  | typescript => "ts"

/-- Name of the file that re-exports a directory. -/
def indexFile : Language → String
  | python => "__init__.py"
  | typescript => "index.ts"

/-- What begins a comment that ends with its line. -/
def lineComment : Language → String
  | python => "#"
  | typescript => "//"

end Language

end SchemaModules
