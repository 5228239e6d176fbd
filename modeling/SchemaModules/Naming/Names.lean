import SchemaModules.Language
import SchemaModules.Naming.Identifier
import SchemaModules.Text.Case

/-!
# Names derived from a definition

Every identifier and path in the generated code is a function of the dotted name of a definition,
such as `io.k8s.api.core.v1.Pod`.
-/

namespace SchemaModules.Naming

open Text

/-- Definition names are cut at dots and dashes. -/
def separatesWords (c : Char) : Bool := c = '.' || c = '-'

/-- `io.k8s.api.core.v1.Pod` gives `IoK8sApiCoreV1Pod`. -/
def className (name : String) : String :=
  String.ofList (upperFirst (camelCase separatesWords name.toList))

def interfaceName (name : String) : String := "I" ++ className name

theorem head?_interfaceName (name : String) : (interfaceName name).toList.head? = some 'I' := by
  rw [interfaceName, String.toList_append]
  rfl

def schemaName (name : String) : String := className name ++ "Schema"

def addSchemaName (name : String) : String := className name ++ "AddSchema"

/-- What stands behind the last dot. -/
def shortClassName (name : String) : String := (splitParts '.' name).getLast?.getD ""

def shortInterfaceName (name : String) : String := "I" ++ shortClassName name

/-- Path segments of a definition's module below the output root: the parts of its name without
the common lead and without empty parts. -/
def modulePath (language : Language) (lead name : String) : List String :=
  let parts := (splitParts '.' (stripLead name lead)).filter (!·.isEmpty)
  match language with
  | .python => parts.map importable
  | .typescript => parts

/-- All identifiers derived from one definition name. -/
structure Names where
  name : String
  className : String
  interfaceName : String
  schemaName : String
  addSchemaName : String
  shortClassName : String
  shortInterfaceName : String
  path : List String

def Names.of (language : Language) (lead name : String) : Names where
  name := name
  className := Naming.className name
  interfaceName := Naming.interfaceName name
  schemaName := Naming.schemaName name
  addSchemaName := Naming.addSchemaName name
  shortClassName := Naming.shortClassName name
  shortInterfaceName := Naming.shortInterfaceName name
  path := modulePath language lead name

end SchemaModules.Naming
