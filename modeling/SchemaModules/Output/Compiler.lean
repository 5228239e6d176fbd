import SchemaModules.Config
import SchemaModules.Output.Event
import SchemaModules.Target.PythonModule
import SchemaModules.Target.TypeScriptModule

/-!
# Compilers

A compiler turns definitions into modules, one after the other. It has one scope for the
declarations of its Python modules, and types that are translated by themselves are declared there
too.
-/

namespace SchemaModules.Output

/-- The outcome of compiling one definition. -/
structure CompiledModule where
  name : String
  path : List String
  references : List String
  content : String

/-- The text of a definition's module, from a scope of its own. -/
def renderDefinition (language : Language) (definition : Definition) (comment : String) :
    Except Fault String :=
  match language with
  | .python => .ok ((Python.Module.of definition).render comment)
  | .typescript => TypeScript.render definition comment

def analyze (config : Config) (name : String) (schema : Json) : Except Fault Definition := do
  let conventions ← config.conventions schema
  return .of conventions name schema

structure Compiler where
  config : Config
  /-- What was declared last. TypeScript modules declare nothing by name. -/
  scope : Python.Scope := {}

namespace Compiler

/-- The text of a type by itself, with the records in it named after `wanted`. -/
def translate (compiler : Compiler) (wanted : String) :
    Option Schema.TypeExpr → String × Compiler
  | none =>
    (match compiler.config.language with
      | .python => "Any"
      | .typescript => "any", compiler)
  | some type =>
    match compiler.config.language with
    | .python =>
      let (hint, scope) := Python.hintOf wanted compiler.scope type
      (hint.render, { compiler with scope })
    | .typescript => (TypeScript.typeText type, compiler)

def render (compiler : Compiler) (definition : Definition) (comment : String) :
    Except Fault (String × Compiler) :=
  match compiler.config.language with
  | .python =>
    let (module, scope) := Python.Module.declare definition compiler.scope
    .ok (module.render comment, { compiler with scope })
  | .typescript => do
    let content ← TypeScript.render definition comment
    return (content, compiler)

/-- Compiles one definition. A compiler that fails has declared nothing. -/
def compile (compiler : Compiler) (comment : String) (name : String) (schema : Json) :
    Logged (CompiledModule × Compiler) := do
  let definition ← liftExcept (analyze compiler.config name schema)
  report (.compiling name definition.dependencies.length)
  let (content, compiler) ← liftExcept (compiler.render definition comment)
  return (⟨name, definition.names.path, definition.dependencies.map (·.name), content⟩, compiler)
where
  liftExcept {α : Type} (result : Except Fault α) : Logged α := ExceptT.mk (pure result)

end Compiler

end SchemaModules.Output
