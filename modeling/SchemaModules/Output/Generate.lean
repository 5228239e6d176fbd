import SchemaModules.Config
import SchemaModules.Files.Path
import SchemaModules.ModuleTree
import SchemaModules.Output.Compiler
import SchemaModules.Output.Formatter
import SchemaModules.Target.PythonSupport
import SchemaModules.Target.TypeScriptSupport

/-!
# Generated files

The files of an output tree: one module per definition, one index per directory, and the support
modules of the language. One compiler takes the definitions in order; the indexes follow from the
tree of all of them.
-/

namespace SchemaModules.Output

open Files

inductive FileKind
  | definition
  | index
  | support
  deriving DecidableEq, Repr

structure GeneratedFile where
  path : Path
  kind : FileKind
  content : String

def programName : String := "k8s_schema_to_code"

def programVersion : String := "1.0.0"

/-- The comment at the top of every module, which tells the command line that made it. -/
def generationComment (config : Config) (commandLine : String) : String :=
  if config.addComment.isTruthy then
    config.language.lineComment ++ " Generated by " ++ programName ++ " v" ++ programVersion ++
      " : " ++ commandLine
  else ""

def renderIndex (language : Language) (comment : String) (index : ModuleTree.Index) : String :=
  match language with
  | .python => Python.renderIndex comment index.modules index.packages
  | .typescript => TypeScript.renderIndex comment index.modules index.packages

def supportFiles : Language → List (String × String)
  | .python => Python.supportFiles
  | .typescript => TypeScript.supportFiles

/-- The file of the module at a path. -/
def moduleFile (language : Language) (path : List String) : Except Fault Path :=
  match path.getLast? with
  | none => .error .emptyModulePath
  | some leaf => .ok (Path.ofTexts (path.dropLast ++ [leaf ++ "." ++ language.fileExtension]))

/-- The index file of the directory at a path. -/
def indexFile (language : Language) (path : List String) : Path :=
  Path.ofTexts (path ++ [language.indexFile])

/-- Compiles the definitions that are not ignored, in order. -/
def compileAll (compiler : Compiler) (comment : String) :
    List (String × Json) → Logged (List CompiledModule)
  | [] => return []
  | (name, schema) :: rest => do
    if ← ExceptT.mk (pure (compiler.config.ignores name)) then
      report (.ignoring name)
      compileAll compiler comment rest
    else
      if !schema.isObject then report (.notAMapping name)
      let (compiled, compiler) ← compiler.compile comment name schema
      let others ← compileAll compiler comment rest
      return compiled :: others

def definitionFile (formatter : Option Formatter) (config : Config) (compiled : CompiledModule) :
    Except Fault GeneratedFile := do
  let path ← moduleFile config.language compiled.path
  let content ← formatted formatter config compiled.content
  return ⟨path, .definition, content⟩

def indexFileOf (formatter : Option Formatter) (config : Config) (comment : String)
    (index : ModuleTree.Index) : Except Fault GeneratedFile := do
  let content ← formatted formatter config (renderIndex config.language comment index)
  return ⟨indexFile config.language index.path, .index, content⟩

/-- The files that follow from the compiled definitions: their modules, then the indexes, then the
support modules. -/
def assemble (formatter : Option Formatter) (config : Config) (comment : String)
    (compiled : List CompiledModule) : Except Fault (List GeneratedFile) := do
  let modules ← compiled.mapM (definitionFile formatter config)
  let tree ←
    match ModuleTree.build (compiled.map fun c => (c.name, c.path)) with
    | .ok tree => pure tree
    | .error conflict => throw (.placement conflict)
  let indexes ← tree.indexes.mapM (indexFileOf formatter config comment)
  let support := (supportFiles config.language).map fun (name, content) =>
    ⟨Path.ofText name, .support, content⟩
  return modules ++ indexes ++ support

/-- The definitions of a document. -/
def definitionsOf (document : Json) : Except Fault (List (String × Json)) :=
  match document.get? "definitions" with
  | some (.obj definitions) => .ok definitions
  | _ => .error .missingDefinitions

/-- All files of the output tree of a list of definitions. -/
def generate (formatter : Option Formatter) (config : Config) (commandLine : String)
    (definitions : List (String × Json)) : Logged (List GeneratedFile) := do
  let comment := generationComment config commandLine
  let compiled ← compileAll { config } comment definitions
  let files ← ExceptT.mk (pure (assemble formatter config comment compiled))
  report (.generated files.length compiled.length)
  return files

end SchemaModules.Output
