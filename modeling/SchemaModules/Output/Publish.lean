import SchemaModules.Files.AtomicWrite
import SchemaModules.Output.Generate

/-!
# Writing an output tree

The generated files are written in order, and each is reported just before it is written. Unless
files may be replaced, nothing is written as soon as one of them is there already.
-/

namespace SchemaModules.Output

open Files

structure Publication where
  /-- The tree after the last step that was taken. -/
  tree : FileTree
  /-- The paths reported, in order. -/
  reported : List Path
  outcome : Except Fault Unit

/-- Writes files one after the other until one cannot be written. -/
def writeAll (writeOne : FileTree → Path → String → Attempt) (tree : FileTree)
    (reported : List Path) : List (Path × String) → Publication
  | [] => ⟨tree, reported, .ok ()⟩
  | (target, content) :: rest =>
    let attempt := writeOne tree target content
    match attempt.outcome with
    | .error fault => ⟨attempt.final, reported ++ [target], .error fault⟩
    | .ok () => writeAll writeOne attempt.final (reported ++ [target]) rest

/-- Writes generated files below a directory. -/
def publishFiles (settings : OutputSettings) (check : Check) (tree : FileTree) (top : Path)
    (files : List GeneratedFile) : Publication :=
  let rules : WriteRules :=
    { check, checked := settings.validate.isTruthy, atomic := settings.atomic.isTruthy }
  let targets := files.map fun file => (top ++ file.path, file.content)
  if settings.mode = some .errorIfExists then
    match targets.find? fun (target, _) => tree.pathExists target with
    | some (target, _) => ⟨tree, [], .error (.targetExists target.text)⟩
    | none => writeAll (writeNew rules) tree [] targets
  else writeAll (write rules) tree [] targets

/-- Generates the files of a list of definitions and writes them below a directory. -/
def publish (formatter : Option Formatter) (config : Config) (commandLine : String) (check : Check)
    (definitions : List (String × Json)) (tree : FileTree) (top : Path) :
    List Event × Publication :=
  let (events, files) := (generate formatter config commandLine definitions).outcome
  match files, config.output with
  | .error fault, _ => (events, ⟨tree, [], .error fault⟩)
  | .ok _, none => (events, ⟨tree, [], .error .missingPart⟩)
  | .ok files, some settings => (events, publishFiles settings check tree top files)

end SchemaModules.Output
