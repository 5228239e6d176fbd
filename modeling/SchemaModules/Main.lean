import SchemaModules.CommandLine.Run
import SchemaModules.Target.PythonSource

/-!
# The program

The program loads what its command line concerns from the disk, runs the command line on it, writes
back what changed, and prints the report.
-/

namespace SchemaModules.Program

open CommandLine Files

/-- The path itself and those above it, from the root on. -/
def withAncestors (path : Path) : List Path :=
  (List.range (path.parts.length + 1)).map fun count => ⟨path.root, path.parts.take count⟩

/-- Loads what is at a path, if anything is. The content of a file is loaded on request. -/
def load (contents : Bool) (tree : FileTree) (path : Path) : IO FileTree := do
  let place := (← IO.currentDir) / path.text
  if !(← place.pathExists) then return tree
  if ← place.isDir then return tree.set path.parts .directory
  let bytes ← if contents then IO.FS.readBinFile place else pure ByteArray.empty
  return tree.set path.parts (.file (.bytes (bytes.toList.map UInt8.toNat)))

/-- Loads what is at the paths and above them. -/
def loadAll (contents : Bool) (tree : FileTree) (paths : List Path) : IO FileTree :=
  (paths.flatMap withAncestors).eraseDups.foldlM (load contents) tree

/-- Makes a new file beside a path, under a name that nothing has, and tells the name. -/
def storeBeside (path : Path) (content : String) : (attempts : Nat) → IO String
  | 0 => throw (IO.userError s!"No free name beside {path.text}")
  | attempts + 1 => do
    let temporary := s!"{path.text}.{attempts}.tmp"
    if ← ((← IO.currentDir) / temporary).pathExists then storeBeside path content attempts
    else
      let handle ← IO.FS.Handle.mk temporary .writeNew
      handle.putStr content
      handle.flush
      return temporary

/-- Writes a file under a temporary name and moves it to its place. -/
def store (path : Path) : Entry → IO Unit
  | .directory => IO.FS.createDirAll path.text
  | .file (.bytes _) => pure ()
  | .file (.text content) => do
    IO.FS.rename (← storeBeside path content 10000) path.text

/-- Writes what a run changed. -/
def storeChanges (before after : FileTree) : IO Unit :=
  (after.entries.filter fun entry => !before.entries.contains entry).forM fun (parts, entry) =>
    store ⟨"/", parts⟩ entry

end SchemaModules.Program

open SchemaModules SchemaModules.Program in
/-- Runs a command line; the exit code is that of the report. -/
def main (arguments : List String) : IO UInt32 := do
  let directory := Files.Path.ofText (← IO.currentDir).toString
  let view (tree : Files.FileTree) : CommandLine.Surroundings := ⟨tree, directory⟩
  let mentioned := CommandLine.mentioned (view .empty) arguments
  let loaded ← loadAll true .empty mentioned
  let tree ← loadAll false loaded
    ((CommandLine.targets none (view loaded) arguments).filter fun path => !mentioned.contains path)
  let report := CommandLine.run none (view tree) Python.checkSource arguments
  storeChanges tree report.tree
  IO.print report.output
  IO.eprint report.errors
  return report.exitCode.toUInt32
