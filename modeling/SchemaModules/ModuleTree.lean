import SchemaModules.Fault
import SchemaModules.Text.Split

/-!
# Module trees

The modules of an output, arranged by their paths: each path segment but the last is a directory,
the last a module. A tree is refused as soon as two definitions would share a path or one would be
both a module and a directory.
-/

namespace SchemaModules

open Text

inductive TreeEntry
  /-- The module of the definition of that name. -/
  | module (name : String)
  | directory (entries : List (String × TreeEntry))
  deriving Inhabited

/-- The entries of a directory, in the order in which they were first needed. -/
abbrev ModuleTree := List (String × TreeEntry)

namespace ModuleTree

/-- Sets an entry in its place, a new one last. -/
def setEntry (key : String) (entry : TreeEntry) : ModuleTree → ModuleTree
  | [] => [(key, entry)]
  | (k, e) :: rest => if k = key then (k, entry) :: rest else (k, e) :: setEntry key entry rest

/-- Places a module below the directory at `above`. -/
def insertBelow (name : String) (above : List String) :
    List String → ModuleTree → Except PlacementConflict ModuleTree
  | [], _ => .error (.emptyPath name)
  | [leaf], tree =>
    match tree.lookup leaf with
    | some (.directory _) => .error (.moduleIsDirectory name (join "/" (above ++ [leaf])))
    | some (.module other) =>
      if other = name then .ok tree
      else .error (.samePath other name (join "/" (above ++ [leaf])))
    | none => .ok (setEntry leaf (.module name) tree)
  | segment :: rest, tree =>
    match tree.lookup segment with
    | some (.module owner) =>
      .error (.directoryIsModule name (join "/" (above ++ [segment])) owner)
    | some (.directory inner) => do
      let inner ← insertBelow name (above ++ [segment]) rest inner
      return setEntry segment (.directory inner) tree
    | none => do
      let inner ← insertBelow name (above ++ [segment]) rest []
      return setEntry segment (.directory inner) tree

def insert (tree : ModuleTree) (name : String) (path : List String) :
    Except PlacementConflict ModuleTree :=
  insertBelow name [] path tree

/-- The tree of all given definitions, each a name and a path. -/
def build (definitions : List (String × List String)) : Except PlacementConflict ModuleTree :=
  definitions.foldlM (fun tree (name, path) => tree.insert name path) []

/-- The definition whose module is at a path. -/
def find? : ModuleTree → List String → Option String
  | _, [] => none
  | tree, [leaf] =>
    match tree.lookup leaf with
    | some (.module name) => some name
    | _ => none
  | tree, segment :: rest =>
    match tree.lookup segment with
    | some (.directory inner) => find? inner rest
    | _ => none

/-- The directory at a path. The tree itself is at the empty one. -/
def directory? : ModuleTree → List String → Option ModuleTree
  | tree, [] => some tree
  | tree, segment :: rest =>
    match tree.lookup segment with
    | some (.directory inner) => directory? inner rest
    | _ => none

def moduleNames (tree : ModuleTree) : List String :=
  tree.filterMap fun (key, entry) =>
    match entry with
    | .module _ => some key
    | .directory _ => none

def directoryNames (tree : ModuleTree) : List String :=
  tree.filterMap fun (key, entry) =>
    match entry with
    | .module _ => none
    | .directory _ => some key

/-- What the index module of a directory re-exports. -/
structure Index where
  path : List String
  modules : List String
  packages : List String

def indexOf (path : List String) (tree : ModuleTree) : Index :=
  ⟨path, tree.moduleNames, tree.directoryNames⟩

/-- The indexes of all directories below the one at `path`. -/
def indexesBelow (path : List String) : ModuleTree → List Index
  | [] => []
  | (key, .directory inner) :: rest =>
    indexesBelow (path ++ [key]) inner ++ indexOf (path ++ [key]) inner :: indexesBelow path rest
  | _ :: rest => indexesBelow path rest

/-- One index per directory, each after those of the directories in it; the root comes last. -/
def indexes (tree : ModuleTree) : List Index := indexesBelow [] tree ++ [indexOf [] tree]

end ModuleTree

end SchemaModules
