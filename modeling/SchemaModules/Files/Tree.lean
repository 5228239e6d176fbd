import SchemaModules.Fault
import SchemaModules.Files.Path

/-!
# File trees

A file tree maps absolute paths to directories and files. A path is followed part by part, as a
file system does: every part but the last must be a directory, and `..` leads back to the directory
above. Operations that cannot be carried out tell the cause and leave the tree as it is.
-/

namespace SchemaModules.Files

open Text

/-- What a file holds: a text, or bytes that need not be one. -/
inductive Content
  | text (text : String)
  | bytes (bytes : List Nat)
  deriving DecidableEq, Repr

/-- The text of a file with the line ends that readers see. -/
def Content.read : Content → Except Fault String
  | .text stored => .ok (String.ofList (unifyBreaks stored.toList))
  | .bytes stored =>
    match decodeUtf8 stored with
    | .ok decoded => .ok (String.ofList (unifyBreaks decoded.toList))
    | .error fault => .error (.undecodable fault)

inductive Entry
  | directory
  | file (content : Content)
  deriving DecidableEq, Repr

/-- Entries by the parts of their paths from the root on. The root itself is always there. -/
structure FileTree where
  entries : List (List String × Entry)
  deriving DecidableEq, Repr

namespace FileTree

def empty : FileTree := ⟨[]⟩

def get? (tree : FileTree) (place : List String) : Option Entry :=
  if place.isEmpty then some .directory else tree.entries.lookup place

/-- Sets an entry: one that is there keeps its place in the list, a new one comes last. -/
def setEntry (place : List String) (entry : Entry) :
    List (List String × Entry) → List (List String × Entry)
  | [] => [(place, entry)]
  | (p, e) :: rest =>
    if p = place then (p, entry) :: rest else (p, e) :: setEntry place entry rest

def set (tree : FileTree) (place : List String) (entry : Entry) : FileTree :=
  ⟨setEntry place entry tree.entries⟩

def remove (tree : FileTree) (place : List String) : FileTree :=
  ⟨tree.entries.filter (·.1 != place)⟩

/-- The content of the file at a place. -/
def content? (tree : FileTree) (place : List String) : Option Content :=
  match tree.get? place with
  | some (.file content) => some content
  | _ => none

/-- Follows the parts of a path from the directory `here`. The last part need not exist. -/
def follow (tree : FileTree) (here : List String) : List String → Except FileCause (List String)
  | [] => .ok here
  | part :: rest =>
    if part = ".." then follow tree here.dropLast rest
    else if rest.isEmpty then .ok (here ++ [part])
    else
      match tree.get? (here ++ [part]) with
      | some .directory => follow tree (here ++ [part]) rest
      | some (.file _) => .error .notADirectory
      | none => .error .missing

/-- The place that an absolute path leads to. -/
def locate (tree : FileTree) (path : Path) : Except FileCause (List String) :=
  tree.follow [] path.parts

def stat (tree : FileTree) (path : Path) : Except FileCause Entry := do
  let place ← tree.locate path
  match tree.get? place with
  | some entry => return entry
  | none => throw .missing

def pathExists (tree : FileTree) (path : Path) : Bool := (tree.stat path).toBool

def isDirectory (tree : FileTree) (path : Path) : Bool :=
  match tree.stat path with
  | .ok .directory => true
  | _ => false

/-- Makes one directory, whose parent must be there. -/
def makeDirectory (tree : FileTree) (path : Path) : Except FileCause FileTree := do
  let place ← tree.locate path
  match tree.get? place with
  | some _ => throw .present
  | none => return tree.set place .directory

/-- A step that the tree can take, unless the disk refuses it. -/
def allow (refused : Option FileCause) (step : Except FileCause FileTree) :
    Except FileCause FileTree :=
  match step, refused with
  | .ok _, some cause => .error cause
  | step, _ => step

/-- A directory that is there already is as good as one just made. -/
def ensureDirectory (refused : Option FileCause) (tree : FileTree) (path : Path) :
    Except (FileCause × Path) FileTree :=
  match allow refused (tree.makeDirectory path) with
  | .ok tree => .ok tree
  | .error cause => if tree.isDirectory path then .ok tree else .error (cause, path)

/-- The last of the trees that steps have led to. -/
def last (start : FileTree) (steps : List FileTree) : FileTree := steps.getLast?.getD start

/-- Makes a directory and those above it that are missing, each unless the disk refuses it, and
lists the trees in between. Directories made before a failure stay. -/
def directorySteps (refused : Path → Option FileCause) (tree : FileTree) (path : Path) :
    List FileTree × Except (FileCause × Path) Unit :=
  match allow (refused path) (tree.makeDirectory path) with
  | .ok tree => ([tree], .ok ())
  | .error .missing =>
    if _ : path.parts = [] then ([], .error (.missing, path))
    else
      match directorySteps refused tree path.parent with
      | (steps, .error failure) => (steps, .error failure)
      | (steps, .ok ()) =>
        match ensureDirectory (refused path) (tree.last steps) path with
        | .ok tree => (steps ++ [tree], .ok ())
        | .error failure => (steps, .error failure)
  | .error cause =>
    if tree.isDirectory path then ([], .ok ()) else ([], .error (cause, path))
termination_by path.parts.length
decreasing_by
  have := List.length_pos_iff.mpr ‹_›
  simp only [Path.parent, List.length_dropLast]
  omega

/-- Makes directories on a disk that refuses none. -/
def makeDirectories (tree : FileTree) (path : Path) :
    FileTree × Except (FileCause × Path) Unit :=
  let (steps, result) := tree.directorySteps (fun _ => none) path
  (tree.last steps, result)

/-- Puts a content where no directory is; a file that is there is replaced. -/
def writeFile (tree : FileTree) (path : Path) (content : Content) : Except FileCause FileTree := do
  let place ← tree.locate path
  match tree.get? place with
  | some .directory => throw .isADirectory
  | _ => return tree.set place (.file content)

/-- A temporary name beside `path` that nothing in the tree has: that of the file with a number. -/
def temporaryName (tree : FileTree) (path : Path) : Path :=
  let candidate (number : Nat) : Path :=
    ⟨path.root, path.parts.dropLast ++ ["." ++ path.name ++ "." ++ toString number ++ ".tmp"]⟩
  match (List.range (tree.entries.length + 1)).find? fun number =>
      !tree.pathExists (candidate number) with
  | some number => candidate number
  | none => candidate (tree.entries.length + 1)

/-- Moves the file at one path to another in one step; a file that is there is replaced. The step
back to the directory above is no name that a file could take. -/
def replace (tree : FileTree) (source target : Path) : Except FileCause FileTree := do
  if target.name = ".." then throw .busy
  let sourcePlace ← tree.locate source
  match tree.get? sourcePlace with
  | some (.file content) =>
    let tree' ← tree.writeFile target content
    return tree'.remove sourcePlace
  | some .directory => throw .isADirectory
  | none => throw .missing

def removeFile (tree : FileTree) (path : Path) : FileTree :=
  match tree.locate path with
  | .ok place => tree.remove place
  | .error _ => tree

/-- What is listed below a directory: every file, and every directory with nothing in it. -/
def listing (tree : FileTree) (top : List String) : List (List String × Option Content) :=
  let below := tree.entries.filter fun (place, _) => top.isPrefixOf place && place != top
  below.filterMap fun (place, entry) =>
    match entry with
    | .file content => some (place.drop top.length, some content)
    | .directory =>
      if tree.entries.any fun (other, _) => place.isPrefixOf other && other != place then none
      else some (place.drop top.length, none)

/-- The listing by the text of the path, a slash behind the name of a directory. -/
def sortedListing (tree : FileTree) (top : List String) : List (String × Option Content) :=
  let texts := (tree.listing top).map fun (parts, content) =>
    (join "/" parts ++ (if content.isNone then "/" else ""), content)
  texts.mergeSort fun a b => a.1 ≤ b.1

end FileTree

end SchemaModules.Files
