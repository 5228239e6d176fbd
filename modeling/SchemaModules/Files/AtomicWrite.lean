import SchemaModules.Files.Tree

/-!
# Writing a file in one step

A file is written beside its place under a temporary name and then moved there, so that at every
moment the place holds its old content or the complete new one. An `Attempt` lists the trees that
the write goes through, the one it starts from first.
-/

namespace SchemaModules.Files

/-- The steps of a write at which a disk may refuse to go on. -/
inductive Stage
  | makeDirectory (path : Path)
  | createTemporary
  | fillTemporary
  | replaceTarget
  deriving DecidableEq, Repr

/-- The refusals of a disk beyond those that the tree itself explains. -/
abbrev Refusals := Stage → Option FileCause

def Refusals.none : Refusals := fun _ => Option.none

structure Attempt where
  start : FileTree
  /-- The trees after the start, in order. -/
  later : List FileTree
  outcome : Except Fault Unit

def Attempt.final (attempt : Attempt) : FileTree := attempt.start.last attempt.later

def Attempt.states (attempt : Attempt) : List FileTree := attempt.start :: attempt.later

/-- A check of the content of source files before they are written. -/
abbrev Check := String → Except Fault Unit

/-- How files are written. -/
structure WriteRules where
  check : Check
  /-- Whether source files are checked. -/
  checked : Bool := true
  /-- Whether files are written under a temporary name first. -/
  atomic : Bool := true
  refusals : Refusals := Refusals.none
  /-- What a file holds in turn while a content is written to it, before it holds all of it. -/
  portions : String → List Content := fun _ => []

/-- Only source files that the check understands are checked. -/
def WriteRules.accepts (rules : WriteRules) (path : Path) (content : String) : Except Fault Unit :=
  if rules.checked && path.suffix == ".py" then rules.check content else .ok ()

def refuse (start : FileTree) (later : List FileTree) (cause : FileCause) (path : Path) : Attempt :=
  ⟨start, later, .error (.file cause path.text)⟩

/-- The trees in which a file is filled portion by portion. -/
def portionSteps (tree : FileTree) (path : Path) : List Content → List FileTree
  | [] => []
  | portion :: rest =>
    match tree.writeFile path portion with
    | .ok next => next :: portionSteps next path rest
    | .error _ => []

/-- Moves a temporary file to its place. -/
def moveTemporary (rules : WriteRules) (start : FileTree) (later : List FileTree)
    (filled : FileTree) (temporary path : Path) : Attempt :=
  match FileTree.allow (rules.refusals .replaceTarget) (filled.replace temporary path) with
  | .error cause => refuse start (later ++ [filled.removeFile temporary]) cause path
  | .ok replaced => ⟨start, later ++ [replaced], .ok ()⟩

/-- Writes a temporary file and moves it to its place. Whatever fails, the temporary file is
removed. -/
def moveIntoPlace (rules : WriteRules) (start : FileTree) (later : List FileTree)
    (tree : FileTree) (path : Path) (content : String) : Attempt :=
  let temporary := tree.temporaryName path
  match FileTree.allow (rules.refusals .createTemporary) (tree.writeFile temporary (.text "")) with
  | .error cause => refuse start later cause path
  | .ok created =>
    let begun := created :: portionSteps created temporary (rules.portions content)
    match FileTree.allow (rules.refusals .fillTemporary)
        ((tree.last begun).writeFile temporary (.text content)) with
    | .error cause =>
      refuse start (later ++ begun ++ [(tree.last begun).removeFile temporary]) cause path
    | .ok filled => moveTemporary rules start (later ++ (begun ++ [filled])) filled temporary path

/-- Truncates the file in its place and fills it. -/
def fillInPlace (rules : WriteRules) (start : FileTree) (later : List FileTree) (tree : FileTree)
    (path : Path) (content : String) : Attempt :=
  match tree.writeFile path (.text "") with
  | .error cause => refuse start later cause path
  | .ok truncated =>
    let begun := truncated :: portionSteps truncated path (rules.portions content)
    match (tree.last begun).writeFile path (.text content) with
    | .error cause => refuse start (later ++ begun) cause path
    | .ok filled => ⟨start, later ++ begun ++ [filled], .ok ()⟩

/-- Writes a file: missing directories above it are made, a source file is checked, and the
content is put in its place. -/
def write (rules : WriteRules) (start : FileTree) (path : Path) (content : String) : Attempt :=
  match start.directorySteps (fun directory => rules.refusals (.makeDirectory directory))
      path.parent with
  | (steps, .error (cause, at_)) => refuse start steps cause at_
  | (steps, .ok ()) =>
    match rules.accepts path content with
    | .error fault => ⟨start, steps, .error fault⟩
    | .ok () =>
      if rules.atomic then moveIntoPlace rules start steps (start.last steps) path content
      else fillInPlace rules start steps (start.last steps) path content

/-- Writes a file unless something is in its place. -/
def writeNew (rules : WriteRules) (start : FileTree) (path : Path) (content : String) : Attempt :=
  if start.pathExists path then ⟨start, [], .error (.targetExists path.text)⟩
  else write rules start path content

end SchemaModules.Files
