import SchemaModules.Fault

/-!
# Events of a run

What a run reports while it works. Details are for those who ask for them; a warning is always
shown.
-/

namespace SchemaModules.Output

inductive Event
  | compiling (name : String) (references : Nat)
  | ignoring (name : String)
  | notAMapping (name : String)
  | generated (files definitions : Nat)

namespace Event

def isWarning : Event → Bool
  | notAMapping _ => true
  | _ => false

def message : Event → String
  | compiling name references => s!"Compiling {name} ({references} references)"
  | ignoring name => s!"Ignoring definition {name}"
  | notAMapping name => s!"Definition {name} is not a mapping, compiling it as unconstrained"
  | generated files definitions => s!"Generated {files} files for {definitions} definitions"

/-- The part of the program that reports the event. -/
def source : Event → String
  | compiling .. => "k8s_schema_to_code.compiler"
  | _ => "k8s_schema_to_code.generator"

def line (event : Event) : String :=
  (if event.isWarning then "WARNING" else "DEBUG") ++ " " ++ event.source ++ ": " ++ event.message

end Event

/-- A computation that reports events and may fail; what it reported before is kept. -/
abbrev Logged := ExceptT Fault (StateM (List Event))

def report (event : Event) : Logged Unit := modify (· ++ [event])

/-- The events in order, and the outcome. -/
def Logged.outcome {α : Type} (computation : Logged α) : List Event × Except Fault α :=
  let (result, events) := computation.run.run []
  (events, result)

end SchemaModules.Output
