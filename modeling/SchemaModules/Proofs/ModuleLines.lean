import Mathlib.Data.List.Basic
import SchemaModules.Proofs.FallibleSteps
import SchemaModules.Target.PythonModule
import SchemaModules.Target.TypeScriptModule

/-!
# Lines of modules

A module is rendered line by line. Each part of it, such as the imports of the dependencies or the
declarations of the types, is found again as consecutive lines of the text.
-/

namespace SchemaModules

open Naming Text

variable {definition : Definition} {dependency : Names} {comment text : String}

/-- A text made of lines, among which the given ones stand one after the other. -/
def HasLines (text : String) (lines : List String) : Prop :=
  ∃ all, text = unlines all ∧ lines <:+: all

theorem hasLines_of_mem_parts {parts : List (List String)} {lines : List String}
    (h : lines ∈ parts) : HasLines (unlines parts.flatten) lines :=
  ⟨parts.flatten, rfl, List.infix_of_mem_flatten h⟩

theorem HasLines.of_infix {lines inner : List String} (h : HasLines text lines)
    (hinner : inner <:+: lines) : HasLines text inner := by
  obtain ⟨all, hall, hlines⟩ := h
  exact ⟨all, hall, hinner.trans hlines⟩

theorem HasLines.of_mem {lines : List String} {line : String} (h : HasLines text lines)
    (hmem : line ∈ lines) : HasLines text [line] := by
  obtain ⟨before, after, happend⟩ := List.append_of_mem hmem
  exact h.of_infix ⟨before, after, by simp [happend]⟩

namespace Python

theorem definition_of (definition : Definition) :
    (Module.of definition).definition = definition := by
  rw [Module.of, Module.declare]

/-- The lines that declare the types of a module, the nested records first. -/
def declarationLines (m : Module) : List String :=
  (m.nested.map Record.render ++ [interfaceDeclaration m]).flatMap (["", "", ·])

/-- The groups of lines that a module is made of. -/
def moduleParts (m : Module) (comment : String) : List (List String) :=
  let names := m.definition.names
  [header comment, ["from __future__ import annotations", ""], typingImport m.imports, [""],
    supportImports m.definition, interfaceImports m.definition, declarationLines m,
    ["", "", names.schemaName ++ ": dict[str, Any] = " ++ literal 0 m.definition.document],
    ["", ""], addSchemaFunction m.definition, ["", ""], classPart m.definition, aliasPart names,
    ["", "", "__all__ = ["], (exports names).map (fun name ↦ "    \"" ++ name ++ "\","), ["]"]]

theorem render_eq_unlines (m : Module) (comment : String) :
    m.render comment = unlines (moduleParts m comment).flatten := by
  simp [Module.render, moduleParts, declarationLines]

theorem hasLines_typingImport (m : Module) (comment : String) :
    HasLines (m.render comment) (typingImport m.imports) := by
  rw [render_eq_unlines]
  exact hasLines_of_mem_parts (by simp [moduleParts])

theorem hasLines_declarations (m : Module) (comment : String) :
    HasLines (m.render comment) (declarationLines m) := by
  rw [render_eq_unlines]
  exact hasLines_of_mem_parts (by simp [moduleParts])

/-- The line by which a module imports the interface of a dependency. -/
def interfaceImport (definition : Definition) (dependency : Names) : String :=
  indentOf 1 ++ importFrom definition Names.interfaceName dependency

theorem hasLines_interfaceImport {m : Module} (hmem : dependency ∈ m.definition.dependencies)
    (comment : String) :
    HasLines (m.render comment) [interfaceImport m.definition dependency] := by
  have himports : HasLines (m.render comment) (interfaceImports m.definition) := by
    rw [render_eq_unlines]
    exact hasLines_of_mem_parts (by simp [moduleParts])
  apply himports.of_mem
  have hsome : m.definition.dependencies.isEmpty = false :=
    List.isEmpty_eq_false_iff_exists_mem.mpr ⟨dependency, hmem⟩
  rw [interfaceImports, hsome]
  exact List.mem_append_right _ (List.mem_map_of_mem hmem)

end Python

namespace TypeScript

theorem render_eq_ok_iff : render definition comment = .ok text ↔
    ∃ imports, definition.dependencies.mapM (dependencyImport definition.names) = .ok imports ∧
      ∃ registryPath, relativeImport definition.names.path registryModule = .ok registryPath ∧
        ∃ basePath, relativeImport definition.names.path baseModule = .ok basePath ∧
          text = unlines
            ((moduleLines definition comment registryPath basePath imports).map Line.text) := by
  simp only [render, bind_eq_ok_iff, pure, Except.pure, Except.ok.injEq]
  simp only [eq_comm]

@[simp]
theorem map_text_plainLines (texts : List String) : (plainLines texts).map Line.text = texts := by
  simp [plainLines, Function.comp_def]

theorem hasLines_dependencyImport (hmem : dependency ∈ definition.dependencies)
    (h : render definition comment = .ok text) :
    ∃ lines, dependencyImport definition.names dependency = .ok lines ∧ HasLines text lines := by
  obtain ⟨imports, himports, registryPath, _, basePath, _, htext⟩ := render_eq_ok_iff.mp h
  obtain ⟨lines, hlines, himport⟩ := exists_result_of_mapM_eq_ok himports hmem
  have hflat : HasLines text imports.flatten := by
    refine ⟨_, htext, ?_⟩
    simp only [moduleLines, List.map_append, map_text_plainLines, List.append_assoc]
    exact (List.prefix_append ..).isInfix.trans
      ((List.suffix_append ..).isInfix.trans (List.suffix_append ..).isInfix)
  exact ⟨lines, himport, hflat.of_infix (List.infix_of_mem_flatten hlines)⟩

end TypeScript

end SchemaModules
