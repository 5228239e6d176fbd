import SchemaModules.Proofs.HoistedRecords
import SchemaModules.Proofs.TextLines
import SchemaModules.Target.PythonModule

/-!
# Annotations

The annotations of a module are looked at as sequences of names, marks and quoted hints. The lines
of a declaration are comments and lines that hold an annotation each. A comment ends with its line:
that of a field is split at line ends, while the remark on all other keys holds a hint as it is and
stays a comment if no name in it has a line end.
-/

namespace SchemaModules.Python

open Naming Schema Text

variable {name : String} {hint : TypeHint} {field : RecordField}

/-! ## Comments -/

/-- A text without the characters that end a line of a module. -/
def IsSingleLine (text : String) : Prop := '\n' ∉ text.toList ∧ '\r' ∉ text.toList

instance (text : String) : Decidable (IsSingleLine text) :=
  inferInstanceAs (Decidable (_ ∧ _))

theorem isSingleLine_append {first second : String} :
    IsSingleLine (first ++ second) ↔ IsSingleLine first ∧ IsSingleLine second := by
  simp only [IsSingleLine, String.toList_append, List.mem_append, not_or]
  exact and_and_and_comm

theorem isSingleLine_of_isLineBreak {text : String}
    (h : ∀ c ∈ text.toList, isLineBreak c = false) : IsSingleLine text := by
  constructor <;>
  · intro hmem
    have hnone := h _ hmem
    revert hnone
    decide

/-- A line that is a comment up to its end. -/
def IsComment (line : String) : Prop := (∃ rest, line = "#" ++ rest) ∧ IsSingleLine line

theorem isComment_of_mem_lineComments {text line : String}
    (h : line ∈ Target.lineComments "#" text) : IsComment line := by
  obtain ⟨chars, hchars, rfl⟩ := List.mem_map.mp h
  have hstrip : stripEnd ('#' :: ' ' :: chars) = '#' :: stripEnd (' ' :: chars) :=
    stripEnd_cons (by decide) _
  constructor
  · exact ⟨String.ofList (stripEnd (' ' :: chars)), by simp [hstrip]⟩
  · apply isSingleLine_of_isLineBreak
    intro c hc
    rw [String.toList_ofList] at hc
    have hmem : c = '#' ∨ c = ' ' ∨ c ∈ chars := by
      simpa only [List.mem_cons] using stripEnd_subset ('#' :: ' ' :: chars) hc
    rcases hmem with rfl | rfl | hmem
    · decide
    · decide
    · exact isLineBreak_of_mem_splitLinesFrom (by simp) hchars hmem

/-! ## Annotations in pieces -/

/-- A part of an annotation: a name, what stands between names, or a hint as a text literal. -/
inductive Piece
  | name (text : String)
  | mark (text : String)
  | quoted (hint : TypeHint)

def Piece.text : Piece → String
  | .name text | .mark text => text
  | .quoted hint => doubleQuoted hint.render

def renderPieces (pieces : List Piece) : String := String.join (pieces.map Piece.text)

def TypeHint.pieces : TypeHint → List Piece
  | .any => [.name TypingName.any.text]
  | .text => [.name "str"]
  | .number => [.name "float"]
  | .truth => [.name "bool"]
  | .none => [.name "None"]
  | .textOrNumber => [.name "str", .mark " | ", .name "float"]
  | .interface name => [.name (interfaceName name)]
  | .record name => [.name name]
  | .list item => [.name "list", .mark "["] ++ item.pieces ++ [.mark "]"]
  | .dict value =>
    [.name "dict", .mark "[", .name "str", .mark ", "] ++ value.pieces ++ [.mark "]"]

/-- The pieces of a hint that stands as it is or as a text literal. -/
def hintPieces (quoted : Bool) (hint : TypeHint) : List Piece :=
  if quoted then [.quoted hint] else hint.pieces

/-- What stands behind the name of a field. -/
def RecordField.pieces (field : RecordField) : List Piece :=
  if field.required then hintPieces field.quoted field.hint
  else [.name TypingName.notRequired.text, .mark "["] ++
    hintPieces field.quoted field.hint ++ [.mark "]"]

@[simp]
theorem renderPieces_append (first second : List Piece) :
    renderPieces (first ++ second) = renderPieces first ++ renderPieces second := by
  simp [renderPieces, String.join_append]

theorem renderPieces_pieces (hint : TypeHint) : renderPieces hint.pieces = hint.render := by
  induction hint with
  | list item ih | dict value ih =>
    rw [TypeHint.pieces, renderPieces_append, renderPieces_append, ih, TypeHint.render]
    simp [renderPieces, Piece.text]
  | _ => simp [TypeHint.pieces, TypeHint.render, renderPieces, Piece.text, TypingName.text]

theorem renderPieces_hintPieces (quoted : Bool) (hint : TypeHint) :
    renderPieces (hintPieces quoted hint) = renderHint quoted hint := by
  cases quoted
  · exact renderPieces_pieces hint
  · simp [hintPieces, renderHint, renderPieces, Piece.text]

def RecordField.comments (field : RecordField) : List String :=
  match field.comment.filter fun text ↦ !text.isEmpty with
  | some text => Target.lineComments "#" text
  | none => []

/-- The lines of a field: its comments, then its key and its annotation. -/
def RecordField.lines (field : RecordField) : List String :=
  field.comments.map (indentOf 2 ++ ·) ++
    [indentOf 2 ++ doubleQuoted field.name ++ ": " ++ renderPieces field.pieces ++ ","]

theorem RecordField.isComment_of_mem_comments {line : String} (h : line ∈ field.comments) :
    IsComment line := by
  rw [RecordField.comments] at h
  split at h
  · exact isComment_of_mem_lineComments h
  · cases h

theorem RecordField.render_eq (field : RecordField) : field.render = field.lines := by
  have hpieces : renderPieces field.pieces =
      if field.required then renderHint field.quoted field.hint
      else "NotRequired[" ++ renderHint field.quoted field.hint ++ "]" := by
    rw [RecordField.pieces]
    split
    · exact renderPieces_hintPieces _ _
    · rw [renderPieces_append, renderPieces_append, renderPieces_hintPieces]
      simp [renderPieces, Piece.text, TypingName.text]
  rw [RecordField.lines, hpieces, RecordField.render, RecordField.comments]
  cases field.comment.filter fun text ↦ !text.isEmpty <;> rfl

theorem isSingleLine_renderPieces {pieces : List Piece} :
    IsSingleLine (renderPieces pieces) ↔ ∀ piece ∈ pieces, IsSingleLine piece.text := by
  induction pieces with
  | nil => simp [renderPieces, IsSingleLine]
  | cons piece rest ih =>
    have hcons : renderPieces (piece :: rest) = piece.text ++ renderPieces rest := by
      rw [renderPieces, List.map_cons, String.join_cons, renderPieces]
    rw [hcons, isSingleLine_append, ih, List.forall_mem_cons]

/-- What stands between names. -/
def marks : List String := ["[", "]", ", ", " | "]

theorem mem_marks_of_pieces {text : String} (h : .mark text ∈ hint.pieces) : text ∈ marks := by
  induction hint with
  | list item ih =>
    have hparts : (text = "[" ∨ .mark text ∈ item.pieces) ∨ text = "]" := by
      simpa [TypeHint.pieces, or_assoc] using h
    rcases hparts with (rfl | hitem) | rfl
    · decide
    · exact ih hitem
    · decide
  | dict value ih =>
    have hparts : text = "[" ∨ text = ", " ∨ .mark text ∈ value.pieces ∨ text = "]" := by
      simpa [TypeHint.pieces] using h
    rcases hparts with rfl | rfl | hvalue | rfl
    · decide
    · decide
    · exact ih hvalue
    · decide
  | textOrNumber =>
    obtain rfl : text = " | " := by simpa [TypeHint.pieces] using h
    decide
  | _ => simp [TypeHint.pieces] at h

theorem quoted_notMem_pieces (hint other : TypeHint) : .quoted other ∉ hint.pieces := by
  induction hint with
  | list item ih | dict value ih => simpa [TypeHint.pieces] using ih
  | _ => simp [TypeHint.pieces]

/-- A remark holds its hint as it is, so a line end in a name of the hint ends the comment. -/
theorem isComment_remark_iff :
    IsComment hint.remark ↔ ∀ name, .name name ∈ hint.pieces → IsSingleLine name := by
  have hlead : "# Additional properties: " = "#" ++ " Additional properties: " := by decide
  have hmark : ∃ rest, hint.remark = "#" ++ rest :=
    ⟨_, (congrArg (· ++ hint.render) hlead).trans (String.append_assoc ..)⟩
  have hline : IsSingleLine "# Additional properties: " := by decide
  have hremark : IsSingleLine hint.remark ↔ ∀ piece ∈ hint.pieces, IsSingleLine piece.text := by
    rw [← isSingleLine_renderPieces, renderPieces_pieces]
    exact isSingleLine_append.trans (and_iff_right hline)
  have hmarks : ∀ mark ∈ marks, IsSingleLine mark := by decide
  rw [IsComment, and_iff_right hmark, hremark]
  constructor
  · exact fun hpieces name hname ↦ hpieces _ hname
  · intro hnames piece hpiece
    cases piece with
    | name text => exact hnames text hpiece
    | mark text => exact hmarks text (mem_marks_of_pieces hpiece)
    | quoted other => exact absurd hpiece (quoted_notMem_pieces hint other)

/-- The lines of a declaration, with its annotations in pieces. -/
def Declaration.lines : Declaration → List String
  | .record declared =>
    [declared.name ++ " = TypedDict(", indentOf 1 ++ doubleQuoted declared.name ++ ",",
      indentOf 1 ++ "\x7b"] ++
    declared.fields.flatMap RecordField.lines ++
    declared.index.toList.map (indentOf 2 ++ TypeHint.remark ·) ++
    [indentOf 1 ++ "\x7d,", ")"]
  | .alias name hint quoted => [name ++ ": TypeAlias = " ++ renderPieces (hintPieces quoted hint)]

theorem Declaration.render_eq (declaration : Declaration) :
    declaration.render = join "\n" declaration.lines := by
  cases declaration with
  | record declared =>
    have hfields : declared.fields.flatMap RecordField.render =
        declared.fields.flatMap RecordField.lines :=
      congrArg declared.fields.flatMap (funext RecordField.render_eq)
    rw [Declaration.render, Record.render, Declaration.lines, hfields]
    cases declared.index <;> rfl
  | «alias» name hint quoted =>
    rw [Declaration.render, Declaration.lines, renderPieces_hintPieces]
    simp [join]

/-- The names that need no import. -/
def builtinNames : List String := ["str", "float", "bool", "None", "list", "dict"]

theorem mem_names_of_pieces (h : .name name ∈ hint.pieces) :
    name ∈ builtinNames ∨ name = TypingName.any.text ∨ name ∈ hint.records ∨
      ∃ target ∈ hint.interfaces, name = interfaceName target := by
  induction hint with
  | list item ih =>
    have hparts : name = "list" ∨ .name name ∈ item.pieces := by simpa [TypeHint.pieces] using h
    rcases hparts with rfl | hitem
    · exact Or.inl (by decide)
    · exact ih hitem
  | dict value ih =>
    have hparts : name = "dict" ∨ name = "str" ∨ .name name ∈ value.pieces := by
      simpa [TypeHint.pieces] using h
    rcases hparts with rfl | rfl | hvalue
    · exact Or.inl (by decide)
    · exact Or.inl (by decide)
    · exact ih hvalue
  | textOrNumber =>
    have hparts : name = "str" ∨ name = "float" := by simpa [TypeHint.pieces] using h
    rcases hparts with rfl | rfl <;> exact Or.inl (by decide)
  | _ => simp_all [TypeHint.pieces, builtinNames, TypeHint.records, TypeHint.interfaces]

end SchemaModules.Python
