import SchemaModules.Proofs.Annotations
import SchemaModules.Proofs.ModuleLines
import SchemaModules.Proofs.QuotedTexts

/-!
# Scopes of type declarations

When a module is loaded, the names that its annotations give outside quotes are evaluated. They are
built in, imported, or records that are declared further up. Interfaces of definitions are named
inside quotes and comments only. A comment on all other keys of a record is one as long as no name
in it has a line end.
-/

namespace SchemaModules.Python

open Naming Schema Text

variable {definition name : String} {hint : TypeHint} {record : Record}
  {added : List Record} {declared targets : List String} {imports : List TypingName}

/-- The annotations of a declaration, all of which are evaluated when the module is loaded. -/
def Declaration.annotations : Declaration → List (List Piece)
  | .record record => record.fields.map RecordField.pieces
  | .alias _ hint quoted => [hintPieces quoted hint]

/-- The hints that a declaration gives in a comment. -/
def Declaration.remarks : Declaration → List TypeHint
  | .record record => record.index.toList
  | .alias .. => []

/-- Whether a declaration gives a hint in a comment or in quotes. -/
def Declaration.Cites (declaration : Declaration) (hint : TypeHint) : Prop :=
  hint ∈ declaration.remarks ∨ ∃ pieces ∈ declaration.annotations, .quoted hint ∈ pieces

/-- The name of the record that a declaration makes. -/
def Declaration.recordName? : Declaration → Option String
  | .record record => some record.name
  | .alias .. => none

def declaredNames (declarations : List Declaration) : List String :=
  declarations.filterMap Declaration.recordName?

theorem declaredNames_map_record (records : List Record) :
    declaredNames (records.map Declaration.record) = recordNames records := by
  simp [declaredNames, recordNames, Function.comp_def, Declaration.recordName?]

/-- The type declarations of a module, in order. -/
def Module.declarations (m : Module) : List Declaration :=
  m.nested.map Declaration.record ++ [m.interface]

/-- The names in the import line of the typing module. -/
def Module.typingNames (m : Module) : List String :=
  (TypingName.all.filter m.imports.contains).map TypingName.text

/-- Whether a name can be evaluated after the given records have been declared. -/
def Module.Knows (m : Module) (declared : List String) (name : String) : Prop :=
  name ∈ builtinNames ∨ name ∈ m.typingNames ∨ name ∈ declared

/-- What the type declarations of a module name, and where. -/
structure Module.WellScoped (m : Module) : Prop where
  nodup : (declaredNames m.declarations).Nodup
  /-- The name of a hoisted record is that of no interface. -/
  nested_name : ∀ record ∈ m.nested,
    (∃ rest, record.name = "_I" ++ rest) ∧ ∀ definition, record.name ≠ interfaceName definition
  /-- What is evaluated is built in, imported or declared further up. -/
  evaluated : ∀ ⦃before declaration after⦄, m.declarations = before ++ declaration :: after →
    ∀ pieces ∈ declaration.annotations, ∀ name, .name name ∈ pieces →
      m.Knows (declaredNames before) name
  /-- No interface is evaluated. -/
  interface_quoted : ∀ declaration ∈ m.declarations, ∀ pieces ∈ declaration.annotations,
    ∀ definition, .name (interfaceName definition) ∉ pieces
  /-- Quotes and comments name interfaces of the definitions in the type, and beside them only what
  the module knows. -/
  mentioned : ∀ declaration ∈ m.declarations, ∀ hint, declaration.Cites hint →
    ∀ name, .name name ∈ hint.pieces → m.Knows (recordNames m.nested) name ∨
      ∃ target ∈ m.definition.type.references, name = interfaceName target

/-! ## Single declarations -/

/-- A declaration that can be evaluated where the given records are declared and the given typing
names are imported. -/
structure Declaration.Fits (declared targets : List String) (imports : List TypingName)
    (declaration : Declaration) : Prop where
  names : ∀ pieces ∈ declaration.annotations, ∀ name, .name name ∈ pieces →
    name ∈ builtinNames ∨ (∃ typing ∈ imports, name = typing.text) ∨ name ∈ declared
  hints : ∀ hint, declaration.Cites hint → hint.records ⊆ declared ∧ hint.interfaces ⊆ targets

theorem eq_of_quoted_mem_hintPieces {quoted : Bool} {other : TypeHint}
    (h : .quoted other ∈ hintPieces quoted hint) : other = hint := by
  cases quoted with
  | false => exact absurd h (quoted_notMem_pieces hint other)
  | true => simpa [hintPieces] using h

theorem names_of_hintPieces {quoted : Bool} (hquoted : quoted = false → hint.interfaces = [])
    (hany : .any ∈ imports) (hrecords : hint.records ⊆ declared)
    (h : .name name ∈ hintPieces quoted hint) :
    name ∈ builtinNames ∨ (∃ typing ∈ imports, name = typing.text) ∨ name ∈ declared := by
  cases quoted with
  | true => simp [hintPieces] at h
  | false =>
    rcases mem_names_of_pieces h with hbuiltin | rfl | hrecord | ⟨target, htarget, -⟩
    · exact Or.inl hbuiltin
    · exact Or.inr (Or.inl ⟨.any, hany, rfl⟩)
    · exact Or.inr (Or.inr (hrecords hrecord))
    · rw [hquoted rfl] at htarget
      cases htarget

theorem fits_record (hsound : record.Sound targets imports) (hany : .any ∈ imports)
    (hrecords : ∀ hint ∈ record.hints, hint.records ⊆ declared) :
    (Declaration.record record).Fits declared targets imports where
  names := by
    intro pieces hpieces name hname
    obtain ⟨field, hfield, rfl⟩ := List.mem_map.mp hpieces
    have hhint : field.hint ∈ record.hints := List.mem_append_left _ (List.mem_map_of_mem hfield)
    have hfieldSound := hsound.fields field hfield
    cases hrequired : field.required with
    | true =>
      rw [RecordField.pieces, hrequired, if_pos rfl] at hname
      exact names_of_hintPieces hfieldSound.interfaces_eq hany (hrecords _ hhint) hname
    | false =>
      have hparts : name = TypingName.notRequired.text ∨
          .name name ∈ hintPieces field.quoted field.hint := by
        simpa [RecordField.pieces, hrequired] using hname
      rcases hparts with rfl | hinner
      · exact Or.inr (Or.inl ⟨.notRequired, hfieldSound.notRequired_mem hrequired, rfl⟩)
      · exact names_of_hintPieces hfieldSound.interfaces_eq hany (hrecords _ hhint) hinner
  hints := by
    intro hint hhint
    have hmem : hint ∈ record.hints := by
      rcases hhint with hremark | ⟨pieces, hpieces, hquoted⟩
      · exact List.mem_append_right _ hremark
      · obtain ⟨field, hfield, rfl⟩ := List.mem_map.mp hpieces
        have hinner : .quoted hint ∈ hintPieces field.quoted field.hint := by
          rw [RecordField.pieces] at hquoted
          split at hquoted
          · exact hquoted
          · simpa using hquoted
        rw [eq_of_quoted_mem_hintPieces hinner]
        exact List.mem_append_left _ (List.mem_map_of_mem hfield)
    exact ⟨hrecords hint hmem, hsound.interfaces_subset hint hmem⟩

theorem fits_alias {quoted : Bool} (hquoted : quoted = false → hint.interfaces = [])
    (hany : .any ∈ imports) (hmentions : hint.Mentions added targets) :
    (Declaration.alias name hint quoted).Fits (recordNames added) targets imports where
  names := by
    intro pieces hpieces name hname
    obtain rfl := List.mem_singleton.mp hpieces
    exact names_of_hintPieces hquoted hany hmentions.records_subset hname
  hints := by
    rintro other (hremark | ⟨pieces, hpieces, hother⟩)
    · cases hremark
    · obtain rfl := List.mem_singleton.mp hpieces
      obtain rfl := eq_of_quoted_mem_hintPieces hother
      exact ⟨hmentions.records_subset, hmentions.interfaces_subset⟩

/-! ## The declarations of a module -/

/-- What the interface of a definition and the records hoisted out of it name. -/
structure Hoists (definition : Definition) (final : Scope) (interface : Declaration) : Prop where
  hoisted : ∀ name ∈ recordNames final.records, IsHoisted name
  nodup : (recordNames final.records).Nodup
  inOrder : InOrder final.records
  sound : ∀ record ∈ final.records, record.Sound definition.type.references final.imports
  any_mem : .any ∈ final.imports
  fits : interface.Fits (recordNames final.records) definition.type.references final.imports
  interface_name : ∀ name ∈ interface.recordName?, name = definition.names.interfaceName

theorem Declares.hoists {definition : Definition} {start final : Scope} {interface : Declaration}
    (h : Declares definition.type.references start final added) (hrecords : start.records = [])
    (hany : .any ∈ start.imports)
    (hfits : interface.Fits (recordNames added) definition.type.references final.imports)
    (hname : ∀ name ∈ interface.recordName?, name = definition.names.interfaceName) :
    Hoists definition final interface := by
  have hadded : final.records = added := by rw [h.records_eq, hrecords, List.nil_append]
  subst hadded
  exact ⟨h.hoisted, h.nodup, h.inOrder, h.sound, h.imports_subset hany, hfits, hname⟩

theorem hoists_declareInterface {definition : Definition}
    (hname : ∃ rest, definition.names.interfaceName = "I" ++ rest) :
    Hoists definition (declareInterface definition { imports := [.any] }).2
      (declareInterface definition { imports := [.any] }).1 := by
  unfold declareInterface
  split
  next field fields index htype =>
    let start : Scope := { reserved := [definition.names.interfaceName], imports := [.any] }
    have htargets : fieldReferences (field :: fields) ++ indexReferences index ⊆
        definition.type.references := by
      rw [htype, TypeExpr.references]
      exact List.Subset.refl _
    obtain ⟨added, hdeclares, hsound, hmentions⟩ :=
      declares_recordOf (fun entry _ ↦ translates entry.2) (fun type _ ↦ translates type) start
        (Or.inl hname) htargets
    have hany := hdeclares.imports_subset (a := .any) List.mem_cons_self
    refine hdeclares.hoists rfl List.mem_cons_self
      (fits_record hsound hany fun hint hhint ↦ (hmentions hint hhint).records_subset) ?_
    rintro name hrecordName
    exact (Option.some.inj hrecordName).symm
  next =>
    let start : Scope := { imports := [.typeAlias, .any] }
    have hwanted : IsHoisted ("_" ++ definition.names.interfaceName) := by
      obtain ⟨rest, hrest⟩ := hname
      exact ⟨rest, by rw [hrest, ← String.append_assoc]; rfl⟩
    obtain ⟨added, hdeclares, hmentions⟩ := translates definition.type start hwanted
      (List.Subset.refl _)
    have hany : .any ∈ start.imports := by decide
    refine hdeclares.hoists rfl hany (fits_alias ?_ (hdeclares.imports_subset hany) hmentions)
      (by simp [Declaration.recordName?])
    intro hquoted
    have hnone : definition.type.references = [] := by simpa using hquoted
    have hinterfaces := hmentions.interfaces_subset
    rw [hnone] at hinterfaces
    exact List.subset_nil.mp hinterfaces

theorem imports_subset_of (definition : Definition) :
    (declareInterface definition { imports := [.any] }).2.imports ⊆
      (Module.of definition).imports := by
  intro typing htyping
  rw [Module.of, Module.declare]
  by_cases hnone : definition.dependencies.isEmpty
  · simpa only [hnone, if_pos, Scope.restart] using htyping
  · simpa only [hnone, if_neg, Bool.false_eq_true, not_false_eq_true, Scope.restart] using
      List.mem_cons_of_mem _ htyping

theorem mem_typingNames {m : Module} {typing : TypingName} (h : typing ∈ m.imports) :
    typing.text ∈ m.typingNames := by
  have hall : typing ∈ TypingName.all := by cases typing <;> decide
  exact List.mem_map_of_mem (List.mem_filter.mpr ⟨hall, List.contains_iff_mem.mpr h⟩)

/-- A declaration of a module fits behind those before it, which are hoisted records. -/
theorem Hoists.fits_of_append {m : Module} {final : Scope}
    (h : Hoists m.definition final m.interface) (hnested : m.nested = final.records)
    {before after : List Declaration} {declaration : Declaration}
    (hsplit : m.declarations = before ++ declaration :: after) :
    declaredNames before ⊆ recordNames m.nested ∧
      declaration.Fits (declaredNames before) m.definition.type.references final.imports := by
  rw [Module.declarations] at hsplit
  rcases List.eq_nil_or_concat after with rfl | ⟨earlier, last, rfl⟩
  · obtain ⟨rfl, hlast⟩ := List.append_inj' hsplit rfl
    obtain rfl : m.interface = declaration := List.singleton_inj.mp hlast
    rw [declaredNames_map_record, hnested]
    exact ⟨List.Subset.refl _, h.fits⟩
  · have hlast : m.nested.map Declaration.record ++ [m.interface] =
        (before ++ declaration :: earlier) ++ [last] := by simpa using hsplit
    obtain ⟨hrecords, -⟩ := List.append_inj' hlast rfl
    obtain ⟨first, rest, hmembers, rfl, hrest⟩ := List.map_eq_append_iff.mp hrecords
    obtain ⟨record, others, rfl, rfl, rfl⟩ := List.map_eq_cons_iff.mp hrest
    rw [declaredNames_map_record]
    refine ⟨?_, fits_record (h.sound record ?_) h.any_mem ?_⟩
    · rw [hmembers, recordNames_append]
      exact List.subset_append_left _ _
    · rw [← hnested, hmembers]
      simp
    · exact h.inOrder (hnested ▸ hmembers)

theorem interfaceName_ne_of_isHoisted (h : IsHoisted name) (definition : String) :
    name ≠ interfaceName definition := by
  rintro rfl
  obtain ⟨rest, hrest⟩ := h
  have hhead := head?_interfaceName definition
  rw [hrest, String.toList_append] at hhead
  simp at hhead

theorem interfaceName_notMem_builtinNames (definition : String) :
    interfaceName definition ∉ builtinNames := by
  intro hmem
  have hheads : ∀ name ∈ builtinNames, name.toList.head? ≠ some 'I' := by decide
  exact hheads _ hmem (head?_interfaceName definition)

theorem interfaceName_ne_text (definition : String) (typing : TypingName) :
    interfaceName definition ≠ typing.text := by
  intro hname
  have hhead : typing.text.toList.head? ≠ some 'I' := by cases typing <;> decide
  exact hhead (hname ▸ head?_interfaceName definition)

theorem wellScoped_of_hoists {m : Module} {final : Scope}
    (h : Hoists m.definition final m.interface) (hnested : m.nested = final.records)
    (himports : final.imports ⊆ m.imports)
    (hname : m.definition.names.interfaceName = interfaceName definition) : m.WellScoped where
  nodup := by
    have hnames : declaredNames m.declarations =
        recordNames m.nested ++ m.interface.recordName?.toList := by
      rw [Module.declarations, declaredNames, List.filterMap_append, ← declaredNames,
        declaredNames_map_record]
      cases m.interface <;> rfl
    have hinterface : m.interface.recordName?.toList.Nodup := by
      cases m.interface.recordName? <;> simp
    rw [hnames, hnested]
    refine List.nodup_append.mpr ⟨h.nodup, hinterface, ?_⟩
    rintro hoisted hhoisted interface hinterface rfl
    have hown := h.interface_name _ (Option.mem_toList.mp hinterface)
    exact interfaceName_ne_of_isHoisted (h.hoisted _ hhoisted) definition (hown.trans hname)
  nested_name := by
    intro record hrecord
    have hhoisted := h.hoisted record.name (List.mem_map_of_mem (hnested ▸ hrecord))
    exact ⟨hhoisted, interfaceName_ne_of_isHoisted hhoisted⟩
  evaluated := by
    intro before declaration after hsplit pieces hpieces name hmem
    have hfits := (h.fits_of_append hnested hsplit).2
    rcases hfits.names pieces hpieces name hmem with
      hbuiltin | ⟨typing, htyping, rfl⟩ | hdeclared
    · exact Or.inl hbuiltin
    · exact Or.inr (Or.inl (mem_typingNames (himports htyping)))
    · exact Or.inr (Or.inr hdeclared)
  interface_quoted := by
    intro declaration hdeclaration pieces hpieces target hmem
    obtain ⟨before, after, hsplit⟩ := List.append_of_mem hdeclaration
    obtain ⟨hbefore, hfits⟩ := h.fits_of_append hnested hsplit
    rcases hfits.names pieces hpieces _ hmem with
      hbuiltin | ⟨typing, -, htext⟩ | hdeclared
    · exact interfaceName_notMem_builtinNames target hbuiltin
    · exact interfaceName_ne_text target typing htext
    · exact interfaceName_ne_of_isHoisted (h.hoisted _ (hnested ▸ hbefore hdeclared)) target rfl
  mentioned := by
    intro declaration hdeclaration hint hhint name hmem
    obtain ⟨before, after, hsplit⟩ := List.append_of_mem hdeclaration
    obtain ⟨hbefore, hfits⟩ := h.fits_of_append hnested hsplit
    obtain ⟨hrecords, hinterfaces⟩ := hfits.hints hint hhint
    rcases mem_names_of_pieces hmem with hbuiltin | rfl | hrecord | ⟨target, htarget, rfl⟩
    · exact Or.inl (Or.inl hbuiltin)
    · exact Or.inl (Or.inr (Or.inl (mem_typingNames (himports h.any_mem))))
    · exact Or.inl (Or.inr (Or.inr (hbefore (hrecords hrecord))))
    · exact Or.inr ⟨target, hinterfaces htarget, rfl⟩

/-- Where the text of a module holds its declarations and the import line of the typing module, and
what of the declarations is quoted or a comment from a description. -/
structure Module.Shows (m : Module) (comment : String) : Prop where
  imported : HasLines (m.render comment) ["from typing import " ++ join ", " m.typingNames]
  declared : HasLines (m.render comment) (declarationLines m)
  lines : ∀ declaration ∈ m.declarations, declaration.render = join "\n" declaration.lines
  described : ∀ text ∈ m.definition.remark?, ∀ line ∈ Target.lineComments "#" text, IsComment line
  commented : ∀ record, .record record ∈ m.declarations → ∀ field ∈ record.fields,
    ∀ line ∈ field.comments, IsComment line
  /-- A reader of texts between quotes stops behind a quoted hint. -/
  quoted : ∀ declaration ∈ m.declarations, ∀ pieces ∈ declaration.annotations,
    ∀ hint, .quoted hint ∈ pieces → ∀ rest,
      ∃ inner, (Piece.quoted hint).text.toList ++ rest = '"' :: inner ∧
        readQuoted '"' inner = some (hint.render.toList, rest)

/-- The hints that declarations give in comments stand in comments. -/
def Module.RemarksInComments (m : Module) : Prop :=
  ∀ declaration ∈ m.declarations, ∀ hint ∈ declaration.remarks, IsComment hint.remark

/-- No name in a remark has a line end. -/
def Module.RemarksInLine (m : Module) : Prop :=
  ∀ declaration ∈ m.declarations, ∀ hint ∈ declaration.remarks,
    ∀ name, .name name ∈ hint.pieces → IsSingleLine name

theorem typingImport_eq {m : Module} (hany : .any ∈ m.imports) :
    typingImport m.imports = ["from typing import " ++ join ", " m.typingNames] := by
  have hsome : .any ∈ TypingName.all.filter m.imports.contains :=
    List.mem_filter.mpr ⟨by decide, List.contains_iff_mem.mpr hany⟩
  rw [typingImport, Module.typingNames]
  cases hnames : TypingName.all.filter m.imports.contains with
  | nil => simp [hnames] at hsome
  | cons first rest => rfl

/-- The type declarations in the module of any definition can be evaluated one after the other when
the module is loaded, as far as no line end in a name ends a remark early: descriptions are split
into comments line by line, and quoted hints are escaped, but a remark holds the names of its hint
as they are. -/
theorem wellScoped_and_remarks_iff (conventions : Conventions) (name : String) (schema : Json)
    (comment : String) :
    (Module.of (.of conventions name schema)).WellScoped ∧
      (Module.of (.of conventions name schema)).Shows comment ∧
      ((Module.of (.of conventions name schema)).RemarksInComments ↔
        (Module.of (.of conventions name schema)).RemarksInLine) := by
  have hname : ∃ rest, (Definition.of conventions name schema).names.interfaceName = "I" ++ rest :=
    ⟨className name, rfl⟩
  have hhoists := hoists_declareInterface hname
  refine ⟨wellScoped_of_hoists hhoists rfl (imports_subset_of _) rfl, ⟨?_, ?_, ?_, ?_, ?_, ?_⟩, ?_⟩
  · rw [← typingImport_eq (imports_subset_of _ hhoists.any_mem)]
    exact hasLines_typingImport _ comment
  · exact hasLines_declarations _ comment
  · exact fun declaration _ ↦ declaration.render_eq
  · exact fun _ _ _ hline ↦ isComment_of_mem_lineComments hline
  · exact fun _ _ field _ _ hline ↦ field.isComment_of_mem_comments hline
  · exact fun _ _ _ _ hint _ rest ↦ readQuoted_doubleQuoted hint.render rest
  · unfold Module.RemarksInComments Module.RemarksInLine
    simp only [isComment_remark_iff]

/-- A record with a reference of two lines as the type of all other keys. -/
def splitReference : Definition :=
  .of ⟨.python, "", "#/definitions/"⟩ "x.Foo" (.obj [("type", .str "object"),
    ("properties", .obj [("a", .obj [("type", .str "string")])]),
    ("additionalProperties", .obj [("$ref", .str "#/definitions/x\nY")])])

/-- The second line of the name of an interface stands between the fields of the record. -/
theorem not_remarksInComments_splitReference :
    ¬(Module.of splitReference).RemarksInComments ∧
      (Module.of splitReference).interface.render = join "\n"
        ["IXFoo = TypedDict(",
          "    \"IXFoo\",",
          "    \x7b",
          "        \"a\": NotRequired[str],",
          "        # Additional properties: IX",
          "Y",
          "    \x7d,",
          ")"] := by
  constructor
  · intro hcomments
    have hdeclaration : (Module.of splitReference).interface ∈
        (Module.of splitReference).declarations := by simp [Module.declarations]
    have hremark : .interface "x\nY" ∈ (Module.of splitReference).interface.remarks := by
      decide +kernel
    have hcomment := hcomments _ hdeclaration _ hremark
    have hline := isComment_remark_iff.mp hcomment _ (List.mem_singleton_self _)
    revert hline
    decide +kernel
  · decide +kernel

end SchemaModules.Python
