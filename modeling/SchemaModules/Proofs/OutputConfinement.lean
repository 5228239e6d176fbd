import Mathlib.Data.List.Induction
import SchemaModules.Output.Publish
import SchemaModules.Proofs.GeneratedPaths

/-!
# Confinement of outputs

Segments of module paths hold no dots, so no generated path leads upwards. Nothing keeps a segment
from beginning with a slash, and a segment that does discards all segments before it together with
the directory that the output is written to.

The main statement says that the files of a run stay below every directory exactly if no segment
begins with a slash.
-/

namespace SchemaModules

open Naming Text

/-! ## Paths -/

namespace Files.Path

variable {base path top : Path} {text part : String} {texts : List String}

/-- A path that goes on from another one without going up. -/
def IsBelow (path top : Path) : Prop :=
  ∃ parts, path = ⟨top.root, top.parts ++ parts⟩ ∧ ".." ∉ parts

theorem append_of_isAbsolute (h : path.isAbsolute) : base ++ path = path :=
  if_pos h

theorem append_of_relative (h : path.isAbsolute = false) :
    base ++ path = ⟨base.root, base.parts ++ path.parts⟩ :=
  if_neg (by simp [h])

theorem isBelow_append (hrelative : path.isAbsolute = false) (hparts : ".." ∉ path.parts) :
    (top ++ path).IsBelow top :=
  ⟨path.parts, append_of_relative hrelative, hparts⟩

theorem isAbsolute_append_iff :
    (base ++ path).isAbsolute ↔ base.isAbsolute ∨ path.isAbsolute := by
  cases h : path.isAbsolute with
  | true => simp [append_of_isAbsolute h, h]
  | false => simp [append_of_relative h, isAbsolute]

theorem mem_parts_append (h : part ∈ (base ++ path).parts) :
    part ∈ base.parts ∨ part ∈ path.parts := by
  cases habsolute : path.isAbsolute with
  | true => exact .inr (append_of_isAbsolute habsolute ▸ h)
  | false =>
    rw [append_of_relative habsolute] at h
    exact List.mem_append.mp h

theorem ofTexts_concat (texts : List String) (text : String) :
    ofTexts (texts ++ [text]) = ofTexts texts ++ ofText text :=
  List.foldl_append

theorem isAbsolute_ofText_iff : (ofText text).isAbsolute ↔ text.toList.head? = some '/' := by
  unfold isAbsolute ofText rootOf
  split
  · next h => simp [h]
  · next h => simp [h]
  · next h => simp [h]
  · next h =>
    refine iff_of_false (by simp) fun hhead ↦ ?_
    obtain ⟨rest, hrest⟩ := List.head?_eq_some_iff.mp hhead
    exact h rest hrest

/-- A single absolute text makes the whole path absolute. -/
theorem isAbsolute_ofTexts_iff :
    (ofTexts texts).isAbsolute ↔ ∃ text ∈ texts, text.toList.head? = some '/' := by
  induction texts using List.reverseRecOn with
  | nil => simp [ofTexts, empty, isAbsolute]
  | append_singleton texts text ih =>
    rw [ofTexts_concat, isAbsolute_append_iff, ih, isAbsolute_ofText_iff]
    simp [or_and_right, exists_or]

theorem exists_of_mem_parts_ofTexts (h : part ∈ (ofTexts texts).parts) :
    ∃ text ∈ texts, part ∈ (ofText text).parts := by
  induction texts using List.reverseRecOn with
  | nil => cases h
  | append_singleton texts text ih =>
    rw [ofTexts_concat] at h
    rcases mem_parts_append h with hbefore | hlast
    · obtain ⟨other, hother, hpart⟩ := ih hbefore
      exact ⟨other, List.mem_append_left _ hother, hpart⟩
    · exact ⟨text, by simp, hlast⟩

theorem sublist_of_mem_parts_ofText (h : part ∈ (ofText text).parts) :
    part.toList.Sublist text.toList := by
  obtain ⟨chars, hchars, rfl⟩ := List.mem_map.mp (List.mem_filter.mp h).1
  simpa using sublist_of_mem_splitAt hchars

/-- It takes two dots in one text to go up. -/
theorem parent_notMem_parts_ofTexts (h : ∀ text ∈ texts, text.toList.count '.' ≤ 1) :
    ".." ∉ (ofTexts texts).parts := by
  intro hmem
  obtain ⟨text, htext, hpart⟩ := exists_of_mem_parts_ofTexts hmem
  have hcount := (sublist_of_mem_parts_ofText hpart).count_le '.'
  have htwo : "..".toList.count '.' = 2 := by decide
  have hone := h text htext
  omega

end Files.Path

namespace Output

open Files

variable {formatter : Option Formatter} {config : Config} {commandLine : String}
  {definitions : List (String × Json)} {files : List GeneratedFile} {language : Language}
  {path : List String} {top target : Path}

theorem isAbsolute_writtenPath_iff (hne : path ≠ [])
    (hsegments : ∀ segment ∈ path, IsSegment segment) :
    (writtenPath language path).isAbsolute ↔
      ∃ segment ∈ path, segment.toList.head? = some '/' := by
  obtain ⟨above, leaf, rfl⟩ := (List.eq_nil_or_concat' path).resolve_left hne
  have hleaf : leaf.toList ≠ [] := by simpa using (hsegments leaf (by simp)).ne_empty
  have hhead : (fileName language leaf).toList.head? = leaf.toList.head? := by
    rw [fileName, String.toList_append, String.toList_append, List.append_assoc,
      List.head?_append_of_ne_nil _ hleaf]
  rw [writtenPath_concat, Path.isAbsolute_ofTexts_iff]
  simp [or_and_right, exists_or, hhead]

theorem parent_notMem_writtenPath (hne : path ≠ [])
    (hsegments : ∀ segment ∈ path, IsSegment segment) :
    ".." ∉ (writtenPath language path).parts := by
  obtain ⟨above, leaf, rfl⟩ := (List.eq_nil_or_concat' path).resolve_left hne
  have hcount {segment : String} (hmem : segment ∈ above ++ [leaf]) :
      segment.toList.count '.' = 0 := List.count_eq_zero.mpr (hsegments segment hmem).no_dot
  rw [writtenPath_concat]
  apply Path.parent_notMem_parts_ofTexts
  intro text htext
  rcases List.mem_append.mp htext with habove | hlast
  · rw [hcount (List.mem_append_left _ habove)]
    exact Nat.zero_le 1
  · obtain rfl := List.mem_singleton.mp hlast
    -- the only dot of a file name is the one before its extension
    have hextension : language.fileExtension.toList.count '.' = 0 := by cases language <;> decide
    have hpoint : ".".toList.count '.' = 1 := by decide
    simp [fileName, List.count_append, hcount (List.mem_append_right _ List.mem_cons_self),
      hextension]

theorem mem_of_mem_reported {writeOne : FileTree → Path → String → Attempt} {tree : FileTree}
    {reported : List Path} {targets : List (Path × String)}
    (h : target ∈ (writeAll writeOne tree reported targets).reported) :
    target ∈ reported ∨ target ∈ targets.map Prod.fst := by
  induction targets generalizing tree reported with
  | nil => exact .inl h
  | cons first rest ih =>
    obtain ⟨next, content⟩ := first
    have hlater : target ∈ reported ++ [next] ∨ target ∈ rest.map Prod.fst := by
      rw [writeAll] at h
      split at h
      · exact .inl h
      · exact ih h
    rw [List.mem_append, List.mem_singleton, or_assoc] at hlater
    rwa [List.map_cons, List.mem_cons]

theorem exists_file_of_mem_publishFiles {settings : OutputSettings} {check : Check}
    {tree : FileTree} (h : target ∈ (publishFiles settings check tree top files).reported) :
    ∃ file ∈ files, target = top ++ file.path := by
  have htarget : target ∈ (files.map fun file ↦ (top ++ file.path, file.content)).map Prod.fst := by
    simp only [publishFiles] at h
    split at h
    · split at h
      · cases h
      · exact (mem_of_mem_reported h).resolve_left List.not_mem_nil
    · exact (mem_of_mem_reported h).resolve_left List.not_mem_nil
  rw [List.map_map] at htarget
  obtain ⟨file, hfile, rfl⟩ := List.mem_map.mp htarget
  exact ⟨file, hfile, rfl⟩

/-- Whatever a run writes is a generated file at its path from the directory. -/
theorem exists_file_of_mem_publish {check : Check} {tree : FileTree}
    (h : target ∈ (publish formatter config commandLine check definitions tree top).2.reported)
    (hfiles : (generate formatter config commandLine definitions).outcome.2 = .ok files) :
    ∃ file ∈ files, target = top ++ file.path := by
  unfold publish at h
  rcases houtcome : (generate formatter config commandLine definitions).outcome with
    ⟨events, result⟩
  rw [houtcome] at h hfiles
  obtain rfl : result = .ok files := hfiles
  cases houtput : config.output with
  | none =>
    rw [houtput] at h
    cases h
  | some settings =>
    rw [houtput] at h
    exact exists_file_of_mem_publishFiles h

/-! ## Confinement -/

/-- Files that stay below every directory: their paths are relative and lead nowhere upwards, and
so do the paths from the directory at which they are written. -/
structure Confined (formatter : Option Formatter) (config : Config) (commandLine : String)
    (definitions : List (String × Json)) (files : List GeneratedFile) : Prop where
  relative : ∀ file ∈ files, file.path.isAbsolute = false
  descending : ∀ file ∈ files, ".." ∉ file.path.parts
  written : ∀ check tree top,
    ∀ target ∈ (publish formatter config commandLine check definitions tree top).2.reported,
      target.IsBelow top

/-- No segment of a module path begins with a slash. -/
def Unrooted (placements : List (String × List String)) : Prop :=
  ∀ placement ∈ placements, ∀ segment ∈ placement.2, segment.toList.head? ≠ some '/'

instance : DecidablePred Unrooted := fun placements ↦
  inferInstanceAs (Decidable (∀ placement ∈ placements, ∀ segment ∈ placement.2,
    segment.toList.head? ≠ some '/'))

theorem exists_file_of_placement {placement : String × List String}
    (h : (generate formatter config commandLine definitions).outcome.2 = .ok files)
    (hplacement : placement ∈ config.placements definitions) :
    ∃ file ∈ files, file.path = writtenPath config.language placement.2 := by
  obtain ⟨directories, hwritten⟩ := exists_writtenAt_of_generate h
  have hpath : writtenPath config.language placement.2 ∈ files.map GeneratedFile.path := by
    rw [hwritten.map_path]
    exact List.mem_map_of_mem (List.mem_append_left _ (List.mem_map_of_mem hplacement))
  exact List.mem_map.mp hpath

theorem WrittenAt.exists_path {placements : List (String × List String)}
    {directories : List (List String)} {file : GeneratedFile}
    (h : WrittenAt language placements directories files) (hfile : file ∈ files) :
    ∃ path ∈ takenPaths language placements directories, file.path = writtenPath language path := by
  have hpath := List.mem_map_of_mem (f := GeneratedFile.path) hfile
  rw [h.map_path] at hpath
  obtain ⟨path, htaken, hsame⟩ := List.mem_map.mp hpath
  exact ⟨path, htaken, hsame.symm⟩

theorem isSegment_of_mem_placements {placement : String × List String}
    (h : placement ∈ config.placements definitions) :
    ∀ segment ∈ placement.2, IsSegment segment := by
  obtain ⟨definition, -, rfl⟩ := List.mem_map.mp h
  exact fun segment ↦ isSegment_of_mem_modulePath

theorem WrittenAt.isSegment_of_mem {placements : List (String × List String)}
    {directories : List (List String)} (h : WrittenAt language placements directories files)
    (hplacements : ∀ placement ∈ placements, ∀ segment ∈ placement.2, IsSegment segment) :
    ∀ path ∈ takenPaths language placements directories, ∀ segment ∈ path, IsSegment segment := by
  refine h.forall_mem hplacements ?_ ?_ <;> cases language <;> decide

theorem confined_of_unrooted
    (h : (generate formatter config commandLine definitions).outcome.2 = .ok files)
    (hunrooted : Unrooted (config.placements definitions)) :
    Confined formatter config commandLine definitions files := by
  obtain ⟨directories, hwritten⟩ := exists_writtenAt_of_generate h
  have hsegments := hwritten.isSegment_of_mem fun _ ↦ isSegment_of_mem_placements
  have hheads : ∀ path ∈ takenPaths config.language (config.placements definitions) directories,
      ∀ segment ∈ path, segment.toList.head? ≠ some '/' := by
    refine hwritten.forall_mem hunrooted ?_ ?_ <;> cases config.language <;> decide
  have hrelative : ∀ file ∈ files, file.path.isAbsolute = false := by
    intro file hfile
    obtain ⟨path, hpath, hsame⟩ := hwritten.exists_path hfile
    rw [hsame, Bool.eq_false_iff, ne_eq, isAbsolute_writtenPath_iff
      (ne_nil_of_mem_takenPaths hwritten.conflictFree hpath) (hsegments path hpath)]
    rintro ⟨segment, hsegment, hslash⟩
    exact hheads path hpath segment hsegment hslash
  have hdescending : ∀ file ∈ files, ".." ∉ file.path.parts := by
    intro file hfile
    obtain ⟨path, hpath, hsame⟩ := hwritten.exists_path hfile
    rw [hsame]
    exact parent_notMem_writtenPath (ne_nil_of_mem_takenPaths hwritten.conflictFree hpath)
      (hsegments path hpath)
  refine ⟨hrelative, hdescending, ?_⟩
  intro check tree top target htarget
  obtain ⟨file, hfile, rfl⟩ := exists_file_of_mem_publish htarget h
  exact Path.isBelow_append (hrelative file hfile) (hdescending file hfile)

/-- The files of a run stay below every directory exactly if no segment of a module path begins with
a slash. -/
theorem confined_iff
    (h : (generate formatter config commandLine definitions).outcome.2 = .ok files) :
    Confined formatter config commandLine definitions files ↔
      Unrooted (config.placements definitions) := by
  refine ⟨?_, confined_of_unrooted h⟩
  intro hconfined placement hplacement segment hsegment hslash
  obtain ⟨directories, hwritten⟩ := exists_writtenAt_of_generate h
  obtain ⟨file, hfile, hpath⟩ := exists_file_of_placement h hplacement
  have hrelative := hconfined.relative file hfile
  rw [hpath, Bool.eq_false_iff, ne_eq, isAbsolute_writtenPath_iff
    (hwritten.conflictFree.ne_nil placement hplacement)
    (isSegment_of_mem_placements hplacement)] at hrelative
  exact hrelative ⟨segment, hsegment, hslash⟩

/-- A slash within a segment makes one more directory. -/
def slashedDefinition : List (String × Json) :=
  [("x.a/b", .obj [("type", .str "object")]), ("x.A", .obj [("type", .str "object")])]

theorem confined_slashedDefinition :
    ∃ files, (generate none {} programName slashedDefinition).outcome.2 = .ok files ∧
      (∃ file ∈ files, file.path = ⟨"", ["x", "a", "b.py"]⟩) ∧
      Confined none {} programName slashedDefinition files := by
  have hfree : ModuleTree.ConflictFree (Config.placements {} slashedDefinition) := by decide +kernel
  obtain ⟨files, hfiles⟩ := exists_generate_of_conflictFree programName hfree
  have hplacement : ("x.a/b", ["x", "a/b"]) ∈ Config.placements {} slashedDefinition := by
    decide +kernel
  obtain ⟨file, hfile, hpath⟩ := exists_file_of_placement hfiles hplacement
  have hwritten : writtenPath .python ["x", "a/b"] = ⟨"", ["x", "a", "b.py"]⟩ := by decide +kernel
  exact ⟨files, hfiles, ⟨file, hfile, hpath.trans hwritten⟩,
    (confined_iff hfiles).mpr (by decide +kernel)⟩

def rootedDefinition : List (String × Json) := [("x./etc", .obj [("type", .str "object")])]

/-- The file of a definition whose path has a segment that begins with a slash is not below the
directory of the output. -/
theorem not_confined_rootedDefinition :
    ∃ files, (generate none {} programName rootedDefinition).outcome.2 = .ok files ∧
      (∃ file ∈ files, file.path = ⟨"/", ["etc.py"]⟩ ∧
        ¬((⟨"/", ["out"]⟩ : Path) ++ file.path).IsBelow ⟨"/", ["out"]⟩) ∧
      ¬Confined none {} programName rootedDefinition files := by
  have hfree : ModuleTree.ConflictFree (Config.placements {} rootedDefinition) := by decide +kernel
  obtain ⟨files, hfiles⟩ := exists_generate_of_conflictFree programName hfree
  have hplacement : ("x./etc", ["x", "/etc"]) ∈ Config.placements {} rootedDefinition := by
    decide +kernel
  obtain ⟨file, hfile, hpath⟩ := exists_file_of_placement hfiles hplacement
  have hwritten : writtenPath .python ["x", "/etc"] = ⟨"/", ["etc.py"]⟩ := by decide +kernel
  have hrooted : file.path = ⟨"/", ["etc.py"]⟩ := hpath.trans hwritten
  refine ⟨files, hfiles, ⟨file, hfile, hrooted, ?_⟩, ?_⟩
  · rintro ⟨parts, hparts, -⟩
    rw [hrooted, Path.append_of_isAbsolute rfl] at hparts
    simp at hparts
  · intro hconfined
    have hrelative := hconfined.relative file hfile
    rw [hrooted] at hrelative
    cases hrelative

end Output

end SchemaModules
