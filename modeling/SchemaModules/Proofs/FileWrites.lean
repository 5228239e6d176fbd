import Mathlib.Data.List.Nodup
import Mathlib.Data.List.Perm.Subperm
import SchemaModules.Files.AtomicWrite
import SchemaModules.Proofs.FileTrees
import SchemaModules.Proofs.FreshNames

/-!
# Writing one file

A write that succeeds sets one entry beside the directories that it made, and one that fails sets
none. Of the temporary file nothing is left in either case, for its name is one that nothing had.
-/

namespace SchemaModules.Files

variable {tree start : FileTree} {path : Path} {rules : WriteRules} {leaf root content : String}
  {place source above : List String} {later : List FileTree}

namespace FileTree

/-! ## Temporary names -/

def temporaryText (name : String) (number : Nat) : String :=
  "." ++ name ++ "." ++ toString number ++ ".tmp"

theorem temporaryText_injective (name : String) : Function.Injective (temporaryText name) := by
  intro first second h
  exact Python.numbered_injective ("." ++ name ++ ".") ((String.append_left_inj ".tmp").mp h)

theorem length_lt_length_temporaryText (name : String) (number : Nat) :
    name.length + 5 < (temporaryText name number).length := by
  have hend : ".tmp".length = 4 := by decide
  have hpoint : ".".length = 1 := by decide
  simp only [temporaryText, String.length_append, hend, hpoint]
  omega

theorem temporaryText_ne (name : String) (number : Nat) : temporaryText name number ≠ ".." := by
  intro h
  have hlength := length_lt_length_temporaryText name number
  rw [h, show "..".length = 2 by decide] at hlength
  omega

theorem temporaryText_ne_self (name : String) (number : Nat) :
    temporaryText name number ≠ name := by
  intro h
  have hlength := length_lt_length_temporaryText name number
  rw [h] at hlength
  omega

/-- A path exists in a directory if the directory has an entry of that name. -/
theorem HasDirectory.pathExists_concat (h : HasDirectory tree ⟨root, above⟩) (hleaf : leaf ≠ "..") :
    tree.pathExists ⟨root, above ++ [leaf]⟩ ↔
      (tree.get? (Path.place ⟨root, above⟩ ++ [leaf])).isSome := by
  rw [pathExists, stat, h.locate_concat hleaf]
  cases hentry : tree.get? (Path.place ⟨root, above⟩ ++ [leaf]) with
  | none => simp [bind, Except.bind, hentry, throw, throwThe, MonadExceptOf.throw, Except.toBool]
  | some entry => simp [bind, Except.bind, hentry, pure, Except.pure, Except.toBool]

/-- The path of a temporary name beside `path`. -/
def temporaryPath (path : Path) (number : Nat) : Path :=
  ⟨path.root, path.parts.dropLast ++ [temporaryText path.name number]⟩

/-- The temporary name is numbered with the first number that gives no path of the tree. -/
theorem temporaryName_eq (tree : FileTree) (path : Path) : tree.temporaryName path =
    match (List.range (tree.entries.length + 1)).find? fun number ↦
      !tree.pathExists (temporaryPath path number) with
    | some number => temporaryPath path number
    | none => temporaryPath path (tree.entries.length + 1) := rfl

/-- The place of a file is not that of its temporary file. -/
theorem place_ne_temporary (path : Path) (number : Nat) :
    path.place ≠ path.parent.place ++ [temporaryText path.name number] := by
  rcases path.parts_eq_nil_or_concat with hparts | ⟨above, hparts, hparent⟩
  · simp [Path.place, hparts, Path.walk]
  · rw [hparent, Path.place, hparts]
    by_cases hname : path.name = ".."
    · -- The way back leads above the directory that holds the temporary file.
      rw [Path.walk_append, hname, Path.walk, if_pos rfl, Path.walk]
      intro h
      have hlength := congrArg List.length h
      simp only [List.length_dropLast, List.length_append, List.length_singleton] at hlength
      simp only [Path.place] at hlength
      omega
    · rw [Path.walk_concat hname]
      simpa [Path.place] using (temporaryText_ne_self path.name number).symm

/-- Nothing in the tree has the temporary name. -/
theorem exists_temporaryName_eq (h : HasDirectory tree path.parent) :
    ∃ number, tree.temporaryName path = temporaryPath path number ∧
      tree.get? (path.parent.place ++ [temporaryText path.name number]) = none := by
  let taken (number : Nat) : Bool := tree.pathExists (temporaryPath path number)
  have htaken (number : Nat) : taken number ↔
      (tree.get? (path.parent.place ++ [temporaryText path.name number])).isSome :=
    h.pathExists_concat (temporaryText_ne path.name number)
  have hname := temporaryName_eq tree path
  cases hfind : (List.range (tree.entries.length + 1)).find? fun number ↦ !taken number with
  | some number =>
    rw [hfind] at hname
    refine ⟨number, hname, ?_⟩
    rw [← Option.not_isSome_iff_eq_none, ← htaken]
    simpa using List.find?_some hfind
  | none =>
    -- More names would be taken than there are entries.
    let candidates := (List.range (tree.entries.length + 1)).map fun number ↦
      path.parent.place ++ [temporaryText path.name number]
    have hnodup : candidates.Nodup := by
      refine List.Nodup.map (fun first second hsame ↦ temporaryText_injective path.name ?_)
        List.nodup_range
      simpa using hsame
    have hsubset : candidates ⊆ tree.entries.map Prod.fst := by
      intro candidate hcandidate
      obtain ⟨number, hnumber, rfl⟩ := List.mem_map.mp hcandidate
      have hused := List.find?_eq_none.mp hfind number hnumber
      exact mem_map_entries (by simp) ((htaken number).mp (by simpa using hused))
    have hlength := (List.subperm_of_subset hnodup hsubset).length_le
    simp only [candidates, List.length_map, List.length_range] at hlength
    omega

end FileTree

/-! ## Attempts and writes -/

/-- An attempt to put a content at a place, which fails if and only if a directory is there, and
then changes nothing. -/
structure Puts (tree : FileTree) (place : List String) (content : String) (attempt : Attempt) :
    Prop where
  ok_iff : attempt.outcome = .ok () ↔ tree.get? place ≠ some .directory
  of_ok : attempt.outcome = .ok () → tree.Stores place (.text content) attempt.final
  of_error : ∀ fault, attempt.outcome = .error fault →
    ∀ other, attempt.final.get? other = tree.get? other

/-- A refusal that leaves all entries as they are. -/
theorem puts_refuse (hplace : tree.get? place = some .directory)
    (hlast : ∀ other, (start.last later).get? other = tree.get? other) (cause : FileCause)
    (path : Path) : Puts tree place content (refuse start later cause path) where
  ok_iff := by simp [refuse, hplace]
  of_ok := nofun
  of_error _ _ := hlast

theorem puts_of_stores {last : FileTree} (h : tree.Stores place (.text content) last)
    (start : FileTree) (later : List FileTree) :
    Puts tree place content ⟨start, later ++ [last], .ok ()⟩ where
  ok_iff := by simp [h.no_directory]
  of_ok _ := by rwa [Attempt.final, FileTree.last_concat]
  of_error := nofun

/-- Tree by tree, a file that was begun is filled. -/
theorem stores_portionSteps {begun : FileTree} {first : Content}
    (hbegun : tree.Stores place first begun) (hlocate : begun.locate path = .ok place)
    (portions : List Content) :
    (∀ state ∈ begun :: portionSteps begun path portions,
      ∃ stored, tree.Stores place stored state) ∧
    ∃ stored, tree.Stores place stored (begun.last (portionSteps begun path portions)) ∧
      (begun.last (portionSteps begun path portions)).locate path = .ok place := by
  induction portions generalizing begun first with
  | nil => exact ⟨by simpa [portionSteps] using ⟨first, hbegun⟩, first, hbegun, hlocate⟩
  | cons portion rest ih =>
    obtain ⟨next, hwrite, hnext, hlocated⟩ :=
      FileTree.exists_writeFile_eq_ok hlocate (by simp [hbegun.get?_eq]) portion
    obtain ⟨hsteps, hlast⟩ := ih (hbegun.trans hnext) hlocated
    simp only [portionSteps, hwrite, FileTree.last_cons]
    exact ⟨List.forall_mem_cons.mpr ⟨⟨first, hbegun⟩, hsteps⟩, hlast⟩

/-- The file is then written completely. -/
theorem exists_writeFile_last_eq_ok {begun : FileTree} {first : Content}
    (hbegun : tree.Stores place first begun) (hlocate : begun.locate path = .ok place)
    (portions : List Content) (content : Content) :
    ∃ filled, (begun.last (portionSteps begun path portions)).writeFile path content = .ok filled ∧
      tree.Stores place content filled ∧ filled.locate path = .ok place := by
  obtain ⟨-, stored, hlast, hlocated⟩ := stores_portionSteps hbegun hlocate portions
  obtain ⟨filled, hfill, hfilled, hfinal⟩ :=
    FileTree.exists_writeFile_eq_ok hlocated (by simp [hlast.get?_eq]) content
  exact ⟨filled, hfill, hlast.trans hfilled, hfinal⟩

theorem puts_fillInPlace (hlocate : tree.locate path = .ok place)
    (hlater : start.last later = tree) (rules : WriteRules) (content : String) :
    Puts tree place content (fillInPlace rules start later tree path content) := by
  rw [fillInPlace]
  by_cases hplace : tree.get? place = some .directory
  · rw [FileTree.writeFile_eq_error hlocate hplace]
    exact puts_refuse hplace (fun _ ↦ by rw [hlater]) _ path
  · obtain ⟨truncated, htruncate, hfirst, hlocated⟩ :=
      FileTree.exists_writeFile_eq_ok hlocate hplace (.text "")
    obtain ⟨filled, hfill, hfilled, -⟩ :=
      exists_writeFile_last_eq_ok hfirst hlocated (rules.portions content) (.text content)
    simp only [htruncate, FileTree.last_cons, hfill]
    exact puts_of_stores hfilled start _

/-- Moving a file away from a place where there was nothing before. -/
theorem stores_remove {filled stored : FileTree} {moved : Content}
    (hsource : tree.Stores source moved filled) (hfresh : tree.get? source = none)
    (hdiffer : place ≠ source) (hstores : filled.Stores place moved stored) :
    tree.Stores place moved (stored.remove source) := by
  have hne : source ≠ [] := by
    rintro rfl
    cases hfresh
  have hplace : filled.get? place = tree.get? place := by rw [hsource.get?_eq, if_neg hdiffer]
  refine ⟨hplace ▸ hstores.no_directory, fun other ↦ ?_⟩
  rw [FileTree.get?_remove hne, hstores.get?_eq, hsource.get?_eq]
  by_cases hother : other = source
  · rw [if_pos hother, if_neg (by rw [hother]; exact hdiffer.symm), hother, hfresh]
  · simp [hother]

/-- The temporary file is all that a failure has to take away. -/
theorem get?_removeFile_of_stores {filled : FileTree} {moved : Content}
    (hsource : tree.Stores source moved filled) (hfresh : tree.get? source = none)
    (hlocate : filled.locate path = .ok source) (other : List String) :
    (filled.removeFile path).get? other = tree.get? other := by
  have hne : source ≠ [] := by
    rintro rfl
    cases hfresh
  rw [FileTree.removeFile, hlocate, FileTree.get?_remove hne, hsource.get?_eq]
  by_cases hother : other = source
  · rw [if_pos hother, hother, hfresh]
  · simp [hother]

/-- A file that is moved replaces a file, unless a directory or the step back is in its way. -/
theorem replace_cases {filled : FileTree} {temporary : Path} {moved : Content}
    (hlocate : filled.locate temporary = .ok source)
    (hmoved : filled.get? source = some (.file moved)) (hparent : filled.HasDirectory path.parent) :
    (∃ cause, filled.replace temporary path = .error cause ∧
      (path.name = ".." ∨ filled.get? path.place = some .directory)) ∨
    ∃ stored, filled.replace temporary path = .ok (stored.remove source) ∧ path.name ≠ ".." ∧
      filled.Stores path.place moved stored := by
  by_cases hname : path.name = ".."
  · refine .inl ⟨.busy, ?_, .inl hname⟩
    rw [FileTree.replace, if_pos hname]
    rfl
  · have hplace := hparent.locate_eq_place hname
    have hreplace : filled.replace temporary path =
        (filled.writeFile path moved).map fun stored ↦ stored.remove source := by
      rw [FileTree.replace, if_neg hname]
      simp only [hlocate, hmoved, bind, Except.bind, pure, Except.pure]
      cases filled.writeFile path moved <;> rfl
    by_cases hdirectory : filled.get? path.place = some .directory
    · refine .inl ⟨.isADirectory, ?_, .inr hdirectory⟩
      rw [hreplace, FileTree.writeFile_eq_error hplace hdirectory]
      rfl
    · obtain ⟨stored, hstore, hstores, -⟩ :=
        FileTree.exists_writeFile_eq_ok hplace hdirectory moved
      refine .inr ⟨stored, ?_, hname, hstores⟩
      rw [hreplace, hstore]
      rfl

/-- How the move of a content into its place ends: before the temporary file was there, with the
temporary file taken away again, or with the content in its place. In every tree on the way there is
one file more than before, the temporary one. -/
inductive Moves (rules : WriteRules) (start : FileTree) (later : List FileTree) (tree : FileTree)
    (path : Path) (content : String) (source : List String) : Attempt → Prop
  | refused (cause : FileCause) (hrefused : rules.refusals ≠ Refusals.none) :
    Moves rules start later tree path content source (refuse start later cause path)
  | undone (steps : List FileTree) (last : FileTree) (cause : FileCause)
    (hsteps : ∀ state ∈ steps, ∃ stored, tree.Stores source stored state)
    (hlast : ∀ other, last.get? other = tree.get? other)
    (hblocked : rules.refusals ≠ Refusals.none ∨ path.name = ".." ∨
      tree.get? path.place = some .directory) :
    Moves rules start later tree path content source
      (refuse start (later ++ steps ++ [last]) cause path)
  | done (steps : List FileTree) (last : FileTree)
    (hsteps : ∀ state ∈ steps, ∃ stored, tree.Stores source stored state)
    (hname : path.name ≠ "..") (hlast : tree.Stores path.place (.text content) last) :
    Moves rules start later tree path content source ⟨start, later ++ steps ++ [last], .ok ()⟩

theorem refusals_ne_none {stage : Stage} {cause : FileCause}
    (h : FileTree.allow (rules.refusals stage) (.ok tree) = .error cause) :
    rules.refusals ≠ Refusals.none := by
  intro hnone
  rw [hnone] at h
  cases h

theorem moves_moveTemporary {filled : FileTree} {steps : List FileTree} {temporary : Path}
    (hparent : tree.HasDirectory path.parent) (hfresh : tree.get? source = none)
    (hdiffer : path.place ≠ source) (hfilled : tree.Stores source (.text content) filled)
    (hlocate : filled.locate temporary = .ok source)
    (hsteps : ∀ state ∈ steps, ∃ stored, tree.Stores source stored state) (rules : WriteRules)
    (start : FileTree) (later : List FileTree) :
    Moves rules start later tree path content source
      (moveTemporary rules start (later ++ steps) filled temporary path) := by
  have hremoved := get?_removeFile_of_stores hfilled hfresh hlocate
  have hplace : filled.get? path.place = tree.get? path.place := by
    rw [hfilled.get?_eq, if_neg hdiffer]
  rw [moveTemporary]
  rcases replace_cases hlocate (by rw [hfilled.get?_eq, if_pos rfl])
    (hparent.mono hfilled.keepsDirectories) with
    ⟨cause, hreplace, hblocked⟩ | ⟨stored, hreplace, hname, hstored⟩
  · rw [hplace] at hblocked
    rw [hreplace]
    exact .undone steps _ cause hsteps hremoved (.inr hblocked)
  · rw [hreplace]
    cases hreplacing : FileTree.allow (rules.refusals .replaceTarget)
      (.ok (stored.remove source)) with
    | error cause =>
      exact .undone steps _ cause hsteps hremoved (.inl (refusals_ne_none hreplacing))
    | ok made =>
      obtain rfl := Except.ok.inj (FileTree.eq_ok_of_allow_eq_ok hreplacing)
      exact .done steps _ hsteps hname (stores_remove hfilled hfresh hdiffer hstored)

theorem moves_moveIntoPlace (hparent : tree.HasDirectory path.parent) (rules : WriteRules)
    (start : FileTree) (later : List FileTree) (content : String) :
    ∃ source, tree.get? source = none ∧ path.place ≠ source ∧
      Moves rules start later tree path content source
        (moveIntoPlace rules start later tree path content) := by
  obtain ⟨number, hname, hfresh⟩ := FileTree.exists_temporaryName_eq hparent
  have hdiffer := FileTree.place_ne_temporary path number
  have hlocate : tree.locate (FileTree.temporaryPath path number) =
      .ok (path.parent.place ++ [FileTree.temporaryText path.name number]) :=
    hparent.locate_concat (FileTree.temporaryText_ne path.name number)
  refine ⟨_, hfresh, hdiffer, ?_⟩
  rw [moveIntoPlace, hname]
  generalize path.parent.place ++ [FileTree.temporaryText path.name number] = source at *
  generalize FileTree.temporaryPath path number = temporary at *
  obtain ⟨created, hcreate, hfirst, hlocated⟩ :=
    FileTree.exists_writeFile_eq_ok hlocate (by simp [hfresh]) (.text "")
  rw [hcreate]
  cases hcreation : FileTree.allow (rules.refusals .createTemporary) (.ok created) with
  | error cause => exact .refused cause (refusals_ne_none hcreation)
  | ok made =>
    obtain rfl := Except.ok.inj (FileTree.eq_ok_of_allow_eq_ok hcreation)
    obtain ⟨hbegun, stored, hstored, hstoredPlace⟩ :=
      stores_portionSteps hfirst hlocated (rules.portions content)
    obtain ⟨filled, hfill, hfilled, hfilledPlace⟩ :=
      exists_writeFile_last_eq_ok hfirst hlocated (rules.portions content) (.text content)
    simp only [FileTree.last_cons, hfill]
    cases hfilling : FileTree.allow (rules.refusals .fillTemporary) (.ok filled) with
    | error cause =>
      exact .undone _ _ cause hbegun (get?_removeFile_of_stores hstored hfresh hstoredPlace)
        (.inl (refusals_ne_none hfilling))
    | ok made =>
      obtain rfl := Except.ok.inj (FileTree.eq_ok_of_allow_eq_ok hfilling)
      refine moves_moveTemporary hparent hfresh hdiffer hfilled hfilledPlace ?_ rules start later
      intro state hstate
      rcases List.mem_append.mp hstate with hstate | hstate
      · exact hbegun state hstate
      · exact List.mem_singleton.mp hstate ▸ ⟨_, hfilled⟩

theorem Moves.puts {attempt : Attempt}
    (h : Moves rules start later tree path content source attempt)
    (hrules : rules.refusals = Refusals.none) (hname : path.name ≠ "..") :
    Puts tree path.place content attempt := by
  cases h with
  | refused cause hrefused => exact absurd hrules hrefused
  | undone steps last cause hsteps hlast hblocked =>
    have hplace : tree.get? path.place = some .directory :=
      (hblocked.resolve_left (absurd hrules)).resolve_left hname
    exact puts_refuse hplace (fun other ↦ by rw [FileTree.last_concat, hlast]) cause path
  | done steps last hsteps hname hlast => exact puts_of_stores hlast start _

/-- What a write does to a tree: it makes directories, and if it succeeds it stores the content in
the last of them. -/
structure Writes (start : FileTree) (path : Path) (content : String) (attempt : Attempt) :
    Prop where
  connected : attempt.final.Connected
  of_error : ∀ fault, attempt.outcome = .error fault → start.Extends attempt.final
  of_ok : attempt.outcome = .ok () → ∃ made, start.Extends made ∧
    made.HasDirectory path.parent ∧ made.Stores path.place (.text content) attempt.final

theorem Puts.writes {made : FileTree} {attempt : Attempt}
    (h : Puts made path.place content attempt) (hextends : start.Extends made)
    (hconnected : made.Connected) (hparent : made.HasDirectory path.parent)
    (hname : path.name ≠ "..") : Writes start path content attempt := by
  refine ⟨?_, ?_, fun houtcome ↦ ⟨made, hextends, hparent, h.of_ok houtcome⟩⟩
  · cases houtcome : attempt.outcome with
    | error fault => exact hconnected.congr (h.of_error fault houtcome)
    | ok result =>
      exact (h.of_ok houtcome).connected hconnected
        (hconnected.get?_dropLast_of_follow (FileTree.get?_nil made)
          (hparent.locate_eq_place hname))
  · intro fault houtcome other
    rw [h.of_error fault houtcome]
    exact hextends other

/-- A write that stops at the directories that it made. -/
theorem writes_of_error (hextends : start.Extends (start.last later))
    (hconnected : (start.last later).Connected) (path : Path) (content : String) (fault : Fault) :
    Writes start path content ⟨start, later, .error fault⟩ :=
  ⟨hconnected, fun _ _ ↦ hextends, nofun⟩

theorem puts_in_directory (hrules : rules.refusals = Refusals.none)
    (hparent : tree.HasDirectory path.parent) (hname : path.name ≠ "..")
    (hlater : start.last later = tree) (content : String) :
    Puts tree path.place content
      (if rules.atomic then moveIntoPlace rules start later tree path content
        else fillInPlace rules start later tree path content) := by
  split
  · obtain ⟨source, -, -, hmoves⟩ := moves_moveIntoPlace hparent rules start later content
    exact hmoves.puts hrules hname
  · exact puts_fillInPlace (hparent.locate_eq_place hname) hlater rules content

theorem writes_write (hrules : rules.refusals = Refusals.none) (hconnected : start.Connected)
    (hleaf : leaf ≠ "..") (root : String) (above : List String) (content : String) :
    Writes start ⟨root, above ++ [leaf]⟩ content
      (write rules start ⟨root, above ++ [leaf]⟩ content) := by
  have hname : Path.name ⟨root, above ++ [leaf]⟩ ≠ ".." := by simpa [Path.name] using hleaf
  generalize (⟨root, above ++ [leaf]⟩ : Path) = path at *
  have hmakes := FileTree.makesDirectories_directorySteps
    (fun directory ↦ rules.refusals (.makeDirectory directory)) start path.parent
  rw [write]
  rcases hrun : start.directorySteps (fun directory ↦ rules.refusals (.makeDirectory directory))
    path.parent with ⟨steps, failure | ⟨⟩⟩
  · rw [hrun] at hmakes
    exact writes_of_error hmakes.last_extends (hmakes.connected hconnected) path content _
  · rw [hrun] at hmakes
    dsimp only
    cases rules.accepts path content with
    | error fault =>
      exact writes_of_error hmakes.last_extends (hmakes.connected hconnected) path content fault
    | ok accepted =>
      exact (puts_in_directory hrules (hmakes.of_ok rfl) hname rfl content).writes
        hmakes.last_extends (hmakes.connected hconnected) (hmakes.of_ok rfl) hname

/-- What was written was accepted. -/
theorem accepts_of_write_eq_ok (h : (write rules start path content).outcome = .ok ()) :
    rules.accepts path content = .ok () := by
  rw [write] at h
  split at h
  · cases h
  · cases haccepts : rules.accepts path content with
    | ok accepted => rfl
    | error fault => simp [haccepts] at h

/-- Where the directory is there and no directory is in the way, nothing but the file changes. -/
theorem write_in_directory (hrules : rules.refusals = Refusals.none)
    (hparent : start.HasDirectory ⟨root, above⟩) (hleaf : leaf ≠ "..")
    (hplace : start.get? (Path.place ⟨root, above⟩ ++ [leaf]) ≠ some .directory)
    (haccepts : rules.accepts ⟨root, above ++ [leaf]⟩ content = .ok ()) :
    (write rules start ⟨root, above ++ [leaf]⟩ content).outcome = .ok () ∧
      start.Stores (Path.place ⟨root, above⟩ ++ [leaf]) (.text content)
        (write rules start ⟨root, above ++ [leaf]⟩ content).final := by
  have hname : Path.name ⟨root, above ++ [leaf]⟩ ≠ ".." := by simpa [Path.name] using hleaf
  have hparentPath : Path.parent ⟨root, above ++ [leaf]⟩ = ⟨root, above⟩ := by simp [Path.parent]
  have hpath : Path.place ⟨root, above ++ [leaf]⟩ = Path.place ⟨root, above⟩ ++ [leaf] :=
    Path.walk_concat hleaf [] above
  rw [← hparentPath] at hparent
  have hputs := puts_in_directory hrules hparent hname (FileTree.last_nil start) content
  have hwrite : write rules start ⟨root, above ++ [leaf]⟩ content =
      if rules.atomic then moveIntoPlace rules start [] start ⟨root, above ++ [leaf]⟩ content
      else fillInPlace rules start [] start ⟨root, above ++ [leaf]⟩ content := by
    rw [write, FileTree.directorySteps_of_hasDirectory hparent]
    simp only [haccepts, FileTree.last_nil]
  rw [hwrite, ← hpath]
  have hok := hputs.ok_iff.mpr (hpath ▸ hplace)
  exact ⟨hok, hputs.of_ok hok⟩

end SchemaModules.Files
