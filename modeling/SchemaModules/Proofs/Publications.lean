import SchemaModules.Proofs.FileWrites
import SchemaModules.Proofs.OutputConfinement

/-!
# Publications

Generated files are written one after the other until one of them cannot be written. Whatever
happens, a tree then holds the contents that it held before, overridden by those of the files that
were written. Unless files may be replaced, no file that was there is changed, as long as the output
directory steps back from no directory that is missing.
-/

namespace SchemaModules

open Files

variable {α : Type} {tree : FileTree} {path top : Path} {here parts place : List String}

namespace Files.FileTree

/-- Every step back leads out of a directory that is there. -/
def StepsBack (tree : FileTree) (here : List String) : List String → Prop
  | [] => True
  | part :: rest =>
    if part = ".." then tree.get? here = some .directory ∧ StepsBack tree here.dropLast rest
    else StepsBack tree (here ++ [part]) rest

theorem stepsBack_append (rest : List String) : tree.StepsBack here (parts ++ rest) ↔
    tree.StepsBack here parts ∧ tree.StepsBack (Path.walk here parts) rest := by
  induction parts generalizing here with
  | nil => simp [StepsBack, Path.walk]
  | cons part parts ih =>
    rw [List.cons_append, StepsBack, StepsBack, Path.walk]
    split <;> simp [ih, and_assoc]

theorem stepsBack_of_notMem (h : ".." ∉ parts) : tree.StepsBack here parts := by
  induction parts generalizing here with
  | nil => trivial
  | cons part parts ih =>
    rw [List.mem_cons, not_or] at h
    rw [StepsBack, if_neg (Ne.symm h.1)]
    exact ih h.2

/-- A way that ends somewhere in the tree begins in a directory. -/
theorem Connected.get?_of_stepsBack (hconnected : tree.Connected)
    (hback : tree.StepsBack here parts)
    (hend : (tree.get? (Path.walk here parts)).isSome) (hparts : parts ≠ []) :
    tree.get? here = some .directory := by
  induction parts generalizing here with
  | nil => exact absurd rfl hparts
  | cons part rest ih =>
    rw [StepsBack] at hback
    rw [Path.walk] at hend
    split at hback
    · exact hback.1
    · next hdown =>
      rw [if_neg hdown] at hend
      by_cases hrest : rest = []
      · rw [hrest] at hend
        exact hconnected here part hend
      · exact hconnected here part (by simp [ih hback hend hrest])

/-- Without steps back from missing directories, every path to an entry gets there. -/
theorem Connected.follow_of_stepsBack (hconnected : tree.Connected)
    (hback : tree.StepsBack here parts) (hend : (tree.get? (Path.walk here parts)).isSome) :
    tree.follow here parts = .ok (Path.walk here parts) := by
  induction parts generalizing here with
  | nil => rfl
  | cons part rest ih =>
    rw [StepsBack] at hback
    rw [Path.walk] at hend ⊢
    rw [follow_cons_eq_ok_iff]
    split at hback
    · next hup =>
      rw [if_pos hup] at hend ⊢
      exact .inl ⟨hup, ih hback.2 hend⟩
    · next hdown =>
      rw [if_neg hdown] at hend ⊢
      by_cases hrest : rest = []
      · exact .inr (.inl ⟨hdown, hrest, by rw [hrest, Path.walk]⟩)
      · exact .inr (.inr ⟨hdown, hrest, hconnected.get?_of_stepsBack hback hend hrest,
          ih hback hend⟩)

theorem Connected.pathExists_of_stepsBack (hconnected : tree.Connected)
    (hback : tree.StepsBack [] path.parts) (hend : (tree.get? path.place).isSome) :
    tree.pathExists path := by
  have hlocate : tree.locate path = .ok path.place := hconnected.follow_of_stepsBack hback hend
  obtain ⟨entry, hentry⟩ := Option.isSome_iff_exists.mp hend
  rw [pathExists, stat, hlocate]
  simp [bind, Except.bind, hentry, pure, Except.pure, Except.toBool]

end Files.FileTree

/-! ## Writing in order -/

namespace Output

variable {targets : List (Path × String)} {writes : List (List String × α)}
  {contents : List String → Option α} {writeOne : FileTree → Path → String → Attempt}
  {rules : WriteRules} {reported : List Path}

/-- Values after writes in order: the last one at a place counts, and else what was there. -/
def overridden (contents : List String → Option α) (writes : List (List String × α))
    (place : List String) : Option α :=
  (writes.reverse.lookup place).or (contents place)

theorem overridden_cons (contents : List String → Option α) (place : List String) (value : α)
    (writes : List (List String × α)) : overridden contents ((place, value) :: writes) =
      overridden (fun other ↦ if other = place then some value else contents other) writes := by
  funext other
  rw [overridden, overridden, List.reverse_cons, List.lookup_append, Option.or_assoc,
    lookup_cons_eq_ite, List.lookup_nil]
  split <;> rfl

/-- A path that ends in a name. -/
def IsTarget (path : Path) : Prop := ∃ above leaf, path.parts = above ++ [leaf] ∧ leaf ≠ ".."

theorem locate_of_isTarget (h : IsTarget path) (hparent : tree.HasDirectory path.parent) :
    tree.locate path = .ok path.place := by
  obtain ⟨root, parts⟩ := path
  obtain ⟨above, leaf, rfl, hleaf⟩ := h
  rw [Path.parent, List.dropLast_concat] at hparent
  rw [hparent.locate_concat hleaf, Path.place, Path.place, Path.walk_concat hleaf]

theorem writes_write_of_isTarget (hrules : rules.refusals = Refusals.none)
    (hconnected : tree.Connected) (h : IsTarget path) (content : String) :
    Writes tree path content (write rules tree path content) := by
  obtain ⟨root, parts⟩ := path
  obtain ⟨above, leaf, rfl, hleaf⟩ := h
  exact writes_write hrules hconnected hleaf root above content

theorem writes_writeNew_of_isTarget (hrules : rules.refusals = Refusals.none)
    (hconnected : tree.Connected) (h : IsTarget path) (content : String) :
    Writes tree path content (writeNew rules tree path content) := by
  rw [writeNew]
  split
  · exact ⟨hconnected, fun _ _ ↦ FileTree.extends_refl tree, nofun⟩
  · exact writes_write_of_isTarget hrules hconnected h content

/-- The places that are written to, with what is written there. -/
def writesTo (targets : List (Path × String)) : List (List String × Content) :=
  targets.map fun target ↦ (target.1.place, .text target.2)

theorem writesTo_cons (target : Path × String) (targets : List (Path × String)) :
    writesTo (target :: targets) = (target.1.place, .text target.2) :: writesTo targets := rfl

/-- What a tree has become when some of the targets, from the first one on, were written. -/
structure WritesFirst (before after : FileTree) (targets : List (Path × String)) (count : Nat) :
    Prop where
  le_length : count ≤ targets.length
  content?_eq : ∀ place, after.content? place =
    overridden before.content? (writesTo (targets.take count)) place
  hasDirectory : ∀ target ∈ targets.take count, after.HasDirectory target.1.parent

/-- Writing in order ends with the contents of the targets that were written, which are all of them
if it succeeds. -/
theorem exists_writesFirst (hwrite : ∀ tree path content, FileTree.Connected tree → IsTarget path →
      Writes tree path content (writeOne tree path content))
    (htargets : ∀ target ∈ targets, IsTarget target.1) (hconnected : tree.Connected)
    (reported : List Path) :
    (writeAll writeOne tree reported targets).tree.Connected ∧
      tree.KeepsDirectories (writeAll writeOne tree reported targets).tree ∧
      ∃ count, WritesFirst tree (writeAll writeOne tree reported targets).tree targets count ∧
        ((writeAll writeOne tree reported targets).outcome = .ok () → count = targets.length) := by
  induction targets generalizing tree reported with
  | nil => exact ⟨hconnected, fun _ h ↦ h, 0, ⟨Nat.le_refl 0, fun _ ↦ rfl, by simp⟩, fun _ ↦ rfl⟩
  | cons target rest ih =>
    obtain ⟨htarget, hrest⟩ := List.forall_mem_cons.mp htargets
    obtain ⟨path, content⟩ := target
    have hone := hwrite tree path content hconnected htarget
    rw [writeAll]
    cases houtcome : (writeOne tree path content).outcome with
    | error fault =>
      have hextends := hone.of_error fault houtcome
      refine ⟨hone.connected, hextends.keepsDirectories, 0, ⟨Nat.zero_le _, ?_, by simp⟩, ?_⟩
      · exact hextends.content?_eq
      · intro hok
        cases hok
    | ok result =>
      obtain ⟨made, hextends, hparent, hstores⟩ := hone.of_ok houtcome
      obtain ⟨hafter, hkeeps, count, hfirst, hall⟩ := ih hrest hone.connected (reported ++ [path])
      have hfinal := hstores.keepsDirectories
      refine ⟨hafter, fun place h ↦ hkeeps _ (hfinal _ (hextends.keepsDirectories _ h)), count + 1,
        ⟨Nat.succ_le_succ hfirst.le_length, ?_, ?_⟩, fun h ↦ congrArg (· + 1) (hall h)⟩
      · intro place
        have hcontents : made.content? = tree.content? := funext hextends.content?_eq
        rw [hfirst.content?_eq, funext hstores.content?_eq, hcontents, List.take_succ_cons,
          writesTo_cons, overridden_cons]
      · rw [List.take_succ_cons]
        refine List.forall_mem_cons.mpr ⟨hparent.mono fun place h ↦ hkeeps _ (hfinal _ h), ?_⟩
        exact hfirst.hasDirectory

theorem accepts_of_writeAll_eq_ok
    (h : (writeAll (write rules) tree reported targets).outcome = .ok ()) :
    ∀ target ∈ targets, rules.accepts target.1 target.2 = .ok () := by
  induction targets generalizing tree reported with
  | nil => simp
  | cons target rest ih =>
    obtain ⟨path, content⟩ := target
    rw [writeAll] at h
    cases houtcome : (write rules tree path content).outcome with
    | error fault => simp [houtcome] at h
    | ok result =>
      simp only [houtcome] at h
      exact List.forall_mem_cons.mpr ⟨accepts_of_write_eq_ok houtcome, ih h⟩

/-- Where all directories are there and none is in the way, all targets are written and nothing else
changes. -/
theorem writeAll_in_directories (hrules : rules.refusals = Refusals.none)
    (htargets : ∀ target ∈ targets, IsTarget target.1 ∧ tree.HasDirectory target.1.parent ∧
      tree.get? target.1.place ≠ some .directory ∧ rules.accepts target.1 target.2 = .ok ())
    (reported : List Path) :
    (writeAll (write rules) tree reported targets).outcome = .ok () ∧
      ∀ place, (writeAll (write rules) tree reported targets).tree.get? place =
        overridden tree.get? ((writesTo targets).map fun write ↦ (write.1, .file write.2))
          place := by
  induction targets generalizing tree reported with
  | nil => exact ⟨rfl, fun _ ↦ rfl⟩
  | cons target rest ih =>
    obtain ⟨⟨htarget, hparent, hplace, haccepts⟩, hrest⟩ := List.forall_mem_cons.mp htargets
    obtain ⟨⟨root, parts⟩, content⟩ := target
    obtain ⟨above, leaf, rfl, hleaf⟩ := htarget
    have hwalk : Path.place ⟨root, above ++ [leaf]⟩ = Path.place ⟨root, above⟩ ++ [leaf] :=
      Path.walk_concat hleaf [] above
    rw [Path.parent, List.dropLast_concat] at hparent
    rw [hwalk] at hplace
    obtain ⟨houtcome, hstores⟩ := write_in_directory hrules hparent hleaf hplace haccepts
    rw [← hwalk] at hstores
    rw [writeAll, houtcome]
    generalize (write rules tree _ _).final = final at hstores ⊢
    have hothers : ∀ target ∈ rest, IsTarget target.1 ∧ final.HasDirectory target.1.parent ∧
        final.get? target.1.place ≠ some .directory ∧
          rules.accepts target.1 target.2 = .ok () := by
      intro target hmem
      obtain ⟨hname, hdirectory, hentry, hcheck⟩ := hrest target hmem
      refine ⟨hname, hdirectory.mono hstores.keepsDirectories, ?_, hcheck⟩
      rw [hstores.get?_eq]
      split
      · simp
      · exact hentry
    obtain ⟨hall, hget⟩ := ih hothers (reported ++ [⟨root, above ++ [leaf]⟩])
    refine ⟨hall, fun place ↦ ?_⟩
    rw [hget, funext hstores.get?_eq, writesTo_cons, List.map_cons, overridden_cons]

variable {formatter : Option Formatter} {config : Config} {commandLine : String}
  {definitions : List (String × Json)} {files : List GeneratedFile} {language : Language}
  {settings : OutputSettings} {check : Check}

theorem parts_ofText_ne_nil {text : String} {c : Char} (hmem : c ∈ text.toList) (hslash : c ≠ '/')
    (hdot : c ≠ '.') : (Path.ofText text).parts ≠ [] := by
  obtain ⟨part, hpart, hc⟩ := exists_mem_splitAt hmem hslash
  refine List.ne_nil_of_mem (a := String.ofList part) ?_
  refine List.mem_filter.mpr ⟨List.mem_map_of_mem hpart, ?_⟩
  rw [Bool.and_eq_true, bne_iff_ne, bne_iff_ne]
  constructor
  · rintro h
    have hchars := congrArg String.toList h
    simp only [String.toList_ofList] at hchars
    simp [hchars] at hc
  · rintro h
    have hchars := congrArg String.toList h
    simp only [String.toList_ofList] at hchars
    rw [hchars] at hc
    exact hdot (by simpa using hc)

/-- The path of a module has a part for its file. -/
theorem parts_writtenPath_ne_nil {path : List String} (hne : path ≠ []) :
    (writtenPath language path).parts ≠ [] := by
  obtain ⟨above, leaf, rfl⟩ := (List.eq_nil_or_concat' path).resolve_left hne
  have hleaf : (Path.ofText (fileName language leaf)).parts ≠ [] := by
    cases language with
    | python =>
      exact parts_ofText_ne_nil (c := 'y') (by simp [fileName, Language.fileExtension]) (by decide)
        (by decide)
    | typescript =>
      exact parts_ofText_ne_nil (c := 's') (by simp [fileName, Language.fileExtension]) (by decide)
        (by decide)
  rw [writtenPath_concat, Path.ofTexts_concat]
  cases habsolute : (Path.ofText (fileName language leaf)).isAbsolute with
  | true => rwa [Path.append_of_isAbsolute habsolute]
  | false => simp [Path.append_of_relative habsolute, hleaf]

/-- Generated files lead to a name and never upwards. -/
theorem descends_of_generate
    (h : (generate formatter config commandLine definitions).outcome.2 = .ok files) :
    ∀ file ∈ files, file.path.parts ≠ [] ∧ ".." ∉ file.path.parts := by
  intro file hfile
  obtain ⟨directories, hwritten⟩ := exists_writtenAt_of_generate h
  obtain ⟨path, hpath, hsame⟩ := hwritten.exists_path hfile
  have hne := ne_nil_of_mem_takenPaths hwritten.conflictFree hpath
  rw [hsame]
  exact ⟨parts_writtenPath_ne_nil hne, parent_notMem_writtenPath hne
    (hwritten.isSegment_of_mem (fun _ ↦ isSegment_of_mem_placements) path hpath)⟩

theorem isTarget_append (hparts : path.parts ≠ []) (hup : ".." ∉ path.parts) (top : Path) :
    IsTarget (top ++ path) := by
  obtain ⟨above, leaf, hsplit⟩ := (List.eq_nil_or_concat' path.parts).resolve_left hparts
  have hleaf : leaf ≠ ".." := by
    rintro rfl
    simp [hsplit] at hup
  cases habsolute : path.isAbsolute with
  | true => exact ⟨above, leaf, by rw [Path.append_of_isAbsolute habsolute, hsplit], hleaf⟩
  | false =>
    refine ⟨top.parts ++ above, leaf, ?_, hleaf⟩
    rw [Path.append_of_relative habsolute, hsplit, List.append_assoc]

theorem stepsBack_append_path (hup : ".." ∉ path.parts) (htop : tree.StepsBack [] top.parts) :
    tree.StepsBack [] (top ++ path).parts := by
  cases habsolute : path.isAbsolute with
  | true =>
    rw [Path.append_of_isAbsolute habsolute]
    exact FileTree.stepsBack_of_notMem hup
  | false =>
    rw [Path.append_of_relative habsolute]
    exact (FileTree.stepsBack_append _).mpr ⟨htop, FileTree.stepsBack_of_notMem hup⟩

/-! ## Publications -/

/-- Runs that write generated files below a directory, as they should: a tree ends up with the
contents of the files that were written, existing files are kept unless they may be replaced, and
replacing them once more changes nothing. -/
structure WritesSafely (mode : Option OutputMode) (files : List GeneratedFile) (top : Path)
    (tree : FileTree) (run : FileTree → Publication) : Prop where
  overrides : ∃ count ≤ files.length, ((run tree).outcome = .ok () → count = files.length) ∧
    (∀ file ∈ files.take count,
      (run tree).tree.locate (top ++ file.path) = .ok (top ++ file.path).place) ∧
    ∀ place, (run tree).tree.content? place = overridden tree.content?
      ((files.take count).map fun file ↦ ((top ++ file.path).place, .text file.content)) place
  refuses : mode = some .errorIfExists → (∃ file ∈ files, tree.pathExists (top ++ file.path)) →
    (∃ file ∈ files, tree.pathExists (top ++ file.path) ∧
      (run tree).outcome = .error (.targetExists (top ++ file.path).text)) ∧ (run tree).tree = tree
  keeps : mode = some .errorIfExists → ∀ place content, tree.content? place = some content →
    (run tree).tree.content? place = some content
  repeats : mode ≠ some .errorIfExists → (run tree).outcome = .ok () →
    (run (run tree).tree).outcome = .ok () ∧
      ∀ place, (run (run tree).tree).tree.get? place = (run tree).tree.get? place

/-- A run that fails before it writes anything is safe. -/
theorem writesSafely_of_error {mode : Option OutputMode} {run : FileTree → Publication}
    {fault : Fault} (hmode : mode ≠ some .errorIfExists)
    (houtcome : (run tree).outcome = .error fault) (htree : (run tree).tree = tree) :
    WritesSafely mode files top tree run where
  overrides := ⟨0, Nat.zero_le _, by simp [houtcome], by simp, fun place ↦ by rw [htree]; rfl⟩
  refuses h := absurd h hmode
  keeps h := absurd h hmode
  repeats _ h := by simp [houtcome] at h

theorem overridden_of_notMem (h : ∀ write ∈ writes, write.1 ≠ place) :
    overridden contents writes place = contents place := by
  rw [overridden, List.lookup_eq_none_iff.mpr, Option.none_or]
  intro write hwrite
  simpa using (h write (List.mem_reverse.mp hwrite)).symm

theorem exists_overridden_eq_some {value : α} (h : (place, value) ∈ writes)
    (contents : List String → Option α) :
    ∃ found, overridden contents writes place = some found := by
  have hplace : place ∈ writes.reverse.map Prod.fst :=
    List.mem_map.mpr ⟨_, List.mem_reverse.mpr h, rfl⟩
  obtain ⟨found, hfound⟩ := exists_lookup_eq_some hplace
  exact ⟨found, by rw [overridden, hfound, Option.some_or]⟩

/-- Files that hold the last contents written to them stay the same when all are written again. -/
theorem overridden_get?_eq {written : FileTree} {writes : List (List String × Content)}
    (hcontents : ∀ place, written.content? place = overridden tree.content? writes place)
    (place : List String) :
    overridden written.get? (writes.map fun write ↦ (write.1, .file write.2)) place =
      written.get? place := by
  have hlookup := lookup_map_filter (fun _ ↦ true) (fun _ ↦ Entry.file) place writes.reverse
  have hplace := hcontents place
  rw [List.filter_true, List.map_reverse] at hlookup
  rw [overridden, hlookup, if_pos rfl]
  rw [overridden] at hplace
  cases hlast : writes.reverse.lookup place with
  | none => rfl
  | some content =>
    rw [hlast, Option.some_or] at hplace
    exact (FileTree.content?_eq_some_iff.mp hplace).symm

/-- The targets of files below a directory. -/
def targetsOf (top : Path) (files : List GeneratedFile) : List (Path × String) :=
  files.map fun file ↦ (top ++ file.path, file.content)

theorem writesTo_targetsOf (top : Path) (files : List GeneratedFile) :
    writesTo (targetsOf top files) =
      files.map fun file ↦ ((top ++ file.path).place, .text file.content) := by
  rw [writesTo, targetsOf, List.map_map]
  rfl

theorem exists_overridden (hwrite : ∀ tree path content, FileTree.Connected tree → IsTarget path →
      Writes tree path content (writeOne tree path content))
    (hfiles : ∀ file ∈ files, file.path.parts ≠ [] ∧ ".." ∉ file.path.parts)
    (hconnected : tree.Connected) (top : Path) :
    ∃ count ≤ files.length,
      ((writeAll writeOne tree [] (targetsOf top files)).outcome = .ok () → count = files.length) ∧
      (∀ file ∈ files.take count,
        (writeAll writeOne tree [] (targetsOf top files)).tree.HasDirectory
          (top ++ file.path).parent) ∧
      ∀ place, (writeAll writeOne tree [] (targetsOf top files)).tree.content? place =
        overridden tree.content?
          ((files.take count).map fun file ↦ ((top ++ file.path).place, .text file.content))
          place := by
  have htargets : ∀ target ∈ targetsOf top files, IsTarget target.1 := by
    intro target htarget
    obtain ⟨file, hfile, rfl⟩ := List.mem_map.mp htarget
    exact isTarget_append (hfiles file hfile).1 (hfiles file hfile).2 top
  obtain ⟨-, -, count, hfirst, hall⟩ := exists_writesFirst hwrite htargets hconnected []
  have hlength : (targetsOf top files).length = files.length := List.length_map _
  have htake : (targetsOf top files).take count = targetsOf top (files.take count) :=
    List.map_take.symm
  refine ⟨count, hlength ▸ hfirst.le_length, fun h ↦ hlength ▸ hall h, ?_, ?_⟩
  · intro file hfile
    exact hfirst.hasDirectory (top ++ file.path, file.content)
      (htake ▸ List.mem_map_of_mem (f := fun file : GeneratedFile ↦ _) hfile)
  · intro place
    rw [hfirst.content?_eq, htake, writesTo_targetsOf]

/-- How the settings have files written. -/
def rulesOf (settings : OutputSettings) (check : Check) : WriteRules :=
  { check, checked := settings.validate.isTruthy, atomic := settings.atomic.isTruthy }

theorem publishFiles_of_force (hmode : settings.mode ≠ some .errorIfExists) (check : Check)
    (tree : FileTree) (top : Path) (files : List GeneratedFile) :
    publishFiles settings check tree top files =
      writeAll (write (rulesOf settings check)) tree [] (targetsOf top files) :=
  if_neg hmode

theorem publishFiles_of_exists (check : Check) (hmode : settings.mode = some .errorIfExists)
    {target : Path × String}
    (hfind : (targetsOf top files).find? (fun target ↦ tree.pathExists target.1) = some target) :
    publishFiles settings check tree top files =
      ⟨tree, [], .error (.targetExists target.1.text)⟩ := by
  rw [publishFiles]
  simp only [hmode, if_pos]
  rw [show (files.map fun file ↦ (top ++ file.path, file.content)).find? _ = some target from hfind]

theorem publishFiles_of_not_exists (check : Check) (hmode : settings.mode = some .errorIfExists)
    (hfind : (targetsOf top files).find? (fun target ↦ tree.pathExists target.1) = none) :
    publishFiles settings check tree top files =
      writeAll (writeNew (rulesOf settings check)) tree [] (targetsOf top files) := by
  rw [publishFiles]
  simp only [hmode, if_pos]
  rw [show (files.map fun file ↦ (top ++ file.path, file.content)).find? _ = none from hfind]
  rfl

/-- Where nothing that is there may be replaced, only new files are written. -/
theorem writesSafely_of_errorIfExists (hmode : settings.mode = some .errorIfExists)
    (hfiles : ∀ file ∈ files, file.path.parts ≠ [] ∧ ".." ∉ file.path.parts)
    (hconnected : tree.Connected) (hback : tree.StepsBack [] top.parts) (check : Check) :
    WritesSafely settings.mode files top tree
      fun tree ↦ publishFiles settings check tree top files := by
  cases hfind : (targetsOf top files).find? (fun target ↦ tree.pathExists target.1) with
  | some target =>
    have hrun := publishFiles_of_exists check hmode hfind
    obtain ⟨file, hfile, rfl⟩ := List.mem_map.mp (List.mem_of_find?_eq_some hfind)
    refine ⟨⟨0, Nat.zero_le _, ?_, by simp, fun place ↦ ?_⟩, ?_, ?_, fun h ↦ absurd hmode h⟩
    · simp [hrun]
    · rw [hrun]
      rfl
    · intro _ _
      rw [hrun]
      have hexists : tree.pathExists (top ++ file.path) := List.find?_some
        (p := fun target : Path × String ↦ tree.pathExists target.1) hfind
      exact ⟨⟨file, hfile, hexists, rfl⟩, rfl⟩
    · intro _ place content hcontent
      rwa [hrun]
  | none =>
    have hrun := publishFiles_of_not_exists check hmode hfind
    have hnew : ∀ file ∈ files, ¬tree.pathExists (top ++ file.path) := fun file hfile ↦
      List.find?_eq_none.mp hfind (top ++ file.path, file.content) (List.mem_map_of_mem hfile)
    have hwrite : ∀ tree path content, FileTree.Connected tree → IsTarget path →
        Writes tree path content (writeNew (rulesOf settings check) tree path content) :=
      fun tree path content hconnected htarget ↦
        writes_writeNew_of_isTarget rfl hconnected htarget content
    obtain ⟨count, hcount, hall, hparent, hcontents⟩ :=
      exists_overridden hwrite hfiles hconnected top
    refine ⟨⟨count, hcount, ?_, ?_, ?_⟩, ?_, ?_, fun h ↦ absurd hmode h⟩
    · rwa [hrun]
    · intro file hfile
      obtain ⟨hparts, hup⟩ := hfiles file (List.mem_of_mem_take hfile)
      rw [hrun]
      exact locate_of_isTarget (isTarget_append hparts hup top) (hparent file hfile)
    · rwa [hrun]
    · rintro _ ⟨file, hfile, hexists⟩
      exact absurd hexists (hnew file hfile)
    · intro _ place content hcontent
      rw [hrun, hcontents, overridden_of_notMem, hcontent]
      intro write hwrite hsame
      obtain ⟨file, hfile, rfl⟩ := List.mem_map.mp hwrite
      have hfile := List.mem_of_mem_take hfile
      refine hnew file hfile (hconnected.pathExists_of_stepsBack
        (stepsBack_append_path (hfiles file hfile).2 hback) ?_)
      rw [show (top ++ file.path).place = place from hsame,
        FileTree.content?_eq_some_iff.mp hcontent]
      rfl

/-- Files that may be replaced are all written again, with the same contents. -/
theorem writesSafely_of_force (hmode : settings.mode ≠ some .errorIfExists)
    (hfiles : ∀ file ∈ files, file.path.parts ≠ [] ∧ ".." ∉ file.path.parts)
    (hconnected : tree.Connected) (check : Check) :
    WritesSafely settings.mode files top tree
      fun tree ↦ publishFiles settings check tree top files := by
  have hrun (tree : FileTree) := publishFiles_of_force hmode check tree top files
  have hwrite : ∀ tree path content, FileTree.Connected tree → IsTarget path →
      Writes tree path content (write (rulesOf settings check) tree path content) :=
    fun tree path content hconnected htarget ↦
      writes_write_of_isTarget rfl hconnected htarget content
  obtain ⟨count, hcount, hall, hparent, hcontents⟩ := exists_overridden hwrite hfiles hconnected top
  refine ⟨⟨count, hcount, ?_, ?_, ?_⟩, fun h ↦ absurd h hmode, fun h ↦ absurd h hmode, ?_⟩
  · rwa [hrun]
  · intro file hfile
    obtain ⟨hparts, hup⟩ := hfiles file (List.mem_of_mem_take hfile)
    rw [hrun]
    exact locate_of_isTarget (isTarget_append hparts hup top) (hparent file hfile)
  · rwa [hrun]
  · intro _ houtcome
    simp only [hrun] at houtcome ⊢
    obtain rfl := hall houtcome
    have haccepts := accepts_of_writeAll_eq_ok houtcome
    rw [List.take_length] at hparent hcontents
    generalize (writeAll (write (rulesOf settings check)) tree [] (targetsOf top files)).tree =
      written at hparent hcontents ⊢
    have htargets : ∀ target ∈ targetsOf top files, IsTarget target.1 ∧
        written.HasDirectory target.1.parent ∧ written.get? target.1.place ≠ some .directory ∧
        (rulesOf settings check).accepts target.1 target.2 = .ok () := by
      intro target htarget
      obtain ⟨file, hfile, rfl⟩ := List.mem_map.mp htarget
      obtain ⟨hparts, hup⟩ := hfiles file hfile
      obtain ⟨content, hcontent⟩ := exists_overridden_eq_some
        (List.mem_map_of_mem (f := fun file : GeneratedFile ↦
          ((top ++ file.path).place, Content.text file.content)) hfile) tree.content?
      rw [← hcontents, FileTree.content?_eq_some_iff] at hcontent
      refine ⟨isTarget_append hparts hup top, hparent file hfile, ?_, haccepts _ htarget⟩
      simp [hcontent]
    obtain ⟨hagain, hget⟩ := writeAll_in_directories rfl htargets []
    refine ⟨hagain, fun place ↦ ?_⟩
    rw [hget, writesTo_targetsOf]
    exact overridden_get?_eq hcontents place

/-- What a configuration says about files that are there already. -/
def outputMode (config : Config) : Option OutputMode := config.output.bind OutputSettings.mode

theorem publish_eq (h : (generate formatter config commandLine definitions).outcome.2 = .ok files)
    (check : Check) (tree : FileTree) (top : Path) :
    (publish formatter config commandLine check definitions tree top).2 =
      match config.output with
      | none => ⟨tree, [], .error .missingPart⟩
      | some settings => publishFiles settings check tree top files := by
  unfold publish
  rcases houtcome : (generate formatter config commandLine definitions).outcome with
    ⟨events, result⟩
  rw [houtcome] at h
  obtain rfl : result = .ok files := h
  cases config.output <;> rfl

/-- Writing a tree overrides contents by those of the files that were written, in order. Existing
files stay as they are unless they may be replaced, if no step of the output directory leads back
from a directory that is missing; and if they may be, writing again changes nothing. -/
theorem writesSafely_publish
    (h : (generate formatter config commandLine definitions).outcome.2 = .ok files)
    (check : Check) (hconnected : tree.Connected) (hback : tree.StepsBack [] top.parts) :
    WritesSafely (outputMode config) files top tree
      fun tree ↦ (publish formatter config commandLine check definitions tree top).2 := by
  have hrun := funext fun tree ↦ publish_eq h check tree top
  have hfiles := descends_of_generate h
  rw [hrun]
  cases houtput : config.output with
  | none => exact writesSafely_of_error (by simp [outputMode, houtput]) rfl rfl
  | some settings =>
    have hsettings : outputMode config = settings.mode := by simp [outputMode, houtput]
    rw [hsettings]
    by_cases hmode : settings.mode = some .errorIfExists
    · exact writesSafely_of_errorIfExists hmode hfiles hconnected hback check
    · exact writesSafely_of_force hmode hfiles hconnected check

/-- A configuration that lets no file be replaced. -/
def keepingConfig : Config := { output := some { mode := some .errorIfExists } }

/-- The files for no definitions at all: the index of the root and the support modules. -/
def rootFiles : List GeneratedFile :=
  ⟨⟨"", ["__init__.py"]⟩, .index,
      renderIndex .python (generationComment keepingConfig programName) ⟨[], [], []⟩⟩ ::
    supportModules .python

theorem generate_nil : (generate none keepingConfig programName []).outcome.2 = .ok rootFiles := by
  have hindexes : ModuleTree.indexes [] = [⟨[], [], []⟩] := by
    rw [ModuleTree.indexes, ModuleTree.indexesBelow]
    rfl
  have hfile : indexFile .python [] = ⟨"", ["__init__.py"]⟩ := by decide +kernel
  rw [outcome_generate]
  refine bind_eq_ok_iff.mpr ⟨[], rfl, ?_⟩
  rw [assemble_eq, rootFiles, ← hfile]
  exact bind_eq_ok_iff.mpr ⟨[], rfl, bind_eq_ok_iff.mpr ⟨[], rfl,
    bind_eq_ok_iff.mpr ⟨_, by rw [hindexes]; rfl, rfl⟩⟩⟩

/-- A directory with a file in it. -/
def oldTree : FileTree := ⟨[(["old"], .directory), (["old", "__init__.py"], .file (.text "old"))]⟩

theorem writesSafely_oldTree : oldTree.Connected ∧ oldTree.StepsBack [] ["old", "..", "out"] ∧
    WritesSafely (outputMode keepingConfig) rootFiles ⟨"/", ["old", "..", "out"]⟩ oldTree
      fun tree ↦ (publish none keepingConfig programName (fun _ ↦ .ok ()) [] tree
        ⟨"/", ["old", "..", "out"]⟩).2 := by
  have hconnected : oldTree.Connected := FileTree.connected_of_entries (by decide)
  have hback : oldTree.StepsBack [] ["old", "..", "out"] := by
    simp [FileTree.StepsBack, oldTree, FileTree.get?]
  exact ⟨hconnected, hback, writesSafely_publish generate_nil _ hconnected hback⟩

/-- Stepping back from a directory that is missing finds no target at first, and replaces an
existing file as soon as the directory is made. -/
theorem not_writesSafely_missing : oldTree.Connected ∧
    ¬WritesSafely (outputMode keepingConfig) rootFiles ⟨"/", ["old", "new", ".."]⟩ oldTree
      fun tree ↦ (publish none keepingConfig programName (fun _ ↦ .ok ()) [] tree
        ⟨"/", ["old", "new", ".."]⟩).2 := by
  refine ⟨FileTree.connected_of_entries (by decide), fun h ↦ ?_⟩
  have hkept := h.keeps rfl ["old", "__init__.py"] (.text "old") (by decide)
  rw [publish_eq generate_nil] at hkept
  revert hkept
  decide +kernel

end Output

end SchemaModules
