import Mathlib.Data.List.Basic
import SchemaModules.Files.Tree
import SchemaModules.Proofs.FallibleSteps
import SchemaModules.Proofs.Lookup

/-!
# File trees

A file tree is looked at through the places at which it has entries. The place that a path leads to
follows from its parts alone; the directories of the tree decide whether the path gets there. Making
directories adds to a tree and changes nothing that was in it.
-/

namespace SchemaModules.Files

/-- The place that the parts of a path lead to, if nothing is in the way. -/
def Path.walk (here : List String) : List String → List String
  | [] => here
  | part :: rest => walk (if part = ".." then here.dropLast else here ++ [part]) rest

/-- The place of an absolute path. -/
def Path.place (path : Path) : List String := walk [] path.parts

variable {tree before after : FileTree} {path : Path} {entry : Entry} {part name leaf root : String}
  {here place other above parts : List String}

theorem Path.walk_append (here parts rest : List String) :
    walk here (parts ++ rest) = walk (walk here parts) rest := by
  induction parts generalizing here with
  | nil => rfl
  | cons part parts ih => exact ih _

/-- A path is a root alone, or it has a last part. -/
theorem Path.parts_eq_nil_or_concat (path : Path) :
    path.parts = [] ∨
      ∃ above, path.parts = above ++ [path.name] ∧ path.parent = ⟨path.root, above⟩ := by
  obtain ⟨root, parts⟩ := path
  rcases List.eq_nil_or_concat' parts with rfl | ⟨above, leaf, rfl⟩
  · exact .inl rfl
  · exact .inr ⟨above, by simp [name], by simp [parent]⟩

theorem Path.walk_concat (hleaf : leaf ≠ "..") (here above : List String) :
    walk here (above ++ [leaf]) = walk here above ++ [leaf] := by
  rw [walk_append, walk, walk, if_neg hleaf]

namespace FileTree

@[simp]
theorem get?_nil (tree : FileTree) : tree.get? [] = some .directory := rfl

theorem get?_of_ne_nil (hplace : place ≠ []) : tree.get? place = tree.entries.lookup place := by
  rw [get?, if_neg (by simpa using hplace)]

theorem lookup_setEntry (place : List String) (entry : Entry)
    (entries : List (List String × Entry)) (other : List String) :
    (setEntry place entry entries).lookup other =
      if other = place then some entry else entries.lookup other := by
  induction entries with
  | nil => rw [setEntry, lookup_cons_eq_ite]
  | cons first rest ih =>
    obtain ⟨key, value⟩ := first
    rw [setEntry]
    by_cases hkey : key = place
    · subst hkey
      rw [if_pos rfl, lookup_cons_eq_ite, lookup_cons_eq_ite]
      split <;> rfl
    · rw [if_neg hkey, lookup_cons_eq_ite, lookup_cons_eq_ite, ih]
      by_cases hother : other = key
      · have hplace : other ≠ place := fun h ↦ hkey (hother ▸ h)
        rw [if_pos hother, if_neg hplace, if_pos hother]
      · rw [if_neg hother, if_neg hother]

theorem get?_set (hplace : place ≠ []) (entry : Entry) (other : List String) :
    (tree.set place entry).get? other = if other = place then some entry else tree.get? other := by
  by_cases hother : other = []
  · rw [hother, get?_nil, get?_nil, if_neg hplace.symm]
  · rw [get?_of_ne_nil hother, get?_of_ne_nil hother, set, lookup_setEntry]

theorem get?_remove (hplace : place ≠ []) (other : List String) :
    (tree.remove place).get? other = if other = place then none else tree.get? other := by
  by_cases hother : other = []
  · rw [hother, get?_nil, get?_nil, if_neg hplace.symm]
  · rw [get?_of_ne_nil hother, get?_of_ne_nil hother, remove]
    have hfilter := lookup_map_filter (fun key ↦ key != place) (fun _ value ↦ value) other
      tree.entries
    rw [List.map_id'] at hfilter
    rw [hfilter]
    by_cases hsame : other = place <;> simp [hsame]

theorem mem_map_entries (hplace : place ≠ []) (h : (tree.get? place).isSome) :
    place ∈ tree.entries.map Prod.fst := by
  rw [get?_of_ne_nil hplace] at h
  obtain ⟨entry, hentry⟩ := Option.isSome_iff_exists.mp h
  exact List.mem_map_of_mem (f := Prod.fst) (mem_of_lookup hentry)

theorem content?_eq_some_iff {content : Content} :
    tree.content? place = some content ↔ tree.get? place = some (.file content) := by
  rw [content?]
  cases tree.get? place with
  | none => simp
  | some entry => cases entry <;> simp

/-! ## Connected trees -/

/-- Whatever is in a tree is in a directory. -/
def Connected (tree : FileTree) : Prop :=
  ∀ place name, (tree.get? (place ++ [name])).isSome → tree.get? place = some .directory

theorem connected_of_entries
    (h : ∀ entry ∈ tree.entries, tree.get? entry.1.dropLast = some .directory) :
    Connected tree := by
  intro place name hplace
  obtain ⟨entry, hentry, hkey⟩ := List.mem_map.mp (mem_map_entries (by simp) hplace)
  simpa [hkey] using h entry hentry

theorem Connected.get?_dropLast (h : Connected tree) (hplace : (tree.get? place).isSome) :
    tree.get? place.dropLast = some .directory := by
  rcases List.eq_nil_or_concat' place with rfl | ⟨above, name, rfl⟩
  · rfl
  · rw [List.dropLast_concat]
    exact h above name hplace

/-- An entry may be put into a directory, in the place of anything but a directory. -/
theorem Connected.of_get? (h : Connected before)
    (hparent : before.get? place.dropLast = some .directory)
    (hplace : before.get? place ≠ some .directory)
    (hget : ∀ other, after.get? other = if other = place then some entry else before.get? other) :
    Connected after := by
  have hne : place ≠ [] := by
    rintro rfl
    exact hplace rfl
  intro other name hother
  rw [hget] at hother ⊢
  by_cases hname : other ++ [name] = place
  · have hself : other ≠ place := by
      rintro rfl
      simp at hname
    rw [if_neg hself]
    rwa [← hname, List.dropLast_concat] at hparent
  · rw [if_neg hname] at hother
    have hdirectory := h other name hother
    rw [if_neg (by rintro rfl; exact hplace hdirectory), hdirectory]

theorem Connected.congr (h : Connected before)
    (hget : ∀ other, after.get? other = before.get? other) : Connected after := by
  intro place name hname
  rw [hget] at hname ⊢
  exact h place name hname

/-- The same entries, except for directories that were added. -/
def Extends (before after : FileTree) : Prop :=
  ∀ place, after.get? place = before.get? place ∨
    before.get? place = none ∧ after.get? place = some .directory

/-- Every directory is still there. -/
def KeepsDirectories (before after : FileTree) : Prop :=
  ∀ place, before.get? place = some .directory → after.get? place = some .directory

theorem extends_refl (tree : FileTree) : Extends tree tree := fun _ ↦ .inl rfl

theorem Extends.trans {last : FileTree} (h : Extends before after) (hlast : Extends after last) :
    Extends before last := by
  intro place
  rcases hlast place with hsame | ⟨hnone, hadded⟩
  · rw [hsame]
    exact h place
  · rcases h place with hbefore | ⟨-, hdirectory⟩
    · exact .inr ⟨hbefore ▸ hnone, hadded⟩
    · rw [hdirectory] at hnone
      cases hnone

theorem Extends.keepsDirectories (h : Extends before after) : KeepsDirectories before after := by
  intro place hplace
  rcases h place with hsame | ⟨hnone, -⟩
  · rw [hsame, hplace]
  · rw [hnone] at hplace
    cases hplace

theorem Extends.content?_eq (h : Extends before after) (place : List String) :
    after.content? place = before.content? place := by
  rcases h place with hsame | ⟨hnone, hdirectory⟩
  · rw [content?, content?, hsame]
  · rw [content?, content?, hnone, hdirectory]

/-- A content was put at a place where no directory is. -/
structure Stores (before : FileTree) (place : List String) (content : Content) (after : FileTree) :
    Prop where
  no_directory : before.get? place ≠ some .directory
  get?_eq : ∀ other,
    after.get? other = if other = place then some (.file content) else before.get? other

theorem stores_set (hplace : tree.get? place ≠ some .directory) (content : Content) :
    Stores tree place content (tree.set place (.file content)) := by
  refine ⟨hplace, get?_set ?_ _⟩
  rintro rfl
  exact hplace rfl

theorem Stores.content?_eq {content : Content} (h : Stores before place content after)
    (other : List String) :
    after.content? other = if other = place then some content else before.content? other := by
  rw [content?, h.get?_eq]
  by_cases hother : other = place
  · rw [if_pos hother, if_pos hother]
  · rw [if_neg hother, if_neg hother, content?]

theorem Stores.trans {first second : Content} {last : FileTree}
    (h : Stores before place first after)
    (hlast : Stores after place second last) : Stores before place second last := by
  refine ⟨h.no_directory, fun other ↦ ?_⟩
  rw [hlast.get?_eq, h.get?_eq]
  split <;> rfl

theorem Stores.keepsDirectories {content : Content} (h : Stores before place content after) :
    KeepsDirectories before after := by
  intro other hother
  rw [h.get?_eq, if_neg (by rintro rfl; exact h.no_directory hother), hother]

theorem Stores.connected {content : Content} (h : Stores before place content after)
    (hconnected : Connected before) (hparent : before.get? place.dropLast = some .directory) :
    Connected after :=
  hconnected.of_get? hparent h.no_directory h.get?_eq

/-! ## Ways -/

/-- The first step of a way: back, to its end, or into a directory. -/
theorem follow_cons_eq_ok_iff : tree.follow here (part :: parts) = .ok place ↔
    (part = ".." ∧ tree.follow here.dropLast parts = .ok place) ∨
    (part ≠ ".." ∧ parts = [] ∧ here ++ [part] = place) ∨
    (part ≠ ".." ∧ parts ≠ [] ∧ tree.get? (here ++ [part]) = some .directory ∧
      tree.follow (here ++ [part]) parts = .ok place) := by
  rw [follow]
  by_cases hup : part = ".."
  · simp [hup]
  · by_cases hlast : parts = []
    · simp [hup, hlast]
    · rw [if_neg hup, if_neg (by simpa using hlast)]
      cases hentry : tree.get? (here ++ [part]) with
      | none => simp [hup, hlast]
      | some entry => cases entry <;> simp [hup, hlast]

theorem follow_eq_walk (h : tree.follow here parts = .ok place) : place = Path.walk here parts := by
  induction parts generalizing here with
  | nil => exact (Except.ok.inj h).symm
  | cons part rest ih =>
    rw [Path.walk]
    rcases follow_cons_eq_ok_iff.mp h with ⟨hup, hrest⟩ | ⟨hdown, rfl, rfl⟩ | ⟨hdown, -, -, hrest⟩
    · rw [if_pos hup, ih hrest]
    · rw [if_neg hdown, Path.walk]
    · rw [if_neg hdown, ih hrest]

theorem follow_mono (hkeeps : KeepsDirectories before after)
    (h : before.follow here parts = .ok place) : after.follow here parts = .ok place := by
  induction parts generalizing here with
  | nil => exact h
  | cons part rest ih =>
    rw [follow_cons_eq_ok_iff] at h ⊢
    rcases h with ⟨hup, hrest⟩ | hlast | ⟨hdown, hmore, hdirectory, hrest⟩
    · exact .inl ⟨hup, ih hrest⟩
    · exact .inr (.inl hlast)
    · exact .inr (.inr ⟨hdown, hmore, hkeeps _ hdirectory, ih hrest⟩)

theorem follow_singleton (hleaf : leaf ≠ "..") (tree : FileTree) (here : List String) :
    tree.follow here [leaf] = .ok (here ++ [leaf]) :=
  follow_cons_eq_ok_iff.mpr (.inr (.inl ⟨hleaf, rfl, rfl⟩))

/-- A way into a directory leads on to whatever the directory may hold. -/
theorem follow_concat (h : tree.follow here above = .ok place)
    (hplace : tree.get? place = some .directory) (hleaf : leaf ≠ "..") :
    tree.follow here (above ++ [leaf]) = .ok (place ++ [leaf]) := by
  induction above generalizing here with
  | nil =>
    obtain rfl := Except.ok.inj h
    exact follow_singleton hleaf tree here
  | cons part rest ih =>
    rw [List.cons_append, follow_cons_eq_ok_iff]
    rcases follow_cons_eq_ok_iff.mp h with ⟨hup, hrest⟩ | ⟨hdown, rfl, rfl⟩ |
      ⟨hdown, -, hdirectory, hrest⟩
    · exact .inl ⟨hup, ih hrest⟩
    · exact .inr (.inr ⟨hdown, by simp, hplace, follow_singleton hleaf tree _⟩)
    · exact .inr (.inr ⟨hdown, by simp, hdirectory, ih hrest⟩)

/-- A way ends in a directory that is there. -/
theorem Connected.get?_dropLast_of_follow (hconnected : Connected tree)
    (hhere : tree.get? here = some .directory) (h : tree.follow here parts = .ok place) :
    tree.get? place.dropLast = some .directory := by
  induction parts generalizing here with
  | nil =>
    obtain rfl := Except.ok.inj h
    exact hconnected.get?_dropLast (by simp [hhere])
  | cons part rest ih =>
    rcases follow_cons_eq_ok_iff.mp h with ⟨-, hrest⟩ | ⟨-, -, rfl⟩ | ⟨-, -, hdirectory, hrest⟩
    · exact ih (hconnected.get?_dropLast (by simp [hhere])) hrest
    · rwa [List.dropLast_concat]
    · exact ih hdirectory hrest

theorem locate_eq_place (h : tree.locate path = .ok place) : place = path.place := follow_eq_walk h

/-- A path that leads to a directory. -/
def HasDirectory (tree : FileTree) (path : Path) : Prop :=
  tree.locate path = .ok path.place ∧ tree.get? path.place = some .directory

theorem isDirectory_iff : tree.isDirectory path ↔ HasDirectory tree path := by
  rw [isDirectory, HasDirectory, stat]
  cases hlocate : tree.locate path with
  | error cause => simp [bind, Except.bind]
  | ok place =>
    rw [← locate_eq_place hlocate]
    cases hentry : tree.get? place with
    | none => simp [bind, Except.bind, hentry, throw, throwThe, MonadExceptOf.throw]
    | some entry => cases entry <;> simp [bind, Except.bind, hentry, pure, Except.pure]

theorem HasDirectory.mono (h : HasDirectory before path) (hkeeps : KeepsDirectories before after) :
    HasDirectory after path :=
  ⟨follow_mono hkeeps h.1, hkeeps _ h.2⟩

theorem HasDirectory.locate_concat (h : HasDirectory tree ⟨root, above⟩) (hleaf : leaf ≠ "..") :
    tree.locate ⟨root, above ++ [leaf]⟩ = .ok (Path.place ⟨root, above⟩ ++ [leaf]) :=
  follow_concat h.1 h.2 hleaf

theorem makeDirectory_eq_ok (h : before.makeDirectory path = .ok after) :
    Extends before after ∧ (Connected before → Connected after) ∧ HasDirectory after path := by
  obtain ⟨place, hlocate, hmake⟩ := bind_eq_ok_iff.mp h
  cases hentry : before.get? place with
  | some entry =>
    rw [hentry] at hmake
    cases hmake
  | none =>
    rw [hentry] at hmake
    obtain rfl := Except.ok.inj hmake
    have hne : place ≠ [] := by
      rintro rfl
      cases hentry
    have hget (other : List String) := before.get?_set hne .directory other
    have hextends : Extends before (before.set place .directory) := by
      intro other
      rw [hget]
      split
      · next hother => exact .inr ⟨hother ▸ hentry, rfl⟩
      · exact .inl rfl
    refine ⟨hextends, fun hconnected ↦ ?_, ?_⟩
    · have hparent := hconnected.get?_dropLast_of_follow (get?_nil before) hlocate
      exact hconnected.of_get? hparent (by simp [hentry]) hget
    · obtain rfl := locate_eq_place hlocate
      exact ⟨follow_mono hextends.keepsDirectories hlocate, by rw [hget, if_pos rfl]⟩

theorem HasDirectory.locate_eq_place (h : HasDirectory tree path.parent)
    (hname : path.name ≠ "..") : tree.locate path = .ok path.place := by
  rcases path.parts_eq_nil_or_concat with hparts | ⟨above, hparts, hparent⟩
  · rw [locate, Path.place, hparts]
    rfl
  · rw [hparent] at h
    rw [locate, Path.place, hparts, Path.walk_concat hname]
    exact h.locate_concat hname

/-- What a step has led to is what the tree would have led to without the disk. -/
theorem eq_ok_of_allow_eq_ok {refused : Option FileCause} {step : Except FileCause FileTree}
    (h : allow refused step = .ok after) : step = .ok after := by
  cases step with
  | error cause => exact h
  | ok made => cases refused with
    | none => exact h
    | some cause => cases h

theorem ensureDirectory_eq_ok {refused : Option FileCause}
    (h : ensureDirectory refused before path = .ok after) :
    Extends before after ∧ (Connected before → Connected after) ∧ HasDirectory after path := by
  rw [ensureDirectory] at h
  cases hmake : allow refused (before.makeDirectory path) with
  | ok made =>
    rw [hmake] at h
    obtain rfl := Except.ok.inj h
    exact makeDirectory_eq_ok (eq_ok_of_allow_eq_ok hmake)
  | error cause =>
    simp only [hmake] at h
    split at h
    · next hdirectory =>
      obtain rfl := Except.ok.inj h
      exact ⟨extends_refl _, id, isDirectory_iff.mp hdirectory⟩
    · cases h

@[simp]
theorem last_nil (start : FileTree) : start.last [] = start := rfl

@[simp]
theorem last_cons (start step : FileTree) (steps : List FileTree) :
    start.last (step :: steps) = step.last steps := by simp [last, List.getLast?_cons]

@[simp]
theorem last_concat (start : FileTree) (steps : List FileTree) (step : FileTree) :
    start.last (steps ++ [step]) = step := by simp [last]

/-- What holds of every tree holds of the last one. -/
theorem last_induction {motive : FileTree → Prop} {steps : List FileTree} (hstart : motive tree)
    (hsteps : ∀ step ∈ steps, motive step) : motive (tree.last steps) := by
  rcases List.eq_nil_or_concat' steps with rfl | ⟨others, step, rfl⟩
  · exact hstart
  · rw [last_concat]
    exact hsteps step (by simp)

/-- Steps that make directories: they add directories and change nothing else, and if all could be
made, the one at `path` is there. -/
structure MakesDirectories (tree : FileTree) (path : Path)
    (run : List FileTree × Except (FileCause × Path) Unit) : Prop where
  steps_extend : ∀ step ∈ run.1, Extends tree step
  connected : Connected tree → Connected (tree.last run.1)
  of_ok : run.2 = .ok () → HasDirectory (tree.last run.1) path

theorem MakesDirectories.last_extends {run : List FileTree × Except (FileCause × Path) Unit}
    (h : MakesDirectories tree path run) : Extends tree (tree.last run.1) :=
  last_induction (extends_refl tree) h.steps_extend

theorem makesDirectories_nil (hok : HasDirectory tree path) :
    MakesDirectories tree path ([], .ok ()) :=
  ⟨nofun, id, fun _ ↦ hok⟩

theorem makesDirectories_stuck (tree : FileTree) (path : Path) (failure : FileCause × Path) :
    MakesDirectories tree path ([], .error failure) :=
  ⟨nofun, id, nofun⟩

theorem makesDirectories_error {steps : List FileTree} {parent : Path}
    {result : Except (FileCause × Path) Unit} (h : MakesDirectories tree parent (steps, result))
    (failure : FileCause × Path) : MakesDirectories tree path (steps, .error failure) :=
  ⟨h.steps_extend, h.connected, nofun⟩

theorem makesDirectories_directorySteps (refused : Path → Option FileCause) (tree : FileTree)
    (path : Path) : MakesDirectories tree path (tree.directorySteps refused path) := by
  fun_induction directorySteps refused tree path with
  | case1 path made hmade =>
    obtain ⟨hextends, hconnected, hdirectory⟩ := makeDirectory_eq_ok (eq_ok_of_allow_eq_ok hmade)
    exact ⟨by simpa using hextends, hconnected, fun _ ↦ hdirectory⟩
  | case2 path hmissing hroot => exact makesDirectories_stuck tree path _
  | case3 path hmissing hparts steps failure habove ih =>
    rw [habove] at ih
    exact makesDirectories_error ih failure
  | case4 path hmissing hparts steps habove made hmade ih =>
    rw [habove] at ih
    obtain ⟨hextends, hconnected, hdirectory⟩ := ensureDirectory_eq_ok hmade
    refine ⟨?_, fun htree ↦ ?_, fun _ ↦ ?_⟩
    · intro step hstep
      rcases List.mem_append.mp hstep with hstep | hstep
      · exact ih.steps_extend step hstep
      · rw [List.mem_singleton.mp hstep]
        exact ih.last_extends.trans hextends
    · rw [last_concat]
      exact hconnected (ih.connected htree)
    · rwa [last_concat]
  | case5 path hmissing hparts steps habove failure hfails ih =>
    rw [habove] at ih
    exact makesDirectories_error ih failure
  | case6 path cause hcause hmake hdirectory =>
    exact makesDirectories_nil (isDirectory_iff.mp hdirectory)
  | case7 path cause hcause hmake hdirectory => exact makesDirectories_stuck tree path _

theorem directorySteps_of_hasDirectory (h : HasDirectory tree path)
    (refused : Path → Option FileCause) : tree.directorySteps refused path = ([], .ok ()) := by
  have hmake : tree.makeDirectory path = .error .present := by
    rw [makeDirectory, h.1]
    simp [bind, Except.bind, h.2, throw, throwThe, MonadExceptOf.throw]
  rw [directorySteps]
  simp [hmake, allow, isDirectory_iff.mpr h]

theorem writeFile_eq_error (hlocate : tree.locate path = .ok place)
    (hplace : tree.get? place = some .directory) (content : Content) :
    tree.writeFile path content = .error .isADirectory := by
  rw [writeFile, hlocate]
  simp only [bind, Except.bind, hplace]
  rfl

theorem exists_writeFile_eq_ok (hlocate : tree.locate path = .ok place)
    (hplace : tree.get? place ≠ some .directory) (content : Content) :
    ∃ written, tree.writeFile path content = .ok written ∧ Stores tree place content written ∧
      written.locate path = .ok place := by
  have hstores := stores_set hplace content
  refine ⟨_, ?_, hstores, follow_mono hstores.keepsDirectories hlocate⟩
  rw [writeFile, hlocate]
  cases hentry : tree.get? place with
  | none => simp [bind, Except.bind, hentry, pure, Except.pure]
  | some entry => cases entry with
    | directory => exact absurd hentry hplace
    | file content => simp [bind, Except.bind, hentry, pure, Except.pure]

end FileTree

end SchemaModules.Files
