import SchemaModules.Proofs.FileWrites

/-!
# Writes without a middle way

A disk may refuse any step of a write, and a temporary file may hold anything while it is filled.
Still no tree on the way shows a file that is neither as before nor complete. A write that fails
leaves the files as they were, and one that succeeds changes only its own. After any number of
checked writes, then, a source file is as it was at first or has a content that was accepted.
-/

namespace SchemaModules.Files

variable {start tree final : FileTree} {path : Path} {rules : WriteRules} {text root : String}
  {place source : List String} {later : List FileTree} {content : Content}
  {check : Check}

/-! ## Files on the way -/

/-- A tree in which one file is as before or complete, and no other file has changed. -/
structure Intact (start : FileTree) (place : List String) (content : Content) (state : FileTree) :
    Prop where
  target : state.content? place = start.content? place ∨ state.content? place = some content
  others : ∀ other stored, other ≠ place → start.content? other = some stored →
    state.content? other = some stored

/-- Every tree on the way is intact, and in the last one the file is complete, or all files are as
before if there was a failure. No other file is left. -/
structure AllOrNothing (start : FileTree) (place : List String) (content : Content)
    (attempt : Attempt) : Prop where
  intact : ∀ state ∈ attempt.states, Intact start place content state
  of_error : ∀ fault, attempt.outcome = .error fault →
    ∀ other, attempt.final.content? other = start.content? other
  of_ok : attempt.outcome = .ok () → ∀ other,
    attempt.final.content? other = if other = place then some content else start.content? other

theorem intact_of_content?_eq (h : ∀ other, tree.content? other = start.content? other)
    (place : List String) (content : Content) : Intact start place content tree :=
  ⟨.inl (h place), fun other _ _ hstored ↦ (h other).trans hstored⟩

theorem FileTree.Extends.intact (h : start.Extends tree) (place : List String)
    (content : Content) : Intact start place content tree :=
  intact_of_content?_eq h.content?_eq place content

/-- The temporary file is none of the files that were there. -/
theorem FileTree.Stores.intact_of_fresh {stored : Content} {state : FileTree}
    (h : tree.Stores source stored state) (hextends : start.Extends tree)
    (hfresh : tree.get? source = none) (hdiffer : place ≠ source) (content : Content) :
    Intact start place content state where
  target := .inl (by rw [h.content?_eq, if_neg hdiffer, hextends.content?_eq])
  others other kept _ hkept := by
    rw [← hextends.content?_eq] at hkept
    have hother : other ≠ source := by
      rintro rfl
      simp [content?, hfresh] at hkept
    rw [h.content?_eq, if_neg hother, hkept]

theorem allOrNothing_of_error (hlater : ∀ state ∈ later, Intact start place content state)
    (hlast : ∀ other, (start.last later).content? other = start.content? other) (fault : Fault) :
    AllOrNothing start place content ⟨start, later, .error fault⟩ where
  intact := List.forall_mem_cons.mpr ⟨intact_of_content?_eq (fun _ ↦ rfl) _ _, hlater⟩
  of_error _ _ := hlast
  of_ok := nofun

theorem allOrNothing_of_ok {last : FileTree}
    (hlater : ∀ state ∈ later, Intact start place content state)
    (hlast : ∀ other, last.content? other =
      if other = place then some content else start.content? other) :
    AllOrNothing start place content ⟨start, later ++ [last], .ok ()⟩ where
  intact := by
    refine List.forall_mem_cons.mpr ⟨intact_of_content?_eq (fun _ ↦ rfl) _ _,
      List.forall_mem_append.mpr ⟨hlater, List.forall_mem_singleton.mpr ?_⟩⟩
    refine ⟨.inr (by rw [hlast, if_pos rfl]), fun other stored hother hstored ↦ ?_⟩
    rw [hlast, if_neg hother, hstored]
  of_error := nofun
  of_ok _ other := by rw [Attempt.final, FileTree.last_concat, hlast]

/-- The move of a file into its place, on a tree to which only directories were added. -/
theorem Moves.allOrNothing {attempt : Attempt}
    (h : Moves rules start later (start.last later) path text source attempt)
    (hlater : ∀ state ∈ later, start.Extends state)
    (hfresh : (start.last later).get? source = none) (hdiffer : path.place ≠ source) :
    AllOrNothing start path.place (.text text) attempt := by
  have hextends := FileTree.last_induction (FileTree.extends_refl start) hlater
  -- Up to the last step there is at most one file more than before.
  have hintact (steps : List FileTree)
      (hsteps : ∀ state ∈ steps, ∃ stored, (start.last later).Stores source stored state) :
      ∀ state ∈ later ++ steps, Intact start path.place (.text text) state := by
    intro state hstate
    rcases List.mem_append.mp hstate with hstate | hstate
    · exact (hlater state hstate).intact _ _
    · obtain ⟨stored, hstored⟩ := hsteps state hstate
      exact hstored.intact_of_fresh hextends hfresh hdiffer _
  cases h with
  | refused cause hrefused =>
    exact allOrNothing_of_error (fun state hstate ↦ (hlater state hstate).intact _ _)
      hextends.content?_eq _
  | undone steps last cause hsteps hlast hblocked =>
    have hcontent (other : List String) : last.content? other = start.content? other := by
      rw [FileTree.content?, hlast, ← FileTree.content?, hextends.content?_eq]
    refine allOrNothing_of_error (List.forall_mem_append.mpr ⟨hintact steps hsteps, ?_⟩)
      (fun other ↦ by rw [FileTree.last_concat, hcontent]) _
    simpa using intact_of_content?_eq hcontent _ _
  | done steps last hsteps hname hlast =>
    refine allOrNothing_of_ok (hintact steps hsteps) fun other ↦ ?_
    rw [hlast.content?_eq, hextends.content?_eq]

theorem Moves.name_ne {attempt : Attempt}
    (h : Moves rules start later tree path text source attempt) (hok : attempt.outcome = .ok ()) :
    path.name ≠ ".." := by
  cases h with
  | refused cause hrefused => cases hok
  | undone steps last cause hsteps hlast hblocked => cases hok
  | done steps last hsteps hname hlast => exact hname

/-- A write through a temporary file stops at the directories above it, or it moves an accepted
content into its place. -/
theorem write_cases (hatomic : rules.atomic) (start : FileTree) (path : Path) (text : String) :
    ∃ later, (∀ state ∈ later, start.Extends state) ∧
      ((∃ fault, write rules start path text = ⟨start, later, .error fault⟩) ∨
      rules.accepts path text = .ok () ∧
        ∃ source, (start.last later).get? source = none ∧ path.place ≠ source ∧
          Moves rules start later (start.last later) path text source
            (write rules start path text)) := by
  have hmakes := FileTree.makesDirectories_directorySteps
    (fun directory ↦ rules.refusals (.makeDirectory directory)) start path.parent
  rw [write]
  rcases hrun : start.directorySteps (fun directory ↦ rules.refusals (.makeDirectory directory))
    path.parent with ⟨steps, failure | ⟨⟩⟩
  · rw [hrun] at hmakes
    exact ⟨steps, hmakes.steps_extend, .inl ⟨_, rfl⟩⟩
  · rw [hrun] at hmakes
    refine ⟨steps, hmakes.steps_extend, ?_⟩
    dsimp only
    cases haccepts : rules.accepts path text with
    | error fault => exact .inl ⟨fault, rfl⟩
    | ok accepted =>
      rw [if_pos hatomic]
      exact .inr ⟨rfl, moves_moveIntoPlace (hmakes.of_ok rfl) rules start steps text⟩

theorem allOrNothing_write (hatomic : rules.atomic) (start : FileTree) (path : Path)
    (text : String) :
    AllOrNothing start path.place (.text text) (write rules start path text) := by
  obtain ⟨later, hlater, ⟨fault, hwrite⟩ | ⟨-, source, hfresh, hdiffer, hmoves⟩⟩ :=
    write_cases hatomic start path text
  · rw [hwrite]
    exact allOrNothing_of_error (fun state hstate ↦ (hlater state hstate).intact _ _)
      (FileTree.last_induction (FileTree.extends_refl start) hlater).content?_eq fault
  · exact hmoves.allOrNothing hlater hfresh hdiffer

theorem Path.name_place (hname : path.name ≠ "..") (root : String) :
    Path.name ⟨root, path.place⟩ = path.name := by
  rcases path.parts_eq_nil_or_concat with hparts | ⟨above, hparts, -⟩
  · simp [name, place, hparts, walk]
  · have hplace : path.place = walk [] above ++ [path.name] := by
      rw [place, hparts, walk_concat hname]
    simp [name, hplace]

theorem Path.suffix_place (hname : path.name ≠ "..") (root : String) :
    Path.suffix ⟨root, path.place⟩ = path.suffix := by
  rw [suffix, suffix, name_place hname]

/-- Every source file is as it was, or its content was accepted. -/
def KeepsSources (check : Check) (start final : FileTree) : Prop :=
  ∀ place, Path.suffix ⟨"/", place⟩ = ".py" → final.content? place = start.content? place ∨
    ∃ text, check text = .ok () ∧ final.content? place = some (.text text)

theorem keepsSources_refl (check : Check) (start : FileTree) : KeepsSources check start start :=
  fun _ _ ↦ .inl rfl

theorem KeepsSources.trans (h : KeepsSources check start tree)
    (hfinal : KeepsSources check tree final) : KeepsSources check start final := by
  intro place hsuffix
  rcases hfinal place hsuffix with hsame | haccepted
  · rw [hsame]
    exact h place hsuffix
  · exact .inr haccepted

theorem keepsSources_write (hatomic : rules.atomic) (hchecked : rules.checked) (start : FileTree)
    (path : Path) (text : String) :
    KeepsSources rules.check start (write rules start path text).final := by
  have hall := allOrNothing_write hatomic start path text
  cases houtcome : (write rules start path text).outcome with
  | error fault => exact fun place _ ↦ .inl (hall.of_error fault houtcome place)
  | ok result =>
    intro place hsuffix
    rw [hall.of_ok houtcome]
    by_cases hplace : place = path.place
    · refine .inr ⟨text, ?_, if_pos hplace⟩
      obtain ⟨later, -, ⟨fault, hwrite⟩ | ⟨haccepts, source, -, -, hmoves⟩⟩ :=
        write_cases hatomic start path text
      · simp [hwrite] at houtcome
      · rw [hplace, Path.suffix_place (hmoves.name_ne houtcome)] at hsuffix
        simpa [WriteRules.accepts, hchecked, hsuffix] using haccepts
    · exact .inl (if_neg hplace)

/-! ## Requests -/

/-- A write through a temporary file, on a disk in some condition. -/
structure AtomicRequest where
  path : Path
  content : String
  /-- Whether it is a failure that something is in the place. -/
  onlyNew : Bool
  refusals : Refusals
  portions : String → List Content

def AtomicRequest.attempt (request : AtomicRequest) (check : Check) (checked : Bool)
    (tree : FileTree) : Attempt :=
  let rules : WriteRules :=
    { check, checked, atomic := true, refusals := request.refusals, portions := request.portions }
  if request.onlyNew then writeNew rules tree request.path request.content
  else write rules tree request.path request.content

/-- A request fails at once, or it is a write. -/
theorem AtomicRequest.attempt_induction {motive : Attempt → Prop} (request : AtomicRequest)
    (check : Check) (checked : Bool) (tree : FileTree)
    (present : ∀ fault, motive ⟨tree, [], .error fault⟩)
    (written : ∀ rules : WriteRules, rules.check = check → rules.checked = checked →
      rules.atomic → motive (write rules tree request.path request.content)) :
    motive (request.attempt check checked tree) := by
  rw [attempt]
  split
  · rw [writeNew]
    split
    · exact present _
    · exact written _ rfl rfl rfl
  · exact written _ rfl rfl rfl

theorem keepsSources_attempt (request : AtomicRequest) (check : Check) (tree : FileTree) :
    KeepsSources check tree (request.attempt check true tree).final := by
  refine request.attempt_induction check true tree
    (motive := fun attempt ↦ KeepsSources check tree attempt.final) (fun fault ↦ ?_)
    fun rules hcheck hchecked hatomic ↦ ?_
  · exact keepsSources_refl check tree
  · exact hcheck ▸ keepsSources_write hatomic hchecked tree _ _

/-- Whatever the disk refuses, a write through a temporary file is done completely or not at all,
and any number of checked ones put nothing into source files but what the check accepts. -/
theorem requests_allOrNothing (check : Check) (start : FileTree) :
    (∀ (request : AtomicRequest) (checked : Bool), AllOrNothing start request.path.place
      (.text request.content) (request.attempt check checked start)) ∧
    ∀ requests : List AtomicRequest, KeepsSources check start
      (requests.foldl (fun tree request ↦ (request.attempt check true tree).final) start) := by
  refine ⟨fun request checked ↦ ?_, fun requests ↦ ?_⟩
  · refine request.attempt_induction check checked start (fun fault ↦ ?_) fun rules _ _ hatomic ↦ ?_
    · exact allOrNothing_of_error (by simp) (fun _ ↦ rfl) fault
    · exact allOrNothing_write hatomic start _ _
  · induction requests generalizing start with
    | nil => exact keepsSources_refl check start
    | cons request requests ih => exact (keepsSources_attempt request check start).trans (ih _)

/-- The trees of a write whose last step a disk refuses. -/
example :
    let request : AtomicRequest :=
      { path := ⟨"/", ["a.py"]⟩, content := "new", onlyNew := false,
        refusals := fun stage ↦ if stage = .replaceTarget then some .busy else none,
        portions := fun _ ↦ [.text "ne"] }
    (request.attempt (fun _ ↦ .ok ()) true ⟨[(["a.py"], .file (.text "old"))]⟩).states.map
        FileTree.entries = [
      [(["a.py"], .file (.text "old"))],
      [(["a.py"], .file (.text "old")), ([".a.py.0.tmp"], .file (.text ""))],
      [(["a.py"], .file (.text "old")), ([".a.py.0.tmp"], .file (.text "ne"))],
      [(["a.py"], .file (.text "old")), ([".a.py.0.tmp"], .file (.text "new"))],
      [(["a.py"], .file (.text "old"))]] := by
  decide +kernel

end SchemaModules.Files
