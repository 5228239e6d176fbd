import SchemaModules.Proofs.ClassNames

/-!
# Runs in names

The runs of a name are its parts between dots and dashes, as long as they can be: each ends where
the name ends or a dot or dash follows. A class name consists of the runs with a capital each. It is
a single run itself and has its capital already.
-/

namespace SchemaModules.Naming

open Text

variable {c : Char} {name : String} {text gap run rest : List Char} {runs : List (List Char)}
  {isSeparator : Char → Bool}

/-! ## Maximal runs -/

/-- The maximal runs of characters that are no separators, in order. Gaps hold separators only, and
may be empty before the first run and behind the last one. -/
inductive MaximalRuns (isSeparator : Char → Bool) : List Char → List (List Char) → Prop
  | none {gap : List Char} (hgap : ∀ c ∈ gap, isSeparator c = true) : MaximalRuns isSeparator gap []
  | next {gap run rest : List Char} {runs : List (List Char)}
      (hgap : ∀ c ∈ gap, isSeparator c = true) (hsome : run ≠ [])
      (hrun : ∀ c ∈ run, isSeparator c = false)
      (hend : ∀ c ∈ rest.head?, isSeparator c = true) (hrest : MaximalRuns isSeparator rest runs) :
      MaximalRuns isSeparator (gap ++ run ++ rest) (run :: runs)

theorem MaximalRuns.cons (hc : isSeparator c = true) (h : MaximalRuns isSeparator text runs) :
    MaximalRuns isSeparator (c :: text) runs := by
  cases h with
  | none hgap => exact .none (List.forall_mem_cons.mpr ⟨hc, hgap⟩)
  | @next gap run rest runs hgap hsome hrun hend hrest =>
    have hlonger : ∀ d ∈ c :: gap, isSeparator d = true := List.forall_mem_cons.mpr ⟨hc, hgap⟩
    exact .next hlonger hsome hrun hend hrest

theorem maximalRuns_segments (isSeparator : Char → Bool) (text : List Char) :
    MaximalRuns isSeparator text (segments isSeparator text) := by
  fun_induction segments isSeparator text with
  | case1 => exact .none (by simp)
  | case2 c rest hc ih => exact ih.cons hc
  | case3 c rest hc ih =>
    have hparts : c :: rest = [] ++ (c :: rest.takeWhile (!isSeparator ·)) ++
        rest.dropWhile (!isSeparator ·) := by
      simp [List.takeWhile_append_dropWhile]
    rw [hparts]
    apply MaximalRuns.next (by simp) (List.cons_ne_nil _ _) _ _ ih
    · intro d hd
      rcases List.mem_cons.mp hd with rfl | hlater
      · simpa using hc
      · simpa using List.all_eq_true.mp List.all_takeWhile d hlater
    · intro d hd
      have hhead := List.head?_dropWhile_not (!isSeparator ·) rest
      rw [Option.mem_def.mp hd] at hhead
      simpa using hhead

theorem segments_append_of_gap (hgap : ∀ c ∈ gap, isSeparator c = true) (rest : List Char) :
    segments isSeparator (gap ++ rest) = segments isSeparator rest := by
  induction gap with
  | nil => rfl
  | cons c gap ih =>
    obtain ⟨hc, hgap⟩ := List.forall_mem_cons.mp hgap
    rw [List.cons_append, segments, if_pos hc, ih hgap]

theorem segments_append_of_run (hsome : run ≠ []) (hrun : ∀ c ∈ run, isSeparator c = false)
    (hend : ∀ c ∈ rest.head?, isSeparator c = true) :
    segments isSeparator (run ++ rest) = run :: segments isSeparator rest := by
  obtain ⟨c, tail, rfl⟩ := List.exists_cons_of_ne_nil hsome
  obtain ⟨hc, htail⟩ := List.forall_mem_cons.mp hrun
  have hkept : ∀ d ∈ tail, (!isSeparator d) = true := fun d hd ↦ by rw [htail d hd]; rfl
  have hword : rest.takeWhile (!isSeparator ·) = [] ∧ rest.dropWhile (!isSeparator ·) = rest := by
    cases rest with
    | nil => exact ⟨rfl, rfl⟩
    | cons d rest => simp [hend d rfl]
  rw [List.cons_append, segments, hc, if_neg Bool.false_ne_true,
    List.takeWhile_append_of_pos hkept, List.dropWhile_append_of_pos hkept, hword.1, hword.2,
    List.append_nil]

theorem segments_of_run (hsome : run ≠ []) (hrun : ∀ c ∈ run, isSeparator c = false) :
    segments isSeparator run = [run] := by
  have hend : ∀ c ∈ ([] : List Char).head?, isSeparator c = true := by simp
  have hsegments := segments_append_of_run hsome hrun hend
  rwa [List.append_nil, segments] at hsegments

/-- A text has one list of maximal runs. -/
theorem maximalRuns_iff :
    MaximalRuns isSeparator text runs ↔ runs = segments isSeparator text := by
  constructor
  · intro h
    induction h with
    | @none gap hgap =>
      have hnone := segments_append_of_gap hgap []
      rw [List.append_nil] at hnone
      rw [hnone, segments]
    | next hgap hsome hrun hend hrest ih =>
      rw [List.append_assoc, segments_append_of_gap hgap, segments_append_of_run hsome hrun hend,
        ih]
  · rintro rfl
    exact maximalRuns_segments isSeparator text

/-! ## Capitals -/

theorem upperFirst_eq_capitalize (h : ∀ c ∈ run, IsAscii c) : upperFirst run = capitalize run := by
  cases run with
  | nil => rfl
  | cons c rest =>
    rw [upperFirst, upperChar_of_isAscii (h c List.mem_cons_self)]
    rfl

theorem toList_className_eq_capitalize (h : ∀ c ∈ name.toList, IsAscii c) :
    (className name).toList = (segments separatesWords name.toList).flatMap capitalize := by
  have hsegments : (segments separatesWords name.toList).map upperFirst =
      (segments separatesWords name.toList).map capitalize := by
    apply List.map_congr_left
    intro segment hsegment
    exact upperFirst_eq_capitalize fun c hc ↦ h c (mem_of_mem_segments hsegment hc)
  rw [toList_className h, List.flatMap_def, List.flatMap_def, hsegments]

/-- A class name is made of the characters of a name and of capitals, and of no separators. -/
theorem of_mem_className (h : ∀ c ∈ name.toList, IsAscii c) (hc : c ∈ (className name).toList) :
    IsAscii c ∧ separatesWords c = false := by
  have hkept (segment : List Char) (hsegment : segment ∈ segments separatesWords name.toList) :
      ∀ d ∈ segment, IsAscii d ∧ separatesWords d = false := by
    intro d hd
    have hflat : d ∈ (segments separatesWords name.toList).flatten :=
      List.mem_flatten.mpr ⟨segment, hsegment, hd⟩
    rw [flatten_segments] at hflat
    obtain ⟨hmem, hno⟩ := List.mem_filter.mp hflat
    exact ⟨h d hmem, by simpa using hno⟩
  have hupper (d : Char) (hd : IsAscii d) (hno : separatesWords d = false) :
      IsAscii d.toUpper ∧ separatesWords d.toUpper = false :=
    of_isAscii (p := fun d ↦ separatesWords d = false →
      IsAscii d.toUpper ∧ separatesWords d.toUpper = false) hd (by decide +kernel) hno
  rw [toList_className_eq_capitalize h] at hc
  obtain ⟨segment, hsegment, hmem⟩ := List.mem_flatMap.mp hc
  cases segment with
  | nil => cases hmem
  | cons d rest =>
    obtain ⟨hd, hrest⟩ := List.forall_mem_cons.mp (hkept _ hsegment)
    rcases List.mem_cons.mp hmem with rfl | hlater
    · exact hupper d hd.1 hd.2
    · exact hrest c hlater

/-- A class name stays as it is. -/
theorem className_className (h : ∀ c ∈ name.toList, IsAscii c) :
    className (className name) = className name := by
  have hchars : ∀ c ∈ (className name).toList, IsAscii c ∧ separatesWords c = false :=
    fun c hc ↦ of_mem_className h hc
  have hcapital : ∀ c ∈ (className name).toList.head?, c.toUpper = c := by
    intro c hc
    have hsmall := isLower_head_className h hc
    exact of_isAscii (p := fun c ↦ c.isLower = false → c.toUpper = c)
      (hchars c (List.mem_of_mem_head? hc)).1 (by decide +kernel) hsmall
  apply String.toList_inj.mp
  rw [toList_className_eq_capitalize fun c hc ↦ (hchars c hc).1]
  cases htext : (className name).toList with
  | nil => rw [segments]; rfl
  | cons c rest =>
    rw [htext] at hchars hcapital
    rw [segments_of_run (List.cons_ne_nil c rest) fun d hd ↦ (hchars d hd).2]
    simp [capitalize, hcapital c rfl]

/-- The class name of an ASCII name is the list of its maximal runs, each with a capital. -/
theorem className_capitalizesRuns (name : String) (h : ∀ c ∈ name.toList, IsAscii c) :
    (∃ runs, (∀ other, MaximalRuns separatesWords name.toList other ↔ other = runs) ∧
      (className name).toList = runs.flatMap capitalize) ∧
      className (className name) = className name :=
  ⟨⟨_, fun _ ↦ maximalRuns_iff, toList_className_eq_capitalize h⟩, className_className h⟩

theorem className_capitalizesRuns_brokenName :
    (∀ c ∈ "-io.k8s..kube-aggregator.v1.APIService.".toList, IsAscii c) ∧
      className "-io.k8s..kube-aggregator.v1.APIService." = "IoK8sKubeAggregatorV1APIService" ∧
      (∃ runs, (∀ other, MaximalRuns separatesWords
          "-io.k8s..kube-aggregator.v1.APIService.".toList other ↔ other = runs) ∧
        (className "-io.k8s..kube-aggregator.v1.APIService.").toList = runs.flatMap capitalize) ∧
      className (className "-io.k8s..kube-aggregator.v1.APIService.") =
        className "-io.k8s..kube-aggregator.v1.APIService." :=
  have hchecked : "-io.k8s..kube-aggregator.v1.APIService.".toList.all
      (fun c ↦ decide (IsAscii c)) = true := by decide
  have hname : ∀ c ∈ "-io.k8s..kube-aggregator.v1.APIService.".toList, IsAscii c :=
    fun c hc ↦ of_decide_eq_true (List.all_eq_true.mp hchecked c hc)
  ⟨hname, by decide +kernel, className_capitalizesRuns _ hname⟩

end SchemaModules.Naming
