import SchemaModules.Proofs.AsciiIdentifiers

/-!
# Importable segments

Of the three repairs of a segment none undoes another: a guard against digits brings no dash, and an
underscore behind a reserved word makes no other one. So a repaired segment needs no repair. The
segments of a module path are identifiers where the name of the definition has only ASCII letters,
digits, underscores, dashes and dots.
-/

namespace SchemaModules.Naming

open Text

variable {segment : String} {c : Char}

/-! ## Repaired segments -/

theorem dash_notMem_dashesToUnderscores (chars : List Char) : '-' ∉ dashesToUnderscores chars := by
  intro hmem
  obtain ⟨c, -, hc⟩ := List.mem_map.mp hmem
  by_cases hdash : c = '-'
  · simp [hdash] at hc
  · rw [if_neg hdash] at hc
    exact hdash hc

theorem dash_notMem_importable (segment : String) : '-' ∉ (importable segment).toList := by
  intro hmem
  rcases mem_importable_cases hmem with hunderscore | hdash
  · exact absurd hunderscore (by decide)
  · exact dash_notMem_dashesToUnderscores segment.toList hdash

theorem isDigit_head_guardDigit {chars : List Char} (h : c ∈ (guardDigit chars).head?) :
    isDigit c = false := by
  cases chars with
  | nil => cases h
  | cons first rest =>
    rw [guardDigit] at h
    split at h
    · obtain rfl : '_' = c := by simpa using h
      decide
    · next hfirst =>
      obtain rfl : first = c := by simpa using h
      simpa using hfirst

theorem isDigit_head_importable (h : c ∈ (importable segment).toList.head?) :
    isDigit c = false := by
  obtain ⟨behind, hbehind, htext⟩ := exists_toList_importable segment
  rw [htext, List.head?_append, Option.mem_def, Option.or_eq_some_iff] at h
  rcases h with hguarded | ⟨-, hlast⟩
  · exact isDigit_head_guardDigit hguarded
  · rw [hbehind c (List.mem_of_mem_head? hlast)]
    decide

/-- No reserved word is another one with an underscore behind it. -/
theorem importable_notMem_reservedWords (segment : String) :
    importable segment ∉ reservedWords := by
  have hlast : ∀ word ∈ reservedWords, word.toList.getLast? ≠ some '_' := by decide +kernel
  unfold importable guardReserved
  split
  · intro hmem
    apply hlast _ hmem
    rw [String.toList_append]
    exact List.getLast?_concat
  · next hfree => simpa using hfree

/-- What needs none of the repairs stays as it is. -/
theorem importable_eq_self (hdash : '-' ∉ segment.toList)
    (hdigit : ∀ c ∈ segment.toList.head?, isDigit c = false) (hfree : segment ∉ reservedWords) :
    importable segment = segment := by
  rw [importable, dashesToUnderscores_eq_self hdash, guardDigit_eq_self hdigit,
    String.ofList_toList, guardReserved, if_neg (by simpa using hfree)]

theorem importable_importable (segment : String) :
    importable (importable segment) = importable segment := by
  apply importable_eq_self
  · exact dash_notMem_importable segment
  · exact fun c hc ↦ isDigit_head_importable hc
  · exact importable_notMem_reservedWords segment

/-- Characters of the names of definitions: ASCII letters and digits, underscores, dashes, and
dots. -/
def IsNameChar (c : Char) : Prop := c.isAlphanum = true ∨ c = '_' ∨ c = '-' ∨ c = '.'

instance : DecidablePred IsNameChar := fun c ↦
  inferInstanceAs (Decidable (c.isAlphanum = true ∨ c = '_' ∨ c = '-' ∨ c = '.'))

theorem isAsciiIdentifier_importable (hsome : segment ≠ "")
    (hchars : ∀ c ∈ segment.toList, IsNameChar c) (hdot : '.' ∉ segment.toList) :
    isAsciiIdentifier (importable segment) = true := by
  apply isAsciiIdentifier_of (importable_ne_empty hsome)
  · intro c hc
    rcases mem_importable hc with hunderscore | hmem
    · exact .inr hunderscore
    · rcases hchars c hmem with hword | hunderscore | rfl | rfl
      · exact .inl hword
      · exact .inr hunderscore
      · exact absurd hc (dash_notMem_importable segment)
      · exact absurd hmem hdot
  · exact fun c hc ↦ isDigit_head_importable hc

/-! ## Module paths -/

theorem stripLead_subset (text lead : String) : (stripLead text lead).toList ⊆ text.toList := by
  unfold stripLead dropLeading
  rw [String.toList_ofList]
  split
  · exact List.drop_subset _ _
  · exact List.Subset.refl _

theorem subset_of_mem_splitParts {separator : Char} {text part : String}
    (h : part ∈ splitParts separator text) : part.toList ⊆ text.toList := by
  obtain ⟨chars, hchars, rfl⟩ := List.mem_map.mp h
  rw [String.toList_ofList]
  exact (sublist_of_mem_splitAt hchars).subset

/-- Module paths can be imported, and no segment is repaired twice. -/
theorem modulePath_importable :
    (∀ name lead : String, (∀ c ∈ name.toList, IsNameChar c) →
      ∀ segment ∈ modulePath .python lead name,
        segment ≠ "" ∧ isAsciiIdentifier segment = true ∧ segment ∉ reservedWords) ∧
      ∀ segment : String, importable (importable segment) = importable segment := by
  refine ⟨fun name lead hname segment hsegment ↦ ?_, importable_importable⟩
  obtain ⟨part, hpart, rfl⟩ := List.mem_map.mp hsegment
  obtain ⟨hsome, hdot⟩ := isSegment_of_mem_parts hpart
  have hchars : ∀ c ∈ part.toList, IsNameChar c := by
    intro c hc
    have hstripped := subset_of_mem_splitParts (List.mem_of_mem_filter hpart) hc
    exact hname c (stripLead_subset name lead hstripped)
  exact ⟨importable_ne_empty hsome, isAsciiIdentifier_importable hsome hchars hdot,
    importable_notMem_reservedWords part⟩

/-- The lead ends inside a segment, a dot is doubled, and every repair is made. -/
theorem modulePath_importable_brokenName :
    (∀ c ∈ "io.k8s..class.1st-beta.-".toList, IsNameChar c) ∧
      modulePath .python "io.k" "io.k8s..class.1st-beta.-" = ["_8s", "class_", "_1st_beta", "_"] ∧
      ∀ segment ∈ modulePath .python "io.k" "io.k8s..class.1st-beta.-",
        segment ≠ "" ∧ isAsciiIdentifier segment = true ∧ segment ∉ reservedWords :=
  have hchecked : "io.k8s..class.1st-beta.-".toList.all
      (fun c ↦ decide (IsNameChar c)) = true := by decide
  have hname : ∀ c ∈ "io.k8s..class.1st-beta.-".toList, IsNameChar c :=
    fun c hc ↦ of_decide_eq_true (List.all_eq_true.mp hchecked c hc)
  ⟨hname, by decide +kernel, modulePath_importable.1 _ _ hname⟩

end SchemaModules.Naming
