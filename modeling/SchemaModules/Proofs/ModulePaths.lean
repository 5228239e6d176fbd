import Mathlib.Data.List.Basic
import SchemaModules.Files.Path
import SchemaModules.Naming.Names

/-!
# Segments of module paths

The segments of a module path are never empty and hold no dots. As long as they hold no slashes
either, they are the parts of the path of a file.
-/

namespace SchemaModules

open Naming Text

variable {language : Language} {lead name segment : String}

/-! ## Segments -/

theorem splitAt_eq_splitOn (separator : Char) (text : List Char) :
    splitAt separator text = text.splitOn separator := by
  induction text with
  | nil => rfl
  | cons c rest ih =>
    rw [splitAt, ih, List.splitOn_cons_eq_if_modifyHead]
    by_cases hc : c = separator
    · simp [hc]
    · rw [if_neg hc, if_neg (by simpa using hc)]
      cases hparts : rest.splitOn separator with
      | nil => exact absurd hparts (List.splitOn_ne_nil separator rest)
      | cons part parts => rfl

theorem notMem_of_mem_splitAt {separator : Char} {text part : List Char}
    (h : part ∈ splitAt separator text) : separator ∉ part := by
  induction text generalizing part with
  | nil =>
    obtain rfl := List.mem_singleton.mp h
    exact List.not_mem_nil
  | cons c rest ih =>
    rw [splitAt] at h
    split at h
    · rcases List.mem_cons.mp h with rfl | hrest
      · exact List.not_mem_nil
      · exact ih hrest
    · next hc =>
      cases hparts : splitAt separator rest with
      | nil =>
        rw [hparts] at h
        obtain rfl := List.mem_singleton.mp h
        simpa using Ne.symm hc
      | cons first others =>
        rw [hparts] at h ih
        rcases List.mem_cons.mp h with rfl | hothers
        · simpa [Ne.symm hc] using ih List.mem_cons_self
        · exact ih (List.mem_cons_of_mem _ hothers)

theorem sublist_of_mem_splitAt {separator : Char} {text part : List Char}
    (h : part ∈ splitAt separator text) : part.Sublist text := by
  induction text generalizing part with
  | nil =>
    obtain rfl := List.mem_singleton.mp h
    exact .slnil
  | cons c rest ih =>
    rw [splitAt] at h
    split at h
    · rcases List.mem_cons.mp h with rfl | hrest
      · exact List.nil_sublist _
      · exact (ih hrest).cons c
    · cases hparts : splitAt separator rest with
      | nil =>
        rw [hparts] at h
        obtain rfl := List.mem_singleton.mp h
        exact (List.nil_sublist rest).cons_cons c
      | cons first others =>
        rw [hparts] at h ih
        rcases List.mem_cons.mp h with rfl | hothers
        · exact (ih List.mem_cons_self).cons_cons c
        · exact (ih (List.mem_cons_of_mem _ hothers)).cons c

theorem exists_mem_splitAt {separator c : Char} {text : List Char} (hmem : c ∈ text)
    (hne : c ≠ separator) : ∃ part ∈ splitAt separator text, c ∈ part := by
  induction text with
  | nil => cases hmem
  | cons first rest ih =>
    rw [splitAt]
    by_cases hfirst : first = separator
    · have hrest := (List.mem_cons.mp hmem).resolve_left (hfirst ▸ hne)
      obtain ⟨part, hpart, hc⟩ := ih hrest
      rw [if_pos hfirst]
      exact ⟨part, List.mem_cons_of_mem _ hpart, hc⟩
    · rw [if_neg hfirst]
      cases hparts : splitAt separator rest with
      | nil =>
        rw [hparts] at ih
        have hrest : c ∉ rest := fun hrest ↦ by simpa using ih hrest
        obtain rfl := (List.mem_cons.mp hmem).resolve_right hrest
        exact ⟨[c], by simp⟩
      | cons last parts =>
        rw [hparts] at ih
        rcases List.mem_cons.mp hmem with rfl | hrest
        · exact ⟨c :: last, by simp⟩
        · obtain ⟨part, hpart, hc⟩ := ih hrest
          rcases List.mem_cons.mp hpart with rfl | hlater
          · exact ⟨first :: part, by simp, List.mem_cons_of_mem _ hc⟩
          · exact ⟨part, by simp [hlater], hc⟩

/-- What a segment of a module path is like. -/
structure IsSegment (segment : String) : Prop where
  ne_empty : segment ≠ ""
  no_dot : '.' ∉ segment.toList

instance : DecidablePred IsSegment := fun segment ↦
  decidable_of_iff (segment ≠ "" ∧ '.' ∉ segment.toList)
    ⟨fun h ↦ ⟨h.1, h.2⟩, fun h ↦ ⟨h.ne_empty, h.no_dot⟩⟩

theorem mem_dashesToUnderscores {chars : List Char} {c : Char}
    (h : c ∈ dashesToUnderscores chars) : c = '_' ∨ c ∈ chars := by
  obtain ⟨d, hd, rfl⟩ := List.mem_map.mp h
  split
  · exact .inl rfl
  · exact .inr hd

theorem guardDigit_eq (chars : List Char) :
    guardDigit chars = chars ∨ guardDigit chars = '_' :: chars := by
  cases chars with
  | nil => exact .inl rfl
  | cons c rest =>
    rw [guardDigit]
    split
    · exact .inr rfl
    · exact .inl rfl

theorem guardReserved_eq (identifier : String) :
    guardReserved identifier = identifier ∨ guardReserved identifier = identifier ++ "_" := by
  rw [guardReserved]
  split
  · exact .inr rfl
  · exact .inl rfl

theorem dashesToUnderscores_eq_self {chars : List Char} (h : '-' ∉ chars) :
    dashesToUnderscores chars = chars := by
  have hkept : ∀ c ∈ chars, (if c = '-' then '_' else c) = c := by
    intro c hc
    apply if_neg
    rintro rfl
    exact h hc
  exact (List.map_congr_left hkept).trans (List.map_id _)

theorem guardDigit_eq_self {chars : List Char} (h : ∀ c ∈ chars.head?, isDigit c = false) :
    guardDigit chars = chars := by
  cases chars with
  | nil => rfl
  | cons c rest => rw [guardDigit, h c rfl, if_neg Bool.false_ne_true]

/-- An importable segment begins with the guarded characters. Only underscores follow. -/
theorem exists_toList_importable (segment : String) : ∃ behind, (∀ c ∈ behind, c = '_') ∧
    (importable segment).toList =
      guardDigit (dashesToUnderscores segment.toList) ++ behind := by
  rcases guardReserved_eq (String.ofList (guardDigit (dashesToUnderscores segment.toList))) with
    heq | heq
  · exact ⟨[], nofun, by rw [importable, heq, String.toList_ofList, List.append_nil]⟩
  · refine ⟨['_'], by simp, ?_⟩
    rw [importable, heq, String.toList_append, String.toList_ofList]
    rfl

/-- What the guards add are underscores. -/
theorem mem_importable_cases {c : Char} (h : c ∈ (importable segment).toList) :
    c = '_' ∨ c ∈ dashesToUnderscores segment.toList := by
  obtain ⟨behind, hbehind, htext⟩ := exists_toList_importable segment
  rw [htext, List.mem_append] at h
  rcases h with hguarded | hlast
  · rcases guardDigit_eq (dashesToUnderscores segment.toList) with heq | heq
    · exact .inr (heq ▸ hguarded)
    · rw [heq] at hguarded
      exact List.mem_cons.mp hguarded
  · exact .inl (hbehind c hlast)

/-- An importable segment holds the characters of the given one and underscores. -/
theorem mem_importable {c : Char} (h : c ∈ (importable segment).toList) :
    c = '_' ∨ c ∈ segment.toList :=
  (mem_importable_cases h).elim .inl mem_dashesToUnderscores

theorem importable_ne_empty (h : segment ≠ "") : importable segment ≠ "" := by
  have hguarded : guardDigit (dashesToUnderscores segment.toList) ≠ [] := by
    rcases guardDigit_eq (dashesToUnderscores segment.toList) with heq | heq <;> rw [heq]
    · simpa [dashesToUnderscores] using h
    · exact List.cons_ne_nil _ _
  obtain ⟨behind, -, htext⟩ := exists_toList_importable segment
  rw [← String.toList_inj.ne, htext]
  exact List.append_ne_nil_of_left_ne_nil hguarded behind

theorem IsSegment.importable (h : IsSegment segment) : IsSegment (importable segment) where
  ne_empty := importable_ne_empty h.ne_empty
  no_dot hdot := (mem_importable hdot).elim (by decide) h.no_dot

theorem isSegment_of_mem_parts {part text : String}
    (h : part ∈ (splitParts '.' text).filter (!·.isEmpty)) : IsSegment part := by
  obtain ⟨hmem, hsome⟩ := List.mem_filter.mp h
  obtain ⟨chars, hchars, rfl⟩ := List.mem_map.mp hmem
  exact ⟨by simpa using hsome, by simpa using notMem_of_mem_splitAt hchars⟩

theorem isSegment_of_mem_modulePath (h : segment ∈ modulePath language lead name) :
    IsSegment segment := by
  cases language with
  | python =>
    obtain ⟨part, hpart, rfl⟩ := List.mem_map.mp h
    exact (isSegment_of_mem_parts hpart).importable
  | typescript => exact isSegment_of_mem_parts h

/-! ## Paths -/

/-- Texts that each stand for one part of a path. -/
def IsPart (text : String) : Prop := text ≠ "" ∧ text ≠ "." ∧ '/' ∉ text.toList

instance (text : String) : Decidable (IsPart text) :=
  inferInstanceAs (Decidable (text ≠ "" ∧ text ≠ "." ∧ '/' ∉ text.toList))

theorem splitAt_eq_singleton {separator : Char} {text : List Char} (h : separator ∉ text) :
    splitAt separator text = [text] := by
  induction text with
  | nil => rfl
  | cons c rest ih =>
    obtain ⟨hc, hrest⟩ : separator ≠ c ∧ separator ∉ rest := by simpa using h
    rw [splitAt, if_neg (Ne.symm hc), ih hrest]

theorem ofText_eq {text : String} (h : IsPart text) : Files.Path.ofText text = ⟨"", [text]⟩ := by
  obtain ⟨hempty, hdot, hslash⟩ := h
  have hroot : Files.Path.rootOf text = "" := by
    rw [Files.Path.rootOf]
    split <;> simp_all
  rw [Files.Path.ofText, hroot, splitParts, splitAt_eq_singleton hslash]
  simp [hempty, hdot]

theorem ofTexts_eq {texts : List String} (h : ∀ text ∈ texts, IsPart text) :
    Files.Path.ofTexts texts = ⟨"", texts⟩ := by
  have hfold (before : List String) : texts.foldl (fun path text ↦ path ++ Files.Path.ofText text)
      ⟨"", before⟩ = ⟨"", before ++ texts⟩ := by
    induction texts generalizing before with
    | nil => simp
    | cons first rest ih =>
      rw [List.foldl_cons, ofText_eq (h first List.mem_cons_self), List.append_cons,
        ← ih fun text htext ↦ h text (List.mem_cons_of_mem _ htext)]
      rfl
  exact hfold []

end SchemaModules
