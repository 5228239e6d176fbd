import SchemaModules.Naming.Names

/-!
# Class names

The class name of an ASCII name joins the runs of characters between dots and dashes, the first
character of each run in upper case. It keeps all other characters and thereby the length.
-/

namespace SchemaModules.Naming

open Text

variable {c : Char} {name : String} {text : List Char} {isSeparator : Char → Bool}

/-! ## Case of ASCII characters -/

def IsAscii (c : Char) : Prop := c.toNat < 128

instance : DecidablePred IsAscii := fun c ↦ inferInstanceAs (Decidable (c.toNat < 128))

/-- A property of all ASCII characters is checked one by one. -/
theorem of_isAscii {p : Char → Prop} (h : IsAscii c) (hall : ∀ code < 128, p (Char.ofNat code)) :
    p c := by
  have hcode := hall c.toNat h
  rwa [Char.ofNat_toNat] at hcode

/-- Only the first run of a mapping of case is about ASCII characters. -/
theorem mapCase_of_isAscii {run : CaseRun} {others : List CaseRun}
    {expansions : List (Nat × List Nat)} (hothers : ∀ other ∈ others, 128 ≤ other.first)
    (hexpansions : ∀ expansion ∈ expansions, 128 ≤ expansion.1) (h : IsAscii c) :
    mapCase (run :: others) expansions c =
      if run.covers c.toNat then [Char.ofNat (c.toNat + run.shift).toNat] else [c] := by
  have hascii : c.toNat < 128 := h
  have hlookup : expansions.lookup c.toNat = none := by
    refine List.lookup_eq_none_iff.mpr fun expansion hexpansion ↦ bne_iff_ne.mpr ?_
    have hfar := hexpansions expansion hexpansion
    omega
  have hnone : others.find? (·.covers c.toNat) = none := by
    refine List.find?_eq_none.mpr fun other hother ↦ ?_
    have hfar := hothers other hother
    have hbefore : ¬other.first ≤ c.toNat := by omega
    simp [CaseRun.covers, hbefore]
  rw [mapCase, hlookup, List.find?_cons]
  cases run.covers c.toNat with
  | true => rfl
  | false => simp [hnone]

theorem upperChar_of_isAscii (h : IsAscii c) : upperChar c = [c.toUpper] := by
  have hruns : upperRuns = ⟨0x61, 0x7A, 1, -32⟩ :: upperRuns.tail := rfl
  rw [upperChar, hruns, mapCase_of_isAscii (by decide +kernel) (by decide +kernel) h]
  exact of_isAscii (p := fun c ↦ (if CaseRun.covers ⟨0x61, 0x7A, 1, -32⟩ c.toNat then
    [Char.ofNat (c.toNat + (-32 : Int)).toNat] else [c]) = [c.toUpper]) h (by decide +kernel)

theorem lowerChar_of_isAscii (h : IsAscii c) : lowerChar c = [c.toLower] := by
  have hruns : lowerRuns = ⟨0x41, 0x5A, 1, 32⟩ :: lowerRuns.tail := rfl
  rw [lowerChar, hruns, mapCase_of_isAscii (by decide +kernel) (by decide +kernel) h]
  exact of_isAscii (p := fun c ↦ (if CaseRun.covers ⟨0x41, 0x5A, 1, 32⟩ c.toNat then
    [Char.ofNat (c.toNat + (32 : Int)).toNat] else [c]) = [c.toLower]) h (by decide +kernel)

/-- Lower case before upper case changes nothing. -/
theorem upperChar_toLower (h : IsAscii c) : upperChar c.toLower = upperChar c := by
  obtain ⟨hlower, hupper⟩ : IsAscii c.toLower ∧ c.toLower.toUpper = c.toUpper :=
    of_isAscii (p := fun c ↦ IsAscii c.toLower ∧ c.toLower.toUpper = c.toUpper) h
      (by decide +kernel)
  rw [upperChar_of_isAscii hlower, upperChar_of_isAscii h, hupper]

theorem isLower_toUpper (h : IsAscii c) : c.toUpper.isLower = false :=
  of_isAscii (p := fun c ↦ c.toUpper.isLower = false) h (by decide +kernel)

theorem upperFirst_lowerFirst_append (h : ∀ c ∈ text, IsAscii c) (htext : text ≠ [])
    (others : List Char) : upperFirst (lowerFirst text ++ others) = upperFirst text ++ others := by
  obtain ⟨c, rest, rfl⟩ := List.exists_cons_of_ne_nil htext
  have hc : IsAscii c := h c List.mem_cons_self
  rw [lowerFirst, lowerChar_of_isAscii hc, List.singleton_append, List.cons_append, upperFirst,
    upperChar_toLower hc, upperFirst, List.append_assoc]

theorem length_upperFirst (h : ∀ c ∈ text, IsAscii c) : (upperFirst text).length = text.length := by
  cases text with
  | nil => rfl
  | cons c rest =>
    rw [upperFirst, upperChar_of_isAscii (h c List.mem_cons_self), List.singleton_append,
      List.length_cons, List.length_cons]

/-! ## Class names -/

/-- Segments keep all characters but the separators. -/
theorem flatten_segments (isSeparator : Char → Bool) (text : List Char) :
    (segments isSeparator text).flatten = text.filter (!isSeparator ·) := by
  fun_induction segments isSeparator text with
  | case1 => rfl
  | case2 c rest hc ih => rw [ih, List.filter_cons_of_neg (by simpa using hc)]
  | case3 c rest hc ih =>
    have hword : (rest.takeWhile (!isSeparator ·)).filter (!isSeparator ·) =
        rest.takeWhile (!isSeparator ·) :=
      List.filter_eq_self.mpr fun c hc ↦ List.all_eq_true.mp List.all_takeWhile c hc
    have hrest := congrArg (List.filter (!isSeparator ·))
      (List.takeWhile_append_dropWhile (p := (!isSeparator ·)) (l := rest))
    rw [List.filter_append, hword] at hrest
    rw [List.flatten_cons, ih, List.filter_cons_of_pos (by simpa using hc), List.cons_append, hrest]

theorem ne_nil_of_mem_segments {segment : List Char} (h : segment ∈ segments isSeparator text) :
    segment ≠ [] := by
  fun_induction segments isSeparator text with
  | case1 => cases h
  | case2 c rest hc ih => exact ih h
  | case3 c rest hc ih =>
    rcases List.mem_cons.mp h with rfl | hrest
    · exact List.cons_ne_nil _ _
    · exact ih hrest

theorem mem_of_mem_segments {segment : List Char} (h : segment ∈ segments isSeparator text)
    (hc : c ∈ segment) : c ∈ text := by
  have hflat : c ∈ (segments isSeparator text).flatten := List.mem_flatten.mpr ⟨segment, h, hc⟩
  rw [flatten_segments] at hflat
  exact (List.mem_filter.mp hflat).1

theorem toList_className (h : ∀ c ∈ name.toList, IsAscii c) :
    (className name).toList = (segments separatesWords name.toList).flatMap upperFirst := by
  rw [className, String.toList_ofList, camelCase]
  cases hsegments : segments separatesWords name.toList with
  | nil => rfl
  | cons first others =>
    have hfirst : first ∈ segments separatesWords name.toList := hsegments ▸ List.mem_cons_self
    exact upperFirst_lowerFirst_append (fun c hc ↦ h c (mem_of_mem_segments hfirst hc))
      (ne_nil_of_mem_segments hfirst) _

theorem length_className (h : ∀ c ∈ name.toList, IsAscii c) :
    (className name).length = (name.toList.filter (!separatesWords ·)).length := by
  have hsegments : ∀ segment ∈ segments separatesWords name.toList,
      (upperFirst segment).length = segment.length := fun segment hsegment ↦
    length_upperFirst fun c hc ↦ h c (mem_of_mem_segments hsegment hc)
  rw [← String.length_toList, toList_className h, ← flatten_segments, List.length_flatMap,
    List.length_flatten, List.map_congr_left hsegments]

/-- No class name begins with a small letter. -/
theorem isLower_head_className (h : ∀ c ∈ name.toList, IsAscii c)
    (hhead : (className name).toList.head? = some c) : c.isLower = false := by
  rw [toList_className h] at hhead
  cases hsegments : segments separatesWords name.toList with
  | nil =>
    rw [hsegments] at hhead
    cases hhead
  | cons first others =>
    have hfirst : first ∈ segments separatesWords name.toList := hsegments ▸ List.mem_cons_self
    obtain ⟨d, rest, rfl⟩ := List.exists_cons_of_ne_nil (ne_nil_of_mem_segments hfirst)
    have hd : IsAscii d := h d (mem_of_mem_segments hfirst List.mem_cons_self)
    rw [hsegments, List.flatMap_cons, upperFirst, upperChar_of_isAscii hd] at hhead
    obtain rfl := Option.some.inj hhead
    exact isLower_toUpper hd

end SchemaModules.Naming
