import SchemaModules.Proofs.ClassNames
import SchemaModules.Proofs.ModulePaths

/-!
# ASCII identifiers

Identifiers of ASCII letters, digits and underscores. Nothing separates words in them, and of the
repairs that make a segment importable they need only the one of reserved words. A name whose parts
between dots are identifiers has a short class name that is no longer than the whole one.
-/

namespace SchemaModules.Naming

open Text

variable {name part : String} {c : Char}

/-- A letter or an underscore, then letters, digits and underscores, all of them ASCII. -/
def isAsciiIdentifier (text : String) : Bool :=
  match text.toList with
  | [] => false
  | first :: rest =>
    (first.isAlpha || first = '_') && rest.all fun c => c.isAlphanum || c = '_'

/-- The parts of a name between its dots are identifiers. -/
def HasIdentifiers (name : String) : Prop :=
  ∀ part ∈ splitParts '.' name, isAsciiIdentifier part = true

instance (name : String) : Decidable (HasIdentifiers name) :=
  inferInstanceAs (Decidable (∀ part ∈ splitParts '.' name, _))

theorem isAscii_of_isAlphanum (h : c.isAlphanum = true ∨ c = '_') : IsAscii c := by
  rcases h with h | rfl
  · have hbound : c.val ≤ 'Z'.val ∨ c.val ≤ 'z'.val ∨ c.val ≤ '9'.val := by
      rcases Bool.or_eq_true_iff.mp h with halpha | hdigit
      · rcases Bool.or_eq_true_iff.mp halpha with hupper | hlower
        · exact .inl (of_decide_eq_true hupper).2
        · exact .inr (.inl (of_decide_eq_true (Bool.and_eq_true_iff.mp hlower).2))
      · exact .inr (.inr (of_decide_eq_true (Bool.and_eq_true_iff.mp hdigit).2))
    rcases hbound with hle | hle | hle <;>
      exact Nat.lt_of_le_of_lt (UInt32.le_iff_toNat_le.mp hle) (by decide)
  · decide

/-- What the characters of an identifier are like. -/
theorem of_mem_isAsciiIdentifier (h : isAsciiIdentifier part = true) (hc : c ∈ part.toList) :
    c.isAlphanum = true ∨ c = '_' := by
  rw [isAsciiIdentifier] at h
  split at h
  · next hnil =>
    rw [hnil] at hc
    cases hc
  · next first rest hcons =>
    simp only [Bool.and_eq_true, Bool.or_eq_true, decide_eq_true_eq, List.all_eq_true] at h
    rw [hcons] at hc
    rcases List.mem_cons.mp hc with rfl | hrest
    · exact h.1.imp_left fun halpha ↦ by simp [Char.isAlphanum, halpha]
    · exact h.2 c hrest

theorem separatesWords_of_mem (h : isAsciiIdentifier part = true) (hc : c ∈ part.toList) :
    separatesWords c = false := by
  have hno : ∀ c, separatesWords c = true → ¬(c.isAlphanum = true ∨ c = '_') := by
    intro c hc
    simp only [separatesWords, Bool.or_eq_true, decide_eq_true_eq] at hc
    rcases hc with rfl | rfl <;> decide
  exact Bool.eq_false_iff.mpr fun hseparates ↦ hno c hseparates (of_mem_isAsciiIdentifier h hc)

theorem HasIdentifiers.isAscii (h : HasIdentifiers name) : ∀ c ∈ name.toList, IsAscii c := by
  intro c hc
  by_cases hdot : c = '.'
  · rw [hdot]
    decide
  · obtain ⟨chars, hchars, hmem⟩ := exists_mem_splitAt hc hdot
    have hpart := h _ (List.mem_map_of_mem hchars)
    exact isAscii_of_isAlphanum (of_mem_isAsciiIdentifier hpart (by simpa using hmem))

theorem shortClassName_mem (name : String) : shortClassName name ∈ splitParts '.' name := by
  have hsome : splitParts '.' name ≠ [] := by
    rw [splitParts, splitAt_eq_splitOn]
    simp [List.splitOn_ne_nil]
  rw [shortClassName, List.getLast?_eq_some_getLast hsome, Option.getD_some]
  exact List.getLast_mem hsome

/-- The short name of a class is no longer than the whole one. -/
theorem HasIdentifiers.length_shortClassName_le (h : HasIdentifiers name) :
    (shortClassName name).length ≤ (className name).length := by
  obtain ⟨chars, hchars, hshort⟩ := List.mem_map.mp (shortClassName_mem name)
  have hkept : chars.filter (!separatesWords ·) = chars := by
    refine List.filter_eq_self.mpr fun c hc ↦ ?_
    rw [separatesWords_of_mem (h _ (shortClassName_mem name)) (by rw [← hshort]; simpa using hc)]
    rfl
  have hsublist := (sublist_of_mem_splitAt hchars).filter (!separatesWords ·)
  rw [hkept] at hsublist
  rw [length_className h.isAscii, ← hshort, String.length_ofList]
  exact hsublist.length_le

theorem isAsciiIdentifier_of {text : String} (hsome : text ≠ "")
    (hchars : ∀ c ∈ text.toList, c.isAlphanum = true ∨ c = '_')
    (hdigit : ∀ c ∈ text.toList.head?, isDigit c = false) : isAsciiIdentifier text = true := by
  have hnil : text.toList ≠ [] := by simpa using hsome
  obtain ⟨first, rest, htext⟩ := List.exists_cons_of_ne_nil hnil
  rw [htext, List.forall_mem_cons] at hchars
  obtain ⟨hfirst, hrest⟩ := hchars
  have hletter : first.isAlpha = true ∨ first = '_' := by
    have hascii : IsAscii first := isAscii_of_isAlphanum hfirst
    have hno : isDigit first = false := hdigit first (by rw [htext]; rfl)
    exact of_isAscii (p := fun c ↦ c.isAlphanum = true ∨ c = '_' → isDigit c = false →
      c.isAlpha = true ∨ c = '_') hascii (by decide +kernel) hfirst hno
  rw [isAsciiIdentifier, htext]
  simpa using And.intro hletter hrest

theorem dashesToUnderscores_of_isAsciiIdentifier (h : isAsciiIdentifier part = true) :
    dashesToUnderscores part.toList = part.toList := by
  apply dashesToUnderscores_eq_self
  intro hdash
  exact absurd (separatesWords_of_mem h hdash) (by decide)

theorem guardDigit_of_isAsciiIdentifier (h : isAsciiIdentifier part = true) :
    guardDigit part.toList = part.toList := by
  rw [isAsciiIdentifier] at h
  split at h
  · next hnil => rw [hnil, guardDigit]
  · next first rest hcons =>
    have hfirst : first.isAlpha = true ∨ first = '_' := by
      simpa using (Bool.and_eq_true_iff.mp h).1
    have hascii : IsAscii first :=
      isAscii_of_isAlphanum (hfirst.imp_left fun halpha ↦ by simp [Char.isAlphanum, halpha])
    have hdigit : isDigit first = false :=
      of_isAscii (p := fun c ↦ c.isAlpha = true ∨ c = '_' → isDigit c = false) hascii
        (by decide +kernel) hfirst
    rw [hcons]
    exact guardDigit_eq_self (by simpa using hdigit)

theorem importable_of_isAsciiIdentifier (h : isAsciiIdentifier part = true) :
    importable part = guardReserved part := by
  rw [importable, dashesToUnderscores_of_isAsciiIdentifier h, guardDigit_of_isAsciiIdentifier h,
    String.ofList_toList]

theorem length_importable_le (segment : String) :
    (importable segment).length ≤ segment.length + 2 := by
  -- One character may come in front of a digit and one behind a reserved word.
  have hguarded :
      (guardDigit (dashesToUnderscores segment.toList)).length ≤ segment.length + 1 := by
    rcases guardDigit_eq (dashesToUnderscores segment.toList) with heq | heq <;>
      rw [heq] <;> simp [dashesToUnderscores, String.length_toList]
  rcases guardReserved_eq (String.ofList (guardDigit (dashesToUnderscores segment.toList))) with
    heq | heq <;> rw [importable, heq]
  · rw [String.length_ofList]
    omega
  · rw [String.length_append, String.length_ofList]
    have hend : "_".length = 1 := rfl
    omega

end SchemaModules.Naming
