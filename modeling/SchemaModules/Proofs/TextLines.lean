import Mathlib.Data.List.Basic
import SchemaModules.Text.Blank
import SchemaModules.Text.Split

/-!
# Lines and blank ends

Every line break is blank, so a text without blanks at its end has no break there either. Such a
text is a single line exactly if it holds no break at all.
-/

namespace SchemaModules.Text

variable {text line read rest : List Char} {c : Char}

/-! ## Blank ends -/

theorem isBlank_of_isLineBreak (h : isLineBreak c = true) : isBlank c = true := by
  simp only [isLineBreak, isBlank, Bool.or_eq_true, Bool.and_eq_true, decide_eq_true_eq,
    beq_iff_eq] at h ⊢
  omega

theorem isLineBreak_of_not_blank (h : isBlank c = false) : isLineBreak c = false := by
  by_contra hbreak
  rw [isBlank_of_isLineBreak (by simpa using hbreak)] at h
  cases h

theorem getLast?_dropEndWhile {drop : Char → Bool} (h : c ∈ (dropEndWhile drop text).getLast?) :
    drop c = false := by
  rw [dropEndWhile, List.getLast?_reverse] at h
  have hhead := List.head?_dropWhile_not drop text.reverse
  rw [h] at hhead
  simpa using hhead

theorem dropEndWhile_concat_of_pos {drop : Char → Bool} (h : drop c = true) (text : List Char) :
    dropEndWhile drop (text ++ [c]) = dropEndWhile drop text := by
  simp [dropEndWhile, h]

theorem dropEndWhile_eq_self {drop : Char → Bool} (h : ∀ c ∈ text.getLast?, drop c = false) :
    dropEndWhile drop text = text := by
  rcases List.eq_nil_or_concat' text with rfl | ⟨before, last, rfl⟩
  · rfl
  · have hlast : drop last = false := h last List.getLast?_concat
    simp [dropEndWhile, hlast]

theorem stripEnd_cons (h : isBlank c = false) (text : List Char) :
    stripEnd (c :: text) = c :: stripEnd text := by
  have hkept : (text.reverse ++ [c]).dropWhile isBlank = text.reverse.dropWhile isBlank ++ [c] := by
    rw [List.dropWhile_append]
    split
    · next hnone =>
      rw [List.isEmpty_iff.mp hnone, List.dropWhile_cons_of_neg (by simp [h]), List.nil_append]
    · rfl
  rw [stripEnd, dropEndWhile, List.reverse_cons, hkept, List.reverse_append]
  rfl

theorem stripEnd_subset (text : List Char) : stripEnd text ⊆ text := by
  intro c hc
  exact List.mem_reverse.mp ((List.dropWhile_suffix isBlank).subset (List.mem_reverse.mp hc))

/-! ## Lines -/

theorem isLineBreak_of_mem_splitLinesFrom
    (hread : ∀ c ∈ read, isLineBreak c = false) (hline : line ∈ splitLinesFrom read text)
    (hc : c ∈ line) : isLineBreak c = false := by
  fun_induction splitLinesFrom read text with
  | case1 read hempty => cases hline
  | case2 read hsome =>
    obtain rfl := List.mem_singleton.mp hline
    exact hread c (List.mem_reverse.mp hc)
  | case3 read rest ih | case4 read d rest hpair hbreak ih =>
    rcases List.mem_cons.mp hline with rfl | hrest
    · exact hread c (List.mem_reverse.mp hc)
    · exact ih (by simp) hrest
  | case5 read d rest hpair hbreak ih =>
    exact ih (List.forall_mem_cons.mpr ⟨by simpa using hbreak, hread⟩) hline

theorem splitLinesFrom_eq_nil (h : splitLinesFrom read text = []) : read = [] ∧ text = [] := by
  fun_induction splitLinesFrom read text with
  | case1 read hempty => exact ⟨List.isEmpty_iff.mp hempty, rfl⟩
  | case2 | case3 | case4 => cases h
  | case5 read c rest hpair hbreak ih => cases (ih h).1

/-- A line is read on without breaks. -/
theorem splitLinesFrom_append (hline : ∀ c ∈ line, isLineBreak c = false) (read rest : List Char) :
    splitLinesFrom read (line ++ rest) = splitLinesFrom (line.reverse ++ read) rest := by
  induction line generalizing read with
  | nil => rfl
  | cons c line ih =>
    obtain ⟨hc, hline⟩ := List.forall_mem_cons.mp hline
    have hreturn : c ≠ '\r' := by
      rintro rfl
      revert hc
      decide
    rw [List.cons_append, splitLinesFrom, hc, if_neg (by decide), ih hline]
    · simp
    · simp [hreturn]

theorem splitLines_of_line (hline : ∀ c ∈ line, isLineBreak c = false) :
    splitLines line = if line = [] then [] else [line] := by
  have hread := splitLinesFrom_append hline [] []
  rw [List.append_nil, List.append_nil] at hread
  rw [splitLines, hread, splitLinesFrom]
  by_cases hempty : line = [] <;> simp [hempty]

/-- A break of two characters ends one line. -/
theorem splitLines_append_pair (hline : ∀ c ∈ line, isLineBreak c = false) (rest : List Char) :
    splitLines (line ++ '\r' :: '\n' :: rest) = line :: splitLines rest := by
  rw [splitLines, splitLinesFrom_append hline, splitLinesFrom]
  simp [splitLines]

theorem splitLines_append_break (hline : ∀ c ∈ line, isLineBreak c = false)
    (hbreak : isLineBreak c = true) (hpair : ∀ rest', c = '\r' → rest ≠ '\n' :: rest') :
    splitLines (line ++ c :: rest) = line :: splitLines rest := by
  rw [splitLines, splitLinesFrom_append hline, splitLinesFrom, if_pos hbreak]
  · simp [splitLines]
  · exact hpair

/-- A text of at most one line that does not end in a break has none. -/
theorem no_break_of_length_splitLines (hend : ∀ c ∈ text.getLast?, isLineBreak c = false)
    (h : (splitLines text).length ≤ 1) : ∀ c ∈ text, isLineBreak c = false := by
  -- A second line is missing only behind a break at the end.
  have hlast {line rest : List Char} (h : (line :: splitLinesFrom [] rest).length ≤ 1) :
      rest = [] := by
    have hnone : splitLinesFrom [] rest = [] := by simpa using h
    exact (splitLinesFrom_eq_nil hnone).2
  suffices hfrom : ∀ read, (splitLinesFrom read text).length ≤ 1 →
      ∀ c ∈ text, isLineBreak c = false from hfrom [] h
  clear h
  intro read h
  fun_induction splitLinesFrom read text with
  | case1 | case2 => simp
  | case3 read rest ih =>
    obtain rfl := hlast h
    cases hend '\n' rfl
  | case4 read c rest hpair hbreak ih =>
    obtain rfl := hlast h
    rw [hend c rfl] at hbreak
    cases hbreak
  | case5 read c rest hpair hbreak ih =>
    rw [List.forall_mem_cons]
    refine ⟨by simpa using hbreak, ih ?_ h⟩
    intro last hmem
    apply hend
    rw [List.getLast?_cons, Option.mem_def.mp hmem]
    rfl

theorem toList_unlines_cons (line : String) (lines : List String) (rest : List Char) :
    (unlines (line :: lines)).toList ++ rest =
      line.toList ++ '\n' :: ((unlines lines).toList ++ rest) := by
  simp [unlines, String.join_cons]

/-- Lines that are joined with another line end behind them. -/
theorem join_lines (line : String) (lines : List String) :
    join "\n" (line :: lines) ++ "\n" = unlines (line :: lines) := by
  induction lines generalizing line with
  | nil => simp [join, unlines, String.join_cons]
  | cons next lines ih =>
    have hjoin : join "\n" (line :: next :: lines) = line ++ "\n" ++ join "\n" (next :: lines) := by
      rw [join, String.intercalate_cons_cons, join]
    rw [hjoin, String.append_assoc, ih]
    simp [unlines, String.join_cons, String.append_assoc]

end SchemaModules.Text
