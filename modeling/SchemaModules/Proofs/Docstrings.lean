import Mathlib.Data.List.Induction
import SchemaModules.Proofs.Annotations
import SchemaModules.Proofs.QuotedTexts
import SchemaModules.Proofs.TextLines
import SchemaModules.Target.PythonLiteral

/-!
# Docstrings

A reader of texts between three quotes stops at the first three quotes in a row of which no
backslash goes before the first. From a docstring it reads the text as it was laid out in lines, and
stops at the end. Escaping goes well with all steps of the layout, so a docstring is the escaped
form of one text.
-/

namespace SchemaModules.Python

open Text

variable {text front rest line indent : List Char} {c : Char}

/-! ## The reader -/

/-- The text up to the closing quotes, and what follows them. A backslash goes before another one or
before a quote, and before nothing else. -/
def readTripleQuoted : List Char → Option (List Char × List Char)
  | [] => none
  | '"' :: '"' :: '"' :: rest => some ([], rest)
  | '\\' :: c :: rest =>
    if c = '\\' || c = '"' then afterChar c (readTripleQuoted rest) else none
  | c :: rest => if c = '\\' then none else afterChar c (readTripleQuoted rest)

theorem readTripleQuoted_of_escape (hc : c = '\\' ∨ c = '"') (rest : List Char) :
    readTripleQuoted ('\\' :: c :: rest) = afterChar c (readTripleQuoted rest) := by
  rw [readTripleQuoted, if_pos (by simpa using hc)]

theorem readTripleQuoted_of_unescaped (hescape : c ≠ '\\')
    (hopen : ∀ others, c = '"' → rest ≠ '"' :: '"' :: others) :
    readTripleQuoted (c :: rest) = afterChar c (readTripleQuoted rest) := by
  rw [readTripleQuoted, if_neg hescape]
  · rintro others rfl rfl
    exact hopen others rfl rfl
  · rintro d others rfl
    exact absurd rfl hescape

/-- Characters that stand for themselves wherever they are. -/
def IsUnescaped (c : Char) : Prop := c ≠ '"' ∧ c ≠ '\\'

instance : DecidablePred IsUnescaped := fun c ↦ inferInstanceAs (Decidable (c ≠ '"' ∧ c ≠ '\\'))

theorem escapeDocstring_cons (hc : IsUnescaped c) (rest : List Char) :
    escapeDocstring (c :: rest) = c :: escapeDocstring rest := by
  obtain ⟨hquote, hescape⟩ := hc
  rw [escapeDocstring] <;> simp [hquote, hescape]

theorem escapeDocstring_append_left (hfront : ∀ c ∈ front, IsUnescaped c) (rest : List Char) :
    escapeDocstring (front ++ rest) = front ++ escapeDocstring rest := by
  induction front with
  | nil => rfl
  | cons c front ih =>
    obtain ⟨hc, hfront⟩ := List.forall_mem_cons.mp hfront
    rw [List.cons_append, escapeDocstring_cons hc, ih hfront, List.cons_append]

/-- Two quotes that begin a joined text stand in its first part or reach into the second. -/
theorem quotes_append {others : List Char} (h : front ++ rest = '"' :: '"' :: others) :
    (∃ more, front = '"' :: '"' :: more) ∨
      (front = [] ∨ front = ['"']) ∧ rest.head? = some '"' := by
  cases front with
  | nil => exact Or.inr ⟨Or.inl rfl, congrArg List.head? h⟩
  | cons first front =>
    obtain ⟨hfirst, htail⟩ := List.cons.inj h
    cases front with
    | nil => exact Or.inr ⟨Or.inr (by rw [hfirst]), congrArg List.head? htail⟩
    | cons second front =>
      obtain ⟨hsecond, -⟩ := List.cons.inj htail
      exact Or.inl ⟨front, by rw [hfirst, hsecond]⟩

/-- No run of quotes goes on behind a character that stands for itself. -/
theorem escapeDocstring_append_cons (hc : IsUnescaped c) (front rest : List Char) :
    escapeDocstring (front ++ c :: rest) = escapeDocstring front ++ c :: escapeDocstring rest := by
  fun_induction escapeDocstring front with
  | case1 => exact escapeDocstring_cons hc rest
  | case2 front ih | case3 front ih => simpa [escapeDocstring] using ih
  | case4 d front hescape hquotes ih =>
    rw [List.cons_append, escapeDocstring, ih, List.cons_append]
    · exact hescape
    · intro others hd happend
      rcases quotes_append happend with ⟨more, hmore⟩ | ⟨-, hhead⟩
      · exact hquotes more hd hmore
      · exact hc.1 (Option.some.inj hhead)

theorem getLast?_escapeDocstring (text : List Char) :
    (escapeDocstring text).getLast? = text.getLast? := by
  fun_induction escapeDocstring text with
  | case1 => rfl
  | case2 rest ih | case3 rest ih | case4 c rest hescape hquotes ih =>
    simp [List.getLast?_cons, ih]

theorem mem_of_mem_escapeDocstring (h : c ∈ escapeDocstring text) : c = '\\' ∨ c ∈ text := by
  fun_induction escapeDocstring text with
  | case1 => cases h
  | case2 rest ih | case3 rest ih | case4 d rest hescape hquotes ih =>
    simp only [List.mem_cons] at h ⊢
    tauto

theorem exists_cons_of_escapeDocstring (hc : IsUnescaped c) (h : escapeDocstring text = c :: rest) :
    ∃ tail, text = c :: tail := by
  revert h
  fun_cases escapeDocstring text with
  | case1 => simp
  | case2 tail | case3 tail => exact fun h ↦ absurd (List.cons.inj h).1.symm hc.2
  | case4 d tail hescape hquotes => exact fun h ↦ ⟨tail, by rw [(List.cons.inj h).1]⟩

/-- An escaped text begins with a quote only if the text does. -/
theorem head?_of_head?_escapeDocstring (h : (escapeDocstring text ++ rest).head? = some '"') :
    (text ++ rest).head? = some '"' := by
  revert h
  fun_cases escapeDocstring text with
  | case1 => exact id
  | case2 tail | case3 tail | case4 c tail hescape hquotes => simp

/-- An escaped text begins with two quotes only if the text does. -/
theorem exists_quotes_of_escapeDocstring {others : List Char}
    (h : escapeDocstring text ++ rest = '"' :: '"' :: others) :
    ∃ more, text ++ rest = '"' :: '"' :: more := by
  revert h
  fun_cases escapeDocstring text with
  | case1 => exact fun h ↦ ⟨others, h⟩
  | case2 tail | case3 tail => simp
  | case4 c tail hescape hquotes =>
    intro h
    obtain ⟨hc, htail⟩ := List.cons.inj h
    have hhead : (tail ++ rest).head? = some '"' :=
      head?_of_head?_escapeDocstring (congrArg List.head? htail)
    obtain ⟨more, hmore⟩ := List.head?_eq_some_iff.mp hhead
    exact ⟨more, by rw [List.cons_append, hmore, hc]⟩

/-- A text is read back from its escaped form, unless a quote at its end meets another one. -/
theorem readTripleQuoted_escapeDocstring (text rest : List Char)
    (hend : text.getLast? = some '"' → rest.head? ≠ some '"') :
    readTripleQuoted (escapeDocstring text ++ rest) =
      (readTripleQuoted rest).map fun (found, after) ↦ (text ++ found, after) := by
  fun_induction escapeDocstring text with
  | case1 => simp
  | case2 tail ih =>
    have htail : tail.getLast? = some '"' → rest.head? ≠ some '"' := fun hlast ↦
      hend (by simp [List.getLast?_cons, hlast])
    rw [List.cons_append, List.cons_append, readTripleQuoted_of_escape (Or.inl rfl), ih htail,
      afterChar]
    simp [Function.comp_def]
  | case3 tail ih =>
    have htail : tail.getLast? = some '"' → rest.head? ≠ some '"' := fun hlast ↦
      hend (by simp [List.getLast?_cons, hlast])
    simp only [List.cons_append]
    rw [readTripleQuoted_of_escape (Or.inr rfl), readTripleQuoted_of_escape (Or.inr rfl),
      readTripleQuoted_of_escape (Or.inr rfl), ih htail, afterChar, afterChar, afterChar]
    simp [Function.comp_def]
  | case4 c tail hescape hquotes ih =>
    have htail : tail.getLast? = some '"' → rest.head? ≠ some '"' := fun hlast ↦
      hend (by simp [List.getLast?_cons, hlast])
    -- Two quotes behind this one would make a run, which is escaped, or reach past the text's end.
    have hopen : ∀ others, c = '"' → escapeDocstring tail ++ rest ≠ '"' :: '"' :: others := by
      rintro others rfl hrun
      obtain ⟨more, hmore⟩ := exists_quotes_of_escapeDocstring hrun
      rcases quotes_append hmore with ⟨more, rfl⟩ | ⟨rfl | rfl, hhead⟩
      · exact hquotes more rfl rfl
      · exact hend rfl hhead
      · exact hend rfl hhead
    rw [List.cons_append, readTripleQuoted_of_unescaped (fun h ↦ hescape h) hopen, ih htail,
      afterChar]
    simp [Function.comp_def]

theorem isUnescaped_of_isBlank (h : isBlank c = true) : IsUnescaped c := by
  constructor <;>
  · rintro rfl
    revert h
    decide

theorem stripEnd_escapeDocstring (text : List Char) :
    stripEnd (escapeDocstring text) = escapeDocstring (stripEnd text) := by
  induction text using List.reverseRecOn with
  | nil => rfl
  | append_singleton text c ih =>
    cases hblank : isBlank c with
    | true =>
      have hescape : escapeDocstring (text ++ [c]) = escapeDocstring text ++ [c] :=
        escapeDocstring_append_cons (isUnescaped_of_isBlank hblank) text []
      rw [stripEnd, stripEnd] at ih ⊢
      rw [hescape, dropEndWhile_concat_of_pos hblank, dropEndWhile_concat_of_pos hblank, ih]
    | false =>
      have hend : ∀ last ∈ (text ++ [c]).getLast?, isBlank last = false := by
        simpa using hblank
      rw [stripEnd, stripEnd, dropEndWhile_eq_self hend, dropEndWhile_eq_self]
      rwa [getLast?_escapeDocstring]

theorem guardLastQuote_escapeDocstring (text : List Char) :
    guardLastQuote (escapeDocstring text) = escapeDocstring (guardLastQuote text) := by
  have hspace : escapeDocstring (text ++ [' ']) = escapeDocstring text ++ [' '] :=
    escapeDocstring_append_cons (by decide) text []
  rw [guardLastQuote, guardLastQuote, getLast?_escapeDocstring]
  split
  · exact hspace.symm
  · rfl

theorem no_break_escapeDocstring (h : ∀ c ∈ text, isLineBreak c = false) :
    ∀ c ∈ escapeDocstring text, isLineBreak c = false := by
  intro c hc
  rcases mem_of_mem_escapeDocstring hc with rfl | hmem
  · decide
  · exact h c hmem

theorem escapeDocstring_eq_nil_iff : escapeDocstring text = [] ↔ text = [] := by
  rw [← List.getLast?_eq_none_iff, getLast?_escapeDocstring, List.getLast?_eq_none_iff]

/-- Escaping keeps every line break and adds none. -/
theorem splitLines_escapeDocstring (text : List Char) :
    splitLines (escapeDocstring text) = (splitLines text).map escapeDocstring := by
  suffices hfrom : ∀ read, (∀ c ∈ read, isLineBreak c = false) →
      splitLines (escapeDocstring (read.reverse ++ text)) =
        (splitLinesFrom read text).map escapeDocstring from hfrom [] (by simp)
  intro read hread
  have hline : ∀ c ∈ escapeDocstring read.reverse, isLineBreak c = false :=
    no_break_escapeDocstring fun c hc ↦ hread c (List.mem_reverse.mp hc)
  fun_induction splitLinesFrom read text with
  | case1 read hempty => simp [List.isEmpty_iff.mp hempty, escapeDocstring, splitLines_of_line]
  | case2 read hsome =>
    have hne : escapeDocstring read.reverse ≠ [] := by
      simpa [escapeDocstring_eq_nil_iff] using hsome
    rw [List.append_nil, splitLines_of_line hline, if_neg hne]
    rfl
  | case3 read rest ih =>
    have hreturn : IsUnescaped '\r' := by decide
    have hfeed : IsUnescaped '\n' := by decide
    rw [escapeDocstring_append_cons hreturn, escapeDocstring_cons hfeed,
      splitLines_append_pair hline, List.map_cons, ← ih (by simp) (by simp [escapeDocstring])]
    rfl
  | case4 read c rest hpair hbreak ih =>
    have hc : IsUnescaped c := isUnescaped_of_isBlank (isBlank_of_isLineBreak hbreak)
    rw [escapeDocstring_append_cons hc, splitLines_append_break hline hbreak, List.map_cons,
      ← ih (by simp) (by simp [escapeDocstring])]
    · rfl
    · intro others hreturn hfeed
      obtain ⟨tail, rfl⟩ := exists_cons_of_escapeDocstring (by decide) hfeed
      exact hpair tail hreturn rfl
  | case5 read c rest hpair hbreak ih =>
    have hread' : ∀ d ∈ c :: read, isLineBreak d = false :=
      List.forall_mem_cons.mpr ⟨by simpa using hbreak, hread⟩
    have hline' : ∀ d ∈ escapeDocstring (c :: read).reverse, isLineBreak d = false :=
      no_break_escapeDocstring fun d hd ↦ hread' d (List.mem_reverse.mp hd)
    rw [← ih hread' hline', List.reverse_cons, List.append_assoc]
    rfl

/-! ## Layout -/

/-- The text of a docstring with the given lines. Lines after the first are indented and have no
blanks at their end, and the closing quotes are indented on a line of their own. -/
def layOut (indent : List Char) : List (List Char) → List Char
  | [] => []
  | [line] => line
  | first :: rest =>
    first ++ (rest.map (fun line ↦ stripEnd (indent ++ line)) ++ [indent]).flatMap ('\n' :: ·)

theorem escapeDocstring_flatMap (first : List Char) (lines : List (List Char)) :
    escapeDocstring (first ++ lines.flatMap ('\n' :: ·)) =
      escapeDocstring first ++ (lines.map escapeDocstring).flatMap ('\n' :: ·) := by
  induction lines generalizing first with
  | nil => simp
  | cons line lines ih =>
    have hfeed : IsUnescaped '\n' := by decide
    rw [List.flatMap_cons, List.cons_append, escapeDocstring_append_cons hfeed, ih, List.map_cons,
      List.flatMap_cons, List.cons_append]

theorem layOut_cons_cons (indent first second : List Char) (rest : List (List Char)) :
    layOut indent (first :: second :: rest) = first ++
      ((second :: rest).map (fun line ↦ stripEnd (indent ++ line)) ++ [indent]).flatMap
        ('\n' :: ·) := rfl

/-- The lines may be escaped before they are laid out. -/
theorem layOut_map_escapeDocstring (hindent : ∀ c ∈ indent, IsUnescaped c)
    (lines : List (List Char)) :
    layOut indent (lines.map escapeDocstring) = escapeDocstring (layOut indent lines) := by
  have hline : (fun line ↦ stripEnd (indent ++ line)) ∘ escapeDocstring =
      escapeDocstring ∘ fun line ↦ stripEnd (indent ++ line) := by
    funext line
    have hescape : escapeDocstring (indent ++ line) = indent ++ escapeDocstring line :=
      escapeDocstring_append_left hindent line
    rw [Function.comp_apply, Function.comp_apply, ← hescape, stripEnd_escapeDocstring]
  have hlast : escapeDocstring indent = indent := by
    have hplain := escapeDocstring_append_left hindent []
    rwa [List.append_nil, escapeDocstring, List.append_nil] at hplain
  cases lines with
  | nil => rfl
  | cons first lines =>
    cases lines with
    | nil => rfl
    | cons second rest =>
      rw [layOut_cons_cons, escapeDocstring_flatMap, List.map_append, List.map_map, ← hline,
        List.map_singleton, hlast, ← List.map_map]
      rfl

theorem layOut_splitLines (hline : ∀ c ∈ text, isLineBreak c = false) :
    layOut indent (splitLines text) = text := by
  rw [splitLines_of_line hline]
  split
  · next hempty => rw [hempty, layOut]
  · rfl

theorem getLast?_layOut_cons_cons_ne (hindent : ∀ c ∈ indent, IsUnescaped c)
    (first second : List Char) (rest : List (List Char)) :
    (layOut indent (first :: second :: rest)).getLast? ≠ some '"' := by
  have hlast : ∀ c ∈ '\n' :: indent, IsUnescaped c :=
    List.forall_mem_cons.mpr ⟨by decide, hindent⟩
  rw [layOut_cons_cons, List.flatMap_append, List.flatMap_singleton, ← List.append_assoc,
    List.getLast?_append_of_ne_nil _ (by simp)]
  intro hquote
  exact (hlast _ (List.mem_of_getLast? hquote)).1 rfl

/-- The closing quotes do not meet a quote of the text. -/
theorem getLast?_layOut_splitLines_ne (hindent : ∀ c ∈ indent, IsUnescaped c)
    (hbreak : ∀ c ∈ text.getLast?, isLineBreak c = false) (hquote : text.getLast? ≠ some '"') :
    (layOut indent (splitLines text)).getLast? ≠ some '"' := by
  cases hlines : splitLines text with
  | nil => simp [layOut]
  | cons first lines =>
    cases lines with
    | nil =>
      have hline : ∀ c ∈ text, isLineBreak c = false :=
        no_break_of_length_splitLines hbreak (by simp [hlines])
      rwa [← hlines, layOut_splitLines hline]
    | cons second rest => exact getLast?_layOut_cons_cons_ne hindent first second rest

/-- Joined lines, each behind a line feed. -/
theorem cons_toList_join (lines : List (List Char)) (hne : lines ≠ []) :
    '\n' :: (join "\n" (lines.map String.ofList)).toList = lines.flatMap ('\n' :: ·) := by
  induction lines with
  | nil => exact absurd rfl hne
  | cons first rest ih =>
    cases rest with
    | nil => simp [join]
    | cons second rest =>
      have hjoin : (join "\n" ((first :: second :: rest).map String.ofList)).toList =
          first ++ '\n' :: (join "\n" ((second :: rest).map String.ofList)).toList := by
        rw [join, List.map_cons, List.map_cons, String.intercalate_cons_cons]
        simp [join]
      calc
        '\n' :: (join "\n" ((first :: second :: rest).map String.ofList)).toList
            = '\n' :: (first ++ '\n' ::
                (join "\n" ((second :: rest).map String.ofList)).toList) := by rw [hjoin]
        _ = '\n' :: (first ++ (second :: rest).flatMap ('\n' :: ·)) := by
          rw [ih (List.cons_ne_nil second rest)]
        _ = (first :: second :: rest).flatMap ('\n' :: ·) := rfl

/-- A docstring is an escaped text between three quotes. -/
theorem toList_docstring {indent : String} (hindent : ∀ c ∈ indent.toList, IsUnescaped c)
    (text : String) :
    (docstring indent text).toList = '"' :: '"' :: '"' :: (escapeDocstring
      (layOut indent.toList (splitLines (guardLastQuote (strip text.toList)))) ++
        ['"', '"', '"']) := by
  have hquotes : tripleQuote.toList = ['"', '"', '"'] := by decide
  rw [← layOut_map_escapeDocstring hindent, ← splitLines_escapeDocstring,
    ← guardLastQuote_escapeDocstring, docstring]
  split
  · next hlines => simp [hlines, layOut, hquotes]
  · next line hlines => simp [hlines, layOut, hquotes]
  · next first rest hmany hlines =>
    obtain ⟨second, rest, rfl⟩ := List.exists_cons_of_ne_nil hmany
    have hbody := cons_toList_join
      ((second :: rest).map fun line ↦ stripEnd (indent.toList ++ line)) (by simp)
    rw [hlines, layOut_cons_cons, List.flatMap_append, ← hbody, List.map_map]
    simp [hquotes, Function.comp_def]

theorem isUnescaped_of_mem_indentOf {level : Nat} (h : c ∈ (indentOf level).toList) :
    IsUnescaped c := by
  have hparts : ∃ part ∈ List.replicate level oneIndent, c ∈ part.toList := by
    simpa [indentOf] using h
  obtain ⟨part, hpart, hc⟩ := hparts
  obtain rfl := List.eq_of_mem_replicate hpart
  have hspace : c = ' ' := by simpa [oneIndent] using hc
  rw [hspace]
  decide

theorem getLast?_guardLastQuote_ne (text : List Char) :
    (guardLastQuote text).getLast? ≠ some '"' := by
  rw [guardLastQuote]
  split
  · simp
  · next hquote => exact hquote

theorem isLineBreak_of_getLast?_guardLastQuote (h : c ∈ (guardLastQuote (strip text)).getLast?) :
    isLineBreak c = false := by
  rw [guardLastQuote] at h
  split at h
  · obtain rfl : ' ' = c := by simpa using h
    decide
  · exact isLineBreak_of_not_blank (getLast?_dropEndWhile h)

/-- A docstring is one literal, and its value is the text as it was laid out. -/
theorem readTripleQuoted_docstring {indent : String}
    (hindent : ∀ c ∈ indent.toList, IsUnescaped c) (text : String) :
    ∃ inner, (docstring indent text).toList = '"' :: '"' :: '"' :: inner ∧
      readTripleQuoted inner = some
        (layOut indent.toList (splitLines (guardLastQuote (strip text.toList))), []) := by
  refine ⟨_, toList_docstring hindent text, ?_⟩
  rw [readTripleQuoted_escapeDocstring]
  · simp [readTripleQuoted]
  · intro hquote
    have hend := getLast?_layOut_splitLines_ne hindent
      (fun _ ↦ isLineBreak_of_getLast?_guardLastQuote)
      (getLast?_guardLastQuote_ne (strip text.toList))
    exact absurd hquote hend

/-- A text of one line is laid out as it is. -/
theorem layOut_guardLastQuote (h : (splitLines (strip text)).length ≤ 1) :
    layOut indent (splitLines (guardLastQuote (strip text))) =
      strip text ++ if (strip text).getLast? = some '"' then [' '] else [] := by
  have hline : ∀ c ∈ strip text, isLineBreak c = false := by
    apply no_break_of_length_splitLines _ h
    intro c hlast
    exact isLineBreak_of_not_blank (getLast?_dropEndWhile hlast)
  rw [guardLastQuote]
  split
  · apply layOut_splitLines
    intro c hc
    rcases List.mem_append.mp hc with hmem | hspace
    · exact hline c hmem
    · obtain rfl := List.mem_singleton.mp hspace
      decide
  · rw [List.append_nil]
    exact layOut_splitLines hline

/-- A description stays within its docstring and its comments. -/
theorem description_confined (text : String) :
    (∀ level, ∃ inner value,
      (docstring (indentOf level) text).toList = '"' :: '"' :: '"' :: inner ∧
        readTripleQuoted inner = some (value, []) ∧
          ((splitLines (strip text.toList)).length ≤ 1 →
            value = strip text.toList ++
              if (strip text.toList).getLast? = some '"' then [' '] else [])) ∧
      ∀ line ∈ Target.lineComments "#" text,
        line.toList.head? = some '#' ∧ '\n' ∉ line.toList ∧ '\r' ∉ line.toList := by
  constructor
  · intro level
    have hindent : ∀ c ∈ (indentOf level).toList, IsUnescaped c :=
      fun _ ↦ isUnescaped_of_mem_indentOf
    obtain ⟨inner, hinner, hread⟩ := readTripleQuoted_docstring hindent text
    exact ⟨inner, _, hinner, hread, layOut_guardLastQuote⟩
  · intro line hline
    obtain ⟨⟨rest, hrest⟩, hsingle⟩ := isComment_of_mem_lineComments hline
    exact ⟨by simp [hrest], hsingle⟩

example : docstring (indentOf 1) "First.\nSecond." =
    "\"\"\"First.\n    Second.\n    \"\"\"" := by decide

end SchemaModules.Python
