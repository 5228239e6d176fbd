import SchemaModules.Proofs.BlockComments
import SchemaModules.Proofs.JoinedPaths
import SchemaModules.Proofs.TextLines

/-!
# Texts of block comments

A block comment is its text with each `*/` guarded, a mark before each line, and a frame. The marks
and the joins of the lines make no new `*/`, so the only one is that of the last line. Without frame
and marks the text is found again.
-/

namespace SchemaModules.Target

open Text

variable {c : Char} {replacement text part rest result : List Char}

/-- What ends a block comment. -/
def closer : List Char := ['*', '/']

/-- What stands in a comment for each `*/` of its text. -/
def guardedCloser : List Char := ['\\', '*', '\\', '/']

theorem not_closer_prefix_cons (h : ∀ others, c = '*' → text = '/' :: others → False) :
    ¬closer <+: c :: text := by
  rintro ⟨others, hothers⟩
  obtain ⟨rfl, rfl⟩ := List.cons.inj hothers
  exact h others rfl rfl

/-- What follows a part makes a new `*/` only with a slash. -/
theorem not_closer_prefix_append (h : ¬closer <+: c :: part) (hrest : rest.head? ≠ some '/') :
    ¬closer <+: c :: (part ++ rest) := by
  rintro ⟨others, hothers⟩
  obtain ⟨rfl, htail⟩ := List.cons.inj hothers
  cases part with
  | nil => exact hrest (congrArg List.head? htail).symm
  | cons d part =>
    obtain ⟨rfl, -⟩ := List.cons.inj htail
    exact h ⟨part, rfl⟩

theorem guardClosers_cons (h : ¬closer <+: c :: text) :
    guardClosers (c :: text) = c :: guardClosers text := by
  rw [guardClosers]
  rintro others rfl rfl
  exact h ⟨others, rfl⟩

theorem afterComment_cons (h : ¬closer <+: c :: text) :
    afterComment (c :: text) = afterComment text := by
  rw [afterComment]
  rintro others rfl rfl
  exact h ⟨others, rfl⟩

/-! ## Replaced parts -/

/-- The second text is the first one with each `found` replaced. The parts between hold none. -/
inductive Replaced (found replacement : List Char) : List Char → List Char → Prop
  | unchanged {part : List Char} (h : ¬found <:+: part) : Replaced found replacement part part
  | next {part rest result : List Char} (h : ¬found <:+: part)
      (hrest : Replaced found replacement rest result) :
      Replaced found replacement (part ++ found ++ rest) (part ++ replacement ++ result)

/-- Another character in front of a part makes no `*/` unless the two begin with one. -/
theorem not_closer_infix_cons (rest : List Char) (hopen : ¬closer <+: c :: part ++ rest)
    (h : ¬closer <:+: part) : ¬closer <:+: c :: part := by
  rw [List.infix_cons_iff, not_or]
  exact ⟨fun hbegins ↦ hopen (hbegins.trans (List.prefix_append _ rest)), h⟩

theorem Replaced.cons (hopen : ¬closer <+: c :: text)
    (h : Replaced closer replacement text result) :
    Replaced closer replacement (c :: text) (c :: result) := by
  cases h with
  | unchanged h => exact .unchanged (not_closer_infix_cons [] (by simpa using hopen) h)
  | @next part rest result h hrest =>
    have hpart : ¬closer <:+: c :: part := by
      apply not_closer_infix_cons (closer ++ rest) _ h
      simpa using hopen
    exact @Replaced.next closer replacement (c :: part) rest result hpart hrest

/-- Guarding replaces every `*/`. -/
theorem replaced_guardClosers (text : List Char) :
    Replaced closer guardedCloser text (guardClosers text) := by
  fun_induction guardClosers text with
  | case1 => exact .unchanged (by decide)
  | case2 rest ih =>
    exact @Replaced.next closer guardedCloser [] rest (guardClosers rest) (by decide) ih
  | case3 c rest hopen ih => exact ih.cons (not_closer_prefix_cons hopen)

/-- A part without `*/` stays as it is, unless it meets a slash. -/
theorem guardClosers_append (h : ¬closer <:+: part) (hrest : rest.head? ≠ some '/') :
    guardClosers (part ++ rest) = part ++ guardClosers rest := by
  induction part with
  | nil => rfl
  | cons c part ih =>
    obtain ⟨hopen, hpart⟩ := not_or.mp (List.infix_cons_iff.not.mp h)
    calc
      guardClosers (c :: part ++ rest) = c :: guardClosers (part ++ rest) :=
        guardClosers_cons (not_closer_prefix_append hopen hrest)
      _ = c :: part ++ guardClosers rest := by rw [ih hpart, List.cons_append]

/-- There is one way to replace every `*/`. -/
theorem replaced_iff : Replaced closer guardedCloser text result ↔ result = guardClosers text := by
  constructor
  · intro h
    induction h with
    | @unchanged part h =>
      calc
        part = part ++ guardClosers [] := (List.append_nil part).symm
        _ = guardClosers (part ++ []) := (guardClosers_append h (by simp)).symm
        _ = guardClosers part := by rw [List.append_nil]
    | @next part rest result h hrest ih =>
      calc
        part ++ guardedCloser ++ result = part ++ guardClosers (closer ++ rest) := by
          rw [ih, List.append_assoc]
          rfl
        _ = guardClosers (part ++ closer ++ rest) := by
          rw [List.append_assoc, guardClosers_append h (by simp [closer])]
  · rintro rfl
    exact replaced_guardClosers text

theorem guardClosers_append_lineFeed (line rest : List Char) :
    guardClosers (line ++ '\n' :: rest) = guardClosers line ++ '\n' :: guardClosers rest := by
  fun_induction guardClosers line with
  | case1 => rfl
  | case2 tail ih => simp [guardClosers, ih]
  | case3 c tail hopen ih =>
    have hlater : ¬closer <+: c :: (tail ++ '\n' :: rest) :=
      not_closer_prefix_append (not_closer_prefix_cons hopen) (by simp)
    rw [List.cons_append, guardClosers_cons hlater, ih, List.cons_append]

/-- A `*/` never goes over the end of a line, so lines are guarded one by one. -/
theorem guardClosers_intercalate (lines : List (List Char)) :
    guardClosers (['\n'].intercalate lines) = ['\n'].intercalate (lines.map guardClosers) := by
  induction lines with
  | nil => rfl
  | cons line lines ih =>
    cases lines with
    | nil => simp
    | cons next lines =>
      calc
        guardClosers (['\n'].intercalate (line :: next :: lines)) =
            guardClosers (line ++ '\n' :: ['\n'].intercalate (next :: lines)) := by
          simp [List.intercalate_cons_cons]
        _ = guardClosers line ++ '\n' :: ['\n'].intercalate ((next :: lines).map guardClosers) := by
          rw [guardClosers_append_lineFeed, ih]
        _ = ['\n'].intercalate ((line :: next :: lines).map guardClosers) := by
          simp [List.intercalate_cons_cons]

theorem mem_of_mem_guardClosers (hc : c ≠ '\\') (h : c ∈ guardClosers text) : c ∈ text := by
  fun_induction guardClosers text with
  | case1 => exact h
  | case2 rest ih =>
    simp only [List.mem_cons] at h ⊢
    tauto
  | case3 d rest hopen ih =>
    rw [List.mem_cons] at h ⊢
    exact h.imp_right ih

/-! ## Reading a comment -/

/-- The text in a block comment: what stands between its first and its last line, without the mark
before each line. -/
def commentedText (comment : List Char) : Option (List Char) := do
  let opened ← comment.dropPrefix? "/**\n".toList
  let body ← opened.dropSuffix? "\n */\n".toList
  let lines ← (splitAt '\n' body).mapM (·.dropPrefix? " * ".toList)
  return ['\n'].intercalate lines

/-- The lines of a comment between the first and the last. -/
def markedLines (text : List Char) : List (List Char) :=
  (splitAt '\n' text).map (" * ".toList ++ guardClosers ·)

theorem splitAt_lineFeed_ne_nil (text : List Char) : splitAt '\n' text ≠ [] := by
  rw [splitAt_eq_splitOn]
  exact List.splitOn_ne_nil '\n' text

/-- A comment is made of its marked lines, line feeds between them, and the frame around. -/
theorem toList_blockComment (text : String) :
    (blockComment text).toList =
      "/**\n".toList ++ (['\n'].intercalate (markedLines text.toList) ++ "\n */\n".toList) := by
  obtain ⟨first, others, hlines⟩ :=
    List.exists_cons_of_ne_nil (splitAt_lineFeed_ne_nil text.toList)
  rw [blockComment, markedLines, hlines, List.map_cons, ← join_lines]
  simp [join, String.toList_intercalate, Function.comp_def]

theorem lineFeed_notMem_of_mem_markedLines {line : List Char} (h : line ∈ markedLines text) :
    '\n' ∉ line := by
  obtain ⟨plain, hplain, rfl⟩ := List.mem_map.mp h
  rw [List.mem_append]
  rintro (hmark | hguarded)
  · exact absurd hmark (by decide)
  · exact notMem_of_mem_splitAt hplain (mem_of_mem_guardClosers (by decide) hguarded)

/-- The marked lines are found again where they are joined. -/
theorem splitAt_markedLines (text : List Char) :
    splitAt '\n' (['\n'].intercalate (markedLines text)) = markedLines text := by
  have hsome : markedLines text ≠ [] := by
    simpa [markedLines] using splitAt_lineFeed_ne_nil text
  rw [splitAt_eq_splitOn, List.splitOn_intercalate '\n' _ hsome]
  exact fun line hline ↦ lineFeed_notMem_of_mem_markedLines hline

theorem mapM_dropPrefix? (mark : List Char) (lines : List (List Char)) :
    (lines.map (mark ++ ·)).mapM (·.dropPrefix? mark) = some lines := by
  induction lines with
  | nil => rfl
  | cons line lines ih =>
    rw [List.map_cons, List.mapM_cons, ih, List.dropPrefix?_append_of_beq line (beq_self_eq_true _)]
    rfl

/-- The text of a comment is the guarded one. -/
theorem commentedText_blockComment (text : String) :
    commentedText (blockComment text).toList = some (guardClosers text.toList) := by
  have hbody (body : List Char) :
      (body ++ "\n */\n".toList).dropSuffix? "\n */\n".toList = some body :=
    List.dropSuffix?_eq_some_iff.mpr ⟨_, rfl, beq_self_eq_true _⟩
  have hmarks : (markedLines text.toList).mapM (·.dropPrefix? " * ".toList) =
      some ((splitAt '\n' text.toList).map guardClosers) := by
    rw [← mapM_dropPrefix? " * ".toList, List.map_map]
    rfl
  have hguarded : ['\n'].intercalate ((splitAt '\n' text.toList).map guardClosers) =
      guardClosers text.toList := by
    rw [← guardClosers_intercalate, splitAt_eq_splitOn, List.intercalate_splitOn]
  unfold commentedText
  rw [toList_blockComment, List.dropPrefix?_append_of_beq _ (beq_self_eq_true _)]
  simp only [Option.bind_eq_bind, Option.bind_some, hbody, splitAt_markedLines, hmarks, hguarded]
  rfl

/-- Behind the first end of a comment there are none but those behind it in the text. -/
theorem exists_afterComment_append_closer (before after : List Char) :
    ∃ rest, afterComment (before ++ closer ++ after) = some rest ∧
      (rest = after ∨ closer ++ after <:+ rest) := by
  induction before with
  | nil => exact ⟨after, rfl, .inl rfl⟩
  | cons c before ih =>
    by_cases hopen : closer <+: c :: before
    · obtain ⟨between, hbetween⟩ := hopen
      refine ⟨between ++ closer ++ after, ?_, .inr ⟨between, by simp⟩⟩
      rw [← hbetween, closer]
      simp [afterComment]
    · have hlater : ¬closer <+: c :: (before ++ (closer ++ after)) :=
        not_closer_prefix_append hopen (by simp [closer])
      rw [List.append_assoc, List.cons_append, afterComment_cons hlater, ← List.append_assoc]
      exact ih

/-- The only `*/` of the comment is that of its last line, which is ` */`. -/
def ClosesAtLastLine (comment : List Char) : Prop :=
  ∃ inner, inner.getLast? = some '\n' ∧ comment = inner ++ " */\n".toList ∧
    ∀ before after, comment = before ++ closer ++ after → before = inner ++ [' '] ∧ after = ['\n']

theorem afterComment_toList_blockComment (text : String) :
    afterComment (blockComment text).toList = some ['\n'] := by
  obtain ⟨inner, hinner, hend⟩ := afterComment_blockComment text []
  rw [List.append_nil] at hinner
  have hhead : inner.head? = some '*' := by
    have hopen : "/**\n".toList = ['/', '*', '*', '\n'] := by decide
    rw [toList_blockComment, hopen] at hinner
    rw [← (List.cons.inj (List.cons.inj hinner).2).2]
    rfl
  rw [hinner, afterComment_of_not_star (by decide), afterComment_of_not_slash (by simp [hhead])]
  exact hend

theorem closesAtLastLine_blockComment (text : String) :
    ClosesAtLastLine (blockComment text).toList := by
  let inner := "/**\n".toList ++ ['\n'].intercalate (markedLines text.toList) ++ ['\n']
  have hclose : " */\n".toList = [' '] ++ (closer ++ ['\n']) := by decide
  have hcomment : (blockComment text).toList = inner ++ " */\n".toList := by
    have hline : "\n */\n".toList = ['\n'] ++ " */\n".toList := by decide
    rw [toList_blockComment, hline]
    simp [inner]
  refine ⟨inner, List.getLast?_concat, hcomment, fun before after h ↦ ?_⟩
  obtain ⟨rest, hrest, hplace⟩ := exists_afterComment_append_closer before after
  rw [← h, afterComment_toList_blockComment] at hrest
  obtain rfl : ['\n'] = rest := Option.some.inj hrest
  -- The line feed behind the first end is too short for another one.
  have hafter : after = ['\n'] := by
    rcases hplace with hlast | hlater
    · exact hlast.symm
    · have hlength := hlater.length_le
      simp [closer] at hlength
  refine ⟨?_, hafter⟩
  rw [hcomment, hclose, hafter, ← List.append_assoc, List.append_assoc before] at h
  exact (List.append_cancel_right h).symm

/-- A comment cannot be closed from inside, and keeps its text up to the guards. -/
theorem blockComment_confined (text : String) :
    ClosesAtLastLine (blockComment text).toList ∧
      ∃ kept, commentedText (blockComment text).toList = some kept ∧
        ∀ other, Replaced closer guardedCloser text.toList other ↔ other = kept :=
  ⟨closesAtLastLine_blockComment text, _, commentedText_blockComment text, fun _ ↦ replaced_iff⟩

example : commentedText (blockComment "a**/\n*/b").toList =
    some "a*\\*\\/\n\\*\\/b".toList := by decide

end SchemaModules.Target
