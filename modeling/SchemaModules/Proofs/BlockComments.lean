import SchemaModules.Target.Comment

/-!
# Ends of block comments

A block comment ends at the first `*/` behind its opening. The text of a comment has none, neither
in a line nor where a line meets what stands around it.
-/

namespace SchemaModules.Target

open Text

variable {line : List Char}

/-- What follows the first end of a comment. -/
def afterComment : List Char → Option (List Char)
  | [] => none
  | '*' :: '/' :: rest => some rest
  | _ :: rest => afterComment rest

theorem afterComment_of_not_star {c : Char} (h : c ≠ '*') (rest : List Char) :
    afterComment (c :: rest) = afterComment rest := by
  rw [afterComment]
  rintro other rfl
  exact absurd rfl h

theorem afterComment_of_not_slash {c : Char} {rest : List Char} (h : rest.head? ≠ some '/') :
    afterComment (c :: rest) = afterComment rest := by
  rw [afterComment]
  rintro other - rfl
  exact h rfl

/-- A guarded line begins with a slash only if the line does. -/
theorem head?_guardClosers_append (h : line.head? ≠ some '/') (rest : List Char) :
    (guardClosers line ++ '\n' :: rest).head? ≠ some '/' := by
  fun_cases guardClosers line with
  | case1 => simp
  | case2 => simp
  | case3 => simpa using h

/-- No comment ends inside a guarded line. -/
theorem afterComment_guardClosers (line rest : List Char) :
    afterComment (guardClosers line ++ '\n' :: rest) = afterComment rest := by
  fun_induction guardClosers line with
  | case1 => exact afterComment_of_not_star (by decide) rest
  | case2 tail ih => simpa [afterComment] using ih
  | case3 c tail hopen ih =>
    rw [List.cons_append]
    by_cases hstar : c = '*'
    · subst hstar
      have htail : tail.head? ≠ some '/' := by
        intro hslash
        obtain ⟨others, rfl⟩ := List.head?_eq_some_iff.mp hslash
        exact hopen others rfl rfl
      rw [afterComment_of_not_slash (head?_guardClosers_append htail rest), ih]
    · rw [afterComment_of_not_star hstar, ih]

theorem afterComment_lines (lines : List (List Char)) (rest : List Char) :
    afterComment ((unlines (lines.map fun line ↦
      " * " ++ String.ofList (guardClosers line))).toList ++ rest) = afterComment rest := by
  induction lines with
  | nil => rfl
  | cons line others ih =>
    have hline : (" * " ++ String.ofList (guardClosers line) ++ "\n").toList =
        ' ' :: '*' :: ' ' :: (guardClosers line ++ ['\n']) := by
      simp [String.toList_append, String.toList_ofList]
    rw [unlines, List.map_cons, List.map_cons, String.join_cons, String.toList_append, hline]
    simp only [List.cons_append, List.append_assoc, List.nil_append]
    rw [afterComment_of_not_star (by decide), afterComment_of_not_slash (by simp),
      afterComment_of_not_star (by decide), afterComment_guardClosers]
    exact ih

/-- A block comment ends with its own last line. -/
theorem afterComment_blockComment (text : String) (rest : List Char) :
    ∃ inner, (blockComment text).toList ++ rest = '/' :: '*' :: inner ∧
      afterComment inner = some ('\n' :: rest) := by
  have hopen : "/**\n".toList = ['/', '*', '*', '\n'] := by decide
  have hclose : " */\n".toList = [' ', '*', '/', '\n'] := by decide
  have htext : (blockComment text).toList ++ rest = '/' :: '*' :: '*' :: '\n' ::
      ((unlines ((splitAt '\n' text.toList).map fun line ↦
        " * " ++ String.ofList (guardClosers line))).toList ++
          ' ' :: '*' :: '/' :: '\n' :: rest) := by
    simp [blockComment, String.toList_append, hopen, hclose]
  refine ⟨_, htext, ?_⟩
  rw [afterComment_of_not_slash (by simp), afterComment_of_not_star (by decide),
    afterComment_lines]
  rfl

end SchemaModules.Target
