/-
Lines, columns and separated texts.

Generated files and help screens are lists of lines.  `unlines` ends every line with a line feed,
so it turns the joining of two lists into the joining of two texts (`unlines_append`).  `padRight`
fills a column; a column counts characters, not bytes.  `split` gives the parts between the
occurrences of a separator.
-/

namespace CommandSchema
namespace Text

/-- The lines one after the other, a line feed after each. -/
def unlines : List String → String
  | [] => ""
  | line :: rest => line ++ "\n" ++ unlines rest

def spaces (n : Nat) : String := String.ofList (List.replicate n ' ')

/-- The text followed by as many spaces as it has fewer characters than the column. -/
def padRight (width : Nat) (s : String) : String := s ++ spaces (width - s.length)

/-- The parts of a text between the separators; a text without separator is its one part. -/
def split (sep : Char) (s : String) : List String := (s.toList.splitOn sep).map String.ofList

@[simp] theorem unlines_nil : unlines [] = "" := rfl

@[simp] theorem unlines_cons (line : String) (rest : List String) :
    unlines (line :: rest) = line ++ "\n" ++ unlines rest := rfl

theorem unlines_append (xs ys : List String) : unlines (xs ++ ys) = unlines xs ++ unlines ys := by
  induction xs with
  | nil => simp
  | cons x xs ih => simp [ih, String.append_assoc]

@[simp] theorem length_spaces (n : Nat) : (spaces n).length = n := by
  simp [spaces]

/-- A padded text is at least as wide as its column. -/
theorem length_padRight (width : Nat) (s : String) :
    (padRight width s).length = max width s.length := by
  simp only [padRight, String.length_append, length_spaces]
  omega

end Text
end CommandSchema
