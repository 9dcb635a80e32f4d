/-
Columns of a text.

A line is cut at a column, which counts characters.  What was put behind a front of exactly that
many characters is found again from the column on (`fromColumn_append`).  Widths are counted in
bytes elsewhere, and no text has more characters than bytes, so a text is filled to the width of
every column that has room for its bytes (`length_padRight_of_le`).
-/
import CommandSchema.Text.Line

namespace CommandSchema
namespace Text

/-- The part of a line in front of a column, which counts characters. -/
def beforeColumn (column : Nat) (line : String) : String := String.ofList (line.toList.take column)

/-- The part of a line from a column on. -/
def fromColumn (column : Nat) (line : String) : String := String.ofList (line.toList.drop column)

section Columns

variable {column : Nat} {front : String}

theorem beforeColumn_append (h : front.length = column) (s : String) :
    beforeColumn column (front ++ s) = front := by
  rw [beforeColumn, String.toList_append, List.take_left' (String.length_toList.trans h),
    String.ofList_toList]

theorem fromColumn_append (h : front.length = column) (s : String) :
    fromColumn column (front ++ s) = s := by
  rw [fromColumn, String.toList_append, List.drop_left' (String.length_toList.trans h),
    String.ofList_toList]

theorem map_fromColumn_append (h : front.length = column) (lines : List String) :
    (lines.map (front ++ ·)).map (fromColumn column) = lines := by
  rw [List.map_map]
  exact List.map_id'' (fromColumn_append h) lines

end Columns

theorem spaces_append (m n : Nat) : spaces m ++ spaces n = spaces (m + n) := by
  rw [spaces, spaces, ← String.ofList_append, List.replicate_append_replicate, spaces]

theorem notMem_spaces {m : Char} (h : m ≠ ' ') (n : Nat) : m ∉ (spaces n).toList := by
  rw [spaces, String.toList_ofList]
  exact fun hmem => h (List.eq_of_mem_replicate hmem)

theorem length_le_utf8ByteSize (s : String) : s.length ≤ s.utf8ByteSize := by
  induction s using String.push_induction with
  | empty => exact Nat.le_refl _
  | push s c ih =>
    have hc : 0 < c.utf8Size := c.utf8Size_pos
    rw [String.length_push, String.utf8ByteSize_push]
    omega

theorem utf8ByteSize_eq_length {s : String} (h : ∀ c ∈ s.toList, c.val ≤ 127) :
    s.utf8ByteSize = s.length := by
  induction s using String.push_induction with
  | empty => rfl
  | push s c ih =>
    rw [String.toList_push, List.forall_mem_append, List.forall_mem_singleton] at h
    rw [String.utf8ByteSize_push, String.length_push, ih h.1, Char.utf8Size_eq_one_iff.mpr h.2]

/-- A text is filled to the width of a column that has room for its bytes. -/
theorem length_padRight_of_le {width : Nat} {s : String} (h : s.utf8ByteSize ≤ width) :
    (padRight width s).length = width := by
  rw [length_padRight]
  exact Nat.max_eq_left (Nat.le_trans (length_le_utf8ByteSize s) h)

end Text
end CommandSchema
