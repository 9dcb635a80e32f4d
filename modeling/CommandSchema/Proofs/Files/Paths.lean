/-
Paths seen from a directory.

A path that is seen from a directory stays as it is exactly when it is absolute or when the
directory is the empty path (`join_eq_self_iff`).  Otherwise it grows, and once it is absolute it
grows no more.
-/
import CommandSchema.Files.Path

namespace CommandSchema
namespace Path

/-- The directory of a path, as relative paths are seen from it. -/
def directory (path : String) : String := (parent? path).getD ""

/-- A directory that a path goes through, as the path says. -/
def IsAbove (directory path : String) : Prop :=
  ∃ parent, parent? path = some parent ∧ directory ∈ ancestors parent

theorem isAbsolute_iff {path : String} : isAbsolute path = true ↔ path.toList.head? = some '/' :=
  decide_eq_true_iff

theorem isAbsolute_append {front back : String} (h : isAbsolute front = true) :
    isAbsolute (front ++ back) = true := by
  rw [isAbsolute_iff] at h ⊢
  rw [String.toList_append, List.head?_append, h, Option.some_or]

theorem join_of_isAbsolute {base path : String} (h : isAbsolute path = true) :
    join base path = path := if_pos h

theorem join_empty (path : String) : join "" path = path := by
  rw [join]
  split
  · rfl
  · rw [if_pos (Or.inl rfl), String.empty_append]

/-- What stands in front of a relative path that is seen from a directory. -/
theorem exists_join_eq (base : String) {path : String} (h : ¬ isAbsolute path = true) :
    ∃ bar, join base path = base ++ (bar ++ path) := by
  rw [join, if_neg h]
  split
  · exact ⟨"", by rw [String.empty_append]⟩
  · exact ⟨"/", String.append_assoc ..⟩

theorem join_eq_self_iff {base path : String} :
    join base path = path ↔ base = "" ∨ isAbsolute path = true := by
  by_cases habsolute : isAbsolute path = true
  · exact iff_of_true (join_of_isAbsolute habsolute) (Or.inr habsolute)
  · obtain ⟨bar, hjoin⟩ := exists_join_eq base habsolute
    constructor
    · intro h
      have hlength : path.length = base.length + (bar.length + path.length) := by
        rw [← String.length_append, ← String.length_append, ← hjoin, h]
      have hempty : base.length = 0 := by omega
      exact Or.inl (String.length_eq_zero_iff.mp hempty)
    · rintro (rfl | h)
      · exact join_empty path
      · exact absurd h habsolute

theorem isAbsolute_join {base path : String} (h : isAbsolute base = true) :
    isAbsolute (join base path) = true := by
  by_cases habsolute : isAbsolute path = true
  · rwa [join_of_isAbsolute habsolute]
  · obtain ⟨bar, hjoin⟩ := exists_join_eq base habsolute
    rw [hjoin]
    exact isAbsolute_append h

/-- The directory of an absolute path is absolute, unless the path is the root. -/
theorem isAbsolute_directory {path : String} (h : isAbsolute path = true) :
    directory path = "" ∨ isAbsolute (directory path) = true := by
  have hhead : head path = "/" := by
    rw [isAbsolute_iff] at h
    obtain ⟨names, hnames⟩ := List.head?_eq_some_iff.mp h
    rw [head, hnames]
    rfl
  rw [directory, parent?, hhead]
  split
  · exact Or.inr (isAbsolute_append (by decide))
  · exact Or.inl rfl

end Path
end CommandSchema
