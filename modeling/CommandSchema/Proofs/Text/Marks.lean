/-
Marks in texts.

A text is cut at the first occurrence of a mark.  What stands in front of the mark is what was meant
to stand there exactly when no earlier occurrence comes before, also none that runs into the mark
itself (`cutAt_append_iff`).  Occurrences do not run over a character that the mark has not got
(`infix_append_cons_iff`), nor do they begin in a text without its first character
(`infix_append_iff_of_notMem`); so in a text that is put together from parts, what counts are the
parts, and a part without that character is always found again (`cutAt_of_notMem`).
-/
import CommandSchema.Text.Line

namespace CommandSchema
namespace Text

/-- A text cut at the first occurrence of a mark: what is in front of it, and what is behind. -/
def cutAt (mark : List Char) : List Char → Option (List Char × List Char)
  | [] => none
  | c :: cs =>
    if mark <+: c :: cs then some ([], (c :: cs).drop mark.length)
    else (cutAt mark cs).map fun (front, back) => (c :: front, back)

variable {mark front back text : List Char}

theorem cutAt_mark_append (hmark : mark ≠ []) : cutAt mark (mark ++ back) = some ([], back) := by
  obtain ⟨m, ms, rfl⟩ := List.exists_cons_of_ne_nil hmark
  have hbegin : m :: ms <+: m :: (ms ++ back) := List.prefix_append _ _
  rw [List.cons_append, cutAt, if_pos hbegin, ← List.cons_append, List.drop_left]

theorem cutAt_cons_eq_some_iff {c : Char} {cs : List Char} :
    cutAt mark (c :: cs) = some (c :: front, back) ↔
      ¬ mark <+: c :: cs ∧ cutAt mark cs = some (front, back) := by
  rw [cutAt]
  by_cases hbegin : mark <+: c :: cs
  · simp [hbegin]
  · simp [hbegin]

theorem eq_of_cutAt (h : cutAt mark text = some (front, back)) : text = front ++ mark ++ back := by
  induction text generalizing front with
  | nil => cases h
  | cons c cs ih =>
    rw [cutAt] at h
    split at h
    next hbegin =>
      obtain ⟨rest, hrest⟩ := hbegin
      obtain ⟨rfl, rfl⟩ : [] = front ∧ (c :: cs).drop mark.length = back := by simpa using h
      rw [← hrest, List.drop_left, List.nil_append]
    next =>
      obtain ⟨⟨front', back'⟩, hcut, heq⟩ := Option.map_eq_some_iff.mp h
      obtain ⟨rfl, rfl⟩ : c :: front' = front ∧ back' = back := by simpa using heq
      rw [ih hcut, List.cons_append, List.cons_append]

/-- An occurrence at the beginning of a text does not reach the last character of a mark that comes
later. -/
theorem prefix_append_mark_iff (hfront : front ≠ []) :
    mark <+: front ++ mark ++ back ↔ mark <+: front ++ mark.dropLast := by
  have hshort : front ++ mark.dropLast <+: front ++ mark ++ back :=
    ((List.prefix_append_right_inj front).mpr mark.dropLast_prefix).trans (List.prefix_append _ _)
  refine ⟨fun h => List.prefix_of_prefix_length_le h hshort ?_, fun h => h.trans hshort⟩
  have hpos : 0 < front.length := List.length_pos_iff.mpr hfront
  rw [List.length_append, List.length_dropLast]
  omega

theorem cutAt_append_iff (hmark : mark ≠ []) :
    cutAt mark (front ++ mark ++ back) = some (front, back) ↔
      ¬ mark <:+: front ++ mark.dropLast := by
  induction front with
  | nil =>
    have hfree : ¬ mark <:+: [] ++ mark.dropLast := fun h => by
      have hpos : 0 < mark.length := List.length_pos_iff.mpr hmark
      have hle := h.length_le
      rw [List.nil_append, List.length_dropLast] at hle
      omega
    exact iff_of_true (cutAt_mark_append hmark) hfree
  | cons c cs ih =>
    have hbegin : mark <+: c :: cs ++ mark ++ back ↔ mark <+: c :: cs ++ mark.dropLast :=
      prefix_append_mark_iff (List.cons_ne_nil c cs)
    simp only [List.cons_append] at hbegin ⊢
    rw [cutAt_cons_eq_some_iff, List.infix_cons_iff, not_or, ih, hbegin]

/-! ## Occurrences in texts put together -/

theorem infix_append_iff_of_notMem {m : Char} {ms : List Char} (h : m ∉ front) :
    m :: ms <:+: front ++ back ↔ m :: ms <:+: back := by
  refine ⟨fun hmark => ?_, List.infix_append_of_infix_right⟩
  rcases List.infix_append_iff_ne_nil.mp hmark with
    hfront | hback | ⟨xs, ys, hxs, -, heq, hsuffix, -⟩
  · exact absurd (hfront.subset List.mem_cons_self) h
  · exact hback
  · obtain ⟨x, xs, rfl⟩ := List.exists_cons_of_ne_nil hxs
    obtain ⟨rfl, -⟩ := List.cons.inj heq
    exact absurd (hsuffix.subset List.mem_cons_self) h

/-- A text is cut behind a front without the first character of the mark. -/
theorem cutAt_of_notMem {m : Char} {ms : List Char} (h : m ∉ front) (back : List Char) :
    cutAt (m :: ms) (front ++ (m :: ms) ++ back) = some (front, back) := by
  rw [cutAt_append_iff (List.cons_ne_nil m ms), infix_append_iff_of_notMem h]
  intro hinfix
  have hle := hinfix.length_le
  rw [List.length_dropLast, List.length_cons] at hle
  omega

theorem cutAt_toList_of_notMem {s mark : String} {m : Char} {ms : List Char}
    (hmark : mark.toList = m :: ms) (h : m ∉ s.toList) (rest : String) :
    cutAt (m :: ms) (s ++ (mark ++ rest)).toList = some (s.toList, rest.toList) := by
  rw [String.toList_append, String.toList_append, hmark, ← List.append_assoc]
  exact cutAt_of_notMem h rest.toList

theorem infix_append_cons_iff {c : Char} (hmark : mark ≠ []) (h : c ∉ mark) :
    mark <:+: front ++ c :: back ↔ mark <:+: front ∨ mark <:+: back := by
  constructor
  · intro hinfix
    rcases List.infix_append_iff_ne_nil.mp hinfix with
      hfront | hback | ⟨xs, ys, -, hys, heq, -, hprefix⟩
    · exact Or.inl hfront
    · rcases List.infix_cons_iff.mp hback with hprefix | hback
      · obtain ⟨m, ms, rfl⟩ := List.exists_cons_of_ne_nil hmark
        obtain ⟨rfl, -⟩ := List.cons_prefix_cons.mp hprefix
        exact absurd List.mem_cons_self h
      · exact Or.inr hback
    · obtain ⟨y, ys, rfl⟩ := List.exists_cons_of_ne_nil hys
      obtain ⟨rfl, -⟩ := List.cons_prefix_cons.mp hprefix
      exact absurd (heq ▸ List.mem_append_right xs List.mem_cons_self) h
  · rintro (hfront | hback)
    · exact List.infix_append_of_infix_left hfront
    · exact List.infix_append_of_infix_right (List.infix_cons hback)

/-- A mark without line feed occurs in a text written by lines when it occurs in one of them. -/
theorem infix_unlines_iff {lines : List String} (hmark : mark ≠ []) (h : '\n' ∉ mark) :
    mark <:+: (unlines lines).toList ++ back ↔
      (∃ line ∈ lines, mark <:+: line.toList) ∨ mark <:+: back := by
  induction lines with
  | nil => simp
  | cons line rest ih =>
    have hchars : (unlines (line :: rest)).toList ++ back =
        line.toList ++ '\n' :: ((unlines rest).toList ++ back) := by
      simp [String.toList_append]
    rw [hchars, infix_append_cons_iff hmark h, ih]
    simp only [List.mem_cons, exists_eq_or_imp, or_assoc]

end Text
end CommandSchema
