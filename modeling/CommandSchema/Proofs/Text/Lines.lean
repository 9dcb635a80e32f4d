/-
Texts that are written by lines, read back by lines.

A text that ends every line with a line feed splits at line feeds into its lines and an empty rest,
as long as no line holds a line feed itself (`split_unlines`).  A line that does is split further
(`split_unlines_eq_flatMap`), into one part more than it has line feeds (`length_split`).  Every
text is written by lines up to its last line (`exists_lastLine`), and all of it is when that line is
empty (`isLines_iff`).
-/
import CommandSchema.Text.Line
import Mathlib.Data.List.Basic
import Mathlib.Data.List.Induction

namespace CommandSchema
namespace Text

/-- A text without line feed. -/
def IsLine (s : String) : Prop := '\n' ∉ s.toList

instance (s : String) : Decidable (IsLine s) := inferInstanceAs (Decidable ('\n' ∉ s.toList))

theorem notMem_append {m : Char} {a b : String} :
    m ∉ (a ++ b).toList ↔ m ∉ a.toList ∧ m ∉ b.toList := by
  rw [String.toList_append, List.mem_append, not_or]

theorem notMem_intercalate_iff {m : Char} {sep : String} (hsep : m ∉ sep.toList)
    {texts : List String} :
    m ∉ (String.intercalate sep texts).toList ↔ ∀ text ∈ texts, m ∉ text.toList := by
  induction texts with
  | nil => exact iff_of_true List.not_mem_nil (List.forall_mem_nil _)
  | cons text rest ih =>
    cases rest with
    | nil => rw [String.intercalate_singleton, List.forall_mem_singleton]
    | cons next rest =>
      rw [String.intercalate_cons_cons, List.forall_mem_cons, notMem_append, notMem_append,
        and_iff_left hsep, ih]

theorem isLine_append {a b : String} : IsLine (a ++ b) ↔ IsLine a ∧ IsLine b := notMem_append

theorem isLine_ofList {cs : List Char} (h : '\n' ∉ cs) : IsLine (String.ofList cs) := by
  rw [IsLine, String.toList_ofList]
  exact h

theorem notMem_of_mem_splitOn {sep : Char} {cs part : List Char} (h : part ∈ cs.splitOn sep) :
    sep ∉ part := by
  induction cs generalizing part with
  | nil =>
    rw [List.splitOn_nil, List.mem_singleton] at h
    rw [h]
    exact List.not_mem_nil
  | cons c cs ih =>
    rw [List.splitOn_cons_eq_if_modifyHead] at h
    split at h
    next =>
      rcases List.mem_cons.mp h with rfl | h
      · exact List.not_mem_nil
      · exact ih h
    next hc =>
      -- The character belongs to the first part of what follows it.
      obtain ⟨first, rest, hparts⟩ := List.exists_cons_of_ne_nil (List.splitOn_ne_nil sep cs)
      rw [hparts] at ih h
      rcases List.mem_cons.mp h with rfl | h
      · rw [List.mem_cons, not_or]
        exact ⟨fun heq => hc (beq_iff_eq.mpr heq.symm), ih List.mem_cons_self⟩
      · exact ih (List.mem_cons_of_mem first h)

theorem notMem_of_mem_split {sep : Char} {s part : String} (h : part ∈ split sep s) :
    sep ∉ part.toList := by
  obtain ⟨cs, hcs, rfl⟩ := List.mem_map.mp h
  rw [String.toList_ofList]
  exact notMem_of_mem_splitOn hcs

/-- Every line is split by itself, since the line feed behind it ends its last part. -/
theorem split_unlines_append (lines : List String) (rest : String) :
    split '\n' (unlines lines ++ rest) = lines.flatMap (split '\n') ++ split '\n' rest := by
  induction lines with
  | nil => rw [unlines_nil, String.empty_append, List.flatMap_nil, List.nil_append]
  | cons line lines ih =>
    have hchars : (unlines (line :: lines) ++ rest).toList =
        line.toList ++ '\n' :: (unlines lines ++ rest).toList := by
      simp [String.toList_append]
    rw [List.flatMap_cons, List.append_assoc, ← ih, split, hchars, List.splitOn_append_cons_self,
      List.map_append, split, split]

theorem split_unlines_eq_flatMap (lines : List String) :
    split '\n' (unlines lines) = lines.flatMap (split '\n') ++ [""] := by
  have h := split_unlines_append lines ""
  rwa [String.append_empty] at h

theorem split_of_isLine {s : String} (h : IsLine s) : split '\n' s = [s] := by
  rw [split, List.splitOn_eq_singleton h, List.map_singleton, String.ofList_toList]

theorem flatMap_split_of_isLine {lines : List String} (h : ∀ line ∈ lines, IsLine line) :
    lines.flatMap (split '\n') = lines := by
  have hlines : lines.flatMap (split '\n') = lines.flatMap fun line => [line] :=
    List.flatMap_congr fun line hline => split_of_isLine (h line hline)
  rw [hlines, List.flatMap_singleton']

theorem split_unlines {lines : List String} (h : ∀ line ∈ lines, IsLine line) :
    split '\n' (unlines lines) = lines ++ [""] := by
  rw [split_unlines_eq_flatMap, flatMap_split_of_isLine h]

/-- A text has one part more than line feeds. -/
theorem length_split (s : String) : (split '\n' s).length = s.toList.count '\n' + 1 := by
  rw [split, List.length_map]
  induction s.toList with
  | nil => rfl
  | cons c cs ih =>
    rw [List.splitOn_cons_eq_if_modifyHead]
    by_cases hc : c = '\n'
    · simp [hc, ih]
    · simp [hc, ih]

theorem length_split_eq_one_iff {s : String} : (split '\n' s).length = 1 ↔ IsLine s := by
  rw [length_split, Nat.add_eq_right, List.count_eq_zero]
  rfl

theorem length_le_length_flatMap_split (lines : List String) :
    lines.length ≤ (lines.flatMap (split '\n')).length := by
  induction lines with
  | nil => exact Nat.le_refl 0
  | cons line rest ih =>
    rw [List.flatMap_cons, List.length_append, List.length_cons, length_split]
    omega

/-- Lines are split into as many parts exactly when none of them has a line feed. -/
theorem length_flatMap_split_eq_iff {lines : List String} :
    (lines.flatMap (split '\n')).length = lines.length ↔ ∀ line ∈ lines, IsLine line := by
  induction lines with
  | nil => simp
  | cons line rest ih =>
    have hrest := length_le_length_flatMap_split rest
    have hline := length_split line
    rw [List.forall_mem_cons, ← ih, ← length_split_eq_one_iff, List.flatMap_cons,
      List.length_append, List.length_cons]
    omega

theorem unlines_eq_join (lines : List String) :
    unlines lines = String.join (lines.map (· ++ "\n")) := by
  induction lines with
  | nil => rfl
  | cons line rest ih => rw [unlines, ih, List.map_cons, String.join_cons]

theorem join_map_unlines {α : Type} (lines : α → List String) (xs : List α) :
    String.join (xs.map fun x => unlines (lines x)) = unlines (xs.flatMap lines) := by
  induction xs with
  | nil => rfl
  | cons x rest ih => rw [List.map_cons, String.join_cons, ih, List.flatMap_cons, unlines_append]

/-- Every line that is left out makes a text shorter, by its line feed at least. -/
theorem length_unlines_of_sublist {xs ys : List String} (h : xs.Sublist ys) :
    (unlines xs).length + ys.length ≤ (unlines ys).length + xs.length := by
  induction h with
  | slnil => exact Nat.le_refl _
  | cons line _ ih =>
    rw [unlines_cons, String.length_append, String.length_append, List.length_cons]
    have hfeed : "\n".length = 1 := rfl
    omega
  | cons_cons line _ ih =>
    rw [unlines_cons, unlines_cons, String.length_append, String.length_append,
      String.length_append, String.length_append, List.length_cons, List.length_cons]
    omega

theorem unlines_inj_of_sublist {xs ys : List String} (h : xs.Sublist ys) :
    unlines xs = unlines ys ↔ xs = ys := by
  refine ⟨fun heq => h.eq_of_length_le ?_, fun heq => heq ▸ rfl⟩
  have hle := length_unlines_of_sublist h
  rw [heq] at hle
  exact Nat.le_of_add_le_add_left hle

/-! ## The last line -/

/-- What stands behind the last line feed of a text is one more line, which nothing ends. -/
theorem exists_lastLine (s : String) :
    ∃ lines line, IsLine line ∧ s = unlines lines ++ line := by
  obtain ⟨cs, rfl⟩ : ∃ cs, s = String.ofList cs := ⟨s.toList, String.ofList_toList.symm⟩
  induction cs using List.reverseRecOn with
  | nil => exact ⟨[], "", by decide, rfl⟩
  | append_singleton cs c ih =>
    rw [String.ofList_append]
    by_cases hc : c = '\n'
    · subst hc
      exact ⟨[String.ofList cs], "", by decide, by simp⟩
    · obtain ⟨lines, line, hline, heq⟩ := ih
      refine ⟨lines, line ++ String.ofList [c], isLine_append.mpr ⟨hline, isLine_ofList ?_⟩, ?_⟩
      · rw [List.mem_singleton]
        exact fun h => hc h.symm
      · rw [heq, String.append_assoc]

/-- A text that is empty or ends with a line feed. -/
def IsLines (s : String) : Prop := ∃ lines, s = unlines lines

theorem isLines_iff {lines : List String} {line : String} (hline : IsLine line) :
    IsLines (unlines lines ++ line) ↔ line = "" := by
  constructor
  · rintro ⟨others, heq⟩
    have hsplit := congrArg (split '\n') heq
    rw [split_unlines_append, split_of_isLine hline, split_unlines_eq_flatMap] at hsplit
    exact (List.singleton_inj.mp (List.append_inj_right' hsplit rfl))
  · rintro rfl
    exact ⟨lines, String.append_empty⟩

/-! ## Beginnings -/

/-- Whether a text begins with a mark. -/
def beginsWith (mark s : String) : Bool := mark.toList.isPrefixOf s.toList

theorem beginsWith_append (mark s : String) : beginsWith mark (mark ++ s) = true := by
  rw [beginsWith, String.toList_append, List.isPrefixOf_iff_prefix]
  exact List.prefix_append _ _

theorem beginsWith_eq_false {mark s : String} {c : Char} (hmark : mark.toList.head? = some c)
    (hs : s.toList.head? ≠ some c) : beginsWith mark s = false := by
  obtain ⟨cs, hcs⟩ := List.head?_eq_some_iff.mp hmark
  rw [beginsWith, hcs]
  cases hd : s.toList with
  | nil => rfl
  | cons d ds =>
    have hne : c ≠ d := fun heq => hs (by rw [hd, heq, List.head?_cons])
    rw [List.isPrefixOf, beq_false_of_ne hne, Bool.false_and]

theorem beginsWith_eq_false_of_notMem {mark s : String} {c : Char} (hmark : c ∈ mark.toList)
    (hs : c ∉ s.toList) : beginsWith mark s = false := by
  rw [beginsWith, Bool.eq_false_iff]
  intro h
  exact hs ((List.isPrefixOf_iff_prefix.mp h).subset hmark)

end Text
end CommandSchema
