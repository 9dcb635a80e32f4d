/-
Texts with white space around them.

Trimming takes white space from both ends of a text and nothing else (`padded_trim`), and leaves
none there (`isTrimmed_trim`).  There is one text without white space at its ends in a text with
white space around it, so trimming finds it (`Padded.trim_eq`).  Nothing is left of a text exactly
when it is blank (`trim_eq_empty_iff`).
-/
import CommandSchema.Text.Blank
import Mathlib.Data.List.TakeWhile

namespace CommandSchema
namespace Text

/-- A text with no white space at either end. -/
structure IsTrimmed (s : String) : Prop where
  front : ∀ c ∈ s.toList.head?, isSpace c = false
  back : ∀ c ∈ s.toList.getLast?, isSpace c = false

/-- White space around a text. -/
def Padded (s padded : String) : Prop :=
  ∃ before after, isBlank before = true ∧ isBlank after = true ∧ padded = before ++ s ++ after

theorem Padded.refl (s : String) : Padded s s :=
  ⟨"", "", rfl, rfl, by rw [String.empty_append, String.append_empty]⟩

theorem isSpace_of_mem_head?_dropWhile (cs : List Char) :
    ∀ c ∈ (cs.dropWhile isSpace).head?, isSpace c = false := by
  intro c hc
  have hhead := List.head?_dropWhile_not isSpace cs
  rw [Option.mem_def.mp hc] at hhead
  exact hhead

/-- A text whose first character is no white space begins behind white space put in front. -/
theorem dropWhile_isSpace_append {blank cs : List Char} (hblank : blank.all isSpace = true)
    (hcs : ∀ c ∈ cs.head?, isSpace c = false) : (blank ++ cs).dropWhile isSpace = cs := by
  rw [List.dropWhile_append_of_pos (List.all_eq_true.mp hblank)]
  cases cs with
  | nil => rfl
  | cons c rest =>
    have hc : ¬ isSpace c = true := Bool.eq_false_iff.mp (hcs c rfl)
    exact List.dropWhile_cons_of_neg hc

/-- What trimming removes at the end of what is left behind the leading white space. -/
theorem trimChars_append (cs : List Char) :
    trimChars cs ++ ((cs.dropWhile isSpace).reverse.takeWhile isSpace).reverse =
      cs.dropWhile isSpace := by
  rw [trimChars, ← List.reverse_append, List.takeWhile_append_dropWhile, List.reverse_reverse]

/-- Trimming takes white space away, and only from the ends. -/
theorem padded_trim (s : String) : Padded (trim s) s := by
  refine ⟨String.ofList (s.toList.takeWhile isSpace),
    String.ofList ((s.toList.dropWhile isSpace).reverse.takeWhile isSpace).reverse, ?_, ?_, ?_⟩
  · rw [isBlank, String.toList_ofList]
    exact List.all_takeWhile
  · rw [isBlank, String.toList_ofList, List.all_reverse]
    exact List.all_takeWhile
  · rw [trim, ← String.toList_inj]
    simp only [String.toList_append, String.toList_ofList, List.append_assoc]
    rw [trimChars_append, List.takeWhile_append_dropWhile]

theorem isTrimmed_trim (s : String) : IsTrimmed (trim s) := by
  rw [trim]
  constructor
  · intro c hc
    rw [String.toList_ofList] at hc
    refine isSpace_of_mem_head?_dropWhile s.toList c ?_
    rw [← trimChars_append, Option.mem_def, List.head?_append, Option.mem_def.mp hc]
    rfl
  · intro c hc
    rw [String.toList_ofList, trimChars, List.getLast?_reverse] at hc
    exact isSpace_of_mem_head?_dropWhile _ c hc

/-- White space around a text goes away when the whole is trimmed. -/
theorem Padded.trim_eq {s padded : String} (h : Padded s padded) (hs : IsTrimmed s) :
    trim padded = s := by
  obtain ⟨before, after, hbefore, hafter, rfl⟩ := h
  rw [trim, ← String.toList_inj, String.toList_ofList, String.toList_append, String.toList_append,
    trimChars, List.append_assoc]
  rcases hchars : s.toList with _ | ⟨c, rest⟩
  · have hblank : (before.toList ++ after.toList).dropWhile isSpace = [] := by
      rw [List.dropWhile_eq_nil_iff, ← List.all_eq_true, List.all_append, Bool.and_eq_true]
      exact ⟨hbefore, hafter⟩
    rw [List.nil_append, hblank]
    rfl
  · have hfront : (before.toList ++ (c :: rest ++ after.toList)).dropWhile isSpace =
        c :: rest ++ after.toList :=
      dropWhile_isSpace_append hbefore fun d hd => hs.front d (by rw [hchars]; exact hd)
    have hback : (after.toList.reverse ++ (c :: rest).reverse).dropWhile isSpace =
        (c :: rest).reverse := by
      refine dropWhile_isSpace_append ?_ fun d hd => hs.back d ?_
      · rw [List.all_reverse]
        exact hafter
      · rw [hchars, ← List.head?_reverse]
        exact hd
    rw [hfront, List.reverse_append, hback, List.reverse_reverse]

/-- Nothing is left of a text exactly when it is blank. -/
theorem trim_eq_empty_iff (s : String) : trim s = "" ↔ isBlank s = true := by
  constructor
  · intro h
    obtain ⟨before, after, hbefore, hafter, hs⟩ := padded_trim s
    rw [h, String.append_empty] at hs
    rw [hs, isBlank, String.toList_append, List.all_append, Bool.and_eq_true]
    exact ⟨hbefore, hafter⟩
  · intro h
    have hpadded : Padded "" s := ⟨s, "", h, rfl, by rw [String.append_empty, String.append_empty]⟩
    exact hpadded.trim_eq ⟨nofun, nofun⟩

end Text
end CommandSchema
