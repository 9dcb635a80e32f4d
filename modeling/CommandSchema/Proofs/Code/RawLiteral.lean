/-
Help screens as a compiler reads them.

A raw literal says itself where it ends: what stands between its quote and the next parenthesis is
its delimiter, and it goes on to the first closing parenthesis with the delimiter and a quote behind
it.  Generated code has one delimiter for all screens.  Nothing of a screen is escaped, so a screen
is read as it was written when the closing sequence does not occur on any of its lines
(`readsBack_iff`).  A sequence that begins on one line and ends on another does no harm, since line
feeds are no part of it.
-/
import CommandSchema.Proofs.Code.Screens
import CommandSchema.Proofs.Text.Marks

namespace CommandSchema
namespace Code

/-- What a raw literal holds, and what is behind it, given the text behind its quote. -/
def readRaw (text : List Char) : Option (List Char × List Char) := do
  let (delimiter, rest) ← Text.cutAt ['('] text
  Text.cutAt (')' :: delimiter ++ ['"']) rest

/-- What ends the raw literals of generated code. -/
def closing : String := ")\"\"\"\""

/-- A text that would end a raw literal of generated code. -/
def Closes (s : String) : Prop := closing.toList <:+: s.toList

instance (s : String) : Decidable (Closes s) :=
  inferInstanceAs (Decidable (closing.toList <:+: s.toList))

theorem closing_ne_nil : closing.toList ≠ [] := by decide

/-- A source that holds, behind some text, the constant of a screen, with a literal that is read as
the lines of the screen, and then the end of the statement. -/
def ReadsBack (source before : String) (s : Screen) : Prop :=
  ∃ text rest, source = before ++ ("const char * " ++ s.constant ++ " = R\"") ++ text ∧
    readRaw text.toList = some (("\n" ++ Text.unlines s.lines).toList, ';' :: rest)

theorem readRaw_eq {delimiter rest : List Char} (h : '(' ∉ delimiter) :
    readRaw (delimiter ++ '(' :: rest) = Text.cutAt (')' :: delimiter ++ ['"']) rest := by
  have hfree : ¬ ['('] <:+: delimiter ++ ['('].dropLast := fun hmark =>
    h (by simpa using hmark.subset)
  have hcut : Text.cutAt ['('] (delimiter ++ ['('] ++ rest) = some (delimiter, rest) :=
    (Text.cutAt_append_iff (List.cons_ne_nil _ _)).mpr hfree
  rw [List.append_assoc, List.singleton_append] at hcut
  rw [readRaw, hcut]
  rfl

theorem readRaw_delimited (text : List Char) :
    readRaw ("\"\"\"(".toList ++ text) = Text.cutAt closing.toList text :=
  readRaw_eq (by decide : '(' ∉ "\"\"\"".toList)

theorem closes_unlines_iff {lines : List String} :
    closing.toList <:+: ("\n" ++ Text.unlines lines).toList ++ closing.toList.dropLast ↔
      ∃ line ∈ lines, Closes line := by
  have hfeed : '\n' ∉ closing.toList := by decide
  have hend : ¬ closing.toList <:+: closing.toList.dropLast := by decide
  have hchars : ("\n" ++ Text.unlines lines).toList ++ closing.toList.dropLast =
      [] ++ '\n' :: ((Text.unlines lines).toList ++ closing.toList.dropLast) := by
    rw [String.toList_append]
    rfl
  have hempty : ¬ closing.toList <:+: [] := by decide
  rw [hchars, Text.infix_append_cons_iff closing_ne_nil hfeed, or_iff_right hempty,
    Text.infix_unlines_iff closing_ne_nil hfeed, or_iff_left hend]
  rfl

theorem readRaw_screen_iff {lines : List String} {back : List Char} :
    (∃ rest, readRaw ("\"\"\"(".toList ++ ("\n" ++ Text.unlines lines).toList ++ closing.toList ++
        ';' :: back) = some (("\n" ++ Text.unlines lines).toList, ';' :: rest)) ↔
      ∀ line ∈ lines, ¬ Closes line := by
  rw [List.append_assoc, List.append_assoc, readRaw_delimited, ← List.append_assoc]
  constructor
  · rintro ⟨rest, hcut⟩ line hline hcloses
    have hrest : ';' :: back = ';' :: rest := List.append_cancel_left (Text.eq_of_cutAt hcut)
    rw [← hrest, Text.cutAt_append_iff closing_ne_nil, closes_unlines_iff] at hcut
    exact hcut ⟨line, hline, hcloses⟩
  · intro hfree
    refine ⟨back, ?_⟩
    rw [Text.cutAt_append_iff closing_ne_nil, closes_unlines_iff]
    rintro ⟨line, hline, hcloses⟩
    exact hfree line hline hcloses

/-- The text of several screens behind the quote that begins the literal of the first. -/
def behindQuote (s : Screen) (after : List Screen) : String :=
  "\"\"\"(" ++ ("\n" ++ Text.unlines s.lines) ++ closing ++ ";" ++
    ("\n\n" ++ Text.unlines (s.code ++ after.flatMap Screen.written))

theorem unlines_written (s : Screen) (after : List Screen) :
    Text.unlines ((s :: after).flatMap Screen.written) =
      "const char * " ++ s.constant ++ " = R\"" ++ behindQuote s after := by
  have hopen : " = R\"\"\"\"(" = " = R\"" ++ "\"\"\"(" := by decide
  have hclose : ")\"\"\"\";" = closing ++ ";" := by decide
  have hfeeds : "\n\n" = "\n" ++ "\n" := by decide
  simp only [behindQuote, List.flatMap_cons, Screen.written, rawConstant, List.cons_append,
    Text.unlines_append, Text.unlines_cons, Text.unlines_nil, hopen, hclose, hfeeds,
    String.append_assoc, String.empty_append, List.append_assoc]

/-- The literal of a screen is read as its lines exactly when none of them has the closing sequence
in it, whatever stands on other screens. -/
theorem readsBack_iff {before after : List Screen} {s : Screen} :
    ReadsBack (Text.unlines ((before ++ s :: after).flatMap Screen.written))
        (Text.unlines (before.flatMap Screen.written)) s ↔
      ∀ line ∈ s.lines, ¬ Closes line := by
  have hbehind : ∀ text : String,
      Text.unlines ((before ++ s :: after).flatMap Screen.written) =
        Text.unlines (before.flatMap Screen.written) ++
          ("const char * " ++ s.constant ++ " = R\"") ++ text ↔ behindQuote s after = text := by
    intro text
    rw [List.flatMap_append, Text.unlines_append, unlines_written, ← String.append_assoc,
      String.append_right_inj]
  have hchars : (behindQuote s after).toList = "\"\"\"(".toList ++
      ("\n" ++ Text.unlines s.lines).toList ++ closing.toList ++
        ';' :: ("\n\n" ++ Text.unlines (s.code ++ after.flatMap Screen.written)).toList := by
    simp only [behindQuote, String.toList_append, List.append_assoc]
    rfl
  rw [← readRaw_screen_iff, ← hchars]
  simp only [ReadsBack, hbehind]
  exact ⟨fun ⟨_, rest, heq, hread⟩ => ⟨rest, heq ▸ hread⟩, fun ⟨rest, hread⟩ => ⟨_, rest, rfl, hread⟩⟩

end Code
end CommandSchema
