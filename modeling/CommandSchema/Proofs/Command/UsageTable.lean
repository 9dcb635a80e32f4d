/-
The columns of a usage table.

The width of a command is counted in bytes, while the column of tokens is filled by characters.  No
text has more characters than bytes, and no token has more bytes than the width of its command
(`le_width`), so every token is filled to exactly that width, whatever its characters are.  Hidden
options widen the column too, but that moves all rows alike.

`Aligned` says where the parts of the rows of an option stand.  The segments of an enumeration end
in bars, all but the last, so none of the others looks closed.
-/
import CommandSchema.Command.Help
import CommandSchema.Proofs.Command.Additions
import CommandSchema.Proofs.CommandOption.Variants
import CommandSchema.Proofs.Text.Columns
import Mathlib.Data.List.Induction

namespace CommandSchema
namespace Command

/-! ## Widths -/

theorem le_widest {o : CommandOption} {os : List CommandOption} (h : o ∈ os) :
    o.describe.utf8ByteSize ≤ widest os := by
  induction os using List.reverseRecOn with
  | nil => exact absurd h List.not_mem_nil
  | append_singleton os last ih =>
    rw [widest_concat]
    rcases List.mem_append.mp h with h | h
    · exact Nat.le_trans (ih h) (Nat.le_max_left _ _)
    · obtain rfl := List.mem_singleton.mp h
      exact Nat.le_max_right _ _

theorem Consistent.le_width {c : Command} (h : c.Consistent) {o : CommandOption}
    (ho : o ∈ c.options) : o.describe.utf8ByteSize ≤ c.width :=
  h.width ▸ le_widest ho

/-! ## Segments -/

/-- The segments of the enumeration of an option; only an enumeration has any. -/
def segments (o : CommandOption) : List String :=
  if o.kind = .enum then Variants.wrap variantsWidth o.variants else []

theorem brokenAtBars_segments (o : CommandOption) : Variants.BrokenAtBars (segments o) := by
  rw [segments]
  split
  · exact Variants.brokenAtBars_wrap _ _
  · simp [Variants.BrokenAtBars]

theorem closed_concat (others : List String) (last : String) :
    closed (others ++ [last]) = others ++ [last ++ "\""] := by
  induction others with
  | nil => rfl
  | cons segment rest ih =>
    rw [List.cons_append, closed, ih, List.cons_append]
    exact List.append_ne_nil_of_right_ne_nil rest (List.cons_ne_nil last [])

theorem closed_eq (segments : List String) :
    closed segments = segments.dropLast ++ segments.getLast?.toList.map (· ++ "\"") := by
  rcases List.eq_nil_or_concat segments with rfl | ⟨others, last, rfl⟩
  · rfl
  · rw [List.concat_eq_append, closed_concat, List.dropLast_concat, List.getLast?_concat]
    rfl

theorem not_endsInQuote {s : String} (h : Variants.EndsInBar s) (text : String) :
    s ≠ text ++ "\"" := by
  obtain ⟨front, rfl⟩ := h
  intro heq
  have hlast := congrArg (·.toList.getLast?) heq
  simp [String.toList_append] at hlast

/-- A list of texts, the first behind a lead and the others under it. -/
def hanging (lead : String) : List String → List String
  | [] => []
  | first :: rest => (lead ++ first) :: rest.map (Text.spaces lead.length ++ ·)

theorem furtherLines_eq (o : CommandOption) :
    furtherLines o = o.help.tail ++ hanging variantsLead (closed (segments o)) := by
  rw [furtherLines, List.drop_one, segments]
  split
  · rw [variantLines]
    cases closed (Variants.wrap variantsWidth o.variants) with
    | nil => rfl
    | cons first rest => rfl
  · rfl

section Hanging

variable {margin : Nat} {lead : String}

theorem map_hanging (texts : List String) :
    (hanging lead texts).map (Text.spaces margin ++ ·) =
      hanging (Text.spaces margin ++ lead) texts := by
  cases texts with
  | nil => rfl
  | cons first rest =>
    rw [hanging, List.map_cons, List.map_map, hanging, String.append_assoc]
    refine congrArg _ (List.map_congr_left fun text _ => ?_)
    rw [String.length_append, Text.length_spaces, ← Text.spaces_append, String.append_assoc]
    rfl

theorem map_fromColumn_hanging (texts : List String) :
    (hanging lead texts).map (Text.fromColumn lead.length) = texts := by
  cases texts with
  | nil => rfl
  | cons first rest =>
    rw [hanging, List.map_cons, Text.fromColumn_append rfl,
      Text.map_fromColumn_append (Text.length_spaces _)]

theorem beforeColumn_of_mem_head?_hanging {texts : List String} {row : String}
    (h : row ∈ (hanging lead texts).head?) : Text.beforeColumn lead.length row = lead := by
  cases texts with
  | nil => cases h
  | cons first rest =>
    obtain rfl : lead ++ first = row := Option.some.inj h
    exact Text.beforeColumn_append rfl first

theorem beforeColumn_of_mem_tail_hanging {texts : List String} {row : String}
    (h : row ∈ (hanging lead texts).tail) :
    Text.beforeColumn lead.length row = Text.spaces lead.length := by
  cases texts with
  | nil => cases h
  | cons first rest =>
    obtain ⟨text, -, rfl⟩ := List.mem_map.mp h
    exact Text.beforeColumn_append (Text.length_spaces _) text

theorem endsInBar_of_mem_dropLast_hanging {others : List String} {last row : String}
    (hothers : ∀ text ∈ others, Variants.EndsInBar text)
    (h : row ∈ (hanging lead (others ++ [last])).dropLast) : Variants.EndsInBar row := by
  cases others with
  | nil => cases h
  | cons first rest =>
    rw [List.cons_append, hanging, List.map_append, List.map_singleton, ← List.cons_append,
      List.dropLast_concat] at h
    rcases List.mem_cons.mp h with rfl | h
    · exact (hothers first List.mem_cons_self).append lead
    · obtain ⟨text, htext, rfl⟩ := List.mem_map.mp h
      exact (hothers text (List.mem_cons_of_mem first htext)).append _

end Hanging

/-! ## Rows -/

/-- The rows of an option: the one with its token, those with further lines of its help and those
with the segments of its enumeration. -/
structure UsageRows where
  first : String
  help : List String
  segments : List String

def UsageRows.all (rows : UsageRows) : List String := rows.first :: (rows.help ++ rows.segments)

/-- The rows of an option with its token in front of a column.  The separator stands at the column,
all lines of its help 3 characters further right, and the segments of its enumeration 16 characters
right of those, behind their lead and under it.  A quote closes the last segment and no other. -/
structure Aligned (column : Nat) (o : CommandOption) (rows : UsageRows) : Prop where
  token : ∃ n, Text.beforeColumn column rows.first = "    " ++ o.describe ++ Text.spaces n
  separator : Text.fromColumn column rows.first = " : " ++ o.help.headD ""
  firstLine : Text.fromColumn (column + 3) rows.first = o.help.headD ""
  help : rows.help.map (Text.fromColumn (column + 3)) = o.help.tail
  helpMargin : ∀ row ∈ rows.help, Text.beforeColumn (column + 3) row = Text.spaces (column + 3)
  segments : rows.segments.map (Text.fromColumn (column + 3 + 16)) =
    (segments o).dropLast ++ (segments o).getLast?.toList.map (· ++ "\"")
  lead : ∀ row ∈ rows.segments.head?,
    Text.beforeColumn (column + 3 + 16) row = Text.spaces (column + 3) ++ "Valid input is \""
  segmentMargin : ∀ row ∈ rows.segments.tail,
    Text.beforeColumn (column + 3 + 16) row = Text.spaces (column + 3 + 16)
  unclosed : ∀ row ∈ rows.segments.dropLast, ∀ text, row ≠ text ++ "\""

/-- The rows of an option in a table with a column of tokens of some width. -/
def usageRows (width : Nat) (o : CommandOption) : UsageRows where
  first := "    " ++ Text.padRight width o.describe ++ " : " ++ o.help.headD ""
  help := o.help.tail.map (Text.spaces (4 + width + 3) ++ ·)
  segments := hanging (Text.spaces (4 + width + 3) ++ variantsLead) (closed (segments o))

theorem all_usageRows (width : Nat) (o : CommandOption) :
    (usageRows width o).all = optionRows width o := by
  have hmargin : "    " ++ Text.spaces width ++ "   " = Text.spaces (4 + width + 3) := by
    rw [← Text.spaces_append, ← Text.spaces_append]
    rfl
  rw [optionRows, hmargin, furtherLines_eq, List.map_append, map_hanging]
  rfl

theorem aligned_usageRows {width : Nat} {o : CommandOption}
    (h : o.describe.utf8ByteSize ≤ width) : Aligned (4 + width) o (usageRows width o) := by
  have htoken : ("    " ++ Text.padRight width o.describe).length = 4 + width := by
    rw [String.length_append, Text.length_padRight_of_le h]
    rfl
  have hlead : (Text.spaces (4 + width + 3) ++ variantsLead).length = 4 + width + 3 + 16 := by
    rw [String.length_append, Text.length_spaces]
    rfl
  constructor
  case token =>
    refine ⟨width - o.describe.length, ?_⟩
    rw [usageRows, String.append_assoc, Text.beforeColumn_append htoken, Text.padRight,
      String.append_assoc]
  case separator => rw [usageRows, String.append_assoc, Text.fromColumn_append htoken]
  case firstLine =>
    refine Text.fromColumn_append ?_ _
    rw [String.length_append, htoken]
    rfl
  case help => exact Text.map_fromColumn_append (Text.length_spaces _) _
  case helpMargin =>
    intro row hrow
    obtain ⟨line, -, rfl⟩ := List.mem_map.mp hrow
    exact Text.beforeColumn_append (Text.length_spaces _) line
  case segments => rw [usageRows, ← hlead, map_fromColumn_hanging, closed_eq]
  case lead =>
    intro row hrow
    rw [← hlead]
    exact beforeColumn_of_mem_head?_hanging hrow
  case segmentMargin =>
    intro row hrow
    rw [← hlead]
    exact beforeColumn_of_mem_tail_hanging hrow
  case unclosed =>
    intro row hrow
    rcases List.eq_nil_or_concat (segments o) with hnone | ⟨others, last, hsome⟩
    · rw [usageRows, hnone] at hrow
      cases hrow
    · rw [List.concat_eq_append] at hsome
      have hbars := brokenAtBars_segments o
      rw [Variants.BrokenAtBars, hsome, List.dropLast_concat] at hbars
      rw [usageRows, hsome, closed_concat] at hrow
      exact not_endsInQuote (endsInBar_of_mem_dropLast_hanging hbars hrow)

/-- After any additions, the usage table of a command has the rows of its visible options, one after
the other, all aligned to one column. -/
theorem aligned_attemptAll {c : Command} (h : c.IsMade) (as : List Addition) :
    ∃ blocks : List UsageRows,
      List.Forall₂ (Aligned (4 + (c.attemptAll as).width)) (c.attemptAll as).visible blocks ∧
      (c.attemptAll as).helpLines =
        if (c.attemptAll as).visible = [] then (c.attemptAll as).help
        else (c.attemptAll as).help ++ legend ++ ["", "  Usage:"] ++
          blocks.flatMap UsageRows.all ++
          ["", "  Note: Use --help=option to show more detail of the option"] := by
  have hafter : (c.attemptAll as).Consistent := h.consistent.attemptAll as
  generalize c.attemptAll as = d at hafter ⊢
  refine ⟨d.visible.map (usageRows d.width), ?_, ?_⟩
  · refine List.forall₂_map_right_iff.mpr (List.forall₂_same.mpr fun o ho => ?_)
    exact aligned_usageRows (hafter.le_width (List.mem_filter.mp ho).1)
  · rw [helpLines, hasTable, List.flatMap_map]
    simp only [all_usageRows]
    cases hvisible : d.visible with
    | nil => rfl
    | cons o rest => simp [usageTable, List.append_assoc]

/-- Additions of which the last one is hidden and has the widest token.  The second is no option
that any declaration has. -/
def tableAdditions : List Addition := [
  .declared { name := "mode", type := "read|verify|program_everything|erase_and_verify_again|ok",
              optional := true, help := .lines ["How to burn", "the flash"] },
  .option { name := "Länge µ", kind := .int, multiple := true, default := .unset,
            help := ["In cm"] },
  .option { name := "unter_der_Oberfläche", kind := .flag, default := .unset, help := [],
            hidden := true }]

theorem aligned_tableAdditions :
    ∃ c, create "burn" ["Burn a device"] {} false = .ok c ∧
      (c.attemptAll tableAdditions).width = 25 ∧
      ((c.attemptAll tableAdditions).helpLines.drop 8).take 5 = [
        "    \x7b mode \x7d                  : How to burn",
        "                                the flash",
        "                                Valid input is \"read|verify|program_everything|",
        "                                                erase_and_verify_again|ok\"",
        "    < Länge µ >s              : In cm"] ∧
      ∃ blocks : List UsageRows,
        List.Forall₂ (Aligned (4 + (c.attemptAll tableAdditions).width))
          (c.attemptAll tableAdditions).visible blocks := by
  have hcreate : create "burn" ["Burn a device"] {} false =
      .ok { name := "burn", help := ["Burn a device"] } := rfl
  obtain ⟨blocks, haligned, -⟩ := aligned_attemptAll (.created hcreate) tableAdditions
  exact ⟨_, hcreate, by decide +kernel, by decide +kernel, blocks, haligned⟩

end Command
end CommandSchema
