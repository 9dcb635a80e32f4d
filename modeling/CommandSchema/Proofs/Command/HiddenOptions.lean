/-
What the help screen of a command shows of its hidden options.

A hidden option takes its names, so it decides which options can be added after it, and it counts
for the column of tokens.  The screen is made from the help of the command, its visible options and
the width of that column.  The width is that of the widest token, visible or hidden, so the one
thing that the screen can tell about hidden options is the size of their widest token, and only if
it is wider than the tokens of all visible ones (`Consistent.width_eq_max`).
-/
import CommandSchema.Proofs.Command.UsageTable

namespace CommandSchema

/-- An addition whose option is hidden. -/
def Addition.Hides : Addition → Prop
  | .option o => o.hidden = true
  | .declared decl => decl.hide = true

namespace Command

/-- A command at any time: as it is made, and after any addition, accepted or refused. -/
inductive IsReached : Command → Prop
  | made {c : Command} (h : c.IsMade) : IsReached c
  | attempt {c : Command} (h : IsReached c) (a : Addition) : IsReached (c.attempt a)

/-- The options that the help screen leaves out. -/
def concealed (c : Command) : List CommandOption := c.options.filter (·.hidden)

theorem IsReached.consistent {c : Command} (h : c.IsReached) : c.Consistent := by
  induction h with
  | made h => exact h.consistent
  | attempt _ a ih => exact ih.attempt a

theorem IsReached.attemptAll {c : Command} (h : c.IsReached) (as : List Addition) :
    (c.attemptAll as).IsReached := by
  induction as generalizing c with
  | nil => exact h
  | cons a rest ih => exact ih (h.attempt a)

/-! ## Widths -/

theorem widest_eq_max_filter (p : CommandOption → Bool) (os : List CommandOption) :
    widest os = max (widest (os.filter p)) (widest (os.filter (!p ·))) := by
  induction os using List.reverseRecOn with
  | nil => rfl
  | append_singleton os last ih =>
    rw [widest_concat, ih, List.filter_append, List.filter_append]
    cases hlast : p last with
    | true =>
      rw [List.filter_singleton, List.filter_singleton, hlast, Bool.not_true, cond_true,
        cond_false, widest_concat, List.append_nil, Nat.max_right_comm]
    | false =>
      rw [List.filter_singleton, List.filter_singleton, hlast, Bool.not_false, cond_true,
        cond_false, widest_concat, List.append_nil, Nat.max_assoc]

theorem Consistent.width_eq_max {c : Command} (h : c.Consistent) :
    c.width = max (widest c.visible) (widest c.concealed) := by
  rw [h.width, widest_eq_max_filter (·.hidden), Nat.max_comm]
  rfl

/-! ## Screens -/

theorem visible_eq_nil_iff {c : Command} : c.visible = [] ↔ ∀ o ∈ c.options, o.hidden = true := by
  simp [visible, List.filter_eq_nil_iff]

theorem helpLines_of_visible_eq_nil {c : Command} (h : c.visible = []) : c.helpLines = c.help := by
  rw [helpLines, hasTable, h]
  rfl

theorem helpLines_of_visible_ne_nil {c : Command} (h : c.visible ≠ []) :
    c.helpLines = c.help ++ legend ++ usageTable c.width c.visible := by
  have htable : c.hasTable = true := by simpa [hasTable] using h
  rw [helpLines, if_pos htable]

theorem helpLines_congr {c d : Command} (hhelp : d.help = c.help) (hwidth : d.width = c.width)
    (hvisible : d.visible = c.visible) : d.helpLines = c.helpLines := by
  rw [helpLines, helpLines, hasTable, hasTable, hhelp, hwidth, hvisible]

theorem not_append_legend_prefix (lines : List String) : ¬ lines ++ legend <+: lines := by
  intro h
  have hlegend : legend.length = 5 := rfl
  have hlength : (lines ++ legend).length ≤ lines.length := h.length_le
  rw [List.length_append, hlegend] at hlength
  omega

/-- Below the help there are a legend and a table, or nothing. -/
theorem legend_prefix_helpLines_iff {c : Command} :
    c.help ++ legend <+: c.helpLines ↔ c.visible ≠ [] := by
  constructor
  · intro hlegend hnone
    rw [helpLines_of_visible_eq_nil hnone] at hlegend
    exact not_append_legend_prefix _ hlegend
  · intro hsome
    rw [helpLines_of_visible_ne_nil hsome]
    exact List.prefix_append _ _

theorem helpLines_eq_help_iff {c : Command} : c.helpLines = c.help ↔ c.visible = [] := by
  refine ⟨fun heq => not_not.mp fun hsome => ?_, helpLines_of_visible_eq_nil⟩
  have hlegend := legend_prefix_helpLines_iff.mpr hsome
  rw [heq] at hlegend
  exact not_append_legend_prefix _ hlegend

/-! ## Additions of hidden options -/

theorem exists_push_of_hides {c d : Command} {a : Addition} (ha : a.Hides)
    (h : c.accept a = .ok d) : ∃ o, o.hidden = true ∧ d = c.push o := by
  obtain ⟨o, -, rfl, rfl | ⟨decl, rfl, hresolve⟩⟩ := accept_eq_ok_iff.mp h
  · exact ⟨o, ha, rfl⟩
  · exact ⟨o, (CommandOption.hidden_of_resolve hresolve).trans ha, rfl⟩

theorem visible_push_of_hidden {c : Command} {o : CommandOption} (h : o.hidden = true) :
    (c.push o).visible = c.visible := by
  simp [visible, push, h]

/-- An addition that hides changes neither the help of a command nor its visible options. -/
theorem attempt_of_hides (c : Command) {a : Addition} (h : a.Hides) :
    (c.attempt a).help = c.help ∧ (c.attempt a).visible = c.visible := by
  rw [attempt]
  split
  next d haccept =>
    obtain ⟨o, ho, rfl⟩ := exists_push_of_hides h haccept
    exact ⟨rfl, visible_push_of_hidden ho⟩
  next => exact ⟨rfl, rfl⟩

theorem attemptAll_of_hides (c : Command) {as : List Addition} (h : ∀ a ∈ as, a.Hides) :
    (c.attemptAll as).help = c.help ∧ (c.attemptAll as).visible = c.visible := by
  induction as generalizing c with
  | nil => exact ⟨rfl, rfl⟩
  | cons a rest ih =>
    obtain ⟨ha, hrest⟩ := List.forall_mem_cons.mp h
    obtain ⟨hhelp, hvisible⟩ := attempt_of_hides c ha
    obtain ⟨hhelps, hvisibles⟩ := ih (c.attempt a) hrest
    exact ⟨hhelps.trans hhelp, hvisibles.trans hvisible⟩

/-- Two commands with the same help, the same visible options and columns of one width have the
same help screen, whatever their hidden options are.  The width is that of the widest token, so the
size of the widest hidden token is all that matters of them, and further hidden options that leave
the width as it is change nothing.  Legend and table are there exactly when some option is
visible. -/
theorem helpLines_of_isReached {c : Command} (hc : c.IsReached) :
    (∀ d : Command, d.IsReached → d.help = c.help → d.visible = c.visible →
      d.width = c.width ∨ widest d.concealed = widest c.concealed → d.helpLines = c.helpLines) ∧
    (∀ as : List Addition, (∀ a ∈ as, a.Hides) → (c.attemptAll as).width = c.width →
      (c.attemptAll as).helpLines = c.helpLines) ∧
    c.width = max (widest c.visible) (widest c.concealed) ∧
    (c.help ++ legend <+: c.helpLines ↔ ∃ o ∈ c.options, o.hidden = false) ∧
    (c.helpLines = c.help ++ legend ++ usageTable c.width c.visible ↔
      ∃ o ∈ c.options, o.hidden = false) ∧
    (c.helpLines = c.help ↔ ∀ o ∈ c.options, o.hidden = true) := by
  have hsome : c.visible ≠ [] ↔ ∃ o ∈ c.options, o.hidden = false := by
    simp [visible_eq_nil_iff]
  refine ⟨?_, ?_, hc.consistent.width_eq_max, ?_, ?_, ?_⟩
  · rintro d hd hhelp hvisible (hwidth | hwidest)
    · exact helpLines_congr hhelp hwidth hvisible
    · refine helpLines_congr hhelp ?_ hvisible
      rw [hd.consistent.width_eq_max, hc.consistent.width_eq_max, hvisible, hwidest]
  · intro as has hwidth
    obtain ⟨hhelp, hvisible⟩ := attemptAll_of_hides c has
    exact helpLines_congr hhelp hwidth hvisible
  · rw [legend_prefix_helpLines_iff, hsome]
  · rw [← hsome]
    refine ⟨fun heq => legend_prefix_helpLines_iff.mp ?_, helpLines_of_visible_ne_nil⟩
    rw [heq]
    exact List.prefix_append _ _
  · rw [helpLines_eq_help_iff, visible_eq_nil_iff]

/-- An option that is visible, between two hidden ones. -/
def burnAdditions : List Addition := [
  .declared { name := "erase", short := some "e", type := "flag", help := .line "Factory erase",
              hide := true },
  .declared { name := "mode", type := "read|write", optional := true, help := .line "How to burn" },
  .declared { name := "backdoor", type := "int", multi := true, help := .line "Debug",
              hide := true }]

/-- Hidden options, of which the second is refused.  The first is no option that any declaration
has. -/
def hiddenAdditions : List Addition := [
  .option { name := "Key µ", kind := .enum, default := .int 1, help := [], hidden := true },
  .declared { name := "mode", type := "flag", help := .line "again", hide := true },
  .declared { name := "unlock", short := some "u", type := "str", optional := true,
              help := .lines ["Service", "only"], hide := true }]

theorem helpLines_burnAdditions :
    ∃ c, create "burn" ["Burn a device"] {} false = .ok c ∧
      ((c.attemptAll burnAdditions).attemptAll hiddenAdditions).concealed.map CommandOption.name =
        ["erase", "backdoor", "Key µ", "unlock"] ∧
      ((c.attemptAll burnAdditions).attemptAll hiddenAdditions).helpLines =
        (c.attemptAll burnAdditions).helpLines ∧
      (c.attemptAll burnAdditions).helpLines.drop 8 = ["    \x7b mode \x7d      : How to burn",
        "                    Valid input is \"read|write\"",
        "", "  Note: Use --help=option to show more detail of the option"] ∧
      (c.attemptAll hiddenAdditions).helpLines = c.help := by
  have hcreate : create "burn" ["Burn a device"] {} false =
      .ok { name := "burn", help := ["Burn a device"] } := rfl
  have hreached := IsReached.made (.created hcreate)
  refine ⟨_, hcreate, by decide +kernel, ?_, by decide +kernel, ?_⟩
  · obtain ⟨-, hadditions, -⟩ := helpLines_of_isReached (hreached.attemptAll burnAdditions)
    exact hadditions hiddenAdditions (by simp [hiddenAdditions, Addition.Hides])
      (by decide +kernel)
  · obtain ⟨-, -, -, -, -, hnothing⟩ :=
      helpLines_of_isReached (hreached.attemptAll hiddenAdditions)
    exact hnothing.mpr (by decide +kernel)

end Command
end CommandSchema
