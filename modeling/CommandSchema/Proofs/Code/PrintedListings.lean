/-
The lists of members in generated definitions, line by line.

A definition holds a list as the text of its lines, and whoever prints it sees the parts between
line feeds.  Everything around the members is one line each, and so is what stands in front of a
description.  A description is any text that is not blank, so its row is one part more than it has
line feeds, and a list has one line for each member exactly when no description listed has a line
feed in it.
-/
import CommandSchema.Proofs.Code.Screens
import CommandSchema.Proofs.Group.Listings

namespace CommandSchema
namespace Group

/-- Between the main help and the end, a text with the list of members has an empty line, the
heading, one line for each member listed, an empty line and the note. -/
def ListsByLine (g : Group) (withHidden : Bool) (text : String) : Prop :=
  ∃ rows : List String, rows.length = (g.listed withHidden).length ∧
    Text.split '\n' text = g.mainHelp.flatMap (Text.split '\n') ++
      ["", "  Supported sub commands:"] ++ rows ++ ["", g.note, ""]

theorem isLine_note {g : Group} (h : g.WellFormed) : Text.IsLine g.note := by
  rw [note, Text.isLine_append, Text.isLine_append]
  exact ⟨⟨by decide, h.isName.isLine⟩, by decide⟩

/-- A row has the line feeds of the description in it, and no other. -/
theorem count_memberRow {width : Nat} {m : Member} (h : Name.IsName .lower m.name) :
    (memberRow width m).toList.count '\n' = m.description.toList.count '\n' := by
  have hfront : Text.IsLine ("    " ++ Text.padRight width m.name ++ " : ") := by
    rw [Text.isLine_append, Text.isLine_append, Text.padRight, Text.isLine_append]
    exact ⟨⟨by decide, h.isLine, Text.notMem_spaces (by decide) _⟩, by decide⟩
  rw [memberRow, String.toList_append, List.count_append, List.count_eq_zero.mpr hfront,
    Nat.zero_add]

theorem isLine_memberRow_iff {width : Nat} {m : Member} (h : Name.IsName .lower m.name) :
    Text.IsLine (memberRow width m) ↔ Text.IsLine m.description := by
  rw [Text.IsLine, ← List.count_eq_zero, count_memberRow h, List.count_eq_zero]
  rfl

/-- The lines of a screen with a list, split at line feeds. -/
theorem split_helpLines {g : Group} (h : g.WellFormed) (withHidden : Bool) :
    Text.split '\n' (Text.unlines (g.helpLines withHidden)) =
      g.mainHelp.flatMap (Text.split '\n') ++ ["", "  Supported sub commands:"] ++
        ((g.listed withHidden).map (memberRow g.width)).flatMap (Text.split '\n') ++
        ["", g.note, ""] := by
  have hempty : Text.split '\n' "" = [""] := rfl
  have hheading : Text.split '\n' "  Supported sub commands:" = ["  Supported sub commands:"] :=
    Text.split_of_isLine (by decide)
  rw [Text.split_unlines_eq_flatMap, helpLines_eq, opening]
  simp only [List.flatMap_append, List.flatMap_cons, List.flatMap_nil, hempty, hheading,
    Text.split_of_isLine (isLine_note h), List.append_nil, List.append_assoc, List.cons_append,
    List.nil_append]

theorem listsByLine_helpLines_iff {g : Group} (h : g.WellFormed) {withHidden : Bool} :
    g.ListsByLine withHidden (Text.unlines (g.helpLines withHidden)) ↔
      ∀ m ∈ g.listed withHidden, Text.IsLine m.description := by
  have hrows : (∀ row ∈ (g.listed withHidden).map (memberRow g.width), Text.IsLine row) ↔
      ∀ m ∈ g.listed withHidden, Text.IsLine m.description := by
    rw [List.forall_mem_map]
    exact forall₂_congr fun m hm =>
      isLine_memberRow_iff (h.members m ((g.listed_sublist withHidden).subset hm)).isName
  rw [ListsByLine, split_helpLines h, ← hrows, ← Text.length_flatMap_split_eq_iff,
    List.length_map]
  constructor
  · rintro ⟨rows, hlength, heq⟩
    rw [List.append_cancel_right_eq, List.append_cancel_left_eq] at heq
    rw [heq, hlength]
  · exact fun hlength => ⟨_, hlength, rfl⟩

/-- The constant that holds a list. -/
def listConstant (g : Group) : Bool → String
  | false => Code.helpConstant (Name.className g.name)
  | true => Code.hiddenHelpConstant (Name.className g.name)

theorem exists_screens_eq (g : Group) (withHidden : Bool) :
    ∃ before s after, Code.screens (.group g) = before ++ s :: after ∧
      s.constant = g.listConstant withHidden ∧ s.lines = g.helpLines withHidden := by
  rw [Code.screens, Code.dispatcherScreens]
  cases withHidden with
  | false => exact ⟨_, _, _, rfl, rfl, rfl⟩
  | true => exact ⟨_, _, _, List.append_cons .., rfl, rfl⟩

/-- The text of a list stands in a raw literal of the definition. -/
theorem exists_definition_eq (g : Group) (withHidden : Bool) :
    ∃ front back, (Code.ofTop (.group g)).definition =
      front ++ ("const char * " ++ g.listConstant withHidden ++ " = R\"\"\"\"(\n" ++
        Text.unlines (g.helpLines withHidden) ++ ")\"\"\"\";\n") ++ back := by
  obtain ⟨before, s, after, hscreens, hconstant, hlines⟩ := exists_screens_eq g withHidden
  refine ⟨Text.unlines (before.flatMap Code.Screen.written),
    Text.unlines ("" :: (s.code ++ after.flatMap Code.Screen.written)), ?_⟩
  have hfeed : " = R\"\"\"\"(\n" = " = R\"\"\"\"(" ++ "\n" := by decide
  have hclose : ")\"\"\"\";\n" = ")\"\"\"\";" ++ "\n" := by decide
  rw [Code.definition_ofTop, hscreens, List.flatMap_append, List.flatMap_cons, Code.Screen.written,
    Code.rawConstant, hconstant, hlines, hfeed, hclose]
  simp only [Text.unlines_append, Text.unlines_cons, List.cons_append, List.append_assoc,
    String.append_assoc, List.nil_append, String.empty_append]

/-- The definition of a group holds the text of each list.  In it every member listed has as many
lines as its description, that is one for each line feed and one more; everything else is one line
each.  So the text has one line for each member exactly when no description has a line feed. -/
theorem listsByLine_of_assemble {name : String} {entries : List GroupEntry} {g : Group}
    (h : TopCommand.assemble name (.group entries) = .ok (.group g)) (withHidden : Bool) :
    ∃ front text back, (Code.ofTop (.group g)).definition =
        front ++ ("const char * " ++ g.listConstant withHidden ++ " = R\"\"\"\"(\n" ++ text ++
          ")\"\"\"\";\n") ++ back ∧
      text = Text.unlines (g.helpLines withHidden) ∧
      (∃ rows : List (List String),
        Text.split '\n' text = g.mainHelp.flatMap (Text.split '\n') ++
          ["", "  Supported sub commands:"] ++ rows.flatten ++ ["", g.note, ""] ∧
        List.Forall₂ (fun m lines => lines.length = m.description.toList.count '\n' + 1)
          (g.listed withHidden) rows) ∧
      (g.ListsByLine withHidden text ↔
        ∀ m ∈ g.listed withHidden, '\n' ∉ m.description.toList) := by
  obtain ⟨-, hwell⟩ := wellFormed_of_ofEntries (ofEntries_of_assemble h)
  obtain ⟨front, back, hdefinition⟩ := exists_definition_eq g withHidden
  refine ⟨front, _, back, hdefinition, rfl,
    ⟨(g.listed withHidden).map fun m => Text.split '\n' (memberRow g.width m), ?_, ?_⟩,
    listsByLine_helpLines_iff hwell⟩
  · rw [split_helpLines hwell, List.flatMap_map]
    rfl
  · refine List.forall₂_map_right_iff.mpr (List.forall₂_same.mpr fun m hm => ?_)
    have hname := (hwell.members m ((g.listed_sublist withHidden).subset hm)).isName
    rw [Text.length_split, count_memberRow hname]

/-- Entries of a group with a line feed in a description, of a member that is hidden or not. -/
def brokenEntries (hidden : Bool) : List GroupEntry := [
  .help (.lines ["Tools", ""]),
  .member "sub0"
    { description := "First\nSecond", command := { help := .line "h", hidden := hidden } },
  .member "check" { description := "Check\tonly", command := { help := .line "h" } }]

theorem listsByLine_brokenEntries_hidden :
    ∃ g, TopCommand.assemble "utst" (.group (brokenEntries true)) = .ok (.group g) ∧
      g.ListsByLine false (Text.unlines (g.helpLines false)) ∧
      ¬ g.ListsByLine true (Text.unlines (g.helpLines true)) := by
  have h : TopCommand.assemble "utst" (.group (brokenEntries true)) = .ok (.group _) := rfl
  refine ⟨_, h, ?_, ?_⟩
  · obtain ⟨_, _, _, -, rfl, -, hiff⟩ := listsByLine_of_assemble h false
    exact hiff.mpr (by decide +kernel)
  · obtain ⟨_, _, _, -, rfl, -, hiff⟩ := listsByLine_of_assemble h true
    exact fun hlines => absurd (hiff.mp hlines) (by decide +kernel)

/-- A member that is listed takes two lines, and the second of them looks like no member. -/
theorem not_listsByLine_brokenEntries :
    ∃ g front text back,
      TopCommand.assemble "utst" (.group (brokenEntries false)) = .ok (.group g) ∧
      (Code.ofTop (.group g)).definition =
        front ++ ("const char * CFGArg_UTST_HELP = R\"\"\"\"(\n" ++ text ++
          ")\"\"\"\";\n") ++ back ∧
      Text.split '\n' text = ["Tools", "", "",
        "  Supported sub commands:", "    sub0  : First", "Second", "    check : Check\tonly", "",
        "  Note: Use \"utst <sub command> --help\" to show more detail of the sub command", ""] ∧
      ¬ g.ListsByLine false text := by
  have h : TopCommand.assemble "utst" (.group (brokenEntries false)) = .ok (.group _) := rfl
  obtain ⟨-, hwell⟩ := wellFormed_of_ofEntries (ofEntries_of_assemble h)
  obtain ⟨front, back, hdefinition⟩ := exists_definition_eq _ false
  refine ⟨_, front, _, back, h, hdefinition, by decide +kernel, ?_⟩
  rw [listsByLine_helpLines_iff hwell]
  decide +kernel

end Group
end CommandSchema
