/-
The two lists of members on the help screens of a group.

Both lists are written for one column, which is as wide as the longest name of any member, hidden or
not.  A member has the same row in both of them, so the list without hidden members is the other one
with the rows of hidden members taken out, and nothing else tells the two apart.  What is left of a
hidden member in it is the length of its name (`helpLines_congr`).
-/
import CommandSchema.Proofs.Group.Acceptance
import CommandSchema.Proofs.Text.Columns
import CommandSchema.Proofs.Text.Lines
import Mathlib.Order.Bounds.Defs

namespace CommandSchema

namespace Member

/-- What the list without hidden members is made from: of a hidden member the length of its name,
and of any other one its name and its description besides. -/
def shown (m : Member) : Nat × Option (String × String) :=
  (m.name.utf8ByteSize, if m.isHidden then none else some (m.name, m.description))

/-- What both lists are made from. -/
def card (m : Member) : String × String × Bool := (m.name, m.description, m.isHidden)

theorem map_card_of_builds {group : String} {entries : List (String × MemberDecl)}
    {members : List Member} (h : List.Forall₂ (Builds group) entries members) :
    members.map card =
      entries.map fun entry => (entry.1, entry.2.description, entry.2.command.hidden) := by
  induction h with
  | nil => rfl
  | @cons entry m _ _ hm _ ih =>
    obtain ⟨-, command, hcommand, rfl⟩ := ofDecl_eq_ok_iff.mp hm
    rw [List.map_cons, List.map_cons, ih, card, isHidden, Command.hidden_of_ofDecl hcommand]

end Member

namespace Group

/-! ## Widths -/

theorem longestName_eq (members : List Member) :
    longestName members = (members.map (·.name.utf8ByteSize)).foldr max 0 := by
  induction members with
  | nil => rfl
  | cons m rest ih => rw [longestName, ih, List.map_cons, List.foldr_cons]

theorem le_longestName {members : List Member} {m : Member} (h : m ∈ members) :
    m.name.utf8ByteSize ≤ longestName members := by
  induction members with
  | nil => exact absurd h List.not_mem_nil
  | cons first rest ih =>
    rcases List.mem_cons.mp h with rfl | h
    · exact Nat.le_max_left _ _
    · exact Nat.le_trans (ih h) (Nat.le_max_right _ _)

theorem exists_eq_longestName {members : List Member} (h : members ≠ []) :
    ∃ m ∈ members, m.name.utf8ByteSize = longestName members := by
  induction members with
  | nil => exact absurd rfl h
  | cons first rest ih =>
    rw [longestName]
    rcases Nat.le_total (longestName rest) first.name.utf8ByteSize with hle | hle
    · exact ⟨first, List.mem_cons_self, (Nat.max_eq_left hle).symm⟩
    · cases rest with
      | nil => exact ⟨first, List.mem_cons_self, (Nat.max_eq_left (Nat.zero_le _)).symm⟩
      | cons second rest =>
        obtain ⟨m, hm, heq⟩ := ih (List.cons_ne_nil second rest)
        exact ⟨m, List.mem_cons_of_mem first hm, heq.trans (Nat.max_eq_right hle).symm⟩

/-- The column of names is as wide as the longest of them. -/
theorem WellFormed.isGreatest_width {g : Group} (h : g.WellFormed) :
    IsGreatest {n | ∃ m ∈ g.members, m.name.length = n} g.width := by
  have hlength : ∀ m ∈ g.members, m.name.utf8ByteSize = m.name.length := fun m hm =>
    (h.members m hm).isName.utf8ByteSize_eq
  have hne : g.members ≠ [] := List.ne_nil_of_length_pos (Nat.lt_of_succ_lt h.many)
  constructor
  · obtain ⟨m, hm, heq⟩ := exists_eq_longestName hne
    exact ⟨m, hm, (hlength m hm).symm.trans heq⟩
  · rintro _ ⟨m, hm, rfl⟩
    rw [← hlength m hm]
    exact le_longestName hm

/-! ## Rows -/

/-- A row with the name of a member in front of a column, filled up with spaces, and at the column
the separator with the description behind it. -/
structure RowOf (column : Nat) (m : Member) (row : String) : Prop where
  name : ∃ n, Text.beforeColumn column row = "    " ++ m.name ++ Text.spaces n
  description : Text.fromColumn column row = " : " ++ m.description

theorem rowOf_memberRow {width : Nat} {m : Member} (h : m.name.utf8ByteSize ≤ width) :
    RowOf (4 + width) m (memberRow width m) := by
  have hfront : ("    " ++ Text.padRight width m.name).length = 4 + width := by
    rw [String.length_append, Text.length_padRight_of_le h]
    rfl
  constructor
  · refine ⟨width - m.name.length, ?_⟩
    rw [memberRow, String.append_assoc, Text.beforeColumn_append hfront, Text.padRight,
      String.append_assoc]
  · rw [memberRow, String.append_assoc, Text.fromColumn_append hfront]

/-- The row for a name and a description. -/
def cardRow (width : Nat) (card : String × String) : String :=
  "    " ++ Text.padRight width card.1 ++ " : " ++ card.2

theorem map_memberRow_listed (g : Group) (width : Nat) :
    (g.listed false).map (memberRow width) =
      (g.members.map Member.shown).filterMap fun s => s.2.map (cardRow width) := by
  rw [listed]
  induction g.members with
  | nil => rfl
  | cons m rest ih =>
    cases hhidden : m.isHidden with
    | true => simpa [Member.shown, hhidden] using ih
    | false => simpa [Member.shown, hhidden, memberRow, cardRow] using ih

/-! ## Screens -/

/-- The line below the list that says how to ask for more. -/
def note (g : Group) : String :=
  "  Note: Use \"" ++ g.name ++ " <sub command> --help\" to show more detail of the sub command"

/-- The lines above the list. -/
def opening (g : Group) : List String := g.mainHelp ++ ["", "  Supported sub commands:"]

theorem helpLines_eq (g : Group) (withHidden : Bool) :
    g.helpLines withHidden =
      g.opening ++ (g.listed withHidden).map (memberRow g.width) ++ ["", g.note] := rfl

theorem listed_true (g : Group) : g.listed true = g.members := by simp [listed]

theorem listed_false (g : Group) : g.listed false = g.members.filter (!·.isHidden) := rfl

theorem listed_sublist (g : Group) (withHidden : Bool) :
    (g.listed withHidden).Sublist g.members := List.filter_sublist

theorem helpLines_sublist (g : Group) : (g.helpLines false).Sublist (g.helpLines true) := by
  rw [helpLines_eq, helpLines_eq, listed_true]
  exact (((g.listed_sublist false).map _).append_left _).append_right _

theorem helpLines_false_eq_iff {g : Group} :
    g.helpLines false = g.helpLines true ↔ ∀ m ∈ g.members, m.isHidden = false := by
  have hall : g.listed false = g.members ↔ ∀ m ∈ g.members, m.isHidden = false := by
    simp [listed_false, List.filter_eq_self]
  rw [← hall, helpLines_eq, helpLines_eq, listed_true, List.append_cancel_right_eq,
    List.append_cancel_left_eq]
  refine ⟨fun heq => (g.listed_sublist false).eq_of_length ?_, fun heq => by rw [heq]⟩
  simpa using congrArg List.length heq

/-- The list without hidden members is made from what is shown of each member, and nothing else. -/
theorem helpLines_congr {g other : Group} (hname : other.name = g.name)
    (hhelp : other.mainHelp = g.mainHelp)
    (hshown : other.members.map Member.shown = g.members.map Member.shown) :
    other.helpLines false = g.helpLines false := by
  have hwidth : other.width = g.width := by
    have hsizes := congrArg (List.map Prod.fst) hshown
    rw [List.map_map, List.map_map] at hsizes
    rw [width, width, longestName_eq, longestName_eq]
    exact congrArg (List.foldr max 0) hsizes
  rw [helpLines_eq, helpLines_eq, opening, opening, note, note, map_memberRow_listed,
    map_memberRow_listed, hname, hhelp, hwidth, hshown]

/-- The list without hidden members is the list of all members, in the order in which they are
declared, without the rows of hidden members.  All rows are written for one column that fits the
longest name.  The two differ exactly when there is a hidden member, and the one without it has
nothing of it but the length of its name. -/
theorem helpLines_of_assemble {name : String} {entries : List GroupEntry} {g : Group}
    (h : TopCommand.assemble name (.group entries) = .ok (.group g)) :
    g.members.map Member.card = (entries.filterMap GroupEntry.member?).map
        (fun entry => (entry.1, entry.2.description, entry.2.command.hidden)) ∧
      (∃ row, g.helpLines true = g.opening ++ g.members.map row ++ ["", g.note] ∧
        g.helpLines false =
          g.opening ++ (g.members.filter (!·.isHidden)).map row ++ ["", g.note] ∧
        ∀ m ∈ g.members, RowOf (4 + g.width) m (row m)) ∧
      IsGreatest {n | ∃ m ∈ g.members, m.name.length = n} g.width ∧
      (g.helpLines false = g.helpLines true ↔ ∀ m ∈ g.members, m.isHidden = false) ∧
      (Text.unlines (g.helpLines false) = Text.unlines (g.helpLines true) ↔
        ∀ m ∈ g.members, m.isHidden = false) ∧
      ∀ other : Group, other.name = g.name → other.mainHelp = g.mainHelp →
        other.members.map Member.shown = g.members.map Member.shown →
        other.helpLines false = g.helpLines false := by
  have hentries := ofEntries_of_assemble h
  obtain ⟨-, hwell⟩ := wellFormed_of_ofEntries hentries
  refine ⟨?_, ⟨memberRow g.width, ?_, rfl, ?_⟩, hwell.isGreatest_width, helpLines_false_eq_iff, ?_,
    fun _ => helpLines_congr⟩
  · exact Member.map_card_of_builds (members_of_ofEntries hentries)
  · rw [helpLines_eq, listed_true]
  · exact fun m hm => rowOf_memberRow (le_longestName hm)
  · rw [Text.unlines_inj_of_sublist g.helpLines_sublist, helpLines_false_eq_iff]

/-- Entries of a group with a hidden member, whose name is the longest. -/
def flashEntries (hiddenName description : String) : List GroupEntry := [
  .member "ls" { description := "List devices", command := { help := .line "List" } },
  .help (.line "Flash tool"),
  .member hiddenName
    { description := description, command := { help := .line "Erase", hidden := true } },
  .member "write" { description := "Write : verify", command := { help := .line "Write" } }]

theorem helpLines_flashEntries :
    ∃ g other,
      TopCommand.assemble "flash" (.group (flashEntries "wipe_out" "Erase all")) =
        .ok (.group g) ∧
      TopCommand.assemble "flash" (.group (flashEntries "dump_mem" "Read all")) =
        .ok (.group other) ∧
      (g.helpLines true).drop 2 = ["  Supported sub commands:",
        "    ls       : List devices", "    wipe_out : Erase all", "    write    : Write : verify",
        "", "  Note: Use \"flash <sub command> --help\" to show more detail of the sub command"] ∧
      (g.helpLines false).drop 2 = ["  Supported sub commands:",
        "    ls       : List devices", "    write    : Write : verify",
        "", "  Note: Use \"flash <sub command> --help\" to show more detail of the sub command"] ∧
      Text.unlines (g.helpLines false) ≠ Text.unlines (g.helpLines true) ∧
      other.helpLines true ≠ g.helpLines true ∧ other.helpLines false = g.helpLines false := by
  have hflash : TopCommand.assemble "flash" (.group (flashEntries "wipe_out" "Erase all")) =
      .ok (.group _) := rfl
  refine ⟨_, _, hflash, rfl, by decide +kernel, by decide +kernel, ?_, by decide +kernel, ?_⟩
  · obtain ⟨-, -, -, -, htexts, -⟩ := helpLines_of_assemble hflash
    rw [ne_eq, htexts]
    decide +kernel
  · obtain ⟨-, -, -, -, -, hcongr⟩ := helpLines_of_assemble hflash
    exact hcongr _ rfl rfl rfl

end Group
end CommandSchema
