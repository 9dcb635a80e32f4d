/-
The help screens in generated definitions, and the constants that hold them.

A definition is a sequence of screens, each a constant with a raw literal and the code behind it.
Lines of a screen are the author's and may look like anything, so the constants are not the lines
that look like one: they are where `Defines` says, and no line of code in between begins another.

A command has one constant and a group two.  They are made from the names that the registry keeps
apart, with different ends, and the registry does not hear of them: so a command that is called like
another one with `_hidden`, `_help` or `_hidden_help` behind its name can meet the constants of the
other.  At the end of the module is what has to be ruled out for all constants to be different, and
for none of them to hide a class.
-/
import CommandSchema.Proofs.Code.Classes
import Mathlib.Data.List.Flatten

namespace CommandSchema
namespace Code

/-- A constant with a help screen, the lines of the screen, and the code up to the next. -/
structure Screen where
  constant : String
  lines : List String
  code : List String

/-- The lines of a screen in a definition. -/
def Screen.written (s : Screen) : List String := rawConstant s.constant s.lines ++ s.code

/-- The mark at the beginning of a line that begins a constant. -/
def constantMark : String := "const char * "

/-- A source that is a sequence of screens in constants of some names, without further constants in
the code behind them. -/
def Defines (source : String) (constants : List String) : Prop :=
  ∃ screens : List Screen, screens.map Screen.constant = constants ∧
    source = Text.unlines (screens.flatMap Screen.written) ∧
    ∀ s ∈ screens, ∀ line ∈ s.code, Text.beginsWith constantMark line = false

/-- The screen of a command. -/
def commandScreen (c : Command) : Screen where
  constant := helpConstant (Name.className c.name)
  lines := c.helpLines
  code := [constructorHead (Name.className c.name)] ++ ruleTable c ++
    ["    " ++ helpConstant (Name.className c.name) ++ ")", "\x7b", "\x7d", ""]

/-- The screens of a group itself. -/
def dispatcherScreens (g : Group) : List Screen := [
  { constant := helpConstant (Name.className g.name)
    lines := g.helpLines false
    code := [] },
  { constant := hiddenHelpConstant (Name.className g.name)
    lines := g.helpLines true
    code := [constructorHead (Name.className g.name),
        "  " ++ Name.baseClass ++ "(\"" ++ g.name ++ "\", false, " ++
          helpConstant (Name.className g.name) ++ ", " ++
          hiddenHelpConstant (Name.className g.name) ++ ")",
        "\x7b"] ++
      g.members.map memberEntry ++ ["\x7d", ""] }]

/-- The screens of a command at the top. -/
def screens : TopCommand → List Screen
  | .single c => [commandScreen c]
  | .group g => g.members.map (commandScreen ·.command) ++ dispatcherScreens g

theorem written_commandScreen (c : Command) : (commandScreen c).written = commandDefinition c := by
  simp only [Screen.written, commandScreen, commandDefinition, List.append_assoc]

/-- The definition of a command is its help screen and a constructor. -/
theorem definition_ofCommand (c : Command) :
    (ofCommand c).definition =
      Text.unlines (rawConstant (helpConstant (Name.className c.name)) c.helpLines) ++
        Text.unlines (commandScreen c).code := by
  rw [← Text.unlines_append]
  exact congrArg Text.unlines (written_commandScreen c).symm

theorem written_dispatcherScreens (g : Group) :
    (dispatcherScreens g).flatMap Screen.written = dispatcherDefinition g := by
  simp only [Screen.written, dispatcherScreens, dispatcherDefinition, List.flatMap_cons,
    List.flatMap_nil, List.append_nil, List.append_assoc]

theorem definition_ofTop (top : TopCommand) :
    (ofTop top).definition = Text.unlines ((screens top).flatMap Screen.written) := by
  cases top with
  | single c =>
    rw [screens, List.flatMap_singleton, written_commandScreen]
    rfl
  | group g =>
    rw [screens, List.flatMap_append, written_dispatcherScreens, List.flatMap_map]
    simp only [written_commandScreen]
    rfl

/-! ## Code between screens -/

theorem beginsWith_constantMark {line : String} (h : line.toList.head? ≠ some 'c') :
    Text.beginsWith constantMark line = false :=
  Text.beginsWith_eq_false (c := 'c') rfl h

theorem head?_constructorHead (command : String) :
    (constructorHead (Name.className command)).toList.head? ≠ some 'c' := by
  simp [constructorHead, Name.className, Name.baseClass]

theorem head?_of_mem_ruleLines {os : List CommandOption} :
    ∀ line ∈ ruleLines os, line.toList.head? ≠ some 'c' := by
  induction os with
  | nil => simp [ruleLines]
  | cons o rest ih =>
    cases rest with
    | nil => simp [ruleLines]
    | cons p rest =>
      rw [ruleLines, List.forall_mem_cons]
      · exact ⟨by simp, ih⟩
      · simp

theorem head?_of_mem_ruleTable {c : Command} :
    ∀ line ∈ ruleTable c, line.toList.head? ≠ some 'c' := by
  rw [ruleTable]
  split
  · simp [baseCall]
  · rw [List.forall_mem_cons]
    exact ⟨by simp [baseCall], head?_of_mem_ruleLines⟩

theorem head?_memberEntry (m : Member) : (memberEntry m).toList.head? ≠ some 'c' := by
  show ("  m_sub_arg_map[\"" ++ m.name ++ "\"] = &" ++ m.name ++ ";").toList.head? ≠ some 'c'
  simp

theorem beginsWith_code_commandScreen (c : Command) :
    ∀ line ∈ (commandScreen c).code, Text.beginsWith constantMark line = false := by
  intro line hline
  apply beginsWith_constantMark
  revert line
  simp only [commandScreen, List.forall_mem_append, List.forall_mem_cons, List.not_mem_nil,
    false_implies, implies_true, and_true]
  exact ⟨⟨head?_constructorHead c.name, head?_of_mem_ruleTable⟩, by simp, by decide, by decide,
    by decide⟩

theorem beginsWith_code_dispatcherScreens (g : Group) :
    ∀ s ∈ dispatcherScreens g, ∀ line ∈ s.code, Text.beginsWith constantMark line = false := by
  intro s hs line hline
  apply beginsWith_constantMark
  revert s line
  simp only [dispatcherScreens, List.forall_mem_cons, List.forall_mem_append,
    List.forall_mem_map, List.not_mem_nil, false_implies, implies_true, and_true, true_and]
  refine ⟨⟨⟨head?_constructorHead g.name, ?_, ?_⟩, fun m _ => ?_⟩, ?_, ?_⟩
  · simp
  · decide
  · exact head?_memberEntry m
  · decide
  · decide

theorem beginsWith_code_screens (top : TopCommand) :
    ∀ s ∈ screens top, ∀ line ∈ s.code, Text.beginsWith constantMark line = false := by
  cases top with
  | single c =>
    rw [screens, List.forall_mem_singleton]
    exact beginsWith_code_commandScreen c
  | group g =>
    rw [screens, List.forall_mem_append, List.forall_mem_map]
    exact ⟨fun m _ => beginsWith_code_commandScreen m.command, beginsWith_code_dispatcherScreens g⟩

/-- The head of a class of some name is in a header. -/
def DeclaresClass (header className : String) : Prop :=
  "class " ++ className ++ " : public " ++ Name.baseClass ∈ classHeads header

theorem headLine_eq_iff {command className : String} :
    headLine command = "class " ++ className ++ " : public " ++ Name.baseClass ↔
      Name.className command = className := by
  constructor
  · intro h
    have hchars := congrArg String.toList h
    simp only [headLine, String.toList_append, List.append_assoc, List.append_cancel_left_eq,
      List.append_cancel_right_eq] at hchars
    exact String.toList_injective hchars
  · intro h
    rw [headLine, h]

end Code

/-! ## Constants -/

namespace TopCommand

/-- The name of a group; a single command has none. -/
def groups : TopCommand → List String
  | .single _ => []
  | .group g => [g.name]

/-- The constants that hold the help screens of a command and of its members. -/
def constants (top : TopCommand) : List String :=
  top.generated.map (fun n => Code.helpConstant (Name.className n)) ++
    top.groups.map (fun n => Code.hiddenHelpConstant (Name.className n))

theorem IsBuilt.constants_eq {name : String} {top : TopCommand} (h : top.IsBuilt name) :
    (Code.screens top).map Code.Screen.constant = top.constants := by
  cases top with
  | single c => rfl
  | group g =>
    have hmembers : g.members.map (fun m => (Code.commandScreen m.command).constant) =
        g.members.map fun m => Code.helpConstant (Name.className (Name.qualified g.name m.name)) :=
      List.map_congr_left fun m hm => by
        rw [Code.commandScreen, (h.2.members m hm).name_command]
    rw [Code.screens, List.map_append, List.map_map, constants, generated, List.map_append,
      memberNames, List.map_map, List.append_assoc]
    exact congrArg (· ++ _) hmembers

end TopCommand

namespace Schema

/-- The names of the groups of a schema. -/
def groups (s : Schema) : List String := s.commands.flatMap TopCommand.groups

/-- The constants that hold the help screens of a schema, in their order. -/
def constants (s : Schema) : List String := s.commands.flatMap TopCommand.constants

theorem groups_sublist_generated (s : Schema) : s.groups.Sublist s.generated := by
  refine List.Sublist.flatMap_right _ fun top _ => ?_
  cases top with
  | single c => exact List.nil_sublist _
  | group g => exact List.sublist_append_right _ _

theorem constants_perm (s : Schema) :
    s.constants.Perm (s.generated.map (fun n => Code.helpConstant (Name.className n)) ++
      s.groups.map (fun n => Code.hiddenHelpConstant (Name.className n))) := by
  rw [constants, generated, groups, List.map_flatMap, List.map_flatMap]
  exact (List.flatMap_append_perm _ _ _).symm

theorem mem_constants_iff {s : Schema} {constant : String} :
    constant ∈ s.constants ↔
      (∃ n ∈ s.generated, Code.helpConstant (Name.className n) = constant) ∨
        ∃ g ∈ s.groups, Code.hiddenHelpConstant (Name.className g) = constant := by
  rw [(constants_perm s).mem_iff, List.mem_append, List.mem_map, List.mem_map]

theorem isName_of_mem_groups {s : Schema} {name : String} (h : name ∈ s.groups) :
    Name.IsName .lower name :=
  isName_of_mem_generated ((groups_sublist_generated s).subset h)

theorem isIdentifier_of_mem_constants {s : Schema} {constant : String} (h : constant ∈ s.constants) :
    Name.IsIdentifier constant := by
  rcases mem_constants_iff.mp h with ⟨n, hn, rfl⟩ | ⟨g, hg, rfl⟩
  · rw [Name.helpConstant_className]
    exact Name.isIdentifier_className (isName_of_mem_generated hn).qualified_help
  · rw [Name.hiddenHelpConstant_className]
    exact Name.isIdentifier_className (isName_of_mem_groups hg).qualified_hidden_help

section Run

variable {primary : Schema} {auxiliary : List Schema} {fragments : List Fragment}

theorem defines_definitions (h : primary.compile auxiliary = .ok fragments) :
    Code.Defines (String.join (fragments.map (·.code.definition))) primary.constants := by
  refine ⟨primary.commands.flatMap Code.screens, ?_, ?_, ?_⟩
  · rw [List.map_flatMap, constants]
    exact List.flatMap_congr fun top htop => (isBuilt_of_mem_commands htop).constants_eq
  · rw [(compile_spec h).2.2, List.map_map, List.flatMap_assoc, ← Text.join_map_unlines]
    exact congrArg String.join (List.map_congr_left fun top _ => Code.definition_ofTop top)
  · intro s hs
    obtain ⟨top, -, hmem⟩ := List.mem_flatMap.mp hs
    exact Code.beginsWith_code_screens top s hmem

theorem nodup_map_helpConstant (h : primary.compile auxiliary = .ok fragments) :
    (primary.generated.map fun n => Code.helpConstant (Name.className n)).Nodup := by
  refine List.Nodup.map_on (fun a ha b hb heq => ?_) (nodup_generated h)
  exact (Name.helpConstant_inj_iff (isName_of_mem_generated ha) (isName_of_mem_generated hb)).mp heq

theorem nodup_map_hiddenHelpConstant (h : primary.compile auxiliary = .ok fragments) :
    (primary.groups.map fun g => Code.hiddenHelpConstant (Name.className g)).Nodup := by
  have hgroups : primary.groups.Nodup := (nodup_generated h).sublist (groups_sublist_generated _)
  refine List.Nodup.map_on (fun a ha b hb heq => ?_) hgroups
  exact (Name.hiddenHelpConstant_inj_iff (isName_of_mem_groups ha) (isName_of_mem_groups hb)).mp heq

/-- The definitions of a run hold the constants of its commands, which are identifiers.  They are
all different unless a command is called like a group with `_hidden` behind its name. -/
theorem nodup_constants_iff (h : primary.compile auxiliary = .ok fragments) :
    Code.Defines (String.join (fragments.map (·.code.definition))) primary.constants ∧
      (∀ constant ∈ primary.constants, Name.IsIdentifier constant) ∧
      (primary.constants.Nodup ↔
        ∀ g ∈ primary.groups, Name.qualified g "hidden" ∉ primary.generated) := by
  refine ⟨defines_definitions h, fun _ => isIdentifier_of_mem_constants, ?_⟩
  rw [(constants_perm primary).nodup_iff, List.nodup_append,
    and_iff_right (nodup_map_helpConstant h), and_iff_right (nodup_map_hiddenHelpConstant h),
    List.forall_mem_map]
  simp only [List.forall_mem_map]
  constructor
  · intro hdiffer g hg hhidden
    refine hdiffer _ hhidden g hg ?_
    exact (Name.helpConstant_eq_hiddenHelpConstant_iff (isName_of_mem_generated hhidden)
      (isName_of_mem_groups hg)).mpr rfl
  · intro hfree n hn g hg heq
    obtain rfl := (Name.helpConstant_eq_hiddenHelpConstant_iff (isName_of_mem_generated hn)
      (isName_of_mem_groups hg)).mp heq
    exact hfree g hg hn

theorem nodup_constants_disguised :
    ∃ fragments, disguised.compile [⟨[("close", .null)]⟩] = .ok fragments ∧
      disguised.constants = ["CFGArg_FLASH_READ_HELP", "CFGArg_FLASH_WRITE_HELP",
        "CFGArg_FLASH_HELP", "CFGArg_FLASH_HIDDEN_HELP", "CFGArg_OPEN_HELP"] ∧
      disguised.constants.Nodup := by
  obtain ⟨fragments, h⟩ := compile_disguised
  exact ⟨fragments, h, by decide +kernel, (nodup_constants_iff h).2.2.mpr (by decide +kernel)⟩

/-- A group with a member whose constant is the second one of the group. -/
def hiddenMember : Schema := ⟨[
  ("utst", .array [
    .object [("help", .string "h")],
    .object [("hidden", .object [("desc", .string "d"), ("help", .string "h")])],
    .object [("sub1", .object [("desc", .string "d"), ("help", .string "h")])]])]⟩

theorem not_nodup_constants_hiddenMember :
    ∃ fragments, hiddenMember.compile [] = .ok fragments ∧
      Code.Defines (String.join (fragments.map (·.code.definition))) hiddenMember.constants ∧
      hiddenMember.constants = ["CFGArg_UTST_HIDDEN_HELP", "CFGArg_UTST_SUB1_HELP",
        "CFGArg_UTST_HELP", "CFGArg_UTST_HIDDEN_HELP"] ∧
      ¬ hiddenMember.constants.Nodup := by
  obtain ⟨fragments, h⟩ : ∃ fragments, hiddenMember.compile [] = .ok fragments := ⟨_, rfl⟩
  have hconstants : hiddenMember.constants = ["CFGArg_UTST_HIDDEN_HELP", "CFGArg_UTST_SUB1_HELP",
      "CFGArg_UTST_HELP", "CFGArg_UTST_HIDDEN_HELP"] := by decide +kernel
  refine ⟨fragments, h, defines_definitions h, hconstants, ?_⟩
  rw [hconstants]
  decide

theorem declaresClass_iff (h : primary.compile auxiliary = .ok fragments) {className : String} :
    Code.DeclaresClass (String.join (fragments.map (·.code.declaration))) className ↔
      ∃ n ∈ primary.generated, Name.className n = className := by
  rw [Code.DeclaresClass, classHeads_eq h, List.mem_map]
  simp only [Code.headLine_eq_iff]

/-- No constant of a run has the name of a class of the run unless a command is called like another
one with `_help` behind its name, or like a group with `_hidden_help` behind its name. -/
theorem disjoint_constants_classes_iff (h : primary.compile auxiliary = .ok fragments) :
    Code.Defines (String.join (fragments.map (·.code.definition))) primary.constants ∧
      ((∀ constant ∈ primary.constants,
          ¬ Code.DeclaresClass (String.join (fragments.map (·.code.declaration))) constant) ↔
        (∀ n ∈ primary.generated, Name.qualified n "help" ∉ primary.generated) ∧
          ∀ g ∈ primary.groups, Name.qualified g "hidden_help" ∉ primary.generated) := by
  refine ⟨defines_definitions h, ?_⟩
  simp only [declaresClass_iff h]
  constructor
  · intro hdisjoint
    refine ⟨fun n hn hhelp => ?_, fun g hg hhelp => ?_⟩
    · refine hdisjoint _ (mem_constants_iff.mpr (Or.inl ⟨n, hn, rfl⟩)) ⟨_, hhelp, ?_⟩
      exact (Name.helpConstant_className n).symm
    · refine hdisjoint _ (mem_constants_iff.mpr (Or.inr ⟨g, hg, rfl⟩)) ⟨_, hhelp, ?_⟩
      exact (Name.hiddenHelpConstant_className g).symm
  · rintro ⟨hhelp, hhidden⟩ constant hconstant ⟨a, ha, hclass⟩
    rcases mem_constants_iff.mp hconstant with ⟨n, hn, rfl⟩ | ⟨g, hg, rfl⟩
    · obtain rfl := (Name.className_eq_helpConstant_iff (isName_of_mem_generated ha)
        (isName_of_mem_generated hn)).mp hclass
      exact hhelp n hn ha
    · obtain rfl := (Name.className_eq_hiddenHelpConstant_iff (isName_of_mem_generated ha)
        (isName_of_mem_groups hg)).mp hclass
      exact hhidden g hg ha

theorem disjoint_constants_classes_disguised :
    ∃ fragments, disguised.compile [⟨[("close", .null)]⟩] = .ok fragments ∧
      ∀ constant ∈ disguised.constants,
        ¬ Code.DeclaresClass (String.join (fragments.map (·.code.declaration))) constant := by
  obtain ⟨fragments, h⟩ := compile_disguised
  refine ⟨fragments, h, (disjoint_constants_classes_iff h).2.mpr ⟨?_, ?_⟩⟩
  · decide +kernel
  · decide +kernel

/-- Two commands, and the constant of the first is the class of the second. -/
def helpCommand : Schema := ⟨[
  ("list", .object [("help", .string "a")]),
  ("list_help", .object [("help", .string "b")])]⟩

theorem declaresClass_helpCommand :
    ∃ fragments, helpCommand.compile [] = .ok fragments ∧
      Code.Defines (String.join (fragments.map (·.code.definition))) helpCommand.constants ∧
      "CFGArg_LIST_HELP" ∈ helpCommand.constants ∧
      Code.DeclaresClass (String.join (fragments.map (·.code.declaration))) "CFGArg_LIST_HELP" := by
  obtain ⟨fragments, h⟩ : ∃ fragments, helpCommand.compile [] = .ok fragments := ⟨_, rfl⟩
  refine ⟨fragments, h, defines_definitions h, by decide +kernel, ?_⟩
  exact (declaresClass_iff h).mpr ⟨"list_help", by decide +kernel, by decide +kernel⟩

end Run

end Schema
end CommandSchema
