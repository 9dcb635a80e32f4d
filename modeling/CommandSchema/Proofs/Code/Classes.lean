/-
The classes that generated headers declare.

A line of a header declares a class when it begins with `class `.  Every class has one such line,
its first, and all its other lines begin with something else, whatever the schema says: the texts
of a schema stand behind a margin, and no text of a schema begins a line of its own.  So the heads
in a header are the commands of the schema, one by one.
-/
import CommandSchema.Proofs.Code.Lines
import CommandSchema.Proofs.Compilation.Generated
import Mathlib.Data.List.Nodup

namespace CommandSchema
namespace Code

/-- The mark at the beginning of a line that declares a class. -/
def classMark : String := "class "

/-- The lines of a header that declare classes. -/
def classHeads (header : String) : List String :=
  (Text.split '\n' header).filter (Text.beginsWith classMark)

/-- The line that declares the class of a command. -/
def headLine (command : String) : String :=
  "class " ++ Name.className command ++ " : public " ++ Name.baseClass

theorem headLine_eq (command : String) :
    headLine command = "class CFGArg_" ++ Text.upper command ++ " : public CFGArg" := by
  have hbegin : "class CFGArg_" = "class " ++ (Name.baseClass ++ "_") := by decide
  have hend : " : public CFGArg" = " : public " ++ Name.baseClass := by decide
  rw [hbegin, hend]
  simp only [headLine, Name.className, String.append_assoc]

theorem beginsWith_classMark_indented (s : String) :
    Text.beginsWith classMark ("    " ++ s) = false :=
  Text.beginsWith_eq_false (c := 'c') rfl (by simp)

theorem beginsWith_classMark_headLine (command : String) :
    Text.beginsWith classMark (headLine command) = true := by
  simp only [headLine, String.append_assoc]
  exact Text.beginsWith_append classMark _

theorem filter_classHead (command : String) :
    (classHead (Name.className command)).filter (Text.beginsWith classMark) =
      [headLine command] := by
  have hrest : (classHead (Name.className command)).tail.filter (Text.beginsWith classMark) = [] := by
    rw [List.filter_eq_nil_iff]
    simp only [classHead, List.tail_cons, List.forall_mem_cons, Bool.not_eq_true]
    refine ⟨by decide, by decide, ?_, by decide, by decide, by decide, by simp⟩
    rw [String.append_assoc]
    exact beginsWith_classMark_indented _
  have hsplit : classHead (Name.className command) =
      headLine command :: (classHead (Name.className command)).tail := rfl
  rw [hsplit, List.filter_cons_of_pos (beginsWith_classMark_headLine command), hrest]

theorem filter_classEnd : classEnd.filter (Text.beginsWith classMark) = [] := by decide

theorem filter_commandDeclaration (c : Command) :
    (commandDeclaration c).filter (Text.beginsWith classMark) = [headLine c.name] := by
  have hfields : (c.options.map ("    " ++ field ·)).filter (Text.beginsWith classMark) = [] := by
    simp only [List.filter_eq_nil_iff, List.forall_mem_map, beginsWith_classMark_indented]
    simp
  rw [commandDeclaration, List.filter_append, List.filter_append, filter_classHead, hfields,
    filter_classEnd]
  rfl

theorem filter_dispatcherDeclaration (g : Group) :
    (dispatcherDeclaration g).filter (Text.beginsWith classMark) = [headLine g.name] := by
  have hfields : (g.members.map memberField).filter (Text.beginsWith classMark) = [] := by
    simp only [List.filter_eq_nil_iff, List.forall_mem_map, memberField, String.append_assoc,
      beginsWith_classMark_indented]
    simp
  have hmap : ["    std::map<std::string, " ++ Name.baseClass ++ "*> m_sub_arg_map;"].filter
      (Text.beginsWith classMark) = [] := by decide
  rw [dispatcherDeclaration, List.filter_append, List.filter_append, List.filter_append,
    filter_classHead, hfields, hmap, filter_classEnd]
  rfl

/-- One head for each class of a command at the top, in their order. -/
theorem filter_declarationLines {name : String} {top : TopCommand} (h : top.IsBuilt name) :
    (declarationLines top).filter (Text.beginsWith classMark) = top.generated.map headLine := by
  cases top with
  | single c => exact filter_commandDeclaration c
  | group g =>
    have hmembers : (g.members.flatMap (commandDeclaration ·.command)).filter
        (Text.beginsWith classMark) =
          g.members.map fun m => headLine (Name.qualified g.name m.name) := by
      rw [List.filter_flatMap, List.map_eq_flatMap]
      refine List.flatMap_congr fun m hm => ?_
      rw [filter_commandDeclaration, (h.2.members m hm).name_command]
    rw [declarationLines, List.filter_append, hmembers, filter_dispatcherDeclaration,
      TopCommand.generated, TopCommand.memberNames, List.map_append, List.map_map]
    rfl

end Code

namespace Schema

variable {primary : Schema} {auxiliary : List Schema} {fragments : List Fragment}

theorem declarations_eq (h : primary.compile auxiliary = .ok fragments) :
    String.join (fragments.map (·.code.declaration)) =
      Text.unlines (primary.commands.flatMap Code.declarationLines) := by
  rw [(compile_spec h).2.2, List.map_map, ← Text.join_map_unlines]
  exact congrArg String.join (List.map_congr_left fun top _ => Code.declaration_ofTop top)

/-- The lines of a header are those of its commands. -/
theorem split_declarations (h : primary.compile auxiliary = .ok fragments) :
    Text.split '\n' (String.join (fragments.map (·.code.declaration))) =
      primary.commands.flatMap Code.declarationLines ++ [""] := by
  have hlines : ∀ line ∈ primary.commands.flatMap Code.declarationLines, Text.IsLine line := by
    intro line hline
    obtain ⟨top, htop, hmem⟩ := List.mem_flatMap.mp hline
    exact Code.isLine_declarationLines (isBuilt_of_mem_commands htop) line hmem
  rw [declarations_eq h, Text.split_unlines hlines]

theorem classHeads_eq (h : primary.compile auxiliary = .ok fragments) :
    Code.classHeads (String.join (fragments.map (·.code.declaration))) =
      primary.generated.map Code.headLine := by
  have hlast : [""].filter (Text.beginsWith Code.classMark) = [] := rfl
  rw [Code.classHeads, split_declarations h, List.filter_append, hlast, List.append_nil,
    List.filter_flatMap, generated, List.map_flatMap]
  exact List.flatMap_congr fun top htop =>
    Code.filter_declarationLines (isBuilt_of_mem_commands htop)

theorem nodup_classes (h : primary.compile auxiliary = .ok fragments) :
    (primary.generated.map Name.className).Nodup := by
  refine List.Nodup.map_on (fun a ha b hb heq => ?_) (nodup_generated h)
  exact (Name.className_inj_iff (isName_of_mem_generated ha) (isName_of_mem_generated hb)).mp heq

/-- The heads in the header of a run are those of its single commands, members and groups, one
each.  Their classes are different identifiers, and none of them is the class of an auxiliary
name. -/
theorem classHeads_declarations (h : primary.compile auxiliary = .ok fragments) :
    Code.classHeads (String.join (fragments.map (·.code.declaration))) =
        primary.generated.map (fun n => "class CFGArg_" ++ Text.upper n ++ " : public CFGArg") ∧
      (primary.generated.map Name.className).Nodup ∧
      (∀ n ∈ primary.generated, Name.IsIdentifier (Name.className n)) ∧
      ∀ a ∈ auxiliary.flatMap names, Name.check .lower a = .ok () →
        Name.className a ∉ primary.generated.map Name.className := by
  refine ⟨?_, nodup_classes h, fun n hn => ?_, fun a ha hcheck hmem => ?_⟩
  · rw [classHeads_eq h]
    exact List.map_congr_left fun n _ => Code.headLine_eq n
  · exact Name.isIdentifier_className (isName_of_mem_generated hn)
  · obtain ⟨n, hn, heq⟩ := List.mem_map.mp hmem
    have hname : Name.IsName .lower a := Name.check_eq_ok_iff.mp hcheck
    obtain rfl := (Name.className_inj_iff (isName_of_mem_generated hn) hname).mp heq
    exact notMem_generated_of_auxiliary h ha hn

/-- A group, and a command with a default that looks like the head of a class. -/
def disguised : Schema := ⟨[
  ("flash", .array [
    .object [("help", .string "Flash memory")],
    .object [("read", .object [("desc", .string "Read it"), ("help", .string "Read")])],
    .object [("write", .object [("desc", .string "Write it"), ("help", .string "Write")])]]),
  ("open", .object [
    ("help", .string "Open a device"),
    ("option", .array [.object [
      ("default", .string "\nclass CFGArg_FLASH : public CFGArg"),
      ("help", .string "Its name"), ("name", .string "device"), ("type", .string "str")]])])]⟩

theorem compile_disguised :
    ∃ fragments, disguised.compile [⟨[("close", .null)]⟩] = .ok fragments :=
  ⟨_, rfl⟩

theorem classHeads_disguised :
    ∃ fragments, disguised.compile [⟨[("close", .null)]⟩] = .ok fragments ∧
      Code.classHeads (String.join (fragments.map (·.code.declaration))) = [
        "class CFGArg_FLASH_READ : public CFGArg", "class CFGArg_FLASH_WRITE : public CFGArg",
        "class CFGArg_FLASH : public CFGArg", "class CFGArg_OPEN : public CFGArg"] ∧
      Name.className "close" ∉ disguised.generated.map Name.className := by
  obtain ⟨fragments, h⟩ := compile_disguised
  obtain ⟨hheads, -, -, hauxiliary⟩ := classHeads_declarations h
  refine ⟨fragments, h, ?_, hauxiliary "close" (by decide) rfl⟩
  rw [hheads]
  decide +kernel

end Schema
end CommandSchema
