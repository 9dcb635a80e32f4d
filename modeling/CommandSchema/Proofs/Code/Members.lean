/-
The code of a group by its members.

The code of a group is the code of its members one after the other, and then a class of its own,
which has a field and an entry in a table for each of them.  A member has the code that it would
have at the top: its object without the description is a command there, under the name of the group
and the name of the member, and compiles to the same class (`compile_flat`).
-/
import CommandSchema.Proofs.Compilation.Success
import CommandSchema.Proofs.Group.Members
import CommandSchema.Proofs.Name.Class
import CommandSchema.Proofs.Text.Lines

namespace CommandSchema

/-! ## The code of a group -/

namespace Code

theorem declaration_ofGroup (g : Group) :
    (ofGroup g).declaration =
      String.join (g.members.map fun m => (ofCommand m.command).declaration) ++
        Text.unlines (dispatcherDeclaration g) := by
  rw [ofGroup, Text.unlines_append, ← Text.join_map_unlines]
  rfl

theorem definition_ofGroup (g : Group) :
    (ofGroup g).definition =
      String.join (g.members.map fun m => (ofCommand m.command).definition) ++
        Text.unlines (dispatcherDefinition g) := by
  have hlines : (ofGroup g).definition = Text.unlines
      (g.members.flatMap (commandDefinition ·.command) ++ dispatcherDefinition g) := rfl
  rw [hlines, Text.unlines_append, ← Text.join_map_unlines]
  rfl

theorem memberField_eq {group : String} {m : Member} (h : m.IsMemberOf group) :
    memberField m =
      "    CFGArg_" ++ Text.upper group ++ "_" ++ Text.upper m.name ++ " " ++ m.name ++ ";" := by
  have hmargin : "    " ++ "CFGArg_" = "    CFGArg_" := by decide
  rw [memberField, h.name_command, Name.className_eq, Name.qualified, Name.upper_append,
    Name.upper_append, Name.upper_underscore, ← hmargin]
  simp only [String.append_assoc]

theorem classHead_eq_lines (className : String) :
    classHead className = [
      "class " ++ className ++ " : public CFGArg",
      "\x7b",
      "public:",
      "    " ++ className ++ "();",
      "    bool parse(int argc, const char **argv, " ++
        "std::vector<std::string>* errors = nullptr) \x7b",
      "            return CFGArg::parse(argc, argv, errors); \x7d",
      "    void print() \x7b CFGArg::print(); \x7d"] := by
  have hbase : " : public " ++ Name.baseClass = " : public CFGArg" := by decide
  rw [classHead, String.append_assoc, hbase]
  rfl

theorem dispatcherDeclaration_eq {g : Group} (h : g.WellFormed) :
    dispatcherDeclaration g =
      classHead ("CFGArg_" ++ Text.upper g.name) ++
        g.members.map (fun m =>
          "    CFGArg_" ++ Text.upper g.name ++ "_" ++ Text.upper m.name ++ " " ++ m.name ++ ";") ++
        ["    std::map<std::string, CFGArg*> m_sub_arg_map;", "\x7d;", ""] := by
  have htable : "    std::map<std::string, " ++ Name.baseClass ++ "*> m_sub_arg_map;" =
      "    std::map<std::string, CFGArg*> m_sub_arg_map;" := by decide
  rw [dispatcherDeclaration, htable, Name.className_eq,
    List.map_congr_left fun m hm => memberField_eq (h.members m hm), List.append_assoc]
  rfl

theorem dispatcherDefinition_eq (g : Group) {className : String}
    (hclass : className = "CFGArg_" ++ Text.upper g.name) :
    dispatcherDefinition g =
      ["const char * " ++ (className ++ "_HELP") ++ " = R\"\"\"\"("] ++ g.helpLines false ++
        [")\"\"\"\";", ""] ++
      ["const char * " ++ (className ++ "_HIDDEN_HELP") ++ " = R\"\"\"\"("] ++ g.helpLines true ++
        [")\"\"\"\";", ""] ++
      [className ++ "::" ++ className ++ "() :",
        "  CFGArg(\"" ++ g.name ++ "\", false, " ++ (className ++ "_HELP") ++ ", " ++
          (className ++ "_HIDDEN_HELP") ++ ")",
        "\x7b"] ++
      g.members.map (fun m => "  m_sub_arg_map[\"" ++ m.name ++ "\"] = &" ++ m.name ++ ";") ++
      ["\x7d", ""] := by
  have hcall : "  " ++ Name.baseClass ++ "(\"" = "  CFGArg(\"" := by decide
  simp only [dispatcherDefinition, Name.className_eq, ← hclass, hcall, rawConstant,
    List.cons_append, List.nil_append, List.append_assoc]
  rfl

end Code

/-! ## Members at the top -/

namespace Schema

/-- A command by itself compiles to its code. -/
theorem compile_flat {name : String} {fields : List (String × Json.Value)} {decl : CommandDecl}
    {c : Command} (hread : CommandDecl.shape.readObject fields = .ok decl)
    (hbuild : Command.ofDecl name decl = .ok c) :
    compile ⟨[(name, .object fields)]⟩ [] = .ok [⟨name, Code.ofCommand c⟩] := by
  have hdecl : Declaration.ofJson name (.object fields) = .ok (.flat decl) := by
    rw [Declaration.ofJson, hread]
  have hassemble : TopCommand.assemble name (.flat decl) = .ok (.single c) :=
    Outcome.map_eq_ok_iff.mpr ⟨c, hbuild, rfl⟩
  have hdeclares : Declares (name, .object fields) (.single c) :=
    TopCommand.ofJson_eq_ok_iff.mpr ⟨.flat decl, hdecl, hassemble⟩
  refine compile_eq_ok_iff.mpr
    ⟨[.single c], List.Forall₂.cons hdeclares List.Forall₂.nil, List.nodup_singleton _, ?_⟩
  rw [List.map_singleton, Fragment.ofTop, TopCommand.name_of_ofJson hdeclares]
  rfl

end Schema

namespace TopCommand

/-- The members of a group that is read from a list, by the items that name them. -/
theorem members_of_ofJson {name : String} {items : List Json.Value} {top : TopCommand}
    (h : ofJson name (.array items) = .ok top) :
    ∃ g, top = .group g ∧ g.name = name ∧ g.WellFormed ∧
      List.Forall₂ (fun field m => ∃ entry : String × MemberDecl,
          (entry.1 = field.1 ∧ MemberDecl.ofJson field.2 = .ok entry.2) ∧ m.Builds name entry)
        (items.filterMap GroupEntry.memberField?) g.members := by
  obtain ⟨decl, hdecl, hassemble⟩ := ofJson_eq_ok_iff.mp h
  obtain ⟨entries, hentries, rfl⟩ := Outcome.map_eq_ok_iff.mp hdecl
  obtain ⟨g, hg, rfl⟩ := Outcome.map_eq_ok_iff.mp hassemble
  obtain ⟨hname, hwell⟩ := Group.wellFormed_of_ofEntries hg
  exact ⟨g, rfl, hname, hwell,
    Outcome.forall₂_trans (GroupEntry.members_of_all hentries) (Group.members_of_ofEntries hg)⟩

/-- A member of a group is the flat command of its value without the description, and the code of
the group is the code of these commands with its own class behind them. -/
theorem code_of_members {name : String} {items : List Json.Value} {top : TopCommand}
    (h : ofJson name (.array items) = .ok top) :
    ∃ (g : Group) (className : String), top = .group g ∧ g.name = name ∧
      className = "CFGArg_" ++ Text.upper name ∧
      List.Forall₂ (fun field m => m.name = field.1 ∧ ∀ fields, field.2 = .object fields →
          Schema.compile
              ⟨[(name ++ "_" ++ m.name, .object (MemberDecl.withoutDescription fields))]⟩ [] =
            .ok [⟨name ++ "_" ++ m.name, Code.ofCommand m.command⟩])
        (items.filterMap GroupEntry.memberField?) g.members ∧
      (Code.ofTop top).declaration =
        String.join (g.members.map fun m => (Code.ofCommand m.command).declaration) ++
        String.join ((
          ["class " ++ className ++ " : public CFGArg",
            "\x7b",
            "public:",
            "    " ++ className ++ "();",
            "    bool parse(int argc, const char **argv, " ++
              "std::vector<std::string>* errors = nullptr) \x7b",
            "            return CFGArg::parse(argc, argv, errors); \x7d",
            "    void print() \x7b CFGArg::print(); \x7d"] ++
          g.members.map (fun m =>
            "    CFGArg_" ++ Text.upper name ++ "_" ++ Text.upper m.name ++ " " ++ m.name ++ ";") ++
          ["    std::map<std::string, CFGArg*> m_sub_arg_map;", "\x7d;", ""]).map (· ++ "\n")) ∧
      (Code.ofTop top).definition =
        String.join (g.members.map fun m => (Code.ofCommand m.command).definition) ++
        String.join ((
          ["const char * " ++ (className ++ "_HELP") ++ " = R\"\"\"\"("] ++ g.helpLines false ++
            [")\"\"\"\";", ""] ++
          ["const char * " ++ (className ++ "_HIDDEN_HELP") ++ " = R\"\"\"\"("] ++
            g.helpLines true ++ [")\"\"\"\";", ""] ++
          [className ++ "::" ++ className ++ "() :",
            "  CFGArg(\"" ++ name ++ "\", false, " ++ (className ++ "_HELP") ++ ", " ++
              (className ++ "_HIDDEN_HELP") ++ ")",
            "\x7b"] ++
          g.members.map (fun m => "  m_sub_arg_map[\"" ++ m.name ++ "\"] = &" ++ m.name ++ ";") ++
          ["\x7d", ""]).map (· ++ "\n")) := by
  obtain ⟨g, rfl, rfl, hwell, hmembers⟩ := members_of_ofJson h
  refine ⟨g, _, rfl, rfl, rfl, hmembers.imp fun field m => ?_, ?_, ?_⟩
  · rintro ⟨entry, ⟨hname, hread⟩, hbuilds⟩
    refine ⟨hbuilds.name_eq.trans hname, fun fields hfields => ?_⟩
    rw [hfields] at hread
    exact Schema.compile_flat (MemberDecl.readObject_withoutDescription hread) hbuilds.command_eq
  · rw [Code.ofTop, Code.declaration_ofGroup, Code.dispatcherDeclaration_eq hwell,
      Code.classHead_eq_lines, Text.unlines_eq_join]
  · rw [Code.ofTop, Code.definition_ofGroup, Code.dispatcherDefinition_eq g rfl,
      Text.unlines_eq_join]

/-- A group whose help stands between its members, of which the second is hidden. -/
def helpBetween : List Json.Value := [
  .object [("read", .object [
    ("desc", .string "Read it"),
    ("help", .string "Read"),
    ("option", .array [.object [
      ("help", .string "How much"), ("name", .string "size"), ("type", .string "int")]])])],
  .object [("help", .string "Flash memory")],
  .object [("write", .object [
    ("desc", .string "Write it"), ("help", .string "Write"), ("hidden", .bool true)])]]

theorem code_of_helpBetween :
    ∃ (g : Group) (read write : Member),
      ofJson "flash" (.array helpBetween) = .ok (.group g) ∧ g.members = [read, write] ∧
      Schema.compile ⟨[("flash_read", .object [
          ("help", .string "Read"),
          ("option", .array [.object [
            ("help", .string "How much"), ("name", .string "size"),
            ("type", .string "int")]])])]⟩ [] =
        .ok [⟨"flash_read", Code.ofCommand read.command⟩] ∧
      Schema.compile ⟨[("flash_write", .object [
          ("help", .string "Write"), ("hidden", .bool true)])]⟩ [] =
        .ok [⟨"flash_write", Code.ofCommand write.command⟩] ∧
      (Code.ofTop (.group g)).declaration =
        (Code.ofCommand read.command).declaration ++ (Code.ofCommand write.command).declaration ++
        String.join ([
          "class CFGArg_FLASH : public CFGArg",
          "\x7b",
          "public:",
          "    CFGArg_FLASH();",
          "    bool parse(int argc, const char **argv, " ++
            "std::vector<std::string>* errors = nullptr) \x7b",
          "            return CFGArg::parse(argc, argv, errors); \x7d",
          "    void print() \x7b CFGArg::print(); \x7d",
          "    CFGArg_FLASH_READ read;",
          "    CFGArg_FLASH_WRITE write;",
          "    std::map<std::string, CFGArg*> m_sub_arg_map;",
          "\x7d;",
          ""].map (· ++ "\n")) ∧
      (Code.ofTop (.group g)).definition =
        (Code.ofCommand read.command).definition ++ (Code.ofCommand write.command).definition ++
        String.join ([
          "const char * CFGArg_FLASH_HELP = R\"\"\"\"(",
          "Flash memory",
          "",
          "  Supported sub commands:",
          "    read  : Read it",
          "",
          "  Note: Use \"flash <sub command> --help\" to show more detail of the sub command",
          ")\"\"\"\";",
          "",
          "const char * CFGArg_FLASH_HIDDEN_HELP = R\"\"\"\"(",
          "Flash memory",
          "",
          "  Supported sub commands:",
          "    read  : Read it",
          "    write : Write it",
          "",
          "  Note: Use \"flash <sub command> --help\" to show more detail of the sub command",
          ")\"\"\"\";",
          "",
          "CFGArg_FLASH::CFGArg_FLASH() :",
          "  CFGArg(\"flash\", false, CFGArg_FLASH_HELP, CFGArg_FLASH_HIDDEN_HELP)",
          "\x7b",
          "  m_sub_arg_map[\"read\"] = &read;",
          "  m_sub_arg_map[\"write\"] = &write;",
          "\x7d",
          ""].map (· ++ "\n")) := by
  obtain ⟨g, h⟩ : ∃ g, ofJson "flash" (.array helpBetween) = .ok (.group g) := ⟨_, rfl⟩
  obtain ⟨_, className, heq, -, hclassName, hmembers, hdeclaration, hdefinition⟩ :=
    code_of_members h
  obtain rfl := TopCommand.group.inj heq
  obtain ⟨read, _, ⟨hread, hflatread⟩, hrest, heq⟩ := List.forall₂_cons_left_iff.mp hmembers
  obtain ⟨write, _, ⟨hwrite, hflatwrite⟩, hnone, rfl⟩ := List.forall₂_cons_left_iff.mp hrest
  obtain rfl := List.forall₂_nil_left_iff.mp hnone
  have hclass : className = "CFGArg_FLASH" := hclassName.trans (by decide +kernel)
  have hread : read.name = "read" := hread
  have hwrite : write.name = "write" := hwrite
  have hjoin (f : Member → String) : String.join ([read, write].map f) = f read ++ f write := by
    simp only [List.map_cons, List.map_nil, String.join_cons, String.join_nil, String.append_empty]
  refine ⟨g, read, write, h, heq, ?_, ?_, ?_, ?_⟩
  · have hflat := hflatread _ rfl
    rw [hread] at hflat
    exact hflat
  · have hflat := hflatwrite _ rfl
    rw [hwrite] at hflat
    exact hflat
  · rw [hdeclaration, heq, hjoin, hclass]
    congr 3
    simp only [List.map_cons, List.map_nil, hread, hwrite]
    decide +kernel
  · have hscreens : ((ofJson "flash" (.array helpBetween)).toOption.bind fun top =>
        match top with
        | .group g => some (g.helpLines false, g.helpLines true)
        | .single _ => none) = some (
      ["Flash memory", "", "  Supported sub commands:", "    read  : Read it", "",
        "  Note: Use \"flash <sub command> --help\" to show more detail of the sub command"],
      ["Flash memory", "", "  Supported sub commands:", "    read  : Read it",
        "    write : Write it", "",
        "  Note: Use \"flash <sub command> --help\" to show more detail of the sub command"]) := by
      decide +kernel
    rw [h] at hscreens
    obtain ⟨hvisible, hall⟩ := Prod.mk.inj (Option.some.inj hscreens)
    rw [hdefinition, heq, hjoin, hclass, hvisible, hall]
    congr 3
    simp only [List.map_cons, List.map_nil, hread, hwrite]
    decide +kernel

end TopCommand
end CommandSchema
