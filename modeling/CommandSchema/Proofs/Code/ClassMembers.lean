/-
The members of the generated classes have different names.

A class has two methods, a field for each option of a command or for each member of a group, and a
group has a table besides.  What makes their names different is checked in two places: an option may
not have the name of a method nor begin like the fields of the runtime, and no other option has its
name; a member of a group is checked for the same by the group.  `ClassShape.Sound` is what both
come to, and every class of a run has it (`Schema.declaredClasses_declarations`).
-/
import CommandSchema.Proofs.Code.DeclaredClasses

namespace CommandSchema

/-- A generated class: its name, the fields of its options or members, and its tables. -/
structure ClassShape where
  name : String
  fields : List String
  tables : List String := []
  deriving DecidableEq, Repr

namespace ClassShape

/-- The names of all members of a class. -/
def members (s : ClassShape) : List String := Name.methods ++ s.fields ++ s.tables

def ofCommand (c : Command) : ClassShape :=
  ⟨Name.className c.name, c.options.map CommandOption.name, []⟩

def ofGroup (g : Group) : ClassShape :=
  ⟨Name.className g.name, g.members.map Member.name, [Code.memberTable]⟩

/-- The classes of a command at the top. -/
def ofTop : TopCommand → List ClassShape
  | .single c => [ofCommand c]
  | .group g => g.members.map (fun m => ofCommand m.command) ++ [ofGroup g]

/-- A class whose members have different names.  Its fields are named by lower-case identifiers that
do not begin like the fields of the runtime, and no member has the name of the class. -/
structure Sound (s : ClassShape) : Prop where
  nodup : s.members.Nodup
  isName : ∀ field ∈ s.fields, Name.IsName .lower field
  unmarked : ∀ field ∈ s.fields, Name.hasRuntimeMark field = false
  name_notMem : s.name ∉ s.members

/-! ## Fields -/

/-- A name that a field may have. -/
structure IsField (field : String) : Prop where
  isName : Name.IsName .lower field
  unmarked : Name.hasRuntimeMark field = false
  notMem_methods : field ∉ Name.methods

theorem isField_of_isResolved {o : CommandOption} (h : o.IsResolved) : IsField o.name := by
  obtain ⟨taken, command, decl, hresolve⟩ := h
  obtain ⟨hname, hmark, hmethod, -⟩ := CommandOption.resolve_eq_ok_iff.mp hresolve
  obtain ⟨hsame, -⟩ := CommandOption.names_of_resolve hresolve
  rw [hsame]
  exact ⟨hname, hmark, hmethod⟩

theorem isField_of_isMemberOf {group : String} {m : Member} (h : m.IsMemberOf group) :
    IsField m.name := by
  have hfree := h.isFree
  simp only [Member.isReserved, Bool.or_eq_false_iff, decide_eq_false_iff_not] at hfree
  exact ⟨h.isName, hfree.1.2, hfree.2⟩

/-- No member begins like a class. -/
theorem head?_ne_of_isField {field : String} (h : IsField field) :
    field.toList.head? ≠ some 'C' := by
  obtain ⟨first, rest, hchars, -, hfirst, -⟩ := h.isName
  rw [hchars]
  intro hhead
  obtain rfl : first = 'C' := Option.some.inj hhead
  cases hfirst

/-- A class is sound when its fields may be its fields and are different. -/
theorem sound_of_fields {command : String} {fields tables : List String}
    (hfields : ∀ field ∈ fields, IsField field) (hnodup : fields.Nodup)
    (htables : ∀ table ∈ tables, table = Code.memberTable) (hsingle : tables.Nodup) :
    Sound ⟨Name.className command, fields, tables⟩ := by
  have hmark : Name.hasRuntimeMark Code.memberTable = true := by decide
  have hheads : ∀ name ∈ Name.methods ++ fields ++ tables, name.toList.head? ≠ some 'C' := by
    simp only [List.forall_mem_append]
    refine ⟨⟨by decide, fun field hfield => head?_ne_of_isField (hfields field hfield)⟩, ?_⟩
    intro table hmem
    rw [htables table hmem]
    decide
  have hfirst : (Name.methods ++ fields).Nodup :=
    List.nodup_append.mpr ⟨by decide, hnodup, fun name hname field hfield heq =>
      (hfields field hfield).notMem_methods (heq ▸ hname)⟩
  refine ⟨List.nodup_append.mpr ⟨hfirst, hsingle, fun name hname table hmem heq => ?_⟩,
    fun field hfield => (hfields field hfield).isName,
    fun field hfield => (hfields field hfield).unmarked,
    fun hmem => hheads _ hmem (Code.head?_className command)⟩
  obtain rfl := heq.trans (htables table hmem)
  rcases List.mem_append.mp hname with hmethod | hfield
  · exact absurd hmethod (by decide)
  · rw [(hfields _ hfield).unmarked] at hmark
    cases hmark

theorem sound_ofCommand {name : String} {decl : CommandDecl} {c : Command}
    (h : Command.ofDecl name decl = .ok c) : (ofCommand c).Sound := by
  refine sound_of_fields (fun field hfield => ?_) ?_ nofun List.nodup_nil
  · obtain ⟨o, ho, rfl⟩ := List.mem_map.mp hfield
    exact isField_of_isResolved (Command.isResolved_of_ofDecl h o ho)
  · obtain ⟨-, -, arity, -, os, -, hnodup, -, rfl⟩ := Command.ofDecl_eq_ok_iff.mp h
    rwa [Command.options_pushAll, List.nil_append]

theorem sound_ofGroup {g : Group} (h : g.WellFormed) : (ofGroup g).Sound := by
  refine sound_of_fields (fun field hfield => ?_) h.distinct (by decide) (by decide)
  obtain ⟨m, hm, rfl⟩ := List.mem_map.mp hfield
  exact isField_of_isMemberOf (h.members m hm)

theorem sound_ofTop {name : String} {top : TopCommand} (h : top.IsBuilt name) :
    ∀ s ∈ ofTop top, s.Sound := by
  cases top with
  | single c =>
    obtain ⟨decl, hdecl⟩ := h
    exact List.forall_mem_singleton.mpr (sound_ofCommand hdecl)
  | group g =>
    simp only [ofTop, List.forall_mem_append, List.forall_mem_map, List.forall_mem_singleton]
    refine ⟨fun m hm => ?_, sound_ofGroup h.2⟩
    obtain ⟨decl, hdecl⟩ := (h.2.members m hm).isBuilt
    exact sound_ofCommand hdecl

/-! ## Classes that are read -/

/-- A class as it is read: its name and the names of its members. -/
def entry (s : ClassShape) : String × List String := (s.name, s.members)

theorem entry_ofCommand (c : Command) :
    (ofCommand c).entry =
      (Name.className c.name, Name.methods ++ c.options.map CommandOption.name) := by
  rw [entry, members, ofCommand, List.append_nil]

theorem readClasses_members {group : String} {ms : List Member}
    (h : ∀ m ∈ ms, m.IsMemberOf group) (rest : List String) :
    (Code.readClasses (ms.flatMap (Code.commandDeclaration ·.command) ++ rest)).2 =
      ms.map (fun m => (ofCommand m.command).entry) ++ (Code.readClasses rest).2 := by
  induction ms with
  | nil => rfl
  | cons m ms ih =>
    obtain ⟨hm, hms⟩ := List.forall_mem_cons.mp h
    have hname : Name.IsName .lower m.command.name := hm.name_command ▸ hm.isName_qualified
    rw [List.flatMap_cons, List.append_assoc,
      Code.readClasses_commandDeclaration hname hm.isResolved, ← entry_ofCommand, ih hms,
      List.map_cons, List.cons_append]

theorem readClasses_declarationLines {name : String} {top : TopCommand} (h : top.IsBuilt name)
    (rest : List String) :
    (Code.readClasses (Code.declarationLines top ++ rest)).2 =
      (ofTop top).map entry ++ (Code.readClasses rest).2 := by
  cases top with
  | single c =>
    obtain ⟨decl, hdecl⟩ := h
    have hname : Name.IsName .lower c.name := Command.isName_name_of_ofDecl hdecl
    rw [Code.declarationLines,
      Code.readClasses_commandDeclaration hname (Command.isResolved_of_ofDecl hdecl),
      ← entry_ofCommand, ofTop, List.map_singleton, List.singleton_append]
  | group g =>
    rw [Code.declarationLines, List.append_assoc, readClasses_members h.2.members,
      Code.readClasses_dispatcherDeclaration h.2, ofTop, List.map_append, List.map_map,
      List.map_singleton]
    exact List.append_cons _ (ofGroup g).entry _

theorem readClasses_flatMap {tops : List TopCommand} (h : ∀ top ∈ tops, top.IsBuilt top.name)
    (rest : List String) :
    (Code.readClasses (tops.flatMap Code.declarationLines ++ rest)).2 =
      (tops.flatMap ofTop).map entry ++ (Code.readClasses rest).2 := by
  induction tops with
  | nil => rfl
  | cons top tops ih =>
    obtain ⟨htop, htops⟩ := List.forall_mem_cons.mp h
    rw [List.flatMap_cons, List.append_assoc, readClasses_declarationLines htop, ih htops,
      List.flatMap_cons, List.map_append, List.append_assoc]

end ClassShape

namespace Schema

variable {primary : Schema} {auxiliary : List Schema} {fragments : List Fragment}

/-- The classes in the header of a run are those of its commands, members and groups, each with the
methods, the fields of its options or members, and the table of a group.  The members of each class
have different names; its fields are lower-case identifiers that do not begin like the fields of the
runtime, and no member has the name of the class. -/
theorem declaredClasses_declarations (h : primary.compile auxiliary = .ok fragments) :
    Code.declaredClasses (String.join (fragments.map (·.code.declaration))) =
        (primary.commands.flatMap ClassShape.ofTop).map ClassShape.entry ∧
      ∀ s ∈ primary.commands.flatMap ClassShape.ofTop, s.Sound := by
  refine ⟨?_, fun s hs => ?_⟩
  · rw [Code.declaredClasses, split_declarations h,
      ClassShape.readClasses_flatMap fun top htop => isBuilt_of_mem_commands htop]
    exact List.append_nil _
  · obtain ⟨top, htop, hmem⟩ := List.mem_flatMap.mp hs
    exact ClassShape.sound_ofTop (isBuilt_of_mem_commands htop) s hmem

theorem declaredClasses_disguised :
    ∃ fragments, disguised.compile [⟨[("close", .null)]⟩] = .ok fragments ∧
      Code.declaredClasses (String.join (fragments.map (·.code.declaration))) = [
        ("CFGArg_FLASH_READ", ["parse", "print"]), ("CFGArg_FLASH_WRITE", ["parse", "print"]),
        ("CFGArg_FLASH", ["parse", "print", "read", "write", "m_sub_arg_map"]),
        ("CFGArg_OPEN", ["parse", "print", "device"])] ∧
      ["parse", "print", "read", "write", "m_sub_arg_map"].Nodup := by
  obtain ⟨fragments, h⟩ := compile_disguised
  obtain ⟨hread, hsound⟩ := declaredClasses_declarations h
  have hclasses : (disguised.commands.flatMap ClassShape.ofTop).map ClassShape.entry = [
      ("CFGArg_FLASH_READ", ["parse", "print"]), ("CFGArg_FLASH_WRITE", ["parse", "print"]),
      ("CFGArg_FLASH", ["parse", "print", "read", "write", "m_sub_arg_map"]),
      ("CFGArg_OPEN", ["parse", "print", "device"])] := by decide +kernel
  refine ⟨fragments, h, hread.trans hclasses, ?_⟩
  have hgroup : ⟨"CFGArg_FLASH", ["read", "write"], ["m_sub_arg_map"]⟩ ∈
      disguised.commands.flatMap ClassShape.ofTop := by decide +kernel
  exact (hsound _ hgroup).nodup

end Schema
end CommandSchema
