/-
The classes in a header, with the names that they declare.

A header is read line by line.  A class begins with the line of its head and ends with the line of
its closing brace, and between them each line that stands at the margin of a class, and has a type
in front of a name, declares a member of that name (`memberName?`).  So the constructor, whose line
has no type, is no member, and neither is what stands deeper inside a method.

What is read of the lines of a command is its class and the names of its options, behind the
methods that every class has; of the lines of a group these are its members and its table
(`readClasses_commandDeclaration`, `readClasses_dispatcherDeclaration`).
-/
import CommandSchema.Proofs.Code.Classes

namespace CommandSchema
namespace Code

/-! ## Reading -/

/-- A character that may stand in front of an argument list, an initial value or the end. -/
def isDeclarator (c : Char) : Bool := c ≠ '(' && c ≠ '=' && c ≠ ';'

/-- The last of several words; a word by itself has none in front and does not count. -/
def lastWord? (code : List Char) : Option String :=
  let backwards := code.reverse.dropWhile (· = ' ')
  if ' ' ∈ backwards then some (String.ofList (backwards.takeWhile (· ≠ ' ')).reverse) else none

/-- The name that a line of a class declares, if there is a type in front of it. -/
def memberName? (line : String) : Option String :=
  let code := line.toList.drop 4
  if line.toList.take 4 = [' ', ' ', ' ', ' '] ∧ code.head? ≠ some ' ' then
    lastWord? (code.takeWhile isDeclarator)
  else none

/-- The class that a line is the head of. -/
def headName? (line : String) : Option String :=
  if Text.beginsWith classMark line then
    some (String.ofList ((line.toList.drop classMark.length).takeWhile (· ≠ ' ')))
  else none

/-- The classes in some lines, each with its members, and behind a class that is not closed in
them the members that belong to it. -/
def readClasses : List String → List String × List (String × List String)
  | [] => ([], [])
  | line :: rest =>
    let (members, classes) := readClasses rest
    match headName? line with
    | some name => ([], (name, members) :: classes)
    | none =>
      if line = "\x7d;" then ([], classes)
      else ((memberName? line).toList ++ members, classes)

/-- The classes that a header declares, each with the names of its members. -/
def declaredClasses (header : String) : List (String × List String) :=
  (readClasses (Text.split '\n' header)).2

/-! ## Lines -/

/-- A line inside a class: neither a head nor the end. -/
def IsInside (line : String) : Prop := Text.beginsWith classMark line = false ∧ line ≠ "\x7d;"

instance : DecidablePred IsInside := fun line =>
  inferInstanceAs (Decidable (Text.beginsWith classMark line = false ∧ line ≠ "\x7d;"))

theorem isInside_of_head {line : String} (h : line.toList.head? = some ' ') : IsInside line := by
  refine ⟨Text.beginsWith_eq_false (c := 'c') rfl (by rw [h]; decide), fun heq => ?_⟩
  rw [heq] at h
  exact absurd h (by decide)

theorem isInside_indented (s : String) : IsInside ("    " ++ s) := isInside_of_head (by simp)

theorem readClasses_append {body rest : List String} (h : ∀ line ∈ body, IsInside line) :
    readClasses (body ++ rest) =
      (body.filterMap memberName? ++ (readClasses rest).1, (readClasses rest).2) := by
  induction body with
  | nil => rfl
  | cons line body ih =>
    obtain ⟨⟨hmark, hend⟩, hbody⟩ := List.forall_mem_cons.mp h
    have hhead : headName? line = none := by
      rw [headName?, if_neg (by rw [hmark]; exact Bool.false_ne_true)]
    rw [List.cons_append, readClasses, ih hbody]
    simp only [hhead, if_neg hend]
    rw [← List.append_assoc]
    cases hmember : memberName? line with
    | none => rw [List.filterMap_cons_none hmember]; rfl
    | some name => rw [List.filterMap_cons_some hmember]; rfl

theorem notMem_className {command : String} (h : Name.IsName .lower command) {c : Char}
    (hc : Name.isRest .upper c = false) (hbase : c ∉ Name.baseClass.toList) :
    c ∉ (Name.className command).toList := by
  have hmark : c ∉ "_".toList := by
    intro hmem
    obtain rfl : c = '_' := List.mem_singleton.mp hmem
    cases hc
  simp only [Name.className, String.toList_append, List.mem_append, not_or]
  exact ⟨⟨hbase, hmark⟩, h.upper.notMem hc⟩

theorem head?_className (command : String) :
    (Name.className command).toList.head? = some 'C' := by
  rw [Name.className, String.append_assoc, String.toList_append]
  rfl

theorem headName?_headLine {command : String} (h : Name.IsName .lower command) :
    headName? (headLine command) = some (Name.className command) := by
  have hspace : ∀ c ∈ (Name.className command).toList, decide (c ≠ ' ') = true := by
    intro c hc
    exact decide_eq_true fun heq => notMem_className h rfl (by decide) (heq ▸ hc)
  have hline : (headLine command).toList =
      classMark.toList ++ ((Name.className command).toList ++ " : public CFGArg".toList) := by
    rw [← String.toList_append, ← String.toList_append, headLine, String.append_assoc,
      String.append_assoc]
    rfl
  have hbehind : " : public CFGArg".toList.takeWhile (fun c => decide (c ≠ ' ')) = [] := by decide
  rw [headName?, if_pos (beginsWith_classMark_headLine command), hline,
    List.drop_left' String.length_toList, List.takeWhile_append_of_pos hspace, hbehind,
    List.append_nil, String.ofList_toList]

/-- A class is read with the members of the lines between its head and its end. -/
theorem readClasses_class {command : String} (h : Name.IsName .lower command)
    {body : List String} (hbody : ∀ line ∈ body, IsInside line) (rest : List String) :
    readClasses (headLine command :: (body ++ (classEnd ++ rest))) =
      ([], (Name.className command, body.filterMap memberName?) :: (readClasses rest).2) := by
  have hend : readClasses (classEnd ++ rest) = ([], (readClasses rest).2) := rfl
  rw [readClasses, readClasses_append hbody, hend, List.append_nil]
  simp only [headName?_headLine h]

/-! ## Members -/

theorem lastWord?_append {front name gap : List Char} (hname : ∀ c ∈ name, c ≠ ' ')
    (hne : name ≠ []) (hgap : ∀ c ∈ gap, c = ' ') :
    lastWord? (front ++ ' ' :: (name ++ gap)) = some (String.ofList name) := by
  have hletters : ∀ c ∈ name.reverse, decide (c ≠ ' ') = true :=
    fun c hc => decide_eq_true (hname c (List.mem_reverse.mp hc))
  have hbackwards : (front ++ ' ' :: (name ++ gap)).reverse.dropWhile (· = ' ') =
      name.reverse ++ ' ' :: front.reverse := by
    have hreverse : (front ++ ' ' :: (name ++ gap)).reverse =
        gap.reverse ++ (name.reverse ++ ' ' :: front.reverse) := by simp
    rw [hreverse, List.dropWhile_append_of_pos fun c hc =>
      decide_eq_true (hgap c (List.mem_reverse.mp hc))]
    cases hlast : name.reverse with
    | nil => exact absurd (List.reverse_eq_nil_iff.mp hlast) hne
    | cons last before =>
      have hlastne : last ≠ ' ' := by
        have hmem := hletters last (hlast ▸ List.mem_cons_self)
        exact of_decide_eq_true hmem
      exact List.dropWhile_cons_of_neg (by simpa using hlastne)
  rw [lastWord?, hbackwards, if_pos (List.mem_append_right _ List.mem_cons_self),
    List.takeWhile_append_of_pos hletters, List.takeWhile_cons_of_neg (by decide), List.append_nil,
    List.reverse_reverse]

theorem lastWord?_eq_none {code : List Char} (h : ' ' ∉ code) : lastWord? code = none := by
  have hnone : ' ' ∉ code.reverse.dropWhile (· = ' ') := fun hmem =>
    h (List.mem_reverse.mp ((List.dropWhile_sublist _).subset hmem))
  rw [lastWord?, if_neg hnone]

/-- What a line at the margin of a class declares. -/
theorem memberName?_indented {code : String} (h : code.toList.head? ≠ some ' ') :
    memberName? ("    " ++ code) = lastWord? (code.toList.takeWhile isDeclarator) := by
  have hcode : ("    " ++ code).toList = ' ' :: ' ' :: ' ' :: ' ' :: code.toList := by
    rw [String.toList_append]
    rfl
  rw [memberName?, hcode]
  exact if_pos ⟨rfl, h⟩

/-- A line declares the name between its type and what follows the name. -/
theorem memberName?_declaration {type name tail : String} (htype : type ≠ "")
    (hmargin : type.toList.head? ≠ some ' ') (hchars : ∀ c ∈ type.toList, isDeclarator c = true)
    (hname : name ≠ "") (hword : ∀ c ∈ name.toList, isDeclarator c = true ∧ c ≠ ' ')
    (htail : ∀ c ∈ tail.toList.takeWhile isDeclarator, c = ' ') :
    memberName? ("    " ++ (type ++ (" " ++ (name ++ tail)))) = some name := by
  have hcode : (type ++ (" " ++ (name ++ tail))).toList =
      (type.toList ++ ' ' :: name.toList) ++ tail.toList := by
    simp only [String.toList_append, List.append_assoc]
    rfl
  have hhead : (type ++ (" " ++ (name ++ tail))).toList.head? ≠ some ' ' := by
    cases hfirst : type.toList with
    | nil => exact absurd (String.toList_eq_nil_iff.mp hfirst) htype
    | cons first chars =>
      rw [hcode, hfirst]
      rw [hfirst] at hmargin
      exact hmargin
  have hfront : ∀ c ∈ type.toList ++ ' ' :: name.toList, isDeclarator c = true := by
    simp only [List.forall_mem_append, List.forall_mem_cons]
    exact ⟨hchars, rfl, fun c hc => (hword c hc).1⟩
  rw [memberName?_indented hhead, hcode, List.takeWhile_append_of_pos hfront, List.append_assoc,
    List.cons_append, lastWord?_append (fun c hc => (hword c hc).2)
      (mt String.toList_eq_nil_iff.mp hname) htail, String.ofList_toList]

/-- The line of a constructor declares no member. -/
theorem memberName?_constructor {className : String} (h : ' ' ∉ className.toList) :
    memberName? ("    " ++ className ++ "();") = none := by
  have hspace : ' ' ∉ (className ++ "();").toList := by
    rw [String.toList_append, List.mem_append, not_or]
    exact ⟨h, by decide⟩
  rw [String.append_assoc, memberName?_indented fun hhead => hspace (List.mem_of_mem_head? hhead)]
  exact lastWord?_eq_none fun hmem => hspace ((List.takeWhile_sublist _).subset hmem)

/-! ## Declarations -/

theorem isDeclarator_of_notMem {s : String} (h : '(' ∉ s.toList ∧ '=' ∉ s.toList ∧ ';' ∉ s.toList) :
    ∀ c ∈ s.toList, isDeclarator c = true := by
  intro c hc
  simp only [isDeclarator, Bool.and_eq_true, decide_eq_true_eq]
  exact ⟨⟨fun heq => h.1 (heq ▸ hc), fun heq => h.2.1 (heq ▸ hc)⟩, fun heq => h.2.2 (heq ▸ hc)⟩

/-- A name stands in a declaration as one word. -/
theorem isWord_of_isName {name : String} (h : Name.IsName .lower name) :
    name ≠ "" ∧ ∀ c ∈ name.toList, isDeclarator c = true ∧ c ≠ ' ' := by
  constructor
  · rintro rfl
    obtain ⟨first, rest, hchars, -⟩ := h
    cases hchars
  · intro c hc
    refine ⟨isDeclarator_of_notMem ⟨h.notMem rfl, h.notMem rfl, h.notMem rfl⟩ c hc, ?_⟩
    rintro rfl
    exact h.notMem rfl hc

theorem memberName?_field {o : CommandOption} (h : Name.IsName .lower o.name) :
    memberName? ("    " ++ field o) = some o.name := by
  have htype : fieldType o ≠ "" ∧ (fieldType o).toList.head? ≠ some ' ' ∧
      (fieldType o).toList.all isDeclarator = true := by
    rw [fieldType]
    split
    all_goals cases o.kind <;> decide +kernel
  have htail : (" = " ++ (initializer o ++ ";")).toList.takeWhile isDeclarator = [' '] := by
    rw [String.toList_append]
    rfl
  obtain ⟨hname, hword⟩ := isWord_of_isName h
  rw [field, String.append_assoc, String.append_assoc, String.append_assoc, String.append_assoc]
  refine memberName?_declaration htype.1 htype.2.1 (List.all_eq_true.mp htype.2.2) hname hword ?_
  rw [htail]
  exact fun c hc => List.mem_singleton.mp hc

theorem memberName?_memberField {group : String} {m : Member} (h : m.IsMemberOf group) :
    memberName? (memberField m) = some m.name := by
  have hcommand : Name.IsName .lower m.command.name := h.name_command ▸ h.isName_qualified
  have hchars : ∀ c ∈ (Name.className m.command.name).toList, isDeclarator c = true :=
    isDeclarator_of_notMem ⟨notMem_className hcommand rfl (by decide),
      notMem_className hcommand rfl (by decide), notMem_className hcommand rfl (by decide)⟩
  have hhead := head?_className m.command.name
  obtain ⟨hname, hword⟩ := isWord_of_isName h.isName
  rw [memberField, String.append_assoc, String.append_assoc, String.append_assoc]
  have htail : ";".toList.takeWhile isDeclarator = [] := by decide
  refine memberName?_declaration ?_ ?_ hchars hname hword ?_
  · intro hempty
    rw [hempty] at hhead
    cases hhead
  · rw [hhead]
    decide
  · rw [htail]
    exact fun c hc => absurd hc List.not_mem_nil

/-- The lines behind the head of a class declare its methods. -/
theorem filterMap_tail_classHead {command : String} (h : Name.IsName .lower command) :
    (classHead (Name.className command)).tail.filterMap memberName? = Name.methods := by
  have hconstructor := memberName?_constructor (notMem_className h (c := ' ') rfl (by decide))
  have hparse : memberName?
      "    bool parse(int argc, const char **argv, std::vector<std::string>* errors = nullptr) \x7b" =
        some "parse" := by decide +kernel
  have hreturn : memberName? ("            return " ++ Name.baseClass ++
      "::parse(argc, argv, errors); \x7d") = none := by decide +kernel
  have hprint : memberName? ("    void print() \x7b " ++ Name.baseClass ++ "::print(); \x7d") =
      some "print" := by decide +kernel
  have hbrace : memberName? "\x7b" = none := by decide
  have haccess : memberName? "public:" = none := by decide
  simp only [classHead, List.tail_cons, List.filterMap_cons, hbrace, haccess, hconstructor, hparse,
    hreturn, hprint, List.filterMap_nil]
  rfl

theorem isInside_tail_classHead (className : String) :
    ∀ line ∈ (classHead className).tail, IsInside line := by
  simp only [classHead, List.tail_cons, List.forall_mem_cons]
  refine ⟨by decide, by decide, ?_, isInside_of_head (by simp), isInside_of_head (by simp),
    isInside_of_head (by simp), by simp⟩
  rw [String.append_assoc]
  exact isInside_indented _

theorem classHead_eq (command : String) :
    classHead (Name.className command) =
      headLine command :: (classHead (Name.className command)).tail := rfl

theorem readClasses_commandDeclaration {c : Command} (h : Name.IsName .lower c.name)
    (hoptions : ∀ o ∈ c.options, o.IsResolved) (rest : List String) :
    readClasses (commandDeclaration c ++ rest) =
      ([], (Name.className c.name, Name.methods ++ c.options.map CommandOption.name) ::
        (readClasses rest).2) := by
  have hlines : commandDeclaration c ++ rest = headLine c.name ::
      (((classHead (Name.className c.name)).tail ++ c.options.map ("    " ++ field ·)) ++
        (classEnd ++ rest)) := by
    rw [commandDeclaration, classHead_eq]
    simp only [List.cons_append, List.append_assoc, List.tail_cons]
  have hfields : (c.options.map ("    " ++ field ·)).filterMap memberName? =
      c.options.map CommandOption.name := by
    rw [List.filterMap_map, ← List.filterMap_eq_map]
    refine List.filterMap_congr fun o ho => ?_
    rw [Function.comp_apply, memberName?_field (hoptions o ho).isName, Function.comp_apply]
  have hinside : ∀ line ∈ (classHead (Name.className c.name)).tail ++
      c.options.map ("    " ++ field ·), IsInside line := by
    simp only [List.forall_mem_append, List.forall_mem_map]
    exact ⟨isInside_tail_classHead _, fun o _ => isInside_indented _⟩
  rw [hlines, readClasses_class h hinside, List.filterMap_append, filterMap_tail_classHead h,
    hfields]

/-- The table of the members of a group. -/
def memberTable : String := "m_sub_arg_map"

theorem readClasses_dispatcherDeclaration {g : Group} (h : g.WellFormed) (rest : List String) :
    readClasses (dispatcherDeclaration g ++ rest) =
      ([], (Name.className g.name, Name.methods ++ g.members.map Member.name ++ [memberTable]) ::
        (readClasses rest).2) := by
  have htable : memberName? ("    std::map<std::string, " ++ Name.baseClass ++
      "*> m_sub_arg_map;") = some memberTable := by decide +kernel
  have hlines : dispatcherDeclaration g ++ rest = headLine g.name ::
      (((classHead (Name.className g.name)).tail ++ g.members.map memberField ++
        ["    std::map<std::string, " ++ Name.baseClass ++ "*> m_sub_arg_map;"]) ++
        (classEnd ++ rest)) := by
    rw [dispatcherDeclaration, classHead_eq]
    simp only [List.cons_append, List.append_assoc, List.tail_cons]
  have hfields : (g.members.map memberField).filterMap memberName? = g.members.map Member.name := by
    rw [List.filterMap_map, ← List.filterMap_eq_map]
    refine List.filterMap_congr fun m hm => ?_
    rw [Function.comp_apply, memberName?_memberField (h.members m hm), Function.comp_apply]
  have hinside : ∀ line ∈ (classHead (Name.className g.name)).tail ++ g.members.map memberField ++
      ["    std::map<std::string, " ++ Name.baseClass ++ "*> m_sub_arg_map;"], IsInside line := by
    simp only [List.forall_mem_append, List.forall_mem_map, List.forall_mem_singleton]
    refine ⟨⟨isInside_tail_classHead _, fun m _ => ?_⟩, by decide +kernel⟩
    rw [memberField, String.append_assoc, String.append_assoc, String.append_assoc]
    exact isInside_indented _
  rw [hlines, readClasses_class h.isName hinside, List.filterMap_append, List.filterMap_append,
    filterMap_tail_classHead h.isName, hfields, List.filterMap_cons_some htable, List.filterMap_nil]

end Code
end CommandSchema
