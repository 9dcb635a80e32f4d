/-
Fields and rules of a command, one of each for every option.

A class is read line by line, and so is its constructor.  A field is a line at the margin of a class
that `readField` takes for one; a rule is a line that begins with `ruleMark`.  Whatever the help of
an option says, it stands in the rules as literals, which do not run over the end of a line, so it
makes no line that could be taken for another rule.  The texts of the help screen stand as they are,
but in front of the constructor.

Fields come in the order of the options and rules in the arranged one.  The names of the options are
all different, so a rule says by its name alone which field it belongs to (`Matches`).
-/
import CommandSchema.Proofs.Code.DeclaredClasses
import CommandSchema.Proofs.Code.Rules
import CommandSchema.Proofs.Code.Screens
import CommandSchema.Proofs.Command.Acceptance

namespace CommandSchema

namespace Code

/-! ## Reading -/

/-- The field that a line at the margin of a class declares. -/
def readFieldLine (line : String) : Option (FieldType × String × FieldValue) :=
  if Text.beginsWith "    " line then readField (String.ofList (line.toList.drop 4)) else none

/-- The fields that the lines of a declaration declare. -/
def fieldsOf (declaration : String) : List (FieldType × String × FieldValue) :=
  (Text.split '\n' declaration).filterMap readFieldLine

/-- The mark at the beginning of a line with a rule. -/
def ruleMark : String := "    CFGArg_RULE("

def rulesOf (constructor : String) : List String :=
  (Text.split '\n' constructor).filter (Text.beginsWith ruleMark)

/-- The name in a rule, and the field whose address the rule takes. -/
def readRule (line : String) : Option (String × String) := do
  let (name, rest) ← readLiteral (line.toList.drop ruleMark.length)
  let (_, rest) ← Text.cutAt ['&'] rest
  let (target, _) ← Text.cutAt [',', ' '] rest
  return (name, String.ofList target)

/-- The fields that the rules of a constructor go to. -/
def targetsOf (constructor : String) : List String :=
  ((rulesOf constructor).filterMap readRule).map (·.2)

/-! ## Fields -/

theorem readFieldLine_indented (code : String) :
    readFieldLine ("    " ++ code) = readField code := by
  have hcode : ("    " ++ code).toList.drop 4 = code.toList := by
    rw [String.toList_append]
    rfl
  rw [readFieldLine, if_pos (Text.beginsWith_append _ code), hcode, String.ofList_toList]

theorem readField_eq_none_of_notMem {line : String} (h : ' ' ∉ line.toList) :
    readField line = none := by
  have hcut : Text.cutAt [' '] line.toList = none := by
    cases hcut : Text.cutAt [' '] line.toList with
    | none => rfl
    | some parts =>
      refine absurd ?_ h
      rw [Text.eq_of_cutAt hcut]
      simp
  rw [readField, hcut]
  rfl

theorem readField_eq_none_of_type {word : String} (hspace : ' ' ∉ word.toList)
    (htype : ∀ t ∈ FieldType.all, t.name.toList ≠ word.toList) (rest : String) :
    readField (word ++ (" " ++ rest)) = none := by
  have hcut : Text.cutAt [' '] (word ++ (" " ++ rest)).toList = some (word.toList, rest.toList) :=
    Text.cutAt_toList_of_notMem rfl hspace rest
  have hfind : FieldType.all.find? (·.name.toList = word.toList) = none :=
    List.find?_eq_none.mpr fun t ht => by simpa using htype t ht
  rw [readField, hcut]
  simp only [Option.bind_eq_bind, Option.bind_some, hfind, Option.bind_none]

/-- A line at the margin is no field if its characters are those of none. -/
theorem readFieldLine_eq_none {line : String} {code : List Char}
    (hline : line = String.ofList (' ' :: ' ' :: ' ' :: ' ' :: code))
    (h : ∀ s : String, s.toList = code → readField s = none) : readFieldLine line = none := by
  have hcode : line = "    " ++ String.ofList code := by
    rw [hline, ← String.toList_inj, String.toList_append, String.toList_ofList]
    exact congrArg ("    ".toList ++ ·) String.toList_ofList.symm
  rw [hcode, readFieldLine_indented]
  exact h _ String.toList_ofList

/-- Neither the head of a class nor its methods are fields. -/
theorem filterMap_readFieldLine_classHead {command : String} (h : Name.IsName .lower command) :
    (classHead (Name.className command)).filterMap readFieldLine = [] := by
  have hhead : readFieldLine (headLine command) = none := by
    rw [readFieldLine, headLine, if_neg]
    simp [Text.beginsWith]
  have hconstructor : readFieldLine ("    " ++ Name.className command ++ "();") = none := by
    rw [String.append_assoc, readFieldLine_indented]
    refine readField_eq_none_of_notMem ?_
    rw [String.toList_append, List.mem_append, not_or]
    exact ⟨notMem_className h rfl (by decide), by decide⟩
  -- What follows the sign of equality is no truth value.
  have hparse : readFieldLine
      "    bool parse(int argc, const char **argv, std::vector<std::string>* errors = nullptr) \x7b" =
        none := by
    refine readFieldLine_eq_none rfl fun s hs => ?_
    rw [readField, hs]
    decide +kernel
  have hreturn : readFieldLine ("            return " ++ Name.baseClass ++
      "::parse(argc, argv, errors); \x7d") = none := by
    have hline : "            return " = "    " ++ ("" ++ (" " ++ "       return ")) := by decide
    rw [hline, String.append_assoc, String.append_assoc, readFieldLine_indented,
      String.append_assoc, String.append_assoc]
    exact readField_eq_none_of_type (by decide) (by decide) _
  have hprint : readFieldLine ("    void print() \x7b " ++ Name.baseClass ++ "::print(); \x7d") =
      none := by
    have hline : "    void print() \x7b " = "    " ++ ("void" ++ (" " ++ "print() \x7b ")) := by
      decide
    rw [hline, String.append_assoc, String.append_assoc, readFieldLine_indented,
      String.append_assoc, String.append_assoc]
    exact readField_eq_none_of_type (by decide) (by decide) _
  have hbrace : readFieldLine "\x7b" = none := by decide
  have haccess : readFieldLine "public:" = none := by decide
  rw [List.filterMap_eq_nil_iff]
  simp only [classHead, List.forall_mem_cons]
  exact ⟨hhead, hbrace, haccess, hconstructor, hparse, hreturn, hprint, List.forall_mem_nil _⟩

theorem split_declaration {c : Command} (hname : Name.IsName .lower c.name)
    (hoptions : ∀ o ∈ c.options, o.IsResolved) :
    Text.split '\n' (ofCommand c).declaration =
      classHead (Name.className c.name) ++ c.options.map ("    " ++ field ·) ++
        ["\x7d;", "", ""] := by
  rw [ofCommand, Text.split_unlines (isLine_commandDeclaration hname hoptions), commandDeclaration,
    List.append_assoc]
  rfl

theorem fieldsOf_declaration {c : Command} (hname : Name.IsName .lower c.name)
    (hoptions : ∀ o ∈ c.options, o.IsResolved) :
    fieldsOf (ofCommand c).declaration =
      c.options.map fun o => (.ofOption o, o.name, .ofDefault o.multiple o.default) := by
  have hfields : (c.options.map ("    " ++ field ·)).filterMap readFieldLine =
      c.options.map fun o => (.ofOption o, o.name, .ofDefault o.multiple o.default) := by
    rw [List.filterMap_map, ← List.filterMap_eq_map]
    refine List.filterMap_congr fun o ho => ?_
    rw [Function.comp_apply, readFieldLine_indented, readField_of_isResolved (hoptions o ho),
      Function.comp_apply]
  have hend : ["\x7d;", "", ""].filterMap readFieldLine = [] := by decide
  rw [fieldsOf, split_declaration hname hoptions, List.filterMap_append, List.filterMap_append,
    filterMap_readFieldLine_classHead hname, hfields, hend, List.nil_append, List.append_nil]

/-! ## The lines of a constructor -/

/-- A word of lower-case letters. -/
def IsLetters (s : String) : Prop := s.toList.all LetterCase.lower.isLetter = true

instance (s : String) : Decidable (IsLetters s) := instDecidableEqBool _ _

theorem IsLetters.notMem {s : String} (h : IsLetters s) {m : Char}
    (hm : LetterCase.lower.isLetter m = false) : m ∉ s.toList := by
  intro hmem
  rw [List.all_eq_true.mp h m hmem] at hm
  cases hm

theorem isLetters_truth (b : Bool) : IsLetters (truth b) := by
  cases b with
  | true => decide
  | false => decide

theorem isLetters_tag (kind : OptionKind) : IsLetters kind.tag := by cases kind <;> decide

/-- A letter brings no other character than the signs of a constant. -/
theorem notMem_letter {o : CommandOption} (h : o.IsResolved) {m : Char}
    (hm : LetterCase.lower.isLetter m = false) (hsigns : m ∉ "char(0)".toList ++ ['\'']) :
    m ∉ (letter o.short).toList := by
  rw [List.mem_append, List.mem_singleton, not_or] at hsigns
  cases hshort : o.short with
  | none => exact hsigns.1
  | some c =>
    have hc : m ≠ c := by
      rintro rfl
      rw [h.isLetter_short hshort] at hm
      cases hm
    rw [toList_letter_some]
    simp [hc, hsigns.2]

/-- A rule ends a line only where a literal of its help or its variants does. -/
theorem notMem_rule_iff {o : CommandOption} (h : o.IsResolved) {m : Char} (hm : m ∈ lineEnds) :
    m ∉ (rule o).toList ↔ ∀ text ∈ o.help ++ o.variants, m ∉ (literal text).toList := by
  have hnoLetter : ∀ m ∈ lineEnds, LetterCase.lower.isLetter m = false :=
    forall_mem_lineEnds.mpr (by decide)
  have hnoRest : ∀ m ∈ lineEnds, Name.isRest .lower m = false :=
    forall_mem_lineEnds.mpr (by decide)
  have hsigns : ∀ m ∈ lineEnds, m ∉ "char(0)".toList ++ ['\''] :=
    forall_mem_lineEnds.mpr (by decide)
  have hbegin : IsOneLine (Name.baseClass ++ "_RULE(") := by decide
  have hend : IsOneLine ")" := by decide
  have hsep : IsOneLine ", " := by decide
  have hquote : IsOneLine "\"" := by decide
  have hreference : IsOneLine "&" := by decide
  have hname : m ∉ o.name.toList := h.isName.notMem (hnoRest m hm)
  have hliteral : m ∉ (literal o.name).toList := fun hmem => hname ((mem_literal_iff hm).mp hmem).1
  have htag : m ∉ o.kind.tag.toList := (isLetters_tag o.kind).notMem (hnoLetter m hm)
  have htruth (b : Bool) : m ∉ (truth b).toList := (isLetters_truth b).notMem (hnoLetter m hm)
  have hletter := notMem_letter h (hnoLetter m hm) (hsigns m hm)
  rw [rule, Text.notMem_append, Text.notMem_append, and_iff_right (hbegin m hm),
    and_iff_left (hend m hm), Text.notMem_intercalate_iff (hsep m hm), List.forall_mem_append]
  simp only [List.forall_mem_cons, List.not_mem_nil, false_implies, implies_true, and_true,
    Text.notMem_append, notMem_literalList_iff hm, hliteral, hletter, hquote m hm, htag, htruth,
    hreference m hm, hname, not_false_eq_true, true_and]

theorem isLine_rule {o : CommandOption} (h : o.IsResolved) : Text.IsLine (rule o) :=
  (notMem_rule_iff h (by decide)).mpr fun text _ => isLine_literal text

theorem isLine_baseCall {c : Command} (h : Name.IsName .lower c.name) :
    Text.IsLine (baseCall c) := by
  have hsep : Text.IsLine ", " := by decide
  rw [baseCall, Text.isLine_append]
  refine ⟨by decide, (Text.notMem_intercalate_iff hsep).mpr ?_⟩
  simp only [List.forall_mem_cons, List.not_mem_nil, false_implies, implies_true, and_true]
  refine ⟨?_, (isLetters_truth _).notMem rfl, isLine_natural _, isLine_integer _, by decide⟩
  exact Text.isLine_append.mpr ⟨Text.isLine_append.mpr ⟨by decide, h.isLine⟩, by decide⟩

/-- What stands behind the `i`-th of `n` rules. -/
def ruleEnd (n i : Nat) : String := if i + 1 < n then "," else "\x7d,"

theorem ruleLines_eq (os : List CommandOption) :
    ruleLines os = os.mapIdx fun i o => "    " ++ rule o ++ ruleEnd os.length i := by
  induction os with
  | nil => rfl
  | cons o rest ih =>
    cases rest with
    | nil => rfl
    | cons p rest =>
      have hfirst : ruleEnd (o :: p :: rest).length 0 = "," := if_pos (by simp)
      have hlater (i : Nat) :
          ruleEnd (o :: p :: rest).length (i + 1) = ruleEnd (p :: rest).length i := by
        simp only [ruleEnd, List.length_cons, Nat.add_lt_add_iff_right]
      rw [List.mapIdx_cons, ruleLines, ih]
      · simp only [hfirst, hlater]
      · exact List.cons_ne_nil p rest

theorem ruleTable_eq (c : Command) :
    ∃ opening, ruleTable c = (baseCall c ++ opening) :: ruleLines c.arranged ∧
      Text.IsLine opening := by
  rw [ruleTable]
  cases c.arranged with
  | nil => exact ⟨"\x7d,", rfl, by decide⟩
  | cons o rest => exact ⟨"", by rw [String.append_empty], by decide⟩

/-! ## Rules -/

theorem isLine_ruleLines {os : List CommandOption} (h : ∀ o ∈ os, o.IsResolved) :
    ∀ line ∈ ruleLines os, Text.IsLine line := by
  rw [ruleLines_eq]
  intro line hline
  obtain ⟨i, hi, rfl⟩ := List.mem_mapIdx.mp hline
  have hend : Text.IsLine (ruleEnd os.length i) := by
    rw [ruleEnd]
    split
    · decide
    · decide
  simp only [Text.isLine_append]
  exact ⟨⟨by decide, isLine_rule (h _ (List.getElem_mem hi))⟩, hend⟩

theorem isLine_constructor {c : Command} (hname : Name.IsName .lower c.name)
    (hoptions : ∀ o ∈ c.options, o.IsResolved) :
    ∀ line ∈ (commandScreen c).code, Text.IsLine line := by
  obtain ⟨opening, htable, hopening⟩ := ruleTable_eq c
  have hclass : Text.IsLine (Name.className c.name) := hname.isLine_className
  have hrules : ∀ line ∈ ruleLines c.arranged, Text.IsLine line :=
    isLine_ruleLines fun o ho => hoptions o (c.arranged_perm.subset ho)
  have hhead : Text.IsLine (constructorHead (Name.className c.name)) := by
    simp only [constructorHead, Text.isLine_append]
    exact ⟨⟨⟨hclass, by decide⟩, hclass⟩, by decide⟩
  have hhelp : Text.IsLine ("    " ++ helpConstant (Name.className c.name) ++ ")") := by
    simp only [helpConstant, Text.isLine_append]
    exact ⟨⟨by decide, hclass, by decide⟩, by decide⟩
  simp only [commandScreen, htable, List.forall_mem_append, List.forall_mem_cons]
  exact ⟨⟨⟨hhead, List.forall_mem_nil _⟩,
      Text.isLine_append.mpr ⟨isLine_baseCall hname, hopening⟩, hrules⟩,
    hhelp, by decide, by decide, by decide, List.forall_mem_nil _⟩

/-- The values in a rule between the name and the field, and the commas around them. -/
def ruleSettings (o : CommandOption) : String :=
  String.intercalate ", " ["", letter o.short, "\"" ++ o.kind.tag ++ "\"", truth o.optional,
    truth o.multiple, truth o.hidden, ""]

/-- The line of a rule with its name and its field. -/
theorem exists_line_rule (o : CommandOption) (behind : String) :
    ∃ texts, "    " ++ rule o ++ behind =
      ruleMark ++ (literal o.name ++ (ruleSettings o ++ ("&" ++ (o.name ++ (", " ++ texts))))) := by
  refine ⟨literalList o.help ++ ", " ++ literalList o.variants ++ ")" ++ behind, ?_⟩
  have hmark : ruleMark = "    " ++ (Name.baseClass ++ "_RULE(") := by decide
  simp only [rule, hmark, ruleSettings, String.intercalate_cons_cons, String.intercalate_singleton,
    String.empty_append, String.append_empty, String.append_assoc]

theorem ampersand_notMem_ruleSettings {o : CommandOption} (h : o.IsResolved) :
    '&' ∉ (ruleSettings o).toList := by
  have hletter : '&' ∉ (letter o.short).toList := notMem_letter h rfl (by decide)
  have htag : '&' ∉ o.kind.tag.toList := (isLetters_tag o.kind).notMem rfl
  have htruth (b : Bool) : '&' ∉ (truth b).toList := (isLetters_truth b).notMem rfl
  simp only [ruleSettings, String.intercalate_cons_cons, String.intercalate_singleton,
    String.toList_append, List.mem_append, not_or, hletter, htag, htruth, not_false_eq_true,
    true_and, and_true]
  decide

/-- A rule says the name of its option twice. -/
theorem readRule_rule {o : CommandOption} (h : o.IsResolved) (behind : String) :
    readRule ("    " ++ rule o ++ behind) = some (o.name, o.name) := by
  obtain ⟨texts, hline⟩ := exists_line_rule o behind
  have hcomma : ',' ∉ o.name.toList := h.isName.notMem rfl
  have hsettings (rest : String) : Text.cutAt ['&'] (ruleSettings o ++ ("&" ++ rest)).toList =
      some ((ruleSettings o).toList, rest.toList) :=
    Text.cutAt_toList_of_notMem rfl (ampersand_notMem_ruleSettings h) rest
  have htarget : Text.cutAt [',', ' '] (o.name ++ (", " ++ texts)).toList =
      some (o.name.toList, texts.toList) := Text.cutAt_toList_of_notMem rfl hcomma texts
  rw [readRule, hline, String.toList_append, List.drop_left' String.length_toList,
    String.toList_append, readLiteral_literal]
  simp only [Option.bind_eq_bind, Option.bind_some, hsettings, htarget, String.ofList_toList]
  rfl

theorem filter_constructor {c : Command} (hname : Name.IsName .lower c.name) :
    (commandScreen c).code.filter (Text.beginsWith ruleMark) = ruleLines c.arranged := by
  obtain ⟨opening, htable, -⟩ := ruleTable_eq c
  have hhead : Text.beginsWith ruleMark (constructorHead (Name.className c.name)) = false := by
    refine Text.beginsWith_eq_false (c := ' ') rfl ?_
    simp [constructorHead, Name.className, Name.baseClass]
  have hcall : Text.beginsWith ruleMark (baseCall c ++ opening) = false := by
    rw [Text.beginsWith, baseCall, String.append_assoc, String.append_assoc, String.toList_append,
      String.toList_append]
    rfl
  -- The constant may have a name like `CFGArg_RULE_HELP`, but no list of arguments follows.
  have hhelp : Text.beginsWith ruleMark
      ("    " ++ helpConstant (Name.className c.name) ++ ")") = false := by
    refine Text.beginsWith_eq_false_of_notMem (c := '(') (by decide) ?_
    simp only [helpConstant, String.toList_append, List.mem_append, not_or]
    exact ⟨⟨by decide, notMem_className hname rfl (by decide), by decide⟩, by decide⟩
  have hrules : (ruleLines c.arranged).filter (Text.beginsWith ruleMark) =
      ruleLines c.arranged := by
    rw [ruleLines_eq, List.filter_eq_self]
    intro line hline
    obtain ⟨i, hi, rfl⟩ := List.mem_mapIdx.mp hline
    obtain ⟨texts, htexts⟩ := exists_line_rule c.arranged[i] (ruleEnd c.arranged.length i)
    rw [htexts]
    exact Text.beginsWith_append ruleMark _
  have hclosing : ["\x7b", "\x7d", ""].filter (Text.beginsWith ruleMark) = [] := by decide
  rw [commandScreen, htable]
  simp only [List.filter_append, List.filter_cons, hhead, hcall, hhelp, hrules, hclosing]
  simp

theorem rulesOf_constructor {c : Command} (hname : Name.IsName .lower c.name)
    (hoptions : ∀ o ∈ c.options, o.IsResolved) :
    rulesOf (Text.unlines (commandScreen c).code) = ruleLines c.arranged := by
  have hend : [""].filter (Text.beginsWith ruleMark) = [] := by decide
  rw [rulesOf, Text.split_unlines (isLine_constructor hname hoptions), List.filter_append,
    filter_constructor hname, hend, List.append_nil]

theorem map_readRule_ruleLines {os : List CommandOption} (h : ∀ o ∈ os, o.IsResolved) :
    (ruleLines os).map readRule = os.map fun o => some (o.name, o.name) := by
  refine List.ext_getElem (by simp [ruleLines_eq]) fun i hleft hright => ?_
  simp only [ruleLines_eq, List.getElem_map, List.getElem_mapIdx]
  exact readRule_rule (h _ (List.getElem_mem _)) _

/-- A declaration and a constructor that match.  The class has a field for each option, in their
order; the constructor has a rule for each in the arranged order, and only the last one closes the
table.  Each rule goes to the field of its own name, so the rules go to all the fields, and to none
of them twice. -/
structure Matches (c : Command) (declaration constructor : String) : Prop where
  lines : Text.split '\n' declaration =
    classHead (Name.className c.name) ++ c.options.map ("    " ++ field ·) ++ ["\x7d;", "", ""]
  fields : fieldsOf declaration =
    c.options.map fun o => (.ofOption o, o.name, .ofDefault o.multiple o.default)
  rules : rulesOf constructor = c.arranged.mapIdx fun i o =>
    "    " ++ rule o ++ if i + 1 < c.arranged.length then "," else "\x7d,"
  read : (rulesOf constructor).map readRule = c.arranged.map fun o => some (o.name, o.name)
  perm : (targetsOf constructor).Perm ((fieldsOf declaration).map (·.2.1))
  nodup : (targetsOf constructor).Nodup

theorem matches_of_nodup {c : Command} (hname : Name.IsName .lower c.name)
    (hoptions : ∀ o ∈ c.options, o.IsResolved) (hnodup : c.names.Nodup) :
    Matches c (ofCommand c).declaration (Text.unlines (commandScreen c).code) := by
  have hfields := fieldsOf_declaration hname hoptions
  have hrules := rulesOf_constructor hname hoptions
  have hread := map_readRule_ruleLines fun o ho => hoptions o (c.arranged_perm.subset ho)
  have htargets : targetsOf (Text.unlines (commandScreen c).code) =
      c.arranged.map CommandOption.name := by
    rw [targetsOf, hrules, ← Function.id_comp readRule, ← List.filterMap_map, hread]
    simp [List.filterMap_map, Function.comp_def]
  have hperm : (c.arranged.map CommandOption.name).Perm c.names := c.arranged_perm.map _
  constructor
  case lines => exact split_declaration hname hoptions
  case fields => exact hfields
  case rules =>
    rw [hrules, ruleLines_eq]
    rfl
  case read => rw [hrules, hread]
  case perm =>
    rw [htargets, hfields, List.map_map]
    exact hperm
  case nodup =>
    rw [htargets]
    exact hperm.nodup_iff.mpr hnodup

/-- The class of an accepted command has a field for each option that is declared, in their order.
The definition is the help screen and a constructor, which matches the class. -/
theorem matches_of_ofDecl {name : String} {decl : CommandDecl} {c : Command}
    (h : Command.ofDecl name decl = .ok c) :
    (fieldsOf (ofCommand c).declaration).map (·.2.1) = decl.options.map OptionDecl.name ∧
      ∃ constructor,
        (ofCommand c).definition =
          Text.unlines (rawConstant (helpConstant (Name.className c.name)) c.helpLines) ++
            constructor ∧
        Matches c (ofCommand c).declaration constructor := by
  have hname : Name.IsName .lower c.name :=
    (Command.name_of_ofDecl h).symm ▸ Command.isName_of_ofDecl h
  have hmatches := matches_of_nodup hname (Command.isResolved_of_ofDecl h)
    (Command.IsMade.declared h).consistent.names_nodup
  refine ⟨?_, _, ?_, hmatches⟩
  · rw [hmatches.fields, List.map_map]
    exact Command.map_name_of_resolved (Command.resolved_of_ofDecl h)
  · rw [← Text.unlines_append]
    exact congrArg Text.unlines (written_commandScreen c).symm

/-- A help text and a member of an enumeration that look like rules. -/
def forgedRules : CommandDecl :=
  { help := .line "Program a device"
    options := [
      { name := "size", short := some "s", type := "int", multi := true,
        help := .line "How much\n    CFGArg_RULE(\"fake\", &fake, )" },
      { name := "mode", type := "fast|slow\n    CFGArg_RULE(\"x\", &x, |ok",
        help := .lines ["How to burn", "    CFGArg_RULE("] },
      { name := "operation", type := "str", help := .line "What to do", hide := true }] }

theorem matches_forgedRules :
    ∃ c constructor, Command.ofDecl "program" forgedRules = .ok c ∧
      (ofCommand c).definition =
        Text.unlines (rawConstant "CFGArg_PROGRAM_HELP" c.helpLines) ++ constructor ∧
      (fieldsOf (ofCommand c).declaration).map (·.2.1) = ["size", "mode", "operation"] ∧
      (rulesOf constructor).map readRule =
        [some ("operation", "operation"), some ("size", "size"), some ("mode", "mode")] ∧
      Matches c (ofCommand c).declaration constructor := by
  obtain ⟨c, h, hclass, harranged⟩ : ∃ c, Command.ofDecl "program" forgedRules = .ok c ∧
      helpConstant (Name.className c.name) = "CFGArg_PROGRAM_HELP" ∧
      c.arranged.map (fun o => some (o.name, o.name)) =
        [some ("operation", "operation"), some ("size", "size"), some ("mode", "mode")] :=
    ⟨_, rfl, by decide +kernel, by decide +kernel⟩
  obtain ⟨hnames, constructor, hcode, hmatches⟩ := matches_of_ofDecl h
  exact ⟨c, constructor, h, hclass ▸ hcode, hnames, hmatches.read.trans harranged, hmatches⟩

end Code
end CommandSchema
