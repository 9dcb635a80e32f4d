/-
The lines of generated code are lines.

What a schema says goes into declarations as names and as literals.  Names have no line feed, and a
literal writes it as an escape, so every line of a declaration is one line of the header.

A carriage return ends a line for some readers too.  Names have none, but a literal writes it as it
is (`mem_literal_iff`), so what is shown of either character is shown of both, down to literals.
-/
import CommandSchema.Proofs.Code.LiteralLists
import CommandSchema.Proofs.Name.Class
import CommandSchema.Proofs.Text.Lines
import CommandSchema.Proofs.TopCommand.Names

namespace CommandSchema

theorem Name.IsName.isLine {case : LetterCase} {name : String} (h : Name.IsName case name) :
    Text.IsLine name := by
  cases case with
  | lower => exact h.notMem rfl
  | upper => exact h.notMem rfl

theorem Name.IsName.isLine_className {name : String} (h : Name.IsName .lower name) :
    Text.IsLine (Name.className name) :=
  Text.isLine_append.mpr ⟨by decide, h.upper.isLine⟩

namespace Code

/-! ## Literals and numbers -/

/-- The characters that somebody may take as the end of a line. -/
def lineEnds : List Char := ['\n', '\r']

/-- A text that is one line for everybody. -/
def IsOneLine (s : String) : Prop := ∀ m ∈ lineEnds, m ∉ s.toList

instance (s : String) : Decidable (IsOneLine s) := List.decidableBAll _ _

theorem forall_mem_lineEnds {p : Char → Prop} : (∀ m ∈ lineEnds, p m) ↔ p '\n' ∧ p '\r' := by
  rw [lineEnds, List.forall_mem_cons, List.forall_mem_singleton]

theorem mem_escapeChar_iff {m : Char} (hm : m ∈ lineEnds) {c : Char} :
    m ∈ escapeChar c ↔ m = c ∧ m ≠ '\n' := by
  grind [escapeChar, lineEnds]

/-- Of the characters that end a line, a literal escapes line feeds only. -/
theorem mem_literal_iff {m : Char} (hm : m ∈ lineEnds) {s : String} :
    m ∈ (literal s).toList ↔ m ∈ s.toList ∧ m ≠ '\n' := by
  have hquote : ∀ m ∈ lineEnds, m ≠ '"' := forall_mem_lineEnds.mpr (by decide)
  have hlast : m ∉ ['"'] := fun h => hquote m hm (List.mem_singleton.mp h)
  rw [toList_literal, List.mem_cons, or_iff_right (hquote m hm), List.mem_append, or_iff_left hlast,
    escape, List.mem_flatMap]
  simp only [mem_escapeChar_iff hm]
  constructor
  · rintro ⟨c, hc, rfl, hne⟩
    exact ⟨hc, hne⟩
  · intro h
    exact ⟨m, h.1, rfl, h.2⟩

theorem isLine_literal (s : String) : Text.IsLine (literal s) :=
  fun h => ((mem_literal_iff (by decide)).mp h).2 rfl

theorem toList_natural (n : Nat) : (toString n).toList = Nat.toDigits 10 n := by
  rw [Nat.toString_eq_repr, Nat.toList_repr]

theorem toList_negative (n : Nat) :
    (toString (Int.negSucc n)).toList = '-' :: (toString (n + 1)).toList := String.toList_append

theorem notMem_natural {m : Char} (hm : m.isDigit = false) (n : Nat) :
    m ∉ (toString n).toList := by
  rw [toList_natural]
  intro hmem
  rw [Nat.isDigit_of_mem_toDigits (by decide) (by decide) hmem] at hm
  cases hm

theorem notMem_integer {m : Char} (hm : m.isDigit = false) (hminus : m ≠ '-') (n : Int) :
    m ∉ (toString n).toList := by
  cases n with
  | ofNat n => exact notMem_natural hm n
  | negSucc n =>
    rw [toList_negative, List.mem_cons, not_or]
    exact ⟨hminus, notMem_natural hm (n + 1)⟩

theorem isLine_natural (n : Nat) : Text.IsLine (toString n) := notMem_natural rfl n

theorem isLine_integer (n : Int) : Text.IsLine (toString n) := notMem_integer rfl (by decide) n

/-! ## Lists and fields -/

section Ends

variable {m : Char}

theorem isOneLine_fieldType (o : CommandOption) : IsOneLine (fieldType o) := by
  rw [fieldType]
  split
  · cases o.kind <;> decide
  · cases o.kind <;> decide

theorem notMem_literalList_iff (hm : m ∈ lineEnds) {items : List String} :
    m ∉ (literalList items).toList ↔ ∀ item ∈ items, m ∉ (literal item).toList := by
  have hbegin : IsOneLine "\x7b" := by decide
  have hend : IsOneLine "\x7d" := by decide
  have hsep : IsOneLine ", " := by decide
  rw [literalList, Text.notMem_append, Text.notMem_append, and_iff_right (hbegin m hm),
    and_iff_left (hend m hm), Text.notMem_intercalate_iff (hsep m hm), List.forall_mem_map]

theorem notMem_defaultText_iff (hm : m ∈ lineEnds) {d : DefaultValue} :
    m ∉ (defaultText d).toList ↔ ∀ s, d = .str s → m ∉ (literal s).toList := by
  cases d with
  | bool b =>
    have htruth : IsOneLine (truth b) := by cases b <;> decide
    exact iff_of_true (htruth m hm) nofun
  | int n =>
    have hdigit : ∀ m ∈ lineEnds, m.isDigit = false := forall_mem_lineEnds.mpr (by decide)
    exact iff_of_true (notMem_natural (hdigit m hm) n) nofun
  | str s => exact ⟨fun h _ heq => DefaultValue.str.inj heq ▸ h, fun h => h s rfl⟩
  | unset => exact iff_of_true List.not_mem_nil nofun

theorem notMem_initializer_iff (hm : m ∈ lineEnds) {o : CommandOption} :
    m ∉ (initializer o).toList ↔ ∀ s, o.default = .str s → m ∉ (literal s).toList := by
  have hbegin : IsOneLine "\x7b" := by decide
  have hend : IsOneLine "\x7d" := by decide
  rw [initializer, ← notMem_defaultText_iff hm]
  split
  · rw [Text.notMem_append, Text.notMem_append, and_iff_right (hbegin m hm),
      and_iff_left (hend m hm)]
  · exact Iff.rfl

/-- A field ends a line only where the literal of its default does. -/
theorem notMem_field_iff (hm : m ∈ lineEnds) {o : CommandOption} (hname : m ∉ o.name.toList) :
    m ∉ (field o).toList ↔ ∀ s, o.default = .str s → m ∉ (literal s).toList := by
  have hblank : IsOneLine " " := by decide
  have hequal : IsOneLine " = " := by decide
  have hend : IsOneLine ";" := by decide
  simp only [field, Text.notMem_append, notMem_initializer_iff hm, isOneLine_fieldType o m hm,
    hblank m hm, hname, hequal m hm, hend m hm, not_false_eq_true, true_and, and_true]

end Ends

theorem isLine_field {o : CommandOption} (h : Text.IsLine o.name) : Text.IsLine (field o) :=
  (notMem_field_iff (by decide) h).mpr fun s _ => isLine_literal s

/-! ## Declarations -/

theorem isLine_classHead {className : String} (h : Text.IsLine className) :
    ∀ line ∈ classHead className, Text.IsLine line := by
  have hhead : Text.IsLine ("class " ++ className ++ " : public " ++ Name.baseClass) := by
    simp only [Text.isLine_append]
    exact ⟨⟨⟨by decide, h⟩, by decide⟩, by decide⟩
  have hconstructor : Text.IsLine ("    " ++ className ++ "();") := by
    simp only [Text.isLine_append]
    exact ⟨⟨by decide, h⟩, by decide⟩
  simp only [classHead, List.forall_mem_cons]
  exact ⟨hhead, by decide, by decide, hconstructor, Text.isLine_ofList (by decide), by decide,
    by decide, by simp⟩

theorem isLine_classEnd : ∀ line ∈ classEnd, Text.IsLine line := by decide

theorem isLine_commandDeclaration {c : Command} (hname : Name.IsName .lower c.name)
    (hoptions : ∀ o ∈ c.options, o.IsResolved) :
    ∀ line ∈ commandDeclaration c, Text.IsLine line := by
  simp only [commandDeclaration, List.forall_mem_append, List.forall_mem_map]
  refine ⟨⟨isLine_classHead hname.isLine_className, fun o ho => ?_⟩, isLine_classEnd⟩
  exact Text.isLine_append.mpr ⟨by decide, isLine_field (hoptions o ho).isName.isLine⟩

theorem isLine_memberField {group : String} {m : Member} (h : m.IsMemberOf group) :
    Text.IsLine (memberField m) := by
  have hclass : Text.IsLine (Name.className m.command.name) := by
    rw [h.name_command]
    exact h.isName_qualified.isLine_className
  simp only [memberField, Text.isLine_append]
  exact ⟨⟨⟨⟨by decide, hclass⟩, by decide⟩, h.isName.isLine⟩, by decide⟩

theorem isLine_dispatcherDeclaration {g : Group} (h : g.WellFormed) :
    ∀ line ∈ dispatcherDeclaration g, Text.IsLine line := by
  simp only [dispatcherDeclaration, List.forall_mem_append, List.forall_mem_map,
    List.forall_mem_singleton]
  exact ⟨⟨⟨isLine_classHead h.isName.isLine_className,
    fun m hm => isLine_memberField (h.members m hm)⟩, by decide⟩, isLine_classEnd⟩

/-- The lines that declare the classes of a command at the top. -/
def declarationLines : TopCommand → List String
  | .single c => commandDeclaration c
  | .group g => g.members.flatMap (commandDeclaration ·.command) ++ dispatcherDeclaration g

theorem declaration_ofTop (top : TopCommand) :
    (ofTop top).declaration = Text.unlines (declarationLines top) := by
  cases top with
  | single c => rfl
  | group g => rfl

theorem isLine_declarationLines {name : String} {top : TopCommand} (h : top.IsBuilt name) :
    ∀ line ∈ declarationLines top, Text.IsLine line := by
  cases top with
  | single c =>
    obtain ⟨decl, hdecl⟩ := h
    have hname : Name.IsName .lower c.name := Command.isName_name_of_ofDecl hdecl
    exact isLine_commandDeclaration hname (Command.isResolved_of_ofDecl hdecl)
  | group g =>
    simp only [declarationLines, List.forall_mem_append, List.forall_mem_flatMap]
    refine ⟨fun m hm => ?_, isLine_dispatcherDeclaration h.2⟩
    have hmember := h.2.members m hm
    exact isLine_commandDeclaration (hmember.name_command ▸ hmember.isName_qualified)
      hmember.isResolved

end Code
end CommandSchema
