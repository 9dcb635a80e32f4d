/-
Rules and fields as lines for everybody.

The texts of an option stand in its rule and in its field as literals: its help and its variants in
the rule, a default that is a text in the field.  Everything else there is made of names, words,
digits and signs.  A literal escapes line feeds but no carriage returns, so neither text ever has a
line feed in it, and each has a carriage return exactly when one of its texts has.
-/
import CommandSchema.Proofs.Code.RuleTable

namespace CommandSchema
namespace Code

theorem isOneLine_iff {s : String} : IsOneLine s ↔ Text.IsLine s ∧ '\r' ∉ s.toList :=
  forall_mem_lineEnds

theorem return_notMem_literal_iff {s : String} : '\r' ∉ (literal s).toList ↔ '\r' ∉ s.toList := by
  have hescaped : '\r' ≠ '\n' := by decide
  rw [mem_literal_iff (by decide), and_iff_left hescaped]

theorem isOneLine_rule_iff {o : CommandOption} (h : o.IsResolved) :
    IsOneLine (rule o) ↔ ∀ text ∈ o.help ++ o.variants, '\r' ∉ text.toList := by
  rw [isOneLine_iff, and_iff_right (isLine_rule h), notMem_rule_iff h (by decide)]
  simp only [return_notMem_literal_iff]

theorem isOneLine_field_iff {o : CommandOption} (h : o.IsResolved) :
    IsOneLine (field o) ↔ ∀ text, o.default = .str text → '\r' ∉ text.toList := by
  have hname : '\r' ∉ o.name.toList := h.isName.notMem rfl
  rw [isOneLine_iff, and_iff_right (isLine_field h.isName.isLine),
    notMem_field_iff (by decide) hname]
  simp only [return_notMem_literal_iff]

/-- The rule and the field of an option that is accepted have no line feed in them.  So each of them
is one line for everybody exactly when none of its texts has a carriage return: the help and the
variants for the rule, and the default for the field. -/
theorem isOneLine_of_resolve {taken : TakenNames} {command : String} {decl : OptionDecl}
    {o : CommandOption} (h : CommandOption.resolve taken command decl = .ok o) :
    '\n' ∉ (rule o).toList ∧ '\n' ∉ (field o).toList ∧
      (IsOneLine (rule o) ↔ ∀ text ∈ decl.help.toLines ++ o.variants, '\r' ∉ text.toList) ∧
      (IsOneLine (field o) ↔ ∀ text, o.default = .str text → '\r' ∉ text.toList) := by
  have hresolved : o.IsResolved := ⟨taken, command, decl, h⟩
  refine ⟨isLine_rule hresolved, isLine_field hresolved.isName.isLine, ?_,
    isOneLine_field_iff hresolved⟩
  rw [isOneLine_rule_iff hresolved, CommandOption.help_of_resolve h]

/-- An option with line feeds, tabs and quotes in all its texts. -/
def cableOption (default : String) : OptionDecl where
  name := "cable"
  short := some "c"
  type := "str"
  default := some (.string default)
  help := .lines ["First\nsecond", "\"quoted\"\t\\"]

theorem isOneLine_cableOption :
    ∃ o, CommandOption.resolve {} "program" (cableOption "usb\n\t\"1\"") = .ok o ∧
      field o = "std::string cable = \"usb\\n\\t\\\"1\\\"\";" ∧
      IsOneLine (rule o) ∧ IsOneLine (field o) := by
  have h : CommandOption.resolve {} "program" (cableOption "usb\n\t\"1\"") = .ok _ := rfl
  obtain ⟨-, -, hrule, hfield⟩ := isOneLine_of_resolve h
  refine ⟨_, h, by decide +kernel, hrule.mpr (by decide), hfield.mpr ?_⟩
  rintro _ ⟨⟩
  decide

/-- The carriage return of a default stands between the quotes of its literal. -/
theorem not_isOneLine_cableOption :
    ∃ o, CommandOption.resolve {} "program" (cableOption "a\rb") = .ok o ∧
      field o = "std::string cable = \"a\rb\";" ∧ IsOneLine (rule o) ∧ ¬ IsOneLine (field o) :=
  ⟨_, rfl, by decide +kernel, by decide +kernel, by decide +kernel⟩

end Code
end CommandSchema
