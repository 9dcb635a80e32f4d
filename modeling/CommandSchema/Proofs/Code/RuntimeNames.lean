/-
The names of the runtime among those of generated code.

Generated code uses two names that it does not make: the base class of all its classes, and the
record that holds the rule of an option.  No constant has one of these names, since a constant is
named after a command with an ending, and no class is called like the base class, since a class has
an underscore in its name.

The record is another matter.  It is called like the class of a command `rule` would be, and nothing
keeps a schema from having such a command.  A member cannot be the cause, as its qualified name has
an underscore; so what has to be ruled out is a command at the top with that one name.
-/
import CommandSchema.Proofs.Code.Screens

namespace CommandSchema
namespace Code

/-- The record of the runtime that every `rule` of an option makes. -/
def ruleRecord : String := Name.baseClass ++ "_RULE"

/-- What generated code uses of the runtime by name. -/
def runtimeNames : List String := [Name.baseClass, ruleRecord]

theorem ruleRecord_eq : ruleRecord = Name.className "rule" := by decide +kernel

theorem isName_rule : Name.IsName .lower "rule" :=
  Name.check_eq_ok_iff.mp (rfl : Name.check .lower "rule" = .ok ())

theorem className_ne_baseClass (command : String) : Name.className command ≠ Name.baseClass := by
  have hbase : '_' ∉ Name.baseClass.toList := by decide
  intro h
  exact hbase (h ▸ Name.underscore_mem_className command)

theorem className_mem_runtimeNames_iff {command : String} (h : Name.IsName .lower command) :
    Name.className command ∈ runtimeNames ↔ command = "rule" := by
  rw [runtimeNames, List.mem_cons, List.mem_singleton, ruleRecord_eq,
    Name.className_inj_iff h isName_rule, or_iff_right (className_ne_baseClass command)]

theorem qualified_ne_rule (group member : String) : Name.qualified group member ≠ "rule" := by
  have hrule : '_' ∉ "rule".toList := by decide
  intro h
  exact hrule (h ▸ Name.underscore_mem_qualified group member)

end Code

namespace Schema

theorem notMem_runtimeNames_of_mem_constants {s : Schema} {constant : String}
    (h : constant ∈ s.constants) : constant ∉ Code.runtimeNames := by
  intro hruntime
  rcases mem_constants_iff.mp h with ⟨n, hn, rfl⟩ | ⟨g, hg, rfl⟩
  · rw [Name.helpConstant_className,
      Code.className_mem_runtimeNames_iff (isName_of_mem_generated hn).qualified_help] at hruntime
    exact Code.qualified_ne_rule n "help" hruntime
  · rw [Name.hiddenHelpConstant_className, Code.className_mem_runtimeNames_iff
      (isName_of_mem_groups hg).qualified_hidden_help] at hruntime
    exact Code.qualified_ne_rule g "hidden_help" hruntime

theorem rule_notMem_memberNames (s : Schema) : "rule" ∉ s.memberNames := by
  intro h
  obtain ⟨top, -, hmember⟩ := List.mem_flatMap.mp h
  obtain ⟨m, -, hm⟩ := List.mem_map.mp hmember
  exact Code.qualified_ne_rule top.name m.name hm

section Run

variable {primary : Schema} {auxiliary : List Schema} {fragments : List Fragment}

theorem rule_mem_generated_iff (h : primary.compile auxiliary = .ok fragments) :
    "rule" ∈ primary.generated ↔ "rule" ∈ primary.names := by
  rw [mem_generated_iff, map_name_commands h, or_iff_left primary.rule_notMem_memberNames]

/-- The constants and classes of a run have other names than the runtime unless a command at the
top is called `rule`. -/
theorem runtimeNames_free_iff (h : primary.compile auxiliary = .ok fragments) :
    Code.Defines (String.join (fragments.map (·.code.definition))) primary.constants ∧
      (∀ constant ∈ primary.constants, constant ∉ Code.runtimeNames) ∧
      ((∀ name ∈ Code.runtimeNames,
          ¬ Code.DeclaresClass (String.join (fragments.map (·.code.declaration))) name) ↔
        "rule" ∉ primary.names) := by
  refine ⟨defines_definitions h, fun _ => notMem_runtimeNames_of_mem_constants, ?_⟩
  simp only [← rule_mem_generated_iff h, declaresClass_iff h]
  constructor
  · intro hfree hrule
    refine hfree Code.ruleRecord (by simp [Code.runtimeNames]) ⟨"rule", hrule, ?_⟩
    exact Code.ruleRecord_eq.symm
  · rintro hrule name hname ⟨n, hn, rfl⟩
    rw [Code.className_mem_runtimeNames_iff (isName_of_mem_generated hn)] at hname
    exact hrule (hname ▸ hn)

theorem runtimeNames_free_disguised :
    ∃ fragments, disguised.compile [⟨[("close", .null)]⟩] = .ok fragments ∧
      ∀ name ∈ Code.runtimeNames,
        ¬ Code.DeclaresClass (String.join (fragments.map (·.code.declaration))) name := by
  obtain ⟨fragments, h⟩ := compile_disguised
  exact ⟨fragments, h, (runtimeNames_free_iff h).2.2.mpr (by decide)⟩

/-- A command whose class is called like the record of the runtime. -/
def ruleCommand : Schema := ⟨[("rule", .object [("help", .string "h")])]⟩

theorem declaresClass_ruleCommand :
    ∃ fragments, ruleCommand.compile [] = .ok fragments ∧
      Code.ruleRecord ∈ Code.runtimeNames ∧
      Code.DeclaresClass (String.join (fragments.map (·.code.declaration))) Code.ruleRecord := by
  obtain ⟨fragments, h⟩ : ∃ fragments, ruleCommand.compile [] = .ok fragments := ⟨_, rfl⟩
  refine ⟨fragments, h, by decide, ?_⟩
  exact (declaresClass_iff h).mpr ⟨"rule", by decide +kernel, Code.ruleRecord_eq.symm⟩

end Run

end Schema
end CommandSchema
