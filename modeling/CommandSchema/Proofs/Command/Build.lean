/-
What it takes to create a command and to add an option.

An option is added when its names are free, and `push` is the command that it leads to.
-/
import CommandSchema.Command.Basic
import CommandSchema.Proofs.CommandOption.Names
import CommandSchema.Proofs.CommandOption.Resolve

namespace CommandSchema
namespace Command

/-- The command with one more option, whatever its names are. -/
def push (c : Command) (o : CommandOption) : Command :=
  { c with
    options := c.options ++ [o]
    taken := c.taken.claim o
    width := max c.width o.describe.utf8ByteSize }

theorem create_eq_ok_iff {name : String} {help : List String} {arity : Arity} {hidden : Bool}
    {c : Command} :
    create name help arity hidden = .ok c ↔
      Name.IsName .lower name ∧ help.any (!Text.isBlank ·) = true ∧
        c = { name := name, help := help, arity := arity, hidden := hidden } := by
  simp only [create, Outcome.bind_eq_ok_iff, Outcome.pure_eq_ok_iff, Outcome.require_eq_ok_iff,
    Name.check_eq_ok_iff, Outcome.exists_unit_iff]

theorem add_eq_ok_iff {c d : Command} {o : CommandOption} :
    c.add o = .ok d ↔ c.taken.Accepts o ∧ d = c.push o := by
  simp only [add, Outcome.bind_eq_ok_iff, Outcome.pure_eq_ok_iff, Outcome.exists_unit_iff,
    TakenNames.checkLong_eq_ok_iff, TakenNames.checkShort?_eq_ok_iff, TakenNames.Accepts, push,
    and_assoc]

theorem declare_eq_ok_iff {c d : Command} {decl : OptionDecl} :
    c.declare decl = .ok d ↔
      ∃ o, CommandOption.resolve c.taken c.name decl = .ok o ∧ c.taken.Accepts o ∧ d = c.push o := by
  simp only [declare, Outcome.bind_eq_ok_iff, add_eq_ok_iff]

end Command
end CommandSchema
