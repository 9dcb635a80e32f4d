/-
Which options find their names free.

The names and letters that are taken decide this together with those that belong to every command
line, and nothing else does.
-/
import CommandSchema.CommandOption.Names
import CommandSchema.Proofs.Outcome

namespace CommandSchema
namespace TakenNames

/-- An option with names that neither ask for help nor are taken. -/
def Accepts (taken : TakenNames) (o : CommandOption) : Prop :=
  (o.name ≠ Name.help ∧ o.name ∉ taken.long) ∧
    ∀ c, o.short = some c → c ≠ Name.helpShort ∧ c ∉ taken.short

theorem checkLong_eq_ok_iff {taken : TakenNames} {command name : String} {u : Unit} :
    taken.checkLong command name = .ok u ↔ name ≠ Name.help ∧ name ∉ taken.long := by
  rw [checkLong]
  by_cases hhelp : name = Name.help
  · simp [hhelp]
  · by_cases htaken : name ∈ taken.long
    · simp [hhelp, htaken]
    · simp [hhelp, htaken]

theorem checkShort_eq_ok_iff {taken : TakenNames} {command option : String} {short : Char}
    {u : Unit} :
    taken.checkShort command option short = .ok u ↔
      short ≠ Name.helpShort ∧ short ∉ taken.short := by
  rw [checkShort]
  by_cases hhelp : short = Name.helpShort
  · simp [hhelp]
  · by_cases htaken : short ∈ taken.short
    · simp [hhelp, htaken]
    · simp [hhelp, htaken]

theorem checkShort?_eq_ok_iff {taken : TakenNames} {command option : String}
    {short : Option Char} {u : Unit} :
    taken.checkShort? command option short = .ok u ↔
      ∀ c, short = some c → c ≠ Name.helpShort ∧ c ∉ taken.short := by
  cases short with
  | none => simp [checkShort?]
  | some c => simp [checkShort?, checkShort_eq_ok_iff]

theorem checkLong_eq_error_iff {taken : TakenNames} {command name : String} :
    (∃ fault, taken.checkLong command name = .error fault) ↔
      name = Name.help ∨ name ∈ taken.long := by
  rw [Outcome.exists_error_iff, checkLong_eq_ok_iff, not_and_or, not_not, not_not]

theorem checkShort_eq_error_iff {taken : TakenNames} {command option : String} {short : Char} :
    (∃ fault, taken.checkShort command option short = .error fault) ↔
      short = Name.helpShort ∨ short ∈ taken.short := by
  rw [Outcome.exists_error_iff, checkShort_eq_ok_iff, not_and_or, not_not, not_not]

end TakenNames
end CommandSchema
