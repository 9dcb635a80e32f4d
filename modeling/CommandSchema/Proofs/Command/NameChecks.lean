/-
The two checks of the names of an option.

The names of an option are checked on its declaration, where the letter is still a text, and once
more on the option that has been made of it, when it is added.  Both come down to `checkNames`: a
declaration that is sound in itself is refused for the names taken exactly when its option is, and
with the same fault (`resolve_eq_of_alone`, `add_eq`).  So the second check never refuses what the
first one has passed (`add_of_resolve`), and to add a declared option fails just as to make it does
(`declare_eq`).

The names taken and the name of the command decide whether there is an option and what the fault is,
but nothing of them goes into the option (`eq_of_resolve`).
-/
import CommandSchema.Proofs.Command.Build
import CommandSchema.Proofs.CommandOption.Types

namespace CommandSchema

/-- The names of an option have to be free, the long one first. -/
def TakenNames.checkNames (taken : TakenNames) (command : String) (o : CommandOption) :
    Except Fault Unit := do
  taken.checkLong command o.name
  taken.checkShort? command o.name o.short

namespace CommandOption

section Resolve

variable {taken other : TakenNames} {command otherCommand : String} {decl : OptionDecl}
  {o p : CommandOption}

/-! ## The check of a declaration -/

/-- A letter that is one in itself is refused as the letter of an option is. -/
theorem resolveShort_eq_of_alone {option : String} {text? : Option String} {short : Option Char}
    (h : resolveShort {} command option text? = .ok short) :
    resolveShort taken command option text? =
      (taken.checkShort? command option short).map fun _ => short := by
  cases short with
  | none =>
    obtain rfl := resolveShort_eq_none_iff.mp h
    rfl
  | some c =>
    obtain ⟨text, rfl, hchars, hletter, -⟩ := resolveShort_eq_some_iff.mp h
    have hc : shortOf command option text = .ok c := shortOf_eq_ok_iff.mpr ⟨hchars, hletter⟩
    rw [resolveShort, hc, Outcome.ok_bind, TakenNames.checkShort?]
    cases taken.checkShort command option c with
    | ok u => rfl
    | error fault => rfl

/-- A declaration that stands for an option alone stands for it next to others, unless a name of
that option is refused. -/
theorem resolve_eq_of_alone (h : resolve {} command decl = .ok o) :
    resolve taken command decl = (taken.checkNames command o).map fun _ => o := by
  obtain ⟨hname, hmark, hmethod, -, short, hshort, kind, variants, htype, hmulti, default, hdefault,
    hhelp, rfl⟩ := resolve_eq_ok_iff.mp h
  have hcheck : Name.check .lower decl.name = .ok () := Name.check_eq_ok_iff.mpr hname
  have hrepeat : (!decl.multi || kind.isRepeatable) = true := by
    cases hm : decl.multi with
    | false => rfl
    | true => exact hmulti hm
  -- The names taken are looked at in two stages, and the declaration passes all others.
  simp only [resolve, hcheck, hmark, hmethod, resolveShort_eq_of_alone hshort, htype, hrepeat,
    hdefault, hhelp, Fault.require, Bool.not_false, not_false_eq_true, decide_true, if_true,
    Outcome.ok_bind]
  rw [TakenNames.checkNames]
  cases taken.checkLong command decl.name with
  | error fault => rfl
  | ok u =>
    cases taken.checkShort? command decl.name short with
    | error fault => rfl
    | ok u => rfl

/-! ## What becomes of a declaration -/

theorem resolve_eq_ok_congr :
    resolve taken command decl = .ok o ↔ resolve taken otherCommand decl = .ok o := by
  have hshort (short : Option Char) :
      resolveShort taken command decl.name decl.short = .ok short ↔
        resolveShort taken otherCommand decl.name decl.short = .ok short := by
    cases short with
    | none => rw [resolveShort_eq_none_iff, resolveShort_eq_none_iff]
    | some c => simp only [resolveShort_eq_some_iff, TakenNames.checkShort_eq_ok_iff]
  simp only [resolve_eq_ok_iff, TakenNames.checkLong_eq_ok_iff, hshort, resolveType_eq_ok_iff,
    resolveDefault_eq_ok_iff]

/-- A declaration stands for one option, whatever names are taken and whatever command it is for. -/
theorem eq_of_resolve (ho : resolve taken command decl = .ok o)
    (hp : resolve other otherCommand decl = .ok p) : o = p := by
  have halone := (resolve_eq_ok_iff_accepts.mp ho).1
  have hother := (resolve_eq_ok_iff_accepts.mp hp).1
  exact Except.ok.inj (halone.symm.trans (resolve_eq_ok_congr.mp hother))

end Resolve
end CommandOption

namespace Command

variable {c : Command} {decl : OptionDecl} {o : CommandOption}

/-! ## The check of an option -/

theorem add_eq (c : Command) (o : CommandOption) :
    c.add o = (c.taken.checkNames c.name o).map fun _ => c.push o := by
  rw [add, TakenNames.checkNames]
  cases c.taken.checkLong c.name o.name with
  | error fault => rfl
  | ok u =>
    cases c.taken.checkShort? c.name o.name o.short with
    | error fault => rfl
    | ok u => rfl

/-- An option that has passed the check of its declaration is added. -/
theorem add_of_resolve (h : CommandOption.resolve c.taken c.name decl = .ok o) :
    c.add o = .ok (c.push o) :=
  add_eq_ok_iff.mpr ⟨CommandOption.accepts_of_resolve h, rfl⟩

theorem declare_eq (c : Command) (decl : OptionDecl) :
    c.declare decl = (CommandOption.resolve c.taken c.name decl).map c.push := by
  rw [declare]
  cases h : CommandOption.resolve c.taken c.name decl with
  | error fault => rfl
  | ok o => exact add_of_resolve h

theorem resolve_eq_map_add (h : CommandOption.resolve {} c.name decl = .ok o) :
    CommandOption.resolve c.taken c.name decl = (c.add o).map fun _ => o := by
  rw [CommandOption.resolve_eq_of_alone h, add_eq]
  cases c.taken.checkNames c.name o with
  | error fault => rfl
  | ok u => rfl

/-- The check of a declaration and the check of its option agree, in any command and with any names
taken.  What passes the first passes the second, so a declared option is added unless the first
check fails, and then the addition fails with the same fault.  Of a declaration that is sound alone,
the two refuse the same names with the same fault.  What an option becomes does not depend on the
names taken. -/
theorem name_checks_agree (c : Command) (decl : OptionDecl) :
    (∀ o, CommandOption.resolve c.taken c.name decl = .ok o → c.add o = .ok (c.push o)) ∧
    (∀ fault, c.declare decl = .error fault ↔
      CommandOption.resolve c.taken c.name decl = .error fault) ∧
    (∀ o, CommandOption.resolve {} c.name decl = .ok o →
      CommandOption.resolve c.taken c.name decl = (c.add o).map fun _ => o) ∧
    ∀ taken other command otherCommand o p, CommandOption.resolve taken command decl = .ok o →
      CommandOption.resolve other otherCommand decl = .ok p → o = p := by
  refine ⟨fun o => add_of_resolve, fun fault => ?_, fun o => resolve_eq_map_add, ?_⟩
  · rw [declare_eq, Outcome.map_eq_error_iff]
  · exact fun taken other command otherCommand o p => CommandOption.eq_of_resolve

/-- A declaration whose letter another option has. -/
def configDecl : OptionDecl :=
  { name := "config", short := some "c", type := "str", multi := true, help := .line "A file" }

def configOption : CommandOption :=
  { name := "config", short := some 'c', kind := .str, multiple := true, default := .unset,
    help := ["A file"] }

theorem name_checks_agree_config :
    ∃ c, ofDecl "program" {
        help := .line "Program a device"
        options := [
          { name := "cable", short := some "c", type := "int", help := .line "Index" }] } = .ok c ∧
      CommandOption.resolve {} "program" configDecl = .ok configOption ∧
      c.declare configDecl = .error (.shortTaken "program" "config" 'c') ∧
      c.add configOption = .error (.shortTaken "program" "config" 'c') ∧
      CommandOption.resolve { long := ["cable"], short := ['d'] } "copy" configDecl =
        .ok configOption := by
  refine ⟨_, rfl, rfl, ?_, ?_, rfl⟩
  · obtain ⟨-, hdeclare, -⟩ := name_checks_agree _ configDecl
    exact (hdeclare _).mpr rfl
  · obtain ⟨-, -, halone, -⟩ := name_checks_agree _ configDecl
    exact Outcome.map_eq_error_iff.mp (halone configOption rfl).symm

end Command
end CommandSchema
