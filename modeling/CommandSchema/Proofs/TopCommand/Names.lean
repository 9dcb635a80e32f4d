/-
The names of a command at the top and of its members.

The same names come in two orders.  A run takes the name of a command before those of its members
(`taken`), and the generated code has the class of a command behind those of its members
(`generated`).  All of them are names, for a command that has been built.
-/
import CommandSchema.Compilation
import CommandSchema.Proofs.Group.Build

namespace CommandSchema
namespace TopCommand

/-- A command at the top that some declaration of that name stands for. -/
def IsBuilt (name : String) : TopCommand → Prop
  | .single c => ∃ decl, Command.ofDecl name decl = .ok c
  | .group g => g.name = name ∧ g.WellFormed

theorem ofJson_eq_ok_iff {name : String} {value : Json.Value} {top : TopCommand} :
    ofJson name value = .ok top ↔
      ∃ decl, Declaration.ofJson name value = .ok decl ∧ assemble name decl = .ok top :=
  Outcome.bind_eq_ok_iff

theorem isBuilt_of_ofJson {name : String} {value : Json.Value} {top : TopCommand}
    (h : ofJson name value = .ok top) : top.IsBuilt name := by
  obtain ⟨decl, -, hassemble⟩ := ofJson_eq_ok_iff.mp h
  cases decl with
  | flat command =>
    obtain ⟨c, hc, rfl⟩ := Outcome.map_eq_ok_iff.mp hassemble
    exact ⟨command, hc⟩
  | group entries =>
    obtain ⟨g, hg, rfl⟩ := Outcome.map_eq_ok_iff.mp hassemble
    exact Group.wellFormed_of_ofEntries hg

theorem IsBuilt.name_eq {name : String} {top : TopCommand} (h : top.IsBuilt name) :
    top.name = name := by
  cases top with
  | single c =>
    obtain ⟨decl, hdecl⟩ := h
    exact Command.name_of_ofDecl hdecl
  | group g => exact h.1

theorem IsBuilt.isName {name : String} {top : TopCommand} (h : top.IsBuilt name) :
    Name.IsName .lower name := by
  cases top with
  | single c =>
    obtain ⟨decl, hdecl⟩ := h
    exact Command.isName_of_ofDecl hdecl
  | group g => exact h.1 ▸ h.2.isName

theorem name_of_ofJson {name : String} {value : Json.Value} {top : TopCommand}
    (h : ofJson name value = .ok top) : top.name = name :=
  (isBuilt_of_ofJson h).name_eq

/-! ## The names of a command and of its members -/

/-- The qualified names of the members of a group. -/
def memberNames (top : TopCommand) : List String :=
  top.members.map fun m => Name.qualified top.name m.name

/-- The names that a command takes, in the order in which it takes them. -/
def taken (top : TopCommand) : List String := top.name :: top.memberNames

/-- The commands for which a class is generated, in the order of their classes. -/
def generated (top : TopCommand) : List String := top.memberNames ++ [top.name]

theorem generated_perm (top : TopCommand) : top.generated.Perm top.taken :=
  List.perm_append_singleton top.name top.memberNames

theorem IsBuilt.isName_generated {name : String} {top : TopCommand} (h : top.IsBuilt name) :
    ∀ n ∈ top.generated, Name.IsName .lower n := by
  intro n hn
  rcases List.mem_append.mp hn with hmember | hown
  · cases top with
    | single c => cases hmember
    | group g =>
      obtain ⟨m, hm, rfl⟩ := List.mem_map.mp hmember
      exact (h.2.members m hm).isName_qualified
  · obtain rfl := List.mem_singleton.mp hown
    rw [h.name_eq]
    exact h.isName

end TopCommand
end CommandSchema
