/-
The classes of a run.

Every command, member and group of a schema has a class, which is generated under its name among
all commands.  `Schema.generated` lists these names in the order of their classes.  A run takes the
same names in another order, so in a run that succeeds no two of them are the same and none belongs
to an auxiliary schema.
-/
import CommandSchema.Proofs.Compilation.Success
import Mathlib.Data.List.Perm.Basic

namespace CommandSchema
namespace Schema

/-- The commands for which a class is generated, in the order of their classes. -/
def generated (s : Schema) : List String := s.commands.flatMap TopCommand.generated

theorem isBuilt_of_mem_commands {s : Schema} {top : TopCommand} (h : top ∈ s.commands) :
    top.IsBuilt top.name := by
  obtain ⟨entry, -, hentry⟩ := List.mem_filterMap.mp h
  cases hjson : TopCommand.ofJson entry.1 entry.2 with
  | error fault =>
    rw [hjson] at hentry
    cases hentry
  | ok other =>
    rw [hjson] at hentry
    obtain rfl : other = top := Option.some.inj hentry
    rw [TopCommand.name_of_ofJson hjson]
    exact TopCommand.isBuilt_of_ofJson hjson

theorem isName_of_mem_generated {s : Schema} {name : String} (h : name ∈ s.generated) :
    Name.IsName .lower name := by
  obtain ⟨top, htop, hname⟩ := List.mem_flatMap.mp h
  exact (isBuilt_of_mem_commands htop).isName_generated name hname

theorem generated_perm (s : Schema) : s.generated.Perm (s.commands.flatMap TopCommand.taken) :=
  List.Perm.flatMap_left _ fun top _ => top.generated_perm

/-- The qualified names of the members of all groups. -/
def memberNames (s : Schema) : List String := s.commands.flatMap TopCommand.memberNames

theorem mem_generated_iff {s : Schema} {name : String} :
    name ∈ s.generated ↔ name ∈ s.commands.map TopCommand.name ∨ name ∈ s.memberNames := by
  simp only [generated, TopCommand.generated, memberNames, List.mem_flatMap, List.mem_append,
    List.mem_map, List.mem_singleton, and_or_left, exists_or, eq_comm (a := name)]
  exact or_comm

section Run

variable {primary : Schema} {auxiliary : List Schema} {fragments : List Fragment}

theorem map_name_commands (h : primary.compile auxiliary = .ok fragments) :
    primary.commands.map TopCommand.name = primary.names :=
  map_name_eq (compile_spec h).1

theorem nodup_generated (h : primary.compile auxiliary = .ok fragments) :
    primary.generated.Nodup :=
  (generated_perm primary).nodup_iff.mpr (List.nodup_append.mp (compile_spec h).2.1).2.1

theorem notMem_generated_of_auxiliary (h : primary.compile auxiliary = .ok fragments)
    {name : String} (hname : name ∈ auxiliary.flatMap names) : name ∉ primary.generated := by
  intro hgenerated
  have hdisjoint := (List.nodup_append.mp (compile_spec h).2.1).2.2
  exact hdisjoint name hname name ((generated_perm primary).mem_iff.mp hgenerated) rfl

end Run

end Schema
end CommandSchema
