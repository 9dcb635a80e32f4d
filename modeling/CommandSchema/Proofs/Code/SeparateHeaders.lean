/-
Headers of several schemas.

A schema that is auxiliary to another one has a header of its own, and the classes of both headers
share one space of names.  A run knows an auxiliary schema by the names at its top, and has no class
of theirs.  It does not look at the declarations behind these names, so it cannot know how the
members of their groups will be called.  Whether two headers have a class in common is therefore a
question about those members alone.
-/
import CommandSchema.Proofs.Code.Screens

namespace CommandSchema
namespace Schema

variable {primary other : Schema} {auxiliary : List Schema} {fragments others : List Fragment}

theorem names_subset_generated (h : primary.compile auxiliary = .ok fragments) :
    primary.names ⊆ primary.generated := by
  intro name hname
  rw [← map_name_commands h] at hname
  exact mem_generated_iff.mpr (Or.inl hname)

theorem notMem_generated_of_mem_names (h : primary.compile auxiliary = .ok fragments)
    (hmem : other ∈ auxiliary) {name : String} (hname : name ∈ other.names) :
    name ∉ primary.generated :=
  notMem_generated_of_auxiliary h (List.mem_flatMap.mpr ⟨other, hmem, hname⟩)

/-- A class of two headers is the class of one name that both schemas generate. -/
theorem declaresClass_both_iff (h : primary.compile auxiliary = .ok fragments)
    (hother : other.compile [] = .ok others) {className : String} :
    (Code.DeclaresClass (String.join (fragments.map (·.code.declaration))) className ∧
        Code.DeclaresClass (String.join (others.map (·.code.declaration))) className) ↔
      ∃ n ∈ primary.generated, n ∈ other.generated ∧ Name.className n = className := by
  rw [declaresClass_iff h, declaresClass_iff hother]
  constructor
  · rintro ⟨⟨n, hn, rfl⟩, m, hm, heq⟩
    obtain rfl : m = n :=
      (Name.className_inj_iff (isName_of_mem_generated hm) (isName_of_mem_generated hn)).mp heq
    exact ⟨m, hn, hm, rfl⟩
  · rintro ⟨n, hn, hm, hclass⟩
    exact ⟨⟨n, hn, hclass⟩, n, hm, hclass⟩

/-- A run has no class of a name at the top of an auxiliary schema.  It has no class at all in
common with the header of that schema exactly when nothing in the run is called like one of the
members there. -/
theorem classes_disjoint_iff (h : primary.compile auxiliary = .ok fragments)
    (hmem : other ∈ auxiliary) (hother : other.compile [] = .ok others) :
    (∀ n ∈ other.names, ¬ Code.DeclaresClass
        (String.join (fragments.map (·.code.declaration))) (Name.className n)) ∧
      ((∀ className,
          Code.DeclaresClass (String.join (fragments.map (·.code.declaration))) className →
          ¬ Code.DeclaresClass (String.join (others.map (·.code.declaration))) className) ↔
        ∀ n ∈ other.memberNames, n ∉ primary.generated) := by
  constructor
  · intro n hn hclass
    have hgenerated : n ∈ other.generated := names_subset_generated hother hn
    have hdeclares : Code.DeclaresClass (String.join (others.map (·.code.declaration)))
        (Name.className n) := (declaresClass_iff hother).mpr ⟨n, hgenerated, rfl⟩
    obtain ⟨m, hm, -, heq⟩ := (declaresClass_both_iff h hother).mp ⟨hclass, hdeclares⟩
    obtain rfl : m = n := (Name.className_inj_iff (isName_of_mem_generated hm)
      (isName_of_mem_generated hgenerated)).mp heq
    exact notMem_generated_of_mem_names h hmem hn hm
  · simp only [← not_and, declaresClass_both_iff h hother]
    constructor
    · rintro hdisjoint n ⟨hmember, hgenerated⟩
      exact hdisjoint _ ⟨n, hgenerated, mem_generated_iff.mpr (Or.inr hmember), rfl⟩
    · rintro hfree className ⟨n, hn, hm, -⟩
      rcases mem_generated_iff.mp hm with htop | hmember
      · rw [map_name_commands hother] at htop
        exact notMem_generated_of_mem_names h hmem htop hn
      · exact hfree n ⟨hmember, hn⟩

/-- A group, and a command that is called like one of its members. -/
def memberGroup : Schema := ⟨[
  ("utst", .array [
    .object [("help", .string "u")],
    .object [("sub0", .object [("desc", .string "d"), ("help", .string "h")])],
    .object [("sub1", .object [("desc", .string "d"), ("help", .string "h")])]])]⟩

def memberCommand : Schema := ⟨[("utst_sub0", .object [("help", .string "flat")])]⟩

theorem compile_memberGroup : ∃ others, memberGroup.compile [] = .ok others := ⟨_, rfl⟩

theorem classes_disjoint_disguised :
    ∃ fragments others, disguised.compile [memberGroup] = .ok fragments ∧
      memberGroup.compile [] = .ok others ∧
      ∀ className,
        Code.DeclaresClass (String.join (fragments.map (·.code.declaration))) className →
        ¬ Code.DeclaresClass (String.join (others.map (·.code.declaration))) className := by
  obtain ⟨fragments, h⟩ : ∃ fragments, disguised.compile [memberGroup] = .ok fragments := ⟨_, rfl⟩
  obtain ⟨others, hothers⟩ := compile_memberGroup
  refine ⟨fragments, others, h, hothers, ?_⟩
  exact (classes_disjoint_iff h List.mem_cons_self hothers).2.mpr (by decide +kernel)

theorem declaresClass_both_memberCommand :
    ∃ fragments others, memberCommand.compile [memberGroup] = .ok fragments ∧
      memberGroup.compile [] = .ok others ∧
      Code.DeclaresClass (String.join (fragments.map (·.code.declaration))) "CFGArg_UTST_SUB0" ∧
      Code.DeclaresClass (String.join (others.map (·.code.declaration))) "CFGArg_UTST_SUB0" := by
  obtain ⟨fragments, h⟩ : ∃ fragments, memberCommand.compile [memberGroup] = .ok fragments :=
    ⟨_, rfl⟩
  obtain ⟨others, hothers⟩ := compile_memberGroup
  refine ⟨fragments, others, h, hothers, ?_⟩
  exact (declaresClass_both_iff h hothers).mpr
    ⟨"utst_sub0", by decide +kernel, by decide +kernel, by decide +kernel⟩

end Schema
end CommandSchema
