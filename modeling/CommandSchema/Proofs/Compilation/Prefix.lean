/-
Where a compilation fails.

A run reads its entries from left to right.  It fails at an entry in front, whatever comes behind,
or the entries in front have no fault; then it fails where the entries behind do, in a registry that
has the names of those in front as well (`compileEntries_append_eq_error_iff`).  A name that is
taken is refused before its declaration is read.
-/
import CommandSchema.Proofs.Compilation.Generated

namespace CommandSchema

namespace Schema

theorem compileEntries_cons_eq_error_iff {r : NameRegistry} {entry : String × Json.Value}
    {rest : List (String × Json.Value)} {fault : Fault} :
    compileEntries r (entry :: rest) = .error fault ↔
      compileEntry r entry.1 entry.2 = .error fault ∨
        ∃ s top, compileEntry r entry.1 entry.2 = .ok (s, top) ∧
          compileEntries s rest = .error fault := by
  simp [compileEntries, Outcome.bind_eq_error_iff, pure, Except.pure]

theorem compileEntries_append_eq_error_iff {r : NameRegistry}
    {front back : List (String × Json.Value)} {fault : Fault} :
    compileEntries r (front ++ back) = .error fault ↔
      compileEntries r front = .error fault ∨
        ∃ tops, List.Forall₂ Declares front tops ∧ r.Free (tops.flatMap TopCommand.taken) ∧
          compileEntries (r.extend (tops.flatMap TopCommand.taken)) back = .error fault := by
  induction front generalizing r with
  | nil =>
    simp [compileEntries, NameRegistry.free_nil, NameRegistry.extend_nil]
  | cons entry rest ih =>
    rw [List.cons_append, compileEntries_cons_eq_error_iff, compileEntries_cons_eq_error_iff,
      or_assoc]
    refine or_congr_right ?_
    constructor
    · rintro ⟨s, top, hentry, hfailed⟩
      rcases ih.mp hfailed with hrest | ⟨tops, htops, hfree, hback⟩
      · exact Or.inl ⟨s, top, hentry, hrest⟩
      · obtain ⟨hjson, hfreetop, rfl⟩ := compileEntry_eq_ok_iff.mp hentry
        rw [NameRegistry.extend_extend] at hback
        exact Or.inr ⟨top :: tops, List.Forall₂.cons hjson htops,
          NameRegistry.free_append_iff.mpr ⟨hfreetop, hfree⟩, hback⟩
    · rintro (⟨s, top, hentry, hrest⟩ | ⟨all, hall, hfree, hback⟩)
      · exact ⟨s, top, hentry, ih.mpr (Or.inl hrest)⟩
      · obtain ⟨top, tops, hjson, htops, rfl⟩ := List.forall₂_cons_left_iff.mp hall
        rw [List.flatMap_cons] at hfree hback
        obtain ⟨hfreetop, hfreerest⟩ := NameRegistry.free_append_iff.mp hfree
        rw [← NameRegistry.extend_extend] at hback
        exact ⟨_, top, compileEntry_eq_ok_iff.mpr ⟨hjson, hfreetop, rfl⟩,
          ih.mpr (Or.inr ⟨tops, htops, hfreerest, hback⟩)⟩

theorem compileEntries_of_taken {r : NameRegistry} {name : String} (h : name ∈ r.names)
    (value : Json.Value) (rest : List (String × Json.Value)) :
    compileEntries r ((name, value) :: rest) = .error (.commandTaken name) := by
  rw [compileEntries_cons_eq_error_iff, compileEntry, NameRegistry.claim_of_mem h]
  exact Or.inl rfl

/-- A run fails with its auxiliary names, or at its entries in a registry of those names. -/
theorem compile_eq_error_iff {primary : Schema} {auxiliary : List Schema} {fault : Fault} :
    primary.compile auxiliary = .error fault ↔
      (∃ r, ({} : NameRegistry).seed (auxiliary.flatMap names) = (r, .error fault)) ∨
        ({} : NameRegistry).Free (auxiliary.flatMap names) ∧
          compileEntries (({} : NameRegistry).extend (auxiliary.flatMap names)) primary.entries =
            .error fault := by
  rw [compile]
  split
  next r other hseed =>
    simp [hseed, NameRegistry.not_free_of_seed_error hseed]
  next r hseed =>
    obtain ⟨hfree, rfl⟩ := NameRegistry.seed_eq_ok_iff.mp hseed
    simp [hseed, hfree]

theorem compile_append_of_error {front : Schema} {auxiliary : List Schema} {fault : Fault}
    (h : front.compile auxiliary = .error fault) (back : List (String × Json.Value)) :
    Schema.compile ⟨front.entries ++ back⟩ auxiliary = .error fault := by
  rw [compile_eq_error_iff] at h ⊢
  rcases h with hseed | ⟨hfree, hentries⟩
  · exact Or.inl hseed
  · exact Or.inr ⟨hfree, compileEntries_append_eq_error_iff.mpr (Or.inl hentries)⟩

theorem mem_taken_commands_iff {s : Schema} {name : String} :
    name ∈ s.commands.flatMap TopCommand.taken ↔
      name ∈ s.commands.map TopCommand.name ∨ name ∈ s.memberNames := by
  rw [← (generated_perm s).mem_iff, mem_generated_iff]

theorem compile_append_of_ok {front : Schema} {auxiliary : List Schema}
    {fragments : List Fragment} (h : front.compile auxiliary = .ok fragments) {name : String}
    (hname : name ∈ auxiliary.flatMap names ∨ name ∈ front.names ∨ name ∈ front.memberNames)
    (value : Json.Value) (back : List (String × Json.Value)) :
    Schema.compile ⟨front.entries ++ (name, value) :: back⟩ auxiliary =
      .error (.commandTaken name) := by
  obtain ⟨htops, hnodup, -⟩ := compile_spec h
  rw [← NameRegistry.free_empty_iff, NameRegistry.free_append_iff] at hnodup
  rw [← map_name_commands h, ← mem_taken_commands_iff] at hname
  refine compile_eq_error_iff.mpr (Or.inr ⟨hnodup.1, ?_⟩)
  refine compileEntries_append_eq_error_iff.mpr (Or.inr ⟨_, htops, hnodup.2, ?_⟩)
  apply compileEntries_of_taken
  rw [NameRegistry.mem_names_extend, NameRegistry.mem_names_extend]
  tauto

/-- A run fails fast, from left to right.  A schema at fault stays so with the same fault, whatever
comes behind it.  Behind a schema without fault, a name that an auxiliary schema, the schema or a
member of its groups has is refused as taken, whatever its declaration is and whatever comes behind
that. -/
theorem compile_append (front back : Schema) (auxiliary : List Schema) :
    (∀ fault, front.compile auxiliary = .error fault →
      Schema.compile ⟨front.entries ++ back.entries⟩ auxiliary = .error fault) ∧
    ∀ fragments, front.compile auxiliary = .ok fragments →
      ∀ name, (name ∈ auxiliary.flatMap names ∨ name ∈ front.names ∨ name ∈ front.memberNames) →
        (∀ value, Schema.compile ⟨front.entries ++ (name, value) :: back.entries⟩ auxiliary =
          .error (.commandTaken name)) ∧
        (Fault.commandTaken name).kind = .duplicate ∧
        (Fault.commandTaken name).message =
          "duplicate: command '" ++ name ++ "' is already defined" := by
  refine ⟨fun fault h => compile_append_of_error h back.entries, ?_⟩
  intro fragments h name hname
  exact ⟨fun value => compile_append_of_ok h hname value back.entries, rfl, rfl⟩

/-- A group next to a flat command of an auxiliary schema, and a schema whose last command has no
help text. -/
def pairGroup : Schema := ⟨[
  ("utst", .array [
    .object [("sub0", .object [("desc", .string "d"), ("help", .string "h")])],
    .object [("help", .string "u")],
    .object [("sub1", .object [("desc", .string "d"), ("help", .string "h")])]])]⟩

def lockTool : Schema := ⟨[("lock", .object [("help", .string "lock")])]⟩

def helpless : Schema := ⟨pairGroup.entries ++ [("probe", .object [])]⟩

theorem compile_append_pairGroup :
    (∃ fault, helpless.compile [lockTool] = .error fault ∧
      Schema.compile ⟨helpless.entries ++ lockTool.entries⟩ [lockTool] = .error fault) ∧
    ∀ name ∈ ["lock", "utst", "utst_sub1"],
      Schema.compile ⟨pairGroup.entries ++ (name, .null) :: helpless.entries⟩ [lockTool] =
        .error (.commandTaken name) := by
  constructor
  · obtain ⟨fault, h⟩ : ∃ fault, helpless.compile [lockTool] = .error fault := ⟨_, rfl⟩
    exact ⟨fault, h, (compile_append helpless lockTool [lockTool]).1 fault h⟩
  · obtain ⟨fragments, h⟩ : ∃ fragments, pairGroup.compile [lockTool] = .ok fragments := ⟨_, rfl⟩
    intro name hname
    have htaken : name ∈ [lockTool].flatMap names ∨ name ∈ pairGroup.names ∨
        name ∈ pairGroup.memberNames := by
      revert name
      decide +kernel
    exact ((compile_append pairGroup helpless [lockTool]).2 fragments h name htaken).1 .null

end Schema
end CommandSchema
