/-
When a schema compiles, and to what.

The compilation threads a registry through its entries, and three kinds of claims grow it between
two stages that may fail.  One entry succeeds when its declaration stands for a command whose names
are free, and then the registry has these names as well (`compileEntry_eq_ok_iff`).  Over all
entries this adds up: the names of the whole run are free at once (`compileEntries_eq_ok_iff`), so
whether a member comes before or after the command with its name makes no difference.

`Schema.commands` are the commands that a schema stands for, whatever else is in a run.  They are
all there is to a compilation that succeeds (`compile_spec`).
-/
import CommandSchema.Proofs.NameRegistry
import CommandSchema.Proofs.TopCommand.Names

namespace CommandSchema

/-- The fragment of a command at the top. -/
def Fragment.ofTop (top : TopCommand) : Fragment := ⟨top.name, Code.ofTop top⟩

namespace Schema

/-- The command at the top that an entry stands for. -/
def Declares (entry : String × Json.Value) (top : TopCommand) : Prop :=
  TopCommand.ofJson entry.1 entry.2 = .ok top

/-- The commands at the top that the entries of a schema stand for, without those at fault. -/
def commands (s : Schema) : List TopCommand :=
  s.entries.filterMap fun entry => (TopCommand.ofJson entry.1 entry.2).toOption

/-- The names that an entry claims: its own, and the qualified names of its members if it is a
group. -/
def claims (entry : String × Json.Value) : List String :=
  match TopCommand.ofJson entry.1 entry.2 with
  | .error _ => [entry.1]
  | .ok top => entry.1 :: top.members.map fun m => Name.qualified entry.1 m.name

/-- Every entry stands for a command exactly when there is a list of commands for all of them. -/
theorem exists_forall₂_declares_iff {entries : List (String × Json.Value)} :
    (∃ tops, List.Forall₂ Declares entries tops) ↔ ∀ entry ∈ entries, ∃ top, Declares entry top :=
  Outcome.exists_forall₂_iff

theorem Declares.claims_eq {entry : String × Json.Value} {top : TopCommand}
    (h : Declares entry top) : claims entry = top.taken := by
  rw [claims, h, TopCommand.taken, TopCommand.memberNames, TopCommand.name_of_ofJson h]

theorem flatMap_claims {entries : List (String × Json.Value)} {tops : List TopCommand}
    (h : List.Forall₂ Declares entries tops) :
    entries.flatMap claims = tops.flatMap TopCommand.taken := by
  induction h with
  | nil => rfl
  | cons hentry _ ih => rw [List.flatMap_cons, List.flatMap_cons, hentry.claims_eq, ih]

theorem map_name_eq {entries : List (String × Json.Value)} {tops : List TopCommand}
    (h : List.Forall₂ Declares entries tops) : tops.map TopCommand.name = entries.map Prod.fst := by
  induction h with
  | nil => rfl
  | cons hentry _ ih => rw [List.map_cons, List.map_cons, TopCommand.name_of_ofJson hentry, ih]

theorem commands_eq {s : Schema} {tops : List TopCommand}
    (h : List.Forall₂ Declares s.entries tops) : s.commands = tops := by
  rw [commands]
  generalize s.entries = entries at h
  induction h with
  | nil => rfl
  | cons hentry _ ih => rw [List.filterMap_cons_some (by rw [hentry]; rfl), ih]

/-! ## The run -/

theorem compileEntry_eq_ok_iff {r s : NameRegistry} {name : String} {value : Json.Value}
    {top : TopCommand} :
    compileEntry r name value = .ok (s, top) ↔
      TopCommand.ofJson name value = .ok top ∧ r.Free top.taken ∧ s = r.extend top.taken := by
  simp only [compileEntry, Outcome.bind_eq_ok_iff, Outcome.pure_eq_ok_iff, Prod.mk.injEq,
    NameRegistry.claim_eq_ok_iff, NameRegistry.claimMembers_eq_ok_iff, List.map_map]
  constructor
  · rintro ⟨_, ⟨hfree, rfl⟩, top, hjson, _, ⟨hmembers, rfl⟩, rfl, rfl⟩
    have hname := TopCommand.name_of_ofJson hjson
    rw [TopCommand.taken, TopCommand.memberNames, hname, NameRegistry.free_cons_iff,
      NameRegistry.extend_cons r name (top.members.map _)]
    exact ⟨hjson, ⟨hfree, hmembers⟩, rfl⟩
  · intro ⟨hjson, hfree, hs⟩
    have hname := TopCommand.name_of_ofJson hjson
    rw [TopCommand.taken, TopCommand.memberNames, hname] at hfree hs
    rw [NameRegistry.free_cons_iff] at hfree
    rw [NameRegistry.extend_cons r name (top.members.map _)] at hs
    exact ⟨_, ⟨hfree.1, rfl⟩, top, hjson, _, ⟨hfree.2, rfl⟩, hs, rfl⟩

theorem compileEntries_eq_ok_iff {r : NameRegistry} {entries : List (String × Json.Value)}
    {fragments : List Fragment} :
    compileEntries r entries = .ok fragments ↔
      ∃ tops, List.Forall₂ Declares entries tops ∧ r.Free (tops.flatMap TopCommand.taken) ∧
        fragments = tops.map Fragment.ofTop := by
  induction entries generalizing r fragments with
  | nil =>
    constructor
    · intro h
      obtain rfl : fragments = [] := by simpa [compileEntries, eq_comm] using h
      exact ⟨[], List.Forall₂.nil, NameRegistry.free_nil r, rfl⟩
    · rintro ⟨tops, htops, -, hfragments⟩
      cases htops
      rw [hfragments]
      rfl
  | cons entry rest ih =>
    obtain ⟨name, value⟩ := entry
    simp only [compileEntries, Outcome.bind_eq_ok_iff, Outcome.pure_eq_ok_iff, Prod.exists,
      compileEntry_eq_ok_iff, ih]
    constructor
    · rintro ⟨_, top, ⟨hjson, hfree, rfl⟩, _, ⟨tops, htops, hfreerest, rfl⟩, hfragments⟩
      refine ⟨top :: tops, List.Forall₂.cons hjson htops, ?_, ?_⟩
      · rw [List.flatMap_cons]
        exact NameRegistry.free_append_iff.mpr ⟨hfree, hfreerest⟩
      · rw [hfragments, List.map_cons, Fragment.ofTop, TopCommand.name_of_ofJson hjson]
    · intro ⟨all, hall, hfree, hfragments⟩
      cases hall with
      | @cons _ top _ tops hjson htops =>
        rw [List.flatMap_cons] at hfree
        obtain ⟨hfreetop, hfreerest⟩ := NameRegistry.free_append_iff.mp hfree
        refine ⟨_, top, ⟨hjson, hfreetop, rfl⟩, _, ⟨tops, htops, hfreerest, rfl⟩, ?_⟩
        rw [hfragments, List.map_cons, Fragment.ofTop, TopCommand.name_of_ofJson hjson]

theorem compile_eq_ok_iff {primary : Schema} {auxiliary : List Schema}
    {fragments : List Fragment} :
    primary.compile auxiliary = .ok fragments ↔
      ∃ tops, List.Forall₂ Declares primary.entries tops ∧
        (auxiliary.flatMap names ++ tops.flatMap TopCommand.taken).Nodup ∧
        fragments = tops.map Fragment.ofTop := by
  simp only [← NameRegistry.free_empty_iff, NameRegistry.free_append_iff]
  rw [compile]
  split
  next r fault hseed =>
    simp [NameRegistry.not_free_of_seed_error hseed]
  next r hseed =>
    obtain ⟨hfree, rfl⟩ := NameRegistry.seed_eq_ok_iff.mp hseed
    rw [compileEntries_eq_ok_iff]
    simp only [and_iff_right hfree]

/-- What a run that succeeds knows of its names and its fragments. -/
theorem compile_spec {primary : Schema} {auxiliary : List Schema} {fragments : List Fragment}
    (h : primary.compile auxiliary = .ok fragments) :
    List.Forall₂ Declares primary.entries primary.commands ∧
      (auxiliary.flatMap names ++ primary.commands.flatMap TopCommand.taken).Nodup ∧
      fragments = primary.commands.map Fragment.ofTop := by
  obtain ⟨tops, htops, hnodup, hfragments⟩ := compile_eq_ok_iff.mp h
  rw [commands_eq htops]
  exact ⟨htops, hnodup, hfragments⟩

/-- A schema compiles exactly when each of its entries stands for a command and no name is claimed
twice.  Its fragments are the code of its entries, each by itself. -/
theorem compile_succeeds_iff (primary : Schema) (auxiliary : List Schema) :
    ((∃ fragments, primary.compile auxiliary = .ok fragments) ↔
      (∀ entry ∈ primary.entries, ∃ decl top, Declaration.ofJson entry.1 entry.2 = .ok decl ∧
        TopCommand.assemble entry.1 decl = .ok top) ∧
      (auxiliary.flatMap names ++ primary.entries.flatMap claims).Nodup) ∧
    ∀ fragments, primary.compile auxiliary = .ok fragments →
      List.Forall₂ (fun entry fragment => ∃ decl top,
        Declaration.ofJson entry.1 entry.2 = .ok decl ∧
        TopCommand.assemble entry.1 decl = .ok top ∧
        fragment = ⟨entry.1, Code.ofTop top⟩) primary.entries fragments := by
  refine ⟨⟨?_, ?_⟩, ?_⟩
  · rintro ⟨fragments, h⟩
    obtain ⟨htops, hnodup, -⟩ := compile_spec h
    rw [flatMap_claims htops]
    refine ⟨fun entry hentry => ?_, hnodup⟩
    obtain ⟨top, htop⟩ := exists_forall₂_declares_iff.mp ⟨_, htops⟩ entry hentry
    obtain ⟨decl, hdecl, hassemble⟩ := TopCommand.ofJson_eq_ok_iff.mp htop
    exact ⟨decl, top, hdecl, hassemble⟩
  · intro ⟨hall, hnodup⟩
    have hdeclares : ∀ entry ∈ primary.entries, ∃ top, Declares entry top := by
      intro entry hentry
      obtain ⟨decl, top, hdecl, hassemble⟩ := hall entry hentry
      exact ⟨top, TopCommand.ofJson_eq_ok_iff.mpr ⟨decl, hdecl, hassemble⟩⟩
    obtain ⟨tops, htops⟩ := exists_forall₂_declares_iff.mpr hdeclares
    rw [flatMap_claims htops] at hnodup
    exact ⟨_, compile_eq_ok_iff.mpr ⟨tops, htops, hnodup, rfl⟩⟩
  · intro fragments h
    obtain ⟨htops, -, rfl⟩ := compile_spec h
    rw [List.forall₂_map_right_iff]
    refine htops.imp fun entry top htop => ?_
    obtain ⟨decl, hdecl, hassemble⟩ := TopCommand.ofJson_eq_ok_iff.mp htop
    refine ⟨decl, top, hdecl, hassemble, ?_⟩
    rw [Fragment.ofTop, TopCommand.name_of_ofJson htop]

end Schema
end CommandSchema
