/-
What a command keeps while options are added to it.

An option comes as it is, whatever it says, or from a declaration.  An addition that is refused
leaves the command as it was, so a command may see any mix of both, refused and accepted.  On the
way it stays `Consistent`: the names and letters that it holds as taken are those of its options,
all different, and its column has the width of the widest token.  What is refused next can
therefore be read off the options themselves.
-/
import CommandSchema.Proofs.Command.Build

namespace CommandSchema

/-- What a command is asked to add: an option as it is, or one that is declared. -/
inductive Addition where
  | option (o : CommandOption)
  | declared (decl : OptionDecl)

namespace Command

def names (c : Command) : List String := c.options.map CommandOption.name

/-- The letters of the options that have one. -/
def shorts (c : Command) : List Char := c.options.filterMap CommandOption.short

/-- The greatest number of bytes that the token of an option has, and 0 without options. -/
def widest (os : List CommandOption) : Nat := (os.map (·.describe.utf8ByteSize)).foldl max 0

/-! ## Additions -/

def accept (c : Command) : Addition → Except Fault Command
  | .option o => c.add o
  | .declared decl => c.declare decl

/-- The command after an addition, which changes nothing if it is refused. -/
def attempt (c : Command) (a : Addition) : Command :=
  match c.accept a with
  | .ok d => d
  | .error _ => c

def attemptAll (c : Command) (as : List Addition) : Command := as.foldl attempt c

/-- A command as it is created, or as it is built from a declaration. -/
inductive IsMade : Command → Prop
  | created {name : String} {help : List String} {arity : Arity} {hidden : Bool} {c : Command}
      (h : create name help arity hidden = .ok c) : IsMade c
  | declared {name : String} {decl : CommandDecl} {c : Command} (h : ofDecl name decl = .ok c) :
      IsMade c

theorem accept_eq_ok_iff {c d : Command} {a : Addition} :
    c.accept a = .ok d ↔ ∃ o, c.taken.Accepts o ∧ d = c.push o ∧
      (a = .option o ∨ ∃ decl, a = .declared decl ∧
        CommandOption.resolve c.taken c.name decl = .ok o) := by
  cases a with
  | option o =>
    rw [accept, add_eq_ok_iff]
    simp
  | declared decl =>
    rw [accept, declare_eq_ok_iff]
    constructor
    · rintro ⟨o, hresolve, haccepts, hd⟩
      exact ⟨o, haccepts, hd, Or.inr ⟨decl, rfl, hresolve⟩⟩
    · rintro ⟨o, haccepts, hd, h | ⟨_, h, hresolve⟩⟩
      · cases h
      · cases h
        exact ⟨o, hresolve, haccepts, hd⟩

/-! ## The invariant -/

structure Consistent (c : Command) : Prop where
  long : ∀ name, name ∈ c.taken.long ↔ name ∈ c.names
  short : ∀ letter, letter ∈ c.taken.short ↔ letter ∈ c.shorts
  names_nodup : c.names.Nodup
  shorts_nodup : c.shorts.Nodup
  help_notMem : Name.help ∉ c.names
  helpShort_notMem : Name.helpShort ∉ c.shorts
  width : c.width = widest c.options

theorem names_push (c : Command) (o : CommandOption) : (c.push o).names = c.names ++ [o.name] := by
  rw [names, push, List.map_append, List.map_singleton, names]

theorem shorts_push (c : Command) (o : CommandOption) :
    (c.push o).shorts = c.shorts ++ o.short.toList := by
  rw [shorts, push, List.filterMap_append, shorts]
  cases hshort : o.short with
  | none => simp [hshort]
  | some letter => simp [hshort]

theorem widest_concat (os : List CommandOption) (o : CommandOption) :
    widest (os ++ [o]) = max (widest os) o.describe.utf8ByteSize := by
  rw [widest, List.map_append, List.map_singleton, List.foldl_concat, widest]

theorem consistent_of_no_options {c : Command} (hoptions : c.options = []) (htaken : c.taken = {})
    (hwidth : c.width = 0) : c.Consistent := by
  constructor
  · simp [names, hoptions, htaken]
  · simp [shorts, hoptions, htaken]
  · simp [names, hoptions]
  · simp [shorts, hoptions]
  · simp [names, hoptions]
  · simp [shorts, hoptions]
  · simp [widest, hoptions, hwidth]

/-- An option finds its names free exactly when no option has them yet. -/
theorem Consistent.accepts_iff {c : Command} (h : c.Consistent) {o : CommandOption} :
    c.taken.Accepts o ↔
      ({} : TakenNames).Accepts o ∧ o.name ∉ c.names ∧
        ∀ letter, o.short = some letter → letter ∉ c.shorts := by
  simp only [TakenNames.Accepts, h.long, h.short, List.not_mem_nil, not_false_eq_true, and_true]
  constructor
  · rintro ⟨⟨hhelp, hname⟩, hshort⟩
    exact ⟨⟨hhelp, fun letter hl => (hshort letter hl).1⟩, hname, fun letter hl =>
      (hshort letter hl).2⟩
  · rintro ⟨⟨hhelp, hletter⟩, hname, hshort⟩
    exact ⟨⟨hhelp, hname⟩, fun letter hl => ⟨hletter letter hl, hshort letter hl⟩⟩

theorem Consistent.push {c : Command} {o : CommandOption} (h : c.Consistent)
    (ho : c.taken.Accepts o) : (c.push o).Consistent := by
  obtain ⟨⟨⟨hhelp, -⟩, -⟩, hname, hshort⟩ := h.accepts_iff.mp ho
  refine ⟨fun name => ?_, fun letter => ?_, ?_, ?_, ?_, ?_, ?_⟩
  · rw [names_push, List.mem_append, List.mem_singleton, or_comm, ← h.long name]
    exact List.mem_cons
  · rw [shorts_push, List.mem_append, or_comm, ← h.short letter]
    exact List.mem_append
  · rw [names_push, List.nodup_append]
    refine ⟨h.names_nodup, List.pairwise_singleton _ _, fun a ha b hb heq => ?_⟩
    exact hname (List.mem_singleton.mp hb ▸ heq ▸ ha)
  · rw [shorts_push, List.nodup_append]
    refine ⟨h.shorts_nodup, ?_, fun a ha b hb heq => ?_⟩
    · cases o.short with
      | none => exact List.nodup_nil
      | some letter => exact List.pairwise_singleton _ _
    · exact hshort b (Option.mem_toList.mp hb) (heq ▸ ha)
  · rw [names_push, List.mem_append, List.mem_singleton]
    exact not_or.mpr ⟨h.help_notMem, Ne.symm hhelp⟩
  · rw [shorts_push, List.mem_append, Option.mem_toList]
    exact not_or.mpr ⟨h.helpShort_notMem, fun heq => (ho.2 _ heq).1 rfl⟩
  · rw [Command.push, widest_concat, ← h.width]

theorem Consistent.attempt {c : Command} (h : c.Consistent) (a : Addition) :
    (c.attempt a).Consistent := by
  rw [Command.attempt]
  split
  next d haccept =>
    obtain ⟨o, ho, rfl, -⟩ := accept_eq_ok_iff.mp haccept
    exact h.push ho
  next => exact h

theorem Consistent.attemptAll {c : Command} (h : c.Consistent) (as : List Addition) :
    (c.attemptAll as).Consistent := by
  induction as generalizing c with
  | nil => exact h
  | cons a rest ih => exact ih (h.attempt a)

theorem Consistent.declareAll {c d : Command} {decls : List OptionDecl} (h : c.Consistent)
    (hall : c.declareAll decls = .ok d) : d.Consistent := by
  induction decls generalizing c with
  | nil =>
    obtain rfl : d = c := by simpa [Command.declareAll, eq_comm] using hall
    exact h
  | cons decl rest ih =>
    rw [Command.declareAll, Outcome.bind_eq_ok_iff] at hall
    obtain ⟨e, hdeclare, hrest⟩ := hall
    obtain ⟨o, -, ho, rfl⟩ := declare_eq_ok_iff.mp hdeclare
    exact ih (h.push ho) hrest

theorem IsMade.consistent {c : Command} (h : c.IsMade) : c.Consistent := by
  cases h with
  | created h =>
    obtain ⟨-, -, rfl⟩ := create_eq_ok_iff.mp h
    exact consistent_of_no_options rfl rfl rfl
  | declared h =>
    simp only [ofDecl, Outcome.bind_eq_ok_iff, create_eq_ok_iff] at h
    obtain ⟨_, ⟨-, -, rfl⟩, arity, -, hall⟩ := h
    exact (consistent_of_no_options rfl rfl rfl).declareAll hall

/-- After any additions, accepted and refused, the options of a command have different names and
letters, none of which asks for help.  The names that it holds as taken are exactly theirs, so a
name is refused when it asks for help or an option has it; and the column fits the widest token. -/
theorem consistent_attemptAll {c : Command} (h : c.IsMade) (as : List Addition) :
    (c.attemptAll as).Consistent ∧
      (∀ command name, (∃ fault, (c.attemptAll as).taken.checkLong command name = .error fault) ↔
        name = Name.help ∨ name ∈ (c.attemptAll as).names) ∧
      ∀ command option letter,
        (∃ fault, (c.attemptAll as).taken.checkShort command option letter = .error fault) ↔
          letter = Name.helpShort ∨ letter ∈ (c.attemptAll as).shorts := by
  have hafter : (c.attemptAll as).Consistent := h.consistent.attemptAll as
  refine ⟨hafter, fun command name => ?_, fun command option letter => ?_⟩
  · rw [TakenNames.checkLong_eq_error_iff, hafter.long]
  · rw [TakenNames.checkShort_eq_error_iff, hafter.short]

/-- Additions of which the second, the third and the fifth are refused.  The fourth is no option
that any declaration has. -/
def mixedAdditions : List Addition := [
  .declared { name := "cable", short := some "c", type := "str", help := .line "Cable name" },
  .declared { name := "cable", type := "int", help := .line "again" },
  .option { name := "help", kind := .flag, default := .unset, help := [] },
  .option { name := "Cable length", short := some 'L', kind := .enum, multiple := true,
            default := .int 1, help := [], hidden := true },
  .option { name := "config", short := some 'c', kind := .str, default := .unset, help := [] }]

theorem consistent_mixedAdditions :
    ∃ c, create "program" ["Program a device"] {} false = .ok c ∧
      (c.attemptAll mixedAdditions).names = ["cable", "Cable length"] ∧
      (c.attemptAll mixedAdditions).shorts = ['c', 'L'] ∧
      (c.attemptAll mixedAdditions).width = 19 ∧ (c.attemptAll mixedAdditions).Consistent := by
  have hcreate : create "program" ["Program a device"] {} false =
      .ok { name := "program", help := ["Program a device"] } := rfl
  refine ⟨_, hcreate, by decide +kernel, by decide +kernel, by decide +kernel, ?_⟩
  exact (consistent_attemptAll (IsMade.created hcreate) mixedAdditions).1

end Command
end CommandSchema
