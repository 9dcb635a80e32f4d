/-
Which declarations are accepted as commands.

A command is built by adding one option after the other, and each is checked against the names
taken so far.  What comes out depends on no such order: a declaration is accepted exactly when each
of its parts is acceptable alone and no two options share a name or a letter, and then every option
is what its declaration stands for alone (`ofDecl_eq_ok_iff`).  The invariant `Consistent` carries
the induction over the options (`Consistent.foldlM_add_eq_ok_iff`), since it reads the names taken
off those that are there.
-/
import CommandSchema.Proofs.Command.Additions
import CommandSchema.Proofs.Text.Trim
import Mathlib.Data.List.Nodup
import Mathlib.Data.List.Perm.Basic

namespace CommandSchema
namespace Command

/-- The command with several more options, whatever their names are. -/
def pushAll (c : Command) (os : List CommandOption) : Command := os.foldl push c

/-- Several more options change nothing else of a command than its names taken and its width. -/
theorem exists_pushAll_eq (c : Command) (os : List CommandOption) :
    ∃ taken width, c.pushAll os =
      { c with options := c.options ++ os, taken := taken, width := width } := by
  induction os generalizing c with
  | nil =>
    refine ⟨c.taken, c.width, ?_⟩
    rw [List.append_nil]
    rfl
  | cons o rest ih =>
    have hoptions : c.options ++ o :: rest = (c.push o).options ++ rest := List.append_cons ..
    obtain ⟨taken, width, hrest⟩ := ih (c.push o)
    exact ⟨taken, width, by rw [hoptions]; exact hrest⟩

theorem options_pushAll (c : Command) (os : List CommandOption) :
    (c.pushAll os).options = c.options ++ os := by
  obtain ⟨taken, width, heq⟩ := exists_pushAll_eq c os
  rw [heq]

/-- Options are accepted one after the other when each has names that any command accepts, and they
share none of them with each other or with the options that are there. -/
theorem Consistent.foldlM_add_eq_ok_iff {c d : Command} (h : c.Consistent)
    {os : List CommandOption} :
    os.foldlM add c = .ok d ↔
      (∀ o ∈ os, ({} : TakenNames).Accepts o) ∧ (c.names ++ os.map CommandOption.name).Nodup ∧
        (c.shorts ++ os.filterMap CommandOption.short).Nodup ∧ d = c.pushAll os := by
  induction os generalizing c with
  | nil =>
    rw [List.foldlM_nil, Outcome.pure_eq_ok_iff]
    simp [h.names_nodup, h.shorts_nodup, pushAll]
  | cons o rest ih =>
    -- With one more option, its names have moved from the options to come to those that are there.
    have hnames : (c.push o).names ++ rest.map CommandOption.name =
        c.names ++ (o :: rest).map CommandOption.name := by
      rw [names_push, List.append_assoc, List.map_cons, List.singleton_append]
    have hshorts : (c.push o).shorts ++ rest.filterMap CommandOption.short =
        c.shorts ++ (o :: rest).filterMap CommandOption.short := by
      rw [shorts_push, List.append_assoc, List.filterMap_cons]
      cases o.short with
      | none => rfl
      | some letter => rfl
    rw [List.foldlM_cons, Outcome.bind_eq_ok_iff, List.forall_mem_cons]
    constructor
    · rintro ⟨_, hadd, hrest⟩
      obtain ⟨ho, rfl⟩ := add_eq_ok_iff.mp hadd
      obtain ⟨hfree, hlong, hshort, hd⟩ := (ih (h.push ho)).mp hrest
      rw [hnames] at hlong
      rw [hshorts] at hshort
      exact ⟨⟨(h.accepts_iff.mp ho).1, hfree⟩, hlong, hshort, hd⟩
    · rintro ⟨⟨halone, hfree⟩, hlong, hshort, hd⟩
      have ho : c.taken.Accepts o := by
        refine h.accepts_iff.mpr ⟨halone, ?_, ?_⟩
        · intro hmem
          exact (List.nodup_append.mp hlong).2.2 _ hmem _ List.mem_cons_self rfl
        · intro letter hletter hmem
          refine (List.nodup_append.mp hshort).2.2 _ hmem letter ?_ rfl
          exact List.mem_filterMap.mpr ⟨o, List.mem_cons_self, hletter⟩
      rw [← hnames] at hlong
      rw [← hshorts] at hshort
      exact ⟨c.push o, add_eq_ok_iff.mpr ⟨ho, rfl⟩, (ih (h.push ho)).mpr ⟨hfree, hlong, hshort, hd⟩⟩

/-- Declarations are added as the options that they stand for alone. -/
theorem declareAll_eq_ok_iff_foldlM_add {c d : Command} {decls : List OptionDecl} :
    c.declareAll decls = .ok d ↔
      ∃ os, List.Forall₂ (fun decl o => CommandOption.resolve {} c.name decl = .ok o) decls os ∧
        os.foldlM add c = .ok d := by
  induction decls generalizing c with
  | nil =>
    have hnone : declareAll c [] = .ok d ↔ [].foldlM add c = .ok d := Iff.rfl
    simp [hnone]
  | cons decl rest ih =>
    rw [declareAll, Outcome.bind_eq_ok_iff]
    constructor
    · rintro ⟨_, hdeclare, hrest⟩
      obtain ⟨o, hresolve, ho, rfl⟩ := declare_eq_ok_iff.mp hdeclare
      obtain ⟨os, hos, hall⟩ := ih.mp hrest
      have halone := (CommandOption.resolve_eq_ok_iff_accepts.mp hresolve).1
      refine ⟨o :: os, List.Forall₂.cons halone hos, ?_⟩
      rw [List.foldlM_cons, Outcome.bind_eq_ok_iff]
      exact ⟨c.push o, add_eq_ok_iff.mpr ⟨ho, rfl⟩, hall⟩
    · rintro ⟨_, hos, hall⟩
      obtain ⟨o, os, halone, hrest, rfl⟩ := List.forall₂_cons_left_iff.mp hos
      rw [List.foldlM_cons, Outcome.bind_eq_ok_iff] at hall
      obtain ⟨_, hadd, hall⟩ := hall
      obtain ⟨ho, rfl⟩ := add_eq_ok_iff.mp hadd
      have hresolve := CommandOption.resolve_eq_ok_iff_accepts.mpr ⟨halone, ho⟩
      exact ⟨c.push o, declare_eq_ok_iff.mpr ⟨o, hresolve, ho, rfl⟩, ih.mpr ⟨os, hrest, hall⟩⟩

theorem accepts_of_resolved {command : String} {decls : List OptionDecl} {os : List CommandOption}
    (h : List.Forall₂ (fun decl o => CommandOption.resolve {} command decl = .ok o) decls os) :
    ∀ o ∈ os, ({} : TakenNames).Accepts o := by
  induction h with
  | nil => simp
  | cons hresolve _ ih =>
    exact List.forall_mem_cons.mpr ⟨CommandOption.accepts_of_resolve hresolve, ih⟩

theorem Consistent.declareAll_eq_ok_iff {c d : Command} (h : c.Consistent)
    {decls : List OptionDecl} :
    c.declareAll decls = .ok d ↔
      ∃ os, List.Forall₂ (fun decl o => CommandOption.resolve {} c.name decl = .ok o) decls os ∧
        (c.names ++ os.map CommandOption.name).Nodup ∧
        (c.shorts ++ os.filterMap CommandOption.short).Nodup ∧ d = c.pushAll os := by
  rw [declareAll_eq_ok_iff_foldlM_add]
  refine exists_congr fun os => and_congr_right fun hos => ?_
  rw [h.foldlM_add_eq_ok_iff, and_iff_right (accepts_of_resolved hos)]

theorem ofDecl_eq_ok_iff {name : String} {decl : CommandDecl} {c : Command} :
    ofDecl name decl = .ok c ↔
      Name.IsName .lower name ∧ decl.help.toLines.any (!Text.isBlank ·) = true ∧
      ∃ arity, Arity.ofJson name decl.arg = .ok arity ∧
      ∃ os, List.Forall₂ (fun decl o => CommandOption.resolve {} name decl = .ok o)
          decl.options os ∧
        (os.map CommandOption.name).Nodup ∧ (os.filterMap CommandOption.short).Nodup ∧
        c = pushAll
          { name := name, help := decl.help.toLines, arity := arity, hidden := decl.hidden } os := by
  have hempty (arity : Arity) : Consistent
      { name := name, help := decl.help.toLines, arity := arity, hidden := decl.hidden } :=
    consistent_of_no_options rfl rfl rfl
  simp only [ofDecl, Outcome.bind_eq_ok_iff, create_eq_ok_iff]
  constructor
  · rintro ⟨_, ⟨hname, hhelp, rfl⟩, arity, harity, hall⟩
    exact ⟨hname, hhelp, arity, harity, (hempty arity).declareAll_eq_ok_iff.mp hall⟩
  · rintro ⟨hname, hhelp, arity, harity, hall⟩
    exact ⟨_, ⟨hname, hhelp, rfl⟩, arity, harity, (hempty arity).declareAll_eq_ok_iff.mpr hall⟩

theorem isName_of_ofDecl {name : String} {decl : CommandDecl} {c : Command}
    (h : ofDecl name decl = .ok c) : Name.IsName .lower name := (ofDecl_eq_ok_iff.mp h).1

theorem name_of_ofDecl {name : String} {decl : CommandDecl} {c : Command}
    (h : ofDecl name decl = .ok c) : c.name = name := by
  obtain ⟨-, -, arity, -, os, -, -, -, rfl⟩ := ofDecl_eq_ok_iff.mp h
  obtain ⟨taken, width, heq⟩ := exists_pushAll_eq _ os
  rw [heq]

theorem hidden_of_ofDecl {name : String} {decl : CommandDecl} {c : Command}
    (h : ofDecl name decl = .ok c) : c.hidden = decl.hidden := by
  obtain ⟨-, -, arity, -, os, -, -, -, rfl⟩ := ofDecl_eq_ok_iff.mp h
  obtain ⟨taken, width, heq⟩ := exists_pushAll_eq _ os
  rw [heq]

theorem isName_name_of_ofDecl {name : String} {decl : CommandDecl} {c : Command}
    (h : ofDecl name decl = .ok c) : Name.IsName .lower c.name := by
  rw [name_of_ofDecl h]
  exact isName_of_ofDecl h

theorem arity_of_ofDecl {name : String} {decl : CommandDecl} {c : Command}
    (h : ofDecl name decl = .ok c) : Arity.ofJson name decl.arg = .ok c.arity := by
  obtain ⟨-, -, arity, harity, os, -, -, -, rfl⟩ := ofDecl_eq_ok_iff.mp h
  obtain ⟨taken, width, heq⟩ := exists_pushAll_eq _ os
  rwa [heq]

/-- The options of a command are what its declarations stand for alone, in their order. -/
theorem resolved_of_ofDecl {name : String} {decl : CommandDecl} {c : Command}
    (h : ofDecl name decl = .ok c) :
    List.Forall₂ (fun d o => CommandOption.resolve {} name d = .ok o) decl.options c.options := by
  obtain ⟨-, -, arity, -, os, hos, -, -, rfl⟩ := ofDecl_eq_ok_iff.mp h
  rwa [options_pushAll, List.nil_append]

theorem isResolved_of_ofDecl {name : String} {decl : CommandDecl} {c : Command}
    (h : ofDecl name decl = .ok c) : ∀ o ∈ c.options, o.IsResolved := by
  have hos : List.Forall₂ (fun o (_ : OptionDecl) => o.IsResolved ∧ True) c.options decl.options :=
    List.Forall₂.flip ((resolved_of_ofDecl h).imp fun decl o hresolve =>
      ⟨⟨{}, name, decl, hresolve⟩, trivial⟩)
  exact ((List.forall₂_and_left _ _).mp hos).1

/-! ## The names of declarations -/

section Resolved

variable {command : String} {decls : List OptionDecl} {os : List CommandOption}

theorem map_name_of_resolved
    (h : List.Forall₂ (fun decl o => CommandOption.resolve {} command decl = .ok o) decls os) :
    os.map CommandOption.name = decls.map OptionDecl.name := by
  induction h with
  | nil => rfl
  | cons hresolve _ ih =>
    rw [List.map_cons, List.map_cons, (CommandOption.names_of_resolve hresolve).1, ih]

theorem filterMap_short_of_resolved
    (h : List.Forall₂ (fun decl o => CommandOption.resolve {} command decl = .ok o) decls os) :
    decls.filterMap OptionDecl.short = (os.filterMap CommandOption.short).map String.singleton := by
  induction h with
  | nil => rfl
  | @cons decl o _ _ hresolve _ ih =>
    rw [List.filterMap_cons, List.filterMap_cons, (CommandOption.names_of_resolve hresolve).2, ih]
    cases o.short with
    | none => rfl
    | some letter => rfl

theorem nodup_shorts_of_resolved_iff
    (h : List.Forall₂ (fun decl o => CommandOption.resolve {} command decl = .ok o) decls os) :
    (decls.filterMap OptionDecl.short).Nodup ↔ (os.filterMap CommandOption.short).Nodup := by
  rw [filterMap_short_of_resolved h]
  exact List.nodup_map_iff fun _ _ => String.singleton_inj.mp

end Resolved

theorem any_not_isBlank_iff {lines : List String} :
    lines.any (!Text.isBlank ·) = true ↔ ∃ line ∈ lines, Text.trim line ≠ "" := by
  simp only [List.any_eq_true, Bool.not_eq_true', ne_eq, Text.trim_eq_empty_iff, Bool.not_eq_true]

/-- What a declaration has to be to be accepted as a command of some name. -/
structure Acceptable (name : String) (decl : CommandDecl) : Prop where
  isName : Name.check .lower name = .ok ()
  hasHelp : ∃ line ∈ decl.help.toLines, Text.trim line ≠ ""
  hasArity : ∃ arity, Arity.ofJson name decl.arg = .ok arity
  resolves : ∀ d ∈ decl.options, ∃ o, CommandOption.resolve {} name d = .ok o
  names_nodup : (decl.options.map OptionDecl.name).Nodup
  shorts_nodup : (decl.options.filterMap OptionDecl.short).Nodup

theorem exists_ofDecl_iff {name : String} {decl : CommandDecl} :
    (∃ c, ofDecl name decl = .ok c) ↔ Acceptable name decl := by
  constructor
  · rintro ⟨c, h⟩
    obtain ⟨hname, hhelp, arity, harity, os, hos, hlong, hshort, -⟩ := ofDecl_eq_ok_iff.mp h
    refine ⟨Name.check_eq_ok_iff.mpr hname, any_not_isBlank_iff.mp hhelp, ⟨arity, harity⟩,
      Outcome.exists_forall₂_iff.mp ⟨os, hos⟩, ?_, ?_⟩
    · rwa [← map_name_of_resolved hos]
    · rwa [nodup_shorts_of_resolved_iff hos]
  · intro h
    obtain ⟨arity, harity⟩ := h.hasArity
    obtain ⟨os, hos⟩ := Outcome.exists_forall₂_iff.mpr h.resolves
    refine ⟨_, ofDecl_eq_ok_iff.mpr ⟨Name.check_eq_ok_iff.mp h.isName,
      any_not_isBlank_iff.mpr h.hasHelp, arity, harity, os, hos, ?_, ?_, rfl⟩⟩
    · rw [map_name_of_resolved hos]
      exact h.names_nodup
    · rw [← nodup_shorts_of_resolved_iff hos]
      exact h.shorts_nodup

/-! ## The order of the options -/

theorem Acceptable.of_perm {name : String} {decl : CommandDecl} {options : List OptionDecl}
    (h : Acceptable name decl) (hperm : options.Perm decl.options) :
    Acceptable name { decl with options := options } where
  isName := h.isName
  hasHelp := h.hasHelp
  hasArity := h.hasArity
  resolves := fun d hd => h.resolves d (hperm.mem_iff.mp hd)
  names_nodup := (hperm.map OptionDecl.name).nodup_iff.mpr h.names_nodup
  shorts_nodup := (hperm.filterMap OptionDecl.short).nodup_iff.mpr h.shorts_nodup

/-- Declarations in another order stand for the same options in that order. -/
theorem perm_of_resolved {name : String} {decls others : List OptionDecl}
    {os ps : List CommandOption} (hperm : others.Perm decls)
    (hos : List.Forall₂ (fun d o => CommandOption.resolve {} name d = .ok o) decls os)
    (hps : List.Forall₂ (fun d o => CommandOption.resolve {} name d = .ok o) others ps) :
    ps.Perm os := by
  obtain ⟨qs, hqs, hsame⟩ := List.perm_comp_forall₂ hperm hos
  have hunique : Relator.RightUnique
      (fun d o => CommandOption.resolve {} name d = .ok o) := fun d o p ho hp =>
    Except.ok.inj (ho.symm.trans hp)
  rwa [List.right_unique_forall₂' hunique hps hqs]

/-- A declaration is accepted exactly when its name, its help, its arity and each of its options
are acceptable alone, and no two options have the same name or the same letter.  Its options are
then what the declarations stand for alone.  In another order the options are accepted as well, and
they are the same options in that order. -/
theorem ofDecl_succeeds_iff (name : String) (decl : CommandDecl) :
    ((∃ c, ofDecl name decl = .ok c) ↔ Acceptable name decl) ∧
      (∀ c, ofDecl name decl = .ok c →
        List.Forall₂ (fun d o => CommandOption.resolve {} name d = .ok o)
          decl.options c.options) ∧
      ∀ options, options.Perm decl.options →
        ((∃ d, ofDecl name { decl with options := options } = .ok d) ↔
          ∃ c, ofDecl name decl = .ok c) ∧
        ∀ c d, ofDecl name decl = .ok c → ofDecl name { decl with options := options } = .ok d →
          d.options.Perm c.options := by
  refine ⟨exists_ofDecl_iff, fun c => resolved_of_ofDecl, fun options hperm => ⟨?_, ?_⟩⟩
  · rw [exists_ofDecl_iff, exists_ofDecl_iff]
    exact ⟨fun h => h.of_perm hperm.symm, fun h => h.of_perm hperm⟩
  · intro c d hc hd
    exact perm_of_resolved hperm (resolved_of_ofDecl hc) (resolved_of_ofDecl hd)

end Command
end CommandSchema
