/-
What it takes to build a group, and what is known of it then.

The entries of a group are read into a draft.  `Draft.Sound` is what every draft keeps on the way:
its members are commands that the group may have, under names that are all different.  A finished
group keeps it, since finishing only looks for a help entry and counts members.
-/
import CommandSchema.Group
import CommandSchema.Proofs.Command.Acceptance

namespace CommandSchema

/-- A member that a group of some name may have. -/
structure Member.IsMemberOf (group : String) (m : Member) : Prop where
  isName : Name.IsName .lower m.name
  isFree : Member.isReserved m.name = false
  isDescribed : Text.isBlank m.description = false
  isBuilt : ∃ decl, Command.ofDecl (Name.qualified group m.name) decl = .ok m.command

/-- A group with a name, whose help says something, and with two or more different members. -/
structure Group.WellFormed (g : Group) : Prop where
  isName : Name.IsName .lower g.name
  hasHelp : g.mainHelp.any (!Text.isBlank ·) = true
  members : ∀ m ∈ g.members, m.IsMemberOf g.name
  distinct : (g.members.map Member.name).Nodup
  many : 2 ≤ g.members.length

namespace Member

theorem ofDecl_eq_ok_iff {group name : String} {decl : MemberDecl} {m : Member} :
    ofDecl group name decl = .ok m ↔
      Text.isBlank decl.description = false ∧
      ∃ command, Command.ofDecl (Name.qualified group name) decl.command = .ok command ∧
        m = ⟨name, decl.description, command⟩ := by
  simp only [ofDecl, Outcome.bind_eq_ok_iff, Outcome.pure_eq_ok_iff, Outcome.require_eq_ok_iff,
    Outcome.exists_unit_iff, Bool.not_eq_true']

theorem IsMemberOf.name_command {group : String} {m : Member} (h : m.IsMemberOf group) :
    m.command.name = Name.qualified group m.name := by
  obtain ⟨decl, hbuilt⟩ := h.isBuilt
  exact Command.name_of_ofDecl hbuilt

theorem IsMemberOf.isName_qualified {group : String} {m : Member} (h : m.IsMemberOf group) :
    Name.IsName .lower (Name.qualified group m.name) := by
  obtain ⟨decl, hbuilt⟩ := h.isBuilt
  exact Command.isName_of_ofDecl hbuilt

theorem IsMemberOf.isResolved {group : String} {m : Member} (h : m.IsMemberOf group) :
    ∀ o ∈ m.command.options, o.IsResolved := by
  obtain ⟨decl, hbuilt⟩ := h.isBuilt
  exact Command.isResolved_of_ofDecl hbuilt

end Member

namespace Group
namespace Draft

/-- A draft whose members the group may have, all of different names, and whose help, if there is
one, says something. -/
structure Sound (group : String) (draft : Draft) : Prop where
  members : ∀ m ∈ draft.members, m.IsMemberOf group
  distinct : (draft.members.map Member.name).Nodup
  hasHelp : ∀ help, draft.help = some help → help.any (!Text.isBlank ·) = true

theorem sound_empty (group : String) : Sound group {} :=
  ⟨by simp, List.nodup_nil, by simp⟩

theorem addHelp_eq_ok_iff {group : String} {draft next : Draft} {help : HelpText} :
    draft.addHelp group help = .ok next ↔
      draft.help = none ∧ help.toLines.any (!Text.isBlank ·) = true ∧
        next = { draft with help := some help.toLines } := by
  simp only [addHelp, Outcome.bind_eq_ok_iff, Outcome.pure_eq_ok_iff, Outcome.require_eq_ok_iff,
    Outcome.exists_unit_iff, Option.isNone_iff_eq_none]

theorem addMember_eq_ok_iff {group name : String} {draft next : Draft} {decl : MemberDecl} :
    draft.addMember group name decl = .ok next ↔
      Name.IsName .lower name ∧ Member.isReserved name = false ∧
      name ∉ draft.members.map Member.name ∧
      ∃ m, Member.ofDecl group name decl = .ok m ∧
        next = { draft with members := draft.members ++ [m] } := by
  simp only [addMember, Outcome.bind_eq_ok_iff, Outcome.pure_eq_ok_iff, Outcome.require_eq_ok_iff,
    Outcome.exists_unit_iff, Name.check_eq_ok_iff, Bool.not_eq_true', decide_eq_true_eq]

theorem Sound.add {group : String} {draft next : Draft} {entry : GroupEntry}
    (h : Sound group draft) (hadd : draft.add group entry = .ok next) : Sound group next := by
  cases entry with
  | help text =>
    obtain ⟨-, hhelp, rfl⟩ := addHelp_eq_ok_iff.mp hadd
    refine ⟨h.members, h.distinct, fun help heq => ?_⟩
    obtain rfl : text.toLines = help := Option.some.inj heq
    exact hhelp
  | member name decl =>
    obtain ⟨hname, hfree, hnew, m, hm, rfl⟩ := addMember_eq_ok_iff.mp hadd
    obtain ⟨hdesc, command, hcommand, rfl⟩ := Member.ofDecl_eq_ok_iff.mp hm
    refine ⟨fun n hn => ?_, ?_, h.hasHelp⟩
    · rcases List.mem_append.mp hn with hold | hlast
      · exact h.members n hold
      · obtain rfl := List.mem_singleton.mp hlast
        exact ⟨hname, hfree, hdesc, decl.command, hcommand⟩
    · rw [List.map_append, List.map_singleton, List.nodup_append]
      refine ⟨h.distinct, by simp, fun a ha b hb heq => ?_⟩
      obtain rfl := List.mem_singleton.mp hb
      exact hnew (heq ▸ ha)

theorem Sound.addAll {group : String} {draft last : Draft} {entries : List GroupEntry}
    (h : Sound group draft) (hall : draft.addAll group entries = .ok last) : Sound group last := by
  induction entries generalizing draft with
  | nil =>
    obtain rfl : last = draft := by simpa [Draft.addAll, eq_comm] using hall
    exact h
  | cons entry rest ih =>
    rw [Draft.addAll, Outcome.bind_eq_ok_iff] at hall
    obtain ⟨next, hadd, hrest⟩ := hall
    exact ih (h.add hadd) hrest

theorem finish_eq_ok_iff {group : String} {draft : Draft} {g : Group} :
    draft.finish group = .ok g ↔
      ∃ help, draft.help = some help ∧ 2 ≤ draft.members.length ∧
        g = ⟨group, help, draft.members⟩ := by
  cases hhelp : draft.help with
  | none => simp [finish, hhelp]
  | some help =>
    simp only [finish, hhelp, Outcome.bind_eq_ok_iff, Outcome.pure_eq_ok_iff,
      Outcome.require_eq_ok_iff, Outcome.exists_unit_iff, decide_eq_true_eq, Option.some.injEq,
      exists_eq_left']

end Draft

theorem wellFormed_of_ofEntries {name : String} {entries : List GroupEntry} {g : Group}
    (h : ofEntries name entries = .ok g) : g.name = name ∧ g.WellFormed := by
  simp only [ofEntries, Outcome.bind_eq_ok_iff, Outcome.exists_unit_iff,
    Name.check_eq_ok_iff] at h
  obtain ⟨hname, draft, hall, hfinish⟩ := h
  obtain ⟨help, hhelp, hmany, rfl⟩ := Draft.finish_eq_ok_iff.mp hfinish
  have hsound : Draft.Sound name draft := (Draft.sound_empty name).addAll hall
  exact ⟨rfl, hname, hsound.hasHelp help hhelp, hsound.members, hsound.distinct, hmany⟩

end Group
end CommandSchema
