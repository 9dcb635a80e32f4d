/-
The members of a group, one by one.

The entries of a group are read in one pass, which keeps the help that it has found, and the members
with the names that they have taken.  What comes out depends on the help entries and on the members
alone, each in their own order, and not on how the two are mixed (`Draft.Gathered`).  So the members
of a finished group are built from its entries in their order, each by itself and under its own
name, wherever the help stands among them.
-/
import CommandSchema.Proofs.Declaration.Members
import CommandSchema.Proofs.Group.Build

namespace CommandSchema

/-- A member that is built from the entry with its name. -/
def Member.Builds (group : String) (entry : String × MemberDecl) (m : Member) : Prop :=
  Member.ofDecl group entry.1 entry.2 = .ok m

theorem Member.Builds.name_eq {group : String} {entry : String × MemberDecl} {m : Member}
    (h : Member.Builds group entry m) : m.name = entry.1 := by
  obtain ⟨-, command, -, rfl⟩ := Member.ofDecl_eq_ok_iff.mp h
  rfl

theorem Member.Builds.command_eq {group : String} {entry : String × MemberDecl} {m : Member}
    (h : Member.Builds group entry m) :
    Command.ofDecl (Name.qualified group m.name) entry.2.command = .ok m.command := by
  obtain ⟨-, command, hcommand, rfl⟩ := Member.ofDecl_eq_ok_iff.mp h
  exact hcommand

namespace Member

/-- A member that is built from the entry with its name, which a group may use. -/
structure Accepted (group : String) (entry : String × MemberDecl) (m : Member) : Prop where
  isName : Name.IsName .lower entry.1
  isFree : isReserved entry.1 = false
  builds : Builds group entry m

theorem map_name_of_accepted {group : String} {entries : List (String × MemberDecl)}
    {members : List Member} (h : List.Forall₂ (Accepted group) entries members) :
    members.map name = entries.map Prod.fst := by
  induction h with
  | nil => rfl
  | cons hm _ ih => rw [List.map_cons, List.map_cons, hm.builds.name_eq, ih]

end Member

namespace Group
namespace Draft

/-- What a draft becomes with several entries: its help is the one that there was or the only one
among the entries, and the members of the entries come behind those that there were. -/
structure Gathered (group : String) (entries : List GroupEntry) (draft last : Draft) : Prop where
  help : last.help.toList = draft.help.toList ++
    (entries.filterMap GroupEntry.help?).map HelpText.toLines
  notBlank : ∀ text ∈ entries.filterMap GroupEntry.help?, text.toLines.any (!Text.isBlank ·) = true
  members : ∃ added, last.members = draft.members ++ added ∧
    List.Forall₂ (Member.Accepted group) (entries.filterMap GroupEntry.member?) added
  distinct : (last.members.map Member.name).Nodup

variable {group : String} {draft last : Draft} {rest : List GroupEntry}

theorem gathered_nil_iff :
    Gathered group [] draft last ↔ last = draft ∧ (draft.members.map Member.name).Nodup := by
  constructor
  · rintro ⟨hhelp, -, ⟨added, hmembers, hadded⟩, hdistinct⟩
    obtain rfl := List.forall₂_nil_left_iff.mp hadded
    have hsame : last = draft := by
      have hfirst : last.help = draft.help := by simpa using congrArg List.head? hhelp
      rw [List.append_nil] at hmembers
      exact Draft.mk.injEq .. ▸ ⟨hfirst, hmembers⟩
    exact ⟨hsame, hsame ▸ hdistinct⟩
  · rintro ⟨rfl, hdistinct⟩
    exact ⟨(List.append_nil _).symm, by simp, ⟨[], (List.append_nil _).symm, List.Forall₂.nil⟩,
      hdistinct⟩

theorem gathered_help_cons_iff {text : HelpText} :
    Gathered group (.help text :: rest) draft last ↔
      draft.help = none ∧ text.toLines.any (!Text.isBlank ·) = true ∧
        Gathered group rest { draft with help := some text.toLines } last := by
  -- A second help would make the help of the last draft a list of two.
  have hfirst (more : List (List String)) :
      last.help.toList = draft.help.toList ++ text.toLines :: more ↔
        draft.help = none ∧ last.help.toList = text.toLines :: more := by
    cases last.help with
    | none => simp
    | some lines =>
      cases draft.help with
      | none => simp
      | some earlier => simp
  constructor
  · rintro ⟨hhelp, hblank, hmembers, hdistinct⟩
    obtain ⟨hnone, hlast⟩ := (hfirst _).mp hhelp
    obtain ⟨htext, hrest⟩ := List.forall_mem_cons.mp hblank
    exact ⟨hnone, htext, hlast, hrest, hmembers, hdistinct⟩
  · rintro ⟨hnone, htext, hlast, hrest, hmembers, hdistinct⟩
    exact ⟨(hfirst _).mpr ⟨hnone, hlast⟩, List.forall_mem_cons.mpr ⟨htext, hrest⟩, hmembers,
      hdistinct⟩

theorem gathered_member_cons_iff {name : String} {decl : MemberDecl} :
    Gathered group (.member name decl :: rest) draft last ↔
      ∃ m, Member.Accepted group (name, decl) m ∧
        Gathered group rest { draft with members := draft.members ++ [m] } last := by
  constructor
  · rintro ⟨hhelp, hblank, ⟨added, hmembers, hadded⟩, hdistinct⟩
    obtain ⟨m, more, hm, hmore, rfl⟩ := List.forall₂_cons_left_iff.mp hadded
    exact ⟨m, hm, hhelp, hblank, ⟨more, by rw [hmembers, List.append_cons], hmore⟩, hdistinct⟩
  · rintro ⟨m, hm, hhelp, hblank, ⟨more, hmembers, hmore⟩, hdistinct⟩
    refine ⟨hhelp, hblank, ⟨m :: more, ?_, List.Forall₂.cons hm hmore⟩, hdistinct⟩
    rw [hmembers, ← List.append_cons]

/-- The members that there were keep different names. -/
theorem Gathered.distinct_first {entries : List GroupEntry}
    (h : Gathered group entries draft last) : (draft.members.map Member.name).Nodup := by
  obtain ⟨added, hmembers, -⟩ := h.members
  have hdistinct := h.distinct
  rw [hmembers, List.map_append] at hdistinct
  exact (List.nodup_append.mp hdistinct).1

theorem addAll_eq_ok_iff {entries : List GroupEntry}
    (hdistinct : (draft.members.map Member.name).Nodup) :
    draft.addAll group entries = .ok last ↔ Gathered group entries draft last := by
  induction entries generalizing draft with
  | nil => simp [addAll, gathered_nil_iff, hdistinct, eq_comm]
  | cons entry rest ih =>
    rw [addAll, Outcome.bind_eq_ok_iff]
    cases entry with
    | help text =>
      rw [gathered_help_cons_iff, ← @ih { draft with help := some text.toLines } hdistinct]
      constructor
      · rintro ⟨_, hadd, hrest⟩
        obtain ⟨hnone, htext, rfl⟩ := addHelp_eq_ok_iff.mp hadd
        exact ⟨hnone, htext, hrest⟩
      · rintro ⟨hnone, htext, hrest⟩
        exact ⟨_, addHelp_eq_ok_iff.mpr ⟨hnone, htext, rfl⟩, hrest⟩
    | member name decl =>
      have hnames (m : Member) : ((draft.members ++ [m]).map Member.name).Nodup ↔
          m.name ∉ draft.members.map Member.name := by
        rw [List.map_append, List.map_singleton, ← List.concat_eq_append, List.nodup_concat,
          and_iff_left hdistinct]
      rw [gathered_member_cons_iff]
      constructor
      · rintro ⟨_, hadd, hrest⟩
        obtain ⟨hname, hfree, hnew, m, hbuilds, rfl⟩ := addMember_eq_ok_iff.mp hadd
        have hm : Member.Accepted group (name, decl) m := ⟨hname, hfree, hbuilds⟩
        have hsame : m.name = name := hm.builds.name_eq
        rw [← hsame, ← hnames] at hnew
        exact ⟨m, hm, (ih hnew).mp hrest⟩
      · rintro ⟨m, hm, hrest⟩
        have hsame : m.name = name := hm.builds.name_eq
        have hnew := (hnames m).mp hrest.distinct_first
        rw [hsame] at hnew
        exact ⟨_, addMember_eq_ok_iff.mpr ⟨hm.isName, hm.isFree, hnew, m, hm.builds, rfl⟩,
          (ih hrest.distinct_first).mpr hrest⟩

end Draft

/-- What a group is, in terms of its help entries and of its members. -/
theorem ofEntries_eq_ok_iff {name : String} {entries : List GroupEntry} {g : Group} :
    ofEntries name entries = .ok g ↔
      Name.IsName .lower name ∧ g.name = name ∧
      (∃ text, entries.filterMap GroupEntry.help? = [text] ∧
        text.toLines.any (!Text.isBlank ·) = true ∧ g.mainHelp = text.toLines) ∧
      List.Forall₂ (Member.Accepted name) (entries.filterMap GroupEntry.member?) g.members ∧
      (g.members.map Member.name).Nodup ∧ 2 ≤ g.members.length := by
  have hempty : ((({} : Draft).members).map Member.name).Nodup := List.nodup_nil
  simp only [ofEntries, Outcome.bind_eq_ok_iff, Outcome.exists_unit_iff, Name.check_eq_ok_iff,
    Draft.addAll_eq_ok_iff hempty, Draft.finish_eq_ok_iff]
  constructor
  · rintro ⟨hname, draft, ⟨hhelp, hblank, ⟨members, hmembers, hall⟩, hdistinct⟩, lines, hlines,
      hmany, rfl⟩
    obtain rfl : draft.members = members := hmembers
    rw [hlines] at hhelp
    obtain ⟨text, htext, rfl⟩ := List.map_eq_singleton_iff.mp hhelp.symm
    refine ⟨hname, rfl, ⟨text, htext, ?_, rfl⟩, hall, hdistinct, hmany⟩
    exact hblank text (htext ▸ List.mem_singleton_self text)
  · rintro ⟨hname, hsame, ⟨text, htext, hblank, hlines⟩, hall, hdistinct, hmany⟩
    refine ⟨hname, ⟨some text.toLines, g.members⟩, ⟨?_, ?_, ⟨g.members, rfl, hall⟩, hdistinct⟩,
      text.toLines, rfl, hmany, ?_⟩
    · rw [htext]
      rfl
    · rw [htext]
      simpa using hblank
    · rw [← hlines, ← hsame]

theorem members_of_ofEntries {name : String} {entries : List GroupEntry} {g : Group}
    (h : ofEntries name entries = .ok g) :
    List.Forall₂ (Member.Builds name) (entries.filterMap GroupEntry.member?) g.members := by
  obtain ⟨-, -, -, hall, -, -⟩ := ofEntries_eq_ok_iff.mp h
  exact hall.imp fun _ _ hm => hm.builds

end Group
end CommandSchema
