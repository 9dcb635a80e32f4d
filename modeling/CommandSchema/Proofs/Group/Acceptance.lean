/-
Which declarations are accepted as groups.

A group is accepted exactly when there is one help entry, which is not blank, and its members, two
at least, have different names that a group may use and are acceptable one by one.  Nothing in this
depends on how the help and the members are mixed.
-/
import CommandSchema.Proofs.Group.Members
import CommandSchema.TopCommand

namespace CommandSchema
namespace Member

theorem isReserved_eq_false_iff {name : String} :
    isReserved name = false ↔
      name ≠ "help" ∧ name ≠ "parse" ∧ name ≠ "print" ∧ ¬ "m_".toList <+: name.toList := by
  have hmark : Name.hasRuntimeMark name = false ↔ ¬ "m_".toList <+: name.toList := by
    rw [← Bool.not_eq_true, Name.hasRuntimeMark, List.isPrefixOf_iff_prefix, Name.runtimeMark]
  have hmethods : name ∉ Name.methods ↔ name ≠ "parse" ∧ name ≠ "print" := by
    simp [Name.methods]
  rw [isReserved, Bool.or_eq_false_iff, Bool.or_eq_false_iff, decide_eq_false_iff_not,
    decide_eq_false_iff_not, hmark, hmethods, Name.help]
  tauto

theorem exists_accepted_iff {group : String} {entry : String × MemberDecl} :
    (∃ m, Accepted group entry m) ↔
      Name.IsName .lower entry.1 ∧ isReserved entry.1 = false ∧
        Text.trim entry.2.description ≠ "" ∧
        ∃ c, Command.ofDecl (Name.qualified group entry.1) entry.2.command = .ok c := by
  rw [ne_eq, Text.trim_eq_empty_iff, Bool.not_eq_true]
  constructor
  · rintro ⟨m, hname, hfree, hbuilds⟩
    obtain ⟨hdescribed, c, hc, -⟩ := ofDecl_eq_ok_iff.mp hbuilds
    exact ⟨hname, hfree, hdescribed, c, hc⟩
  · rintro ⟨hname, hfree, hdescribed, c, hc⟩
    exact ⟨_, hname, hfree, ofDecl_eq_ok_iff.mpr ⟨hdescribed, c, hc, rfl⟩⟩

end Member

namespace Group

/-- What the entries of a group have to be to be accepted under some name. -/
structure Acceptable (name : String) (entries : List GroupEntry) : Prop where
  isName : Name.IsName .lower name
  hasHelp : ∃ text, entries.filterMap GroupEntry.help? = [text] ∧
    ∃ line ∈ text.toLines, Text.trim line ≠ ""
  hasMembers : 2 ≤ (entries.filterMap GroupEntry.member?).length
  names_nodup : ((entries.filterMap GroupEntry.member?).map Prod.fst).Nodup
  isName_member : ∀ m ∈ entries.filterMap GroupEntry.member?, Name.IsName .lower m.1
  isFree_member : ∀ m ∈ entries.filterMap GroupEntry.member?,
    m.1 ≠ "help" ∧ m.1 ≠ "parse" ∧ m.1 ≠ "print" ∧ ¬ "m_".toList <+: m.1.toList
  isDescribed : ∀ m ∈ entries.filterMap GroupEntry.member?, Text.trim m.2.description ≠ ""
  isBuilt : ∀ m ∈ entries.filterMap GroupEntry.member?,
    ∃ c, Command.ofDecl (Name.qualified name m.1) m.2.command = .ok c

theorem exists_ofEntries_iff {name : String} {entries : List GroupEntry} :
    (∃ g, ofEntries name entries = .ok g) ↔ Acceptable name entries := by
  constructor
  · rintro ⟨g, h⟩
    obtain ⟨hname, -, ⟨text, htext, hblank, -⟩, hall, hdistinct, hmany⟩ :=
      ofEntries_eq_ok_iff.mp h
    rw [Member.map_name_of_accepted hall] at hdistinct
    have heach := Outcome.exists_forall₂_iff.mp ⟨_, hall⟩
    simp only [Member.exists_accepted_iff] at heach
    exact {
      isName := hname
      hasHelp := ⟨text, htext, Command.any_not_isBlank_iff.mp hblank⟩
      hasMembers := hall.length_eq ▸ hmany
      names_nodup := hdistinct
      isName_member := fun m hm => (heach m hm).1
      isFree_member := fun m hm => Member.isReserved_eq_false_iff.mp (heach m hm).2.1
      isDescribed := fun m hm => (heach m hm).2.2.1
      isBuilt := fun m hm => (heach m hm).2.2.2 }
  · intro h
    obtain ⟨text, htext, hblank⟩ := h.hasHelp
    have heach : ∀ m ∈ entries.filterMap GroupEntry.member?,
        ∃ built, Member.Accepted name m built := fun m hm =>
      Member.exists_accepted_iff.mpr ⟨h.isName_member m hm,
        Member.isReserved_eq_false_iff.mpr (h.isFree_member m hm), h.isDescribed m hm,
        h.isBuilt m hm⟩
    obtain ⟨members, hall⟩ := Outcome.exists_forall₂_iff.mpr heach
    refine ⟨⟨name, text.toLines, members⟩, ofEntries_eq_ok_iff.mpr
      ⟨h.isName, rfl,
        ⟨text, htext, Command.any_not_isBlank_iff.mpr hblank, rfl⟩, hall, ?_, ?_⟩⟩
    · rw [Member.map_name_of_accepted hall]
      exact h.names_nodup
    · exact hall.length_eq ▸ h.hasMembers

theorem ofEntries_of_assemble {name : String} {entries : List GroupEntry} {g : Group}
    (h : TopCommand.assemble name (.group entries) = .ok (.group g)) :
    ofEntries name entries = .ok g := by
  obtain ⟨built, hentries, hg⟩ := Outcome.map_eq_ok_iff.mp h
  exact hentries.trans (congrArg Except.ok (TopCommand.group.inj hg))

/-- How the help entries and the members are mixed makes no difference. -/
theorem ofEntries_eq_ok_congr {name : String} {entries others : List GroupEntry} {g : Group}
    (hhelp : (others.filterMap GroupEntry.help?).Perm (entries.filterMap GroupEntry.help?))
    (hmembers : others.filterMap GroupEntry.member? = entries.filterMap GroupEntry.member?) :
    ofEntries name others = .ok g ↔ ofEntries name entries = .ok g := by
  have hsingle (text : HelpText) : others.filterMap GroupEntry.help? = [text] ↔
      entries.filterMap GroupEntry.help? = [text] := by
    rw [← List.perm_singleton, ← List.perm_singleton]
    exact ⟨hhelp.symm.trans, hhelp.trans⟩
  simp only [ofEntries_eq_ok_iff, hsingle, hmembers]

/-- A group is accepted exactly when its name, its one help and each of its members, two at least,
are acceptable, and no two members have the same name.  Its members are then built from their
declarations, in their order and each by itself.  Where the help entry stands among them makes no
difference. -/
theorem assemble_group_succeeds_iff (name : String) (entries : List GroupEntry) :
    ((∃ top, TopCommand.assemble name (.group entries) = .ok top) ↔ Acceptable name entries) ∧
      (∀ top, TopCommand.assemble name (.group entries) = .ok top →
        ∃ g, top = .group g ∧ g.name = name ∧
          (entries.filterMap GroupEntry.help?).map HelpText.toLines = [g.mainHelp] ∧
          List.Forall₂ (fun entry m => m.name = entry.1 ∧ m.description = entry.2.description ∧
              Command.ofDecl (Name.qualified name entry.1) entry.2.command = .ok m.command)
            (entries.filterMap GroupEntry.member?) g.members) ∧
      ∀ text front back top,
        TopCommand.assemble name (.group (front ++ .help text :: back)) = .ok top ↔
          TopCommand.assemble name (.group (.help text :: (front ++ back))) = .ok top := by
  simp only [TopCommand.assemble, Outcome.map_eq_ok_iff]
  refine ⟨?_, ?_, ?_⟩
  · rw [exists_comm]
    simp only [exists_and_left, exists_eq', and_true]
    exact exists_ofEntries_iff
  · rintro top ⟨g, hg, rfl⟩
    obtain ⟨-, hname, ⟨text, htext, -, hlines⟩, hall, -, -⟩ := ofEntries_eq_ok_iff.mp hg
    refine ⟨g, rfl, hname, by rw [htext, hlines, List.map_singleton], hall.imp ?_⟩
    intro entry m hm
    obtain ⟨-, c, hc, rfl⟩ := Member.ofDecl_eq_ok_iff.mp hm.builds
    exact ⟨rfl, rfl, hc⟩
  · intro text front back top
    refine exists_congr fun g => and_congr_left fun _ => ofEntries_eq_ok_congr ?_ ?_
    · exact List.perm_middle.filterMap GroupEntry.help?
    · rw [List.filterMap_append, List.filterMap_cons_none rfl, List.filterMap_cons_none rfl,
        List.filterMap_append]

end Group
end CommandSchema
