/-
The members that the text of a group declares.

An item of a group has to have one key, but a reader keeps only one field of each key, so a key that
is repeated within an item goes unnoticed: all but one of its declarations are lost.  The group that
is built has one member for each item that is not the help, whatever the item repeats
(`Schema.members_of_compile`), so nothing is lost exactly when no item repeats the name of a member.
-/
import CommandSchema.Proofs.Code.Members
import CommandSchema.Proofs.Schema.Text
import Mathlib.Data.List.Dedup

namespace CommandSchema

/-- The names of the members that the items of a group declare, with every repetition. -/
def GroupEntry.declaredMembers (items : List Json.Value) : List String :=
  (items.flatMap Json.Value.keys).filter (· ≠ Name.help)

namespace GroupEntry

theorem declaredMembers_cons (item : Json.Value) (items : List Json.Value) :
    declaredMembers (item :: items) = declaredMembers [item] ++ declaredMembers items := by
  simp [declaredMembers]

theorem mem_declaredMembers_singleton {name : String} {item : Json.Value} :
    name ∈ declaredMembers [item] ↔ name ∈ item.keys ∧ name ≠ Name.help := by
  simp [declaredMembers]

/-- An item that is read as an entry declares the member of the entry, perhaps more than once. -/
theorem dedup_declaredMembers {group : String} {item : Json.Value} {entry : GroupEntry}
    (h : ofJson group item.settle = .ok entry) :
    (declaredMembers [item]).dedup = ((memberField? item.settle).map Prod.fst).toList := by
  obtain ⟨key, value, hsettle, -⟩ := exists_of_ofJson h
  have hkeys : ∀ name, name ∈ item.keys ↔ name = key := fun name => by
    rw [← Json.Value.mem_keys_settle, hsettle]
    exact List.mem_singleton
  by_cases hkey : key = Name.help
  · have hnone : declaredMembers [item] = [] := by
      refine List.eq_nil_iff_forall_not_mem.mpr fun name hname => ?_
      obtain ⟨hmem, hne⟩ := mem_declaredMembers_singleton.mp hname
      exact hne (((hkeys name).mp hmem).trans hkey)
    rw [hnone, hsettle, memberField?, if_pos hkey]
    rfl
  · have hmem : ∀ name, name ∈ (declaredMembers [item]).dedup ↔ name ∈ [key] := fun name => by
      rw [List.mem_dedup, mem_declaredMembers_singleton, hkeys, List.mem_singleton]
      exact and_iff_left_of_imp fun heq => heq ▸ hkey
    rw [hsettle, memberField?, if_neg hkey]
    exact List.perm_singleton.mp
      ((List.perm_ext_iff_of_nodup (List.nodup_dedup _) (List.nodup_singleton key)).mpr hmem)

theorem names_of_all {group : String} {items : List Json.Value} {entries : List GroupEntry}
    (h : all group (items.map Json.Value.settle) = .ok entries) :
    ((items.map Json.Value.settle).filterMap memberField?).map Prod.fst =
      items.flatMap fun item => (declaredMembers [item]).dedup := by
  rw [all_eq_ok_iff, List.forall₂_map_left_iff] at h
  induction h with
  | nil => rfl
  | @cons item _ items _ hitem _ ih =>
    rw [List.flatMap_cons, ← ih, dedup_declaredMembers hitem, List.map_cons, List.filterMap_cons]
    cases memberField? item.settle with
    | none => rfl
    | some field => rfl

/-- The declared members are counted as often as they are declared exactly when no item repeats the
name of a member. -/
theorem length_declaredMembers_iff (items : List Json.Value) :
    (items.flatMap fun item => (declaredMembers [item]).dedup).length ≤
        (declaredMembers items).length ∧
      ((declaredMembers items).length =
          (items.flatMap fun item => (declaredMembers [item]).dedup).length ↔
        ∀ item ∈ items, (declaredMembers [item]).Nodup) := by
  induction items with
  | nil => simp [declaredMembers]
  | cons item items ih =>
    obtain ⟨hle, hiff⟩ := ih
    have hfirst : (declaredMembers [item]).dedup.length ≤ (declaredMembers [item]).length :=
      (List.dedup_sublist _).length_le
    have hnodup : (declaredMembers [item]).dedup.length = (declaredMembers [item]).length ↔
        (declaredMembers [item]).Nodup := by
      rw [← List.dedup_eq_self]
      exact ⟨(List.dedup_sublist _).eq_of_length, congrArg List.length⟩
    rw [declaredMembers_cons, List.flatMap_cons, List.length_append, List.length_append,
      List.forall_mem_cons, ← hiff, ← hnodup]
    omega

end GroupEntry

namespace Schema

open GroupEntry (declaredMembers)

/-- A group and the items that its text has for it: each item gives the members that it declares
once, however often it declares them. -/
structure Gives (name : String) (items : List Json.Value) (g : Group) : Prop where
  name_eq : g.name = name
  names : g.members.map Member.name = items.flatMap fun item => (declaredMembers [item]).dedup

theorem Gives.length_iff {name : String} {items : List Json.Value} {g : Group}
    (h : Gives name items g) :
    g.members.length ≤ (declaredMembers items).length ∧
      ((declaredMembers items).length = g.members.length ↔
        ∀ item ∈ items, (declaredMembers [item]).Nodup) := by
  have hlength := GroupEntry.length_declaredMembers_iff items
  rw [← h.names, List.length_map] at hlength
  exact hlength

theorem gives_of_ofJson {name : String} {items : List Json.Value} {top : TopCommand}
    (h : TopCommand.ofJson name (Json.Value.array items).settle = .ok top) :
    ∃ g, top = .group g ∧ Gives name items g := by
  rw [Json.Value.settle_array] at h
  obtain ⟨g, rfl, hname, -, hmembers⟩ := TopCommand.members_of_ofJson h
  obtain ⟨decl, hdecl, -⟩ := TopCommand.ofJson_eq_ok_iff.mp h
  obtain ⟨entries, hentries, -⟩ := Outcome.map_eq_ok_iff.mp hdecl
  refine ⟨g, rfl, hname, ?_⟩
  rw [← GroupEntry.names_of_all hentries]
  rw [← List.forall₂_eq_eq_eq, List.forall₂_map_left_iff, List.forall₂_map_right_iff]
  refine hmembers.flip.imp fun m field => ?_
  rintro ⟨entry, ⟨hfirst, -⟩, hbuilds⟩
  exact hbuilds.name_eq.trans hfirst

/-- The groups of a schema that is read and compiled have at most the members that its text declares
for them.  They have all of them exactly when no item of the group names a member twice; what an
item repeats is lost, and nothing is reported. -/
theorem members_of_compile {origin : Json.Origin} {source : List Glyph} {s : Schema}
    {auxiliary : List Schema} {fragments : List Fragment}
    (hread : ofGlyphs origin source = .ok s) (hcompile : s.compile auxiliary = .ok fragments) :
    ∃ entries, written? origin source = some entries ∧
      fragments = s.commands.map Fragment.ofTop ∧
      List.Forall₂ (fun entry top => ∀ items, entry.2 = .array items →
        ∃ g, top = .group g ∧ Gives entry.1 items g ∧
          g.members.length ≤ (declaredMembers items).length ∧
          ((declaredMembers items).length = g.members.length ↔
            ∀ item ∈ items, (declaredMembers [item]).Nodup)) entries s.commands := by
  obtain ⟨entries, hwritten, hentries⟩ := written?_of_ofGlyphs hread
  obtain ⟨hdeclares, -, hfragments⟩ := compile_spec hcompile
  refine ⟨entries, hwritten, hfragments, ?_⟩
  rw [hentries, List.forall₂_map_left_iff] at hdeclares
  refine hdeclares.imp fun entry top htop items hitems => ?_
  rw [Declares, Prod.map, hitems] at htop
  obtain ⟨g, hg, hgives⟩ := gives_of_ofJson htop
  exact ⟨g, hg, hgives, hgives.length_iff⟩

/-! ## Repeated keys -/

/-- The declaration of a member. -/
def memberNamed (name : String) : String × Json.Value :=
  (name, .object [("desc", .string "d"), ("help", .string "h")])

/-- A group whose help is repeated within an item. -/
def repeatedHelp : Schema := ⟨[("utst", .array [
  .object [("help", .string "old"), ("help", .string "u")],
  .object [memberNamed "sub0"], .object [memberNamed "sub1"]])]⟩

theorem members_of_repeatedHelp :
    ∃ s fragments items g, Schema.parse repeatedHelp.toJson = .ok s ∧
      s.compile [⟨[("other", .null)]⟩] = .ok fragments ∧ s.commands = [.group g] ∧
      written? .memory (Glyph.ofText repeatedHelp.toJson) = some [("utst", .array items)] ∧
      declaredMembers items = ["sub0", "sub1"] ∧
      (declaredMembers items).length = g.members.length := by
  have hexact : ∀ entry ∈ repeatedHelp.entries, entry.2.IsExact := by
    simp [repeatedHelp, memberNamed]
  have hdepth : ∀ entry ∈ repeatedHelp.entries, entry.2.depth ≤ 126 := by decide
  have hread := ofGlyphs_toJson .memory hexact hdepth
  have hwritten := written?_toJson .memory hexact hdepth
  obtain ⟨fragments, hcompile⟩ : ∃ fragments,
      compile ⟨repeatedHelp.entries.map (Prod.map id Json.Value.settle)⟩
        [⟨[("other", .null)]⟩] = .ok fragments := ⟨_, rfl⟩
  obtain ⟨entries, hentries, -, htops⟩ := members_of_compile hread hcompile
  obtain rfl := Option.some.inj (hentries.symm.trans hwritten)
  obtain ⟨top, rest, htop, hrest, hcommands⟩ := List.forall₂_cons_left_iff.mp htops
  obtain rfl := List.forall₂_nil_left_iff.mp hrest
  obtain ⟨g, rfl, -, -, hlength⟩ := htop _ rfl
  refine ⟨_, fragments, _, g, hread, hcompile, hcommands, hwritten, by decide, hlength.mpr ?_⟩
  simp only [List.forall_mem_cons]
  decide

/-- A group with two declarations of a member in one item, of which one is lost. -/
def lostMember : Schema := ⟨[("utst", .array [
  .object [("help", .string "u")],
  .object [("sub0", .object [("desc", .string "lost"), ("help", .string "h")]), memberNamed "sub0"],
  .object [memberNamed "sub1"]])]⟩

theorem members_of_lostMember :
    lostMember.toJson =
        "\x7b\"utst\":[\x7b\"help\":\"u\"\x7d,\x7b\"sub0\":\x7b\"desc\":\"lost\",\"help\":\"h\"\x7d," ++
          "\"sub0\":\x7b\"desc\":\"d\",\"help\":\"h\"\x7d\x7d," ++
          "\x7b\"sub1\":\x7b\"desc\":\"d\",\"help\":\"h\"\x7d\x7d]\x7d" ∧
    ∃ s fragments items g, Schema.parse lostMember.toJson = .ok s ∧
      s.compile [] = .ok fragments ∧ s.commands = [.group g] ∧
      written? .memory (Glyph.ofText lostMember.toJson) = some [("utst", .array items)] ∧
      (declaredMembers items).length = 3 ∧ g.members.length = 2 := by
  have hexact : ∀ entry ∈ lostMember.entries, entry.2.IsExact := by
    simp [lostMember, memberNamed]
  have hdepth : ∀ entry ∈ lostMember.entries, entry.2.depth ≤ 126 := by decide
  exact ⟨by decide +kernel, _, _, _, _, ofGlyphs_toJson .memory hexact hdepth, rfl, rfl,
    written?_toJson .memory hexact hdepth, rfl, rfl⟩

end Schema
end CommandSchema
