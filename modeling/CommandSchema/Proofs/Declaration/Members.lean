/-
Members of groups as flat commands.

A member is read like a flat command that has a description besides.  The description is a field of
its own and decides nothing about the others, so an object that is read as a member is read as the
command of that member when its description is left out (`readObject_withoutDescription`).

The entries of a group that are not its help name its members, in their order (`memberFields`).
-/
import CommandSchema.Declaration.Decode
import CommandSchema.Proofs.Declaration.Record
import CommandSchema.Proofs.Outcome

namespace CommandSchema

/-! ## Fields -/

namespace CommandDecl

/-- What is known of a member without its description. -/
def Parts.flat (p : Parts) : Parts := { p with description := none }

theorem flat_of_put_desc {value : Json.Value} {p q : Parts} (h : put "desc" value p = .ok q) :
    q.flat = p.flat := by
  obtain ⟨s, -, rfl⟩ := Outcome.map_eq_ok_iff.mp h
  rfl

theorem put_flat {field : String} (hfield : field ≠ "desc") {value : Json.Value} {p q : Parts}
    (h : put field value p = .ok q) : put field value p.flat = .ok q.flat := by
  unfold put at h ⊢
  split at h
  next => exact absurd rfl hfield
  next =>
    obtain ⟨help, hhelp, rfl⟩ := Outcome.map_eq_ok_iff.mp h
    exact Outcome.map_eq_ok_iff.mpr ⟨help, hhelp, rfl⟩
  next =>
    obtain rfl := Except.ok.inj h
    rfl
  next =>
    obtain ⟨options, hoptions, rfl⟩ := Outcome.map_eq_ok_iff.mp h
    exact Outcome.map_eq_ok_iff.mpr ⟨options, hoptions, rfl⟩
  next =>
    obtain ⟨hidden, hhidden, rfl⟩ := Outcome.map_eq_ok_iff.mp h
    exact Outcome.map_eq_ok_iff.mpr ⟨hidden, hhidden, rfl⟩
  next => cases h

end CommandDecl

namespace MemberDecl

/-- The fields of a member without its description. -/
def withoutDescription (fields : List (String × Json.Value)) : List (String × Json.Value) :=
  fields.filter fun field => field.1 ≠ "desc"

theorem putAll_withoutDescription {fields : List (String × Json.Value)}
    {p q : CommandDecl.Parts} (h : shape.putAll fields p = .ok q) :
    CommandDecl.shape.putAll (withoutDescription fields) p.flat = .ok q.flat := by
  induction fields generalizing p with
  | nil =>
    obtain rfl := RecordShape.putAll_nil_eq_ok_iff.mp h
    rfl
  | cons field rest ih =>
    obtain ⟨name, value⟩ := field
    obtain ⟨hknown, next, hput, hrest⟩ := RecordShape.putAll_cons_eq_ok_iff.mp h
    have hflat := ih hrest
    by_cases hname : name = "desc"
    · subst hname
      rw [withoutDescription, List.filter_cons_of_neg (by simp), ← withoutDescription,
        ← CommandDecl.flat_of_put_desc hput]
      exact hflat
    · rw [withoutDescription, List.filter_cons_of_pos (by simpa using hname), ← withoutDescription,
        RecordShape.putAll_cons_eq_ok_iff]
      exact ⟨List.mem_of_ne_of_mem hname hknown, next.flat, CommandDecl.put_flat hname hput, hflat⟩

theorem finish_eq_ok_iff {p : CommandDecl.Parts} {decl : MemberDecl} :
    finish p = .ok decl ↔
      p.description = some decl.description ∧ CommandDecl.finish p.flat = .ok decl.command := by
  obtain ⟨description, command⟩ := decl
  cases hdescription : p.description with
  | none => simp [finish, hdescription]
  | some text =>
    cases hhelp : p.help with
    | none => simp [finish, CommandDecl.finish, CommandDecl.Parts.flat, hdescription, hhelp]
    | some help =>
      simp only [finish, CommandDecl.finish, CommandDecl.Parts.flat, hdescription, hhelp,
        Except.ok.injEq, mk.injEq, Option.some.injEq]
      rfl

/-- A member is read from an object exactly as its command is from the other fields. -/
theorem readObject_withoutDescription {fields : List (String × Json.Value)} {decl : MemberDecl}
    (h : shape.readObject fields = .ok decl) :
    CommandDecl.shape.readObject (withoutDescription fields) = .ok decl.command := by
  obtain ⟨p, hput, hfinish⟩ := RecordShape.readObject_eq_ok_iff.mp h
  exact RecordShape.readObject_eq_ok_iff.mpr
    ⟨p.flat, putAll_withoutDescription hput, (finish_eq_ok_iff.mp hfinish).2⟩

end MemberDecl

/-! ## Entries -/

namespace GroupEntry

/-- The name and the declaration of a member; a help entry has none. -/
def member? : GroupEntry → Option (String × MemberDecl)
  | .help _ => none
  | .member name decl => some (name, decl)

/-- The text of a help entry; a member has none. -/
def help? : GroupEntry → Option HelpText
  | .help text => some text
  | .member .. => none

/-- The name and the value of a member, from an entry of a group as it is written. -/
def memberField? : Json.Value → Option (String × Json.Value)
  | .object [(key, value)] => if key = Name.help then none else some (key, value)
  | _ => none

theorem ofField_help_eq_ok_iff {group : String} {value : Json.Value} {entry : GroupEntry} :
    ofField group Name.help value = .ok entry ↔
      ∃ text, HelpText.ofJson value = .ok text ∧ entry = .help text := by
  rw [ofField, if_pos rfl]
  cases HelpText.ofJson value with
  | error fault => simp
  | ok text => simp [eq_comm]

theorem ofField_member_eq_ok_iff {group key : String} (hkey : key ≠ Name.help) {value : Json.Value}
    {entry : GroupEntry} :
    ofField group key value = .ok entry ↔
      ∃ decl, MemberDecl.ofJson value = .ok decl ∧ entry = .member key decl := by
  rw [ofField, if_neg hkey]
  cases MemberDecl.ofJson value with
  | error fault => simp
  | ok decl => simp [eq_comm]

theorem exists_of_ofJson {group : String} {item : Json.Value} {entry : GroupEntry}
    (h : ofJson group item = .ok entry) :
    ∃ key value, item = .object [(key, value)] ∧ ofField group key value = .ok entry := by
  unfold ofJson at h
  split at h
  next key value => exact ⟨key, value, rfl, h⟩
  next => cases h
  next => cases h

/-- The entries of a group are read from its items, each by itself and in their order. -/
theorem all_eq_ok_iff {group : String} {items : List Json.Value} {entries : List GroupEntry} :
    all group items = .ok entries ↔
      List.Forall₂ (fun item entry => ofJson group item = .ok entry) items entries := by
  induction items generalizing entries with
  | nil => simp [all, eq_comm]
  | cons item items ih =>
    rw [all, List.forall₂_cons_left_iff]
    cases ofJson group item with
    | error fault => simp
    | ok entry => simp [Outcome.map_eq_ok_iff, ih, @eq_comm _ entries]

/-- The members of a group are read from its items in their order. -/
theorem members_of_all {group : String} {items : List Json.Value} {entries : List GroupEntry}
    (h : all group items = .ok entries) :
    List.Forall₂ (fun field member => member.1 = field.1 ∧ MemberDecl.ofJson field.2 = .ok member.2)
      (items.filterMap memberField?) (entries.filterMap member?) := by
  rw [all_eq_ok_iff] at h
  induction h with
  | nil => exact List.Forall₂.nil
  | @cons item entry items entries hentry _ ih =>
    obtain ⟨key, value, rfl, hfield⟩ := exists_of_ofJson hentry
    by_cases hkey : key = Name.help
    · subst hkey
      obtain ⟨text, -, rfl⟩ := ofField_help_eq_ok_iff.mp hfield
      have hhelp : memberField? (.object [(Name.help, value)]) = none := by
        simp [memberField?]
      rw [List.filterMap_cons, List.filterMap_cons, hhelp, member?]
      exact ih
    · obtain ⟨decl, hdecl, rfl⟩ := (ofField_member_eq_ok_iff hkey).mp hfield
      have hmember : memberField? (.object [(key, value)]) = some (key, value) := by
        simp [memberField?, hkey]
      rw [List.filterMap_cons, List.filterMap_cons, hmember, member?]
      exact List.Forall₂.cons ⟨rfl, hdecl⟩ ih

end GroupEntry
end CommandSchema
