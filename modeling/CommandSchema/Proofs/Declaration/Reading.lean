/-
Declarations and the values that they are read from.

The decoder accepts exactly the declarations of the grammar, and what it refuses is at fault in its
shape.  Order is kept on the way: a group has one entry from each item of its list, and a command or
a member has one option from each item of its field `option` (`OptionsOf`), whether the fields around
it are written as an object or as a list.
-/
import CommandSchema.Proofs.Declaration.Acceptance

namespace CommandSchema

open Grammar

/-! ## Options -/

/-- The options that the fields of a record declare. -/
def OptionsOf (fields : List (String × Json.Value)) (options : List OptionDecl) : Prop :=
  "option" ∉ fields.map Prod.fst ∧ options = [] ∨
    ∃ items, ("option", .array items) ∈ fields ∧
      List.Forall₂ (fun item option => OptionDecl.ofJson item = .ok option) items options

namespace CommandDecl

theorem options_of_put {field : String} {value : Json.Value} {p q : Parts}
    (h : put field value p = .ok q) :
    field ≠ "option" ∧ q.options = p.options ∨
      field = "option" ∧ ∃ options, q.options = some options ∧
        Field.listOf OptionDecl.ofJson value = .ok options := by
  unfold put at h
  split at h
  all_goals grind [Outcome.map_eq_ok_iff]

section Parts

variable {α : Type} {shape : RecordShape Parts α} {fields : List (String × Json.Value)}

/-- The options are those of the last field `option`, or the ones from before if there is none. -/
theorem options_of_putAll (hshape : shape.put = put) {p q : Parts}
    (h : shape.putAll fields p = .ok q) :
    "option" ∉ fields.map Prod.fst ∧ q.options = p.options ∨
      ∃ items options, ("option", .array items) ∈ fields ∧ q.options = some options ∧
        List.Forall₂ (fun item option => OptionDecl.ofJson item = .ok option) items options := by
  induction fields generalizing p with
  | nil =>
    obtain rfl := RecordShape.putAll_nil_eq_ok_iff.mp h
    exact Or.inl ⟨List.not_mem_nil, rfl⟩
  | cons field rest ih =>
    obtain ⟨name, value⟩ := field
    obtain ⟨-, next, hput, hrest⟩ := RecordShape.putAll_cons_eq_ok_iff.mp h
    rw [hshape] at hput
    rcases ih hrest with ⟨habsent, hkept⟩ | ⟨items, options, hmem, hoptions, hitems⟩
    · rcases options_of_put hput with ⟨hname, hsame⟩ | ⟨rfl, options, hoptions, hlist⟩
      · refine Or.inl ⟨?_, hkept.trans hsame⟩
        rw [List.map_cons, List.mem_cons, not_or]
        exact ⟨hname.symm, habsent⟩
      · obtain ⟨items, rfl, hitems⟩ := Field.listOf_eq_ok_iff.mp hlist
        exact Or.inr ⟨items, options, List.mem_cons_self, hkept.trans hoptions, hitems⟩
    · exact Or.inr ⟨items, options, List.mem_cons_of_mem _ hmem, hoptions, hitems⟩

theorem optionsOf_of_putAll (hshape : shape.put = put) {p : Parts}
    (h : shape.putAll fields {} = .ok p) : OptionsOf fields (p.options.getD []) := by
  rcases options_of_putAll hshape h with ⟨habsent, hnone⟩ | ⟨items, options, hmem, hsome, hitems⟩
  · rw [hnone]
    exact Or.inl ⟨habsent, rfl⟩
  · rw [hsome]
    exact Or.inr ⟨items, hmem, hitems⟩

end Parts

theorem options_of_finish {p : Parts} {command : CommandDecl} (h : finish p = .ok command) :
    command.options = p.options.getD [] := by
  unfold finish at h
  split at h
  · cases h
  · obtain rfl := Except.ok.inj h
    rfl

theorem optionsOf_of_readObject {fields : List (String × Json.Value)} {command : CommandDecl}
    (h : shape.readObject fields = .ok command) : OptionsOf fields command.options := by
  obtain ⟨p, hall, hfinish⟩ := RecordShape.readObject_eq_ok_iff.mp h
  rw [options_of_finish hfinish]
  exact optionsOf_of_putAll rfl hall

end CommandDecl

theorem MemberDecl.optionsOf_of_ofJson {value : Json.Value} {decl : MemberDecl}
    (h : ofJson value = .ok decl) : OptionsOf (shape.written value) decl.command.options := by
  obtain ⟨p, hall, hfinish⟩ := RecordShape.exists_parts_of_read h
  have hoptions : decl.command.options = p.options.getD [] :=
    CommandDecl.options_of_finish (finish_eq_ok_iff.mp hfinish).2
  rw [hoptions]
  exact CommandDecl.optionsOf_of_putAll rfl hall

/-! ## Entries -/

namespace GroupEntry

/-- An entry of a group and the item that it is read from. -/
inductive Reads : Json.Value → GroupEntry → Prop
  | help {value : Json.Value} {text : HelpText} :
    HelpText.ofJson value = .ok text → Reads (.object [(Name.help, value)]) (.help text)
  | member {name : String} {value : Json.Value} {decl : MemberDecl} :
    name ≠ Name.help → MemberDecl.ofJson value = .ok decl →
    OptionsOf (MemberDecl.shape.written value) decl.command.options →
    Reads (.object [(name, value)]) (.member name decl)

theorem ofJson_eq_ok_iff {group : String} {item : Json.Value} {entry : GroupEntry} :
    ofJson group item = .ok entry ↔ Reads item entry := by
  constructor
  · intro h
    obtain ⟨key, value, rfl, hfield⟩ := exists_of_ofJson h
    by_cases hkey : key = Name.help
    · subst hkey
      obtain ⟨text, htext, rfl⟩ := ofField_help_eq_ok_iff.mp hfield
      exact .help htext
    · obtain ⟨decl, hdecl, rfl⟩ := (ofField_member_eq_ok_iff hkey).mp hfield
      exact .member hkey hdecl (MemberDecl.optionsOf_of_ofJson hdecl)
  · intro h
    cases h with
    | help htext => exact ofField_help_eq_ok_iff.mpr ⟨_, htext, rfl⟩
    | member hkey hdecl _ => exact (ofField_member_eq_ok_iff hkey).mpr ⟨_, hdecl, rfl⟩

theorem exists_reads_iff {item : Json.Value} : (∃ entry, Reads item entry) ↔ IsEntry item := by
  constructor
  · rintro ⟨entry, h⟩
    cases h with
    | help htext => exact .help (HelpText.exists_ofJson_iff.mp ⟨_, htext⟩)
    | member hname hdecl _ => exact .member hname (MemberDecl.exists_ofJson_iff.mp ⟨_, hdecl⟩)
  · intro h
    cases h with
    | help hvalue =>
      obtain ⟨text, htext⟩ := HelpText.exists_ofJson_iff.mpr hvalue
      exact ⟨_, .help htext⟩
    | member hname hvalue =>
      obtain ⟨decl, hdecl⟩ := MemberDecl.exists_ofJson_iff.mpr hvalue
      exact ⟨_, .member hname hdecl (MemberDecl.optionsOf_of_ofJson hdecl)⟩

theorem kind_of_ofField_error {group key : String} {value : Json.Value} {fault : Fault}
    (h : ofField group key value = .error fault) : fault.kind = .shape := by
  unfold ofField at h
  split at h
  all_goals
    split at h
    · cases h
    · obtain rfl := Except.error.inj h
      rfl

theorem kind_of_ofJson_error {group : String} {item : Json.Value} {fault : Fault}
    (h : ofJson group item = .error fault) : fault.kind = .shape := by
  unfold ofJson at h
  split at h
  · exact kind_of_ofField_error h
  all_goals
    obtain rfl := Except.error.inj h
    rfl

theorem kind_of_all_error {group : String} {items : List Json.Value} {fault : Fault}
    (h : all group items = .error fault) : fault.kind = .shape := by
  induction items with
  | nil => cases h
  | cons item items ih =>
    rw [all] at h
    cases hitem : ofJson group item with
    | error first =>
      rw [hitem] at h
      obtain rfl := Except.error.inj h
      exact kind_of_ofJson_error hitem
    | ok entry =>
      rw [hitem] at h
      exact ih (Outcome.map_eq_error_iff.mp h)

end GroupEntry

/-! ## Declarations -/

namespace Declaration

/-- A declaration and the value that it is read from. -/
inductive Reads : Json.Value → Declaration → Prop
  | flat {fields : List (String × Json.Value)} {command : CommandDecl} :
    CommandDecl.shape.readObject fields = .ok command → OptionsOf fields command.options →
    Reads (.object fields) (.flat command)
  | group {items : List Json.Value} {entries : List GroupEntry} :
    List.Forall₂ GroupEntry.Reads items entries → Reads (.array items) (.group entries)

theorem ofJson_eq_ok_iff {name : String} {value : Json.Value} {decl : Declaration} :
    ofJson name value = .ok decl ↔ Reads value decl := by
  constructor
  · intro h
    unfold ofJson at h
    split at h
    next fields =>
      split at h
      next command hread =>
        obtain rfl := Except.ok.inj h
        exact .flat hread (CommandDecl.optionsOf_of_readObject hread)
      next => cases h
    next items =>
      obtain ⟨entries, hall, rfl⟩ := Outcome.map_eq_ok_iff.mp h
      simp only [GroupEntry.all_eq_ok_iff, GroupEntry.ofJson_eq_ok_iff] at hall
      exact .group hall
    next => cases h
  · intro h
    cases h with
    | flat hread _ => rw [ofJson, hread]
    | group hentries =>
      refine Outcome.map_eq_ok_iff.mpr ⟨_, GroupEntry.all_eq_ok_iff.mpr ?_, rfl⟩
      simpa only [GroupEntry.ofJson_eq_ok_iff] using hentries

theorem exists_reads_iff {value : Json.Value} :
    (∃ decl, Reads value decl) ↔ IsDeclaration value := by
  constructor
  · rintro ⟨decl, h⟩
    cases h with
    | flat hread _ => exact .command (CommandDecl.follows_shape.exists_readObject_iff.mp ⟨_, hread⟩)
    | group hentries =>
      refine .group fun item hitem => GroupEntry.exists_reads_iff.mp ?_
      exact Outcome.exists_forall₂_iff.mp ⟨_, hentries⟩ item hitem
  · intro h
    cases h with
    | command hkeyed =>
      obtain ⟨command, hread⟩ := CommandDecl.follows_shape.exists_readObject_iff.mpr hkeyed
      exact ⟨_, .flat hread (CommandDecl.optionsOf_of_readObject hread)⟩
    | group hitems =>
      obtain ⟨entries, hentries⟩ := Outcome.exists_forall₂_iff.mpr
        fun item hitem => GroupEntry.exists_reads_iff.mpr (hitems item hitem)
      exact ⟨_, .group hentries⟩

theorem exists_ofJson_iff {name : String} {value : Json.Value} :
    (∃ decl, ofJson name value = .ok decl) ↔ IsDeclaration value := by
  simp only [ofJson_eq_ok_iff]
  exact exists_reads_iff

/-- The decoder decides the grammar. -/
instance : DecidablePred IsDeclaration := fun value =>
  decidable_of_iff ((ofJson "" value).isOk = true) (Outcome.isOk_iff.trans exists_ofJson_iff)

theorem kind_of_ofJson_error {name : String} {value : Json.Value} {fault : Fault}
    (h : ofJson name value = .error fault) : fault.kind = .shape := by
  unfold ofJson at h
  split at h
  next =>
    split at h
    · cases h
    · obtain rfl := Except.error.inj h
      rfl
  next items => exact GroupEntry.kind_of_all_error (Outcome.map_eq_error_iff.mp h)
  next =>
    obtain rfl := Except.error.inj h
    rfl

/-- The values that are read as declarations are those of the grammar, under any name.  All others
are at fault in their shape.  A declaration has the entries and the options of its value in the
order in which they are written there. -/
theorem ofJson_succeeds_iff (name : String) (value : Json.Value) :
    ((∃ decl, ofJson name value = .ok decl) ↔ IsDeclaration value) ∧
      (∀ fault, ofJson name value = .error fault → fault.kind = .shape) ∧
      ∀ decl, ofJson name value = .ok decl → Reads value decl :=
  ⟨exists_ofJson_iff, fun _ => kind_of_ofJson_error, fun _ => ofJson_eq_ok_iff.mp⟩

/-- A member may be written as a list, and a flat command may not have a description. -/
example : IsDeclaration (.array [.object [("sub", .array [.string "d", .string "h"])]]) ∧
    ¬ IsDeclaration (.object [("desc", .string "d"), ("help", .string "h")]) := by decide

end Declaration
end CommandSchema
