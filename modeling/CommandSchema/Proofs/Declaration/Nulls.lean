/-
Where null stands for absence.

The arity of a command and the letter and the default of an option may be null.  Reading such a null
fills the field with nothing, and a field that has not been read counts as filled with nothing in
the end.  So a record may be read as if these fields had been filled from the beginning
(`Nullable.readObject_eq`), and a null among them changes nothing that is known.

No other field allows null.  A declaration in which one is set to null, at whatever place, is
outside the grammar.
-/
import CommandSchema.Compilation
import CommandSchema.Proofs.Declaration.FieldOrder
import CommandSchema.Proofs.Declaration.Reading

namespace CommandSchema

open Grammar

/-! ## Records without some of their nulls -/

namespace RecordShape

variable {Parts α : Type} {shape : RecordShape Parts α} {Sets : String → (Parts → Parts) → Prop}
  {names : List String} {fill : Parts → Parts}
  {Changes : String → Json.Value → Json.Value → Prop}

/-- The fields of a record without some that may be null and are.  The values of the others may be
changed. -/
inductive Drops (names : List String) (Changes : String → Json.Value → Json.Value → Prop) :
    List (String × Json.Value) → List (String × Json.Value) → Prop
  | nil : Drops names Changes [] []
  | keep {name : String} {value other : Json.Value} {fields others : List (String × Json.Value)} :
    Changes name value other → Drops names Changes fields others →
      Drops names Changes ((name, value) :: fields) ((name, other) :: others)
  | drop {name : String} {fields others : List (String × Json.Value)} :
    name ∈ names → Drops names Changes fields others →
      Drops names Changes ((name, .null) :: fields) others

/-- A shape some of whose fields may be null: to fill them with nothing is what a null does to each
of them, and it changes no record. -/
structure Nullable (shape : RecordShape Parts α) (Sets : String → (Parts → Parts) → Prop)
    (names : List String) (fill : Parts → Parts) : Prop extends Separate shape Sets where
  known : ∀ name ∈ names, name ∈ shape.fields
  fill_comm : ∀ {name f}, Sets name f → ∀ p, f (fill p) = fill (f p)
  put_null : ∀ name ∈ names, shape.put name .null (fill shape.empty) = .ok (fill shape.empty)
  finish_fill : ∀ p, shape.finish (fill p) = shape.finish p

/-- The record of what is known in the end, or the field that is missed. -/
def conclude (shape : RecordShape Parts α) (p : Parts) : Except ShapeFault α :=
  (shape.finish p).mapError fun place => .missingField (shape.fields.getD place "")

namespace Nullable

theorem putAll_fill (h : Nullable shape Sets names fill) (fields : List (String × Json.Value))
    (p : Parts) : shape.putAll fields (fill p) = (shape.putAll fields p).map fill := by
  induction fields generalizing p with
  | nil => rfl
  | cons field rest ih =>
    obtain ⟨name, value⟩ := field
    rw [putAll, putAll]
    by_cases hknown : name ∈ shape.fields
    · rw [if_pos hknown, if_pos hknown]
      rcases h.readsAlone name value with ⟨f, hf, hput⟩ | ⟨fault, herror⟩
      · rw [hput, hput, h.fill_comm hf]
        exact ih (f p)
      · rw [herror, herror]
        rfl
    · rw [if_neg hknown, if_neg hknown]
      rfl

/-- A record is read as if its fields that may be null had been filled before. -/
theorem readObject_eq (h : Nullable shape Sets names fill) (fields : List (String × Json.Value)) :
    shape.readObject fields =
      (shape.putAll fields (fill shape.empty)).bind shape.conclude := by
  rw [readObject, h.putAll_fill]
  cases shape.putAll fields shape.empty with
  | error fault => rfl
  | ok p =>
    show _ = shape.conclude (fill p)
    rw [conclude, h.finish_fill]
    dsimp only
    cases shape.finish p with
    | ok record => rfl
    | error place => rfl

/-- A null that changes nothing changes nothing after another field has been read either. -/
theorem put_null_of_put (h : Nullable shape Sets names fill) {name other : String}
    (hne : name ≠ other) {value : Json.Value} {p q : Parts}
    (hnull : shape.put name .null p = .ok p) (hput : shape.put other value p = .ok q) :
    shape.put name .null q = .ok q := by
  obtain ⟨m, hm, hlast⟩ := h.put_comm hne hnull hput
  obtain rfl := Except.ok.inj (hput.symm.trans hm)
  exact hlast

theorem putAll_of_drops (h : Nullable shape Sets names fill)
    {fields others : List (String × Json.Value)} (hdrops : Drops names Changes fields others)
    (hchanges : ∀ field ∈ fields, ∀ other, Changes field.1 field.2 other →
      ∀ p, shape.put field.1 other p = shape.put field.1 field.2 p)
    (hnodup : (fields.map Prod.fst).Nodup) {p : Parts}
    (hnull : ∀ name ∈ names, name ∈ fields.map Prod.fst → shape.put name .null p = .ok p) :
    shape.putAll others p = shape.putAll fields p := by
  induction hdrops generalizing p with
  | nil => rfl
  | @keep name value other fields others hchange _ ih =>
    have hfield := hchanges (name, value) List.mem_cons_self other hchange p
    rw [List.map_cons, List.nodup_cons] at hnodup
    rw [putAll, putAll, hfield]
    by_cases hknown : name ∈ shape.fields
    · rw [if_pos hknown, if_pos hknown]
      cases hput : shape.put name value p with
      | error fault => rfl
      | ok q =>
        refine ih (fun field hfield => hchanges field (List.mem_cons_of_mem _ hfield)) hnodup.2 ?_
        intro dropped hdropped hmem
        have hne : dropped ≠ name := fun heq => hnodup.1 (heq ▸ hmem)
        exact h.put_null_of_put hne (hnull dropped hdropped (List.mem_cons_of_mem _ hmem)) hput
    · rw [if_neg hknown, if_neg hknown]
  | @drop name fields others hname _ ih =>
    rw [List.map_cons, List.nodup_cons] at hnodup
    have hskip := hnull name hname List.mem_cons_self
    rw [ih (fun field hfield => hchanges field (List.mem_cons_of_mem _ hfield)) hnodup.2
      fun dropped hdropped hmem => hnull dropped hdropped (List.mem_cons_of_mem _ hmem)]
    show _ = shape.putAll ((name, .null) :: fields) p
    rw [putAll, if_pos (h.known name hname), hskip]

theorem readObject_of_drops (h : Nullable shape Sets names fill)
    {fields others : List (String × Json.Value)} (hdrops : Drops names Changes fields others)
    (hchanges : ∀ field ∈ fields, ∀ other, Changes field.1 field.2 other →
      ∀ p, shape.put field.1 other p = shape.put field.1 field.2 p)
    (hincreasing : fields.Pairwise (·.1 < ·.1)) :
    shape.readObject others = shape.readObject fields := by
  have hnodup : (fields.map Prod.fst).Nodup := List.pairwise_map.mpr (hincreasing.imp ne_of_lt)
  rw [h.readObject_eq, h.readObject_eq, h.putAll_of_drops hdrops hchanges hnodup
    fun name hname _ => h.put_null name hname]

end Nullable
end RecordShape

/-! ## Options -/

namespace OptionDecl

/-- The fields of an option that may be null. -/
def nullable : List String := ["short", "default"]

/-- What is known with these fields read. -/
def Parts.fill (p : Parts) : Parts :=
  { p with short := some (p.short.getD none), default := some (p.default.getD none) }

theorem nullable_shape : shape.Nullable Sets nullable Parts.fill where
  toSeparate := separate_shape
  known := by decide
  fill_comm hf p := by cases hf <;> rfl
  put_null := by
    intro name hname
    simp only [nullable, List.mem_cons, List.not_mem_nil, or_false] at hname
    rcases hname with rfl | rfl
    · rfl
    · rfl
  finish_fill _ := rfl

/-- An option without some of its nulls. -/
inductive Drops : Json.Value → Json.Value → Prop
  | same (value : Json.Value) : Drops value value
  | object {fields others : List (String × Json.Value)} :
    RecordShape.Drops nullable (fun _ => Eq) fields others → Drops (.object fields) (.object others)

theorem ofJson_of_drops {value other : Json.Value} (hordered : value.IsOrdered)
    (h : Drops value other) : ofJson other = ofJson value := by
  cases h with
  | same => rfl
  | object hdrops =>
    cases hordered with
    | object hincreasing _ =>
      refine nullable_shape.readObject_of_drops hdrops ?_ hincreasing
      intro field _ other heq p
      rw [heq]

theorem each_of_drops {items others : List Json.Value} (hordered : ∀ item ∈ items, item.IsOrdered)
    (h : List.Forall₂ Drops items others) : Field.each ofJson others = Field.each ofJson items := by
  induction h with
  | nil => rfl
  | cons hitem _ ih =>
    rw [List.forall_mem_cons] at hordered
    rw [Field.each, Field.each, ofJson_of_drops hordered.1 hitem, ih hordered.2]

end OptionDecl

/-! ## Commands and members -/

namespace CommandDecl

/-- The fields of a command and of a member that may be null. -/
def nullable : List String := ["arg"]

def Parts.fill (p : Parts) : Parts := { p with arg := some (p.arg.getD none) }

theorem nullable_shape : shape.Nullable Sets nullable Parts.fill where
  toSeparate := separate_shape
  known := by decide
  fill_comm hf p := by cases hf <;> rfl
  put_null := by
    intro name hname
    obtain rfl := List.mem_singleton.mp hname
    rfl
  finish_fill _ := rfl

/-- A field of a command whose options are without some of their nulls. -/
inductive Drops : String → Json.Value → Json.Value → Prop
  | same (name : String) (value : Json.Value) : Drops name value value
  | options {items others : List Json.Value} : List.Forall₂ OptionDecl.Drops items others →
    Drops "option" (.array items) (.array others)

theorem put_of_drops {name : String} {value other : Json.Value} (hordered : value.IsOrdered)
    (h : Drops name value other) (p : Parts) : put name other p = put name value p := by
  cases h with
  | same => rfl
  | @options items others hitems =>
    cases hordered with
    | array hall =>
      have hread : Field.listOf OptionDecl.ofJson (.array others) =
          Field.listOf OptionDecl.ofJson (.array items) := OptionDecl.each_of_drops hall hitems
      show (Field.listOf OptionDecl.ofJson _).map _ = _
      rw [hread]
      rfl

end CommandDecl

theorem MemberDecl.nullable_shape :
    shape.Nullable CommandDecl.Sets CommandDecl.nullable CommandDecl.Parts.fill where
  toSeparate := separate_shape
  known := by decide
  fill_comm := CommandDecl.nullable_shape.fill_comm
  put_null := CommandDecl.nullable_shape.put_null
  finish_fill _ := rfl

/-! ## Declarations -/

namespace GroupEntry

/-- A key of an entry of a group, with the member of that name without some of its nulls. -/
inductive DropsField : String × Json.Value → String × Json.Value → Prop
  | same (field : String × Json.Value) : DropsField field field
  | member {name : String} {fields others : List (String × Json.Value)} : name ≠ Name.help →
    RecordShape.Drops CommandDecl.nullable CommandDecl.Drops fields others →
    DropsField (name, .object fields) (name, .object others)

/-- An entry of a group without some of the nulls of its member.  An entry has one member, but one
that is at fault may have more. -/
inductive Drops : Json.Value → Json.Value → Prop
  | same (value : Json.Value) : Drops value value
  | object {fields others : List (String × Json.Value)} : List.Forall₂ DropsField fields others →
    Drops (.object fields) (.object others)

theorem ofField_of_drops {group : String} {field other : String × Json.Value}
    (hordered : field.2.IsOrdered) (h : DropsField field other) :
    ofField group other.1 other.2 = ofField group field.1 field.2 := by
  cases h with
  | same => rfl
  | @member name fields others hname hdrops =>
    cases hordered with
    | object hincreasing hfields =>
      have hread : MemberDecl.ofJson (.object others) = MemberDecl.ofJson (.object fields) :=
        MemberDecl.nullable_shape.readObject_of_drops hdrops
          (fun field hfield other hchange =>
            CommandDecl.put_of_drops (hfields field hfield) hchange) hincreasing
      show ofField group name (.object others) = ofField group name (.object fields)
      rw [ofField, ofField, if_neg hname, if_neg hname, hread]

theorem ofJson_of_drops {group : String} {value other : Json.Value} (hordered : value.IsOrdered)
    (h : Drops value other) : ofJson group other = ofJson group value := by
  cases h with
  | same => rfl
  | object hfields =>
    cases hordered with
    | object _ hvalues =>
      cases hfields with
      | nil => rfl
      | cons hfield hrest =>
        cases hrest with
        | nil => exact ofField_of_drops (hvalues _ List.mem_cons_self) hfield
        | cons _ hrest =>
          -- Only the number of keys is reported.
          show Except.error (Fault.entryKeys group (_ + 1 + 1)) = _
          rw [← hrest.length_eq]
          rfl

theorem all_of_drops {group : String} {items others : List Json.Value}
    (hordered : ∀ item ∈ items, item.IsOrdered) (h : List.Forall₂ Drops items others) :
    all group others = all group items := by
  induction h with
  | nil => rfl
  | cons hitem _ ih =>
    rw [List.forall_mem_cons] at hordered
    rw [all, all, ofJson_of_drops hordered.1 hitem, ih hordered.2]

end GroupEntry

namespace Declaration

/-- A declaration whose records are without some of their nulls. -/
inductive Drops : Json.Value → Json.Value → Prop
  | flat {fields others : List (String × Json.Value)} :
    RecordShape.Drops CommandDecl.nullable CommandDecl.Drops fields others →
    Drops (.object fields) (.object others)
  | group {items others : List Json.Value} : List.Forall₂ GroupEntry.Drops items others →
    Drops (.array items) (.array others)

theorem ofJson_of_drops {name : String} {value other : Json.Value} (hordered : value.IsOrdered)
    (h : Drops value other) : ofJson name other = ofJson name value := by
  cases h with
  | flat hdrops =>
    cases hordered with
    | object hincreasing hfields =>
      have hread := CommandDecl.nullable_shape.readObject_of_drops hdrops
        (fun field hfield other hchange =>
          CommandDecl.put_of_drops (hfields field hfield) hchange) hincreasing
      rw [ofJson, ofJson, hread]
  | group hitems =>
    cases hordered with
    | array hall => rw [ofJson, ofJson, GroupEntry.all_of_drops hall hitems]

end Declaration

/-! ## Other nulls -/

/-- The fields of a record of which one is set to null that may not be, or is changed in its
value. -/
inductive RecordShape.Spoils (names : List String)
    (Changes : String → Json.Value → Json.Value → Prop) :
    List (String × Json.Value) → List (String × Json.Value) → Prop
  | here {name : String} (fields : List (String × Json.Value)) : name ∉ names →
    RecordShape.Spoils names Changes fields (Json.Value.insertField name .null fields)
  | inside {name : String} {value other : Json.Value} (front back : List (String × Json.Value)) :
    Changes name value other →
    RecordShape.Spoils names Changes (front ++ (name, value) :: back)
      (front ++ (name, other) :: back)

/-- An option with a null that it may not have. -/
inductive OptionDecl.Spoils : Json.Value → Json.Value → Prop
  | object {fields others : List (String × Json.Value)} :
    RecordShape.Spoils nullable (fun _ _ _ => False) fields others →
    Spoils (.object fields) (.object others)

/-- A field of a command one of whose options has a null that it may not have. -/
inductive CommandDecl.Spoils : String → Json.Value → Json.Value → Prop
  | option {value other : Json.Value} (front back : List Json.Value) :
    OptionDecl.Spoils value other →
    Spoils "option" (.array (front ++ value :: back)) (.array (front ++ other :: back))

/-- A key of an entry of a group with a null that it may not have. -/
inductive GroupEntry.SpoilsField : String → Json.Value → Json.Value → Prop
  | help (value : Json.Value) : SpoilsField Name.help value .null
  | member {name : String} {fields others : List (String × Json.Value)} : name ≠ Name.help →
    RecordShape.Spoils CommandDecl.nullable CommandDecl.Spoils fields others →
    SpoilsField name (.object fields) (.object others)

/-- An entry of a group with a null that it may not have. -/
inductive GroupEntry.Spoils : Json.Value → Json.Value → Prop
  | object {name : String} {value other : Json.Value} (front back : List (String × Json.Value)) :
    SpoilsField name value other →
    Spoils (.object (front ++ (name, value) :: back)) (.object (front ++ (name, other) :: back))

/-- A declaration in one of whose records a field is set to null that may not be. -/
inductive Declaration.Spoils : Json.Value → Json.Value → Prop
  | flat {fields others : List (String × Json.Value)} :
    RecordShape.Spoils CommandDecl.nullable CommandDecl.Spoils fields others →
    Spoils (.object fields) (.object others)
  | group {value other : Json.Value} (front back : List Json.Value) :
    GroupEntry.Spoils value other →
    Spoils (.array (front ++ value :: back)) (.array (front ++ other :: back))

namespace Grammar

/-- A record is outside its grammar once it is spoilt. -/
theorem not_keyed_of_spoils {rules : List FieldRule} {names : List String}
    {Changes : String → Json.Value → Json.Value → Prop} {fields others : List (String × Json.Value)}
    (hnull : ∀ rule ∈ rules, rule.allows .null → rule.name ∈ names)
    (hchanges : ∀ rule ∈ rules, ∀ value other, Changes rule.name value other → ¬ rule.allows other)
    (h : RecordShape.Spoils names Changes fields others) : ¬ Keyed rules others := by
  intro hkeyed
  cases h with
  | @here name fields hname =>
    obtain ⟨rule, hrule, hsame, hallows⟩ :=
      hkeyed.1 _ (Json.Value.mem_insertField_self name .null fields)
    have hsame : rule.name = name := hsame
    have hmem : rule.name ∈ names := hnull rule hrule hallows
    rw [hsame] at hmem
    exact hname hmem
  | @inside name value other front back hchange =>
    obtain ⟨rule, hrule, hsame, hallows⟩ :=
      hkeyed.1 (name, other) (List.mem_append_right _ List.mem_cons_self)
    have hsame : rule.name = name := hsame
    rw [← hsame] at hchange
    exact hchanges rule hrule value other hchange hallows

theorem not_isRecord_of_spoils {value other : Json.Value} (h : OptionDecl.Spoils value other) :
    ¬ IsRecord optionRules other := by
  intro hrecord
  cases h with
  | object hspoils =>
    cases hrecord with
    | keyed hkeyed =>
      refine not_keyed_of_spoils ?_ (fun _ _ _ _ h => h.elim) hspoils hkeyed
      simp [optionRules, OptionDecl.nullable, IsText, IsTruth, IsHelpText, IsListOf]

/-- The rules of commands and of members allow null for the same field. -/
theorem name_mem_nullable {rule : FieldRule} (hrule : rule ∈ memberRules)
    (hallows : rule.allows .null) : rule.name ∈ CommandDecl.nullable := by
  revert rule
  simp [memberRules, commandRules, CommandDecl.nullable, IsText, IsTruth, IsHelpText, IsListOf]

theorem not_allows_of_spoils {rule : FieldRule} (hrule : rule ∈ memberRules)
    {value other : Json.Value} (h : CommandDecl.Spoils rule.name value other) :
    ¬ rule.allows other := by
  intro hallows
  generalize hname : rule.name = name at h
  cases h with
  | @option item spoilt front back hspoils =>
    have hlist : IsListOf (IsRecord optionRules) (.array (front ++ spoilt :: back)) := by
      revert rule
      simp [memberRules, commandRules]
    obtain ⟨items, heq, hall⟩ := hlist
    cases heq
    exact not_isRecord_of_spoils hspoils (hall _ (List.mem_append_right _ List.mem_cons_self))

theorem not_keyed_members_of_spoils {rules : List FieldRule}
    (hrules : ∀ rule ∈ rules, rule ∈ memberRules) {fields others : List (String × Json.Value)}
    (h : RecordShape.Spoils CommandDecl.nullable CommandDecl.Spoils fields others) :
    ¬ Keyed rules others :=
  not_keyed_of_spoils (fun rule hrule => name_mem_nullable (hrules rule hrule))
    (fun rule hrule _ _ => not_allows_of_spoils (hrules rule hrule)) h

/-- An entry has no other key than the one of its member or of its help. -/
theorem IsEntry.of_mem {fields : List (String × Json.Value)} (h : IsEntry (.object fields))
    {field : String × Json.Value} (hmem : field ∈ fields) : IsEntry (.object [field]) := by
  cases h with
  | help hhelp =>
    obtain rfl := List.mem_singleton.mp hmem
    exact .help hhelp
  | member hname hrecord =>
    obtain rfl := List.mem_singleton.mp hmem
    exact .member hname hrecord

theorem not_isEntry_of_spoils {value other : Json.Value} (h : GroupEntry.Spoils value other) :
    ¬ IsEntry other := by
  intro hentry
  cases h with
  | @object name value other front back hspoils =>
    have hentry : IsEntry (.object [(name, other)]) :=
      hentry.of_mem (List.mem_append_right _ List.mem_cons_self)
    cases hspoils with
    | help value =>
      cases hentry with
      | help hhelp => simp [IsHelpText, IsText, IsListOf] at hhelp
      | member hname _ => exact hname rfl
    | member hname hspoils =>
      cases hentry with
      | help _ => exact hname rfl
      | member _ hrecord =>
        cases hrecord with
        | keyed hkeyed => exact not_keyed_members_of_spoils (fun _ hrule => hrule) hspoils hkeyed

theorem not_isDeclaration_of_spoils {value other : Json.Value}
    (h : Declaration.Spoils value other) : ¬ IsDeclaration other := by
  intro hdecl
  cases h with
  | flat hspoils =>
    cases hdecl with
    | command hkeyed =>
      exact not_keyed_members_of_spoils (fun _ hrule => List.mem_cons_of_mem _ hrule) hspoils hkeyed
  | group front back hspoils =>
    cases hdecl with
    | group hitems =>
      exact not_isEntry_of_spoils hspoils (hitems _ (List.mem_append_right _ List.mem_cons_self))

end Grammar

namespace Declaration

/-- Nulls may be left out of the fields that may be null, at any places of a declaration at once,
and the declaration is read as before, with the same fault if it has one; so the entry is compiled
as before.  Any other field, known or not, is at fault as soon as it is set to null somewhere. -/
theorem nulls_are_absences (name : String) {value other : Json.Value} :
    (value.IsOrdered → Drops value other →
      ofJson name other = ofJson name value ∧
        ∀ r, Schema.compileEntry r name other = Schema.compileEntry r name value) ∧
    (Spoils value other → ∃ fault, ofJson name other = .error fault ∧ fault.kind = .shape) := by
  constructor
  · intro hordered hdrops
    have hread : ofJson name other = ofJson name value := ofJson_of_drops hordered hdrops
    refine ⟨hread, fun r => ?_⟩
    rw [Schema.compileEntry, Schema.compileEntry, TopCommand.ofJson, TopCommand.ofJson, hread]
  · intro hspoils
    cases hread : ofJson name other with
    | ok decl =>
      exact absurd (exists_ofJson_iff.mp ⟨decl, hread⟩) (not_isDeclaration_of_spoils hspoils)
    | error fault => exact ⟨fault, rfl, kind_of_ofJson_error hread⟩

/-- An option whose letter and default are null. -/
def levelFields : List (String × Json.Value) :=
  [("default", .null), ("help", .string "Level"), ("name", .string "level"), ("short", .null),
    ("type", .string "int")]

/-- A group with one member, which has one option and, if it is given, the field `arg`. -/
def trace (arg option : List (String × Json.Value)) : Json.Value :=
  .array [.object [("help", .string "Tracing")],
    .object [("start", .object (arg ++ [("desc", .string "Starts"), ("help", .string "Starts"),
      ("option", .array [.object option])]))]]

/-- The null of the member and one of the two of the option are left out.  Where `hide` is set to
null the group is at fault. -/
theorem nulls_are_absences_trace :
    (trace [("arg", .null)] levelFields).IsOrdered ∧
      ofJson "trace" (trace [] levelFields.tail) =
        ofJson "trace" (trace [("arg", .null)] levelFields) ∧
      ∃ fault, ofJson "trace" (trace [] (Json.Value.insertField "hide" .null levelFields)) =
        .error fault ∧ fault.kind = .shape := by
  have hordered : (trace [("arg", .null)] levelFields).IsOrdered :=
    Json.Value.isOrdered_iff.mpr rfl
  have hoption : OptionDecl.Drops (.object levelFields) (.object levelFields.tail) :=
    .object (.drop (by decide) (.keep rfl (.keep rfl (.keep rfl (.keep rfl .nil)))))
  have hdrops : Drops (trace [("arg", .null)] levelFields) (trace [] levelFields.tail) :=
    .group (.cons (.same _) (.cons (.object (.cons (.member (by decide)
      (.drop (by decide) (.keep (.same _ _) (.keep (.same _ _)
        (.keep (.options (.cons hoption .nil)) .nil))))) .nil)) .nil))
  have hspoils : Spoils (trace [] levelFields)
      (trace [] (Json.Value.insertField "hide" .null levelFields)) :=
    .group [_] [] (.object [] [] (.member (by decide) (.inside [_, _] []
      (.option [] [] (.object (.here levelFields (by decide)))))))
  exact ⟨hordered, ((nulls_are_absences "trace").1 hordered hdrops).1,
    (nulls_are_absences "trace").2 hspoils⟩

end Declaration
end CommandSchema
