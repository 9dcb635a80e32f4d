/-
The two forms of a record.

A list is read one field after the other in their declared order, and an object in the order of its
keys.  Since fields may come in any order, a list is the same record as the object that pairs the
names of the first fields with its items (`Separate.read_array`).  An option may be restated so
inside a member, in either direction (`OptionDecl.Restates`), and the member stays the same.
-/
import CommandSchema.Proofs.Declaration.FieldOrder

namespace CommandSchema
namespace RecordShape

variable {Parts α : Type} {shape : RecordShape Parts α} {Sets : String → (Parts → Parts) → Prop}

theorem sublist_map_fst_zip {β : Type} (names : List String) (items : List β) :
    ((names.zip items).map Prod.fst).Sublist names := by
  induction names generalizing items with
  | nil => exact List.Sublist.slnil
  | cons name names ih =>
    cases items with
    | nil => exact List.nil_sublist _
    | cons item items => exact (ih items).cons_cons name

/-- A list with no more items than the record has fields is read like the object that pairs the
names of the first fields with its items. -/
theorem Separate.read_array (h : Separate shape Sets) (hnodup : shape.fields.Nodup)
    {items : List Json.Value} (hlength : items.length ≤ shape.fields.length) {record : α} :
    shape.read (.array items) = .ok record ↔
      shape.read (.ofFields (shape.fields.zip items)) = .ok record := by
  have hkeys : ((shape.fields.zip items).map Prod.fst).Nodup :=
    hnodup.sublist (sublist_map_fst_zip shape.fields items)
  rw [h.read_ofFields hkeys, readObject_eq_ok_iff, read, readList_eq_ok_iff]
  exact and_iff_left hlength

/-- Values that are the same to a field, as far as they are read. -/
def SameField (shape : RecordShape Parts α) (name : String) (value other : Json.Value) : Prop :=
  ∀ p q, shape.put name value p = .ok q ↔ shape.put name other p = .ok q

theorem putAll_zip_congr {names : List String} {items others : List Json.Value}
    (h : List.Forall₂ (fun field other => shape.SameField field.1 field.2 other)
      (names.zip items) others) {p q : Parts} :
    shape.putAll (names.zip items) p = .ok q ↔ shape.putAll (names.zip others) p = .ok q := by
  induction names generalizing items others p with
  | nil => exact Iff.rfl
  | cons name names ih =>
    cases items with
    | nil =>
      cases h
      exact Iff.rfl
    | cons item items =>
      cases h with
      | cons hitem hrest =>
        rw [List.zip_cons_cons, List.zip_cons_cons, putAll_cons_eq_ok_iff, putAll_cons_eq_ok_iff]
        refine and_congr_right fun _ => exists_congr fun next => ?_
        rw [hitem p next, ih hrest]

theorem read_array_congr {items others : List Json.Value}
    (h : List.Forall₂ (fun field other => shape.SameField field.1 field.2 other)
      (shape.fields.zip items) others) (hlength : items.length ≤ shape.fields.length) {record : α} :
    shape.read (.array items) = .ok record ↔ shape.read (.array others) = .ok record := by
  have hothers : others.length = items.length := by
    rw [← h.length_eq, List.length_zip, Nat.min_eq_right hlength]
  rw [read, read, readList_eq_ok_iff, readList_eq_ok_iff, hothers]
  refine and_congr_left fun _ => exists_congr fun p => ?_
  rw [putAll_zip_congr h]

end RecordShape

/-! ## Options -/

namespace OptionDecl

/-- An option that is written in the other form, or left as it is. -/
inductive Restates : Json.Value → Json.Value → Prop
  | same (value : Json.Value) : Restates value value
  | keyed {items : List Json.Value} : items.length ≤ fields.length →
    Restates (.array items) (.ofFields (fields.zip items))
  | listed {items : List Json.Value} : items.length ≤ fields.length →
    Restates (.ofFields (fields.zip items)) (.array items)

theorem ofJson_array {items : List Json.Value} (h : items.length ≤ fields.length)
    {decl : OptionDecl} :
    ofJson (.array items) = .ok decl ↔ ofJson (.ofFields (fields.zip items)) = .ok decl :=
  separate_shape.read_array (by decide) h

theorem Restates.ofJson_iff {value other : Json.Value} (h : Restates value other)
    {decl : OptionDecl} : ofJson value = .ok decl ↔ ofJson other = .ok decl := by
  cases h with
  | same => exact Iff.rfl
  | keyed hlength => exact ofJson_array hlength
  | listed hlength => exact (ofJson_array hlength).symm

end OptionDecl

/-! ## Members -/

/-- A field of a member in which each option may be written in the other form. -/
inductive MemberDecl.Restates : String → Json.Value → Json.Value → Prop
  | same (name : String) (value : Json.Value) : Restates name value value
  | options {items others : List Json.Value} : List.Forall₂ OptionDecl.Restates items others →
    Restates "option" (.array items) (.array others)

namespace MemberDecl

theorem listOf_of_restates {items others : List Json.Value}
    (h : List.Forall₂ OptionDecl.Restates items others) {options : List OptionDecl} :
    Field.listOf OptionDecl.ofJson (.array items) = .ok options ↔
      Field.listOf OptionDecl.ofJson (.array others) = .ok options := by
  show Field.each _ items = _ ↔ Field.each _ others = _
  induction h generalizing options with
  | nil => exact Iff.rfl
  | cons hitem _ ih =>
    rw [Field.each_eq_ok_iff, Field.each_eq_ok_iff, List.forall₂_cons_left_iff,
      List.forall₂_cons_left_iff]
    simp only [hitem.ofJson_iff, ← Field.each_eq_ok_iff, ih]

theorem Restates.sameField {name : String} {value other : Json.Value}
    (h : Restates name value other) : shape.SameField name value other := by
  intro p q
  cases h with
  | same => exact Iff.rfl
  | options hitems =>
    show Except.map _ _ = _ ↔ Except.map _ _ = _
    simp only [Outcome.map_eq_ok_iff, listOf_of_restates hitems]

end MemberDecl

namespace Declaration

/-- A list is read as an option or as a member exactly when the object is that pairs the names of
the first fields with its items, and as the same one.  The options of the member may be written in
either form, the one or the other in the list and in the object. -/
theorem positional_iff_keyed :
    (∀ items : List Json.Value, items.length ≤ 8 → ∀ decl,
      OptionDecl.ofJson (.array items) = .ok decl ↔
        OptionDecl.ofJson (.ofFields (OptionDecl.fields.zip items)) = .ok decl) ∧
    ∀ items others : List Json.Value, items.length ≤ 5 →
      List.Forall₂ (fun field other => MemberDecl.Restates field.1 field.2 other)
        (MemberDecl.fields.zip items) others → ∀ decl,
      MemberDecl.ofJson (.array items) = .ok decl ↔
        MemberDecl.ofJson (.ofFields (MemberDecl.fields.zip others)) = .ok decl := by
  refine ⟨fun items hlength decl => OptionDecl.ofJson_array hlength, ?_⟩
  intro items others hlength hrestates decl
  have hsame : List.Forall₂ (fun field other => MemberDecl.shape.SameField field.1 field.2 other)
      (MemberDecl.shape.fields.zip items) others :=
    hrestates.imp fun field other hfield => hfield.sameField
  have hothers : others.length ≤ MemberDecl.shape.fields.length := by
    rw [← hsame.length_eq, List.length_zip]
    exact Nat.min_le_left _ _
  calc MemberDecl.ofJson (.array items) = .ok decl
    _ ↔ MemberDecl.ofJson (.array others) = .ok decl :=
      RecordShape.read_array_congr hsame hlength
    _ ↔ MemberDecl.ofJson (.ofFields (MemberDecl.fields.zip others)) = .ok decl :=
      MemberDecl.separate_shape.read_array (by decide) hothers

/-- The items of an option up to its help, and its fields in the order of their keys. -/
def cableItems : List Json.Value :=
  [.string "cable", .null, .string "str", .bool true, .bool false, .null, .string "c"]

def cableFields : List (String × Json.Value) :=
  [("default", .null), ("help", .string "c"), ("multi", .bool false), ("name", .string "cable"),
    ("optional", .bool true), ("short", .null), ("type", .string "str")]

/-- A member whose one option is a list in the list and an object in the object. -/
theorem positional_iff_keyed_cable :
    ∃ option member,
      OptionDecl.ofJson (.array cableItems) = .ok option ∧
      OptionDecl.ofJson (.object cableFields) = .ok option ∧
      MemberDecl.ofJson (.array [.string "First", .string "h", .null,
        .array [.array cableItems]]) = .ok member ∧
      MemberDecl.ofJson (.object [("arg", .null), ("desc", .string "First"), ("help", .string "h"),
        ("option", .array [.object cableFields])]) = .ok member := by
  have hlength : cableItems.length ≤ OptionDecl.fields.length := by decide
  have hoption : OptionDecl.Restates (.array cableItems) (.object cableFields) := .keyed hlength
  refine ⟨_, _, rfl, (positional_iff_keyed.1 cableItems (by decide) _).mp rfl, rfl, ?_⟩
  exact (positional_iff_keyed.2 [.string "First", .string "h", .null, .array [.array cableItems]]
    [.string "First", .string "h", .null, .array [.object cableFields]] (by decide)
    (.cons (.same _ _) (.cons (.same _ _) (.cons (.same _ _)
      (.cons (.options (.cons hoption .nil)) .nil)))) _).mp rfl

end Declaration
end CommandSchema
