/-
When a record is read.

A record is read when each of its fields is known and is read after the ones before it, and the
fields together make a record.

Whether a field can be read does not depend on those before it, and whether the fields are enough
depends only on their names.  A shape of which both is true by the rules of a grammar (`Follows`)
therefore reads exactly the records of these rules, in either form (`Follows.exists_read_iff`).
-/
import CommandSchema.Declaration.Record
import CommandSchema.Proofs.Declaration.Grammar

namespace CommandSchema
namespace RecordShape

variable {Parts α : Type} {shape : RecordShape Parts α}

theorem putAll_nil_eq_ok_iff {p q : Parts} : shape.putAll [] p = .ok q ↔ q = p := by
  simp [putAll, eq_comm]

theorem putAll_cons_eq_ok_iff {name : String} {value : Json.Value}
    {rest : List (String × Json.Value)} {p q : Parts} :
    shape.putAll ((name, value) :: rest) p = .ok q ↔
      name ∈ shape.fields ∧ ∃ next, shape.put name value p = .ok next ∧
        shape.putAll rest next = .ok q := by
  rw [putAll]
  by_cases hknown : name ∈ shape.fields
  · rw [if_pos hknown, and_iff_right hknown]
    cases shape.put name value p with
    | error fault => simp
    | ok next => simp
  · simp [hknown]

theorem readObject_eq_ok_iff {fields : List (String × Json.Value)} {record : α} :
    shape.readObject fields = .ok record ↔
      ∃ p, shape.putAll fields shape.empty = .ok p ∧ shape.finish p = .ok record := by
  rw [readObject]
  cases shape.putAll fields shape.empty with
  | error fault => simp
  | ok p =>
    cases hfinish : shape.finish p with
    | error place => simp [hfinish]
    | ok found => simp [hfinish]

theorem readList_eq_ok_iff {items : List Json.Value} {record : α} :
    shape.readList items = .ok record ↔
      (∃ p, shape.putAll (shape.fields.zip items) shape.empty = .ok p ∧
        shape.finish p = .ok record) ∧ items.length ≤ shape.fields.length := by
  rw [readList]
  cases shape.putAll (shape.fields.zip items) shape.empty with
  | error fault => simp
  | ok p =>
    cases hfinish : shape.finish p with
    | error place => simp [hfinish]
    | ok found =>
      by_cases hlong : shape.fields.length < items.length
      · simp [hfinish, hlong]
      · simp [hfinish, hlong, Nat.le_of_not_lt hlong]

/-- The fields of a record that is written as a value, in either form. -/
def written (shape : RecordShape Parts α) : Json.Value → List (String × Json.Value)
  | .object fields => fields
  | .array items => shape.fields.zip items
  | _ => []

theorem exists_parts_of_read {value : Json.Value} {record : α} (h : shape.read value = .ok record) :
    ∃ p, shape.putAll (shape.written value) shape.empty = .ok p ∧ shape.finish p = .ok record := by
  cases value with
  | object fields => exact readObject_eq_ok_iff.mp h
  | array items => exact (readList_eq_ok_iff.mp h).1
  | _ => cases h

/-! ## Records of a grammar -/

section Follows

open Grammar

/-- A shape that reads a field exactly as the rule of the field allows, and finishes a record
exactly when every field that has to be there is known. -/
structure Follows (shape : RecordShape Parts α) (rules : List FieldRule)
    (knows : Parts → String → Prop) : Prop where
  fields_eq : shape.fields = rules.map FieldRule.name
  nodup_names : (rules.map FieldRule.name).Nodup
  put_iff : ∀ {rule}, rule ∈ rules → ∀ value p,
    (∃ q, shape.put rule.name value p = .ok q) ↔ rule.allows value
  knows_empty : ∀ name, ¬ knows shape.empty name
  knows_put : ∀ {rule}, rule ∈ rules → ∀ {value p q}, shape.put rule.name value p = .ok q →
    ∀ name, knows q name ↔ name = rule.name ∨ knows p name
  finish_iff : ∀ p, (∃ record, shape.finish p = .ok record) ↔
    ∀ rule ∈ rules, rule.required → knows p rule.name

namespace Follows

variable {rules : List FieldRule} {knows : Parts → String → Prop}

theorem mem_fields_iff (h : Follows shape rules knows) {name : String} :
    name ∈ shape.fields ↔ ∃ rule ∈ rules, rule.name = name := by
  rw [h.fields_eq, List.mem_map]

theorem exists_putAll_iff (h : Follows shape rules knows) {fields : List (String × Json.Value)}
    {p : Parts} :
    (∃ q, shape.putAll fields p = .ok q) ↔
      ∀ field ∈ fields, ∃ rule ∈ rules, rule.name = field.1 ∧ rule.allows field.2 := by
  induction fields generalizing p with
  | nil => simp [putAll_nil_eq_ok_iff]
  | cons field rest ih =>
    obtain ⟨name, value⟩ := field
    rw [List.forall_mem_cons]
    constructor
    · rintro ⟨q, hall⟩
      obtain ⟨hknown, next, hput, hrest⟩ := putAll_cons_eq_ok_iff.mp hall
      obtain ⟨rule, hrule, rfl⟩ := h.mem_fields_iff.mp hknown
      exact ⟨⟨rule, hrule, rfl, (h.put_iff hrule value p).mp ⟨next, hput⟩⟩, ih.mp ⟨q, hrest⟩⟩
    · rintro ⟨⟨rule, hrule, rfl, hallows⟩, hrest⟩
      obtain ⟨next, hput⟩ := (h.put_iff hrule value p).mpr hallows
      obtain ⟨q, hall⟩ := ih.mpr hrest
      exact ⟨q, putAll_cons_eq_ok_iff.mpr
        ⟨h.mem_fields_iff.mpr ⟨rule, hrule, rfl⟩, next, hput, hall⟩⟩

theorem knows_of_putAll (h : Follows shape rules knows) {fields : List (String × Json.Value)}
    {p q : Parts} (hall : shape.putAll fields p = .ok q) (name : String) :
    knows q name ↔ name ∈ fields.map Prod.fst ∨ knows p name := by
  induction fields generalizing p with
  | nil =>
    obtain rfl := putAll_nil_eq_ok_iff.mp hall
    simp
  | cons field rest ih =>
    obtain ⟨key, value⟩ := field
    obtain ⟨hknown, next, hput, hrest⟩ := putAll_cons_eq_ok_iff.mp hall
    obtain ⟨rule, hrule, rfl⟩ := h.mem_fields_iff.mp hknown
    rw [ih hrest, h.knows_put hrule hput, List.map_cons, List.mem_cons, or_assoc, or_left_comm]

/-- The fields of a record, whichever form they have been written in. -/
theorem exists_putAll_finish_iff (h : Follows shape rules knows)
    {fields : List (String × Json.Value)} :
    (∃ record p, shape.putAll fields shape.empty = .ok p ∧ shape.finish p = .ok record) ↔
      Keyed rules fields := by
  have hknown : ∀ {p}, shape.putAll fields shape.empty = .ok p → ∀ name,
      knows p name ↔ name ∈ fields.map Prod.fst := by
    intro p hall name
    rw [h.knows_of_putAll hall, or_iff_left (h.knows_empty name)]
  constructor
  · rintro ⟨record, p, hall, hfinish⟩
    refine ⟨h.exists_putAll_iff.mp ⟨p, hall⟩, fun rule hrule hrequired => ?_⟩
    exact (hknown hall rule.name).mp ((h.finish_iff p).mp ⟨record, hfinish⟩ rule hrule hrequired)
  · rintro ⟨hallowed, hpresent⟩
    obtain ⟨p, hall⟩ := h.exists_putAll_iff.mpr hallowed
    have hcomplete : ∀ rule ∈ rules, rule.required → knows p rule.name :=
      fun rule hrule hrequired => (hknown hall rule.name).mpr (hpresent rule hrule hrequired)
    obtain ⟨record, hfinish⟩ := (h.finish_iff p).mpr hcomplete
    exact ⟨record, p, hall, hfinish⟩

theorem exists_readObject_iff (h : Follows shape rules knows)
    {fields : List (String × Json.Value)} :
    (∃ record, shape.readObject fields = .ok record) ↔ Keyed rules fields := by
  simp only [readObject_eq_ok_iff]
  exact h.exists_putAll_finish_iff

theorem exists_readList_iff (h : Follows shape rules knows) {items : List Json.Value} :
    (∃ record, shape.readList items = .ok record) ↔ Positional rules items := by
  simp only [readList_eq_ok_iff, exists_and_right]
  rw [h.exists_putAll_finish_iff, h.fields_eq, List.length_map, keyed_zip_iff h.nodup_names]

theorem exists_read_iff (h : Follows shape rules knows) {value : Json.Value} :
    (∃ record, shape.read value = .ok record) ↔ IsRecord rules value := by
  cases value with
  | object fields =>
    rw [read, h.exists_readObject_iff]
    exact ⟨.keyed, fun | .keyed hkeyed => hkeyed⟩
  | array items =>
    rw [read, h.exists_readList_iff]
    exact ⟨.positional, fun | .positional hpositional => hpositional⟩
  | null => exact ⟨nofun, nofun⟩
  | bool truth => exact ⟨nofun, nofun⟩
  | number n => exact ⟨nofun, nofun⟩
  | string text => exact ⟨nofun, nofun⟩

end Follows
end Follows

end RecordShape
end CommandSchema
