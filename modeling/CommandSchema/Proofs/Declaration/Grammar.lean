/-
The grammar of declarations.

A record has a rule for each of its fields, in their declared order: the values that the field
allows, and whether it has to be there.  It is written as an object, whose keys are fields and which
has every field that has to be there, or as a list with the values of its first fields, where none
of the others has to be there.

An option is a record, and so is a member of a group.  A flat command has the rules of a member
without the description, and is written as an object only, since a list at the top is a group.
-/
import CommandSchema.Json.Value
import CommandSchema.Name
import Mathlib.Data.List.Forall2
import Mathlib.Data.List.Nodup

namespace CommandSchema
namespace Grammar

/-! ## Values -/

def IsText (value : Json.Value) : Prop := ∃ text, value = .string text

def IsTruth (value : Json.Value) : Prop := ∃ truth, value = .bool truth

def IsOptionalText (value : Json.Value) : Prop := value = .null ∨ IsText value

def IsAny (_ : Json.Value) : Prop := True

def IsListOf (allows : Json.Value → Prop) (value : Json.Value) : Prop :=
  ∃ items, value = .array items ∧ ∀ item ∈ items, allows item

def IsHelpText (value : Json.Value) : Prop := IsText value ∨ IsListOf IsText value

/-! ## Records -/

/-- What a record says of one of its fields. -/
structure FieldRule where
  name : String
  allows : Json.Value → Prop
  required : Bool

/-- A record as an object. -/
def Keyed (rules : List FieldRule) (fields : List (String × Json.Value)) : Prop :=
  (∀ field ∈ fields, ∃ rule ∈ rules, rule.name = field.1 ∧ rule.allows field.2) ∧
    ∀ rule ∈ rules, rule.required → rule.name ∈ fields.map Prod.fst

/-- A record as a list. -/
def Positional (rules : List FieldRule) (items : List Json.Value) : Prop :=
  ∃ given omitted, rules = given ++ omitted ∧
    List.Forall₂ (fun rule item => rule.allows item) given items ∧
    ∀ rule ∈ omitted, rule.required = false

inductive IsRecord (rules : List FieldRule) : Json.Value → Prop
  | keyed {fields : List (String × Json.Value)} :
    Keyed rules fields → IsRecord rules (.object fields)
  | positional {items : List Json.Value} : Positional rules items → IsRecord rules (.array items)

/-! ## Declarations -/

def optionRules : List FieldRule := [
  ⟨"name", IsText, true⟩,
  ⟨"short", IsOptionalText, false⟩,
  ⟨"type", IsText, true⟩,
  ⟨"optional", IsTruth, false⟩,
  ⟨"multi", IsTruth, false⟩,
  ⟨"default", IsAny, false⟩,
  ⟨"help", IsHelpText, true⟩,
  ⟨"hide", IsTruth, false⟩]

def commandRules : List FieldRule := [
  ⟨"help", IsHelpText, true⟩,
  ⟨"arg", IsAny, false⟩,
  ⟨"option", IsListOf (IsRecord optionRules), false⟩,
  ⟨"hidden", IsTruth, false⟩]

def memberRules : List FieldRule := ⟨"desc", IsText, true⟩ :: commandRules

/-- The help of a group, or one of its members. -/
inductive IsEntry : Json.Value → Prop
  | help {value : Json.Value} : IsHelpText value → IsEntry (.object [(Name.help, value)])
  | member {name : String} {value : Json.Value} :
    name ≠ Name.help → IsRecord memberRules value → IsEntry (.object [(name, value)])

inductive IsDeclaration : Json.Value → Prop
  | command {fields : List (String × Json.Value)} :
    Keyed commandRules fields → IsDeclaration (.object fields)
  | group {items : List Json.Value} :
    (∀ item ∈ items, IsEntry item) → IsDeclaration (.array items)

/-! ## Both forms of a record -/

/-- A rule of a name, where no other rule has that name. -/
theorem exists_rule_iff {rules : List FieldRule} (hnodup : (rules.map FieldRule.name).Nodup)
    {rule : FieldRule} (hrule : rule ∈ rules) {value : Json.Value} :
    (∃ other ∈ rules, other.name = rule.name ∧ other.allows value) ↔ rule.allows value := by
  constructor
  · rintro ⟨other, hother, hname, hallows⟩
    obtain rfl : other = rule := List.inj_on_of_nodup_map hnodup hother hrule hname
    exact hallows
  · intro hallows
    exact ⟨rule, hrule, rfl, hallows⟩

/-- Where only the first fields are given, the others have to be such as may be left out. -/
theorem required_append_iff {given omitted : List FieldRule}
    (hnodup : ((given ++ omitted).map FieldRule.name).Nodup) :
    (∀ rule ∈ given ++ omitted, rule.required → rule.name ∈ given.map FieldRule.name) ↔
      ∀ rule ∈ omitted, rule.required = false := by
  rw [List.map_append, List.nodup_append] at hnodup
  obtain ⟨-, -, hdisjoint⟩ := hnodup
  constructor
  · intro hrequired rule hrule
    by_contra hmissed
    rw [Bool.not_eq_false] at hmissed
    have hgiven := hrequired rule (List.mem_append_right _ hrule) hmissed
    exact hdisjoint _ hgiven _ (List.mem_map_of_mem hrule) rfl
  · intro homitted rule hrule hrequired
    rcases List.mem_append.mp hrule with hgiven | hleft
    · exact List.mem_map_of_mem hgiven
    · rw [homitted rule hleft] at hrequired
      cases hrequired

theorem keyed_append_iff {given omitted : List FieldRule} {items : List Json.Value}
    (hnodup : ((given ++ omitted).map FieldRule.name).Nodup)
    (hlength : given.length = items.length) :
    Keyed (given ++ omitted) (((given ++ omitted).map FieldRule.name).zip items) ↔
      List.Forall₂ (fun rule item => rule.allows item) given items ∧
        ∀ rule ∈ omitted, rule.required = false := by
  have hzip : ((given ++ omitted).map FieldRule.name).zip items =
      (given.map FieldRule.name).zip items := by
    rw [List.map_append, ← List.append_nil items, List.zip_append (by simp [hlength]),
      List.zip_nil_right, List.append_nil, List.append_nil]
  have hkeys : ((given.map FieldRule.name).zip items).map Prod.fst = given.map FieldRule.name :=
    List.map_fst_zip (by simp [hlength])
  rw [Keyed, hzip, hkeys, required_append_iff hnodup, List.zip_map_left, List.forall_mem_map,
    List.forall₂_iff_zip]
  refine and_congr_left fun _ => ?_
  simp only [hlength, true_and, Prod.forall, Prod.map_fst, Prod.map_snd, id]
  refine forall₃_congr fun rule item hmem => ?_
  exact exists_rule_iff hnodup (List.mem_append_left _ (List.of_mem_zip hmem).1)

/-- A list is the record that the object is which pairs the names of the fields with its items. -/
theorem keyed_zip_iff {rules : List FieldRule} (hnodup : (rules.map FieldRule.name).Nodup)
    {items : List Json.Value} :
    Keyed rules ((rules.map FieldRule.name).zip items) ∧ items.length ≤ rules.length ↔
      Positional rules items := by
  constructor
  · rintro ⟨hkeyed, hlength⟩
    obtain ⟨given, omitted, rfl, hgiven⟩ :
        ∃ given omitted, rules = given ++ omitted ∧ given.length = items.length :=
      ⟨rules.take items.length, rules.drop items.length, (List.take_append_drop _ _).symm,
        List.length_take_of_le hlength⟩
    obtain ⟨hallowed, homitted⟩ := (keyed_append_iff hnodup hgiven).mp hkeyed
    exact ⟨given, omitted, rfl, hallowed, homitted⟩
  · rintro ⟨given, omitted, rfl, hallowed, homitted⟩
    have hlength : given.length = items.length := hallowed.length_eq
    refine ⟨(keyed_append_iff hnodup hlength).mpr ⟨hallowed, homitted⟩, ?_⟩
    rw [List.length_append]
    omega

end Grammar
end CommandSchema
