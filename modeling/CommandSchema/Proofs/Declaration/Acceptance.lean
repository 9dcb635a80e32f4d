/-
Which values are options, commands and members.

Each kind of record follows the rules of the grammar (`RecordShape.Follows`), so it is read from
exactly the values that the grammar allows.  Commands and members have their fields in common, and
with them the knowledge of what has been read.
-/
import CommandSchema.Proofs.Declaration.Members

namespace CommandSchema

open Grammar

/-! ## Values of fields -/

namespace Field

theorem exists_text_iff {value : Json.Value} : (∃ s, text value = .ok s) ↔ IsText value := by
  cases value <;> simp [text, IsText]

theorem exists_truth_iff {value : Json.Value} : (∃ b, truth value = .ok b) ↔ IsTruth value := by
  cases value <;> simp [truth, IsTruth]

theorem exists_optionalText_iff {value : Json.Value} :
    (∃ s, optionalText value = .ok s) ↔ IsOptionalText value := by
  cases value <;> simp [optionalText, IsOptionalText, IsText, text, Except.map]

theorem strings?_eq_some_iff {items : List Json.Value} {texts : List String} :
    strings? items = some texts ↔
      List.Forall₂ (fun item text => item = .string text) items texts := by
  induction items generalizing texts with
  | nil => simp [strings?, eq_comm]
  | cons item rest ih =>
    rw [List.forall₂_cons_left_iff]
    cases item <;> simp [strings?, ih, @eq_comm _ texts]

variable {α : Type} {item : Json.Value → Except ShapeFault α}

theorem each_eq_ok_iff {items : List Json.Value} {results : List α} :
    each item items = .ok results ↔
      List.Forall₂ (fun value result => item value = .ok result) items results := by
  induction items generalizing results with
  | nil => simp [each, eq_comm]
  | cons value rest ih =>
    rw [each, List.forall₂_cons_left_iff]
    cases item value with
    | error fault => simp
    | ok result => simp [Outcome.map_eq_ok_iff, ih, @eq_comm _ results]

theorem listOf_eq_ok_iff {value : Json.Value} {results : List α} :
    listOf item value = .ok results ↔
      ∃ items, value = .array items ∧
        List.Forall₂ (fun value result => item value = .ok result) items results := by
  cases value <;> simp [listOf, each_eq_ok_iff]

theorem exists_listOf_iff {allows : Json.Value → Prop}
    (hitem : ∀ value, (∃ result, item value = .ok result) ↔ allows value) {value : Json.Value} :
    (∃ results, listOf item value = .ok results) ↔ IsListOf allows value := by
  simp only [listOf_eq_ok_iff, IsListOf]
  rw [exists_comm]
  refine exists_congr fun items => ?_
  rw [exists_and_left, Outcome.exists_forall₂_iff]
  simp only [hitem]

end Field

namespace HelpText

theorem exists_ofJson_iff {value : Json.Value} :
    (∃ text, ofJson value = .ok text) ↔ IsHelpText value := by
  cases value with
  | array items =>
    have htexts : (∃ texts, Field.strings? items = some texts) ↔ ∀ item ∈ items, IsText item := by
      simp only [Field.strings?_eq_some_iff]
      exact Outcome.exists_forall₂_iff
    simp only [ofJson, IsHelpText, IsText, IsListOf, reduceCtorEq, exists_false, false_or,
      Json.Value.array.injEq, exists_eq_left'] at htexts ⊢
    rw [← htexts]
    cases Field.strings? items <;> simp
  | _ => simp [ofJson, IsHelpText, IsText, IsListOf]

end HelpText

/-! ## Options -/

namespace OptionDecl

/-- Whether a field of an option has been read. -/
def Parts.Knows (p : Parts) (name : String) : Prop :=
  name = "name" ∧ p.name.isSome ∨ name = "short" ∧ p.short.isSome ∨
  name = "type" ∧ p.type.isSome ∨ name = "optional" ∧ p.optional.isSome ∨
  name = "multi" ∧ p.multi.isSome ∨ name = "default" ∧ p.default.isSome ∨
  name = "help" ∧ p.help.isSome ∨ name = "hide" ∧ p.hide.isSome

theorem exists_put_iff {rule : FieldRule} (hrule : rule ∈ optionRules) (value : Json.Value)
    (p : Parts) : (∃ q, put rule.name value p = .ok q) ↔ rule.allows value := by
  simp only [optionRules, List.mem_cons, List.not_mem_nil, or_false] at hrule
  rcases hrule with rfl | rfl | rfl | rfl | rfl | rfl | rfl | rfl
  · exact Outcome.exists_map_iff.trans Field.exists_text_iff
  · exact Outcome.exists_map_iff.trans Field.exists_optionalText_iff
  · exact Outcome.exists_map_iff.trans Field.exists_text_iff
  · exact Outcome.exists_map_iff.trans Field.exists_truth_iff
  · exact Outcome.exists_map_iff.trans Field.exists_truth_iff
  · exact iff_of_true ⟨_, rfl⟩ trivial
  · exact Outcome.exists_map_iff.trans HelpText.exists_ofJson_iff
  · exact Outcome.exists_map_iff.trans Field.exists_truth_iff

theorem knows_of_put {field : String} {value : Json.Value} {p q : Parts}
    (h : put field value p = .ok q) (name : String) :
    q.Knows name ↔ name = field ∨ p.Knows name := by
  unfold put at h
  split at h
  all_goals grind [Parts.Knows, Outcome.map_eq_ok_iff]

theorem exists_finish_iff (p : Parts) :
    (∃ decl, finish p = .ok decl) ↔ ∀ rule ∈ optionRules, rule.required → p.Knows rule.name := by
  have hrequired : (∀ rule ∈ optionRules, rule.required → p.Knows rule.name) ↔
      p.name.isSome ∧ p.type.isSome ∧ p.help.isSome := by
    simp [optionRules, Parts.Knows]
  rw [hrequired, finish]
  cases p.name with
  | none => simp
  | some name =>
    cases p.type with
    | none => simp
    | some type =>
      cases p.help with
      | none => simp
      | some help => simp

theorem follows_shape : shape.Follows optionRules Parts.Knows where
  fields_eq := rfl
  nodup_names := by decide
  put_iff hrule value p := exists_put_iff hrule value p
  knows_empty name := by simp [shape, Parts.Knows]
  knows_put _ _ _ _ h name := knows_of_put h name
  finish_iff := exists_finish_iff

theorem exists_ofJson_iff {value : Json.Value} :
    (∃ decl, ofJson value = .ok decl) ↔ IsRecord optionRules value :=
  follows_shape.exists_read_iff

end OptionDecl

/-! ## Commands and members -/

namespace CommandDecl

/-- Whether a field of a command or a member has been read. -/
def Parts.Knows (p : Parts) (name : String) : Prop :=
  name = "desc" ∧ p.description.isSome ∨ name = "help" ∧ p.help.isSome ∨
  name = "arg" ∧ p.arg.isSome ∨ name = "option" ∧ p.options.isSome ∨
  name = "hidden" ∧ p.hidden.isSome

theorem exists_put_iff {rule : FieldRule} (hrule : rule ∈ memberRules) (value : Json.Value)
    (p : Parts) : (∃ q, put rule.name value p = .ok q) ↔ rule.allows value := by
  simp only [memberRules, commandRules, List.mem_cons, List.not_mem_nil, or_false] at hrule
  rcases hrule with rfl | rfl | rfl | rfl | rfl
  · exact Outcome.exists_map_iff.trans Field.exists_text_iff
  · exact Outcome.exists_map_iff.trans HelpText.exists_ofJson_iff
  · exact iff_of_true ⟨_, rfl⟩ trivial
  · exact Outcome.exists_map_iff.trans
      (Field.exists_listOf_iff fun _ => OptionDecl.exists_ofJson_iff)
  · exact Outcome.exists_map_iff.trans Field.exists_truth_iff

theorem knows_of_put {field : String} {value : Json.Value} {p q : Parts}
    (h : put field value p = .ok q) (name : String) :
    q.Knows name ↔ name = field ∨ p.Knows name := by
  unfold put at h
  split at h
  all_goals grind [Parts.Knows, Outcome.map_eq_ok_iff]

theorem follows_shape : shape.Follows commandRules Parts.Knows where
  fields_eq := rfl
  nodup_names := by decide
  put_iff hrule value p := exists_put_iff (List.mem_cons_of_mem _ hrule) value p
  knows_empty name := by simp [shape, Parts.Knows]
  knows_put _ _ _ _ h name := knows_of_put h name
  finish_iff p := by
    have hrequired : (∀ rule ∈ commandRules, rule.required → p.Knows rule.name) ↔
        p.help.isSome := by
      simp [commandRules, Parts.Knows]
    rw [hrequired]
    cases hhelp : p.help <;> simp [shape, finish, hhelp]

end CommandDecl

namespace MemberDecl

theorem follows_shape : shape.Follows memberRules CommandDecl.Parts.Knows where
  fields_eq := rfl
  nodup_names := by decide
  put_iff hrule value p := CommandDecl.exists_put_iff hrule value p
  knows_empty name := by simp [shape, CommandDecl.Parts.Knows]
  knows_put _ _ _ _ h name := CommandDecl.knows_of_put h name
  finish_iff p := by
    have hrequired : (∀ rule ∈ memberRules, rule.required → p.Knows rule.name) ↔
        p.description.isSome ∧ p.help.isSome := by
      simp [memberRules, commandRules, CommandDecl.Parts.Knows]
    rw [hrequired]
    cases hdescription : p.description <;> cases hhelp : p.help <;>
      simp [shape, finish, hdescription, hhelp]

theorem exists_ofJson_iff {value : Json.Value} :
    (∃ decl, ofJson value = .ok decl) ↔ IsRecord memberRules value :=
  follows_shape.exists_read_iff

end MemberDecl
end CommandSchema
