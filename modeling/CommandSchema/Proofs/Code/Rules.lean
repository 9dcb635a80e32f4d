/-
What the rule and the field of an option tell of it.

A text that shows where it ends can be split off whatever stands behind it (`SelfDelimiting`).  What
stands between the commas of a rule are such texts, except for the name of the field, which is known
by then from the name of the option.  So a rule tells everything but the default
(`rule_eq_rule_iff`).  The field tells the default, as it is read in the way that its type says
(`default_eq_of_field_eq`).
-/
import CommandSchema.Proofs.Code.FieldValues

namespace CommandSchema
namespace Code

/-! ## Texts that show where they end -/

/-- Equal texts that begin with one of these each begin with the same one and have the same rest. -/
def SelfDelimiting {α : Type} (f : α → String) : Prop :=
  ∀ (a b : α) (s t : List Char), (f a).toList ++ s = (f b).toList ++ t → a = b ∧ s = t

section SelfDelimiting

variable {α β : Type} {f : α → String}

/-- A text that some reader finds whatever follows shows where it ends. -/
theorem SelfDelimiting.of_read {read : List Char → Option (α × List Char)}
    (h : ∀ a rest, read ((f a).toList ++ rest) = some (a, rest)) : SelfDelimiting f := by
  intro a b s t heq
  have hread : some (a, s) = some (b, t) := by rw [← h a s, heq, h b t]
  exact Prod.mk.inj (Option.some.inj hread)

theorem SelfDelimiting.comp (h : SelfDelimiting f) {g : β → α} (hg : Function.Injective g) :
    SelfDelimiting fun b => f (g b) := by
  intro a b s t heq
  obtain ⟨hsame, hrest⟩ := h (g a) (g b) s t heq
  exact ⟨hg hsame, hrest⟩

theorem SelfDelimiting.comma (h : SelfDelimiting f) {a b : α} {s t : List Char}
    (heq : (f a).toList ++ (", ".toList ++ s) = (f b).toList ++ (", ".toList ++ t)) :
    a = b ∧ s = t := by
  obtain ⟨hsame, hrest⟩ := h a b _ _ heq
  exact ⟨hsame, List.append_cancel_left hrest⟩

end SelfDelimiting

theorem selfDelimiting_literal : SelfDelimiting literal :=
  .of_read readLiteral_literal

theorem selfDelimiting_literalList : SelfDelimiting literalList :=
  .of_read fun items rest => readList_braces (readAs_literals items) rest

theorem selfDelimiting_truth : SelfDelimiting truth := by
  intro a b s t h
  cases a with
  | true =>
    cases b with
    | true => exact ⟨rfl, List.append_cancel_left h⟩
    | false => exact absurd (List.head_eq_of_cons_eq h) (by decide)
  | false =>
    cases b with
    | true => exact absurd (List.head_eq_of_cons_eq h) (by decide)
    | false => exact ⟨rfl, List.append_cancel_left h⟩

theorem toList_letter_some (c : Char) : (letter (some c)).toList = ['\'', c, '\''] := by
  simp only [letter, String.toList_append, String.toList_singleton]
  rfl

theorem selfDelimiting_letter : SelfDelimiting letter := by
  intro a b s t h
  cases a with
  | none =>
    cases b with
    | none => exact ⟨rfl, List.append_cancel_left h⟩
    | some d =>
      rw [toList_letter_some] at h
      exact absurd (List.head_eq_of_cons_eq h) (by decide)
  | some c =>
    rw [toList_letter_some] at h
    cases b with
    | none => exact absurd (List.head_eq_of_cons_eq h) (by decide)
    | some d =>
      rw [toList_letter_some] at h
      obtain ⟨rfl, hrest⟩ : c = d ∧ s = t := by simpa using h
      exact ⟨rfl, hrest⟩

theorem tag_injective : Function.Injective OptionKind.tag := by
  intro a b h
  cases a <;> cases b <;> first | rfl | exact absurd h (by decide)

/-- No character of a tag has to be escaped. -/
theorem literal_tag (kind : OptionKind) : literal kind.tag = "\"" ++ kind.tag ++ "\"" := by
  cases kind <;> decide

theorem selfDelimiting_tag : SelfDelimiting fun kind : OptionKind => literal kind.tag :=
  selfDelimiting_literal.comp tag_injective

/-! ## Rules and fields -/

/-- A rule tells everything of an option but the default. -/
theorem rule_eq_rule_iff {a b : CommandOption} :
    rule a = rule b ↔ { a with default := b.default } = b := by
  constructor
  · intro h
    have hchars := congrArg String.toList h
    simp only [rule, ← literal_tag, String.intercalate_cons_cons, String.intercalate_singleton,
      String.toList_append, List.append_assoc, List.append_cancel_left_eq] at hchars
    obtain ⟨hname, hchars⟩ := selfDelimiting_literal.comma hchars
    obtain ⟨hshort, hchars⟩ := selfDelimiting_letter.comma hchars
    obtain ⟨hkind, hchars⟩ := selfDelimiting_tag.comma hchars
    obtain ⟨hoptional, hchars⟩ := selfDelimiting_truth.comma hchars
    obtain ⟨hmultiple, hchars⟩ := selfDelimiting_truth.comma hchars
    obtain ⟨hhidden, hchars⟩ := selfDelimiting_truth.comma hchars
    -- The name of the field is not delimited in itself, but it is the name of the option.
    rw [hname] at hchars
    simp only [List.append_cancel_left_eq] at hchars
    obtain ⟨hhelp, hchars⟩ := selfDelimiting_literalList.comma hchars
    obtain ⟨hvariants, -⟩ := selfDelimiting_literalList _ _ _ _ hchars
    rw [hname, hshort, hkind, hvariants, hoptional, hmultiple, hhelp, hhidden]
  · intro h
    rw [← h]
    rfl

theorem default_eq_of_ofDefault_eq {multiple other : Bool} {a b : DefaultValue}
    (h : FieldValue.ofDefault multiple a = .ofDefault other b) : a = b := by
  cases multiple <;> cases other <;> cases a <;> cases b <;> cases h <;> rfl

theorem default_eq_of_field_eq {a b : CommandOption} (ha : a.IsResolved) (hb : b.IsResolved)
    (h : field a = field b) : a.default = b.default := by
  have hread := readField_of_isResolved ha
  rw [h, readField_of_isResolved hb, Option.some.injEq, Prod.mk.injEq, Prod.mk.injEq] at hread
  obtain ⟨-, -, hvalue⟩ := hread
  exact (default_eq_of_ofDefault_eq hvalue).symm

/-- Options with the same rule and the same field are the same, from whatever declarations they
come. -/
theorem eq_of_rule_of_field {a b : CommandOption} (ha : a.IsResolved) (hb : b.IsResolved)
    (hrule : rule a = rule b) (hfield : field a = field b) : a = b := by
  have hrest : { a with default := b.default } = b := rule_eq_rule_iff.mp hrule
  rw [← default_eq_of_field_eq ha hb hfield] at hrest
  exact hrest

/-- Variants and a default that are declared in two ways. -/
def impliedMode : OptionDecl :=
  { name := "mode", type := "fast|slow", help := .line "How to burn" }

def spelledMode : OptionDecl :=
  { name := "mode", type := " fast | slow", default := some (.string "fast"),
    help := .lines ["How to burn"] }

def fastMode : CommandOption :=
  { name := "mode", kind := .enum, variants := ["fast", "slow"], default := .str "fast",
    help := ["How to burn"] }

theorem eq_of_rule_of_field_spelledMode :
    ∃ a b, CommandOption.resolve {} "burn" impliedMode = .ok a ∧
      CommandOption.resolve { long := ["size"] } "copy" spelledMode = .ok b ∧
      rule a = rule b ∧ field a = field b ∧ a = b := by
  have himplied : CommandOption.resolve {} "burn" impliedMode = .ok fastMode := rfl
  have hspelled : CommandOption.resolve { long := ["size"] } "copy" spelledMode =
      .ok fastMode := rfl
  refine ⟨fastMode, fastMode, himplied, hspelled, rfl, rfl, ?_⟩
  exact eq_of_rule_of_field ⟨_, _, _, himplied⟩ ⟨_, _, _, hspelled⟩ rfl rfl

end Code
end CommandSchema
