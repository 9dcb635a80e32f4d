/-
Objects in order.

A reader gives every object with its keys in increasing order, each of them once
(`isOrdered_settle`).  In such a value there is nothing left to settle (`settle_eq_self`).  No key is
lost on the way, only its earlier values (`mem_keys_settle`).
-/
import CommandSchema.Proofs.Json.Written
import Mathlib.Data.String.Basic

namespace CommandSchema
namespace Json
namespace Value

/-- A value all of whose objects have their keys in increasing order. -/
inductive IsOrdered : Value → Prop
  | null : IsOrdered .null
  | bool (b : Bool) : IsOrdered (.bool b)
  | number (n : Number) : IsOrdered (.number n)
  | string (s : String) : IsOrdered (.string s)
  | array {items : List Value} (h : ∀ item ∈ items, IsOrdered item) : IsOrdered (.array items)
  | object {fields : List (String × Value)} (increasing : fields.Pairwise (·.1 < ·.1))
    (h : ∀ field ∈ fields, IsOrdered field.2) : IsOrdered (.object fields)

/-! ## Insertion -/

theorem insertField_of_forall_lt {key : String} {fields : List (String × Value)}
    (h : ∀ field ∈ fields, field.1 < key) (value : Value) :
    insertField key value fields = fields ++ [(key, value)] := by
  induction fields with
  | nil => rfl
  | cons field fields ih =>
    have hless : field.1 < key := h field List.mem_cons_self
    have hne : key ≠ field.1 := ne_of_gt hless
    have hrest := ih fun other hother => h other (List.mem_cons_of_mem field hother)
    rw [insertField, if_neg hne, if_neg (lt_asymm hless), hrest, List.cons_append]

theorem sortFields_eq_self {fields : List (String × Value)} (h : fields.Pairwise (·.1 < ·.1)) :
    sortFields fields = fields := by
  have hall (sorted rest : List (String × Value)) (h : (sorted ++ rest).Pairwise (·.1 < ·.1)) :
      rest.foldl (fun sorted field => insertField field.1 field.2 sorted) sorted =
        sorted ++ rest := by
    induction rest generalizing sorted with
    | nil => simp
    | cons field rest ih =>
      have hlast : ∀ other ∈ sorted, other.1 < field.1 := fun other hother =>
        (List.pairwise_append.mp h).2.2 other hother field List.mem_cons_self
      rw [List.append_cons] at h
      rw [List.foldl_cons, insertField_of_forall_lt hlast, ih _ h, ← List.append_cons]
  exact hall [] fields h

theorem mem_insertField {key : String} {value : Value} {fields : List (String × Value)}
    {field : String × Value} (h : field ∈ insertField key value fields) :
    field = (key, value) ∨ field ∈ fields := by
  induction fields with
  | nil => exact Or.inl (List.mem_singleton.mp h)
  | cons first fields ih =>
    rw [insertField] at h
    split at h
    · cases h with
      | head => exact Or.inl rfl
      | tail _ h => exact Or.inr (List.mem_cons_of_mem first h)
    split at h
    · cases h with
      | head => exact Or.inl rfl
      | tail _ h => exact Or.inr h
    · cases h with
      | head => exact Or.inr List.mem_cons_self
      | tail _ h => exact (ih h).imp_right (List.mem_cons_of_mem first)

theorem mem_insertField_self (key : String) (value : Value) (fields : List (String × Value)) :
    (key, value) ∈ insertField key value fields := by
  induction fields with
  | nil => exact List.mem_cons_self
  | cons first fields ih =>
    rw [insertField]
    split
    · exact List.mem_cons_self
    split
    · exact List.mem_cons_self
    · exact List.mem_cons_of_mem first ih

theorem pairwise_insertField {fields : List (String × Value)} (h : fields.Pairwise (·.1 < ·.1))
    (key : String) (value : Value) : (insertField key value fields).Pairwise (·.1 < ·.1) := by
  induction fields with
  | nil => exact List.pairwise_singleton _ _
  | cons first fields ih =>
    obtain ⟨hfirst, hrest⟩ := List.pairwise_cons.mp h
    rw [insertField]
    split
    · next heq =>
      exact List.pairwise_cons.mpr ⟨fun other hother => heq ▸ hfirst other hother, hrest⟩
    split
    · next hless =>
      refine List.pairwise_cons.mpr ⟨fun other hother => ?_, h⟩
      cases hother with
      | head => exact hless
      | tail _ hother => exact lt_trans hless (hfirst other hother)
    · next hne hnot =>
      have hless : first.1 < key := lt_of_le_of_ne (not_lt.mp hnot) (Ne.symm hne)
      refine List.pairwise_cons.mpr ⟨fun other hother => ?_, ih hrest⟩
      cases mem_insertField hother with
      | inl heq => exact heq ▸ hless
      | inr hold => exact hfirst other hold

/-- Fields in any order become fields in increasing order, all of them from among the given ones. -/
theorem sortFields_spec (fields : List (String × Value)) :
    (sortFields fields).Pairwise (·.1 < ·.1) ∧ ∀ field ∈ sortFields fields, field ∈ fields := by
  have hall (sorted rest : List (String × Value)) (h : sorted.Pairwise (·.1 < ·.1)) :
      (rest.foldl (fun sorted field => insertField field.1 field.2 sorted) sorted).Pairwise
          (·.1 < ·.1) ∧
        ∀ field ∈ rest.foldl (fun sorted field => insertField field.1 field.2 sorted) sorted,
          field ∈ sorted ∨ field ∈ rest := by
    induction rest generalizing sorted with
    | nil => exact ⟨h, fun field hfield => Or.inl hfield⟩
    | cons first rest ih =>
      obtain ⟨hpairwise, hmem⟩ := ih _ (pairwise_insertField h first.1 first.2)
      refine ⟨hpairwise, fun field hfield => ?_⟩
      cases hmem field hfield with
      | inl hsorted =>
        cases mem_insertField hsorted with
        | inl heq => exact Or.inr (heq ▸ List.mem_cons_self)
        | inr hold => exact Or.inl hold
      | inr hrest => exact Or.inr (List.mem_cons_of_mem first hrest)
  obtain ⟨hpairwise, hmem⟩ := hall [] fields List.Pairwise.nil
  exact ⟨hpairwise, fun field hfield => (hmem field hfield).resolve_left (by simp)⟩

theorem insertField_perm {key : String} {fields : List (String × Value)}
    (h : key ∉ fields.map Prod.fst) (value : Value) :
    (insertField key value fields).Perm ((key, value) :: fields) := by
  induction fields with
  | nil => exact List.Perm.refl _
  | cons first fields ih =>
    rw [List.map_cons, List.mem_cons, not_or] at h
    rw [insertField, if_neg h.1]
    split
    · exact List.Perm.refl _
    · exact ((ih h.2).cons first).trans (List.Perm.swap (key, value) first fields)

/-- Fields with different names are only put in order. -/
theorem sortFields_perm {fields : List (String × Value)} (h : (fields.map Prod.fst).Nodup) :
    (sortFields fields).Perm fields := by
  have hall (sorted rest : List (String × Value)) (h : ((sorted ++ rest).map Prod.fst).Nodup) :
      (rest.foldl (fun sorted field => insertField field.1 field.2 sorted) sorted).Perm
        (sorted ++ rest) := by
    induction rest generalizing sorted with
    | nil => simp
    | cons first rest ih =>
      have hmiddle : (sorted ++ first :: rest).Perm (first :: sorted ++ rest) := List.perm_middle
      have hnodup : ((first :: sorted ++ rest).map Prod.fst).Nodup :=
        (hmiddle.map Prod.fst).nodup_iff.mp h
      have hfree : first.1 ∉ sorted.map Prod.fst := by
        intro hmem
        have hlater : first.1 ∈ (sorted ++ rest).map Prod.fst := by
          rw [List.map_append]
          exact List.mem_append_left _ hmem
        exact (List.nodup_cons.mp hnodup).1 hlater
      have hinserted := (insertField_perm hfree first.2).append_right rest
      rw [List.foldl_cons]
      exact (ih _ ((hinserted.map Prod.fst).nodup_iff.mpr hnodup)).trans
        (hinserted.trans hmiddle.symm)
  exact hall [] fields h

/-! ## Settled values -/

mutual

/-- A reader gives only values in order. -/
theorem isOrdered_settle : (v : Value) → v.settle.IsOrdered
  | .null => .null
  | .bool b => .bool b
  | .number n => .number n
  | .string s => .string s
  | .array items => .array (isOrdered_settleItems items)
  | .object fields =>
    .object (sortFields_spec _).1 fun field hfield =>
      isOrdered_settleFields fields field ((sortFields_spec _).2 field hfield)

theorem isOrdered_settleItems : (items : List Value) → ∀ item ∈ settleItems items, item.IsOrdered
  | [], _, h => nomatch h
  | first :: items, item, h => by
    cases h with
    | head => exact isOrdered_settle first
    | tail _ h => exact isOrdered_settleItems items item h

theorem isOrdered_settleFields :
    (fields : List (String × Value)) → ∀ field ∈ settleFields fields, field.2.IsOrdered
  | [], _, h => nomatch h
  | (key, value) :: fields, field, h => by
    cases h with
    | head => exact isOrdered_settle value
    | tail _ h => exact isOrdered_settleFields fields field h

end

/-- An object with nothing to settle in its values. -/
theorem settle_object_of_settled {fields : List (String × Value)}
    (h : ∀ field ∈ fields, field.2.settle = field.2) :
    settle (.object fields) = .ofFields fields := by
  have hfields : ∀ field ∈ fields, Prod.map id settle field = field := fun field hfield =>
    Prod.ext rfl (h field hfield)
  rw [settle_object, List.map_congr_left hfields, List.map_id']

theorem settle_eq_self {v : Value} (h : v.IsOrdered) : v.settle = v := by
  induction h with
  | null | bool | number | string => rfl
  | array _ ih =>
    rw [settle_array, List.map_congr_left ih, List.map_id']
  | object increasing _ ih =>
    rw [settle_object_of_settled ih, ofFields, sortFields_eq_self increasing]

theorem isOrdered_iff {v : Value} : v.IsOrdered ↔ v.settle = v :=
  ⟨settle_eq_self, fun h => h ▸ isOrdered_settle v⟩

/-! ## Keys -/

/-- The keys of an object, with every repetition. -/
def keys : Value → List String
  | .object fields => fields.map Prod.fst
  | _ => []

theorem mem_keys_insertField {name key : String} {value : Value} {fields : List (String × Value)} :
    name ∈ (insertField key value fields).map Prod.fst ↔
      name = key ∨ name ∈ fields.map Prod.fst := by
  induction fields with
  | nil => simp [insertField]
  | cons first fields ih =>
    rw [insertField]
    split
    · next heq => simp [heq]
    split
    · simp
    · rw [List.map_cons, List.mem_cons, ih, List.map_cons, List.mem_cons, or_left_comm]

theorem mem_keys_sortFields {name : String} {fields : List (String × Value)} :
    name ∈ (sortFields fields).map Prod.fst ↔ name ∈ fields.map Prod.fst := by
  have hall (sorted rest : List (String × Value)) :
      name ∈ (rest.foldl (fun sorted field => insertField field.1 field.2 sorted) sorted).map
          Prod.fst ↔ name ∈ sorted.map Prod.fst ∨ name ∈ rest.map Prod.fst := by
    induction rest generalizing sorted with
    | nil => simp
    | cons first rest ih =>
      rw [List.foldl_cons, ih, mem_keys_insertField, List.map_cons, List.mem_cons, or_assoc,
        or_left_comm]
  exact (hall [] fields).trans (by simp)

/-- A value has its keys when it is settled, each of them once. -/
theorem mem_keys_settle {name : String} {v : Value} : name ∈ v.settle.keys ↔ name ∈ v.keys := by
  cases v with
  | object fields =>
    rw [settle_object, ofFields, keys, mem_keys_sortFields, keys, List.map_map]
    rfl
  | _ => rfl

end Value
end Json
end CommandSchema
