/-
Values as they are written.

A reader keeps of an object the last value of each key, in the order of the keys.  `readWritten`
reads the same texts and keeps every field where it stands; `Value.settle` is what a reader makes
of a value that is written so (`readValue_eq_settle`).  So what a text says and what is read of it
can be told apart, and an object that is written in order without repetitions is read as it is
written (`Value.settle_eq_self`).
-/
import CommandSchema.Proofs.Outcome
import CommandSchema.Schema

namespace CommandSchema
namespace Json

/-! ## Settled values -/

namespace Value

mutual

/-- A value with its objects in order, the last value of each key. -/
def settle : Value → Value
  | .null => .null
  | .bool b => .bool b
  | .number n => .number n
  | .string s => .string s
  | .array items => .array (settleItems items)
  | .object fields => .ofFields (settleFields fields)

def settleItems : List Value → List Value
  | [] => []
  | item :: items => item.settle :: settleItems items

def settleFields : List (String × Value) → List (String × Value)
  | [] => []
  | (key, value) :: fields => (key, value.settle) :: settleFields fields

end

theorem settleItems_eq (items : List Value) : settleItems items = items.map settle := by
  induction items with
  | nil => rfl
  | cons item items ih => rw [settleItems, ih, List.map_cons]

theorem settleFields_eq (fields : List (String × Value)) :
    settleFields fields = fields.map (Prod.map id settle) := by
  induction fields with
  | nil => rfl
  | cons field fields ih => rw [settleFields, ih, List.map_cons, Prod.map, id]

theorem settle_array (items : List Value) : settle (.array items) = .array (items.map settle) := by
  rw [settle, settleItems_eq]

theorem settle_object (fields : List (String × Value)) :
    settle (.object fields) = .ofFields (fields.map (Prod.map id settle)) := by
  rw [settle, settleFields_eq]

end Value

/-! ## Reading what is written -/

/-- The value at the beginning of a source, with every field of its objects where it stands. -/
def readWritten (origin : Origin) : Nat → List Glyph → Reading Value
  | depth, source =>
    match skipSpace source with
    | .char '[' :: rest =>
      match depth with
      | 0 => .error (.atNext .tooDeep (.char '[' :: rest))
      | depth + 1 =>
        (readItems (readWritten origin depth) (rest.length + 1) true rest).map
          fun (items, rest) => (.array items, rest)
    | .char '{' :: rest =>
      match depth with
      | 0 => .error (.atNext .tooDeep (.char '{' :: rest))
      | depth + 1 =>
        (readFields (readWritten origin depth) (rest.length + 1) true rest).map
          fun (fields, rest) => (.object fields, rest)
    | source => readScalar origin source

section Loops

variable {f : Value → Value} {value written : List Glyph → Reading Value}

/-- The items of a list are read one by one, whatever becomes of each of them. -/
theorem readItems_map (h : ∀ source, value source = (written source).map (Prod.map f id))
    (n : Nat) (first : Bool) (source : List Glyph) :
    readItems value n first source =
      (readItems written n first source).map (Prod.map (List.map f) id) := by
  induction n generalizing first source with
  | zero => rfl
  | succ n ih =>
    unfold readItems
    split
    · rfl
    · rfl
    · next g rest _ _ =>
      generalize (if first = true then _ else _ : Except Fault (List Glyph)) = item
      cases item with
      | error fault => rfl
      | ok source =>
        simp only [h source]
        cases written source with
        | error fault => rfl
        | ok found =>
          simp only [Except.map, Prod.map, id, ih false found.2]
          cases readItems written n false found.2 <;> rfl

theorem readFieldValue_map (h : ∀ source, value source = (written source).map (Prod.map f id))
    (source : List Glyph) :
    readFieldValue value source = (readFieldValue written source).map (Prod.map f id) := by
  unfold readFieldValue
  split
  · rfl
  · exact h _
  · rfl

theorem readFields_map (h : ∀ source, value source = (written source).map (Prod.map f id))
    (n : Nat) (first : Bool) (source : List Glyph) :
    readFields value n first source =
      (readFields written n first source).map (Prod.map (List.map (Prod.map id f)) id) := by
  induction n generalizing first source with
  | zero => rfl
  | succ n ih =>
    unfold readFields
    split
    · rfl
    · rfl
    · next g rest _ _ =>
      generalize (if first = true then _ else _ : Except Fault (List Glyph)) = key
      cases key with
      | error fault => rfl
      | ok source =>
        cases hkey : readString source with
        | error fault => simp only [hkey, Except.map]
        | ok key =>
          simp only [hkey, readFieldValue_map h key.2]
          cases readFieldValue written key.2 with
          | error fault => rfl
          | ok found =>
            simp only [Except.map, Prod.map, id, ih false found.2]
            cases readFields written n false found.2 <;> rfl

end Loops

theorem value_of_readLiteral {value v : Value} {letters : List Char} {source rest : List Glyph}
    (h : readLiteral value letters source = .ok (v, rest)) : v = value := by
  induction letters generalizing source with
  | nil =>
    obtain ⟨hv, -⟩ := Prod.mk.inj (Except.ok.inj h)
    exact hv.symm
  | cons c letters ih =>
    cases source with
    | nil => cases h
    | cons g source =>
      unfold readLiteral at h
      by_cases hg : g = .char c
      · rw [if_pos hg] at h
        exact ih h
      · rw [if_neg hg] at h
        cases h

/-- Nothing is to be settled in a value that is neither a list nor an object. -/
theorem settle_of_readScalar {origin : Origin} {source rest : List Glyph} {v : Value}
    (h : readScalar origin source = .ok (v, rest)) : v.settle = v := by
  have hnumber {reading : Reading Number}
      (h : reading.map (fun found => (Value.number found.1, found.2)) = .ok (v, rest)) :
      v.settle = v := by
    obtain ⟨_, -, heq⟩ := Outcome.map_eq_ok_iff.mp h
    obtain ⟨rfl, -⟩ := Prod.mk.inj heq
    rfl
  unfold readScalar at h
  split at h
  · cases h
  · rw [value_of_readLiteral h]
    rfl
  · rw [value_of_readLiteral h]
    rfl
  · rw [value_of_readLiteral h]
    rfl
  · obtain ⟨_, -, heq⟩ := Outcome.map_eq_ok_iff.mp h
    obtain ⟨rfl, -⟩ := Prod.mk.inj heq
    rfl
  · exact hnumber h
  · split at h
    · exact hnumber h
    · cases h

theorem readScalar_eq_settle (origin : Origin) (source : List Glyph) :
    readScalar origin source = (readScalar origin source).map (Prod.map Value.settle id) := by
  cases h : readScalar origin source with
  | error fault => rfl
  | ok found =>
    have hsettle : found.1.settle = found.1 := settle_of_readScalar h
    rw [Except.map, Prod.map, hsettle]
    rfl

section Scalars

variable (origin : Origin) (depth : Nat) {source : List Glyph}
  (hlist : ¬ ∃ rest, skipSpace source = .char '[' :: rest)
  (hobject : ¬ ∃ rest, skipSpace source = .char '{' :: rest)

include hlist hobject

theorem readValue_of_scalar :
    readValue origin depth source = readScalar origin (skipSpace source) := by
  unfold readValue
  split
  · next heq => exact absurd ⟨_, heq⟩ hlist
  · next heq => exact absurd ⟨_, heq⟩ hobject
  · rfl

theorem readWritten_of_scalar :
    readWritten origin depth source = readScalar origin (skipSpace source) := by
  unfold readWritten
  split
  · next heq => exact absurd ⟨_, heq⟩ hlist
  · next heq => exact absurd ⟨_, heq⟩ hobject
  · rfl

end Scalars

/-- A reader settles what is written. -/
theorem readValue_eq_settle (origin : Origin) (depth : Nat) (source : List Glyph) :
    readValue origin depth source =
      (readWritten origin depth source).map (Prod.map Value.settle id) := by
  induction depth generalizing source with
  | zero =>
    by_cases hlist : ∃ rest, skipSpace source = .char '[' :: rest
    · obtain ⟨rest, hsource⟩ := hlist
      unfold readValue readWritten
      rw [hsource]
      rfl
    by_cases hobject : ∃ rest, skipSpace source = .char '{' :: rest
    · obtain ⟨rest, hsource⟩ := hobject
      unfold readValue readWritten
      rw [hsource]
      rfl
    rw [readValue_of_scalar origin 0 hlist hobject, readWritten_of_scalar origin 0 hlist hobject]
    exact readScalar_eq_settle origin _
  | succ depth ih =>
    by_cases hlist : ∃ rest, skipSpace source = .char '[' :: rest
    · obtain ⟨rest, hsource⟩ := hlist
      unfold readValue readWritten
      rw [hsource]
      simp only [readItems_map ih]
      cases readItems (readWritten origin depth) (rest.length + 1) true rest with
      | error fault => rfl
      | ok found => simp only [Except.map, Prod.map, id, Value.settle_array]
    by_cases hobject : ∃ rest, skipSpace source = .char '{' :: rest
    · obtain ⟨rest, hsource⟩ := hobject
      unfold readValue readWritten
      rw [hsource]
      simp only [readFields_map ih]
      cases readFields (readWritten origin depth) (rest.length + 1) true rest with
      | error fault => rfl
      | ok found => simp only [Except.map, Prod.map, id, Value.settle_object]
    rw [readValue_of_scalar origin _ hlist hobject, readWritten_of_scalar origin _ hlist hobject]
    exact readScalar_eq_settle origin _

end Json
end CommandSchema
