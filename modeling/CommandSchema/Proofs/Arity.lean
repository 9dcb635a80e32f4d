/-
Which declarations of an arity are accepted, and what becomes of their numbers.

A declaration has two integers, of which the first is read as an unsigned word of 64 bits and the
second as a signed one.  `Bounds` says which numbers may stand there.  The greatest number is a
signed word from the beginning, so writing it as one does not wrap it around: what an accepted
arity has as its bounds are the two numbers of its declaration (`ofJson_eq_ok_iff`,
`Bounds.maxBound`).
-/
import CommandSchema.Arity
import CommandSchema.Proofs.CommandOption.Types

namespace CommandSchema
namespace Arity

/-- Numbers that a declaration may have; −1 stands for no bound. -/
structure Bounds (min max : Int) : Prop where
  nonneg : 0 ≤ min
  word : min ≤ 18446744073709551615
  ordered : max = -1 ∨ min ≤ max ∧ max ≤ 9223372036854775807

/-- A list of two integers that may be the bounds of an arity. -/
inductive Declares : Json.Value → Int → Int → Prop
  | list {min max : Int} (hmin : -9223372036854775808 ≤ min ∧ min < 18446744073709551616)
    (hmax : -9223372036854775808 ≤ max ∧ max < 18446744073709551616) (h : Bounds min max) :
    Declares (.array [.number (.integer min hmin), .number (.integer max hmax)]) min max

/-- The arity with some numbers as its bounds. -/
def between (min max : Int) : Arity where
  min := min.toNat
  max := if max = -1 then none else some max.toNat

section Bounds

variable {min max : Int}

theorem Declares.bounds {value : Json.Value} (h : Declares value min max) : Bounds min max := by
  cases h with
  | list _ _ h => exact h

theorem Bounds.min_between (h : Bounds min max) : ((between min max).min : Int) = min :=
  Int.toNat_of_nonneg h.nonneg

theorem max_between : (between min max).max = none ↔ max = -1 := by
  rw [between]
  split
  next hmax => exact iff_of_true rfl hmax
  next hmax => exact iff_of_false nofun hmax

/-- A greatest number fits a signed word. -/
theorem Bounds.maxBound (h : Bounds min max) : (between min max).maxBound = max := by
  rcases h.ordered with rfl | ⟨hle, hsigned⟩
  · rfl
  · have hnonneg : 0 ≤ max := Int.le_trans h.nonneg hle
    have hbound : max ≠ -1 := by omega
    rw [Arity.maxBound, between]
    simp only [if_neg hbound, Int.toNat_of_nonneg hnonneg]
    exact Int.bmod_eq_of_le (by omega) (by omega)

theorem ofBounds?_eq_some_iff {least : Nat} {a : Arity} (hword : least < 18446744073709551616)
    (hmax : max < 9223372036854775808) :
    ofBounds? least max = some a ↔ Bounds least max ∧ a = between least max := by
  rw [ofBounds?, between, Int.toNat_natCast]
  split
  next hunbounded =>
    have hbounds : Bounds least max := ⟨by omega, by omega, .inl hunbounded⟩
    rw [Option.some.injEq, eq_comm, and_iff_right hbounds]
  next hbounded =>
    split
    next hle =>
      have hbounds : Bounds least max := ⟨by omega, by omega, .inr ⟨hle, by omega⟩⟩
      rw [Option.some.injEq, eq_comm, and_iff_right hbounds]
    next hless =>
      refine iff_of_false nofun fun ⟨hbounds, _⟩ => ?_
      rcases hbounds.ordered with hunbounded | ⟨hle, -⟩
      · exact hbounded hunbounded
      · exact hless hle

end Bounds

/-! ## Declarations -/

theorem asSigned?_eq_some_iff {value : Json.Value} {i : Int} :
    value.asSigned? = some i ↔ i < 9223372036854775808 ∧
      ∃ hrange, value = .number (.integer i hrange) := by
  unfold Json.Value.asSigned?
  split
  next j hj =>
    simp only [Json.Value.number.injEq, Json.Number.integer.injEq]
    split
    next hsigned =>
      rw [Option.some.injEq]
      constructor
      · rintro rfl
        exact ⟨hsigned, hj, rfl⟩
      · rintro ⟨-, -, rfl⟩
        rfl
    next hlarge =>
      constructor
      · intro h
        cases h
      · rintro ⟨hsigned, -, rfl⟩
        exact absurd hsigned hlarge
  next hother =>
    constructor
    · intro h
      cases h
    · rintro ⟨-, hrange, heq⟩
      exact absurd heq (hother i hrange)

theorem ofValue?_eq_some_iff {value : Json.Value} {a : Arity} :
    ofValue? value = some a ↔ ∃ min max, Declares value min max ∧ a = between min max := by
  constructor
  · intro h
    unfold ofValue? at h
    split at h
    next first second =>
      split at h
      next least max hleast hmax =>
        obtain ⟨hword, rfl⟩ := CommandOption.asNat?_eq_some_iff.mp hleast
        obtain ⟨hsigned, hrange, rfl⟩ := asSigned?_eq_some_iff.mp hmax
        obtain ⟨hbounds, rfl⟩ := (ofBounds?_eq_some_iff hword hsigned).mp h
        exact ⟨least, max, .list _ hrange hbounds, rfl⟩
      next => cases h
    next => cases h
  · rintro ⟨min, max, hdeclares, rfl⟩
    obtain ⟨hmin, hmax, hbounds⟩ := hdeclares
    obtain ⟨least, rfl⟩ := Int.eq_ofNat_of_zero_le hbounds.nonneg
    have hword : least < 18446744073709551616 := by omega
    have hsigned : max < 9223372036854775808 := by
      rcases hbounds.ordered with rfl | ⟨-, hsigned⟩
      · decide
      · omega
    have hleast := CommandOption.asNat?_eq_some_iff.mpr
      ⟨hword, (rfl : Json.Value.number (.integer least hmin) = _)⟩
    have hgreatest := asSigned?_eq_some_iff.mpr
      ⟨hsigned, hmax, (rfl : Json.Value.number (.integer max hmax) = _)⟩
    rw [ofValue?, hleast, hgreatest]
    exact (ofBounds?_eq_some_iff hword hsigned).mpr ⟨hbounds, rfl⟩

theorem ofJson_eq_ok_iff {command : String} {value : Json.Value} {a : Arity} :
    ofJson command (some value) = .ok a ↔
      ∃ min max, Declares value min max ∧ a = between min max := by
  rw [← ofValue?_eq_some_iff, ofJson]
  cases ofValue? value with
  | none => simp
  | some b => simp

theorem Declares.ofJson {value : Json.Value} {min max : Int} (h : Declares value min max)
    (command : String) : Arity.ofJson command (some value) = .ok (between min max) :=
  ofJson_eq_ok_iff.mpr ⟨min, max, h, rfl⟩

theorem exists_ofJson_iff {command : String} {value : Json.Value} :
    (∃ a, ofJson command (some value) = .ok a) ↔ ∃ min max, Declares value min max := by
  simp only [ofJson_eq_ok_iff]
  constructor
  · rintro ⟨_, min, max, hdeclares, -⟩
    exact ⟨min, max, hdeclares⟩
  · rintro ⟨min, max, hdeclares⟩
    exact ⟨_, min, max, hdeclares, rfl⟩

/-- An arity is declared again by its bounds. -/
theorem Declares.ofJson_again {value again : Json.Value} {min max : Int}
    (h : Declares value min max)
    (hagain : Declares again (between min max).min (between min max).maxBound)
    (command : String) : Arity.ofJson command (some again) = .ok (between min max) := by
  rw [h.bounds.min_between, h.bounds.maxBound] at hagain
  exact hagain.ofJson command

end Arity
end CommandSchema
