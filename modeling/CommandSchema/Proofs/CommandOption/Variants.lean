/-
Where an enumeration is broken.

Every piece of an enumeration but the last ends in a bar.  Segments are made of whole pieces, so
they keep this, for every width (`brokenAtBars_wrap`).
-/
import CommandSchema.CommandOption.Variants

namespace CommandSchema
namespace Variants

/-- A text that ends in the sign between two members. -/
def EndsInBar (s : String) : Prop := ∃ front, s = front ++ "|"

theorem EndsInBar.append {s : String} (h : EndsInBar s) (t : String) : EndsInBar (t ++ s) := by
  obtain ⟨front, rfl⟩ := h
  exact ⟨t ++ front, String.append_assoc.symm⟩

/-- All segments but the last end in a bar. -/
def BrokenAtBars (segments : List String) : Prop := ∀ segment ∈ segments.dropLast, EndsInBar segment

theorem brokenAtBars_cons_iff {segment : String} {rest : List String} :
    BrokenAtBars (segment :: rest) ↔ (rest ≠ [] → EndsInBar segment) ∧ BrokenAtBars rest := by
  cases rest with
  | nil => simp [BrokenAtBars]
  | cons next rest =>
    rw [BrokenAtBars, List.dropLast_cons_cons, List.forall_mem_cons]
    simp [BrokenAtBars]

theorem brokenAtBars_pieces (variants : List String) : BrokenAtBars (pieces variants) := by
  induction variants with
  | nil => simp [pieces, BrokenAtBars]
  | cons v rest ih =>
    cases rest with
    | nil => simp [pieces, BrokenAtBars]
    | cons w rest =>
      rw [pieces, brokenAtBars_cons_iff]
      · exact ⟨fun _ => ⟨v, rfl⟩, ih⟩
      · simp

/-- A segment that is not finished ends in a bar if there are more pieces for it. -/
theorem brokenAtBars_fill {width : Nat} {current : String} {ps : List String}
    (hcurrent : current ≠ "" → ps ≠ [] → EndsInBar current) (hps : BrokenAtBars ps) :
    BrokenAtBars (fill width current ps) := by
  -- The segment at hand grows from piece to piece, until it is finished and the next one begins.
  induction ps generalizing current with
  | nil =>
    rw [fill]
    split
    · simp [BrokenAtBars]
    · simp [BrokenAtBars]
  | cons p rest ih =>
    obtain ⟨hp, hrest⟩ := brokenAtBars_cons_iff.mp hps
    rw [fill]
    split
    next hfull =>
      rw [brokenAtBars_cons_iff]
      exact ⟨fun _ => hcurrent hfull.1 (List.cons_ne_nil p rest), ih (fun _ => hp) hrest⟩
    next => exact ih (fun _ hne => (hp hne).append current) hrest

theorem brokenAtBars_wrap (width : Nat) (variants : List String) :
    BrokenAtBars (wrap width variants) :=
  brokenAtBars_fill (fun h => absurd rfl h) (brokenAtBars_pieces variants)

end Variants
end CommandSchema
