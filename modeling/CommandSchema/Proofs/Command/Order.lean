/-
The order of options in generated rules.

`Arranges` says what an arrangement of options is: the same options by decreasing length of their
names, where those with names of one length stay in the order in which they were added.  No more
than one list is that (`Arranges.unique`), and `sortByLength` makes it (`arranges_sortByLength`), so
the order of the rules follows from the options alone.

An arrangement has the names and letters of the options it is made of.  These are different whatever
the order, so options may also be added in the order in which they are arranged, and nothing moves
when they are arranged again.
-/
import CommandSchema.Proofs.Command.Acceptance

namespace CommandSchema
namespace Command

/-- Options whose names never get longer from one to a later one. -/
def Decreasing (os : List CommandOption) : Prop :=
  os.Pairwise fun o p => p.name.utf8ByteSize ≤ o.name.utf8ByteSize

/-- The options with names of `n` bytes, in their order. -/
def ofLength (n : Nat) (os : List CommandOption) : List CommandOption :=
  os.filter (·.name.utf8ByteSize = n)

/-- The options by decreasing length of their names; the options with names of one length are in the
same order in both lists. -/
structure Arranges (options sorted : List CommandOption) : Prop where
  perm : sorted.Perm options
  decreasing : Decreasing sorted
  stable : ∀ n, ofLength n sorted = ofLength n options

theorem ofLength_cons (n : Nat) (o : CommandOption) (os : List CommandOption) :
    ofLength n (o :: os) =
      if o.name.utf8ByteSize = n then o :: ofLength n os else ofLength n os := by
  simp [ofLength, List.filter_cons]

theorem mem_ofLength_iff {n : Nat} {o : CommandOption} {os : List CommandOption} :
    o ∈ ofLength n os ↔ o ∈ os ∧ o.name.utf8ByteSize = n := by
  simp [ofLength]

/-! ## Sorting -/

section Sorting

variable {o : CommandOption} {os : List CommandOption}

theorem decreasing_insertByLength (h : Decreasing os) : Decreasing (insertByLength o os) := by
  induction os with
  | nil => exact List.pairwise_singleton _ o
  | cons p rest ih =>
    obtain ⟨hp, hrest⟩ := List.pairwise_cons.mp h
    rw [insertByLength]
    split
    next hlong =>
      refine List.pairwise_cons.mpr ⟨fun q hq => ?_, h⟩
      rcases List.mem_cons.mp hq with rfl | hq
      · exact hlong
      · exact Nat.le_trans (hp q hq) hlong
    next hshort =>
      refine List.pairwise_cons.mpr ⟨fun q hq => ?_, ih hrest⟩
      rcases List.mem_cons.mp ((insertByLength_perm o rest).subset hq) with rfl | hq
      · exact Nat.le_of_not_le hshort
      · exact hp q hq

/-- An option is inserted in front of all those with a name of its length. -/
theorem ofLength_insertByLength (n : Nat) :
    ofLength n (insertByLength o os) = ofLength n (o :: os) := by
  induction os with
  | nil => rfl
  | cons p rest ih =>
    rw [insertByLength]
    split
    next => rfl
    next hshort =>
      -- The option that is passed has a longer name, so no list has both.
      rw [ofLength_cons n p, ih, ofLength_cons n o, ofLength_cons n o, ofLength_cons n p]
      by_cases hp : p.name.utf8ByteSize = n
      · have ho : o.name.utf8ByteSize ≠ n := by omega
        rw [if_neg ho, if_neg ho]
      · rw [if_neg hp, if_neg hp]

theorem arranges_sortByLength (os : List CommandOption) : Arranges os (sortByLength os) where
  perm := sortByLength_perm os
  decreasing := by
    induction os with
    | nil => exact List.Pairwise.nil
    | cons o rest ih => exact decreasing_insertByLength ih
  stable := by
    intro n
    induction os with
    | nil => rfl
    | cons o rest ih => rw [sortByLength, ofLength_insertByLength, ofLength_cons, ih, ofLength_cons]

end Sorting

/-! ## Uniqueness -/

theorem mem_iff_of_ofLength_eq {os ps : List CommandOption}
    (h : ∀ n, ofLength n os = ofLength n ps) {o : CommandOption} : o ∈ os ↔ o ∈ ps := by
  have hsame : o ∈ ofLength o.name.utf8ByteSize os ↔ o ∈ ofLength o.name.utf8ByteSize ps := by
    rw [h]
  rwa [mem_ofLength_iff, mem_ofLength_iff, and_iff_left rfl, and_iff_left rfl] at hsame

theorem Decreasing.le_of_mem {o p : CommandOption} {os : List CommandOption}
    (h : Decreasing (o :: os)) (hp : p ∈ o :: os) : p.name.utf8ByteSize ≤ o.name.utf8ByteSize := by
  rcases List.mem_cons.mp hp with rfl | hp
  · exact Nat.le_refl _
  · exact List.rel_of_pairwise_cons h hp

/-- The order of the options with names of one length, for each length, decides the whole order. -/
theorem Decreasing.eq_of_ofLength_eq {os ps : List CommandOption} (hos : Decreasing os)
    (hps : Decreasing ps) (h : ∀ n, ofLength n os = ofLength n ps) : os = ps := by
  -- Both lists begin with an option whose name has the greatest length, so with the same one.
  induction os generalizing ps with
  | nil =>
    cases ps with
    | nil => rfl
    | cons p ps =>
      exact absurd ((mem_iff_of_ofLength_eq h).mpr List.mem_cons_self) List.not_mem_nil
  | cons o os ih =>
    cases ps with
    | nil => exact absurd ((mem_iff_of_ofLength_eq h).mp List.mem_cons_self) List.not_mem_nil
    | cons p ps =>
      have hlength : o.name.utf8ByteSize = p.name.utf8ByteSize :=
        Nat.le_antisymm
          (hps.le_of_mem ((mem_iff_of_ofLength_eq h).mp List.mem_cons_self))
          (hos.le_of_mem ((mem_iff_of_ofLength_eq h).mpr List.mem_cons_self))
      obtain rfl : o = p := by
        have hsame := h p.name.utf8ByteSize
        rw [ofLength_cons, ofLength_cons, if_pos hlength, if_pos rfl] at hsame
        exact (List.cons.inj hsame).1
      refine congrArg (o :: ·) (ih hos.of_cons hps.of_cons fun n => ?_)
      have hsame := h n
      rw [ofLength_cons, ofLength_cons] at hsame
      split at hsame
      · exact (List.cons.inj hsame).2
      · exact hsame

theorem Arranges.unique {options sorted others : List CommandOption} (h : Arranges options sorted)
    (hothers : Arranges options others) : sorted = others :=
  h.decreasing.eq_of_ofLength_eq hothers.decreasing fun n =>
    (h.stable n).trans (hothers.stable n).symm

/-- What is arranged already stays as it is. -/
theorem Arranges.sortByLength_eq {options sorted : List CommandOption}
    (h : Arranges options sorted) : sortByLength sorted = sorted :=
  (arranges_sortByLength sorted).unique ⟨List.Perm.refl sorted, h.decreasing, fun _ => rfl⟩

/-! ## Options added again -/

/-- A new command accepts the options of another one in any order. -/
theorem Consistent.foldlM_add_of_perm {c fresh : Command} (h : c.Consistent) {name : String}
    {help : List String} {arity : Arity} {hidden : Bool}
    (hfresh : create name help arity hidden = .ok fresh) {os : List CommandOption}
    (hperm : os.Perm c.options) :
    os.foldlM add fresh = .ok (fresh.pushAll os) ∧ (fresh.pushAll os).options = os := by
  have hempty : fresh.Consistent := (IsMade.created hfresh).consistent
  obtain ⟨-, -, rfl⟩ := create_eq_ok_iff.mp hfresh
  refine ⟨hempty.foldlM_add_eq_ok_iff.mpr ⟨fun o ho => ?_, ?_, ?_, rfl⟩, options_pushAll _ os⟩
  · have hmem : o ∈ c.options := hperm.subset ho
    refine ⟨⟨fun heq => ?_, List.not_mem_nil⟩,
      fun letter hletter => ⟨fun heq => ?_, List.not_mem_nil⟩⟩
    · exact h.help_notMem (heq ▸ List.mem_map_of_mem hmem)
    · exact h.helpShort_notMem (List.mem_filterMap.mpr ⟨o, hmem, heq ▸ hletter⟩)
  · exact (hperm.map CommandOption.name).nodup_iff.mpr h.names_nodup
  · exact (hperm.filterMap CommandOption.short).nodup_iff.mpr h.shorts_nodup

/-- After any additions, the order of the rules is the one order of the options by decreasing length
of their names in which options with names of one length stay as they were added.  A new command
accepts the options in this order, and arranges them as they are. -/
theorem arranges_iff_eq_arranged {c : Command} (h : c.IsMade) (as : List Addition) :
    (∀ sorted, Arranges (c.attemptAll as).options sorted ↔ sorted = (c.attemptAll as).arranged) ∧
      ∀ name help arity hidden fresh, create name help arity hidden = .ok fresh →
        ∃ d, (c.attemptAll as).arranged.foldlM add fresh = .ok d ∧
          d.options = (c.attemptAll as).arranged ∧ d.arranged = (c.attemptAll as).arranged := by
  have harranged : Arranges (c.attemptAll as).options (c.attemptAll as).arranged :=
    arranges_sortByLength _
  refine ⟨fun sorted => ⟨fun hsorted => hsorted.unique harranged, fun heq => heq ▸ harranged⟩, ?_⟩
  intro name help arity hidden fresh hfresh
  obtain ⟨hall, hoptions⟩ :=
    (h.consistent.attemptAll as).foldlM_add_of_perm hfresh (arranged_perm (c.attemptAll as))
  refine ⟨_, hall, hoptions, ?_⟩
  rw [arranged, hoptions]
  exact harranged.sortByLength_eq

/-- Names of which two have five characters and one of them six bytes, and one that is refused. -/
def unevenAdditions : List Addition := [
  .declared { name := "size", type := "int", help := .line "How much" },
  .declared { name := "cable", short := some "c", type := "str", help := .line "Cable name" },
  .declared { name := "mode", type := "fast|slow", help := .line "How to burn" },
  .option { name := "Länge", kind := .flag, default := .unset, help := [] },
  .declared { name := "count", short := some "c", type := "int", help := .line "How often" }]

theorem arranges_unevenAdditions :
    ∃ c fresh d, create "program" ["Program a device"] {} false = .ok c ∧
      create "other" ["Another one"] {} true = .ok fresh ∧
      (c.attemptAll unevenAdditions).names = ["size", "cable", "mode", "Länge"] ∧
      Arranges (c.attemptAll unevenAdditions).options (c.attemptAll unevenAdditions).arranged ∧
      (c.attemptAll unevenAdditions).arranged.foldlM add fresh = .ok d ∧
      d.names = ["Länge", "cable", "size", "mode"] ∧ d.arranged = d.options := by
  have hcreate : create "program" ["Program a device"] {} false =
      .ok { name := "program", help := ["Program a device"] } := rfl
  have hfresh : create "other" ["Another one"] {} true =
      .ok { name := "other", help := ["Another one"], hidden := true } := rfl
  obtain ⟨hiff, hagain⟩ := arranges_iff_eq_arranged (.created hcreate) unevenAdditions
  obtain ⟨d, hall, hoptions, harranged⟩ := hagain _ _ _ _ _ hfresh
  refine ⟨_, _, d, hcreate, hfresh, by decide +kernel, (hiff _).mpr rfl, hall, ?_, ?_⟩
  · rw [names, hoptions]
    decide +kernel
  · rw [harranged, hoptions]

end Command
end CommandSchema
