/-
Claims of several names.

A registry can take a list of names one after the other when the names are free: they are all
different, and it has none of them.  Every way to put names in, the seed with the names of other
schemas, the claim of a command and the claims of the members of a group, succeeds exactly when its
names are free, and then the registry has those names in front of its own.  Freedom of a list that
is taken in two parts is the freedom of each part at its turn (`free_append_iff`), so the order in
which the claims of a run come makes no difference in the end.
-/
import CommandSchema.NameRegistry
import CommandSchema.Proofs.Outcome

namespace CommandSchema
namespace NameRegistry

/-- Names that are all different, and of which the registry has none. -/
def Free (r : NameRegistry) (names : List String) : Prop :=
  names.Nodup ∧ ∀ name ∈ names, name ∉ r.names

/-- The registry with several names, put in one after the other. -/
def extend (r : NameRegistry) (names : List String) : NameRegistry := ⟨names.reverse ++ r.names⟩

theorem mem_names_extend {r : NameRegistry} {names : List String} {name : String} :
    name ∈ (r.extend names).names ↔ name ∈ names ∨ name ∈ r.names := by
  rw [extend, List.mem_append, List.mem_reverse]

theorem extend_nil (r : NameRegistry) : r.extend [] = r := rfl

theorem extend_extend (r : NameRegistry) (xs ys : List String) :
    (r.extend xs).extend ys = r.extend (xs ++ ys) := by
  simp only [extend, List.reverse_append, List.append_assoc]

theorem extend_cons (r : NameRegistry) (name : String) (names : List String) :
    r.extend (name :: names) = (r.extend [name]).extend names :=
  (extend_extend r [name] names).symm

theorem free_nil (r : NameRegistry) : r.Free [] := ⟨List.nodup_nil, by simp⟩

theorem free_append_iff {r : NameRegistry} {xs ys : List String} :
    r.Free (xs ++ ys) ↔ r.Free xs ∧ (r.extend xs).Free ys := by
  constructor
  · intro ⟨hnodup, hfree⟩
    obtain ⟨hxs, hys, hdisjoint⟩ := List.nodup_append.mp hnodup
    refine ⟨⟨hxs, fun x hx => hfree x (List.mem_append_left ys hx)⟩, hys, fun y hy hmem => ?_⟩
    rcases mem_names_extend.mp hmem with hx | hr
    · exact hdisjoint y hx y hy rfl
    · exact hfree y (List.mem_append_right xs hy) hr
  · intro ⟨⟨hxs, hfreexs⟩, hys, hfreeys⟩
    refine ⟨List.nodup_append.mpr ⟨hxs, hys, fun x hx y hy heq => ?_⟩, fun z hz => ?_⟩
    · subst heq
      exact hfreeys x hy (mem_names_extend.mpr (Or.inl hx))
    · rcases List.mem_append.mp hz with hx | hy
      · exact hfreexs z hx
      · exact fun hr => hfreeys z hy (mem_names_extend.mpr (Or.inr hr))

theorem free_singleton_iff {r : NameRegistry} {name : String} : r.Free [name] ↔ name ∉ r.names := by
  simp [Free]

theorem free_cons_iff {r : NameRegistry} {name : String} {names : List String} :
    r.Free (name :: names) ↔ name ∉ r.names ∧ (r.extend [name]).Free names := by
  rw [← free_singleton_iff, ← free_append_iff, List.singleton_append]

theorem free_empty_iff {names : List String} : ({} : NameRegistry).Free names ↔ names.Nodup := by
  simp [Free]

/-! ## The claims -/

theorem insert_eq_ok_iff {r s : NameRegistry} {name : String} {fault : Fault} :
    r.insert name fault = .ok s ↔ name ∉ r.names ∧ s = r.extend [name] := by
  rw [insert, contains]
  by_cases h : name ∈ r.names
  · simp [h]
  · simp [h, extend, eq_comm]

theorem claim_eq_ok_iff {r s : NameRegistry} {name : String} :
    r.claim name = .ok s ↔ name ∉ r.names ∧ s = r.extend [name] := insert_eq_ok_iff

theorem claimMembers_eq_ok_iff {r s : NameRegistry} {group : String} {members : List String} :
    r.claimMembers group members = .ok s ↔
      r.Free (members.map (Name.qualified group)) ∧
        s = r.extend (members.map (Name.qualified group)) := by
  induction members generalizing r with
  | nil => simp [claimMembers, free_nil, extend_nil, eq_comm]
  | cons member rest ih =>
    rw [claimMembers, Outcome.bind_eq_ok_iff, List.map_cons, free_cons_iff,
      extend_cons r _ (rest.map _)]
    constructor
    · intro ⟨t, hclaim, hrest⟩
      obtain ⟨hfree, rfl⟩ := insert_eq_ok_iff.mp hclaim
      obtain ⟨hfreerest, rfl⟩ := ih.mp hrest
      exact ⟨⟨hfree, hfreerest⟩, rfl⟩
    · intro ⟨⟨hfree, hfreerest⟩, hs⟩
      exact ⟨_, insert_eq_ok_iff.mpr ⟨hfree, rfl⟩, ih.mpr ⟨hfreerest, hs⟩⟩

theorem seed_eq_ok_iff {r s : NameRegistry} {names : List String} :
    r.seed names = (s, .ok ()) ↔ r.Free names ∧ s = r.extend names := by
  induction names generalizing r with
  | nil => simp [seed, free_nil, extend_nil, eq_comm]
  | cons name rest ih =>
    rw [seed, free_cons_iff, extend_cons r name rest]
    cases hinsert : r.insert name (.auxiliaryRepeated name) with
    | ok t =>
      obtain ⟨hfree, rfl⟩ := insert_eq_ok_iff.mp hinsert
      rw [and_iff_right hfree]
      exact ih
    | error fault =>
      have htaken : name ∈ r.names := Decidable.byContradiction fun hfree => by
        rw [insert_eq_ok_iff.mpr ⟨hfree, rfl⟩] at hinsert
        cases hinsert
      simp [htaken]

theorem not_free_of_seed_error {r s : NameRegistry} {names : List String} {fault : Fault}
    (h : r.seed names = (s, .error fault)) : ¬ r.Free names := by
  intro hfree
  rw [seed_eq_ok_iff.mpr ⟨hfree, rfl⟩] at h
  cases h

/-- A name that is taken is refused. -/
theorem claim_of_mem {r : NameRegistry} {name : String} (h : name ∈ r.names) :
    r.claim name = .error (.commandTaken name) := by
  rw [claim, insert, contains, if_pos (decide_eq_true h)]

end NameRegistry
end CommandSchema
