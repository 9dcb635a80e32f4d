/-
The fewest segments of an enumeration.

A division puts the pieces of an enumeration into groups, each of which has room in one segment.
The segments are the groups of a division themselves (`exists_division_wrap`), and no division has
fewer (`length_fill_le`): each group of a division ends where a segment ends or before, so what is
left for the segments is never more than what is left for the groups.
-/
import CommandSchema.CommandOption.Variants

namespace CommandSchema
namespace Variants

/-- Pieces that have room in one segment: a single one in any case, several within the width. -/
def Fits (width : Nat) (group : List String) : Prop :=
  group.length = 1 ∨ (String.join group).utf8ByteSize ≤ width

/-- Pieces in groups, one after the other, that have room in one segment each. -/
structure IsDivision (width : Nat) (ps : List String) (groups : List (List String)) : Prop where
  flatten : groups.flatten = ps
  nonempty : [] ∉ groups
  fits : ∀ group ∈ groups, Fits width group

section Division

variable {width : Nat}

theorem isDivision_nil : IsDivision width [] [] :=
  ⟨rfl, List.not_mem_nil, List.forall_mem_nil _⟩

theorem isDivision_cons_iff {group ps : List String} {groups : List (List String)} :
    IsDivision width ps (group :: groups) ↔
      group ≠ [] ∧ Fits width group ∧
        ∃ rest, ps = group ++ rest ∧ IsDivision width rest groups := by
  constructor
  · rintro ⟨hflatten, hne, hfits⟩
    rw [List.mem_cons, not_or] at hne
    rw [List.forall_mem_cons] at hfits
    exact ⟨Ne.symm hne.1, hfits.1, groups.flatten, hflatten.symm, rfl, hne.2, hfits.2⟩
  · rintro ⟨hne, hfits, rest, rfl, hrest⟩
    refine ⟨?_, ?_, List.forall_mem_cons.mpr ⟨hfits, hrest.fits⟩⟩
    · rw [List.flatten_cons, hrest.flatten]
    · rw [List.mem_cons, not_or]
      exact ⟨hne.symm, hrest.nonempty⟩

/-- The end of a group has room where the whole group has. -/
theorem Fits.of_append {front back : List String} (h : Fits width (front ++ back)) :
    Fits width back := by
  rcases h with hone | hsize
  · obtain ⟨p, hp⟩ := List.length_eq_one_iff.mp hone
    rcases List.append_eq_singleton_iff.mp hp with ⟨-, rfl⟩ | ⟨-, rfl⟩
    · exact .inl rfl
    · exact .inr (Nat.zero_le width)
  · rw [String.join_append, String.utf8ByteSize_append] at hsize
    exact .inr (by omega)

/-! ## No division is shorter -/

/-- Pieces that keep to the width with what a segment holds all come into it. -/
theorem fill_append_of_le {current : String} {qs : List String}
    (h : (current ++ String.join qs).utf8ByteSize ≤ width) (rest : List String) :
    fill width current (qs ++ rest) = fill width (current ++ String.join qs) rest := by
  induction qs generalizing current with
  | nil => rw [List.nil_append, String.join_nil, String.append_empty]
  | cons q qs ih =>
    rw [String.join_cons, ← String.append_assoc] at h ⊢
    have hroom : ¬ (current ≠ "" ∧ width < current.utf8ByteSize + q.utf8ByteSize) := by
      rw [String.utf8ByteSize_append, String.utf8ByteSize_append] at h
      omega
    rw [List.cons_append, fill, if_neg hroom, ih h]

/-- A segment that begins with a group takes all of it. -/
theorem fill_append_of_fits {group : List String} (h : Fits width group) (rest : List String) :
    fill width "" (group ++ rest) = fill width (String.join group) rest := by
  rcases h with hone | hsize
  · obtain ⟨p, rfl⟩ := List.length_eq_one_iff.mp hone
    rw [List.singleton_append, fill, if_neg fun h => h.1 rfl, String.join_cons, String.join_nil,
      String.append_empty, String.empty_append]
  · rw [← String.empty_append (s := String.join group)] at hsize ⊢
    exact fill_append_of_le hsize rest

/-- The segment at hand takes some pieces, and the others are filled into new segments. -/
theorem exists_length_fill_le (width : Nat) (current : String) (ps : List String) :
    ∃ taken later, ps = taken ++ later ∧
      (fill width current ps).length ≤ (fill width "" later).length + 1 := by
  induction ps generalizing current with
  | nil =>
    refine ⟨[], [], rfl, ?_⟩
    rw [fill]
    split
    · exact Nat.zero_le _
    · exact Nat.le_add_left _ _
  | cons p rest ih =>
    rw [fill]
    split
    next =>
      have hnext : fill width "" (p :: rest) = fill width p rest := by
        rw [fill, if_neg fun h => h.1 rfl, String.empty_append]
      exact ⟨[], p :: rest, rfl, Nat.le_of_eq (by rw [hnext, List.length_cons])⟩
    next =>
      obtain ⟨taken, later, rfl, hle⟩ := ih (current ++ p)
      exact ⟨p :: taken, later, rfl, hle⟩

/-- No division of some pieces has fewer groups than there are segments, not even for the last of
these pieces. -/
theorem length_fill_le (extra : List String) {ps : List String} {groups : List (List String)}
    (h : IsDivision width (extra ++ ps) groups) :
    (fill width "" ps).length ≤ groups.length := by
  -- By induction on the groups; `extra` is what the segments are ahead of the division.
  induction groups generalizing extra ps with
  | nil =>
    obtain ⟨-, rfl⟩ := List.append_eq_nil_iff.mp h.flatten.symm
    exact Nat.le_refl 0
  | cons group groups ih =>
    obtain ⟨-, hfits, rest, hpieces, hrest⟩ := isDivision_cons_iff.mp h
    rcases List.append_eq_append_iff.mp hpieces with ⟨begun, rfl, rfl⟩ | ⟨extra, rfl, rfl⟩
    case inl =>
      -- The group ends behind the pieces that the segments are ahead.
      have hbegun : Fits width begun := hfits.of_append
      rw [fill_append_of_fits hbegun]
      obtain ⟨taken, later, rfl, hle⟩ := exists_length_fill_le width (String.join begun) rest
      exact Nat.le_trans hle (Nat.succ_le_succ (ih taken hrest))
    case inr => exact Nat.le_succ_of_le (ih extra hrest)

/-! ## The segments are a division -/

theorem join_concat (group : List String) (p : String) :
    String.join (group ++ [p]) = String.join group ++ p := by
  rw [String.join_append, String.join_cons, String.join_nil, String.append_empty]

theorem join_eq_empty_iff {group : List String} (h : "" ∉ group) :
    String.join group = "" ↔ group = [] := by
  constructor
  · intro hjoin
    cases group with
    | nil => rfl
    | cons p rest =>
      rw [String.join_cons, String.append_eq_empty_iff] at hjoin
      exact absurd (hjoin.1 ▸ List.mem_cons_self) h
  · rintro rfl
    rfl

theorem empty_notMem_pieces {variants : List String} (h : "" ∉ variants) :
    "" ∉ pieces variants := by
  induction variants with
  | nil => exact h
  | cons v rest ih =>
    rw [List.mem_cons, not_or] at h
    cases rest with
    | nil => simpa [pieces] using h.1
    | cons w rest =>
      rw [pieces, List.mem_cons, not_or]
      · refine ⟨fun heq => ?_, ih h.2⟩
        exact absurd (String.append_eq_empty_iff.mp heq.symm).2 (by decide)
      · simp

/-- What a segment holds already and the pieces that follow are divided as they are filled. -/
theorem exists_division_fill {begun ps : List String} (hfits : begun ≠ [] → Fits width begun)
    (hbegun : "" ∉ begun) (hps : "" ∉ ps) :
    ∃ groups, IsDivision width (begun ++ ps) groups ∧
      fill width (String.join begun) ps = groups.map String.join := by
  induction ps generalizing begun with
  | nil =>
    rw [fill]
    split
    next hnone =>
      obtain rfl := (join_eq_empty_iff hbegun).mp hnone
      exact ⟨[], isDivision_nil, rfl⟩
    next hsome =>
      rw [join_eq_empty_iff hbegun] at hsome
      exact ⟨[begun],
        isDivision_cons_iff.mpr ⟨hsome, hfits hsome, [], rfl, isDivision_nil⟩, rfl⟩
  | cons p rest ih =>
    rw [List.mem_cons, not_or] at hps
    have hp : "" ∉ [p] := by rw [List.mem_singleton]; exact hps.1
    rw [fill]
    split
    next hfull =>
      rw [ne_eq, join_eq_empty_iff hbegun] at hfull
      obtain ⟨groups, hgroups, hfill⟩ := ih (fun _ => .inl rfl) hp hps.2
      refine ⟨begun :: groups,
        isDivision_cons_iff.mpr ⟨hfull.1, hfits hfull.1, p :: rest, rfl, hgroups⟩, ?_⟩
      rw [List.map_cons, ← hfill]
      exact congrArg (String.join begun :: fill width · rest) (join_concat [] p).symm
    next hroom =>
      rw [ne_eq, join_eq_empty_iff hbegun] at hroom
      have hnew : Fits width (begun ++ [p]) := by
        by_cases hnone : begun = []
        · exact .inl (by rw [hnone]; rfl)
        · refine .inr ?_
          rw [join_concat, String.utf8ByteSize_append]
          exact Nat.le_of_not_lt fun hwide => hroom ⟨hnone, hwide⟩
      have hnot : "" ∉ begun ++ [p] := by
        rw [List.mem_append, not_or]
        exact ⟨hbegun, hp⟩
      obtain ⟨groups, hgroups, hfill⟩ := ih (fun _ => hnew) hnot hps.2
      refine ⟨groups, ?_, ?_⟩
      · rwa [List.append_assoc, List.singleton_append] at hgroups
      · rw [← hfill, join_concat]

end Division

theorem exists_division_wrap (width : Nat) {variants : List String} (h : "" ∉ variants) :
    ∃ groups, IsDivision width (pieces variants) groups ∧
      wrap width variants = groups.map String.join := by
  have hbegun : ([] : List String) ≠ [] → Fits width [] := fun hne => absurd rfl hne
  exact exists_division_fill hbegun List.not_mem_nil (empty_notMem_pieces h)

/-- The segments of an enumeration are the groups of a division of its pieces, and no division has
fewer groups. -/
theorem wrap_fewest (width : Nat) {variants : List String} (h : "" ∉ variants) :
    (∃ groups, IsDivision width (pieces variants) groups ∧
      wrap width variants = groups.map String.join) ∧
    ∀ groups, IsDivision width (pieces variants) groups →
      (wrap width variants).length ≤ groups.length :=
  ⟨exists_division_wrap width h, fun _ hgroups => length_fill_le [] hgroups⟩

/-- Members of which one has no room in a segment of ten bytes, and a division that leaves the last
two apart. -/
theorem wrap_fewest_apart :
    "" ∉ ["read", "program_everything", "ok", "go"] ∧
      wrap 10 ["read", "program_everything", "ok", "go"] =
        ["read|", "program_everything|", "ok|go"] ∧
      (∃ groups, IsDivision 10 ["read|", "program_everything|", "ok|", "go"] groups ∧
        ["read|", "program_everything|", "ok|go"] = groups.map String.join) ∧
      IsDivision 10 ["read|", "program_everything|", "ok|", "go"]
        [["read|"], ["program_everything|"], ["ok|"], ["go"]] ∧
      ["read|", "program_everything|", "ok|go"].length ≤
        [["read|"], ["program_everything|"], ["ok|"], ["go"]].length := by
  have hne : "" ∉ ["read", "program_everything", "ok", "go"] := by decide
  have hwrap : wrap 10 ["read", "program_everything", "ok", "go"] =
      ["read|", "program_everything|", "ok|go"] := by decide +kernel
  have hpieces : pieces ["read", "program_everything", "ok", "go"] =
      ["read|", "program_everything|", "ok|", "go"] := by decide
  have hapart : IsDivision 10 ["read|", "program_everything|", "ok|", "go"]
      [["read|"], ["program_everything|"], ["ok|"], ["go"]] :=
    ⟨rfl, by decide, by simp [Fits]⟩
  obtain ⟨hexists, hleast⟩ := wrap_fewest 10 hne
  rw [hwrap, hpieces] at hexists hleast
  exact ⟨hne, hwrap, hexists, hapart, hleast _ hapart⟩

end Variants
end CommandSchema
