/-
Types of options that are enumerations.

A type is an enumeration of some members exactly when it is written from them, with bars between
them and any white space around each, and the members are `Regular`: at least two, all different,
none empty, none with a bar in it or with white space at its ends.  So the members of an enumeration
can be written by themselves again, and stand for the same type.
-/
import CommandSchema.Proofs.CommandOption.Segments
import CommandSchema.Proofs.Text.Trim

namespace CommandSchema

namespace Variants

/-- The members that an enumeration may have. -/
structure Regular (variants : List String) : Prop where
  two_le : 2 ≤ variants.length
  nodup : variants.Nodup
  empty_notMem : "" ∉ variants
  bar_notMem : ∀ v ∈ variants, bar ∉ v.toList
  trimmed : ∀ v ∈ variants, Text.IsTrimmed v

theorem isSpace_bar : Text.isSpace bar = false := by decide

/-- White space brings no bars. -/
theorem bar_notMem_of_padded {v padded : String} (h : Text.Padded v padded)
    (hv : bar ∉ v.toList) : bar ∉ padded.toList := by
  have hblank {s : String} (hs : Text.isBlank s = true) : bar ∉ s.toList := fun hmem => by
    have hspace : Text.isSpace bar = true := List.all_eq_true.mp hs bar hmem
    rw [isSpace_bar] at hspace
    cases hspace
  obtain ⟨before, after, hbefore, hafter, rfl⟩ := h
  simp only [String.toList_append, List.mem_append, not_or]
  exact ⟨⟨hblank hbefore, hv⟩, hblank hafter⟩

/-- The parts of a type between its bars, written with bars between them, are the type. -/
theorem join_split (type : String) : join (Text.split bar type) = type := by
  rw [join, ← String.toList_inj, String.toList_intercalate, Text.split, List.map_map]
  have hparts : (type.toList.splitOn bar).map (String.toList ∘ String.ofList) =
      type.toList.splitOn bar := List.map_id'' (fun _ => String.toList_ofList) _
  rw [hparts]
  exact List.intercalate_splitOn bar

/-- A type has a bar exactly when bars part it. -/
theorem two_le_length_split_iff {type : String} :
    2 ≤ (Text.split bar type).length ↔ bar ∈ type.toList := by
  rw [Text.split, List.length_map]
  constructor
  · intro htwo
    by_contra hbar
    rw [List.splitOn_eq_singleton hbar, List.length_singleton] at htwo
    exact absurd htwo (by decide)
  · intro hbar
    obtain ⟨front, back, hchars⟩ := List.append_of_mem hbar
    have hfront := List.length_pos_of_ne_nil (List.splitOn_ne_nil bar front)
    have hback := List.length_pos_of_ne_nil (List.splitOn_ne_nil bar back)
    rw [hchars, List.splitOn_append_cons_self, List.length_append]
    omega

theorem exists_padded_ofType (type : String) :
    ∃ padded, List.Forall₂ Text.Padded (ofType type) padded ∧ type = join padded := by
  refine ⟨Text.split bar type, ?_, (join_split type).symm⟩
  rw [ofType, List.forall₂_map_left_iff]
  exact List.forall₂_same.mpr fun part _ => Text.padded_trim part

section Padded

variable {variants padded : List String}

theorem bar_notMem_of_forall₂_padded (h : List.Forall₂ Text.Padded variants padded)
    (hbar : ∀ v ∈ variants, bar ∉ v.toList) : ∀ part ∈ padded, bar ∉ part.toList := by
  induction h with
  | nil => exact List.forall_mem_nil _
  | cons hpart _ ih =>
    rw [List.forall_mem_cons] at hbar ⊢
    exact ⟨bar_notMem_of_padded hpart hbar.1, ih hbar.2⟩

theorem map_trim_of_forall₂_padded (h : List.Forall₂ Text.Padded variants padded)
    (htrimmed : ∀ v ∈ variants, Text.IsTrimmed v) : padded.map Text.trim = variants := by
  induction h with
  | nil => rfl
  | cons hpart _ ih =>
    rw [List.forall_mem_cons] at htrimmed
    rw [List.map_cons, hpart.trim_eq htrimmed.1, ih htrimmed.2]

end Padded

namespace Regular

variable {variants padded : List String}

theorem split_join_padded (h : Regular variants)
    (hpadded : List.Forall₂ Text.Padded variants padded) :
    Text.split bar (join padded) = padded := by
  refine split_join (fun hnil => ?_) (bar_notMem_of_forall₂_padded hpadded h.bar_notMem)
  have htwo := h.two_le
  rw [hpadded.length_eq, hnil] at htwo
  exact absurd htwo (by decide)

/-- Regular members are found again, whatever white space is around them. -/
theorem ofType_join (h : Regular variants)
    (hpadded : List.Forall₂ Text.Padded variants padded) : ofType (join padded) = variants := by
  rw [ofType, h.split_join_padded hpadded, map_trim_of_forall₂_padded hpadded h.trimmed]

theorem bar_mem_join (h : Regular variants)
    (hpadded : List.Forall₂ Text.Padded variants padded) : bar ∈ (join padded).toList := by
  rw [← two_le_length_split_iff, h.split_join_padded hpadded, ← hpadded.length_eq]
  exact h.two_le

end Regular

end Variants

namespace CommandOption

open Variants

theorem StandsFor.regular {type : String} {variants : List String}
    (h : StandsFor type .enum variants) : Regular variants := by
  cases h with
  | enum hbar hempty hnodup =>
    refine ⟨?_, hnodup, hempty, fun v => bar_notMem_of_mem_ofType, fun v hv => ?_⟩
    · rw [ofType, List.length_map]
      exact two_le_length_split_iff.mpr hbar
    · obtain ⟨part, -, rfl⟩ := List.mem_map.mp hv
      exact Text.isTrimmed_trim part

theorem standsFor_enum_iff {type : String} {variants : List String} :
    StandsFor type .enum variants ↔
      Regular variants ∧ ∃ padded, List.Forall₂ Text.Padded variants padded ∧
        type = join padded := by
  constructor
  · intro h
    refine ⟨h.regular, ?_⟩
    cases h with
    | enum => exact exists_padded_ofType type
  · rintro ⟨hregular, padded, hpadded, rfl⟩
    have hmembers := hregular.ofType_join hpadded
    have hstands : StandsFor (join padded) .enum (ofType (join padded)) := by
      refine .enum (hregular.bar_mem_join hpadded) ?_ ?_
      · rw [hmembers]
        exact hregular.empty_notMem
      · rw [hmembers]
        exact hregular.nodup
    rwa [hmembers] at hstands

/-- A type is an enumeration of some members exactly when these are regular and the type is written
from them, with bars between them and any white space around each.  The members by themselves, with
bars between them, are a type of the same enumeration. -/
theorem resolveType_eq_enum_iff (type : String) (variants : List String) :
    (∀ command option, resolveType command option type = .ok (.enum, variants) ↔
      Regular variants ∧ ∃ padded, List.Forall₂ Text.Padded variants padded ∧
        type = join padded) ∧
    ∀ command option, resolveType command option type = .ok (.enum, variants) →
      ∀ command option, resolveType command option (join variants) = .ok (.enum, variants) := by
  refine ⟨fun command option => ?_, fun command option h command' option' => ?_⟩
  · rw [resolveType_eq_ok_iff, standsFor_enum_iff]
  · rw [resolveType_eq_ok_iff, standsFor_enum_iff] at h ⊢
    exact ⟨h.1, variants, List.forall₂_same.mpr fun v _ => Text.Padded.refl v, rfl⟩

/-- White space goes away, also where it is not ASCII, and what stands between is kept. -/
example : resolveType "burn" "mode" " erase all\u2003|\n verify|read " =
    .ok (.enum, ["erase all", "verify", "read"]) := by rfl

end CommandOption
end CommandSchema
