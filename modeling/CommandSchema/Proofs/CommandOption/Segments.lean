/-
Enumerations in segments.

Whatever the members are, segments only break their text: one after the other they are the text
again, they are broken behind bars, and a segment that is too wide for its width holds a single
member (`exists_piece_of_fill`).  The members of an option have no bars in them, so they are found
again between the bars of its segments (`split_join`).
-/
import CommandSchema.Proofs.CommandOption.Types
import CommandSchema.Proofs.CommandOption.Variants
import CommandSchema.Proofs.Text.Lines

namespace CommandSchema

/-! ## Trimmed texts -/

namespace Text

theorem toList_trim_sublist (s : String) : (trim s).toList.Sublist s.toList := by
  rw [trim, String.toList_ofList, trimChars, ← List.reverse_sublist, List.reverse_reverse]
  exact (List.dropWhile_sublist _).trans (List.reverse_sublist.mpr (List.dropWhile_sublist _))

end Text

namespace Variants

theorem bar_notMem_of_mem_ofType {type v : String} (h : v ∈ ofType type) : bar ∉ v.toList := by
  obtain ⟨part, hpart, rfl⟩ := List.mem_map.mp h
  exact fun hbar => Text.notMem_of_mem_split hpart ((Text.toList_trim_sublist part).subset hbar)

theorem bar_notMem_of_standsFor {type : String} {kind : OptionKind} {variants : List String}
    (h : CommandOption.StandsFor type kind variants) : ∀ v ∈ variants, bar ∉ v.toList := by
  cases h with
  | enum => exact fun v hv => bar_notMem_of_mem_ofType hv
  | _ => exact fun v hv => absurd hv List.not_mem_nil

/-- Members without bars are found again between the bars of their enumeration. -/
theorem split_join {variants : List String} (hne : variants ≠ [])
    (hbar : ∀ v ∈ variants, bar ∉ v.toList) : Text.split bar (join variants) = variants := by
  have hchars : (join variants).toList = [bar].intercalate (variants.map String.toList) := by
    rw [join, String.toList_intercalate]
    rfl
  rw [Text.split, hchars, List.splitOn_intercalate bar (List.forall_mem_map.mpr hbar)
    (mt List.map_eq_nil_iff.mp hne), List.map_map]
  exact List.map_id'' (fun _ => String.ofList_toList) variants

/-! ## Wide segments -/

/-- A segment that is wider than the width says is what a segment began with, or a single piece. -/
theorem exists_piece_of_fill {width : Nat} {current segment : String}
    {ps before after : List String} (h : fill width current ps = before ++ segment :: after)
    (hwide : width < segment.utf8ByteSize) :
    (before = [] ∧ segment = current) ∨
      ∃ earlier later, ps = earlier ++ segment :: later ∧
        String.join before = current ++ String.join earlier := by
  -- The segment at hand gets a second piece only if it keeps to the width with it.
  induction ps generalizing current before with
  | nil =>
    rw [fill] at h
    split at h
    next => simp at h
    next =>
      rcases List.cons_eq_append_iff.mp h with ⟨hbefore, hsegment⟩ | ⟨_, -, hrest⟩
      · exact .inl ⟨hbefore, (List.cons.inj hsegment).1⟩
      · simp at hrest
  | cons p rest ih =>
    rw [fill] at h
    split at h
    next =>
      rcases List.cons_eq_append_iff.mp h with ⟨hbefore, hsegment⟩ | ⟨others, rfl, hrest⟩
      · exact .inl ⟨hbefore, (List.cons.inj hsegment).1⟩
      · rcases ih hrest with ⟨rfl, rfl⟩ | ⟨earlier, later, rfl, hjoin⟩
        · exact .inr ⟨[], rest, rfl, by simp [String.join_cons]⟩
        · refine .inr ⟨p :: earlier, later, rfl, ?_⟩
          rw [String.join_cons, hjoin, String.join_cons]
    next hroom =>
      rcases ih h with ⟨rfl, rfl⟩ | ⟨earlier, later, rfl, hjoin⟩
      · have hempty : current = "" := by
          by_contra hne
          rw [String.utf8ByteSize_append] at hwide
          exact hroom ⟨hne, hwide⟩
        subst hempty
        exact .inr ⟨[], rest, by simp, by simp⟩
      · refine .inr ⟨p :: earlier, later, rfl, ?_⟩
        rw [hjoin, String.join_cons, String.append_assoc]

/-- A piece is a member, and the bar behind it unless it is the last. -/
theorem exists_variant_of_pieces {variants earlier later : List String} {p : String}
    (h : pieces variants = earlier ++ p :: later) :
    ∃ front v back, variants = front ++ v :: back ∧ earlier = front.map (· ++ "|") ∧
      p = if back = [] then v else v ++ "|" := by
  induction variants generalizing earlier with
  | nil => simp [pieces] at h
  | cons v rest ih =>
    cases rest with
    | nil =>
      rw [pieces] at h
      rcases List.cons_eq_append_iff.mp h with ⟨rfl, hp⟩ | ⟨_, -, hrest⟩
      · exact ⟨[], v, [], rfl, rfl, (List.cons.inj hp).1⟩
      · simp at hrest
    | cons w rest =>
      rw [pieces] at h
      · rcases List.cons_eq_append_iff.mp h with ⟨rfl, hp⟩ | ⟨others, rfl, hrest⟩
        · exact ⟨[], v, w :: rest, rfl, rfl, (List.cons.inj hp).1⟩
        · obtain ⟨front, u, back, hvariants, rfl, hu⟩ := ih hrest
          exact ⟨v :: front, u, back, by rw [hvariants, List.cons_append], rfl, hu⟩
      · simp

/-- The segments of an enumeration are its text, broken behind bars.  A segment that is wider than
the width says holds a single member, at its place in the enumeration.  The members of an option are
found again between the bars of its segments. -/
theorem wrap_lossless (width : Nat) :
    (∀ variants,
      String.join (wrap width variants) = join variants ∧
      (∀ segment ∈ (wrap width variants).dropLast, ∃ text, segment = text ++ "|") ∧
      ∀ before segment after, wrap width variants = before ++ segment :: after →
        width < segment.utf8ByteSize →
        ∃ earlier v later, variants = earlier ++ v :: later ∧
          String.join before = String.join (earlier.map (· ++ "|")) ∧
          segment = if later = [] then v else v ++ "|") ∧
      ∀ o : CommandOption, o.IsResolved → o.kind = .enum →
        Text.split bar (String.join (wrap width o.variants)) = o.variants := by
  refine ⟨fun variants => ⟨join_wrap width variants, brokenAtBars_wrap width variants, ?_⟩, ?_⟩
  · intro before segment after h hwide
    rcases exists_piece_of_fill h hwide with ⟨-, rfl⟩ | ⟨earlier, later, hpieces, hjoin⟩
    · exact absurd hwide (Nat.not_lt_zero width)
    · obtain ⟨front, v, back, hvariants, rfl, hv⟩ := exists_variant_of_pieces hpieces
      exact ⟨front, v, back, hvariants, by rw [hjoin, String.empty_append], hv⟩
  · rintro o ⟨taken, command, decl, hresolve⟩ hkind
    have hwell := CommandOption.wellFormed_of_resolve hresolve
    obtain ⟨hstands, -⟩ := CommandOption.typed_of_resolve hresolve
    rw [join_wrap]
    exact split_join (hwell.variants_iff.mpr hkind) (bar_notMem_of_standsFor hstands)

/-- An enumeration with white space, and with a member that no segment of ten bytes can hold. -/
def wideMember : OptionDecl :=
  { name := "mode", type := "read | program_everything| ok", help := .line "What to do" }

theorem wrap_lossless_wideMember :
    ∃ o, CommandOption.resolve {} "burn" wideMember = .ok o ∧ o.kind = .enum ∧
      wrap 10 o.variants = ["read|", "program_everything|", "ok"] ∧
      (∃ earlier v later, o.variants = earlier ++ v :: later ∧
        String.join ["read|"] = String.join (earlier.map (· ++ "|")) ∧
        "program_everything|" = if later = [] then v else v ++ "|") ∧
      Text.split bar "read|program_everything|ok" = o.variants := by
  obtain ⟨o, h, hkind, hwrap⟩ : ∃ o, CommandOption.resolve {} "burn" wideMember = .ok o ∧
      o.kind = .enum ∧ wrap 10 o.variants = ["read|"] ++ "program_everything|" :: ["ok"] :=
    ⟨_, rfl, rfl, by decide +kernel⟩
  obtain ⟨hall, hsplit⟩ := wrap_lossless 10
  refine ⟨o, h, hkind, hwrap, (hall o.variants).2.2 _ _ _ hwrap (by decide), ?_⟩
  have hfound := hsplit o ⟨_, _, _, h⟩ hkind
  rwa [hwrap] at hfound

end Variants
end CommandSchema
