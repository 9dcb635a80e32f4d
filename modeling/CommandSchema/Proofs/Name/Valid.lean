/-
What a name is.

`Name.check` looks for what is wrong with a text; `IsName` says what has to be right.  They agree
(`check_eq_ok_iff`), and the qualified name of a member is a name again, whatever name its group
has (`IsName.qualified`).  A name has as many bytes as characters (`IsName.utf8ByteSize_eq`).
-/
import CommandSchema.Fault
import CommandSchema.Proofs.Text.Columns

namespace CommandSchema
namespace Name

/-- A letter of the case, and at least one character of a name after it. -/
def IsName (case : LetterCase) (name : String) : Prop :=
  ∃ first rest, name.toList = first :: rest ∧ rest ≠ [] ∧ case.isLetter first = true ∧
    ∀ c ∈ rest, isRest case c = true

theorem isRest_of_isLetter {case : LetterCase} {c : Char} (h : case.isLetter c = true) :
    isRest case c = true := by
  rw [isRest, h, Bool.true_or, Bool.true_or]

theorem isRest_underscore (case : LetterCase) : isRest case '_' = true := by
  cases case with
  | lower => rfl
  | upper => rfl

theorem badCharacter?_cons_eq_none_iff {case : LetterCase} {first : Char} {rest : List Char} :
    badCharacter? case (first :: rest) = none ↔
      case.isLetter first = true ∧ ∀ c ∈ rest, isRest case c = true := by
  by_cases h : case.isLetter first = true
  · simp [badCharacter?, h]
  · simp [badCharacter?, h]

theorem fault?_eq_none_iff {case : LetterCase} {name : String} :
    fault? case name = none ↔ IsName case name := by
  rw [fault?, ← String.length_toList]
  constructor
  · intro h
    split at h
    · cases h
    next hlong =>
      rw [Option.map_eq_none_iff] at h
      cases hchars : name.toList with
      | nil =>
        rw [hchars] at hlong
        exact absurd (by decide : [].length < 2) hlong
      | cons first rest =>
        rw [hchars] at h hlong
        obtain ⟨hfirst, hrest⟩ := badCharacter?_cons_eq_none_iff.mp h
        refine ⟨first, rest, hchars, ?_, hfirst, hrest⟩
        intro hnil
        rw [hnil, List.length_singleton] at hlong
        omega
  · intro ⟨first, rest, hchars, hne, hfirst, hrest⟩
    have hpos : 0 < rest.length := List.length_pos_iff.mpr hne
    have hlong : ¬ name.toList.length < 2 := by
      rw [hchars, List.length_cons]
      omega
    rw [if_neg hlong, hchars, Option.map_eq_none_iff]
    exact badCharacter?_cons_eq_none_iff.mpr ⟨hfirst, hrest⟩

theorem check_eq_ok_iff {case : LetterCase} {name : String} {u : Unit} :
    check case name = .ok u ↔ IsName case name := by
  rw [← fault?_eq_none_iff, check]
  cases fault? case name with
  | none => simp
  | some fault => simp

theorem IsName.isRest {case : LetterCase} {name : String} (h : IsName case name) :
    ∀ c ∈ name.toList, Name.isRest case c = true := by
  obtain ⟨first, rest, hchars, -, hfirst, hrest⟩ := h
  intro c hc
  rw [hchars] at hc
  rcases List.mem_cons.mp hc with rfl | hc
  · exact isRest_of_isLetter hfirst
  · exact hrest c hc

theorem IsName.notMem {case : LetterCase} {name : String} (h : IsName case name) {c : Char}
    (hc : Name.isRest case c = false) : c ∉ name.toList := by
  intro hmem
  rw [h.isRest c hmem] at hc
  cases hc

theorem IsName.append {case : LetterCase} {name more : String} (h : IsName case name)
    (hmore : ∀ c ∈ more.toList, Name.isRest case c = true) : IsName case (name ++ more) := by
  obtain ⟨first, rest, hchars, hne, hfirst, hrest⟩ := h
  refine ⟨first, rest ++ more.toList, ?_, ?_, hfirst, ?_⟩
  · rw [String.toList_append, hchars, List.cons_append]
  · exact List.append_ne_nil_of_left_ne_nil hne _
  · intro c hc
    rcases List.mem_append.mp hc with hc | hc
    · exact hrest c hc
    · exact hmore c hc

theorem val_le_of_isRest {case : LetterCase} {c : Char} (h : isRest case c = true) :
    c.val ≤ 127 := by
  have hletter : case.isLetter c = true → c ≤ 'z' := by
    cases case with
    | lower =>
      intro hc
      rw [LetterCase.isLetter, Bool.and_eq_true, decide_eq_true_eq, decide_eq_true_eq] at hc
      exact hc.2
    | upper =>
      intro hc
      rw [LetterCase.isLetter, Bool.and_eq_true, decide_eq_true_eq, decide_eq_true_eq] at hc
      exact Char.le_trans hc.2 (by decide)
  have hlast : c ≤ 'z' := by
    simp only [isRest, Bool.or_eq_true, Bool.and_eq_true, decide_eq_true_eq] at h
    rcases h with (h | h) | rfl
    · exact hletter h
    · exact Char.le_trans h.2 (by decide)
    · decide
  exact UInt32.le_trans hlast (by decide)

theorem IsName.utf8ByteSize_eq {case : LetterCase} {name : String} (h : IsName case name) :
    name.utf8ByteSize = name.length :=
  Text.utf8ByteSize_eq_length fun c hc => val_le_of_isRest (h.isRest c hc)

/-- Of the second part of a qualified name only the characters matter, not which comes first. -/
theorem IsName.qualified {case : LetterCase} {group member : String} (h : IsName case group)
    (hmember : ∀ c ∈ member.toList, Name.isRest case c = true) :
    IsName case (Name.qualified group member) := by
  refine (h.append ?_).append hmember
  intro c hc
  obtain rfl : c = '_' := by simpa using hc
  exact isRest_underscore case

end Name
end CommandSchema
