/-
Strings and integers read back.

What is written of a string, up to its closing quote, is read as that string, whatever follows: an
escape takes as many characters as it was written with, and every other character stands for
itself.  The digits of an integer are read as that integer as long as what follows does not go on
with it (`EndsNumber`), which no bracket, comma or colon does.
-/
import CommandSchema.Json.Reader

namespace CommandSchema
namespace Json

/-- Characters as a source in memory has them. -/
def glyphs (cs : List Char) : List Glyph := cs.map .char

theorem glyphs_cons (c : Char) (cs : List Char) : glyphs (c :: cs) = .char c :: glyphs cs := rfl

theorem glyphs_append (cs ds : List Char) : glyphs (cs ++ ds) = glyphs cs ++ glyphs ds :=
  List.map_append

theorem length_glyphs (cs : List Char) : (glyphs cs).length = cs.length := List.length_map _

/-! ## Strings -/

theorem hexDigit?_hexDigit {n : Nat} (h : n < 16) : hexDigit? (.char (hexDigit n)) = some n := by
  have hall : ∀ k : Fin 16, hexDigit? (.char (hexDigit k)) = some k.val := by decide
  exact hall ⟨n, h⟩

theorem readHex_control {n : Nat} (h : n < 32) (rest : List Glyph) :
    readHex (.char '0' :: .char '0' :: .char (hexDigit (n / 16)) :: .char (hexDigit (n % 16)) ::
      rest) = .ok (n, rest) := by
  have hzero : hexDigit? (.char '0') = some 0 := by decide
  have hhigh : hexDigit? (.char (hexDigit (n / 16))) = some (n / 16) :=
    hexDigit?_hexDigit (by omega)
  have hlow : hexDigit? (.char (hexDigit (n % 16))) = some (n % 16) := hexDigit?_hexDigit (by omega)
  have hvalue : ((0 * 16 + 0) * 16 + n / 16) * 16 + n % 16 = n := by omega
  simp only [readHex, hzero, hhigh, hlow, hvalue]

/-- A control character is read from its escape. -/
theorem readEscape_control {c : Char} (h : c.toNat < 32) (rest : List Glyph) :
    readEscape (.char 'u' :: .char '0' :: .char '0' :: .char (hexDigit (c.toNat / 16)) ::
      .char (hexDigit (c.toNat % 16)) :: rest) = .ok (c, rest) := by
  have hlow : isLowSurrogate c.toNat = false := by
    simp only [isLowSurrogate, Bool.and_eq_false_iff, decide_eq_false_iff_not]
    omega
  have hhigh : isHighSurrogate c.toNat = false := by
    simp only [isHighSurrogate, Bool.and_eq_false_iff, decide_eq_false_iff_not]
    omega
  simp only [readEscape, readHex_control h, hlow, hhigh, Bool.false_eq_true, if_false,
    Char.ofNat_toNat]

/-- A character with an escape of one letter. -/
theorem readChars_letter {c d : Char} {rest : List Glyph}
    (h : readEscape (.char d :: rest) = .ok (c, rest)) (n : Nat) :
    readChars (n + 1) false (glyphs ['\\', d] ++ rest) =
      (readChars n false rest).map fun (cs, rest) => (c :: cs, rest) := by
  simp [glyphs, readChars, h]

/-- One character of a string is read from what is written of it. -/
theorem readChars_escapeChar (c : Char) (n : Nat) (rest : List Glyph) :
    readChars (n + 1) false (glyphs (escapeChar c) ++ rest) =
      (readChars n false rest).map fun (cs, rest) => (c :: cs, rest) := by
  unfold escapeChar
  by_cases hquote : c = '"'
  · subst hquote
    exact readChars_letter rfl n
  by_cases hbackslash : c = '\\'
  · subst hbackslash
    exact readChars_letter rfl n
  by_cases hfeed : c = '\n'
  · subst hfeed
    exact readChars_letter rfl n
  by_cases hreturn : c = '\r'
  · subst hreturn
    exact readChars_letter rfl n
  by_cases htab : c = '\t'
  · subst htab
    exact readChars_letter rfl n
  by_cases hback : c = '\x08'
  · subst hback
    exact readChars_letter rfl n
  by_cases hform : c = '\x0c'
  · subst hform
    exact readChars_letter rfl n
  simp only [hquote, hbackslash, hfeed, hreturn, htab, hback, hform, if_false]
  by_cases hcontrol : c.toNat < 32
  · simp [glyphs, readChars, hcontrol, readEscape_control hcontrol]
  · simp [glyphs, readChars, hquote, hbackslash, hcontrol]

theorem readChars_escaped (cs : List Char) {n : Nat} (h : cs.length < n) (rest : List Glyph) :
    readChars n false (glyphs (cs.flatMap escapeChar) ++ .char '"' :: rest) = .ok (cs, rest) := by
  induction cs generalizing n with
  | nil =>
    obtain ⟨k, rfl⟩ : ∃ k, n = k + 1 := ⟨n - 1, by rw [List.length_nil] at h; omega⟩
    simp [glyphs, readChars]
  | cons c cs ih =>
    obtain ⟨k, rfl⟩ : ∃ k, n = k + 1 := ⟨n - 1, by omega⟩
    have hshort : cs.length < k := by simpa using h
    rw [List.flatMap_cons, glyphs_append, List.append_assoc, readChars_escapeChar, ih hshort]
    rfl

theorem length_le_length_escaped (cs : List Char) : cs.length ≤ (cs.flatMap escapeChar).length := by
  induction cs with
  | nil => simp
  | cons c cs ih =>
    have hc : 1 ≤ (escapeChar c).length := by grind [escapeChar]
    simp only [List.flatMap_cons, List.length_cons, List.length_append]
    omega

theorem readString_stringChars (s : String) (rest : List Glyph) :
    readString (glyphs (stringChars s).tail ++ rest) = .ok (s, rest) := by
  have hsource : glyphs (stringChars s).tail ++ rest =
      glyphs (s.toList.flatMap escapeChar) ++ .char '"' :: rest := by
    simp [stringChars, glyphs]
  have hlength := length_le_length_escaped s.toList
  have hfuel : s.toList.length < (glyphs (stringChars s).tail ++ rest).length + 1 := by
    rw [hsource, List.length_append, length_glyphs]
    omega
  rw [hsource] at hfuel ⊢
  rw [readString, readChars_escaped s.toList hfuel]
  simp [Except.map]

/-! ## Integers -/

/-- A source that does not go on with a number in front of it. -/
def EndsNumber (rest : List Glyph) : Prop :=
  ∀ g ∈ rest.head?, digit? g = none ∧ g ≠ .char '.' ∧ g ≠ .char 'e' ∧ g ≠ .char 'E'

theorem digit?_of_isDigit {c : Char} (h : c.isDigit) : digit? (.char c) = some (c.toNat - 48) := by
  have hrange : 48 ≤ c.val ∧ c.val ≤ 57 := by simpa [Char.isDigit] using h
  exact if_pos hrange

theorem ne_of_isDigit {c d : Char} (hc : c.isDigit) (hd : d.isDigit = false) : c ≠ d := by
  rintro rfl
  rw [hd] at hc
  exact Bool.false_ne_true hc

theorem readDigits_glyphs {ds : List Char} (hds : ∀ c ∈ ds, c.isDigit) {rest : List Glyph}
    (hrest : EndsNumber rest) {limit value : Nat} (count : Nat)
    (hlimit : Nat.ofDigitChars 10 ds value < limit) :
    readDigits limit value count (glyphs ds ++ rest) =
      ⟨Nat.ofDigitChars 10 ds value, count + ds.length, false, rest⟩ := by
  induction ds generalizing value count with
  | nil =>
    cases rest with
    | nil => rfl
    | cons g rest =>
      have hg : digit? g = none := (hrest g rfl).1
      simp [glyphs, readDigits, hg]
  | cons c ds ih =>
    have hc : digit? (.char c) = some (c.toNat - 48) := digit?_of_isDigit (hds c List.mem_cons_self)
    have hstep : Nat.ofDigitChars 10 (c :: ds) value =
        Nat.ofDigitChars 10 ds (value * 10 + (c.toNat - 48)) := by
      rw [Nat.ofDigitChars_cons, Nat.mul_comm]
      rfl
    have hgrows : value * 10 + (c.toNat - 48) ≤
        Nat.ofDigitChars 10 ds (value * 10 + (c.toNat - 48)) := by
      rw [Nat.ofDigitChars_eq_ofDigitChars_zero]
      exact Nat.le_add_right_of_le (Nat.le_mul_of_pos_left _ (Nat.pow_pos (by decide)))
    rw [hstep] at hlimit ⊢
    have hfits : value * 10 + (c.toNat - 48) < limit := Nat.lt_of_le_of_lt hgrows hlimit
    have hmore := ih (fun d hd => hds d (List.mem_cons_of_mem c hd)) (count + 1) hlimit
    rw [glyphs_cons, List.cons_append, readDigits, hc]
    simp only [hfits, if_true, hmore, List.length_cons]
    rw [Nat.add_assoc, Nat.add_comm 1]

/-- Only zero is written with a zero at the beginning. -/
theorem head?_toDigits_ne {n : Nat} (h : 0 < n) : (Nat.toDigits 10 n).head? ≠ some '0' := by
  have hdigit : ∀ k : Fin 10, 0 < k.val → Nat.digitChar k ≠ '0' := by decide
  induction n using Nat.base_induction 10 (by decide) with
  | single m hm =>
    rw [Nat.toDigits_of_lt_base hm]
    simpa using hdigit ⟨m, hm⟩ h
  | digit m k hk hm ih =>
    have hfirst := ih hm
    rw [← Nat.toDigits_append_toDigits (by decide) hm hk]
    cases hchars : Nat.toDigits 10 m with
    | nil => exact absurd hchars Nat.toDigits_ne_nil
    | cons c cs =>
      rw [hchars] at hfirst
      exact hfirst

theorem readTail_of_endsNumber (origin : Origin) (negative : Bool) (n : Nat) {rest : List Glyph}
    (h : EndsNumber rest) :
    readTail origin negative n rest = wholeNumber origin negative n rest := by
  unfold readTail
  split
  · exact absurd rfl (h _ rfl).2.1
  · exact absurd rfl (h _ rfl).2.2.1
  · exact absurd rfl (h _ rfl).2.2.2
  · rfl

theorem readNumber_toDigits (origin : Origin) (negative : Bool) {n : Nat} (hn : n < wordLimit)
    {rest : List Glyph} (hrest : EndsNumber rest) :
    readNumber origin negative (glyphs (Nat.toDigits 10 n) ++ rest) =
      wholeNumber origin negative n rest := by
  have htail := readTail_of_endsNumber origin negative n hrest
  by_cases hzero : n = 0
  · subst hzero
    cases rest with
    | nil => exact htail
    | cons g rest =>
      have hg : digit? g = none := (hrest g rfl).1
      rw [Nat.toDigits_zero]
      simp only [glyphs, List.map_cons, List.map_nil, List.cons_append, List.nil_append, readNumber,
        hg, Option.isSome_none, Bool.false_eq_true, if_false]
      exact htail
  · have hds : ∀ c ∈ Nat.toDigits 10 n, c.isDigit := fun c hc =>
      Nat.isDigit_of_mem_toDigits (by decide) (by decide) hc
    have hvalue : Nat.ofDigitChars 10 (Nat.toDigits 10 n) 0 = n := Nat.ofDigitChars_ten_toDigits
    have hread := readDigits_glyphs hds hrest 0 (hvalue.symm ▸ hn)
    rw [hvalue] at hread
    have hhead := head?_toDigits_ne (Nat.pos_of_ne_zero hzero)
    cases hchars : Nat.toDigits 10 n with
    | nil => exact absurd hchars Nat.toDigits_ne_nil
    | cons c ds =>
      rw [hchars] at hread hhead hds
      have hc : digit? (.char c) = some (c.toNat - 48) :=
        digit?_of_isDigit (hds c List.mem_cons_self)
      have hne : c ≠ '0' := by simpa using hhead
      rw [glyphs_cons, List.cons_append] at hread ⊢
      unfold readNumber
      split
      · next heq => cases heq
      · next heq => exact absurd (Glyph.char.inj (List.cons.inj heq).1) hne
      · next heq =>
        obtain ⟨rfl, rfl⟩ := List.cons.inj heq
        simp only [hc, Option.isNone_some, Bool.false_eq_true, if_false, hread]
        exact htail

theorem toDigits_eq_cons (n : Nat) : ∃ c ds, Nat.toDigits 10 n = c :: ds ∧ c.isDigit := by
  cases h : Nat.toDigits 10 n with
  | nil => exact absurd h Nat.toDigits_ne_nil
  | cons c ds =>
    have hc : c ∈ Nat.toDigits 10 n := h ▸ List.mem_cons_self
    exact ⟨c, ds, rfl, Nat.isDigit_of_mem_toDigits (by decide) (by decide) hc⟩

/-- A value that begins with a digit is a number. -/
theorem readScalar_of_isDigit (origin : Origin) {c : Char} (h : c.isDigit) (rest : List Glyph) :
    readScalar origin (.char c :: rest) =
      (readNumber origin false (.char c :: rest)).map fun (n, rest) => (.number n, rest) := by
  have hne {d : Char} (hd : d.isDigit = false) : Glyph.char c ≠ .char d := fun heq =>
    ne_of_isDigit h hd (Glyph.char.inj heq)
  unfold readScalar
  split
  · next heq => cases heq
  · next heq => exact absurd (List.cons.inj heq).1 (hne rfl)
  · next heq => exact absurd (List.cons.inj heq).1 (hne rfl)
  · next heq => exact absurd (List.cons.inj heq).1 (hne rfl)
  · next heq => exact absurd (List.cons.inj heq).1 (hne rfl)
  · next heq => exact absurd (List.cons.inj heq).1 (hne rfl)
  · next heq =>
    obtain ⟨rfl, rfl⟩ := List.cons.inj heq
    rw [digit?_of_isDigit h]
    rfl

theorem readScalar_integerChars (origin : Origin) (i : Int)
    (h : -9223372036854775808 ≤ i ∧ i < 18446744073709551616) {rest : List Glyph}
    (hrest : EndsNumber rest) :
    readScalar origin (glyphs (integerChars i) ++ rest) = .ok (.number (.integer i h), rest) := by
  have hbound : i.natAbs < wordLimit := by
    have hlimit : wordLimit = 18446744073709551616 := rfl
    omega
  have hread (negative : Bool) := readNumber_toDigits origin negative hbound hrest
  by_cases hneg : i < 0
  · have hrange : 0 < i.natAbs ∧ i.natAbs ≤ 9223372036854775808 := by omega
    have hvalue : -(i.natAbs : Int) = i := by omega
    rw [integerChars, if_pos hneg, glyphs_cons, List.cons_append]
    show (readNumber origin true (glyphs (Nat.toDigits 10 i.natAbs) ++ rest)).map _ = _
    rw [hread true, wholeNumber, if_neg (by decide), dif_pos hrange]
    simp only [Except.map, hvalue]
  · have hrange : i.natAbs < 18446744073709551616 := hbound
    have hvalue : (i.natAbs : Int) = i := by omega
    obtain ⟨c, ds, hchars, hc⟩ := toDigits_eq_cons i.natAbs
    have hnumber := hread false
    rw [integerChars, if_neg hneg]
    rw [hchars, glyphs_cons, List.cons_append] at hnumber ⊢
    rw [readScalar_of_isDigit origin hc, hnumber, wholeNumber, if_pos rfl, dif_pos hrange]
    simp only [Except.map, hvalue]

/-- What an integer is written with begins with a digit or with the sign. -/
theorem integerChars_eq_cons (i : Int) :
    ∃ c cs, integerChars i = c :: cs ∧ (c = '-' ∨ c.isDigit) := by
  obtain ⟨c, ds, hchars, hc⟩ := toDigits_eq_cons i.natAbs
  unfold integerChars
  by_cases hneg : i < 0
  · rw [if_pos hneg]
    exact ⟨'-', _, rfl, Or.inl rfl⟩
  · rw [if_neg hneg]
    exact ⟨c, ds, hchars, Or.inr hc⟩

end Json
end CommandSchema
