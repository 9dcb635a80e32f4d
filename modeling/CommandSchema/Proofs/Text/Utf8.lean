/-
Texts as bytes.

A text is written to a file as UTF-8, and a file is read as UTF-8.  Every character begins with a
byte that says how many bytes it takes, so the characters of a text are found again one after the
other, whatever follows them (`leading?_utf8EncodeChar`).  A file that holds a text therefore has
the glyphs of the text and no stray bytes (`ofBytes_toUTF8`).
-/
import CommandSchema.Text.Glyph

namespace CommandSchema
namespace Glyph

/-! ## Bytes -/

theorem toList_eq_data_toList (bytes : ByteArray) : bytes.toList = bytes.data.toList := by
  have hloop (i : Nat) (read : List UInt8) :
      ByteArray.toList.loop bytes i read = read.reverse ++ bytes.data.toList.drop i := by
    fun_induction ByteArray.toList.loop bytes i read with
    | case1 i read hlt ih =>
      have hlength : i < bytes.data.toList.length := hlt
      have hbyte : bytes.get! i = bytes.data.toList[i] :=
        getElem!_pos bytes.data i hlt
      rw [ih, List.drop_eq_getElem_cons hlength, hbyte, List.reverse_cons, List.append_assoc]
      rfl
    | case2 i read hge =>
      rw [List.drop_eq_nil_of_le (Nat.le_of_not_lt hge), List.append_nil]
  rw [ByteArray.toList, hloop]
  rfl

theorem toNat_ofNat {n : Nat} (h : n < 256) : (UInt8.ofNat n).toNat = n := by
  rw [UInt8.toNat_ofNat']
  exact Nat.mod_eq_of_lt h

theorem lead_iff {a : UInt8} : a < 0x80 ↔ a.toNat < 128 := UInt8.lt_iff_toNat_lt

theorem isTail_iff {b : UInt8} : isTail b = true ↔ 128 ≤ b.toNat ∧ b.toNat ≤ 191 := by
  simp [isTail, UInt8.le_iff_toNat_le]

theorem isPair_iff {a b : UInt8} :
    isPair a b = true ↔ 194 ≤ a.toNat ∧ a.toNat ≤ 223 ∧ isTail b = true := by
  simp [isPair, UInt8.le_iff_toNat_le, and_assoc]

theorem isTriple_iff {a b c : UInt8} :
    isTriple a b c = true ↔ 224 ≤ a.toNat ∧ a.toNat ≤ 239 ∧ isTail b = true ∧ isTail c = true ∧
      (a.toNat ≠ 224 ∨ 160 ≤ b.toNat) ∧ (a.toNat ≠ 237 ∨ b.toNat ≤ 159) := by
  simp [isTriple, UInt8.le_iff_toNat_le, ← UInt8.toNat_inj, and_assoc]

theorem isQuad_iff {a b c d : UInt8} :
    isQuad a b c d = true ↔ 240 ≤ a.toNat ∧ a.toNat ≤ 244 ∧ isTail b = true ∧ isTail c = true ∧
      isTail d = true ∧ (a.toNat ≠ 240 ∨ 144 ≤ b.toNat) ∧ (a.toNat ≠ 244 ∨ b.toNat ≤ 143) := by
  simp [isQuad, UInt8.le_iff_toNat_le, ← UInt8.toNat_inj, and_assoc]

/-! ## Characters -/

section Leading

variable {a b c d : UInt8} (rest : List UInt8)

theorem leading?_single (h : a.toNat < 128) :
    leading? a rest = some (Char.ofNat a.toNat, 0) := by
  rw [leading?.eq_def, if_pos (lead_iff.mpr h)]

theorem leading?_pair (h : isPair a b = true) :
    leading? a (b :: rest) = some (codePoint (a.toNat % 32) [b], 1) := by
  have hlead : ¬ a < 0x80 := by
    rw [lead_iff]
    have hpair := isPair_iff.mp h
    omega
  rw [leading?.eq_def, if_neg hlead]
  match rest with
  | [] | [_] | _ :: _ :: _ => exact if_pos h

theorem leading?_triple (h : isTriple a b c = true) :
    leading? a (b :: c :: rest) = some (codePoint (a.toNat % 16) [b, c], 2) := by
  have htriple := isTriple_iff.mp h
  have hlead : ¬ a < 0x80 := by
    rw [lead_iff]
    omega
  have hpair : ¬ isPair a b = true := by
    rw [isPair_iff]
    omega
  rw [leading?.eq_def, if_neg hlead]
  match rest with
  | [] | _ :: _ => simp only [hpair, h, if_true, if_false, Bool.false_eq_true]

theorem leading?_quad (h : isQuad a b c d = true) :
    leading? a (b :: c :: d :: rest) = some (codePoint (a.toNat % 8) [b, c, d], 3) := by
  have hquad := isQuad_iff.mp h
  have hlead : ¬ a < 0x80 := by
    rw [lead_iff]
    omega
  have hpair : ¬ isPair a b = true := by
    rw [isPair_iff]
    omega
  have htriple : ¬ isTriple a b c = true := by
    rw [isTriple_iff]
    omega
  rw [leading?.eq_def, if_neg hlead]
  simp only [hpair, htriple, h, if_true, if_false, Bool.false_eq_true]

end Leading

/-- A character is found again from its bytes. -/
theorem leading?_utf8EncodeChar (c : Char) (more : List UInt8) :
    ∃ first tails, String.utf8EncodeChar c = first :: tails ∧
      leading? first (tails ++ more) = some (c, tails.length) := by
  have hvalid : c.val.toNat < 0xD800 ∨ 0xDFFF < c.val.toNat ∧ c.val.toNat < 0x110000 := c.valid
  have hchar : Char.ofNat c.val.toNat = c := Char.ofNat_toNat c
  rw [String.utf8EncodeChar.eq_def]
  generalize c.val.toNat = v at hvalid hchar
  dsimp only
  have hlow := toNat_ofNat (n := v % 64 + 128) (by omega)
  have hmiddle := toNat_ofNat (n := v / 64 % 64 + 128) (by omega)
  have hhigh := toNat_ofNat (n := v / 4096 % 64 + 128) (by omega)
  split
  · next hone =>
    have hfirst := toNat_ofNat (n := v) (by omega)
    refine ⟨_, _, rfl, ?_⟩
    rw [leading?_single _ (by omega), hfirst, hchar]
    rfl
  split
  · next hone htwo =>
    have hfirst := toNat_ofNat (n := v / 64 % 32 + 192) (by omega)
    refine ⟨_, _, rfl, ?_⟩
    rw [List.cons_append, leading?_pair _ (by rw [isPair_iff, isTail_iff]; omega), codePoint,
      List.foldl_cons, List.foldl_nil, hfirst, hlow, ← hchar]
    have hvalue : (v / 64 % 32 + 192) % 32 * 64 + (v % 64 + 128) % 64 = v := by omega
    rw [hvalue]
    rfl
  split
  · next hone htwo hthree =>
    have hfirst := toNat_ofNat (n := v / 4096 % 16 + 224) (by omega)
    refine ⟨_, _, rfl, ?_⟩
    rw [List.cons_append, List.cons_append,
      leading?_triple _ (by rw [isTriple_iff, isTail_iff, isTail_iff]; omega), codePoint,
      List.foldl_cons, List.foldl_cons, List.foldl_nil, hfirst, hmiddle, hlow, ← hchar]
    have hvalue : ((v / 4096 % 16 + 224) % 16 * 64 + (v / 64 % 64 + 128) % 64) * 64 +
        (v % 64 + 128) % 64 = v := by omega
    rw [hvalue]
    rfl
  · next hone htwo hthree =>
    have hfirst := toNat_ofNat (n := v / 262144 % 8 + 240) (by omega)
    refine ⟨_, _, rfl, ?_⟩
    rw [List.cons_append, List.cons_append, List.cons_append,
      leading?_quad _ (by rw [isQuad_iff, isTail_iff, isTail_iff, isTail_iff]; omega), codePoint,
      List.foldl_cons, List.foldl_cons, List.foldl_cons, List.foldl_nil, hfirst, hhigh, hmiddle,
      hlow, ← hchar]
    have hvalue : (((v / 262144 % 8 + 240) % 8 * 64 + (v / 4096 % 64 + 128) % 64) * 64 +
        (v / 64 % 64 + 128) % 64) * 64 + (v % 64 + 128) % 64 = v := by omega
    rw [hvalue]
    rfl

/-! ## Texts -/

theorem ofBytesAfter_append (skipped rest : List UInt8) :
    ofBytesAfter skipped.length (skipped ++ rest) = ofBytesAfter 0 rest := by
  induction skipped with
  | nil => rfl
  | cons byte skipped ih => exact ih

theorem ofBytes_flatMap (text : List Char) :
    ofBytes (text.flatMap String.utf8EncodeChar) = text.map .char := by
  induction text with
  | nil => rfl
  | cons c text ih =>
    obtain ⟨first, tails, hbytes, hleading⟩ :=
      leading?_utf8EncodeChar c (text.flatMap String.utf8EncodeChar)
    rw [List.flatMap_cons, hbytes, List.cons_append, ofBytes, ofBytesAfter, hleading]
    show Glyph.char c :: ofBytesAfter tails.length _ = _
    rw [ofBytesAfter_append, List.map_cons, ← ih, ofBytes]

/-- A file with a text in it is read as that text. -/
theorem ofBytes_toUTF8 (text : String) : ofBytes text.toUTF8.toList = ofText text := by
  have hbytes : text.toUTF8 = (text.toList.flatMap String.utf8EncodeChar).toByteArray := by
    show text.toByteArray = text.toList.utf8Encode
    rw [← String.toByteArray_ofList, String.ofList_toList]
  rw [hbytes, toList_eq_data_toList, List.toList_data_toByteArray, ofBytes_flatMap, ofText]

end Glyph
end CommandSchema
