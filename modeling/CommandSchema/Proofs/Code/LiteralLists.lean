/-
String literals and lists of them as a compiler reads them.

A literal begins with a quote and ends at the first quote that is not escaped.  A backslash stands
in front of a quote, a backslash, or the letter of a line feed or a tab, and in front of nothing
else; a line feed may not stand in a literal at all.  A list has its items between braces with
commas between them.  What is written of several texts is read as these texts, whatever they are
and whatever stands behind the list (`readList_literalList`).
-/
import CommandSchema.Code.Literal
import Mathlib.Data.List.Forall2

namespace CommandSchema
namespace Code

/-! ## Reading -/

/-- The character that an escape stands for. -/
def unescape? : Char → Option Char
  | '"' => some '"'
  | '\\' => some '\\'
  | 'n' => some '\n'
  | 't' => some '\t'
  | _ => none

/-- The characters up to the quote that ends a literal, and what is behind it. -/
def readEscaped : List Char → Option (List Char × List Char)
  | [] => none
  | '"' :: rest => some ([], rest)
  | ['\\'] => none
  | '\\' :: c :: rest => do
    let d ← unescape? c
    let (cs, behind) ← readEscaped rest
    return (d :: cs, behind)
  | '\n' :: _ => none
  | c :: rest => do
    let (cs, behind) ← readEscaped rest
    return (c :: cs, behind)

def readLiteral : List Char → Option (String × List Char)
  | '"' :: rest => do
    let (cs, behind) ← readEscaped rest
    return (String.ofList cs, behind)
  | _ => none

section List

variable {α : Type} (readItem : List Char → Option (α × List Char))

def skipBlanks (text : List Char) : List Char := text.dropWhile Char.isWhitespace

/-- The items of a list that has one, up to the brace that closes it. -/
def readItems (text : List Char) : Option (List α × List Char) := do
  let (x, rest) ← readItem (skipBlanks text)
  match skipBlanks rest with
  | '}' :: behind => return ([x], behind)
  | ',' :: more =>
    if more.length < text.length then
      let (xs, behind) ← readItems more
      return (x :: xs, behind)
    else none
  | _ => none
termination_by text.length

/-- The items of a list in braces, and what is behind it. -/
def readList : List Char → Option (List α × List Char)
  | '{' :: text =>
    match skipBlanks text with
    | '}' :: behind => some ([], behind)
    | _ => readItems readItem text
  | _ => none

end List

/-! ## Literals -/

theorem readEscaped_escape {letter c : Char} (h : unescape? letter = some c) (rest : List Char) :
    readEscaped ('\\' :: letter :: rest) =
      (readEscaped rest).map fun (cs, behind) => (c :: cs, behind) := by
  rw [readEscaped, h]
  cases readEscaped rest with
  | none => rfl
  | some p => rfl

theorem readEscaped_plain {c : Char} (hquote : c ≠ '"') (hbackslash : c ≠ '\\') (hfeed : c ≠ '\n')
    (rest : List Char) :
    readEscaped (c :: rest) = (readEscaped rest).map fun (cs, behind) => (c :: cs, behind) := by
  rw [readEscaped]
  · cases readEscaped rest with
    | none => rfl
    | some p => rfl
  · exact hquote
  · exact fun heq _ => hbackslash heq
  · exact fun _ _ heq _ => hbackslash heq
  · exact hfeed

/-- What is written of a character is read as that character, whatever follows. -/
theorem readEscaped_escapeChar (c : Char) (rest : List Char) :
    readEscaped (escapeChar c ++ rest) =
      (readEscaped rest).map fun (cs, behind) => (c :: cs, behind) := by
  unfold escapeChar
  by_cases hquote : c = '"'
  · rw [if_pos hquote, hquote]
    exact readEscaped_escape rfl rest
  by_cases hbackslash : c = '\\'
  · rw [if_neg hquote, if_pos hbackslash, hbackslash]
    exact readEscaped_escape rfl rest
  by_cases hfeed : c = '\n'
  · rw [if_neg hquote, if_neg hbackslash, if_pos hfeed, hfeed]
    exact readEscaped_escape rfl rest
  by_cases htab : c = '\t'
  · rw [if_neg hquote, if_neg hbackslash, if_neg hfeed, if_pos htab, htab]
    exact readEscaped_escape rfl rest
  rw [if_neg hquote, if_neg hbackslash, if_neg hfeed, if_neg htab]
  exact readEscaped_plain hquote hbackslash hfeed rest

theorem readEscaped_closed (cs rest : List Char) :
    readEscaped (escape cs ++ '"' :: rest) = some (cs, rest) := by
  induction cs with
  | nil => rfl
  | cons c cs ih =>
    rw [escape, List.flatMap_cons, ← escape, List.append_assoc, readEscaped_escapeChar, ih]
    rfl

theorem toList_literal (s : String) : (literal s).toList = '"' :: (escape s.toList ++ ['"']) := by
  simp only [literal, String.toList_append, String.toList_ofList, List.append_assoc]
  rfl

/-- A literal ends at its own last quote, whatever stands behind it. -/
theorem readLiteral_literal (s : String) (rest : List Char) :
    readLiteral ((literal s).toList ++ rest) = some (s, rest) := by
  have hopen : (literal s).toList ++ rest = '"' :: (escape s.toList ++ '"' :: rest) := by
    rw [toList_literal, List.cons_append, List.append_assoc, List.singleton_append]
  rw [hopen, readLiteral, readEscaped_closed]
  exact congrArg (fun t => some (t, rest)) String.ofList_toList

/-- A line feed that is not escaped is an error. -/
example : readLiteral "\"a\nb\"".toList = none := by decide

/-! ## Lists -/

/-- The characters that may stand behind a value, in a list or at the end of a statement. -/
def valueEnds : List Char := [',', '}', ';']

/-- A text that a reader takes for a value, in front of whatever may stand behind a value. -/
structure ReadAs {α : Type} (readItem : List Char → Option (α × List Char)) (x : α)
    (text : String) : Prop where
  first : ∃ c cs, text.toList = c :: cs ∧ c.isWhitespace = false ∧ c ≠ '}'
  read : ∀ mark ∈ valueEnds, ∀ rest, readItem (text.toList ++ mark :: rest) = some (x, mark :: rest)

theorem readAs_literal (s : String) : ReadAs readLiteral s (literal s) where
  first := ⟨'"', _, toList_literal s, rfl, by decide⟩
  read := fun mark _ rest => readLiteral_literal s (mark :: rest)

/-- A text that is a value and goes on in some way begins with a character of the value. -/
theorem ReadAs.first_intercalate {α : Type} {readItem : List Char → Option (α × List Char)} {x : α}
    {text : String} (h : ReadAs readItem x text) (texts : List String) :
    ∃ c cs, (String.intercalate ", " (text :: texts)).toList = c :: cs ∧
      c.isWhitespace = false ∧ c ≠ '}' := by
  obtain ⟨c, cs, htext, hfirst⟩ := h.first
  cases texts with
  | nil =>
    rw [String.intercalate_singleton]
    exact ⟨c, cs, htext, hfirst⟩
  | cons next rest =>
    rw [String.intercalate_cons_cons, String.append_assoc, String.toList_append, htext]
    exact ⟨c, _, List.cons_append, hfirst⟩

theorem skipBlanks_cons {c : Char} (h : c.isWhitespace = false) (cs : List Char) :
    skipBlanks (c :: cs) = c :: cs := by
  rw [skipBlanks, List.dropWhile_cons_of_neg (by rw [h]; exact Bool.false_ne_true)]

section

variable {α : Type} {readItem : List Char → Option (α × List Char)}

theorem readItems_last {x : α} {text : String} (h : ReadAs readItem x text)
    {source rest : List Char} (hsource : skipBlanks source = text.toList ++ '}' :: rest) :
    readItems readItem source = some ([x], rest) := by
  rw [readItems, hsource, h.read '}' (by decide)]
  rfl

theorem readItems_comma {x : α} {text : String} (h : ReadAs readItem x text)
    {source rest : List Char} (hsource : skipBlanks source = text.toList ++ ',' :: rest) :
    readItems readItem source =
      (readItems readItem rest).map fun (xs, behind) => (x :: xs, behind) := by
  have hshorter : rest.length < source.length := by
    have hlength := congrArg List.length hsource
    have hle : (skipBlanks source).length ≤ source.length := (List.dropWhile_sublist _).length_le
    rw [List.length_append, List.length_cons] at hlength
    omega
  rw [readItems, hsource, h.read ',' (by decide)]
  simp only [Option.bind_eq_bind, Option.bind_some, skipBlanks_cons (c := ',') rfl]
  rw [if_pos hshorter]
  cases readItems readItem rest with
  | none => rfl
  | some p => rfl

/-- Items with commas between them are read up to the brace behind them. -/
theorem readItems_intercalate {xs : List α} {texts : List String}
    (h : List.Forall₂ (ReadAs readItem) xs texts) (hne : xs ≠ []) {source rest : List Char}
    (hsource : skipBlanks source = (String.intercalate ", " texts).toList ++ '}' :: rest) :
    readItems readItem source = some (xs, rest) := by
  induction h generalizing source with
  | nil => exact absurd rfl hne
  | @cons x text xs texts hx hxs ih =>
    cases hxs with
    | nil =>
      rw [String.intercalate_singleton] at hsource
      exact readItems_last hx hsource
    | @cons y next ys nexts hy hys =>
      have hbehind : skipBlanks (' ' :: ((String.intercalate ", " (next :: nexts)).toList ++
          '}' :: rest)) = (String.intercalate ", " (next :: nexts)).toList ++ '}' :: rest := by
        obtain ⟨c, cs, htext, hblank, -⟩ := hy.first_intercalate nexts
        have hspace : skipBlanks (' ' :: c :: (cs ++ '}' :: rest)) =
            skipBlanks (c :: (cs ++ '}' :: rest)) := List.dropWhile_cons_of_pos rfl
        rw [htext, List.cons_append, hspace, skipBlanks_cons hblank]
      have hcomma : skipBlanks source = text.toList ++ ',' ::
          (' ' :: ((String.intercalate ", " (next :: nexts)).toList ++ '}' :: rest)) := by
        rw [hsource, String.intercalate_cons_cons, String.toList_append, String.toList_append,
          List.append_assoc, List.append_assoc]
        rfl
      rw [readItems_comma hx hcomma, ih (List.cons_ne_nil y ys) hbehind]
      rfl

/-- A list in braces is read as its items, whatever stands behind it. -/
theorem readList_braces {xs : List α} {texts : List String}
    (h : List.Forall₂ (ReadAs readItem) xs texts) (rest : List Char) :
    readList readItem (("\x7b" ++ String.intercalate ", " texts ++ "\x7d").toList ++ rest) =
      some (xs, rest) := by
  have hsource : ("\x7b" ++ String.intercalate ", " texts ++ "\x7d").toList ++ rest =
      '{' :: ((String.intercalate ", " texts).toList ++ '}' :: rest) := by
    simp only [String.toList_append, List.append_assoc]
    rfl
  rw [hsource]
  cases h with
  | nil => rfl
  | @cons x text xs texts hx hxs =>
    obtain ⟨c, cs, htext, hblank, hbrace⟩ := hx.first_intercalate texts
    have hskip : skipBlanks ((String.intercalate ", " (text :: texts)).toList ++ '}' :: rest) =
        (String.intercalate ", " (text :: texts)).toList ++ '}' :: rest := by
      rw [htext, List.cons_append, skipBlanks_cons hblank]
    have hitems := readItems_intercalate (List.Forall₂.cons hx hxs) (List.cons_ne_nil x xs) hskip
    unfold readList
    simp only [hskip]
    split
    next behind heq =>
      rw [htext] at heq
      exact absurd (List.cons.inj heq).1 hbrace
    next => exact hitems

end

theorem readAs_literals (items : List String) :
    List.Forall₂ (ReadAs readLiteral) items (items.map literal) :=
  List.forall₂_map_right_iff.mpr (List.forall₂_same.mpr fun s _ => readAs_literal s)

/-- A list of literals is read as the texts that were written, whatever they are, and what is left
then is what stands behind it, whatever that is. -/
theorem readList_literalList (items : List String) (behind : String) :
    readList readLiteral (literalList items ++ behind).toList = some (items, behind.toList) := by
  rw [String.toList_append]
  exact readList_braces (readAs_literals items) behind.toList

end Code
end CommandSchema
