/-
The text of a schema.

A schema is written as one object, whose entries keep their order and their repetitions, and it is
read back as it was written (`parse_toJson`).  The objects inside its values are another matter: a
reader puts their fields in order, so only those come back as they were that are in order already,
as all are that have been read before (`isOrdered_of_ofGlyphs`).

`written?` are the entries of a text with every field that stands in it (`written?_toJson`).  What is
read of the text are these entries with their values settled (`written?_of_ofGlyphs`).
-/
import CommandSchema.Proofs.Json.Ordered
import CommandSchema.Proofs.Json.ReadBack

namespace CommandSchema
namespace Schema

open Json (Origin readFields readWritten)

/-! ## What is written -/

/-- The entries of the object that a source begins with, as they are written. -/
def written? (origin : Origin) (source : List Glyph) : Option (List (String × Json.Value)) :=
  match Json.skipSpace source with
  | .char '{' :: rest =>
    ((readFields (readWritten origin (Json.maxDepth - 1)) (rest.length + 1) true rest).map
      Prod.fst).toOption
  | _ => none

theorem complete_eq_ok_iff {α : Type} {source : List Glyph} {reading : Json.Reading α} {value : α} :
    Json.complete source reading = .ok value ↔
      ∃ rest, reading = .ok (value, rest) ∧ Json.skipSpace rest = [] := by
  unfold Json.complete
  cases reading with
  | error fault => simp
  | ok found =>
    obtain ⟨v, rest⟩ := found
    cases hrest : Json.skipSpace rest with
    | nil => simp [hrest]
    | cons g rest' =>
      simp only [hrest, reduceCtorEq, Except.ok.injEq, Prod.mk.injEq, false_iff, not_exists]
      rintro _ ⟨⟨-, rfl⟩, hend⟩
      rw [hrest] at hend
      cases hend

/-- Only an object has entries. -/
theorem readEntries_eq_ok {origin : Origin} {expected : String} {source rest : List Glyph}
    {entries : List (String × Json.Value)}
    (h : Json.readEntries origin expected source = .ok (entries, rest)) :
    ∃ body, Json.skipSpace source = .char '{' :: body ∧
      readFields (Json.readValue origin (Json.maxDepth - 1)) (body.length + 1) true body =
        .ok (entries, rest) := by
  unfold Json.readEntries at h
  split at h
  · next body heq => exact ⟨body, heq, h⟩
  · cases h
  · split at h
    · cases h
    · split at h <;> cases h

/-- The entries of a schema are those of its text, with their values settled. -/
theorem written?_of_ofGlyphs {origin : Origin} {source : List Glyph} {s : Schema}
    (h : ofGlyphs origin source = .ok s) :
    ∃ entries, written? origin source = some entries ∧
      s.entries = entries.map (Prod.map id Json.Value.settle) := by
  obtain ⟨found, hfound, hs⟩ := Outcome.map_eq_ok_iff.mp h
  obtain ⟨rest, hread, -⟩ := complete_eq_ok_iff.mp hfound
  obtain ⟨body, hsource, hfields⟩ := readEntries_eq_ok hread
  have hmap := Json.readFields_map (Json.readValue_eq_settle origin (Json.maxDepth - 1))
    (body.length + 1) true body
  rw [hfields] at hmap
  obtain ⟨written, hwritten, hsettled⟩ := Outcome.map_eq_ok_iff.mp hmap.symm
  obtain ⟨hentries, -⟩ := Prod.mk.inj hsettled
  refine ⟨written.1, ?_, ?_⟩
  · rw [Schema.written?, hsource]
    show ((readFields _ _ true body).map Prod.fst).toOption = _
    rw [hwritten]
    rfl
  · rw [← hs, ← hentries]

/-- The values of a schema that is read are in order. -/
theorem isOrdered_of_ofGlyphs {origin : Origin} {source : List Glyph} {s : Schema}
    (h : ofGlyphs origin source = .ok s) : ∀ entry ∈ s.entries, entry.2.IsOrdered := by
  obtain ⟨entries, -, hentries⟩ := written?_of_ofGlyphs h
  intro entry hentry
  rw [hentries] at hentry
  obtain ⟨original, -, rfl⟩ := List.mem_map.mp hentry
  exact Json.Value.isOrdered_settle original.2

/-! ## Writing -/

/-- An entry of a schema in a text. -/
def entryText (entry : String × Json.Value) : String :=
  (Json.Value.string entry.1).text ++ ":" ++ entry.2.text

/-- The text of a schema: one object with its entries in their order, their values compact. -/
def toJson (s : Schema) : String :=
  "\x7b" ++ String.intercalate "," (s.entries.map entryText) ++ "\x7d"

theorem entryText_eq (entry : String × Json.Value) :
    entryText entry = String.ofList (Json.stringChars entry.1 ++ ':' :: entry.2.chars) := by
  have hcolon : ":" = String.ofList [':'] := rfl
  rw [entryText, hcolon, Json.Value.text, Json.Value.text, Json.Value.chars,
    ← String.ofList_append, ← String.ofList_append, List.append_assoc]
  rfl

theorem ofList_fieldsChars (fields : List (String × Json.Value)) :
    String.ofList (Json.Value.fieldsChars fields) =
      String.intercalate "," (fields.map entryText) := by
  induction fields with
  | nil => rfl
  | cons field fields ih =>
    cases fields with
    | nil =>
      rw [List.map_singleton, String.intercalate_singleton, entryText_eq]
      rfl
    | cons next fields =>
      have hcomma : "," = String.ofList [','] := rfl
      have hrest : Json.Value.fieldsFrom false (next :: fields) =
          [','] ++ Json.Value.fieldsChars (next :: fields) := rfl
      rw [Json.Value.fieldsChars_cons, String.ofList_append, ← entryText_eq, hrest,
        String.ofList_append, ih, ← hcomma, ← String.append_assoc]
      exact (String.intercalate_cons_of_ne_nil (List.cons_ne_nil _ _)).symm

theorem toJson_eq (s : Schema) : s.toJson = (Json.Value.object s.entries).text := by
  have hopen : "\x7b" = String.ofList ['{'] := rfl
  have hclose : "\x7d" = String.ofList ['}'] := rfl
  rw [toJson, ← ofList_fieldsChars, hopen, hclose, ← String.ofList_append, ← String.ofList_append,
    Json.Value.text, Json.Value.chars]
  rfl

section ReadBack

variable (origin : Origin) {s : Schema} (hexact : ∀ entry ∈ s.entries, entry.2.IsExact)
  (hdepth : ∀ entry ∈ s.entries, entry.2.depth ≤ 126)

include hexact hdepth

theorem readFields_toJson :
    ∃ body, Json.skipSpace (Glyph.ofText s.toJson) = .char '{' :: body ∧
      readFields (readWritten origin (Json.maxDepth - 1)) (body.length + 1) true body =
        .ok (s.entries, []) := by
  have hsource : Glyph.ofText s.toJson =
      .char '{' :: (Json.glyphs (Json.Value.fieldsFrom true s.entries) ++ [.char '}']) := by
    have hchars : s.toJson.toList =
        '{' :: (Json.Value.fieldsFrom true s.entries ++ ['}']) := by
      rw [toJson_eq, Json.Value.text, String.toList_ofList, Json.Value.chars]
      cases s.entries <;> rfl
    rw [Glyph.ofText, hchars, List.map_cons, List.map_append]
    rfl
  have hback : ∀ entry ∈ s.entries, ∀ rest, Json.EndsNumber rest →
      readWritten origin (Json.maxDepth - 1) (Json.glyphs entry.2.chars ++ rest) =
        .ok (entry.2, rest) := fun entry hentry rest hrest =>
    Json.readWritten_chars origin (hexact entry hentry) (hdepth entry hentry) hrest
  have hlength := Json.Value.length_le_length_fieldsFrom true s.entries
  refine ⟨_, hsource ▸ Json.skipSpace_cons rfl _, Json.readFields_fieldsFrom hback ?_ true []⟩
  rw [List.length_append, Json.length_glyphs]
  omega

/-- The text of a schema has its entries as they are. -/
theorem written?_toJson : written? origin (Glyph.ofText s.toJson) = some s.entries := by
  obtain ⟨body, hsource, hfields⟩ := readFields_toJson origin hexact hdepth
  rw [written?, hsource]
  show ((readFields _ _ true body).map Prod.fst).toOption = _
  rw [hfields]
  rfl

/-- What is read of the text of a schema: its entries in their order, with their values settled. -/
theorem ofGlyphs_toJson :
    ofGlyphs origin (Glyph.ofText s.toJson) =
      .ok ⟨s.entries.map (Prod.map id Json.Value.settle)⟩ := by
  obtain ⟨body, hsource, hfields⟩ := readFields_toJson origin hexact hdepth
  have hread : Json.readEntries origin rootShape (Glyph.ofText s.toJson) =
      .ok (s.entries.map (Prod.map id Json.Value.settle), []) := by
    rw [Json.readEntries, hsource]
    show readFields _ _ true body = _
    rw [Json.readFields_map (Json.readValue_eq_settle origin (Json.maxDepth - 1)), hfields]
    rfl
  rw [ofGlyphs, Json.entries, hread]
  rfl

end ReadBack

/-- A schema is read back from its text, entry by entry and with every repetition of a name.  Its
values may hold any integer of 64 bits and any text, but no floating-point number, and at most 126
brackets may be open at once in them; their objects are in order, like all that a reader gives. -/
theorem parse_toJson {s : Schema} (hordered : ∀ entry ∈ s.entries, entry.2.IsOrdered)
    (hexact : ∀ entry ∈ s.entries, entry.2.IsExact)
    (hdepth : ∀ entry ∈ s.entries, entry.2.depth ≤ 126) : Schema.parse s.toJson = .ok s := by
  have hsettle : ∀ entry ∈ s.entries, Prod.map id Json.Value.settle entry = entry :=
    fun entry hentry => Prod.ext rfl (Json.Value.settle_eq_self (hordered entry hentry))
  rw [Schema.parse, ofGlyphs_toJson .memory hexact hdepth, List.map_congr_left hsettle,
    List.map_id']

/-- A schema with a repeated name, a name to be escaped, the limits of the integers and an object
inside an object. -/
def repeatedNames : Schema := ⟨[
  ("zeta", .object [("arg", .array [.number (.integer (-9223372036854775808) (by decide)),
    .number (.integer 18446744073709551615 (by decide))]), ("help", .string "a\"b\\\n\x01é")]),
  ("\talpha", .array [.object [("in", .object [("a", .null), ("b", .bool true)])]]),
  ("zeta", .string "again")]⟩

theorem parse_toJson_repeatedNames :
    repeatedNames.toJson = "\x7b\"zeta\":\x7b\"arg\":[-9223372036854775808,18446744073709551615]," ++
      "\"help\":\"a\\\"b\\\\\\n\\u0001é\"\x7d," ++
      "\"\\talpha\":[\x7b\"in\":\x7b\"a\":null,\"b\":true\x7d\x7d]," ++
      "\"zeta\":\"again\"\x7d" ∧
    Schema.parse repeatedNames.toJson = .ok repeatedNames := by
  refine ⟨by decide +kernel, parse_toJson ?_ ?_ ?_⟩
  · have hsettled : ∀ entry ∈ repeatedNames.entries, entry.2.settle = entry.2 := by
      simp only [repeatedNames, List.forall_mem_cons]
      exact ⟨rfl, rfl, rfl, by simp⟩
    exact fun entry hentry => Json.Value.isOrdered_iff.mpr (hsettled entry hentry)
  · simp [repeatedNames]
  · decide

end Schema
end CommandSchema
